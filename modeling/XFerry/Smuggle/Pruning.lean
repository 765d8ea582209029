/-
What a pruning removes of the artifacts that it lists: what has expired, and then the oldest,
as many as the limits ask for.  A claimed artifact is neither.
-/

import XFerry.Eviction
import XFerry.Smuggle.ArtifactStore

namespace XFerry.Smuggle

open Python Eviction List

variable {Time : Type} {removal : Text → Removal} {store : ArtifactStore Time}

theorem claimed_discard {name : Text} (free : store.claimed name = false) :
    (store.discard name).claimed = store.claimed := by
  change Function.update store.claimed name false = store.claimed
  rw [← free, Function.update_eq_self]

theorem claimed_removeLocked (artifact : SmuggleTempArtifact Time) :
    (removeLocked removal artifact store).claimed = store.claimed := by
  unfold removeLocked
  split
  · rfl
  rename_i unclaimed
  have free : store.claimed artifact.name = false := Bool.eq_false_iff.mpr unclaimed
  split
  · have unlinked : (store.unlink artifact.name).claimed artifact.name = false := free
    exact claimed_discard unlinked
  · exact claimed_discard free
  · rfl

variable {artifact gone : SmuggleTempArtifact Time}

theorem kept_removeLocked (present : artifact ∈ store.artifacts)
    (kept : store.claimed artifact.name = true ∨ gone.name ≠ artifact.name) :
    artifact ∈ (removeLocked removal gone store).artifacts := by
  unfold removeLocked
  split
  · exact present
  rename_i unclaimed
  split
  · refine mem_filter.mpr ⟨present, decide_eq_true fun same => ?_⟩
    rcases kept with claimed | different
    · rw [same] at claimed
      exact unclaimed claimed
    · exact different same.symm
  · exact present
  · exact present

theorem subset_removeLocked (left : artifact ∈ (removeLocked removal gone store).artifacts) :
    artifact ∈ store.artifacts := by
  unfold removeLocked at left
  split at left
  · exact left
  split at left
  · exact mem_of_mem_filter left
  · exact left
  · exact left

def removeAll (removal : Text → Removal) (gone : List (SmuggleTempArtifact Time))
    (store : ArtifactStore Time) : ArtifactStore Time :=
  gone.foldl (fun current artifact => removeLocked removal artifact current) store

theorem claimed_removeAll (gone : List (SmuggleTempArtifact Time)) :
    (removeAll removal gone store).claimed = store.claimed := by
  induction gone generalizing store with
  | nil => rfl
  | cons first rest ih =>
    change (removeAll removal rest (removeLocked removal first store)).claimed = _
    rw [ih, claimed_removeLocked]

variable {gone : List (SmuggleTempArtifact Time)} {artifact : SmuggleTempArtifact Time}

theorem kept_removeAll (present : artifact ∈ store.artifacts)
    (kept : store.claimed artifact.name = true ∨ ∀ other ∈ gone, other.name ≠ artifact.name) :
    artifact ∈ (removeAll removal gone store).artifacts := by
  induction gone generalizing store with
  | nil => exact present
  | cons first rest ih =>
    refine ih (kept_removeLocked present ?_) ?_
    · exact kept.imp_right fun others => others first mem_cons_self
    · rw [claimed_removeLocked]
      exact kept.imp_right fun others other later => others other (mem_cons_of_mem _ later)

theorem subset_removeAll (left : artifact ∈ (removeAll removal gone store).artifacts) :
    artifact ∈ store.artifacts := by
  induction gone generalizing store with
  | nil => exact left
  | cons first rest ih => exact subset_removeLocked (ih left)

theorem ArtifactStore.same_of_name {first second : SmuggleTempArtifact Time}
    (isFirst : first ∈ store.artifacts) (isSecond : second ∈ store.artifacts)
    (same : first.name = second.name) : first = second :=
  inj_on_of_nodup_map store.distinct isFirst isSecond same

variable {listing : Listing}

theorem listed_sublist : listed listing store <+ store.artifacts := by
  unfold listed
  split
  · exact nil_sublist _
  · exact filter_sublist

theorem not_isForgotten (isListed : artifact ∈ listed listing store) :
    isForgotten listing store artifact.name = false := by
  unfold listed at isListed
  split at isListed
  · cases isListed
  have read := of_decide_eq_true (mem_filter.mp isListed).2
  rw [isForgotten, read]
  exact Bool.and_false _

theorem claimed_forget {gone : Text → Bool} {name : Text} (kept : gone name = false) :
    (store.forget gone).claimed name = store.claimed name := by
  change (store.claimed name && !gone name) = store.claimed name
  rw [kept]
  exact Bool.and_true _

theorem claimed_artifactsLocked (isListed : artifact ∈ listed listing store) :
    (artifactsLocked listing store).2.claimed artifact.name = store.claimed artifact.name :=
  claimed_forget (not_isForgotten isListed)

theorem kept_removeAllLocked {calls : PruningCalls} (present : artifact ∈ store.artifacts)
    (claimed : store.claimed artifact.name = true) :
    artifact ∈ (removeAllLocked calls store).artifacts := by
  by_cases isListed : artifact ∈ listed calls.listing store
  · have still := claimed_artifactsLocked isListed
    exact kept_removeAll present (.inl (still.trans claimed))
  · refine kept_removeAll present (.inr fun other member same => ?_)
    obtain rfl := store.same_of_name (listed_sublist.subset member) present same
    exact isListed member

def exceedsWith (policy : SmuggleTempPolicy Time) (pendingBytes pendingFiles count total : Nat) :
    Bool :=
  projectionExceeds policy (count + pendingFiles) (total + pendingBytes)

theorem evictFrom_eq (policy : SmuggleTempPolicy Time) (pendingBytes pendingFiles rounds : Nat)
    (artifacts : List (SmuggleTempArtifact Time)) :
    evictFrom policy removal pendingBytes pendingFiles rounds artifacts store =
      let taken := evict (fun artifact => store.claimed artifact.name)
        (exceedsWith policy pendingBytes pendingFiles) SmuggleTempArtifact.size rounds artifacts
      (taken, removeAll removal taken store) := by
  induction rounds generalizing artifacts store with
  | zero => rfl
  | succ rounds ih =>
    unfold evictFrom evict
    change (if artifacts ≠ [] ∧ exceedsWith policy pendingBytes pendingFiles artifacts.length
      (total SmuggleTempArtifact.size artifacts) = true then _ else _) = _
    split
    · cases artifacts.findIdx? fun artifact => !store.claimed artifact.name with
      | none => rfl
      | some index =>
        dsimp only
        cases artifacts[index]? with
        | none => rfl
        | some oldest =>
          dsimp only
          rw [ih, claimed_removeLocked]
          rfl
    · rfl

section Phases

variable [LinearOrder Time] [Sub Time] {policy : SmuggleTempPolicy Time} {now : Time}

theorem isExpired_of_claims {later : ArtifactStore Time} (same : later.claimed = store.claimed)
    (artifact : SmuggleTempArtifact Time) :
    isExpired policy now later artifact = isExpired policy now store artifact := by
  unfold isExpired
  rw [same]

theorem claimed_of_isExpired {artifact : SmuggleTempArtifact Time}
    (expired : isExpired policy now store artifact = true) :
    store.claimed artifact.name = false := by
  unfold isExpired at expired
  split at expired
  · cases expired
  · rw [Bool.and_eq_true, Bool.not_eq_true'] at expired
    exact expired.2

theorem expireFrom_eq (artifacts : List (SmuggleTempArtifact Time)) :
    expireFrom policy now removal artifacts store =
      (artifacts.filter (fun artifact => !isExpired policy now store artifact),
        removeAll removal (artifacts.filter (isExpired policy now store)) store) := by
  induction artifacts generalizing store with
  | nil => rfl
  | cons artifact rest ih =>
    have later : ∀ other, isExpired policy now (removeLocked removal artifact store) other =
        isExpired policy now store other := isExpired_of_claims (claimed_removeLocked artifact)
    unfold expireFrom
    split
    · case _ expired =>
        rw [ih, filter_cons_of_neg (by rw [expired]; decide), filter_cons_of_pos expired]
        have sameFresh : (fun other => !isExpired policy now
            (removeLocked removal artifact store) other) =
            fun other => !isExpired policy now store other := by
          funext other
          rw [later]
        have sameGone : isExpired policy now (removeLocked removal artifact store) =
            isExpired policy now store := funext later
        rw [sameFresh, sameGone]
        rfl
    · case _ fresh =>
        rw [ih, filter_cons_of_pos (by rw [Bool.eq_false_iff.mpr fresh]; rfl),
          filter_cons_of_neg fresh]

def freshOf (policy : SmuggleTempPolicy Time) (now : Time) (store : ArtifactStore Time)
    (artifacts : List (SmuggleTempArtifact Time)) : List (SmuggleTempArtifact Time) :=
  artifacts.filter fun artifact => !isExpired policy now store artifact

/-- The files that are listed are pruned by age and then, oldest first, by the limits. -/
structure PrunesAsNeeded (policy : SmuggleTempPolicy Time) (now : Time)
    (pendingBytes pendingFiles : Nat) (artifacts : List (SmuggleTempArtifact Time))
    (store : ArtifactStore Time) (pruning : Pruning Time) : Prop where
  fresh : pruning.fresh.Perm (freshOf policy now store artifacts)
  sorted : pruning.fresh.Pairwise fun left right => left.mtime ≤ right.mtime
  oldestFirst : pruning.evicted <+:
    pruning.fresh.filter fun artifact => !store.claimed artifact.name
  needed : ∀ earlier < pruning.evicted.length,
    projectionExceeds policy (pruning.fresh.length - earlier + pendingFiles)
      (ArtifactStore.totalBytes pruning.fresh -
        ArtifactStore.totalBytes (pruning.evicted.take earlier) + pendingBytes) = true
  enough : projectionExceeds policy
      (pruning.fresh.length - pruning.evicted.length + pendingFiles)
      (ArtifactStore.totalBytes pruning.fresh - ArtifactStore.totalBytes pruning.evicted +
        pendingBytes) = false ∨
    pruning.fresh.filter (fun artifact => !store.claimed artifact.name) = pruning.evicted
  claimedKept : ∀ artifact ∈ store.artifacts, store.claimed artifact.name = true →
    artifact ∈ pruning.store.artifacts ∧ artifact ∉ pruning.evicted
  onlyThese : ∀ artifact ∈ store.artifacts, artifact ∉ pruning.store.artifacts →
    store.claimed artifact.name = false ∧ artifact ∈ artifacts ∧
      (isExpired policy now store artifact = true ∨ artifact ∈ pruning.evicted)
  nothingNew : ∀ artifact ∈ pruning.store.artifacts, artifact ∈ store.artifacts

/-- A pruning by the claims that there were before its listing. -/
theorem cleanupLocked_eq (policy : SmuggleTempPolicy Time) (now : Time) (calls : PruningCalls)
    (pendingBytes pendingFiles : Nat) (store : ArtifactStore Time) :
    cleanupLocked policy now calls pendingBytes pendingFiles store =
      let artifacts := listed calls.listing store
      let known := (artifactsLocked calls.listing store).2
      let fresh := (freshOf policy now store artifacts).insertionSort fun left right =>
        left.mtime ≤ right.mtime
      let current := removeAll calls.removal (artifacts.filter (isExpired policy now store)) known
      let taken := evict (fun artifact => known.claimed artifact.name)
        (exceedsWith policy pendingBytes pendingFiles) SmuggleTempArtifact.size fresh.length fresh
      { fresh := fresh, evicted := taken, store := removeAll calls.removal taken current } := by
  have expires : ∀ artifact ∈ listed calls.listing store,
      isExpired policy now (artifactsLocked calls.listing store).2 artifact =
        isExpired policy now store artifact := by
    intro artifact member
    unfold isExpired
    rw [claimed_artifactsLocked member]
  have sameFresh : (listed calls.listing store).filter (fun artifact =>
      !isExpired policy now (artifactsLocked calls.listing store).2 artifact) =
      freshOf policy now store (listed calls.listing store) :=
    filter_congr fun artifact member => congrArg not (expires artifact member)
  have sameGone : (listed calls.listing store).filter
      (isExpired policy now (artifactsLocked calls.listing store).2) =
      (listed calls.listing store).filter (isExpired policy now store) := filter_congr expires
  unfold cleanupLocked
  dsimp only
  rw [← sameFresh, ← sameGone, expireFrom_eq]
  dsimp only
  rw [evictFrom_eq, claimed_removeAll]
  rfl

theorem claimed_cleanupLocked (policy : SmuggleTempPolicy Time) (now : Time)
    (calls : PruningCalls) (pendingBytes pendingFiles : Nat) (store : ArtifactStore Time) :
    (cleanupLocked policy now calls pendingBytes pendingFiles store).store.claimed =
      (artifactsLocked calls.listing store).2.claimed := by
  rw [cleanupLocked_eq]
  dsimp only
  rw [claimed_removeAll, claimed_removeAll]

theorem cleanupLocked_prunes (policy : SmuggleTempPolicy Time) (now : Time)
    (calls : PruningCalls) (pendingBytes pendingFiles : Nat) (store : ArtifactStore Time) :
    PrunesAsNeeded policy now pendingBytes pendingFiles (listed calls.listing store) store
      (cleanupLocked policy now calls pendingBytes pendingFiles store) := by
  obtain ⟨known, isKnown⟩ : ∃ known, (artifactsLocked calls.listing store).2 = known := ⟨_, rfl⟩
  have sameFiles : known.artifacts = store.artifacts := isKnown ▸ rfl
  have claims : ∀ artifact ∈ listed calls.listing store, known.claimed artifact.name =
      store.claimed artifact.name := isKnown ▸ fun artifact => claimed_artifactsLocked
  rw [cleanupLocked_eq, isKnown]
  obtain ⟨artifacts, isListed⟩ : ∃ artifacts, listed calls.listing store = artifacts := ⟨_, rfl⟩
  have inStore : artifacts <+ store.artifacts := isListed ▸ listed_sublist
  rw [isListed] at claims ⊢
  obtain ⟨sorted, isSorted⟩ : ∃ sorted, (freshOf policy now store artifacts).insertionSort
      (fun left right => left.mtime ≤ right.mtime) = sorted := ⟨_, rfl⟩
  have isFresh : sorted.Perm (freshOf policy now store artifacts) :=
    isSorted ▸ perm_insertionSort _ _
  dsimp only
  rw [isSorted]
  obtain ⟨taken, isTaken⟩ : ∃ taken, evict (fun artifact => known.claimed artifact.name)
      (exceedsWith policy pendingBytes pendingFiles) SmuggleTempArtifact.size sorted.length sorted =
        taken := ⟨_, rfl⟩
  rw [isTaken]
  have ofFresh : ∀ artifact ∈ sorted, artifact ∈ artifacts := fun artifact member =>
    mem_of_mem_filter (isFresh.subset member)
  have sameFree : sorted.filter (fun artifact => !known.claimed artifact.name) =
      sorted.filter fun artifact => !store.claimed artifact.name :=
    filter_congr fun artifact member => congrArg not (claims artifact (ofFresh artifact member))
  have isPrefix : taken <+: sorted.filter fun artifact => !store.claimed artifact.name := by
    rw [← sameFree, ← isTaken]
    exact evict_prefix sorted.length sorted
  have ofTaken : ∀ artifact ∈ taken, artifact ∈ artifacts ∧
      store.claimed artifact.name = false := by
    intro artifact member
    obtain ⟨inSorted, free⟩ := mem_filter.mp (isPrefix.subset member)
    exact ⟨ofFresh artifact inSorted, Bool.not_eq_true' _ ▸ free⟩
  have ofExpired : ∀ artifact ∈ artifacts.filter (isExpired policy now store),
      artifact ∈ artifacts ∧ store.claimed artifact.name = false := by
    intro artifact member
    obtain ⟨inList, expired⟩ := mem_filter.mp member
    exact ⟨inList, claimed_of_isExpired expired⟩
  -- An artifact stays of which no artifact with its name is among those that go.
  have stays : ∀ artifact ∈ store.artifacts,
      (artifact ∈ artifacts → isExpired policy now store artifact = false ∧ artifact ∉ taken) →
      artifact ∈ (removeAll calls.removal taken (removeAll calls.removal
        (artifacts.filter (isExpired policy now store)) known)).artifacts := by
    intro artifact present kept
    refine kept_removeAll (kept_removeAll (sameFiles ▸ present) (.inr ?_)) (.inr ?_)
    · intro other member same
      obtain ⟨inList, expired⟩ := mem_filter.mp member
      obtain rfl := store.same_of_name (inStore.subset inList) present same
      rw [(kept inList).1] at expired
      cases expired
    · intro other member same
      have inList := (ofTaken other member).1
      obtain rfl := store.same_of_name (inStore.subset inList) present same
      exact (kept inList).2 member
  constructor
  · exact isFresh
  · rw [← isSorted]
    exact pairwise_insertionSort _ _
  · exact isPrefix
  · intro earlier within
    rw [← isTaken] at within
    have exceeded := evict_needed sorted.length sorted within
    rw [isTaken] at exceeded
    exact exceeded
  · have ends := @evict_enough _ (fun artifact : SmuggleTempArtifact Time =>
      known.claimed artifact.name) (exceedsWith policy pendingBytes pendingFiles)
      SmuggleTempArtifact.size sorted.length sorted (Nat.le_refl _)
    rw [isTaken, sameFree] at ends
    exact ends
  · intro artifact present claimed
    have notTaken : artifact ∉ taken := by
      intro member
      rw [(ofTaken artifact member).2] at claimed
      cases claimed
    refine ⟨stays artifact present fun inList => ⟨Bool.eq_false_iff.mpr fun expired => ?_,
      notTaken⟩, notTaken⟩
    rw [(ofExpired artifact (mem_filter.mpr ⟨inList, expired⟩)).2] at claimed
    cases claimed
  · intro artifact present gone
    have goes : artifact ∈ artifacts ∧
        (isExpired policy now store artifact = true ∨ artifact ∈ taken) := by
      by_contra kept
      refine gone (stays artifact present fun inList => ?_)
      obtain ⟨fresh, notTaken⟩ := not_or.mp (not_and.mp kept inList)
      exact ⟨Bool.eq_false_iff.mpr fresh, notTaken⟩
    refine ⟨?_, goes⟩
    rcases goes with ⟨inList, expired | member⟩
    · exact (ofExpired artifact (mem_filter.mpr ⟨inList, expired⟩)).2
    · exact (ofTaken artifact member).2
  · intro artifact left
    exact sameFiles ▸ subset_removeAll (subset_removeAll left)

end Phases

end XFerry.Smuggle
