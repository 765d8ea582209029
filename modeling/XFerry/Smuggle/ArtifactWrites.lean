/-
Writes of artifacts: what one that is refused leaves, and the bounds that hold after each
that is not, over all runs of writes, responses and prunings.
-/

import XFerry.Smuggle.Pruning

namespace XFerry.Smuggle

open Python EventMachine Function List

open Unicode (ascii)

variable {Time : Type} {store : ArtifactStore Time}

/-! ### The file of a write -/

/-- The name was drawn, and opening it failed for another reason than its being taken. -/
def OpeningFails (env : WriteSurroundings Time) (suffix name : Text) : Prop :=
  ∃ attempt, env.openFails attempt = true ∧ name = artifactName (env.token attempt) suffix

/-- The new file comes after those that were there. -/
structure Reserved (length : Nat) (name : Text) (store later : ArtifactStore Time) : Prop where
  added : ∃ artifact : SmuggleTempArtifact Time, artifact.name = name ∧ artifact.size = length ∧
    later.artifacts = store.artifacts ++ [artifact]
  claimed : later.claimed = store.claimed

/-- No file is left of a write that fails, unless it cannot be unlinked. -/
structure NotReserved (env : WriteSurroundings Time) (suffix : Text)
    (store later : ArtifactStore Time) : Prop where
  kept : ∀ artifact ∈ store.artifacts, artifact ∈ later.artifacts ∨
    OpeningFails env suffix artifact.name
  nothingNew : ∀ artifact ∈ later.artifacts, artifact ∈ store.artifacts ∨
    env.unlinkFails artifact.name = true
  claimed : later.claimed = store.claimed

theorem claimed_unlinkSafe (unlinkFails : Text → Bool) (name : Text) :
    (unlinkSafe unlinkFails name store).claimed = store.claimed := by
  unfold unlinkSafe
  split <;> rfl

theorem mem_unlinkSafe (unlinkFails : Text → Bool) (name : Text)
    (artifact : SmuggleTempArtifact Time) :
    artifact ∈ (unlinkSafe unlinkFails name store).artifacts ↔
      artifact ∈ store.artifacts ∧ (artifact.name = name → unlinkFails name = true) := by
  unfold unlinkSafe
  split
  · case _ fails => exact ⟨fun present => ⟨present, fun _ => fails⟩, fun present => present.1⟩
  rename_i works
  change artifact ∈ store.artifacts.filter _ ↔ _
  rw [mem_filter, decide_eq_true_eq]
  refine and_congr_right fun _ => ⟨fun other same => absurd same other, fun fails same => ?_⟩
  exact works (fails same)

theorem reserveFrom_cases (env : WriteSurroundings Time) (suffix : Text)
    (length left attempt : Nat) :
    (∃ name later, reserveFrom env suffix length left attempt store = (.ok name, later) ∧
      Reserved length name store later) ∨
    ∃ error later, reserveFrom env suffix length left attempt store =
        (.error error, later) ∧ NotReserved env suffix store later := by
  induction left generalizing attempt with
  | zero =>
    exact .inr ⟨_, _, rfl, fun _ present => .inl present, fun _ present => .inl present, rfl⟩
  | succ left ih =>
    obtain ⟨name, isName⟩ : ∃ name, artifactName (env.token attempt) suffix = name := ⟨_, rfl⟩
    unfold reserveFrom
    rw [isName]
    by_cases opens : env.openFails attempt = true
    · rw [if_pos opens]
      refine .inr ⟨_, _, rfl, fun artifact present => ?_, fun artifact present => ?_,
        claimed_unlinkSafe _ _⟩
      · by_cases same : artifact.name = name
        · exact .inr ⟨attempt, opens, same.trans isName.symm⟩
        · exact .inl ((mem_unlinkSafe _ _ _).mpr ⟨present, fun isSame => absurd isSame same⟩)
      · exact .inl ((mem_unlinkSafe _ _ _).mp present).1
    · rw [if_neg opens]
      by_cases taken : store.isTaken name = true
      · rw [dif_pos taken]
        exact ih (attempt + 1)
      rw [dif_neg taken]
      have others : ∀ artifact ∈ store.artifacts, artifact.name ≠ name := by
        intro artifact present same
        exact store.not_mem_names name taken (same ▸ mem_map_of_mem present)
      by_cases writes : env.writeFails attempt = true
      · rw [if_pos writes]
        refine .inr ⟨_, _, rfl, fun artifact present => ?_, fun artifact present => ?_,
          claimed_unlinkSafe _ _⟩
        · refine .inl ((mem_unlinkSafe _ _ _).mpr ⟨mem_append_left _ present, ?_⟩)
          exact fun same => absurd same (others artifact present)
        · obtain ⟨created, discards⟩ := (mem_unlinkSafe _ _ _).mp present
          rcases mem_append.mp created with old | torn
          · exact .inl old
          · rw [mem_singleton.mp torn] at discards ⊢
            exact .inr (discards rfl)
      · rw [if_neg writes]
        exact .inl ⟨_, _, rfl, ⟨_, rfl, rfl, rfl⟩, rfl⟩

/-! ### Writes -/

section Listings

variable {listing : Listing}

/-- The directory is listed, and the status of each path is read. -/
def Listing.Complete (listing : Listing) : Prop :=
  listing.fails = false ∧ ∀ name, listing.look name = .read

theorem listed_of_complete (complete : listing.Complete) :
    listed listing store = store.artifacts := by
  rw [listed, if_neg (by rw [complete.1]; decide)]
  exact filter_eq_self.mpr fun artifact _ => decide_eq_true (complete.2 artifact.name)

theorem claimed_of_notLost {name : Text} (notLost : listing.look name ≠ .lost) :
    (artifactsLocked listing store).2.claimed name = store.claimed name := by
  refine claimed_forget ?_
  rw [isForgotten, decide_eq_false notLost]
  exact Bool.and_false _

end Listings

theorem exceedsLimit_mono {limit : Option Nat} {less more : Nat} (isLess : less ≤ more)
    (exceeds : exceedsLimit limit less = true) : exceedsLimit limit more = true := by
  cases limit with
  | none => cases exceeds
  | some limit =>
    have isOver : limit < less := of_decide_eq_true exceeds
    exact decide_eq_true (show limit < more by omega)

theorem projectionExceeds_mono {policy : SmuggleTempPolicy Time}
    {count total moreCount moreTotal : Nat}
    (isCount : count ≤ moreCount) (isTotal : total ≤ moreTotal)
    (exceeds : projectionExceeds policy count total = true) :
    projectionExceeds policy moreCount moreTotal = true := by
  rw [projectionExceeds, Bool.or_eq_true] at exceeds ⊢
  exact exceeds.imp (exceedsLimit_mono isCount) (exceedsLimit_mono isTotal)

section Writes

variable [LinearOrder Time] [Sub Time] {unicode : Unicode} {policy : SmuggleTempPolicy Time}
  {env : WriteSurroundings Time} {extension : Text} {length : Nat}

theorem deniedBy_eq_none {limit : Option Nat} {projected : Nat} {denial : Nat → QuotaExceeded} :
    deniedBy limit projected denial = none ↔ ∀ bound, limit = some bound → projected ≤ bound := by
  cases limit with
  | none =>
    constructor
    · intro _ bound same
      cases same
    · intro _
      rfl
  | some bound =>
    unfold deniedBy
    dsimp only
    constructor
    · intro accepted other same
      cases same
      by_contra isOver
      rw [if_pos (Nat.not_le.mp isOver)] at accepted
      cases accepted
    · intro within
      rw [if_neg (Nat.not_lt.mpr (within bound rfl))]

def pruned (policy : SmuggleTempPolicy Time) (env : WriteSurroundings Time)
    (length : Nat) (store : ArtifactStore Time) : ArtifactStore Time :=
  (cleanupLocked policy env.now env.pruning length 1 store).store

def checked (policy : SmuggleTempPolicy Time) (env : WriteSurroundings Time)
    (length : Nat) (store : ArtifactStore Time) : ArtifactStore Time :=
  (artifactsLocked env.checking (pruned policy env length store)).2

structure WithinLimits (policy : SmuggleTempPolicy Time) (store : ArtifactStore Time) : Prop where
  files : ∀ limit, policy.maxFileCount = some limit → store.artifacts.length ≤ limit
  bytes : ∀ limit, policy.maxTotalBytes = some limit →
    ArtifactStore.totalBytes store.artifacts ≤ limit

/-- How a write ends: before its pruning, at the check of the limits, or with the file. -/
inductive Wrote (policy : SmuggleTempPolicy Time) (env : WriteSurroundings Time)
    (length : Nat) (store : ArtifactStore Time) (outcome : WriteOutcome Time) : Prop where
  | refused (error : WriteError) (isResult : outcome.result = .error error)
      (same : outcome.store = store)
  | denied (error : WriteError) (isResult : outcome.result = .error error)
      (same : outcome.store = checked policy env length store)
  | failed (error : WriteError) (suffix : Text) (isResult : outcome.result = .error error)
      (notReserved : NotReserved env suffix (checked policy env length store)
        outcome.store)
  | written (name : Text) (isResult : outcome.result = .ok name)
      (reserved : Reserved length name (checked policy env length store) outcome.store)
      (accepted : checkCapacity policy length
        (listed env.checking (pruned policy env length store)) = none)

theorem write_cases (unicode : Unicode) (policy : SmuggleTempPolicy Time)
    (env : WriteSurroundings Time) (extension : Text) (length : Nat)
    (store : ArtifactStore Time) :
    Wrote policy env length store (write unicode policy env extension length store) := by
  unfold write
  split
  · exact .refused _ rfl rfl
  rename_i suffix _
  split
  · exact .refused _ rfl rfl
  dsimp only
  split
  · exact .denied _ rfl rfl
  rename_i accepted
  rcases @reserveFrom_cases _ (artifactsLocked env.checking (cleanupLocked policy
      env.now env.pruning length 1 store).store).2 env suffix length
      maxAttempts 0 with
    ⟨name, later, isReserved, reserved⟩ | ⟨error, later, isFailed, notReserved⟩
  · rw [isReserved]
    exact .written name rfl reserved accepted
  · rw [isFailed]
    exact .failed error suffix rfl notReserved

theorem write_claimed {name : Text} (prunes : env.pruning.listing.look name ≠ .lost)
    (checks : env.checking.look name ≠ .lost) :
    (write unicode policy env extension length store).store.claimed name =
      store.claimed name := by
  have kept : (checked policy env length store).claimed name = store.claimed name := by
    rw [checked, claimed_of_notLost checks, pruned, claimed_cleanupLocked,
      claimed_of_notLost prunes]
  cases write_cases unicode policy env extension length store with
  | refused error isResult same => rw [same]
  | denied error isResult same => rw [same, kept]
  | failed _ _ _ notReserved | written _ _ notReserved => rw [notReserved.claimed, kept]

theorem write_withinLimits {name : Text} (complete : env.checking.Complete)
    (written : (write unicode policy env extension length store).result = .ok name) :
    WithinLimits policy (write unicode policy env extension length store).store := by
  cases write_cases unicode policy env extension length store with
  | refused _ isResult | denied _ isResult | failed _ _ isResult =>
    rw [isResult] at written
    cases written
  | written other isResult reserved accepted =>
    obtain ⟨artifact, _, isSize, added⟩ := reserved.added
    unfold checkCapacity at accepted
    rw [listed_of_complete complete, Option.or_eq_none_iff, deniedBy_eq_none,
      deniedBy_eq_none] at accepted
    constructor
    · intro limit isLimit
      rw [added, length_append, length_singleton]
      exact accepted.1 limit isLimit
    · intro limit isLimit
      have bytes := accepted.2 limit isLimit
      unfold ArtifactStore.totalBytes at bytes ⊢
      rw [added, map_append, sum_append, map_singleton, sum_singleton, isSize]
      exact bytes

/-- The new artifact does not fit beside those that have not expired. -/
def Exceeding (policy : SmuggleTempPolicy Time) (now : Time) (length : Nat)
    (store : ArtifactStore Time) : Prop :=
  projectionExceeds policy ((freshOf policy now store store.artifacts).length + 1)
    (ArtifactStore.totalBytes (freshOf policy now store store.artifacts) + length) = true

theorem pruned_of_gone {artifact : SmuggleTempArtifact Time} (present : artifact ∈ store.artifacts)
    (gone : artifact ∉ (pruned policy env length store).artifacts) :
    store.claimed artifact.name = false ∧
      (isExpired policy env.now store artifact = true ∨
        Exceeding policy env.now length store) := by
  have prunes := cleanupLocked_prunes policy env.now env.pruning length 1 store
  obtain ⟨free, _, expired | evicted⟩ := prunes.onlyThese artifact present gone
  · exact ⟨free, .inl expired⟩
  refine ⟨free, .inr ?_⟩
  have exceeded := prunes.needed 0 (length_pos_of_mem evicted)
  have sameBytes : ArtifactStore.totalBytes (cleanupLocked policy env.now
      env.pruning length 1 store).fresh =
      ArtifactStore.totalBytes (freshOf policy env.now store (listed env.pruning.listing store)) :=
    (prunes.fresh.map SmuggleTempArtifact.size).sum_nat
  have fewer : freshOf policy env.now store (listed env.pruning.listing store) <+
      freshOf policy env.now store store.artifacts := listed_sublist.filter _
  have lessBytes : ArtifactStore.totalBytes (freshOf policy env.now store
        (listed env.pruning.listing store)) ≤
      ArtifactStore.totalBytes (freshOf policy env.now store store.artifacts) :=
    (fewer.map _).sum_le_sum fun _ _ => Nat.zero_le _
  have lessFiles := fewer.length_le
  rw [take_zero, prunes.fresh.length_eq, sameBytes] at exceeded
  exact projectionExceeds_mono (by omega) (by dsimp only [ArtifactStore.totalBytes] at *; omega)
    exceeded

/-- A write that is refused removes an artifact only where the retention does, or where the
opening of its own path fails; it leaves no artifact, unless it cannot unlink it. -/
theorem write_refused (unicode : Unicode) (policy : SmuggleTempPolicy Time)
    (env : WriteSurroundings Time) (extension : Text) (length : Nat)
    (store : ArtifactStore Time) (error : WriteError)
    (refused : (write unicode policy env extension length store).result =
      .error error) :
    (∀ artifact ∈ store.artifacts,
      artifact ∈ (write unicode policy env extension length store).store.artifacts ∨
        (store.claimed artifact.name = false ∧
          (isExpired policy env.now store artifact = true ∨
            Exceeding policy env.now length store)) ∨
        ∃ suffix, OpeningFails env suffix artifact.name) ∧
    ∀ artifact ∈ (write unicode policy env extension length store).store.artifacts,
      artifact ∈ store.artifacts ∨ env.unlinkFails artifact.name = true := by
  have prunes := cleanupLocked_prunes policy env.now env.pruning length 1 store
  cases write_cases unicode policy env extension length store with
  | refused _ _ same =>
    rw [same]
    exact ⟨fun _ present => .inl present, fun _ present => .inl present⟩
  | denied _ _ same =>
    rw [same]
    refine ⟨fun artifact present => ?_, fun artifact left => .inl (prunes.nothingNew _ left)⟩
    by_cases kept : artifact ∈ (pruned policy env length store).artifacts
    · exact .inl kept
    · exact .inr (.inl (pruned_of_gone present kept))
  | failed _ suffix _ notReserved =>
    refine ⟨fun artifact present => ?_, fun artifact left => ?_⟩
    · by_cases kept : artifact ∈ (pruned policy env length store).artifacts
      · exact (notReserved.kept artifact kept).imp_right fun fails => .inr ⟨suffix, fails⟩
      · exact .inr (.inl (pruned_of_gone present kept))
    · exact (notReserved.nothingNew artifact left).imp_left (prunes.nothingNew artifact)
  | written name isResult _ _ =>
    rw [isResult] at refused
    cases refused

end Writes

/-! ### Runs -/

structure StoreWorld (Time : Type) where
  store : ArtifactStore Time
  claims : Nat → Option Text

inductive StoreAction (Time : Type) where
  | write (env : WriteSurroundings Time) (extension : Text) (length : Nat)
  | cleanup (now : Time) (calls : PruningCalls)
  | removeAll (calls : PruningCalls)
  | usage (listing : Listing)
  /-- The directory is listed in another order from now on. -/
  | list (order : List (SmuggleTempArtifact Time))
  | claim (name : Text)
  | unlink (fails : Bool)
  | release

abbrev StoreEvent (Time : Type) := Nat × StoreAction Time

def ArtifactStore.release (name : Text) (store : ArtifactStore Time) : ArtifactStore Time :=
  store.discard name

/-- `_claim`, where it succeeds. -/
def ArtifactStore.claim (name : Text) (store : ArtifactStore Time) : ArtifactStore Time :=
  { store with claimed := update store.claimed name true }

def StoreWorld.start (store : ArtifactStore Time) : StoreWorld Time :=
  { store := store, claims := fun _ => none }

/-- The path that a response has claimed is claimed in the registry, for it alone. -/
structure Reserves (world : StoreWorld Time) : Prop where
  claimed : ∀ id name, world.claims id = some name → world.store.claimed name = true
  alone : ∀ first second name, world.claims first = some name → world.claims second = some name →
    first = second

theorem Reserves.become {world : StoreWorld Time} (reserves : Reserves world)
    {store : ArtifactStore Time} (same : ∀ id name, world.claims id = some name →
      store.claimed name = world.store.claimed name) :
    Reserves { world with store := store } where
  claimed := fun id name holds => (same id name holds).trans (reserves.claimed id name holds)
  alone := reserves.alone

theorem reserves_start : Reserves (StoreWorld.start store) where
  claimed := by
    intro id name holds
    cases holds
  alone := by
    intro first second name holds
    cases holds

section Runs

variable [LinearOrder Time] [Sub Time]

def storeStep (unicode : Unicode) (policy : SmuggleTempPolicy Time) :
    Machine (StoreWorld Time) (StoreEvent Time) := fun world event =>
  let id := event.1
  let become (store : ArtifactStore Time) : StoreWorld Time := { world with store := store }
  match event.2 with
  | .write env extension length =>
    some (become (write unicode policy env extension length world.store).store)
  | .cleanup now calls => some (become (cleanupLocked policy now calls 0 0 world.store).store)
  | .removeAll calls => some (become (removeAllLocked calls world.store))
  | .usage listing => some (become (artifactsLocked listing world.store).2)
  | .list order =>
    if same : order.Perm world.store.artifacts then
      some (become
        { world.store with
          artifacts := order
          distinct := (same.map _).nodup_iff.mpr world.store.distinct })
    else none
  | .claim name =>
    if world.claims id = none ∧ world.store.registered name = true ∧
        world.store.claimed name = false then
      some
        { store := world.store.claim name
          claims := update world.claims id (some name) }
    else none
  | .unlink fails =>
    match world.claims id with
    | none => none
    | some name => some (become (if fails = true then world.store else world.store.unlink name))
  | .release =>
    match world.claims id with
    | none => none
    | some name =>
      some
        { store := world.store.release name
          claims := update world.claims id none }

/-- The listing does not fail at the path of a response. -/
def Listing.ReadsClaimed (listing : Listing) (world : StoreWorld Time) : Prop :=
  ∀ id name, world.claims id = some name → listing.look name ≠ .lost

/-- No listing of the event forgets what a response has claimed. -/
def ReadsClaimed (world : StoreWorld Time) (event : StoreEvent Time) : Prop :=
  match event.2 with
  | .write env _ _ =>
    env.pruning.listing.ReadsClaimed world ∧ env.checking.ReadsClaimed world
  | .cleanup _ calls => calls.listing.ReadsClaimed world
  | .removeAll calls => calls.listing.ReadsClaimed world
  | .usage listing => listing.ReadsClaimed world
  | _ => True

theorem storeStep_reserves {unicode : Unicode} {policy : SmuggleTempPolicy Time}
    {world next : StoreWorld Time} {event : StoreEvent Time} (reserves : Reserves world)
    (reads : ReadsClaimed world event)
    (taken : storeStep unicode policy world event = some next) : Reserves next := by
  obtain ⟨id, action⟩ := event
  cases action with
  | write env extension length =>
    cases taken
    exact reserves.become fun other name holds =>
      write_claimed (reads.1 other name holds) (reads.2 other name holds)
  | cleanup now calls =>
    cases taken
    refine reserves.become fun other name holds => ?_
    rw [claimed_cleanupLocked]
    exact claimed_of_notLost (reads other name holds)
  | removeAll calls =>
    cases taken
    refine reserves.become fun other name holds => ?_
    have kept : (removeAllLocked calls world.store).claimed =
        (artifactsLocked calls.listing world.store).2.claimed := claimed_removeAll _
    rw [kept]
    exact claimed_of_notLost (reads other name holds)
  | usage listing =>
    cases taken
    exact reserves.become fun other name holds => claimed_of_notLost (reads other name holds)
  | list order =>
    dsimp only [storeStep] at taken
    split at taken
    · cases taken
      exact reserves.become fun _ _ _ => rfl
    · cases taken
  | claim name =>
    dsimp only [storeStep] at taken
    split at taken
    · case _ free =>
        cases taken
        obtain ⟨idle, _, unclaimed⟩ := free
        have holds : ∀ other kept, update world.claims id (some name) other = some kept →
            other = id ∧ kept = name ∨ other ≠ id ∧ world.claims other = some kept := by
          intro other kept isKept
          by_cases same : other = id
          · rw [same, update_self] at isKept
            exact .inl ⟨same, (Option.some.inj isKept).symm⟩
          · rw [update_of_ne same] at isKept
            exact .inr ⟨same, isKept⟩
        have different : ∀ other kept, world.claims other = some kept → kept ≠ name := by
          rintro other kept isKept rfl
          rw [reserves.claimed other kept isKept] at unclaimed
          cases unclaimed
        constructor
        · intro other kept isKept
          change update world.store.claimed name true kept = true
          rcases holds other kept isKept with ⟨_, rfl⟩ | ⟨_, isOld⟩
          · exact update_self ..
          · rw [update_of_ne (different other kept isOld)]
            exact reserves.claimed other kept isOld
        · intro first second kept isFirst isSecond
          rcases holds first kept isFirst with ⟨rfl, rfl⟩ | ⟨_, firstOld⟩
          · rcases holds second kept isSecond with ⟨rfl, _⟩ | ⟨_, secondOld⟩
            · rfl
            · exact absurd rfl (different second kept secondOld)
          rcases holds second kept isSecond with ⟨_, rfl⟩ | ⟨_, secondOld⟩
          · exact absurd rfl (different first kept firstOld)
          · exact reserves.alone first second kept firstOld secondOld
    · cases taken
  | unlink fails =>
    dsimp only [storeStep] at taken
    split at taken
    · cases taken
    · cases taken
      refine reserves.become fun _ _ _ => ?_
      split <;> rfl
  | release =>
    dsimp only [storeStep] at taken
    split at taken
    · cases taken
    rename_i name isName
    cases taken
    have holds : ∀ other kept, update world.claims id none other = some kept →
        other ≠ id ∧ world.claims other = some kept := by
      intro other kept isKept
      by_cases same : other = id
      · rw [same, update_self] at isKept
        cases isKept
      · rw [update_of_ne same] at isKept
        exact ⟨same, isKept⟩
    constructor
    · intro other kept isKept
      obtain ⟨notOwn, isOld⟩ := holds other kept isKept
      change update world.store.claimed name false kept = true
      have different : kept ≠ name := by
        rintro rfl
        exact notOwn (reserves.alone other id kept isOld isName)
      rw [update_of_ne different]
      exact reserves.claimed other kept isOld
    · intro first second kept isFirst isSecond
      exact reserves.alone first second kept (holds first kept isFirst).2
        (holds second kept isSecond).2

/-- What holds of a state of the store whatever is asked of it next. -/
structure KeepsBounds (unicode : Unicode) (policy : SmuggleTempPolicy Time)
    (world : StoreWorld Time) : Prop where
  bounded : ∀ env extension length name, env.checking.Complete →
    (write unicode policy env extension length world.store).result = .ok name →
    WithinLimits policy (write unicode policy env extension length world.store).store
  prunes : ∀ now calls pendingBytes pendingFiles,
    PrunesAsNeeded policy now pendingBytes pendingFiles (listed calls.listing world.store)
      world.store (cleanupLocked policy now calls pendingBytes pendingFiles world.store)
  claimedStay : ∀ id name, world.claims id = some name →
    ∀ artifact ∈ world.store.artifacts, artifact.name = name →
    ∀ now calls pendingBytes pendingFiles,
      artifact ∈ (cleanupLocked policy now calls pendingBytes pendingFiles
        world.store).store.artifacts ∧
      artifact ∉ (cleanupLocked policy now calls pendingBytes pendingFiles world.store).evicted ∧
      artifact ∈ (removeAllLocked calls world.store).artifacts

/-- Over every run that reads the status of what is claimed, each write that succeeds after a
complete listing keeps to the limits, and each pruning takes, of what it lists, the oldest
artifacts that no response has claimed, and no more than the limits ask for. -/
theorem run_keepsBounds (unicode : Unicode) (policy : SmuggleTempPolicy Time)
    (store : ArtifactStore Time) (events : List (StoreEvent Time)) (world : StoreWorld Time)
    (reads : Along (storeStep unicode policy) ReadsClaimed (StoreWorld.start store) events)
    (reached : run (storeStep unicode policy) (StoreWorld.start store) events = some world) :
    KeepsBounds unicode policy world := by
  have reserves : Reserves world :=
    run_invariant Reserves
      (fun _ _ _ reserves reads taken => storeStep_reserves reserves reads taken)
      reserves_start reads reached
  constructor
  · intro env extension length name complete written
    exact write_withinLimits complete written
  · intro now calls pendingBytes pendingFiles
    exact cleanupLocked_prunes policy now calls pendingBytes pendingFiles world.store
  · intro id name holds artifact present isName now calls pendingBytes pendingFiles
    have claimed : world.store.claimed artifact.name = true := by
      rw [isName]
      exact reserves.claimed id name holds
    have kept := (cleanupLocked_prunes policy now calls pendingBytes pendingFiles
      world.store).claimedKept artifact present claimed
    exact ⟨kept.1, kept.2, kept_removeAllLocked present claimed⟩

end Runs

/-! ### Examples -/

def sampleArtifact : SmuggleTempArtifact Int :=
  { name := "smuggle_0000000000000001.html".toList, size := 5, mtime := 0 }

def sampleStore (claimed : Bool) : ArtifactStore Int :=
  { artifacts := [sampleArtifact]
    distinct := nodup_singleton _
    others := fun _ => false
    registered := fun name => decide (name = sampleArtifact.name)
    claimed := fun name => claimed && decide (name = sampleArtifact.name) }

def samplePolicy : SmuggleTempPolicy Int :=
  { maxAge := none, maxFileCount := some 1, maxTotalBytes := some 10 }

def sampleCalls : PruningCalls :=
  { listing := { fails := false, look := fun _ => .read }, removal := fun _ => .unlinked }

def sampleSurroundings : WriteSurroundings Int :=
  { now := 1
    mtime := 1
    makesDirectory := true
    pruning := sampleCalls
    checking := sampleCalls.listing
    unlinkFails := fun _ => false
    token := fun _ => ⟨replicate 16 '2', by decide⟩
    openFails := fun _ => false
    writeFails := fun _ => false
    torn := fun _ => 0 }

def unlimitedPolicy : SmuggleTempPolicy Int :=
  { maxAge := none, maxFileCount := none, maxTotalBytes := none }

def failedOpening : WriteSurroundings Int :=
  { sampleSurroundings with
    token := fun _ => ⟨"0000000000000001".toList, by decide⟩
    openFails := fun _ => true }

def failedWriting : WriteSurroundings Int :=
  { sampleSurroundings with
    unlinkFails := fun _ => true
    writeFails := fun _ => true }

/-- An artifact that is larger than the limit is refused, after the others were evicted; an
opening that fails takes the artifact of that path with it, and a file that cannot be unlinked
stays in part. -/
theorem tooLarge_evicts :
    ((write ascii samplePolicy sampleSurroundings ".html".toList 100
        (sampleStore false)).result = .error (.quotaExceeded (.bytes 0 100 10)) ∧
      sampleArtifact ∈ (sampleStore false).artifacts ∧
      (write ascii samplePolicy sampleSurroundings ".html".toList 100
        (sampleStore false)).store.artifacts = []) ∧
    ((write ascii unlimitedPolicy failedOpening ".html".toList 5
        (sampleStore true)).result = .error .osError ∧
      (write ascii unlimitedPolicy failedOpening ".html".toList 5
        (sampleStore true)).store.artifacts = []) ∧
    (write ascii unlimitedPolicy failedWriting ".html".toList 5
        (sampleStore true)).result = .error .osError ∧
      (write ascii unlimitedPolicy failedWriting ".html".toList 5
        (sampleStore true)).store.artifacts.length = 2 := by
  refine ⟨⟨?_, mem_cons_self, ?_⟩, ⟨?_, ?_⟩, ?_, ?_⟩ <;> decide +kernel

/-- Where the other artifact is claimed, a refused write leaves it. -/
theorem claimed_notEvicted :
    sampleArtifact ∈ (write ascii samplePolicy sampleSurroundings ".html".toList 5
      (sampleStore true)).store.artifacts := by
  have refused : (write ascii samplePolicy sampleSurroundings ".html".toList 5
      (sampleStore true)).result = .error (.quotaExceeded (.files 1 1)) := by decide +kernel
  rcases (write_refused ascii samplePolicy sampleSurroundings ".html".toList 5
    (sampleStore true) _ refused).1 sampleArtifact mem_cons_self with
    kept | ⟨free, _⟩ | ⟨suffix, attempt, fails, _⟩
  · exact kept
  · exact absurd free (by decide +kernel)
  · cases fails

/-- A response claims the only artifact, and another write is refused. -/
theorem claimRun_keepsBounds :
    ∃ world, run (storeStep ascii samplePolicy) (StoreWorld.start (sampleStore false))
        [(0, .claim sampleArtifact.name), (1, .write sampleSurroundings ".html".toList 5)] =
          some world ∧
      KeepsBounds ascii samplePolicy world :=
  ⟨_, rfl, run_keepsBounds ascii samplePolicy (sampleStore false)
    [(0, .claim sampleArtifact.name), (1, .write sampleSurroundings ".html".toList 5)] _
    ⟨trivial, ⟨fun _ _ _ => Look.noConfusion, fun _ _ _ => Look.noConfusion⟩, trivial⟩ rfl⟩

def unlistedSurroundings : WriteSurroundings Int :=
  { sampleSurroundings with
    pruning := { sampleCalls with listing := { fails := true, look := fun _ => .read } }
    checking := { fails := true, look := fun _ => .read } }

/-- Where no listing succeeds, nothing is counted; where the status of a claimed artifact is
not read, its claim is forgotten, and the next pruning evicts it. -/
theorem unlistedWrite_exceeds :
    ((write ascii samplePolicy unlistedSurroundings ".html".toList 5
        (sampleStore false)).result.isOk = true ∧
      ¬ WithinLimits samplePolicy (write ascii samplePolicy unlistedSurroundings
        ".html".toList 5 (sampleStore false)).store) ∧
    ∃ world, run (storeStep ascii samplePolicy) (StoreWorld.start (sampleStore false))
        [(0, .claim sampleArtifact.name),
          (1, .usage { fails := false, look := fun _ => .lost })] = some world ∧
      world.claims 0 = some sampleArtifact.name ∧
      (cleanupLocked samplePolicy 1 sampleCalls 0 1 world.store).evicted = [sampleArtifact] := by
  refine ⟨⟨by decide +kernel, fun within => ?_⟩, _, rfl, rfl, by decide +kernel⟩
  have files := within.files 1 rfl
  revert files
  decide +kernel

end XFerry.Smuggle
