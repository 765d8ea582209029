/-
One-shot SMUGGLE artifacts: the registry of their paths, and the requests that claim, serve
and remove the files under these paths.

A step is one critical section of the coordinator or one call to the file system.  The
registry knows an artifact by its path only, and a path can be given away while a response
still holds it.
-/

import XFerry.EventMachine
import XFerry.Server.StoredFiles

namespace XFerry.Server

open EventMachine Function
open Python (Text)

/-! ### Paths -/

/-- The upload directory as the store spells it, and as a request path resolves to it. -/
structure UploadFolder where
  configured : FilePath
  resolved : FilePath

/-- `str(path)` of a direct child: its directory and its name. -/
abbrev ArtifactKey := FilePath × Text

def UploadFolder.stored (folder : UploadFolder) (name : Text) : ArtifactKey :=
  (folder.configured, name)

def UploadFolder.requested (folder : UploadFolder) (name : Text) : ArtifactKey :=
  (folder.resolved, name)

def smuggleOutputFormats : List Text :=
  ["html", "htm", "shtml", "shtm", "xhtml", "xht", "xhtm", "xml", "svg"].map String.toList

def isTokenChar (char : Char) : Bool := char.isDigit || ('a' ≤ char && char ≤ 'f')

/-- `is_artifact_path`, of a name in the directory. -/
def isArtifactName (name : Text) : Bool :=
  let token := (name.drop 8).take 16
  let suffix := name.drop 24
  name.take 8 = "smuggle_".toList && token.length = 16 && token.all isTokenChar &&
    suffix.take 1 = ['.'] && smuggleOutputFormats.contains ((suffix.drop 1).map Char.toLower)

/-! ### Files, registry and requests -/

/-- A file of the upload directory; artifacts are told apart by their serial number. -/
inductive StoredFile where
  | upload
  | artifact (serial : Nat)

inductive ArtifactStage where
  | idle
  | resolved (name : Text)
  | found (name : Text)
  /-- The path was not registered: the file is served as an ordinary upload. -/
  | ordinary (name : Text)
  | claimed (name : Text) (serial : Nat)
  | closing (name : Text) (serial : Nat)
  /-- The clean-up has tried to unlink the path, and has not released it. -/
  | cleaned (name : Text)
  /-- DELETE has unlinked the path. -/
  | deleted (name : Text)
  | clearing
  /-- The clearing has found that a registered path does not exist. -/
  | missing (name : Text)
  | ended

structure ArtifactState where
  files : Text → Option StoredFile
  /-- `_paths`, with the artifact that was written when the path was registered. -/
  registered : ArtifactKey → Option Nat
  /-- `_claimed`. -/
  claimed : ArtifactKey → Bool
  stages : Nat → ArtifactStage
  written : Nat
  /-- Who has claimed an artifact. -/
  claimant : Nat → Option Nat
  /-- Every opening of an artifact for a response, with the response. -/
  streams : List (Nat × Nat)
  /-- Every file that a clean-up has unlinked, after the artifact that was claimed. -/
  unlinked : List (Nat × StoredFile)

namespace ArtifactState

def start (present : Text → Bool) : ArtifactState :=
  { files := fun name => if present name then some .upload else none
    registered := fun _ => none
    claimed := fun _ => false
    stages := fun _ => .idle
    written := 0
    claimant := fun _ => none
    streams := []
    unlinked := [] }

variable (state : ArtifactState)

def become (id : Nat) (stage : ArtifactStage) : ArtifactState :=
  { state with stages := update state.stages id stage }

def unlink (name : Text) : ArtifactState :=
  { state with files := update state.files name none }

/-- `registry.discard`, and what `_release` does. -/
def discard (key : ArtifactKey) : ArtifactState :=
  { state with
    registered := update state.registered key none
    claimed := update state.claimed key false }

def publish (name : Text) : ArtifactState :=
  { state with files := update state.files name (some .upload) }

/-- `SmuggleArtifactStore.write` of a name that was free. -/
def write (key : ArtifactKey) (name : Text) : ArtifactState :=
  { state with
    files := update state.files name (some (.artifact state.written))
    registered := update state.registered key (some state.written)
    written := state.written + 1 }

/-- `_claim`, where it succeeds. -/
def claim (key : ArtifactKey) (serial id : Nat) : ArtifactState :=
  { state with
    claimed := update state.claimed key true
    claimant := update state.claimant serial (some id) }

def stream (name : Text) (id : Nat) : ArtifactState :=
  match state.files name with
  | some (.artifact serial) => { state with streams := state.streams ++ [(serial, id)] }
  | some .upload | none => state

def cleanUp (name : Text) (serial : Nat) : ArtifactState :=
  match state.files name with
  | some file => { state.unlink name with unlinked := state.unlinked ++ [(serial, file)] }
  | none => state

end ArtifactState

inductive ArtifactAction where
  | write (name : Text)
  /-- An artifact is evicted or has expired, or a scan finds that it is gone. -/
  | sweep (name : Text)
  | upload (name : Text)
  | get (name : Text)
  | look
  | claim
  | openFile
  /-- A 304 or the response to a HEAD has no stream. -/
  | skip
  /-- An exception leaves no response, or no clean-up of it. -/
  | abandon
  | cleanUp (fails : Bool)
  | release
  | delete (name : Text)
  | clear
  | clearEntry (name : Text)
  | clearLook (name : Text)
  | forget
  | clearEnd

abbrev ArtifactEvent := Nat × ArtifactAction

def artifactStep (folder : UploadFolder) : Machine ArtifactState ArtifactEvent :=
  fun state event =>
  let id := event.1
  match state.stages id, event.2 with
  | .idle, .write name =>
    if isArtifactName name && (state.files name).isNone then
      some (state.write (folder.stored name) name)
    else none
  | .idle, .sweep name =>
    if !isArtifactName name then none
    else if (state.files name).isNone then some (state.discard (folder.stored name))
    else if state.claimed (folder.stored name) then none
    else some ((state.unlink name).discard (folder.stored name))
  | .idle, .upload name =>
    if (state.files name).isNone then
      some ((state.publish name).discard (folder.stored name))
    else none
  | .idle, .get name =>
    some (state.become id (if (state.files name).isSome then .resolved name else .ended))
  | .resolved name, .look =>
    some (state.become id (match state.registered (folder.requested name) with
      | some _ => .found name
      | none => .ordinary name))
  | .found name, .claim =>
    match state.registered (folder.requested name) with
    | none => some (state.become id .ended)
    | some serial =>
      if state.claimed (folder.requested name) then some (state.become id .ended)
      else some ((state.claim (folder.requested name) serial id).become id (.claimed name serial))
  | .ordinary name, .openFile => some ((state.stream name id).become id .ended)
  | .ordinary _, .skip => some (state.become id .ended)
  | .claimed name serial, .openFile =>
    some ((state.stream name id).become id (.closing name serial))
  | .claimed name serial, .skip => some (state.become id (.closing name serial))
  | .resolved _, .abandon | .found _, .abandon | .ordinary _, .abandon
  | .claimed _ _, .abandon => some (state.become id .ended)
  | .closing name serial, .cleanUp fails =>
    some ((if fails then state else state.cleanUp name serial).become id (.cleaned name))
  | .cleaned name, .release =>
    some ((state.discard (folder.requested name)).become id .ended)
  | .idle, .delete name =>
    match state.files name with
    | none => some (state.become id .ended)
    | some _ => some ((state.unlink name).become id (.deleted name))
  | .deleted name, .forget =>
    some ((state.discard (folder.requested name)).become id .ended)
  | .idle, .clear => some (state.become id .clearing)
  | .clearing, .clearEntry name => some (state.unlink name)
  | .clearing, .clearLook name =>
    if (state.files name).isNone then some (state.become id (.missing name)) else some state
  | .missing name, .forget =>
    some ((state.discard (folder.stored name)).become id .clearing)
  | .clearing, .clearEnd => some (state.become id .ended)
  | _, _ => none

/-! ### What is asked of a run -/

/-- Each artifact is streamed in at most one response, and a clean-up unlinks the artifact
that was claimed or nothing. -/
structure OneShot (state : ArtifactState) : Prop where
  streamedOnce : (state.streams.map Prod.fst).Nodup
  ownUnlinked : ∀ entry ∈ state.unlinked, entry.2 = .artifact entry.1

namespace ArtifactStage

/-- The path whose file the request will unlink, and the artifact that it claimed there. -/
def holds : ArtifactStage → Option (Text × Nat)
  | .claimed name serial | .closing name serial => some (name, serial)
  | _ => none

/-- The path that the request takes for free of artifacts: it will serve the file there
without a claim, or forget what is registered. -/
def takesForPlain : ArtifactStage → Option Text
  | .ordinary name | .cleaned name | .deleted name | .missing name => some name
  | _ => none

end ArtifactStage

/-- Nothing is published under a path whose claimed response is not cleaned up, no artifact
is written under the path of a request that takes it for plain, and the unlinking of a
clean-up does not fail. -/
def Undisturbed (state : ArtifactState) (event : ArtifactEvent) : Prop :=
  match event.2 with
  | .write name =>
    ∀ id, (∀ serial, (state.stages id).holds ≠ some (name, serial)) ∧
      (state.stages id).takesForPlain ≠ some name
  | .upload name => ∀ id serial, (state.stages id).holds ≠ some (name, serial)
  | .cleanUp fails => fails = false
  | _ => True

/-! ### The invariant -/

/-- The files, the registry and the requests fit each other.  The two spellings of the
directory are one here. -/
structure Tracked (folder : UploadFolder) (state : ArtifactState) : Prop where
  known : ∀ name serial, state.files name = some (.artifact serial) →
    state.registered (folder.resolved, name) = some serial
  inPlace : ∀ name serial, state.registered (folder.resolved, name) = some serial →
    state.files name = none ∨ state.files name = some (.artifact serial)
  old : ∀ key serial, state.registered key = some serial → serial < state.written
  single : ∀ first second serial, state.registered first = some serial →
    state.registered second = some serial → first = second
  claimedOld : ∀ serial, state.written ≤ serial → state.claimant serial = none
  reserved : ∀ key serial, state.registered key = some serial →
    state.claimant serial ≠ none → state.claimed key = true
  plain : ∀ id name serial, (state.stages id).takesForPlain = some name →
    state.files name ≠ some (.artifact serial)
  holder : ∀ id name serial, (state.stages id).holds = some (name, serial) →
    state.claimant serial = some id ∧
      (state.files name = none ∨ state.files name = some (.artifact serial))
  streamed : ∀ serial id, (serial, id) ∈ state.streams → state.claimant serial = some id
  unstreamed : ∀ id name serial, state.stages id = .claimed name serial →
    serial ∉ state.streams.map Prod.fst
  oneShot : OneShot state

section Tracked

variable {folder : UploadFolder} {state : ArtifactState} {id : Nat} {name : Text}

theorem Tracked.start (present : Text → Bool) : Tracked folder (.start present) where
  known other serial found := by
    simp only [ArtifactState.start] at found
    split at found <;> cases found
  inPlace _ _ found := by cases found
  old _ _ found := by cases found
  single _ _ _ found := by cases found
  claimedOld _ _ := rfl
  reserved _ _ found := by cases found
  plain _ _ _ found := by cases found
  holder _ _ _ found := by cases found
  streamed _ _ isIn := by cases isIn
  unstreamed _ _ _ found := by cases found
  oneShot := ⟨List.nodup_nil, fun _ isIn => by cases isIn⟩

section

variable (tracked : Tracked folder state)
include tracked

theorem Tracked.become {stage : ArtifactStage}
    (plain : ∀ name serial, stage.takesForPlain = some name →
      state.files name ≠ some (.artifact serial))
    (holder : ∀ name serial, stage.holds = some (name, serial) →
      state.claimant serial = some id ∧
        (state.files name = none ∨ state.files name = some (.artifact serial)))
    (unstreamed : ∀ name serial, stage = .claimed name serial →
      serial ∉ state.streams.map Prod.fst) :
    Tracked folder (state.become id stage) where
  __ := tracked
  plain other name serial := by
    show (update state.stages id stage other).takesForPlain = some name → _
    rcases eq_or_ne other id with rfl | different
    · rw [update_self]
      exact plain name serial
    · rw [update_of_ne different]
      exact tracked.plain other name serial
  holder other name serial := by
    show (update state.stages id stage other).holds = some (name, serial) → _
    rcases eq_or_ne other id with rfl | different
    · rw [update_self]
      exact holder name serial
    · rw [update_of_ne different]
      exact tracked.holder other name serial
  unstreamed other name serial := by
    show update state.stages id stage other = .claimed name serial → _
    rcases eq_or_ne other id with rfl | different
    · rw [update_self]
      exact unstreamed name serial
    · rw [update_of_ne different]
      exact tracked.unstreamed other name serial
  oneShot := ⟨tracked.oneShot.1, tracked.oneShot.2⟩

theorem Tracked.become_free {stage : ArtifactStage}
    (plain : stage.takesForPlain = none) (holds : stage.holds = none) :
    Tracked folder (state.become id stage) := by
  refine tracked.become ?_ ?_ ?_
  · intro name serial found
    rw [plain] at found
    cases found
  · intro name serial found
    rw [holds] at found
    cases found
  · rintro name serial rfl
    cases holds

/-- What is put in the place of a file is nothing, or an upload where the path is neither
registered nor held. -/
theorem Tracked.replace {file : Option StoredFile}
    (notArtifact : ∀ serial, file ≠ some (.artifact serial))
    (unused : file = none ∨ state.registered (folder.resolved, name) = none ∧
      ∀ id serial, (state.stages id).holds ≠ some (name, serial)) :
    Tracked folder { state with files := update state.files name file } where
  known other serial found := by
    rcases update_eq_some found with ⟨_, artifact⟩ | ⟨_, found⟩
    · exact absurd artifact (notArtifact serial)
    · exact tracked.known other serial found
  inPlace other serial found := by
    show update state.files name file other = none ∨ update state.files name file other = _
    rcases eq_or_ne other name with rfl | different
    · rw [update_self]
      rcases unused with gone | ⟨unregistered, _⟩
      · exact .inl gone
      · rw [unregistered] at found
        cases found
    · rw [update_of_ne different]
      exact tracked.inPlace other serial found
  __ := tracked
  plain id other serial isPlain := by
    show update state.files name file other ≠ _
    rcases eq_or_ne other name with rfl | different
    · rw [update_self]
      exact notArtifact serial
    · rw [update_of_ne different]
      exact tracked.plain id other serial isPlain
  holder id other serial holds := by
    show _ ∧ (update state.files name file other = none ∨ update state.files name file other = _)
    obtain ⟨claims, found⟩ := tracked.holder id other serial holds
    refine ⟨claims, ?_⟩
    rcases eq_or_ne other name with rfl | different
    · rw [update_self]
      rcases unused with gone | ⟨_, unheld⟩
      · exact .inl gone
      · exact absurd holds (unheld id serial)
    · rw [update_of_ne different]
      exact found
  oneShot := ⟨tracked.oneShot.1, tracked.oneShot.2⟩

theorem Tracked.unlink (name : Text) : Tracked folder (state.unlink name) :=
  tracked.replace (fun _ => nofun) (.inl rfl)

theorem Tracked.discard (plain : ∀ serial, state.files name ≠ some (.artifact serial)) :
    Tracked folder (state.discard (folder.resolved, name)) := by
  have kept {key : ArtifactKey} {serial : Nat}
      (found : (state.discard (folder.resolved, name)).registered key = some serial) :
      key ≠ (folder.resolved, name) ∧ state.registered key = some serial :=
    (update_eq_some found).resolve_left fun both => nomatch both.2
  exact
    { known := by
        intro other serial found
        have different : (folder.resolved, other) ≠ (folder.resolved, name) := by
          rintro same
          cases same
          exact plain serial found
        show update state.registered (folder.resolved, name) none _ = _
        rw [update_of_ne different]
        exact tracked.known other serial found
      inPlace := fun other serial found => tracked.inPlace other serial (kept found).2
      old := fun key serial found => tracked.old key serial (kept found).2
      single := fun first second serial found again =>
        tracked.single first second serial (kept found).2 (kept again).2
      __ := tracked
      reserved := by
        intro key serial found isClaimed
        obtain ⟨different, found⟩ := kept found
        show update state.claimed (folder.resolved, name) false key = true
        rw [update_of_ne different]
        exact tracked.reserved key serial found isClaimed
      oneShot := ⟨tracked.oneShot.1, tracked.oneShot.2⟩ }

theorem Tracked.publish (isFree : state.files name = none)
    (unheld : ∀ id serial, (state.stages id).holds ≠ some (name, serial)) :
    Tracked folder ((state.publish name).discard (folder.resolved, name)) := by
  have forgotten : Tracked folder (state.discard (folder.resolved, name)) := by
    refine tracked.discard fun serial => ?_
    rw [isFree]
    exact nofun
  exact forgotten.replace (fun _ => nofun) (.inr ⟨update_self _ _ _, unheld⟩)

theorem Tracked.write (unheld : ∀ id serial, (state.stages id).holds ≠ some (name, serial))
    (notPlain : ∀ id, (state.stages id).takesForPlain ≠ some name) :
    Tracked folder (state.write (folder.resolved, name) name) := by
  have files (other : Text) (different : other ≠ name) :
      (state.write (folder.resolved, name) name).files other = state.files other :=
    update_of_ne different _ _
  exact
    { known := by
        intro other serial found
        rcases update_eq_some found with ⟨rfl, ⟨⟩⟩ | ⟨different, found⟩
        · exact update_self _ _ _
        · have apart : (folder.resolved, other) ≠ (folder.resolved, name) := by
            rintro same
            cases same
            exact different rfl
          exact (update_of_ne apart _ _).trans (tracked.known other serial found)
      inPlace := by
        intro other serial found
        rcases update_eq_some found with ⟨⟨⟩, ⟨⟩⟩ | ⟨apart, found⟩
        · exact .inr (update_self _ _ _)
        have different : other ≠ name := by
          rintro rfl
          exact apart rfl
        rw [files other different]
        exact tracked.inPlace other serial found
      old := by
        intro key serial found
        rcases update_eq_some found with ⟨_, ⟨⟩⟩ | ⟨_, found⟩
        · exact Nat.lt_succ_self _
        · exact Nat.lt_succ_of_lt (tracked.old key serial found)
      single := by
        intro first second serial found again
        rcases update_eq_some found with ⟨rfl, ⟨⟩⟩ | ⟨_, found⟩
        · rcases update_eq_some again with ⟨rfl, _⟩ | ⟨_, again⟩
          · rfl
          · exact absurd (tracked.old second _ again) (Nat.lt_irrefl _)
        rcases update_eq_some again with ⟨rfl, ⟨⟩⟩ | ⟨_, again⟩
        · exact absurd (tracked.old first _ found) (Nat.lt_irrefl _)
        · exact tracked.single first second serial found again
      claimedOld := fun serial isNew => tracked.claimedOld serial (Nat.le_of_succ_le isNew)
      reserved := by
        intro key serial found isClaimed
        rcases update_eq_some found with ⟨_, ⟨⟩⟩ | ⟨_, found⟩
        · exact absurd (tracked.claimedOld state.written le_rfl) isClaimed
        · exact tracked.reserved key serial found isClaimed
      plain := by
        intro id other serial isPlain
        have different : other ≠ name := by
          rintro rfl
          exact notPlain id isPlain
        rw [files other different]
        exact tracked.plain id other serial isPlain
      holder := by
        intro id other serial holds
        have different : other ≠ name := by
          rintro rfl
          exact unheld id serial holds
        rw [files other different]
        exact tracked.holder id other serial holds
      __ := tracked
      oneShot := ⟨tracked.oneShot.1, tracked.oneShot.2⟩ }

end

variable {serial : Nat}

section

variable (tracked : Tracked folder state)
include tracked

theorem Tracked.claim (isRegistered : state.registered (folder.resolved, name) = some serial)
    (unclaimed : state.claimed (folder.resolved, name) = false) :
    Tracked folder ((state.claim (folder.resolved, name) serial id).become id
      (.claimed name serial)) := by
  have free : state.claimant serial = none := by
    by_contra isClaimed
    rw [tracked.reserved _ serial isRegistered isClaimed] at unclaimed
    cases unclaimed
  have apart {other holder : Nat} (isClaimed : state.claimant other = some holder) :
      update state.claimant serial (some id) other = some holder := by
    have different : other ≠ serial := by
      rintro rfl
      rw [free] at isClaimed
      cases isClaimed
    rw [update_of_ne different]
    exact isClaimed
  have noStream : serial ∉ state.streams.map Prod.fst := by
    intro isIn
    obtain ⟨⟨other, holder⟩, isStream, rfl⟩ := List.mem_map.mp isIn
    rw [tracked.streamed other holder isStream] at free
    cases free
  have reserved : Tracked folder (state.claim (folder.resolved, name) serial id) :=
    { __ := tracked
      claimedOld := by
        intro other isNew
        have different : other ≠ serial := by
          rintro rfl
          exact absurd (tracked.old _ other isRegistered) (Nat.not_lt.mpr isNew)
        exact (update_of_ne different _ _).trans (tracked.claimedOld other isNew)
      reserved := by
        intro key other found isClaimed
        show update state.claimed (folder.resolved, name) true key = true
        rcases eq_or_ne key (folder.resolved, name) with rfl | different
        · exact update_self _ _ _
        have another : other ≠ serial := by
          rintro rfl
          exact different (tracked.single _ _ other found isRegistered)
        rw [update_of_ne different]
        refine tracked.reserved key other found ?_
        change update state.claimant serial (some id) other ≠ none at isClaimed
        rw [update_of_ne another] at isClaimed
        exact isClaimed
      holder := by
        intro other name artifact holds
        obtain ⟨claims, found⟩ := tracked.holder other name artifact holds
        exact ⟨apart claims, found⟩
      streamed := fun other holder isIn => apart (tracked.streamed other holder isIn)
      oneShot := ⟨tracked.oneShot.1, tracked.oneShot.2⟩ }
  refine reserved.become nofun ?_ ?_
  · rintro _ _ ⟨⟩
    exact ⟨update_self _ _ _, tracked.inPlace name serial isRegistered⟩
  · rintro _ _ ⟨⟩
    exact noStream

theorem Tracked.recordStream (claims : state.claimant serial = some id)
    (closed : ∀ other name, state.stages other ≠ .claimed name serial)
    (first : serial ∉ state.streams.map Prod.fst) :
    Tracked folder { state with streams := state.streams ++ [(serial, id)] } where
  __ := tracked
  streamed other holder isIn := by
    rcases List.mem_append.mp isIn with isIn | isIn
    · exact tracked.streamed other holder isIn
    · cases List.mem_singleton.mp isIn
      exact claims
  unstreamed other path artifact isClaimed isIn := by
    rw [List.map_append] at isIn
    rcases List.mem_append.mp isIn with isIn | isIn
    · exact tracked.unstreamed other path artifact isClaimed isIn
    · cases List.mem_singleton.mp isIn
      exact closed other path isClaimed
  oneShot := by
    refine ⟨?_, tracked.oneShot.2⟩
    rw [List.map_append]
    refine List.nodup_append.mpr ⟨tracked.oneShot.1, List.pairwise_singleton _ _, ?_⟩
    rintro _ isIn _ last rfl
    cases List.mem_singleton.mp last
    exact first isIn

theorem Tracked.stream (isStage : state.stages id = .claimed name serial) :
    Tracked folder ((state.stream name id).become id (.closing name serial)) := by
  obtain ⟨claims, found⟩ := tracked.holder id name serial (by rw [isStage]; rfl)
  have closing : Tracked folder (state.become id (.closing name serial)) := by
    refine tracked.become nofun ?_ nofun
    rintro _ _ ⟨⟩
    exact ⟨claims, found⟩
  rcases found with gone | found
  · rw [ArtifactState.stream, gone]
    exact closing
  rw [ArtifactState.stream, found]
  refine closing.recordStream claims ?_ (tracked.unstreamed id name serial isStage)
  -- The artifact has one claimant, and this one is closing.
  intro other path isClaimed
  have same := (closing.holder other path serial (by rw [isClaimed]; rfl)).1
  cases claims.symm.trans same
  have isClosing : (state.become id (.closing name serial)).stages id = .closing name serial :=
    update_self _ _ _
  cases isClosing.symm.trans isClaimed

theorem Tracked.cleanUp (isStage : state.stages id = .closing name serial) :
    Tracked folder ((state.cleanUp name serial).become id (.cleaned name)) := by
  obtain ⟨_, found⟩ := tracked.holder id name serial (by rw [isStage]; rfl)
  rcases found with gone | found
  · rw [ArtifactState.cleanUp, gone]
    refine tracked.become ?_ nofun nofun
    rintro _ artifact ⟨⟩ isThere
    rw [gone] at isThere
    cases isThere
  · rw [ArtifactState.cleanUp, found]
    have removed : Tracked folder ((state.unlink name).become id (.cleaned name)) := by
      refine (tracked.unlink name).become ?_ nofun nofun
      rintro _ artifact ⟨⟩ isThere
      rcases update_eq_some isThere with ⟨_, ⟨⟩⟩ | ⟨apart, _⟩
      exact apart rfl
    exact
      { __ := removed
        oneShot := by
          refine ⟨removed.oneShot.1, ?_⟩
          intro entry isIn
          rcases List.mem_append.mp isIn with isIn | isIn
          · exact tracked.oneShot.2 entry isIn
          · rw [List.mem_singleton.mp isIn] }

end

theorem Tracked.step (canonical : folder.configured = folder.resolved) {event : ArtifactEvent}
    {next : ArtifactState} (tracked : Tracked folder state)
    (undisturbed : Undisturbed state event)
    (taken : artifactStep folder state event = some next) : Tracked folder next := by
  obtain ⟨id, action⟩ := event
  have spelling (name : Text) : folder.stored name = (folder.resolved, name) := by
    rw [UploadFolder.stored, canonical]
  -- A file that is gone, or that a stage takes for plain, is no artifact.
  have gone {name : Text} (isGone : state.files name = none) (serial : Nat) :
      state.files name ≠ some (.artifact serial) := by
    rw [isGone]
    simp
  cases isStage : state.stages id with
  | idle =>
    cases action with
    | write name =>
      simp only [artifactStep, isStage, spelling] at taken
      split at taken
      · cases taken
        exact tracked.write (fun id serial => (undisturbed id).1 serial)
          (fun id => (undisturbed id).2)
      · cases taken
    | sweep name =>
      simp only [artifactStep, isStage, spelling] at taken
      split at taken
      · cases taken
      split at taken
      · case isTrue isGone =>
          cases taken
          exact tracked.discard (gone (Option.isNone_iff_eq_none.mp isGone))
      split at taken
      · cases taken
      · cases taken
        have unlinked : (state.unlink name).files name = none := update_self _ _ _
        refine (tracked.unlink name).discard fun serial => ?_
        rw [unlinked]
        simp
    | upload name =>
      simp only [artifactStep, isStage, spelling] at taken
      split at taken
      · case isTrue isFree =>
          cases taken
          exact tracked.publish (Option.isNone_iff_eq_none.mp isFree) undisturbed
      · cases taken
    | get name =>
      simp only [artifactStep, isStage] at taken
      cases taken
      split
      · exact tracked.become_free rfl rfl
      · exact tracked.become_free rfl rfl
    | delete name =>
      simp only [artifactStep, isStage] at taken
      cases found : state.files name with
      | none =>
        rw [found] at taken
        cases taken
        exact tracked.become_free rfl rfl
      | some file =>
        rw [found] at taken
        cases taken
        refine (tracked.unlink name).become ?_ (by simp [ArtifactStage.holds]) (by simp)
        rintro _ serial ⟨⟩ isThere
        rcases update_eq_some isThere with ⟨_, ⟨⟩⟩ | ⟨apart, _⟩
        exact apart rfl
    | clear =>
      simp only [artifactStep, isStage] at taken
      cases taken
      exact tracked.become_free rfl rfl
    | _ => simp [artifactStep, isStage] at taken
  | resolved name =>
    cases action with
    | look =>
      simp only [artifactStep, isStage] at taken
      cases taken
      cases found : state.registered (folder.requested name) with
      | some serial => exact tracked.become_free rfl rfl
      | none =>
        refine tracked.become ?_ (by simp [ArtifactStage.holds]) (by simp)
        rintro _ serial ⟨⟩ isThere
        have isRegistered := tracked.known name serial isThere
        rw [UploadFolder.requested] at found
        rw [found] at isRegistered
        cases isRegistered
    | abandon =>
      simp only [artifactStep, isStage] at taken
      cases taken
      exact tracked.become_free rfl rfl
    | _ => simp [artifactStep, isStage] at taken
  | found name =>
    cases action with
    | claim =>
      simp only [artifactStep, isStage] at taken
      cases isRegistered : state.registered (folder.requested name) with
      | none =>
        rw [isRegistered] at taken
        cases taken
        exact tracked.become_free rfl rfl
      | some serial =>
        rw [isRegistered] at taken
        simp only at taken
        split at taken
        · cases taken
          exact tracked.become_free rfl rfl
        rename_i unclaimed
        cases taken
        exact tracked.claim isRegistered (Bool.eq_false_iff.mpr unclaimed)
    | abandon =>
      simp only [artifactStep, isStage] at taken
      cases taken
      exact tracked.become_free rfl rfl
    | _ => simp [artifactStep, isStage] at taken
  | ordinary name =>
    cases action with
    | openFile =>
      simp only [artifactStep, isStage] at taken
      cases taken
      have plain := fun serial => tracked.plain id name serial (by rw [isStage]; rfl)
      have unchanged : state.stream name id = state := by
        unfold ArtifactState.stream
        split
        · case _ serial found => exact absurd found (plain serial)
        · rfl
        · rfl
      rw [unchanged]
      exact tracked.become_free rfl rfl
    | skip | abandon =>
      simp only [artifactStep, isStage] at taken
      cases taken
      exact tracked.become_free rfl rfl
    | _ => simp [artifactStep, isStage] at taken
  | claimed name serial =>
    cases action with
    | openFile =>
      simp only [artifactStep, isStage] at taken
      cases taken
      exact tracked.stream isStage
    | skip =>
      simp only [artifactStep, isStage] at taken
      cases taken
      have holds := tracked.holder id name serial (by rw [isStage]; rfl)
      refine tracked.become (by simp [ArtifactStage.takesForPlain]) ?_ (by simp)
      rintro _ _ ⟨⟩
      exact holds
    | abandon =>
      simp only [artifactStep, isStage] at taken
      cases taken
      exact tracked.become_free rfl rfl
    | _ => simp [artifactStep, isStage] at taken
  | closing name serial =>
    cases action with
    | cleanUp fails =>
      simp only [artifactStep, isStage] at taken
      cases undisturbed
      cases taken
      exact tracked.cleanUp isStage
    | _ => simp [artifactStep, isStage] at taken
  | cleaned name =>
    cases action with
    | release =>
      simp only [artifactStep, isStage] at taken
      cases taken
      have plain := fun serial => tracked.plain id name serial (by rw [isStage]; rfl)
      exact (tracked.discard plain).become_free rfl rfl
    | _ => simp [artifactStep, isStage] at taken
  | deleted name =>
    cases action with
    | forget =>
      simp only [artifactStep, isStage] at taken
      cases taken
      have plain := fun serial => tracked.plain id name serial (by rw [isStage]; rfl)
      exact (tracked.discard plain).become_free rfl rfl
    | _ => simp [artifactStep, isStage] at taken
  | clearing =>
    cases action with
    | clearEntry name =>
      simp only [artifactStep, isStage] at taken
      cases taken
      exact tracked.unlink name
    | clearLook name =>
      simp only [artifactStep, isStage] at taken
      split at taken
      · case isTrue isMissing =>
          cases taken
          have isGone := Option.isNone_iff_eq_none.mp isMissing
          refine tracked.become ?_ (by simp [ArtifactStage.holds]) (by simp)
          rintro _ serial ⟨⟩
          exact gone isGone serial
      · cases taken
        exact tracked
    | clearEnd =>
      simp only [artifactStep, isStage] at taken
      cases taken
      exact tracked.become_free rfl rfl
    | _ => simp [artifactStep, isStage] at taken
  | missing name =>
    cases action with
    | forget =>
      simp only [artifactStep, isStage, spelling] at taken
      cases taken
      have plain := fun serial => tracked.plain id name serial (by rw [isStage]; rfl)
      exact (tracked.discard plain).become_free rfl rfl
    | _ => simp [artifactStep, isStage] at taken
  | ended => simp [artifactStep, isStage] at taken

theorem run_oneShot (folder : UploadFolder) (present : Text → Bool)
    (events : List ArtifactEvent) (final : ArtifactState)
    (canonical : folder.configured = folder.resolved)
    (undisturbed : Along (artifactStep folder) Undisturbed (.start present) events)
    (reached : run (artifactStep folder) (.start present) events = some final) :
    OneShot final := by
  have tracked : Tracked folder final :=
    run_invariant (Tracked folder)
      (fun _ _ _ holds guard taken => holds.step canonical guard taken)
      (.start present) undisturbed reached
  exact tracked.oneShot

end Tracked

/-! ### A path that is used again -/

def sampleFolder : UploadFolder :=
  { configured := { root := ['/'], parts := ["srv".toList, "files".toList] }
    resolved := { root := ['/'], parts := ["srv".toList, "files".toList] } }

def sampleArtifact : Text := "smuggle_00112233445566ff.html".toList

def claimSample : List ArtifactEvent :=
  [(0, .write sampleArtifact), (1, .get sampleArtifact), (1, .look), (1, .claim), (1, .openFile)]

def reusedPath : List ArtifactEvent :=
  claimSample ++ [(2, .delete sampleArtifact), (2, .forget), (3, .upload sampleArtifact),
    (1, .cleanUp false), (1, .release)]

def undisturbedPath : List ArtifactEvent :=
  claimSample ++ [(2, .delete sampleArtifact), (1, .cleanUp false), (1, .release), (2, .forget),
    (3, .upload sampleArtifact)]

theorem reusedPath_unlinked :
    ∃ final, run (artifactStep sampleFolder) (.start fun _ => false) reusedPath = some final ∧
      final.unlinked = [(0, .upload)] ∧ ¬ OneShot final := by
  refine ⟨_, rfl, rfl, ?_⟩
  intro oneShot
  have own := oneShot.ownUnlinked (0, .upload) (List.mem_singleton.mpr rfl)
  cases own

theorem undisturbedPath_oneShot :
    ∃ final, run (artifactStep sampleFolder) (.start fun _ => false) undisturbedPath =
      some final ∧ OneShot final := by
  obtain ⟨final, reached⟩ : ∃ final,
      run (artifactStep sampleFolder) (.start fun _ => false) undisturbedPath = some final :=
    ⟨_, rfl⟩
  refine ⟨final, reached, run_oneShot _ _ _ _ rfl ?_ reached⟩
  refine ⟨fun _ => ⟨fun _ => nofun, nofun⟩, trivial, trivial, trivial, trivial, trivial, rfl,
    trivial, trivial, ?_, trivial⟩
  intro id serial
  match id with
  | 0 => exact nofun
  | 1 => exact nofun
  | 2 => exact nofun
  | _ + 3 => exact nofun

end XFerry.Server
