/-
Deletions of a note, and who removed it.

A delete looks for the note before it waits for the lock, and once it has the lock it
removes whatever is there.  A run is watched for what each running call has itself
removed, so that a success can be compared with it.
-/

import XFerry.Notepad.NoteReads

namespace XFerry.Notepad

open EventMachine Json Python Function List NotesDirectory

namespace NotesDirectory

def holds (directory : NotesDirectory) (noteId : NoteId) : Bool :=
  (directory.ciphertexts.lookup noteId).isSome

def vanished (before after : NotesDirectory) : List NoteId :=
  before.ciphertexts.keys.filter fun noteId => !after.holds noteId

def appears (before after : NotesDirectory) (noteId : NoteId) : Bool :=
  !before.holds noteId && after.holds noteId

end NotesDirectory

/-- A state with its history.  `removed` has the notes that the running call of a thread
has removed, `reported` the deletions that have succeeded with what their calls had
removed, and `stored` how often the ciphertext of a note has appeared. -/
structure Watched where
  state : State
  removed : Nat → List NoteId
  reported : List (NoteId × List NoteId)
  stored : NoteId → Nat

namespace Watched

def starting (directory : NotesDirectory) (completed : List NotePair) : Watched :=
  { state := State.starting directory completed
    removed := fun _ => []
    reported := []
    stored := fun noteId => (directory.holds noteId).toNat }

def fresh (watched : Watched) (next : State) : List (Nat × Answer) :=
  next.answers.take (next.answers.length - watched.state.answers.length)

def report (watched : Watched) : Nat × Answer → Option (NoteId × List NoteId)
  | (thread, .deleted noteId) => some (noteId, watched.removed thread)
  | _ => none

def removedBy (watched : Watched) (next : State) : Event → List NoteId
  | .call _ _ => []
  | .advance thread _ =>
    watched.state.directory.vanished next.directory ++ watched.removed thread

def after (watched : Watched) (event : Event) (next : State) : Watched :=
  { state := next
    removed := update watched.removed event.thread (watched.removedBy next event)
    reported := (watched.fresh next).filterMap watched.report ++ watched.reported
    stored := fun noteId =>
      watched.stored noteId + (watched.state.directory.appears next.directory noteId).toNat }

def successes (watched : Watched) (noteId : NoteId) : Nat :=
  watched.reported.countP fun report => report.1 = noteId

end Watched

open Watched

def watchedStep (policy : NoteStoragePolicy) (isSpace : Nat → Bool) : Machine Watched Event :=
  fun watched event => (step policy isSpace watched.state event).map (watched.after event)

/-- Whoever reports a deletion has removed the note during its call, and a note is not
deleted more often than it has been stored. -/
structure DeletesLinearizable (watched : Watched) : Prop where
  own : ∀ noteId removed, (noteId, removed) ∈ watched.reported → noteId ∈ removed
  once : ∀ noteId, watched.successes noteId ≤ watched.stored noteId

/-- A delete that gets the lock still finds the note that it found before. -/
def StillThere (watched : Watched) (event : Event) : Prop :=
  match watched.state.calls event.thread with
  | .delete noteId => watched.state.directory.holds noteId = true
  | _ => True

instance (watched : Watched) (event : Event) : Decidable (StillThere watched event) := by
  unfold StillThere
  split <;> infer_instance

section Steps

variable {policy : NoteStoragePolicy} {isSpace : Nat → Bool} {directory : NotesDirectory}
  {env : Surroundings} {call : Call} {turn : Turn}

theorem holds_unlink_ciphertext (noteId other : NoteId) :
    (directory.unlink (.ciphertext noteId)).holds other =
      (directory.holds other && decide (other ≠ noteId)) := by
  unfold holds unlink
  rw [OrderedDict.lookup_erase]
  by_cases same : other = noteId <;> simp [same]

/-- How a call comes to the steps of a deletion, and which step reports it. -/
structure DeletionSteps (directory : NotesDirectory) (call : Call) (turn : Turn) : Prop where
  reports : ∀ noteId, turn.answer = some (.deleted noteId) → call = .unlinkSidecar noteId
  begins : ∀ noteId, turn.call = .unlinkCiphertext noteId → call = .delete noteId
  removes : ∀ noteId, turn.call = .unlinkSidecar noteId →
    call = .unlinkCiphertext noteId ∧ turn.directory = directory.unlink (.ciphertext noteId)

theorem deletionSteps_of_apart (answer : ∀ noteId, turn.answer ≠ some (.deleted noteId))
    (begins : ∀ noteId, turn.call ≠ .unlinkCiphertext noteId)
    (removes : ∀ noteId, turn.call ≠ .unlinkSidecar noteId) :
    DeletionSteps directory call turn :=
  { reports := fun noteId same => absurd same (answer noteId)
    begins := fun noteId same => absurd same (begins noteId)
    removes := fun noteId same => absurd same (removes noteId) }

theorem deletionSteps_refuse (after : NotesDirectory) (error : NotepadServiceError) :
    DeletionSteps directory call (refuse after error) :=
  deletionSteps_of_apart (by simp [refuse]) (by simp [refuse]) (by simp [refuse])

theorem advance_deletionSteps (taken : advance policy directory env call = some turn) :
    DeletionSteps directory call turn := by
  cases call with
  | idle => cases taken
  | save request =>
    simp only [advance] at taken
    split at taken
    · cases taken
    split at taken
    · cases taken
      exact deletionSteps_refuse _ _
    · cases taken
      exact deletionSteps_of_apart (by simp) (by simp) (by simp)
  | delete noteId =>
    cases taken
    exact ⟨(by simp), fun other same => by cases same; rfl, (by simp)⟩
  | unlinkCiphertext noteId =>
    simp only [advance] at taken
    split at taken
    · cases taken
      exact deletionSteps_refuse _ _
    · cases taken
      exact ⟨(by simp), (by simp), fun other same => by cases same; exact ⟨rfl, rfl⟩⟩
  | unlinkSidecar noteId =>
    simp only [advance] at taken
    split at taken
    · cases taken
      exact deletionSteps_refuse _ _
    · cases taken
      exact ⟨fun other same => by cases same; rfl, (by simp), (by simp)⟩
  | clearing rest failed =>
    cases rest with
    | nil =>
      cases taken
      refine deletionSteps_of_apart (fun noteId same => ?_) (by simp) (by simp)
      split at same
      · cases same
      · cases same
    | cons entry rest =>
      simp only [advance] at taken
      split at taken
      all_goals
        cases taken
        exact deletionSteps_of_apart (by simp) (by simp) (by simp)
  | clear | restoreCiphertext | loadModified | loadSize | loadSidecar =>
    cases taken
    exact deletionSteps_of_apart (by simp) (by simp) (by simp)
  | restoreSidecar replacement =>
    cases taken
    exact deletionSteps_refuse _ _
  | _ =>
    simp only [advance] at taken
    split at taken
    all_goals
      cases taken
      exact deletionSteps_of_apart (fun _ same => by cases same) (fun _ same => by cases same)
        (fun _ same => by cases same)

variable {noteId : NoteId}

theorem advance_unlinkSidecar
    (taken : advance policy directory env (.unlinkSidecar noteId) = some turn) :
    turn.call = .idle ∧ turn.directory.ciphertexts = directory.ciphertexts := by
  simp only [advance] at taken
  split at taken
  all_goals
    cases taken
    exact ⟨rfl, rfl⟩

variable {watched : Watched} {thread : Nat}

theorem Watched.fresh_eq {next : State} {answers : List (Nat × Answer)}
    (given : next.answers = answers ++ watched.state.answers) : watched.fresh next = answers := by
  rw [fresh, given]
  exact take_left' (by rw [length_append, Nat.add_sub_cancel])

theorem fresh_turned : watched.fresh (watched.state.turned thread turn) =
    (turn.answer.map fun answer => (thread, answer)).toList := fresh_eq rfl

variable {event : Event}

theorem reported_deleted (answered : turn.answer = some (.deleted noteId)) :
    (watched.after event (watched.state.turned thread turn)).reported =
      (noteId, watched.removed thread) :: watched.reported := by
  simp only [Watched.after, fresh_turned, answered, Option.map_some, Option.toList_some,
    filterMap_cons, filterMap_nil, Watched.report, singleton_append]

theorem reported_other (other : ∀ noteId, turn.answer ≠ some (.deleted noteId)) :
    (watched.after event (watched.state.turned thread turn)).reported = watched.reported := by
  simp only [Watched.after, fresh_turned]
  cases answered : turn.answer with
  | none => rfl
  | some answer =>
    cases answer with
    | deleted noteId => exact absurd answered (other noteId)
    | _ => rfl

theorem reported_begun (outcome : Except NotepadServiceError Call) :
    (watched.after event (watched.state.begun thread outcome)).reported = watched.reported := by
  cases outcome with
  | ok call =>
    have none : watched.fresh (watched.state.begun thread (.ok call)) = [] := fresh_eq rfl
    simp only [Watched.after, none, filterMap_nil, nil_append]
  | error error =>
    have refused : watched.fresh (watched.state.begun thread (.error error)) =
        [(thread, .refused error)] := Watched.fresh_eq rfl
    simp only [Watched.after, refused, filterMap_cons, filterMap_nil, Watched.report, nil_append]

theorem appears_self (noteId : NoteId) : directory.appears directory noteId = false := by
  unfold appears
  cases directory.holds noteId <;> rfl

theorem holds_le (before after : NotesDirectory) (noteId : NoteId) :
    (after.holds noteId).toNat ≤
      (before.holds noteId).toNat + (before.appears after noteId).toNat := by
  unfold appears
  cases before.holds noteId <;> cases after.holds noteId <;> decide

theorem mem_vanished {before after : NotesDirectory}
    (stood : before.holds noteId = true) (gone : after.holds noteId = false) :
    noteId ∈ before.vanished after := by
  obtain ⟨file, found⟩ := Option.isSome_iff_exists.mp stood
  refine mem_filter.mpr ⟨?_, by rw [gone]; rfl⟩
  exact mem_map.mpr ⟨(noteId, file), OrderedDict.lookup_eq_some.mp found, rfl⟩

/-- While a call has the lock, the note it is about to remove is there, and what it has
removed is neither stored nor reported any more. -/
structure DeletesSound (watched : Watched) : Prop where
  exclusive : Exclusive watched.state
  stands : ∀ thread noteId, watched.state.calls thread = .unlinkCiphertext noteId →
    watched.state.directory.holds noteId = true
  removed : ∀ thread noteId, watched.state.calls thread = .unlinkSidecar noteId →
    noteId ∈ watched.removed thread
  own : ∀ noteId removed, (noteId, removed) ∈ watched.reported → noteId ∈ removed
  counted : ∀ noteId, watched.successes noteId + (watched.state.directory.holds noteId).toNat ≤
    watched.stored noteId
  pending : ∀ thread noteId, watched.state.calls thread = .unlinkSidecar noteId →
    watched.successes noteId + (watched.state.directory.holds noteId).toNat + 1 ≤
      watched.stored noteId

theorem DeletesSound.starting (directory : NotesDirectory) (completed : List NotePair) :
    DeletesSound (starting directory completed) :=
  { exclusive := Exclusive.starting directory completed
    stands := nofun
    removed := nofun
    own := nofun
    counted := fun _ => (Nat.zero_add _).le
    pending := nofun }

theorem DeletesSound.linearizable (sound : DeletesSound watched) : DeletesLinearizable watched :=
  { own := sound.own
    once := fun noteId => (Nat.le_add_right _ _).trans (sound.counted noteId) }

theorem calls_of_begun {state : State} {request : Request} {other : Nat} {call : Call}
    (idle : state.calls thread = .idle)
    (found : (state.begun thread (begin isSpace state.directory request)).calls other = call)
    (holds : call.holdsLock = true) : state.calls other = call ∧ other ≠ thread := by
  have kept : state.calls other = call := by
    rcases begun_calls state thread request other with same | ⟨_, free⟩
    · exact same.symm.trans found
    · rw [found, holds] at free
      cases free
  refine ⟨kept, ?_⟩
  rintro rfl
  rw [idle] at kept
  rw [← kept] at holds
  cases holds

theorem begun_deletesSound {request : Request} (sound : DeletesSound watched)
    (idle : watched.state.calls thread = .idle)
    (exclusive : Exclusive
      (watched.state.begun thread (begin isSpace watched.state.directory request))) :
    DeletesSound (watched.after (.call thread request)
      (watched.state.begun thread (begin isSpace watched.state.directory request))) := by
  have successes (noteId : NoteId) : (watched.after (.call thread request) (watched.state.begun
      thread (begin isSpace watched.state.directory request))).successes noteId =
        watched.successes noteId := by
    rw [successes, reported_begun]
    rfl
  have directory : (watched.after (.call thread request) (watched.state.begun thread
      (begin isSpace watched.state.directory request))).state.directory =
        watched.state.directory := begun_directory _ _ _
  have stored (noteId : NoteId) : (watched.after (.call thread request) (watched.state.begun
      thread (begin isSpace watched.state.directory request))).stored noteId =
        watched.stored noteId := by
    simp only [Watched.after, begun_directory, appears_self, Bool.toNat_false, Nat.add_zero]
  constructor
  case exclusive => exact exclusive
  case stands =>
    intro other noteId found
    rw [directory]
    exact sound.stands other noteId (calls_of_begun idle found rfl).1
  case removed =>
    intro other noteId found
    obtain ⟨kept, different⟩ := calls_of_begun idle found rfl
    simp only [Watched.after, Event.thread, update_of_ne different]
    exact sound.removed other noteId kept
  case own =>
    intro noteId removed member
    rw [reported_begun] at member
    exact sound.own noteId removed member
  case counted =>
    intro noteId
    rw [successes, directory, stored]
    exact sound.counted noteId
  case pending =>
    intro other noteId found
    rw [successes, directory, stored]
    exact sound.pending other noteId (calls_of_begun idle found rfl).1

theorem successes_other (noteId : NoteId) (other : ∀ noteId, turn.answer ≠ some (.deleted noteId)) :
    (watched.after event (watched.state.turned thread turn)).successes noteId =
      watched.successes noteId := by
  rw [successes, reported_other other]
  rfl

theorem successes_deleted {deleted : NoteId} (noteId : NoteId)
    (answered : turn.answer = some (.deleted deleted)) :
    (watched.after event (watched.state.turned thread turn)).successes noteId =
      watched.successes noteId + if deleted = noteId then 1 else 0 := by
  rw [successes, reported_deleted answered, countP_cons]
  simp only [decide_eq_true_eq]
  rfl

theorem stored_turned (event : Event) (noteId : NoteId)
    (same : turn.directory.ciphertexts = watched.state.directory.ciphertexts) :
    (watched.after event (watched.state.turned thread turn)).stored noteId =
        watched.stored noteId ∧
      turn.directory.holds noteId = watched.state.directory.holds noteId := by
  have holds : turn.directory.holds noteId = watched.state.directory.holds noteId := by
    rw [holds, same]
    rfl
  have appears : watched.state.directory.appears turn.directory noteId = false := by
    rw [appears, holds]
    exact appears_self noteId
  refine ⟨?_, holds⟩
  change watched.stored noteId +
    (watched.state.directory.appears turn.directory noteId).toNat = watched.stored noteId
  rw [appears]
  rfl

theorem turned_outside {other : Nat} (exclusive : Exclusive watched.state)
    (holds : (watched.state.calls other).holdsLock = true) (different : other ≠ thread)
    (advanced : advance policy watched.state.directory env
      (watched.state.calls thread) = some turn) :
    turn.directory = watched.state.directory ∧ ∀ noteId, turn.answer ≠ some (.deleted noteId) := by
  have free := exclusive.holdsLock_other holds different.symm
  refine ⟨advance_directory free advanced, ?_⟩
  intro noteId answered
  rw [(advance_deletionSteps advanced).reports noteId answered] at free
  cases free

theorem turned_deletesSound (sound : DeletesSound watched)
    (stillThere : StillThere watched (.advance thread env))
    (exclusive : Exclusive (watched.state.turned thread turn))
    (advanced : advance policy watched.state.directory env
      (watched.state.calls thread) = some turn) :
    DeletesSound (watched.after (.advance thread env) (watched.state.turned thread turn)) := by
  have steps := advance_deletionSteps advanced
  constructor
  case exclusive => exact exclusive
  case stands =>
    intro other noteId found
    by_cases same : other = thread
    · simp only [Watched.after, State.turned, same, update_self] at found
      have waited := steps.begins noteId found
      have there : watched.state.directory.holds noteId = true := by
        rw [StillThere, Event.thread, waited] at stillThere
        exact stillThere
      rw [waited] at advanced
      change turn.directory.holds noteId = true
      rw [advance_directory rfl advanced]
      exact there
    · simp only [Watched.after, State.turned, update_of_ne same] at found
      have holds : (watched.state.calls other).holdsLock = true := by rw [found]; rfl
      change turn.directory.holds noteId = true
      rw [(turned_outside sound.exclusive holds same advanced).1]
      exact sound.stands other noteId found
  case removed =>
    intro other noteId found
    by_cases same : other = thread
    · simp only [Watched.after, State.turned, same, update_self] at found
      obtain ⟨removing, unlinked⟩ := steps.removes noteId found
      have stood := sound.stands thread noteId removing
      have gone : turn.directory.holds noteId = false := by
        rw [unlinked, holds_unlink_ciphertext]
        simp
      simp only [Watched.after, Event.thread, same, update_self]
      exact mem_append_left _ (mem_vanished stood gone)
    · simp only [Watched.after, State.turned, update_of_ne same] at found
      simp only [Watched.after, Event.thread, update_of_ne same]
      exact sound.removed other noteId found
  case own =>
    intro noteId removed member
    cases answered : turn.answer with
    | none =>
      rw [reported_other (by simp [answered])] at member
      exact sound.own noteId removed member
    | some answer =>
      cases answer with
      | deleted deleted =>
        rw [reported_deleted answered] at member
        rcases mem_cons.mp member with here | earlier
        · cases here
          exact sound.removed thread noteId (steps.reports noteId answered)
        · exact sound.own noteId removed earlier
      | _ =>
        rw [reported_other (by simp [answered])] at member
        exact sound.own noteId removed member
  case counted =>
    intro noteId
    by_cases reports : ∃ deleted, turn.answer = some (.deleted deleted)
    · obtain ⟨deleted, answered⟩ := reports
      have removing := steps.reports deleted answered
      have pending := sound.pending thread deleted removing
      have counted := sound.counted noteId
      rw [removing] at advanced
      obtain ⟨stored, holds⟩ := stored_turned (.advance thread env) noteId
        (advance_unlinkSidecar advanced).2
      rw [successes_deleted noteId answered, stored]
      change _ + (turn.directory.holds noteId).toNat ≤ _
      rw [holds]
      split
      · case isTrue same =>
          rw [same] at pending
          omega
      · omega
    · rw [successes_other noteId fun deleted answered => reports ⟨deleted, answered⟩]
      have counted := sound.counted noteId
      have moved := holds_le watched.state.directory turn.directory noteId
      change _ + (turn.directory.holds noteId).toNat ≤
        watched.stored noteId + (watched.state.directory.appears turn.directory noteId).toNat
      omega
  case pending =>
    intro other noteId found
    by_cases same : other = thread
    · simp only [Watched.after, State.turned, same, update_self] at found
      obtain ⟨removing, unlinked⟩ := steps.removes noteId found
      have stood := sound.stands thread noteId removing
      have counted := sound.counted noteId
      have quiet (deleted : NoteId) : turn.answer ≠ some (.deleted deleted) := by
        intro answered
        rw [steps.reports deleted answered] at removing
        cases removing
      have gone : turn.directory.holds noteId = false := by
        rw [unlinked, holds_unlink_ciphertext]
        simp
      rw [successes_other noteId quiet]
      rw [stood, Bool.toNat_true] at counted
      change _ + (turn.directory.holds noteId).toNat + 1 ≤
        watched.stored noteId + (watched.state.directory.appears turn.directory noteId).toNat
      rw [gone, Bool.toNat_false]
      omega
    · simp only [Watched.after, State.turned, update_of_ne same] at found
      have lock : (watched.state.calls other).holdsLock = true := by rw [found]; rfl
      obtain ⟨unchanged, quiet⟩ := turned_outside sound.exclusive lock same advanced
      obtain ⟨stored, holds⟩ := stored_turned (.advance thread env) noteId
        (congrArg ciphertexts unchanged)
      rw [successes_other noteId quiet, stored]
      change _ + (turn.directory.holds noteId).toNat + 1 ≤ _
      rw [holds]
      exact sound.pending other noteId found

/-- In every run in which the note of a delete is still there when the delete gets the
lock, each success is the call's own removal, and no storing is deleted twice. -/
theorem run_deletesLinearizable {directory : NotesDirectory} {completed : List NotePair}
    {events : List Event} {final : Watched}
    (stillThere : Along (watchedStep policy isSpace) StillThere
      (starting directory completed) events)
    (reached : run (watchedStep policy isSpace) (starting directory completed) events =
      some final) : DeletesLinearizable final := by
  have sound : DeletesSound final := by
    refine run_invariant DeletesSound ?_ (DeletesSound.starting directory completed) stillThere
      reached
    intro watched event next sound still taken
    obtain ⟨state, stepped, rfl⟩ := Option.map_eq_some_iff.mp taken
    have exclusive := step_exclusive sound.exclusive stepped
    rcases step_cases stepped with ⟨thread, request, rfl, idle, rfl⟩ |
      ⟨thread, env, turn, rfl, _, advanced, rfl⟩
    · exact begun_deletesSound sound idle exclusive
    · exact turned_deletesSound sound still exclusive advanced
  exact sound.linearizable

end Steps

def beginDelete (thread : Nat) : Event := .call thread (.delete sampleNoteId.text)

def deleteAlone (thread : Nat) : List Event :=
  beginDelete thread :: replicate 3 (turnOf thread)

theorem saveThenDelete_linearizable :
    ∃ final, run (watchedStep unlimited isBlank) (starting empty [])
        (undisturbedSave 0 65 30 ++ deleteAlone 0) = some final ∧ DeletesLinearizable final := by
  have finishes : (run (watchedStep unlimited isBlank)
      (starting empty [])
      (undisturbedSave 0 65 30 ++ deleteAlone 0)).isSome = true := by
    decide +kernel
  obtain ⟨final, reached⟩ := Option.isSome_iff_exists.mp finishes
  exact ⟨final, reached, run_deletesLinearizable (by decide +kernel) reached⟩

def twoDeletes : List Event :=
  undisturbedSave 0 65 30 ++ [beginDelete 1, beginDelete 2] ++ replicate 3 (turnOf 1) ++
    replicate 3 (turnOf 2)

theorem twoDeletes_bothSucceed :
    ∃ final, run (watchedStep unlimited isBlank) (starting empty [])
        twoDeletes = some final ∧ ¬ DeletesLinearizable final := by
  have counted : (run (watchedStep unlimited isBlank) (starting empty [])
      twoDeletes).map (fun final => (final.successes sampleNoteId, final.stored sampleNoteId)) =
        some (2, 1) := by
    decide +kernel
  obtain ⟨final, reached, numbers⟩ := Option.map_eq_some_iff.mp counted
  rw [Prod.mk.injEq] at numbers
  refine ⟨final, reached, ?_⟩
  intro linearizable
  have once := linearizable.once sampleNoteId
  omega

end XFerry.Notepad
