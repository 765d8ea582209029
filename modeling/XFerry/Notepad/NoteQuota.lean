/-
The quota of the notes, over every interleaving of calls.

A save that has passed the check of the quota has room for its note whatever becomes of
the write, because nothing else changes the notes until it gives the lock back.  The room
left for a note is what the other notes leave, so that a note that is replaced is charged
for its growth only.  The scan passes over a note whose status cannot be read, and the quota
holds as far as it counts them all.
-/

import XFerry.Notepad.NotepadService

namespace XFerry.Notepad

open EventMachine Json Python Option NotesDirectory OrderedDict

/-- What the stored notes take, all of them or all but one. -/
def noteUsage (directory : NotesDirectory) (excludeNoteId : Option NoteId) : NoteStorageUsage :=
  let counted := directory.counted excludeNoteId
  { totalBytes := counted.total fun entry => entry.2.data.length
    noteCount := counted.size }

/-- The status of every stored note can be read. -/
def AllRead (directory : NotesDirectory) (unread : NoteId → Bool) : Prop :=
  ∀ noteId file, directory.ciphertexts.lookup noteId = some file → unread noteId = false

def WithinQuota (policy : NoteStoragePolicy) (directory : NotesDirectory) : Prop :=
  (∀ limit, policy.maxTotalBytes = some limit →
      (noteUsage directory none).totalBytes ≤ limit) ∧
    ∀ limit, policy.maxNoteCount = some limit → (noteUsage directory none).noteCount ≤ limit

theorem withinQuota_empty (policy : NoteStoragePolicy) : WithinQuota policy empty :=
  ⟨fun _ _ => Nat.zero_le _, fun _ _ => Nat.zero_le _⟩

def HasRoom (policy : NoteStoragePolicy) (directory : NotesDirectory) (noteId : NoteId)
    (size : Nat) : Prop :=
  (∀ limit, policy.maxTotalBytes = some limit →
      (noteUsage directory (some noteId)).totalBytes + size ≤ limit) ∧
    ∀ limit, policy.maxNoteCount = some limit →
      (noteUsage directory (some noteId)).noteCount + 1 ≤ limit

/-! ### Usage, note by note -/

variable {file : NoteFile}

section Usage

variable {policy : NoteStoragePolicy} {directory : NotesDirectory} {noteId : NoteId}

def noteBytes (directory : NotesDirectory) (noteId : NoteId) : Nat :=
  directory.ciphertexts.weightAt (fun entry => entry.2.data.length) noteId

def noteOnes (directory : NotesDirectory) (noteId : NoteId) : Nat :=
  directory.ciphertexts.weightAt (fun _ => 1) noteId

theorem size_eq_total {Key Value : Type} (dict : OrderedDict Key Value) :
    dict.size = dict.total fun _ => 1 := by
  simp [size, total]

theorem usage_split (directory : NotesDirectory) (noteId : NoteId) :
    (noteUsage directory (some noteId)).totalBytes + noteBytes directory noteId =
        (noteUsage directory none).totalBytes ∧
      (noteUsage directory (some noteId)).noteCount + noteOnes directory noteId =
        (noteUsage directory none).noteCount := by
  simp only [noteUsage, counted, size_eq_total]
  exact ⟨total_erase_add _ _ _, total_erase_add _ _ _⟩

theorem note_of_lookup (found : directory.ciphertexts.lookup noteId = some file) :
    noteBytes directory noteId = file.data.length ∧ noteOnes directory noteId = 1 := by
  simp only [noteBytes, noteOnes, weightAt, found, map_some, getD_some, and_self]

theorem note_of_absent (absent : directory.ciphertexts.lookup noteId = none) :
    noteBytes directory noteId = 0 ∧ noteOnes directory noteId = 0 := by
  simp only [noteBytes, noteOnes, weightAt, absent, map_none, getD_none, and_self]

theorem scanNoteUsage_eq {unread : NoteId → Bool} (read : AllRead directory unread)
    (excludeNoteId : Option NoteId) :
    scanNoteUsage directory unread excludeNoteId = noteUsage directory excludeNoteId := by
  have all : ((directory.counted excludeNoteId).filter fun entry => !unread entry.1).entries =
      (directory.counted excludeNoteId).entries := by
    refine List.filter_eq_self.mpr ?_
    intro entry member
    have stored : entry ∈ directory.ciphertexts.entries := by
      cases excludeNoteId with
      | none => exact member
      | some excluded => exact (mem_erase.mp member).1
    rw [read entry.1 entry.2 (lookup_eq_some.mpr stored)]
    rfl
  simp only [scanNoteUsage, noteUsage, total, size, all]

theorem exceeds_eq_false {limit : Option Nat} {amount : Nat} :
    exceeds limit amount = false ↔ ∀ bound, limit = some bound → amount ≤ bound := by
  cases limit with
  | none | some => simp [exceeds]

theorem checkNoteStorageAccepts_eq_ok_iff {unread : NoteId → Bool}
    (read : AllRead directory unread) {newSize : Nat} {replacing : Bool} :
    checkNoteStorageAccepts policy directory unread noteId newSize replacing = .ok () ↔
      (∀ limit, policy.maxNoteCount = some limit →
        (noteUsage directory (if replacing then some noteId else none)).noteCount + 1 ≤ limit) ∧
      ∀ limit, policy.maxTotalBytes = some limit →
        (noteUsage directory (if replacing then some noteId else none)).totalBytes + newSize ≤
          limit := by
  rw [← exceeds_eq_false, ← exceeds_eq_false, checkNoteStorageAccepts, scanNoteUsage_eq read]
  cases exceeds policy.maxNoteCount ((noteUsage directory
      (if replacing then some noteId else none)).noteCount + 1) with
  | true => simp
  | false =>
    cases exceeds policy.maxTotalBytes ((noteUsage directory
        (if replacing then some noteId else none)).totalBytes + newSize) with
    | true => simp
    | false => simp

/-- A note that is not replaced has room besides all notes, so besides the others. -/
theorem hasRoom_of_check {unread : NoteId → Bool} (read : AllRead directory unread)
    {newSize : Nat} {replacing : Bool}
    (accepted : checkNoteStorageAccepts policy directory unread noteId newSize replacing = .ok ()) :
    HasRoom policy directory noteId newSize := by
  have both := (checkNoteStorageAccepts_eq_ok_iff read).mp accepted
  have split := usage_split directory noteId
  cases replacing with
  | true => exact ⟨both.2, both.1⟩
  | false =>
    simp only [Bool.false_eq_true, if_false] at both
    constructor
    · intro limit limited
      have fits := both.2 limit limited
      omega
    · intro limit limited
      have fits := both.1 limit limited
      omega

theorem WithinQuota.hasRoom (within : WithinQuota policy directory)
    (found : directory.ciphertexts.lookup noteId = some file) :
    HasRoom policy directory noteId file.data.length := by
  have split := usage_split directory noteId
  have note := note_of_lookup found
  rw [note.1, note.2] at split
  constructor
  · intro limit limited
    rw [split.1]
    exact within.1 limit limited
  · intro limit limited
    rw [split.2]
    exact within.2 limit limited

end Usage

/-! ### Changes of the directory -/

variable {noteId : NoteId}

section Changes

variable {policy : NoteStoragePolicy} {directory : NotesDirectory}

theorem others_putCiphertext (noteId : NoteId) (file : NoteFile) :
    noteUsage (directory.putCiphertext noteId file) (some noteId) =
      noteUsage directory (some noteId) := by
  simp only [noteUsage, counted, putCiphertext, total, size, erase_assign_entries]

theorem HasRoom.putCiphertext {size : Nat}
    (room : HasRoom policy directory noteId size) (file : NoteFile) :
    HasRoom policy (directory.putCiphertext noteId file) noteId size := by
  rw [HasRoom, others_putCiphertext]
  exact room

theorem HasRoom.withinQuota (file : NoteFile)
    (room : HasRoom policy directory noteId file.data.length) :
    WithinQuota policy (directory.putCiphertext noteId file) := by
  have split := usage_split (directory.putCiphertext noteId file) noteId
  have found : (directory.putCiphertext noteId file).ciphertexts.lookup noteId = some file := by
    rw [NotesDirectory.putCiphertext, lookup_assign, if_pos rfl]
  have note := note_of_lookup found
  rw [note.1, note.2, others_putCiphertext] at split
  constructor
  · intro limit limited
    rw [← split.1]
    exact room.1 limit limited
  · intro limit limited
    rw [← split.2]
    exact room.2 limit limited

theorem usage_unlink_le (directory : NotesDirectory) (entry : Entry) :
    (noteUsage (directory.unlink entry) none).totalBytes ≤
        (noteUsage directory none).totalBytes ∧
      (noteUsage (directory.unlink entry) none).noteCount ≤
        (noteUsage directory none).noteCount := by
  cases entry with
  | sidecar noteId => exact ⟨le_refl _, le_refl _⟩
  | ciphertext noteId =>
    have split := usage_split directory noteId
    have others : noteUsage (directory.unlink (.ciphertext noteId)) none =
        noteUsage directory (some noteId) := rfl
    rw [others]
    omega

theorem WithinQuota.unlink (within : WithinQuota policy directory) (entry : Entry) :
    WithinQuota policy (directory.unlink entry) := by
  have fewer := usage_unlink_le directory entry
  constructor
  · intro limit limited
    exact fewer.1.trans (within.1 limit limited)
  · intro limit limited
    exact fewer.2.trans (within.2 limit limited)

theorem WithinQuota.putSidecar (within : WithinQuota policy directory) (noteId : NoteId)
    (content : Value) : WithinQuota policy (directory.putSidecar noteId content) := within

end Changes

/-! ### The invariant -/

structure Replacement.HasRoom (policy : NoteStoragePolicy) (directory : NotesDirectory)
    (replacement : Replacement) : Prop where
  written : Notepad.HasRoom policy directory replacement.noteId replacement.pair.data.length
  restored : ∀ backup, replacement.encBackup = some backup →
    Notepad.HasRoom policy directory replacement.noteId backup.data.length

def Call.Promised (policy : NoteStoragePolicy) (directory : NotesDirectory) : Call → Prop
  | .prepare pair _ => HasRoom policy directory pair.metadata.noteId pair.data.length
  | .replaceCiphertext replacement => replacement.HasRoom policy directory
  | .replaceSidecar replacement => replacement.HasRoom policy directory
  | .restoreCiphertext replacement => replacement.HasRoom policy directory
  | _ => True

variable {directory : NotesDirectory} {call : Call}

theorem Call.promised_of_free {policy : NoteStoragePolicy}
    (free : call.holdsLock = false) : call.Promised policy directory := by
  cases call with
  | prepare | replaceCiphertext | replaceSidecar | restoreCiphertext => cases free
  | _ => trivial

variable {state next : State} {event : Event} {error : NotepadServiceError}

section Invariant

variable {policy : NoteStoragePolicy} {isSpace : Nat → Bool}

theorem promised_of_admitSave {fails : FailingReads} (read : AllRead directory fails.unread)
    {save : CheckedSave} {drawn : NoteId} {pair : NotePair} {created : Bool}
    (admitted : admitSave policy directory fails save drawn = .ok (pair, created)) :
    HasRoom policy directory pair.metadata.noteId pair.data.length := by
  have room {noteId : NoteId} {createdAt : IsoTime} {replacing isNew : Bool}
      (checked : ((checkNoteStorageAccepts policy directory fails.unread noteId
        save.data.length replacing).map fun _ => (save.pair noteId createdAt, isNew)) =
          .ok (pair, created)) :
      HasRoom policy directory pair.metadata.noteId pair.data.length := by
    obtain ⟨_, accepted, same⟩ := Ensures.exists_of_map_eq_ok checked
    cases same
    exact hasRoom_of_check read accepted
  unfold admitSave at admitted
  split at admitted
  · exact room admitted
  split at admitted
  · split at admitted
    · exact room admitted
    · cases admitted
  · exact room admitted

variable {env : Surroundings}

theorem advance_keepsQuota {turn : Turn} (within : WithinQuota policy directory)
    (promised : call.Promised policy directory)
    (read : ∀ request, call = .save request → AllRead directory env.reads.unread)
    (taken : advance policy directory env call = some turn) :
    WithinQuota policy turn.directory ∧ turn.call.Promised policy turn.directory := by
  cases call with
  | save request =>
    simp only [advance] at taken
    split at taken
    · cases taken
    split at taken
    · cases taken
      exact ⟨within, trivial⟩
    · case h_2 admitted =>
      cases taken
      exact ⟨within, promised_of_admitSave (read request rfl) admitted⟩
  | prepare pair created =>
    simp only [advance] at taken
    split at taken
    · cases taken
      exact ⟨within, trivial⟩
    · cases taken
      refine ⟨within, promised, ?_⟩
      exact fun backup seen => within.hasRoom (lookup_of_seenCiphertext seen)
  | replaceCiphertext replacement =>
    simp only [advance] at taken
    split at taken
    · cases taken
      exact ⟨within, promised⟩
    · cases taken
      refine ⟨promised.written.withinQuota _, promised.written.putCiphertext _, ?_⟩
      exact fun backup isBackup => (promised.restored backup isBackup).putCiphertext _
  | replaceSidecar replacement =>
    simp only [advance] at taken
    split at taken
    · cases taken
      exact ⟨within, promised⟩
    · cases taken
      exact ⟨within.putSidecar _ _, trivial⟩
  | restoreCiphertext replacement =>
    cases taken
    refine ⟨?_, trivial⟩
    split
    · exact within
    unfold restoreCiphertext
    split
    · case h_1 backup found =>
        have isBackup : replacement.encBackup = some backup := by
          split at found
          · cases found
          · exact found
        exact HasRoom.withinQuota { backup with modified := env.modified }
          (promised.restored backup isBackup)
    · exact within.unlink _
  | restoreSidecar replacement =>
    cases taken
    refine ⟨?_, trivial⟩
    split
    · exact within
    unfold restoreSidecar
    split
    · exact within.putSidecar _ _
    · exact within.unlink _
  | unlinkCiphertext | unlinkSidecar =>
    simp only [advance] at taken
    split at taken
    · cases taken
      exact ⟨within, trivial⟩
    · cases taken
      exact ⟨within.unlink _, trivial⟩
  | clearing rest failed =>
    cases rest with
    | nil =>
      cases taken
      exact ⟨within, trivial⟩
    | cons entry rest =>
      simp only [advance] at taken
      split at taken
      · cases taken
        exact ⟨within, trivial⟩
      · cases taken
        exact ⟨within.unlink _, trivial⟩
  | idle => cases taken
  | delete | clear | loadModified | loadSize | loadSidecar =>
    cases taken
    exact ⟨within, trivial⟩
  | load noteId =>
    rw [advance_directory rfl taken]
    exact ⟨within, Call.promised_of_free (advance_holdsLock ⟨rfl, rfl⟩ taken)⟩

structure QuotaKept (policy : NoteStoragePolicy) (state : State) : Prop where
  exclusive : Exclusive state
  within : WithinQuota policy state.directory
  promised : ∀ thread, (state.calls thread).Promised policy state.directory

theorem QuotaKept.starting (within : WithinQuota policy directory)
    (completed : List NotePair) : QuotaKept policy (State.starting directory completed) :=
  { exclusive := Exclusive.starting directory completed
    within := within
    promised := fun _ => trivial }

/-- A save that checks the quota can read the status of every stored note. -/
def CountsNotes (state : State) : Event → Prop
  | .call _ _ => True
  | .advance thread env =>
    ∀ request, state.calls thread = .save request → AllRead state.directory env.reads.unread

theorem step_quotaKept (kept : QuotaKept policy state) (counts : CountsNotes state event)
    (taken : step policy isSpace state event = some next) : QuotaKept policy next := by
  have exclusive := step_exclusive kept.exclusive taken
  rcases step_cases taken with ⟨thread, request, rfl, _, rfl⟩ |
    ⟨thread, env, turn, rfl, _, advanced, rfl⟩
  · refine ⟨exclusive, ?_, ?_⟩
    · rw [begun_directory]
      exact kept.within
    · intro other
      rw [begun_directory]
      rcases begun_calls state thread request other with same | ⟨_, free⟩
      · rw [same]
        exact kept.promised other
      · exact Call.promised_of_free free
  · obtain ⟨within, promised⟩ :=
      advance_keepsQuota kept.within (kept.promised thread) counts advanced
    refine ⟨exclusive, within, ?_⟩
    intro other
    by_cases same : other = thread
    · simp only [State.turned, same, Function.update_self]
      exact promised
    simp only [State.turned, Function.update_of_ne same]
    cases holds : (state.calls thread).holdsLock with
    | true => exact Call.promised_of_free (kept.exclusive.holdsLock_other holds same)
    | false =>
      rw [advance_directory holds advanced]
      exact kept.promised other

theorem advance_refused {turn : Turn} (holds : call.holdsLock = true)
    (taken : advance policy directory env call = some turn)
    (refused : turn.answer = some (.refused error)) : error.statusCode = 500 := by
  cases call with
  | prepare | unlinkCiphertext | unlinkSidecar =>
    simp only [advance] at taken
    split at taken
    · cases taken
      cases refused
      rfl
    · cases taken
      cases refused
  | replaceCiphertext | replaceSidecar =>
    simp only [advance] at taken
    split at taken
    all_goals
      cases taken
      cases refused
  | restoreCiphertext replacement =>
    cases taken
    cases refused
  | restoreSidecar replacement =>
    cases taken
    cases refused
    rfl
  | clearing rest failed =>
    cases rest with
    | nil =>
      cases taken
      split at refused
      · cases refused
        rfl
      · cases refused
    | cons entry rest =>
      simp only [advance] at taken
      split at taken
      all_goals
        cases taken
        cases refused
  | _ => cases holds

end Invariant

def Event.thread : Event → Nat
  | .call thread _ => thread
  | .advance thread _ => thread

section Runs

variable {policy : NoteStoragePolicy} {isSpace : Nat → Bool}

theorem step_unlocked (taken : step policy isSpace state event = some next)
    (free : (state.calls event.thread).holdsLock = false) : next.directory = state.directory := by
  rcases step_cases taken with ⟨thread, request, rfl, _, rfl⟩ |
    ⟨thread, env, turn, rfl, _, advanced, rfl⟩
  · exact begun_directory _ _ _
  · exact advance_directory free advanced

theorem step_refused (taken : step policy isSpace state event = some next)
    (refused : next.answers = (event.thread, .refused error) :: state.answers)
    (wellServed : error.statusCode ≠ 500) : (state.calls event.thread).holdsLock = false := by
  rcases step_cases taken with ⟨thread, request, rfl, idle, rfl⟩ |
    ⟨thread, env, turn, rfl, _, advanced, rfl⟩
  · rw [Event.thread, idle]
    rfl
  · cases holds : (state.calls thread).holdsLock with
    | false => exact holds
    | true =>
      cases answered : turn.answer with
      | none =>
        simp [State.turned, answered] at refused
      | some answer =>
        simp only [State.turned, answered, map_some, toList_some,
          List.cons_append, List.nil_append, List.cons.injEq, and_true, Event.thread,
          Prod.mk.injEq, true_and] at refused
        rw [refused] at answered
        exact absurd (advance_refused holds advanced answered) wellServed

/-- The notes stay within the limit of the bytes when a file grows or shrinks to the size. -/
def GrowthFits (policy : NoteStoragePolicy) (directory : NotesDirectory) (file : NoteFile)
    (newSize : Nat) : Prop :=
  ∀ limit, policy.maxTotalBytes = some limit →
    (noteUsage directory none).totalBytes + newSize ≤ limit + file.data.length

/-- Where the notes are within the quota, a note can be replaced by one that fits into
the bytes that are left and its own; there is no other way for the check to fail. -/
theorem check_replacing {unread : NoteId → Bool} (read : AllRead directory unread)
    (within : WithinQuota policy directory)
    (found : directory.ciphertexts.lookup noteId = some file) (newSize : Nat) :
    (GrowthFits policy directory file newSize →
      checkNoteStorageAccepts policy directory unread noteId newSize true = .ok ()) ∧
    (¬ GrowthFits policy directory file newSize →
      checkNoteStorageAccepts policy directory unread noteId newSize true =
        .error (quotaExceeded "bytes")) := by
  have split := usage_split directory noteId
  have note := note_of_lookup found
  have enough := (within.hasRoom found).2
  have fits : GrowthFits policy directory file newSize ↔
      exceeds policy.maxTotalBytes ((noteUsage directory (some noteId)).totalBytes + newSize) =
        false := by
    rw [exceeds_eq_false]
    refine forall₂_congr fun limit _ => ?_
    omega
  rw [fits, Bool.not_eq_false, checkNoteStorageAccepts, scanNoteUsage_eq read, if_pos rfl,
    exceeds_eq_false.mpr enough]
  constructor
  · intro room
    simp [room]
  · intro full
    simp [full]

/-- A save over a stored note goes on to write when the growth of the note fits, and is
refused for the bytes otherwise. -/
theorem advance_replacing {env : Surroundings} {request : CheckedSave}
    (read : AllRead directory env.reads.unread) (within : WithinQuota policy directory)
    (named : request.noteId = some noteId)
    (found : directory.seenCiphertext env.reads noteId = some file) :
    (GrowthFits policy directory file request.data.length →
      ∃ createdAt, advance policy directory env (.save request) =
        some { directory := directory, call := .prepare (request.pair noteId createdAt) false }) ∧
    (¬ GrowthFits policy directory file request.data.length →
      advance policy directory env (.save request) =
        some (refuse directory (quotaExceeded "bytes"))) := by
  have checked := check_replacing read within (lookup_of_seenCiphertext found) request.data.length
  constructor
  · intro fits
    refine ⟨keptCreation directory env.reads noteId file request.now, ?_⟩
    simp [advance, admitSave, named, found, checked.1 fits, Except.map]
  · intro full
    simp [advance, admitSave, named, found, checked.2 full, Except.map]

/-- In every interleaving of saves, deletes, clears and loads whose checks count all notes,
the notes stay within the quota.  A call changes nothing until it has the lock, and what is
refused otherwise than for a failing file system is refused before.  A save over a stored
note is charged for the difference of the sizes. -/
theorem run_notesWithinQuota {directory : NotesDirectory} {completed : List NotePair}
    {events : List Event} {final : State} (within : WithinQuota policy directory)
    (counts : Along (step policy isSpace) CountsNotes (State.starting directory completed) events)
    (reached : run (step policy isSpace) (State.starting directory completed) events =
      some final) :
    WithinQuota policy final.directory ∧
    (∀ event next, step policy isSpace final event = some next →
      ((final.calls event.thread).holdsLock = false → next.directory = final.directory) ∧
      ∀ error, next.answers = (event.thread, .refused error) :: final.answers →
        error.statusCode ≠ 500 → (final.calls event.thread).holdsLock = false) ∧
    ∀ request noteId file env, request.noteId = some noteId →
      final.directory.seenCiphertext env.reads noteId = some file →
      AllRead final.directory env.reads.unread →
        (GrowthFits policy final.directory file request.data.length →
          ∃ createdAt, advance policy final.directory env (.save request) =
            some
              { directory := final.directory
                call := .prepare (request.pair noteId createdAt) false }) ∧
        (¬ GrowthFits policy final.directory file request.data.length →
          advance policy final.directory env (.save request) =
            some (refuse final.directory (quotaExceeded "bytes"))) := by
  have kept : QuotaKept policy final := by
    refine run_invariant (QuotaKept policy) ?_ (QuotaKept.starting within completed) counts reached
    exact fun state event next kept counts taken => step_quotaKept kept counts taken
  refine ⟨kept.within, ?_, ?_⟩
  · intro event next taken
    exact ⟨step_unlocked taken, fun error => step_refused taken⟩
  · intro request noteId file env named found read
    exact advance_replacing read kept.within named found

end Runs

/-! ### A note of thirty bytes -/

def sampleNoteId : NoteId := { text := List.replicate 32 'a', valid := by decide }

def sampleTime : IsoTime := ⟨[50], by decide⟩

def sampleSurroundings : Surroundings :=
  { fails := false, reads := .nothing, modified := [50], drawn := sampleNoteId }

def isBlank (code : Nat) : Bool := code = 32

def saveOf (title size : Nat) : Request :=
  .save
    { title := [title]
      decoded := some (List.replicate size 0)
      noteId := sampleNoteId.text
      sessionId := none
      createIfMissing := true }
    sampleTime false

def undisturbedSave (thread title size : Nat) : List Event :=
  .call thread (saveOf title size) :: List.replicate 4 (.advance thread sampleSurroundings)

def fortyBytes : NoteStoragePolicy := { maxTotalBytes := some 40, maxNoteCount := some 1 }

theorem undisturbedSave_counted (thread title size : Nat) :
    ∀ event ∈ undisturbedSave thread title size, ∀ state, CountsNotes state event := by
  intro event member state
  rcases List.mem_cons.mp member with rfl | later
  · trivial
  · rw [List.eq_of_mem_replicate later]
    exact fun _ _ _ _ _ => rfl

theorem sampleSaves_withinQuota :
    ∃ final, run (step fortyBytes isBlank) (State.starting empty [])
        (undisturbedSave 0 65 30 ++ undisturbedSave 1 66 40) = some final ∧
      WithinQuota fortyBytes final.directory := by
  have finishes : (run (step fortyBytes isBlank) (State.starting empty [])
      (undisturbedSave 0 65 30 ++ undisturbedSave 1 66 40)).isSome = true := by
    decide +kernel
  obtain ⟨final, reached⟩ := Option.isSome_iff_exists.mp finishes
  have counted : Along (step fortyBytes isBlank) CountsNotes (State.starting empty [])
      (undisturbedSave 0 65 30 ++ undisturbedSave 1 66 40) := by
    refine along_of_forall_mem (fun event member => ?_) _
    rcases List.mem_append.mp member with first | second
    · exact undisturbedSave_counted 0 65 30 event first
    · exact undisturbedSave_counted 1 66 40 event second
  exact ⟨final, reached, (run_notesWithinQuota (withinQuota_empty fortyBytes) counted reached).1⟩

def uncountedNote : Surroundings :=
  { fails := false
    reads := { FailingReads.nothing with unread := fun _ => true }
    modified := [50]
    drawn := { text := List.replicate 32 'c', valid := by decide } }

/-- A second note gets past a quota of one when the status of the first cannot be read. -/
def uncountedSave : List Event :=
  undisturbedSave 0 65 30 ++
    .call 1 (.save
      { title := [66]
        decoded := some (List.replicate 40 0)
        noteId := []
        sessionId := none
        createIfMissing := false }
      sampleTime false) :: List.replicate 4 (.advance 1 uncountedNote)

theorem uncountedSave_exceeds :
    ∃ final, run (step fortyBytes isBlank) (State.starting empty []) uncountedSave =
      some final ∧ ¬ WithinQuota fortyBytes final.directory := by
  have counted : (run (step fortyBytes isBlank) (State.starting empty [])
      uncountedSave).map (fun final => (noteUsage final.directory none).noteCount) = some 2 := by
    decide +kernel
  obtain ⟨final, reached, two⟩ := Option.map_eq_some_iff.mp counted
  refine ⟨final, reached, ?_⟩
  intro within
  have few := within.2 1 rfl
  rw [two] at few
  exact absurd few (by decide)

end XFerry.Notepad
