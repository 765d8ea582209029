/-
The notepad service under concurrent calls.

Every change of the directory is made under one lock, and the decision of a save is read
under it in one step, since nothing else can change what it reads.  A load, and the look
of a delete whether there is a note, take no lock.  A call to the file system can fail;
temporary files and backups are hidden from the other calls, so a backup is kept with the
call it belongs to.
-/

import XFerry.Ensures
import XFerry.EventMachine
import XFerry.Notepad.NoteStore

namespace XFerry.Notepad

open EventMachine Json Python

inductive Entry where
  | ciphertext (noteId : NoteId)
  | sidecar (noteId : NoteId)
deriving DecidableEq

def Entry.noteId : Entry → NoteId
  | .ciphertext noteId => noteId
  | .sidecar noteId => noteId

def Entry.name : Entry → Text
  | .ciphertext noteId => noteId.text ++ ".enc".toList
  | .sidecar noteId => noteId.text ++ ".meta.json".toList

namespace NotesDirectory

/-- `sorted(notes_dir.iterdir())`. -/
def listing (directory : NotesDirectory) : List Entry :=
  (directory.ciphertexts.keys.map Entry.ciphertext ++
    directory.sidecars.keys.map Entry.sidecar).insertionSort fun left right =>
      left.name ≤ right.name

def unlink (directory : NotesDirectory) : Entry → NotesDirectory
  | .ciphertext noteId =>
    { directory with ciphertexts := directory.ciphertexts.erase noteId }
  | .sidecar noteId =>
    { directory with sidecars := directory.sidecars.erase noteId }

def putCiphertext (directory : NotesDirectory) (noteId : NoteId) (file : NoteFile) :
    NotesDirectory :=
  { directory with ciphertexts := directory.ciphertexts.assign noteId file }

def putSidecar (directory : NotesDirectory) (noteId : NoteId) (content : Value) : NotesDirectory :=
  { directory with sidecars := directory.sidecars.assign noteId content }

end NotesDirectory

structure Replacement where
  pair : NotePair
  created : Bool
  encBackup : Option NoteFile
  metaBackup : Option Value

def Replacement.noteId (replacement : Replacement) : NoteId := replacement.pair.metadata.noteId

namespace NotesDirectory

/-- The first half of `_restore_note_pair`.  The look for a backup can miss it as well. -/
def restoreCiphertext (directory : NotesDirectory) (replacement : Replacement)
    (fails : FailingReads) (modified : Str) : NotesDirectory :=
  match if fails.missesCiphertext then none else replacement.encBackup with
  | some backup => directory.putCiphertext replacement.noteId { backup with modified := modified }
  | none => directory.unlink (.ciphertext replacement.noteId)

def restoreSidecar (directory : NotesDirectory) (replacement : Replacement)
    (fails : FailingReads) : NotesDirectory :=
  match if fails.missesSidecar then none else replacement.metaBackup with
  | some backup => directory.putSidecar replacement.noteId backup
  | none => directory.unlink (.sidecar replacement.noteId)

end NotesDirectory

/-- Where a call is.  `save`, `delete` and `clear` wait for the lock; those after them,
up to `clearing`, hold it. -/
inductive Call where
  | idle
  | save (request : CheckedSave)
  | delete (noteId : NoteId)
  | clear
  | prepare (pair : NotePair) (created : Bool)
  | replaceCiphertext (replacement : Replacement)
  | replaceSidecar (replacement : Replacement)
  | restoreCiphertext (replacement : Replacement)
  | restoreSidecar (replacement : Replacement)
  | unlinkCiphertext (noteId : NoteId)
  | unlinkSidecar (noteId : NoteId)
  | clearing (rest : List Entry) (failed : Bool)
  | load (noteId : NoteId)
  | loadModified (noteId : NoteId) (data : Bytes)
  | loadSize (noteId : NoteId) (data : Bytes) (fallback : Str)
  | loadSidecar (noteId : NoteId) (data : Bytes) (fallback : Str) (size : Nat)

namespace Call

def waits : Call → Bool
  | .save _ => true
  | .delete _ => true
  | .clear => true
  | _ => false

def holdsLock : Call → Bool
  | .prepare _ _ => true
  | .replaceCiphertext _ => true
  | .replaceSidecar _ => true
  | .restoreCiphertext _ => true
  | .restoreSidecar _ => true
  | .unlinkCiphertext _ => true
  | .unlinkSidecar _ => true
  | .clearing _ _ => true
  | _ => false

end Call

inductive Answer where
  | saved (note : NoteSummary) (created : Bool)
  | loaded (note : NoteSummary) (data : Bytes)
  | deleted (noteId : NoteId)
  | cleared
  | refused (error : NotepadServiceError)
deriving DecidableEq

/-- What a step of a call leaves.  `completed` is the pair of a save that ends with it. -/
structure Turn where
  directory : NotesDirectory
  call : Call
  answer : Option Answer := none
  completed : Option NotePair := none

/-- `fails` is an `OSError` of the step's call to the file system, `reads` the failures that a
save does not notice, `modified` the time a file that is put in place carries, and `drawn` a
random ID. -/
structure Surroundings where
  fails : Bool
  reads : FailingReads
  modified : Str
  drawn : NoteId

/-- What a read finds, which is nothing when it fails. -/
def Surroundings.read {File : Type} (env : Surroundings) (found : Option File) : Option File :=
  if env.fails then none else found

theorem Surroundings.found_of_read {File : Type} (env : Surroundings)
    {found : Option File} {file : File} (read : env.read found = some file) :
    found = some file := by
  unfold Surroundings.read at read
  split at read
  · cases read
  · exact read

def refuse (directory : NotesDirectory) (error : NotepadServiceError) : Turn :=
  { directory := directory, call := .idle, answer := some (.refused error) }

def Replacement.answer (replacement : Replacement) : Answer :=
  .saved replacement.pair.metadata.summary replacement.created

def advance (policy : NoteStoragePolicy) (directory : NotesDirectory)
    (env : Surroundings) : Call → Option Turn
  | .idle => none
  | .save request =>
    -- an ID that is taken is drawn again
    if request.noteId = none ∧
        (directory.seenCiphertext env.reads env.drawn).isSome = true then
      none
    else
      match admitSave policy directory env.reads request env.drawn with
      | .error error => some (refuse directory error)
      | .ok (pair, created) => some { directory := directory, call := .prepare pair created }
  | .prepare pair created =>
    if env.fails then some (refuse directory (internalError "Failed to save note"))
    else
      some
        { directory := directory
          call := .replaceCiphertext
            { pair := pair
              created := created
              encBackup := directory.seenCiphertext env.reads pair.metadata.noteId
              metaBackup := directory.seenSidecar env.reads pair.metadata.noteId } }
  | .replaceCiphertext replacement =>
    if env.fails then
      some { directory := directory, call := .restoreCiphertext replacement }
    else
      some
        { directory := directory.putCiphertext replacement.noteId
            { data := replacement.pair.data, modified := env.modified }
          call := .replaceSidecar replacement }
  | .replaceSidecar replacement =>
    if env.fails then
      some { directory := directory, call := .restoreCiphertext replacement }
    else
      some
        { directory :=
            directory.putSidecar replacement.noteId replacement.pair.metadata.toJson
          call := .idle
          answer := some replacement.answer
          completed := some replacement.pair }
  | .restoreCiphertext replacement =>
    some
      { directory :=
          if env.fails then directory
          else directory.restoreCiphertext replacement env.reads env.modified
        call := .restoreSidecar replacement }
  | .restoreSidecar replacement =>
    some
      (refuse
        (if env.fails then directory
          else directory.restoreSidecar replacement env.reads)
        (internalError "Failed to save note"))
  | .delete noteId => some { directory := directory, call := .unlinkCiphertext noteId }
  | .unlinkCiphertext noteId =>
    if env.fails then some (refuse directory (internalError "Failed to delete note"))
    else
      some { directory := directory.unlink (.ciphertext noteId), call := .unlinkSidecar noteId }
  | .unlinkSidecar noteId =>
    if env.fails then some (refuse directory (internalError "Failed to delete note"))
    else
      some
        { directory := directory.unlink (.sidecar noteId)
          call := .idle
          answer := some (.deleted noteId) }
  | .clear => some { directory := directory, call := .clearing directory.listing false }
  | .clearing [] failed =>
    some
      { directory := directory
        call := .idle
        answer := some (if failed then .refused clearFailed else .cleared) }
  | .clearing (entry :: rest) failed =>
    if env.fails then some { directory := directory, call := .clearing rest true }
    else some { directory := directory.unlink entry, call := .clearing rest failed }
  | .load noteId =>
    match env.read (directory.ciphertexts.lookup noteId) with
    | none => some (refuse directory (internalError "Failed to read note"))
    | some file => some { directory := directory, call := .loadModified noteId file.data }
  | .loadModified noteId data =>
    let file := env.read (directory.ciphertexts.lookup noteId)
    some
      { directory := directory
        call := .loadSize noteId data ((file.map NoteFile.modified).getD []) }
  | .loadSize noteId data fallback =>
    let file := env.read (directory.ciphertexts.lookup noteId)
    some
      { directory := directory
        call := .loadSidecar noteId data fallback ((file.map fun file => file.data.length).getD 0) }
  | .loadSidecar noteId data fallback size =>
    let sidecar := env.read (directory.sidecars.lookup noteId)
    some
      { directory := directory
        call := .idle
        answer := some (.loaded (noteRecord noteId fallback size sidecar) data) }

inductive Request where
  | save (request : SaveNoteRequest) (now : IsoTime) (sessionExists : Bool)
  | load (noteId : Text)
  | delete (noteId : Text)
  | clear

def findNote (directory : NotesDirectory) (text : Text) : Except NotepadServiceError NoteId :=
  match NoteId.parse text with
  | none => .error (invalidId "id" "Invalid note ID")
  | some noteId =>
    match directory.ciphertexts.lookup noteId with
    | none => .error noteNotFound
    | some _ => .ok noteId

def begin (isSpace : Nat → Bool) (directory : NotesDirectory) :
    Request → Except NotepadServiceError Call
  | .save request now sessionExists =>
    (checkSave isSpace request now sessionExists).map Call.save
  | .load noteId => (findNote directory noteId).map Call.load
  | .delete noteId => (findNote directory noteId).map Call.delete
  | .clear => .ok .clear

/-- `answers` and `completed` keep, the latest first, what the calls have answered and
the pairs of the saves that have ended. -/
structure State where
  directory : NotesDirectory
  holder : Option Nat
  calls : Nat → Call
  answers : List (Nat × Answer)
  completed : List NotePair

def State.starting (directory : NotesDirectory) (completed : List NotePair) : State :=
  { directory := directory
    holder := none
    calls := fun _ => .idle
    answers := []
    completed := completed }

inductive Event where
  | call (thread : Nat) (request : Request)
  | advance (thread : Nat) (env : Surroundings)

namespace State

def begun (state : State) (thread : Nat) : Except NotepadServiceError Call → State
  | .error error => { state with answers := (thread, .refused error) :: state.answers }
  | .ok call => { state with calls := Function.update state.calls thread call }

def holderAfter (state : State) (thread : Nat) (next : Call) : Option Nat :=
  if (state.calls thread).waits = true ∨ (state.calls thread).holdsLock = true then
    if next.holdsLock = true then some thread else none
  else state.holder

def turned (state : State) (thread : Nat) (turn : Turn) : State :=
  { directory := turn.directory
    holder := state.holderAfter thread turn.call
    calls := Function.update state.calls thread turn.call
    answers := (turn.answer.map fun answer => (thread, answer)).toList ++ state.answers
    completed := turn.completed.toList ++ state.completed }

end State

def step (policy : NoteStoragePolicy) (isSpace : Nat → Bool) : Machine State Event :=
  fun state event =>
    match event with
    | .call thread request =>
      match state.calls thread with
      | .idle => some (state.begun thread (begin isSpace state.directory request))
      | _ => none
    | .advance thread env =>
      if (state.calls thread).waits = true ∧ state.holder.isSome = true then none
      else
        (advance policy state.directory env (state.calls thread)).map
          (state.turned thread)

/-! ### The lock -/

section Lock

variable {policy : NoteStoragePolicy} {isSpace : Nat → Bool} {directory : NotesDirectory}
  {env : Surroundings} {call : Call} {turn : Turn}

theorem advance_free (free : call.holdsLock = false)
    (taken : advance policy directory env call = some turn) :
    turn.directory = directory ∧ turn.completed = none := by
  cases call with
  | idle => cases taken
  | save request =>
    simp only [advance] at taken
    split at taken
    · cases taken
    split at taken
    all_goals
      cases taken
      exact ⟨rfl, rfl⟩
  | delete | clear | loadModified | loadSize | loadSidecar =>
    cases taken
    exact ⟨rfl, rfl⟩
  | load noteId =>
    simp only [advance] at taken
    split at taken
    all_goals
      cases taken
      exact ⟨rfl, rfl⟩
  | _ => cases free

theorem advance_directory (free : call.holdsLock = false)
    (taken : advance policy directory env call = some turn) :
    turn.directory = directory := (advance_free free taken).1

theorem advance_holdsLock (apart : call.waits = false ∧ call.holdsLock = false)
    (taken : advance policy directory env call = some turn) :
    turn.call.holdsLock = false := by
  cases call with
  | idle => cases taken
  | load noteId =>
    simp only [advance] at taken
    split at taken
    · cases taken
      rfl
    · cases taken
      rfl
  | loadModified | loadSize | loadSidecar =>
    cases taken
    rfl
  | save | delete | clear => cases apart.1
  | _ => cases apart.2

/-- What holds the lock is the holder. -/
def Exclusive (state : State) : Prop :=
  ∀ thread, (state.calls thread).holdsLock = true → state.holder = some thread

theorem Exclusive.starting (directory : NotesDirectory) (completed : List NotePair) :
    Exclusive (State.starting directory completed) := fun _ holds => by cases holds

theorem step_cases {state next : State} {event : Event}
    (taken : step policy isSpace state event = some next) :
    (∃ thread request, event = .call thread request ∧ state.calls thread = .idle ∧
        next = state.begun thread (begin isSpace state.directory request)) ∨
      ∃ thread env turn, event = .advance thread env ∧
        ((state.calls thread).waits = true → state.holder = none) ∧
        advance policy state.directory env (state.calls thread) = some turn ∧
        next = state.turned thread turn := by
  cases event with
  | call thread request =>
    simp only [step] at taken
    split at taken
    · case h_1 idle =>
        cases taken
        exact .inl ⟨thread, request, rfl, idle, rfl⟩
    · cases taken
  | advance thread env =>
    simp only [step] at taken
    split at taken
    · cases taken
    rename_i free
    obtain ⟨turn, advanced, rfl⟩ := Option.map_eq_some_iff.mp taken
    refine .inr ⟨thread, env, turn, rfl, ?_, advanced, rfl⟩
    intro waits
    rw [← Option.not_isSome_iff_eq_none]
    exact fun held => free ⟨waits, held⟩

theorem begin_holdsLock {request : Request}
    (started : begin isSpace directory request = .ok call) : call.holdsLock = false := by
  cases request with
  | save request now sessionExists =>
    obtain ⟨save, _, rfl⟩ := Ensures.exists_of_map_eq_ok started
    rfl
  | load noteId | delete noteId =>
    obtain ⟨noteId, _, rfl⟩ := Ensures.exists_of_map_eq_ok started
    rfl
  | clear =>
    cases started
    rfl

@[simp] theorem begun_directory (state : State) (thread : Nat)
    (outcome : Except NotepadServiceError Call) :
    (state.begun thread outcome).directory = state.directory := by
  cases outcome <;> rfl

@[simp] theorem begun_holder (state : State) (thread : Nat)
    (outcome : Except NotepadServiceError Call) :
    (state.begun thread outcome).holder = state.holder := by
  cases outcome <;> rfl

theorem begun_calls (state : State) (thread : Nat) (request : Request) (other : Nat) :
    (state.begun thread (begin isSpace state.directory request)).calls other = state.calls other ∨
      other = thread ∧
        ((state.begun thread (begin isSpace state.directory request)).calls other).holdsLock =
          false := by
  cases started : begin isSpace state.directory request with
  | error error => exact .inl rfl
  | ok call =>
    by_cases same : other = thread
    · refine .inr ⟨same, ?_⟩
      simp only [State.begun, same, Function.update_self]
      exact begin_holdsLock started
    · exact .inl (Function.update_of_ne same _ _)

theorem step_exclusive {state next : State} {event : Event} (exclusive : Exclusive state)
    (taken : step policy isSpace state event = some next) : Exclusive next := by
  intro other holds
  rcases step_cases taken with ⟨thread, request, rfl, _, rfl⟩ |
    ⟨thread, env, turn, rfl, free, advanced, rfl⟩
  · rw [begun_holder]
    rcases begun_calls state thread request other with same | ⟨_, free⟩
    · exact exclusive other (same ▸ holds)
    · rw [free] at holds
      cases holds
  · by_cases same : other = thread
    · simp only [State.turned, same, Function.update_self] at holds
      change state.holderAfter thread turn.call = some other
      rw [State.holderAfter, same]
      by_cases involved : (state.calls thread).waits = true ∨ (state.calls thread).holdsLock = true
      · rw [if_pos involved, if_pos holds]
      rw [not_or, Bool.not_eq_true, Bool.not_eq_true] at involved
      rw [advance_holdsLock involved advanced] at holds
      cases holds
    · simp only [State.turned, Function.update_of_ne same] at holds
      have held := exclusive other holds
      change state.holderAfter thread turn.call = some other
      rw [State.holderAfter, if_neg, held]
      rintro (waits | holding)
      · rw [free waits] at held
        cases held
      · rw [exclusive thread holding] at held
        exact same (Option.some.inj held).symm

theorem Exclusive.holdsLock_other {state : State} (exclusive : Exclusive state) {thread other : Nat}
    (holds : (state.calls thread).holdsLock = true) (different : other ≠ thread) :
    (state.calls other).holdsLock = false := by
  by_contra holding
  rw [Bool.not_eq_false] at holding
  have held := exclusive other holding
  rw [exclusive thread holds] at held
  exact different (Option.some.inj held).symm

end Lock

end XFerry.Notepad
