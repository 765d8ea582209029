/-
Start-up on folders with any content.

`reconcile` looks at three names for each file ID, and at nothing else to decide what
becomes of them.  Calls to the file system succeed, but for the removal of a directory.
-/

import XFerry.Encrypted.Disk
import XFerry.Encrypted.JournalFaults
import XFerry.Encrypted.JournalRoundTrip

namespace XFerry.Encrypted

open Json Python Function List

/-- An entry of the folder of journals.  What is neither a regular file nor a directory
can be unlinked as a file can. -/
inductive StateEntry where
  | file (content : Bytes)
  | other
  | directory
deriving DecidableEq

inductive DataEntry where
  | file (size : Nat)
  | symlink
  | special
  | directory
deriving DecidableEq

inductive StateName where
  | temporary (text : Text)
  | journal (stem : Text)
  | foreign (text : Text)
deriving DecidableEq

structure Folders where
  state : StateName → Option StateEntry
  data : DataName → Option DataEntry
  foreignData : Text → Option DataEntry

structure Item where
  journal : Option StateEntry
  part : Option DataEntry
  complete : Option DataEntry

/-- Exceptions that `reconcile` lets through: the `OverflowError` of a journal, and the
`OSError` of unlinking a directory. -/
inductive Abort where
  | overflowError
  | osError

structure Recovery where
  levels : Nat
  repr : Timestamp → FloatNumeral
  now : Timestamp

/-! ### Entries -/

def DataEntry.unlinked : Option DataEntry → Option DataEntry
  | some .directory => some .directory
  | _ => none

def StateEntry.unlinked : Option StateEntry → Option StateEntry
  | some .directory => some .directory
  | _ => none

/-- `exists() and not is_symlink()`. -/
def DataEntry.isPresent : Option DataEntry → Bool
  | some (.file _) => true
  | some .special => true
  | some .directory => true
  | some .symlink => false
  | none => false

/-- `_validate_data_file`. -/
def requireDataFile (entry : Option DataEntry) (expectedSize : Nat) : Except StateError Unit :=
  match entry with
  | none => .error (corrupt "encrypted data is missing")
  | some entry =>
    require (entry = .file expectedSize) (corrupt "encrypted data has an unexpected type or size")

namespace Item

/-- `_remove_record_artifacts`. -/
def removed (item : Item) : Item :=
  { journal := StateEntry.unlinked item.journal
    part := DataEntry.unlinked item.part
    complete := DataEntry.unlinked item.complete }

/-- `_read_state_path`. -/
def readState (recovery : Recovery) (fileId : FileId) (item : Item) :
    Except StateError (Record Timestamp) :=
  match item.journal with
  | none => .error (.storage (.notFound "encrypted file not found"))
  | some (.file content) =>
    if maxStateBytes < content.length then .error (corrupt "invalid state sidecar")
    else decodeEncryptedState recovery.levels content fileId.text
  | some .other => .error (corrupt "invalid state sidecar")
  | some .directory => .error (corrupt "invalid state sidecar")

def completedRecord (recovery : Recovery) (record : Record Timestamp) : Record Timestamp :=
  { record with status := .complete, updatedAt := max record.updatedAt recovery.now }

/-- `_write_state` of the published record, over data that has been moved. -/
def writeCompleted (recovery : Recovery) (record : Record Timestamp) (item : Item) :
    Except StateError (Item × DataName) :=
  let content := journalBytes recovery.repr (completedRecord recovery record)
  if maxStateBytes < content.length then
    .error (.storage (.validation "encrypted recovery journal exceeds its limit"))
  else .ok ({ item with journal := some (.file content) }, .complete record.fileId)

def publishCommitting (recovery : Recovery) (record : Record Timestamp) (item : Item) :
    Except StateError (Item × DataName) :=
  if DataEntry.isPresent item.part = true ∧ DataEntry.isPresent item.complete = true then
    .error (corrupt "both partial and complete encrypted data exist")
  else if DataEntry.isPresent item.part = true then do
    requireDataFile item.part record.manifest.ciphertextSize
    writeCompleted recovery record { item with part := none, complete := item.part }
  else if DataEntry.isPresent item.complete = true then do
    requireDataFile item.complete record.manifest.ciphertextSize
    writeCompleted recovery record item
  else .error (corrupt "committing encrypted data is missing")

/-- `_reconcile_record`, with the name of the data that the item keeps. -/
def reconcileRecord (recovery : Recovery) (record : Record Timestamp) (item : Item) :
    Except StateError (Item × DataName) :=
  match record.status with
  | .partial_ =>
    if item.complete.isSome = true then .error (corrupt "partial state has complete data")
    else do
      requireDataFile item.part record.manifest.ciphertextSize
      return (item, .part record.fileId)
  | .committing => publishCommitting recovery record item
  | .complete =>
    if item.part.isSome = true then .error (corrupt "complete state has partial data")
    else do
      requireDataFile item.complete record.manifest.ciphertextSize
      return (item, .complete record.fileId)

/-- What becomes of an item in the loop over the journals.  Data that was moved before
an exception is removed like data that was not. -/
def visited (recovery : Recovery) (fileId : FileId) (item : Item) :
    Except Abort (Item × Option DataName) :=
  match item.readState recovery fileId with
  | .error .overflowError => .error .overflowError
  | .error _ => .ok (item.removed, none)
  | .ok record =>
    match item.reconcileRecord recovery record with
    | .error _ => .ok (item.removed, none)
    | .ok (kept, expected) => .ok (kept, some expected)

def swept (fileId : FileId) (expected : Option DataName) (item : Item) : Item :=
  { item with
    part := if expected = some (.part fileId) then item.part else DataEntry.unlinked item.part
    complete :=
      if expected = some (.complete fileId) then item.complete
      else DataEntry.unlinked item.complete }

def reconciled (recovery : Recovery) (fileId : FileId) (item : Item) : Item :=
  match item.journal with
  | none => item.swept fileId none
  | some _ =>
    match item.visited recovery fileId with
    | .error _ => item
    | .ok (kept, expected) => kept.swept fileId expected

end Item

namespace Folders

def item (folders : Folders) (fileId : FileId) : Item :=
  { journal := folders.state (.journal fileId.text)
    part := folders.data (.part fileId)
    complete := folders.data (.complete fileId) }

def setItem (folders : Folders) (fileId : FileId) (item : Item) : Folders :=
  { folders with
    state := update folders.state (.journal fileId.text) item.journal
    data := update (update folders.data (.part fileId) item.part) (.complete fileId) item.complete }

def unlinkState (folders : Folders) (name : StateName) : Except Abort Folders :=
  if folders.state name = some .directory then .error .osError
  else .ok { folders with state := update folders.state name none }

def unlinkAll : List StateName → Folders → Except Abort Folders
  | [], folders => .ok folders
  | name :: rest, folders => do
      let folders ← folders.unlinkState name
      unlinkAll rest folders

def reconcileJournal (recovery : Recovery) (folders : Folders) (stem : Text) :
    Except Abort (Folders × Option DataName) :=
  if canonical : isFileIdText stem = true then do
    let fileId : FileId := { text := stem, canonical := canonical }
    let (kept, expected) ← (folders.item fileId).visited recovery fileId
    return (folders.setItem fileId kept, expected)
  else do
    let folders ← folders.unlinkState (.journal stem)
    return (folders, none)

def reconcileJournals (recovery : Recovery) :
    List Text → Folders → Except Abort (Folders × List DataName)
  | [], folders => .ok (folders, [])
  | stem :: rest, folders => do
      let (folders, here) ← folders.reconcileJournal recovery stem
      let (folders, others) ← reconcileJournals recovery rest folders
      return (folders, here.toList ++ others)

def sweepData (folders : Folders) (expected : List DataName) : Folders :=
  { folders with
    data := fun name =>
      if name ∈ expected then folders.data name else DataEntry.unlinked (folders.data name)
    foreignData := fun name => DataEntry.unlinked (folders.foreignData name) }

end Folders

structure FolderListing (folders : Folders) where
  names : List StateName
  distinct : names.Nodup
  listed : ∀ name, name ∈ names ↔ (folders.state name).isSome = true

namespace FolderListing

variable {folders : Folders}

def temporaries (listing : FolderListing folders) : List StateName :=
  listing.names.filter fun name => name matches .temporary _

def stem? : StateName → Option Text
  | .journal stem => some stem
  | .temporary _ => none
  | .foreign _ => none

/-- `sorted(state_dir.glob("*.json"))`, by their stems. -/
def journals (listing : FolderListing folders) : List Text :=
  (listing.names.filterMap stem?).insertionSort fun left right =>
    left ++ ".json".toList ≤ right ++ ".json".toList

end FolderListing

/-- `reconcile`. -/
def reconcileFolders (recovery : Recovery) (folders : Folders) (listing : FolderListing folders) :
    Except Abort Folders := do
  let folders ← folders.unlinkAll listing.temporaries
  let (folders, expected) ← folders.reconcileJournals recovery listing.journals
  return folders.sweepData expected

/-! ### One item -/

def DataName.fileId : DataName → FileId
  | .part fileId => fileId
  | .complete fileId => fileId

theorem FileId.eq_of_text_eq {left right : FileId} (same : left.text = right.text) :
    left = right := by
  cases left
  cases same
  rfl

/-- The entry of a stem does not stop the loop over the journals. -/
def Processable (levels : Nat) (stem : Text) (entry : Option StateEntry) : Prop :=
  if isFileIdText stem = true then
    ∀ content, entry = some (.file content) → ¬ ReachesOverflow levels content stem
  else entry ≠ some .directory

namespace Item

variable {recovery : Recovery} {fileId : FileId}

theorem reconcileRecord_ensures (recovery : Recovery) (record : Record Timestamp) (item : Item) :
    Ensures (item.reconcileRecord recovery record) fun kept =>
      kept.2.fileId = record.fileId := by
  have written (item : Item) : Ensures (writeCompleted recovery record item) fun kept =>
      kept.2.fileId = record.fileId := by
    unfold writeCompleted
    exact .ite (fun _ => .error _) fun _ => .ok rfl
  unfold reconcileRecord
  cases record.status with
  | partial_ | complete => exact .ite (fun _ => .error _) fun _ => .andThen fun _ => .ok rfl
  | committing =>
    refine .ite (fun _ => .error _) fun _ => ?_
    refine .ite (fun _ => .andThen fun _ => written _) fun _ => ?_
    exact .ite (fun _ => .andThen fun _ => written _) fun _ => .error _

variable {item : Item}

theorem visited_eq_error_iff {abort : Abort} :
    item.visited recovery fileId = .error abort ↔
      abort = .overflowError ∧ item.readState recovery fileId = .error .overflowError := by
  unfold visited
  cases item.readState recovery fileId with
  | ok record =>
    constructor
    · intro aborted
      dsimp only at aborted
      split at aborted
      · cases aborted
      · cases aborted
    · rintro ⟨_, same⟩
      cases same
  | error failure =>
    cases failure with
    | overflowError => simp [eq_comm]
    | valueError | storage => simp

theorem readState_eq_overflowError_iff :
    item.readState recovery fileId = .error .overflowError ↔
      ∃ content, item.journal = some (.file content) ∧
        ReachesOverflow recovery.levels content fileId.text := by
  unfold readState
  cases item.journal with
  | none => simp
  | some entry =>
    cases entry with
    | other | directory => simp [corrupt]
    | file content =>
      dsimp only
      split
      · case isTrue long =>
          constructor
          · intro raised
            cases raised
          · rintro ⟨_, same, reaches⟩
            cases same
            have raised := decodeEncryptedState_of_overflow reaches
            rw [decodeEncryptedState, decodeHeader, require, if_neg (Nat.not_le.mpr long)]
              at raised
            cases raised
      · rw [decodeEncryptedState_eq_overflowError_iff]
        constructor
        · exact fun reaches => ⟨content, rfl, reaches⟩
        · rintro ⟨_, same, reaches⟩
          cases same
          exact reaches

theorem readState_ensures (recovery : Recovery) (fileId : FileId) (item : Item) :
    Ensures (item.readState recovery fileId) fun record => record.fileId = fileId := by
  unfold readState
  split
  · exact .error _
  · refine .ite (fun _ => .error _) fun _ => (decodeEncryptedState_ensures _ _ _).imp ?_
    rintro record ⟨same, _⟩
    exact FileId.eq_of_text_eq same
  · exact .error _
  · exact .error _

theorem visited_ensures (recovery : Recovery) (fileId : FileId) (item : Item) :
    Ensures (item.visited recovery fileId) fun outcome =>
      ∀ name, outcome.2 = some name → name.fileId = fileId := by
  have isOwn := item.readState_ensures recovery fileId
  unfold visited
  cases opened : item.readState recovery fileId with
  | error failure =>
    cases failure with
    | overflowError => exact .error _
    | valueError | storage => exact .ok (by simp)
  | ok record =>
    have kept := item.reconcileRecord_ensures recovery record
    rw [isOwn record opened] at kept
    dsimp only
    cases reconciled : item.reconcileRecord recovery record with
    | error failure => exact .ok (by simp)
    | ok outcome =>
      refine .ok ?_
      rintro name same
      cases same
      exact kept outcome reconciled

theorem visited_succeeds_iff :
    Succeeds (item.visited recovery fileId) ↔
      Processable recovery.levels fileId.text item.journal := by
  rw [Processable, if_pos fileId.canonical]
  constructor
  · rintro ⟨outcome, visited⟩ content isFile reaches
    have aborted := visited_eq_error_iff.mpr
      ⟨rfl, readState_eq_overflowError_iff.mpr ⟨content, isFile, reaches⟩⟩
    rw [visited] at aborted
    cases aborted
  · intro processable
    cases visited : item.visited recovery fileId with
    | ok outcome => exact .ok outcome
    | error abort =>
      obtain ⟨content, isFile, reaches⟩ :=
        readState_eq_overflowError_iff.mp (visited_eq_error_iff.mp visited).2
      exact absurd reaches (processable content isFile)

end Item

/-! ### The folders -/

namespace Folders

variable {recovery : Recovery} {folders : Folders}

theorem item_setItem_same (folders : Folders) (fileId : FileId) (item : Item) :
    (folders.setItem fileId item).item fileId = item := by
  simp [setItem, Folders.item, update_of_ne]

theorem item_setItem_other {fileId other : FileId} (item : Item) (different : other ≠ fileId) :
    (folders.setItem fileId item).item other = folders.item other := by
  have texts : other.text ≠ fileId.text := fun same => different (FileId.eq_of_text_eq same)
  simp [setItem, Folders.item, update_of_ne, different, texts]

theorem state_setItem_other {fileId : FileId} {name : StateName} (item : Item)
    (different : name ≠ .journal fileId.text) :
    (folders.setItem fileId item).state name = folders.state name :=
  update_of_ne different _ _

theorem unlinkState_succeeds_iff {name : StateName} :
    Succeeds (folders.unlinkState name) ↔ folders.state name ≠ some .directory := by
  unfold unlinkState
  split
  · case isTrue directory =>
      exact ⟨fun succeeds => absurd succeeds (Succeeds.not_error _), fun other =>
        absurd directory other⟩
  · case isFalse other => exact ⟨fun _ => other, fun _ => .ok _⟩

/-- What unlinking names of the state folder leaves. -/
structure Unlinked (before : Folders) (names : List StateName) (after : Folders) : Prop where
  gone : ∀ name ∈ names, after.state name = none
  others : ∀ name, name ∉ names → after.state name = before.state name
  data : after.data = before.data

theorem unlinkState_ensures (folders : Folders) (name : StateName) :
    Ensures (folders.unlinkState name) (Unlinked folders [name]) := by
  refine .ite (fun _ => .error _) fun _ => .ok ?_
  constructor
  case gone =>
    intro other same
    rw [mem_singleton.mp same]
    exact update_self _ _ _
  case others =>
    intro other different
    exact update_of_ne (fun same => different (mem_singleton.mpr same)) _ _
  case data => rfl

theorem unlinkAll_ensures (names : List StateName) (folders : Folders) :
    Ensures (unlinkAll names folders) (Unlinked folders names) := by
  induction names generalizing folders with
  | nil => exact .ok ⟨fun _ member => (not_mem_nil member).elim, fun _ _ => rfl, rfl⟩
  | cons name rest ih =>
    refine .bind (unlinkState_ensures folders name) fun middle first => ?_
    refine (ih middle).imp fun after others => ?_
    constructor
    case gone =>
      intro other member
      by_cases inRest : other ∈ rest
      · exact others.gone other inRest
      rw [others.others other inRest]
      have isFirst := (mem_cons.mp member).resolve_right inRest
      exact first.gone other (mem_singleton.mpr isFirst)
    case others =>
      intro other outside
      rw [mem_cons, not_or] at outside
      rw [others.others other outside.2]
      exact first.others other (fun same => outside.1 (mem_singleton.mp same))
    case data => exact others.data.trans first.data

theorem unlinkAll_succeeds_iff (names : List StateName) (folders : Folders) :
    Succeeds (unlinkAll names folders) ↔ ∀ name ∈ names, folders.state name ≠ some .directory := by
  induction names generalizing folders with
  | nil => exact ⟨fun _ _ member => (not_mem_nil member).elim, fun _ => .ok _⟩
  | cons name rest ih =>
    rw [unlinkAll, Succeeds.bind_iff, forall_mem_cons, ← unlinkState_succeeds_iff]
    constructor
    · rintro ⟨middle, first, others⟩
      refine ⟨⟨middle, first⟩, ?_⟩
      intro other member directory
      have unlinked := unlinkState_ensures folders name middle first
      apply (ih middle).mp others other member
      by_cases same : other = name
      · exact absurd (same ▸ directory) (unlinkState_succeeds_iff.mp ⟨middle, first⟩)
      · rw [unlinked.others other fun inside => same (mem_singleton.mp inside), directory]
    · rintro ⟨⟨middle, first⟩, others⟩
      refine ⟨middle, first, (ih middle).mpr ?_⟩
      intro other member directory
      have unlinked := unlinkState_ensures folders name middle first
      by_cases same : other = name
      · rw [unlinked.gone other (mem_singleton.mpr same)] at directory
        cases directory
      · rw [unlinked.others other fun inside => same (mem_singleton.mp inside)] at directory
        exact others other member directory

/-! ### The loop over the journals -/

structure Turn (recovery : Recovery) (before : Folders) (stem : Text)
    (outcome : Folders × Option DataName) : Prop where
  others : ∀ other, other ≠ stem → outcome.1.state (.journal other) = before.state (.journal other)
  otherItems : ∀ fileId : FileId, fileId.text ≠ stem → outcome.1.item fileId = before.item fileId
  visited : ∀ fileId : FileId, fileId.text = stem →
    (before.item fileId).visited recovery fileId = .ok (outcome.1.item fileId, outcome.2)
  expected : ∀ name, outcome.2 = some name → name.fileId.text = stem

theorem reconcileJournal_canonical (recovery : Recovery) (folders : Folders) (fileId : FileId) :
    folders.reconcileJournal recovery fileId.text = (do
      let (kept, expected) ← (folders.item fileId).visited recovery fileId
      return (folders.setItem fileId kept, expected)) :=
  dif_pos fileId.canonical

theorem reconcileJournal_foreign {stem : Text} (foreign : ¬ isFileIdText stem = true) :
    folders.reconcileJournal recovery stem = (do
      let folders ← folders.unlinkState (.journal stem)
      return (folders, none)) :=
  dif_neg foreign

theorem reconcileJournal_ensures (recovery : Recovery) (folders : Folders) (stem : Text) :
    Ensures (folders.reconcileJournal recovery stem) (Turn recovery folders stem) := by
  by_cases canonical : isFileIdText stem = true
  · obtain ⟨fileId, rfl⟩ : ∃ fileId : FileId, fileId.text = stem := ⟨⟨stem, canonical⟩, rfl⟩
    have own := (folders.item fileId).visited_ensures recovery fileId
    rw [reconcileJournal_canonical]
    cases visited : (folders.item fileId).visited recovery fileId with
    | error abort => exact .error abort
    | ok outcome =>
      refine .ok ?_
      constructor
      case others =>
        intro other different
        exact state_setItem_other _ fun same => different (StateName.journal.inj same)
      case otherItems =>
        intro other different
        exact item_setItem_other _ fun same => different (congrArg FileId.text same)
      case visited =>
        intro other same
        rw [FileId.eq_of_text_eq same, visited, item_setItem_same]
      case expected =>
        intro name isExpected
        rw [own outcome visited name isExpected]
  · rw [reconcileJournal_foreign canonical]
    refine .bind (unlinkState_ensures folders (.journal stem)) fun after unlinked => .ok ?_
    have untouched (other : Text) (different : other ≠ stem) :
        after.state (.journal other) = folders.state (.journal other) :=
      unlinked.others _ fun member =>
        different (StateName.journal.inj (mem_singleton.mp member))
    constructor
    case others => exact untouched
    case otherItems =>
      intro fileId different
      simp only [Folders.item, untouched fileId.text different, unlinked.data]
    case visited =>
      intro fileId same
      exact absurd (same ▸ fileId.canonical) canonical
    case expected =>
      intro name isExpected
      cases isExpected

theorem reconcileJournal_succeeds_iff (recovery : Recovery) (folders : Folders) (stem : Text) :
    Succeeds (folders.reconcileJournal recovery stem) ↔
      Processable recovery.levels stem (folders.state (.journal stem)) := by
  by_cases canonical : isFileIdText stem = true
  · obtain ⟨fileId, rfl⟩ : ∃ fileId : FileId, fileId.text = stem := ⟨⟨stem, canonical⟩, rfl⟩
    rw [reconcileJournal_canonical, Succeeds.bind_iff]
    have processable : Succeeds ((folders.item fileId).visited recovery fileId) ↔
        Processable recovery.levels fileId.text (folders.state (.journal fileId.text)) :=
      Item.visited_succeeds_iff
    refine Iff.trans ?_ processable
    exact ⟨fun ⟨outcome, visited, _⟩ => ⟨outcome, visited⟩,
      fun ⟨outcome, visited⟩ => ⟨outcome, visited, .ok _⟩⟩
  · rw [reconcileJournal_foreign canonical, Succeeds.bind_iff, Processable, if_neg canonical,
      ← unlinkState_succeeds_iff]
    exact ⟨fun ⟨after, unlinked, _⟩ => ⟨after, unlinked⟩,
      fun ⟨after, unlinked⟩ => ⟨after, unlinked, .ok _⟩⟩

structure Turns (recovery : Recovery) (before : Folders) (stems : List Text)
    (outcome : Folders × List DataName) : Prop where
  otherItems : ∀ fileId : FileId, fileId.text ∉ stems → outcome.1.item fileId = before.item fileId
  visited : ∀ fileId : FileId, fileId.text ∈ stems → ∃ expected,
    (before.item fileId).visited recovery fileId = .ok (outcome.1.item fileId, expected) ∧
      ∀ name, name.fileId = fileId → (name ∈ outcome.2 ↔ expected = some name)
  expected : ∀ name ∈ outcome.2, name.fileId.text ∈ stems

theorem Turns.nil (recovery : Recovery) (before : Folders) :
    Turns recovery before [] (before, []) :=
  { otherItems := fun _ _ => rfl
    visited := fun _ member => (not_mem_nil member).elim
    expected := fun _ member => (not_mem_nil member).elim }

theorem Turns.cons {before : Folders} {stem : Text} {rest : List Text}
    {here : Folders × Option DataName} {others : Folders × List DataName} (distinct : stem ∉ rest)
    (turn : Turn recovery before stem here) (turns : Turns recovery here.1 rest others) :
    Turns recovery before (stem :: rest) (others.1, here.2.toList ++ others.2) := by
  have mem_names (name : DataName) :
      name ∈ here.2.toList ++ others.2 ↔ here.2 = some name ∨ name ∈ others.2 := by
    rw [mem_append, Option.mem_toList]
  constructor
  case otherItems =>
    intro fileId outside
    rw [mem_cons, not_or] at outside
    exact (turns.otherItems fileId outside.2).trans (turn.otherItems fileId outside.1)
  case visited =>
    intro fileId member
    by_cases isHere : fileId.text = stem
    · have notLater : fileId.text ∉ rest := isHere ▸ distinct
      refine ⟨here.2, ?_, ?_⟩
      · rw [turns.otherItems fileId notLater]
        exact turn.visited fileId isHere
      · intro name isOwn
        rw [mem_names]
        refine or_iff_left ?_
        intro later
        exact notLater (isOwn ▸ turns.expected name later)
    · have later := (mem_cons.mp member).resolve_left isHere
      obtain ⟨expected, visited, names⟩ := turns.visited fileId later
      rw [turn.otherItems fileId isHere] at visited
      refine ⟨expected, visited, ?_⟩
      intro name isOwn
      rw [mem_names, ← names name isOwn]
      refine or_iff_right ?_
      intro sooner
      exact isHere (isOwn ▸ turn.expected name sooner)
  case expected =>
    intro name member
    rcases (mem_names name).mp member with sooner | later
    · exact mem_cons.mpr (.inl (turn.expected name sooner))
    · exact mem_cons_of_mem _ (turns.expected name later)

theorem reconcileJournals_ensures (recovery : Recovery) {stems : List Text}
    (distinct : stems.Nodup) (folders : Folders) :
    Ensures (reconcileJournals recovery stems folders) (Turns recovery folders stems) := by
  induction stems generalizing folders with
  | nil => exact .ok (Turns.nil recovery folders)
  | cons stem rest ih =>
    rw [nodup_cons] at distinct
    refine .bind (reconcileJournal_ensures recovery folders stem) fun here turn => ?_
    refine .bind (ih distinct.2 here.1) fun others turns => ?_
    exact .ok (Turns.cons distinct.1 turn turns)

theorem reconcileJournals_succeeds_iff (recovery : Recovery) {stems : List Text}
    (distinct : stems.Nodup) (folders : Folders) :
    Succeeds (reconcileJournals recovery stems folders) ↔
      ∀ stem ∈ stems, Processable recovery.levels stem (folders.state (.journal stem)) := by
  induction stems generalizing folders with
  | nil => exact ⟨fun _ _ member => (not_mem_nil member).elim, fun _ => .ok _⟩
  | cons stem rest ih =>
    rw [nodup_cons] at distinct
    have unchanged (here : Folders × Option DataName)
        (turned : folders.reconcileJournal recovery stem = .ok here) :
        Succeeds (reconcileJournals recovery rest here.1) ↔
          ∀ other ∈ rest, Processable recovery.levels other (folders.state (.journal other)) := by
      rw [ih distinct.2 here.1]
      refine forall₂_congr fun other member => ?_
      have different : other ≠ stem := fun same => distinct.1 (same ▸ member)
      rw [(reconcileJournal_ensures recovery folders stem here turned).others other different]
    rw [reconcileJournals, Succeeds.bind_iff, forall_mem_cons,
      ← reconcileJournal_succeeds_iff recovery folders stem]
    constructor
    · rintro ⟨here, turned, later⟩
      obtain ⟨others, looped, _⟩ := Succeeds.bind_iff.mp later
      exact ⟨⟨here, turned⟩, (unchanged here turned).mp ⟨others, looped⟩⟩
    · rintro ⟨⟨here, turned⟩, later⟩
      obtain ⟨others, looped⟩ := (unchanged here turned).mpr later
      exact ⟨here, turned, Succeeds.bind_iff.mpr ⟨others, looped, .ok _⟩⟩

theorem item_sweepData {expected : List DataName} {fileId : FileId} {own : Option DataName}
    (names : ∀ name, name.fileId = fileId → (name ∈ expected ↔ own = some name)) :
    (folders.sweepData expected).item fileId = (folders.item fileId).swept fileId own := by
  simp only [sweepData, Folders.item, Item.swept, names (.part fileId) rfl,
    names (.complete fileId) rfl]

end Folders

/-! ### Start-up -/

namespace FolderListing

variable {folders : Folders}

section

variable (listing : FolderListing folders)
include listing

theorem mem_temporaries (name : StateName) :
    name ∈ listing.temporaries ↔
      (folders.state name).isSome = true ∧ ∃ text, name = .temporary text := by
  rw [temporaries, mem_filter, listing.listed]
  cases name with
  | temporary | journal | foreign => simp

theorem mem_journals (stem : Text) :
    stem ∈ listing.journals ↔ (folders.state (.journal stem)).isSome = true := by
  rw [journals, mem_insertionSort, mem_filterMap, ← listing.listed]
  constructor
  · rintro ⟨name, member, isStem⟩
    cases name with
    | journal other =>
      cases isStem
      exact member
    | temporary | foreign => cases isStem
  · exact fun member => ⟨_, member, rfl⟩

theorem nodup_journals : listing.journals.Nodup := by
  refine (perm_insertionSort _ _).nodup_iff.mpr (listing.distinct.filterMap ?_)
  intro left right stem isLeft isRight
  cases left with
  | journal first =>
    cases right with
    | journal second =>
      cases isLeft
      cases isRight
      rfl
    | temporary | foreign => cases isRight
  | temporary | foreign => cases isLeft

end

end FolderListing

/-- Start-up goes through the folders to their end, and leaves every item as its own
three names ask for. -/
def Recovers (recovery : Recovery) (folders : Folders) (listing : FolderListing folders) : Prop :=
  ∃ final, reconcileFolders recovery folders listing = .ok final ∧
    ∀ fileId, final.item fileId = (folders.item fileId).reconciled recovery fileId

/-- No directory stands where start-up unlinks what it does not know, and no journal of a
file ID has an integer that is too large for a timestamp. -/
structure Manageable (recovery : Recovery) (folders : Folders) : Prop where
  temporaries : ∀ text, folders.state (.temporary text) ≠ some .directory
  journals : ∀ stem, Processable recovery.levels stem (folders.state (.journal stem))

theorem Processable.none (levels : Nat) (stem : Text) : Processable levels stem none := by
  unfold Processable
  split
  · intro content isFile
    cases isFile
  · intro isDirectory
    cases isDirectory

section StartUp

variable {recovery : Recovery} {folders cleared : Folders} {listing : FolderListing folders}

theorem item_of_cleared (unlinked : folders.Unlinked listing.temporaries cleared) :
    (∀ stem, cleared.state (.journal stem) = folders.state (.journal stem)) ∧
      ∀ fileId, cleared.item fileId = folders.item fileId := by
  have journal (stem : Text) : cleared.state (.journal stem) = folders.state (.journal stem) := by
    apply unlinked.others
    intro member
    obtain ⟨_, text, same⟩ := (listing.mem_temporaries _).mp member
    cases same
  refine ⟨journal, ?_⟩
  intro fileId
  simp only [Folders.item, journal, unlinked.data]

theorem reconcileFolders_succeeds_iff :
    Succeeds (reconcileFolders recovery folders listing) ↔ Manageable recovery folders := by
  have loop (cleared : Folders)
    (unlinkedAll : folders.unlinkAll listing.temporaries = .ok cleared) :
      Succeeds (cleared.reconcileJournals recovery listing.journals) ↔
        ∀ stem, Processable recovery.levels stem (folders.state (.journal stem)) := by
    have unlinked := Folders.unlinkAll_ensures _ _ cleared unlinkedAll
    rw [Folders.reconcileJournals_succeeds_iff recovery listing.nodup_journals]
    constructor
    · intro processable stem
      cases entry : folders.state (.journal stem) with
      | none => exact Processable.none _ _
      | some present =>
        have member := (listing.mem_journals stem).mpr (entry ▸ rfl)
        have here := processable stem member
        rw [(item_of_cleared unlinked).1, entry] at here
        exact here
    · intro processable stem _
      rw [(item_of_cleared unlinked).1]
      exact processable stem
  have clear : Succeeds (folders.unlinkAll listing.temporaries) ↔
      ∀ text, folders.state (.temporary text) ≠ some .directory := by
    rw [Folders.unlinkAll_succeeds_iff]
    constructor
    · intro files text directory
      exact files _ ((listing.mem_temporaries _).mpr ⟨directory ▸ rfl, text, rfl⟩) directory
    · intro files name member
      obtain ⟨_, text, rfl⟩ := (listing.mem_temporaries _).mp member
      exact files text
  rw [reconcileFolders, Succeeds.bind_iff]
  constructor
  · rintro ⟨cleared, unlinkedAll, rest⟩
    obtain ⟨outcome, looped, _⟩ := Succeeds.bind_iff.mp rest
    exact ⟨clear.mp ⟨cleared, unlinkedAll⟩, (loop cleared unlinkedAll).mp ⟨outcome, looped⟩⟩
  · intro manageable
    obtain ⟨cleared, unlinkedAll⟩ := clear.mpr manageable.temporaries
    obtain ⟨outcome, looped⟩ := (loop cleared unlinkedAll).mpr manageable.journals
    exact ⟨cleared, unlinkedAll, Succeeds.bind_iff.mpr ⟨outcome, looped, .ok _⟩⟩

theorem reconcileFolders_ensures :
    Ensures (reconcileFolders recovery folders listing) fun final =>
      ∀ fileId, final.item fileId = (folders.item fileId).reconciled recovery fileId := by
  refine .bind (Folders.unlinkAll_ensures _ _) fun cleared unlinked => ?_
  refine .bind (Folders.reconcileJournals_ensures recovery listing.nodup_journals cleared)
    fun outcome turns => .ok ?_
  have before := (item_of_cleared unlinked).2
  intro fileId
  by_cases listed : fileId.text ∈ listing.journals
  · obtain ⟨expected, visited, names⟩ := turns.visited fileId listed
    rw [before] at visited
    rw [Folders.item_sweepData names]
    have present := (listing.mem_journals _).mp listed
    cases entry : folders.state (.journal fileId.text) with
    | none =>
      rw [entry] at present
      cases present
    | some found =>
      have journal : (folders.item fileId).journal = some found := entry
      simp only [Item.reconciled, journal, visited]
  · have noNames (name : DataName) (isOwn : name.fileId = fileId) :
        name ∈ outcome.2 ↔ none = some name := by
      refine iff_of_false ?_ (by simp)
      intro expected
      exact listed (isOwn ▸ turns.expected name expected)
    have journal : (folders.item fileId).journal = none := by
      rw [← Option.not_isSome_iff_eq_none]
      exact fun present => listed ((listing.mem_journals _).mpr present)
    rw [Folders.item_sweepData noNames, turns.otherItems fileId listed, before]
    simp only [Item.reconciled, journal]

end StartUp

/-- What the decoder answers, for any bytes, and which folders start-up gets through. -/
theorem journals_totality (recovery : Recovery) :
    (∀ raw expectedFileId,
      Answers expectedFileId (decodeEncryptedState recovery.levels raw expectedFileId) ↔
        ¬ ReachesForeignChunk recovery.levels raw expectedFileId ∧
          ¬ ReachesOverflow recovery.levels raw expectedFileId) ∧
      ∀ folders (listing : FolderListing folders),
        Recovers recovery folders listing ↔ Manageable recovery folders := by
  refine ⟨answers_iff recovery.levels, ?_⟩
  intro folders listing
  rw [← reconcileFolders_succeeds_iff]
  constructor
  · rintro ⟨final, reconciled, _⟩
    exact ⟨final, reconciled⟩
  · rintro ⟨final, reconciled⟩
    exact ⟨final, reconciled, reconcileFolders_ensures final reconciled⟩

def emptyFileJournal (createdAt chunks : List Char) : Bytes :=
  ("\x7b\"schema_version\":1,\"status\":\"partial\",\"created_at\":".toList ++ createdAt ++
      ",\"updated_at\":0,\"manifest\":\x7b\"version\":1,\"file_id\":\"".toList ++
      sampleFileId.text ++
      "\",\"plaintext_size\":0,\"chunk_size\":8388608,\"chunk_count\":0,".toList ++
      "\"salt\":\"AAAAAAAAAAAAAAAAAAAAAA\",\"nonce_prefix\":\"AAAAAAAAAAA\",".toList ++
      "\"encrypted_metadata\":\"AAAAAAAAAAAAAAAAAAAAAA\"\x7d,\"received_chunks\":\x7b".toList ++
      chunks ++ "\x7d\x7d".toList).map fun char => UInt8.ofNat char.toNat

def overflowJournal : Bytes := emptyFileJournal ('1' :: replicate 400 '0') []

def foreignChunkJournal : Bytes := emptyFileJournal ['0'] "\"0\":null".toList

theorem decode_overflowJournal :
    decodeEncryptedState 1000 overflowJournal sampleFileId.text = .error .overflowError := by
  decide +kernel

theorem decode_foreignChunkJournal :
    decodeEncryptedState 1000 foreignChunkJournal sampleFileId.text =
      .error (.storage (.validation "chunk index is outside the manifest")) := by
  decide +kernel

def overflowFolders : Folders :=
  { state := fun name =>
      if name = .journal sampleFileId.text then some (.file overflowJournal) else none
    data := fun _ => none
    foreignData := fun _ => none }

def overflowListing : FolderListing overflowFolders :=
  { names := [.journal sampleFileId.text]
    distinct := nodup_singleton _
    listed := by
      intro name
      by_cases here : name = .journal sampleFileId.text <;> simp [overflowFolders, here] }

def startUpRecovery : Recovery :=
  { levels := 1000
    repr := fun _ => zeroNumeral
    now := sampleTime }

/-- Neither journal is answered with corruption, and the first stops start-up. -/
theorem overflowJournal_aborts :
    ¬ Answers sampleFileId.text (decodeEncryptedState 1000 overflowJournal sampleFileId.text) ∧
      ¬ Answers sampleFileId.text
        (decodeEncryptedState 1000 foreignChunkJournal sampleFileId.text) ∧
      ¬ Recovers startUpRecovery overflowFolders overflowListing := by
  refine ⟨?_, ?_, ?_⟩
  · rw [decode_overflowJournal]
    exact not_isCorrupt_overflowError
  · rw [decode_foreignChunkJournal]
    exact (show IsForeign _ from .inr ⟨_, rfl⟩).not_isCorrupt
  · rintro ⟨final, reconciled, _⟩
    have manageable : Manageable startUpRecovery overflowFolders :=
      reconcileFolders_succeeds_iff.mp ⟨final, reconciled⟩
    have processable := manageable.journals sampleFileId.text
    exact processable overflowJournal (by simp [overflowFolders])
      (decodeEncryptedState_eq_overflowError_iff.mp decode_overflowJournal)

end XFerry.Encrypted
