/-
Stored notes: a ciphertext and a sidecar for each.

The sidecar is kept as the value its text parses to.  Nothing here changes the
directory; what the service computes from it is in one place, because a save and a load
put the same summary together.
-/

import XFerry.Json.Scanner
import XFerry.OrderedDict

namespace XFerry.Notepad

open Json Python

def minNoteEncryptedBlobBytes : Nat := 12 + 16

def maxNoteEncryptedBlobBytes : Nat := 1024 * 1024

def maxNoteTitleChars : Nat := 200

def isValidNoteId (text : Text) : Bool :=
  decide (text.length = 32) && text.all fun char => "0123456789abcdef".toList.contains char

structure NoteId where
  text : Text
  valid : isValidNoteId text = true
deriving DecidableEq

def NoteId.parse (text : Text) : Option NoteId :=
  if valid : isValidNoteId text = true then some { text := text, valid := valid } else none

structure NoteFile where
  data : Bytes
  modified : Str

structure NotesDirectory where
  ciphertexts : OrderedDict NoteId NoteFile
  sidecars : OrderedDict NoteId Value

def NotesDirectory.empty : NotesDirectory :=
  { ciphertexts := OrderedDict.empty
    sidecars := OrderedDict.empty }

structure NoteStoragePolicy where
  maxTotalBytes : Option Nat
  maxNoteCount : Option Nat

structure NoteStorageUsage where
  totalBytes : Nat
  noteCount : Nat

structure NoteSummary where
  noteId : NoteId
  title : Str
  createdAt : Str
  updatedAt : Str
  size : Nat
deriving DecidableEq

inductive Detail where
  | number (value : Nat)
  | text (value : String)
deriving DecidableEq

structure NotepadServiceError where
  statusCode : Nat
  message : String
  code : String
  field : Option String
  details : List (String × Detail)
deriving DecidableEq

def invalidTitle : NotepadServiceError :=
  { statusCode := 400
    message := "Note title must contain between 1 and 200 characters"
    code := "invalid_field"
    field := some "title"
    details := [("min_length", .number 1), ("max_length", .number maxNoteTitleChars)] }

def invalidId (field message : String) : NotepadServiceError :=
  { statusCode := 400
    message := message
    code := "invalid_field"
    field := some field
    details := [("format", .text "32 lowercase hexadecimal characters")] }

def invalidBase64 : NotepadServiceError :=
  { statusCode := 400
    message := "Invalid base64 in 'data'"
    code := "invalid_field"
    field := some "data"
    details := [("encoding", .text "base64")] }

def emptyData : NotepadServiceError :=
  { statusCode := 400
    message := "Encrypted note data is empty"
    code := "empty_payload"
    field := some "data"
    details := [] }

def shortData (length : Nat) : NotepadServiceError :=
  { statusCode := 400
    message := "Encrypted note data is shorter than the nonce and tag minimum"
    code := "invalid_field"
    field := some "data"
    details :=
      [("minimum_bytes", .number minNoteEncryptedBlobBytes), ("actual_bytes", .number length)] }

def longData (length : Nat) : NotepadServiceError :=
  { statusCode := 413
    message := "Encrypted note data exceeds 1 MiB decoded limit (1048576 bytes max)"
    code := "payload_too_large"
    field := some "data"
    details :=
      [("scope", .text "note"), ("limit_bytes", .number maxNoteEncryptedBlobBytes),
        ("actual_bytes", .number length)] }

def noteNotFound : NotepadServiceError :=
  { statusCode := 404
    message := "Note not found"
    code := "resource_not_found"
    field := some "id"
    details := [("resource", .text "note")] }

def quotaExceeded (reason : String) : NotepadServiceError :=
  { statusCode := 507
    message := "Notepad storage quota exceeded"
    code := "storage_quota_exceeded"
    field := some "data"
    details := [("scope", .text "notes"), ("reason", .text reason)] }

def internalError (message : String) : NotepadServiceError :=
  { statusCode := 500
    message := message
    code := "internal_error"
    field := none
    details := [] }

def clearFailed : NotepadServiceError :=
  { statusCode := 500
    message := "Failed to clear notes"
    code := "clear_failed"
    field := none
    details := [("path", .text "/notes")] }

def NotesDirectory.counted (directory : NotesDirectory) :
    Option NoteId → OrderedDict NoteId NoteFile
  | none => directory.ciphertexts
  | some excluded => directory.ciphertexts.erase excluded

/-- A note whose status cannot be read, one of `unread`, is passed over. -/
def scanNoteUsage (directory : NotesDirectory) (unread : NoteId → Bool)
    (excludeNoteId : Option NoteId) : NoteStorageUsage :=
  let counted := (directory.counted excludeNoteId).filter fun entry => !unread entry.1
  { totalBytes := counted.total fun entry => entry.2.data.length
    noteCount := counted.size }

def exceeds (limit : Option Nat) (amount : Nat) : Bool :=
  match limit with
  | none => false
  | some limit => limit < amount

def checkNoteStorageAccepts (policy : NoteStoragePolicy) (directory : NotesDirectory)
    (unread : NoteId → Bool) (noteId : NoteId) (newSize : Nat) (replacingExisting : Bool) :
    Except NotepadServiceError Unit :=
  let usage := scanNoteUsage directory unread (if replacingExisting then some noteId else none)
  if exceeds policy.maxNoteCount (usage.noteCount + 1) then .error (quotaExceeded "notes")
  else if exceeds policy.maxTotalBytes (usage.totalBytes + newSize) then
    .error (quotaExceeded "bytes")
  else .ok ()

abbrev IsoTime := { text : Str // text ≠ [] }

structure NoteMeta where
  noteId : NoteId
  title : Str
  createdAt : IsoTime
  updatedAt : IsoTime
  size : Nat
  session : Bool

def NoteMeta.toJson (metadata : NoteMeta) : Value :=
  .object
    ([(str "id".toList, .string (str metadata.noteId.text)),
        (str "title".toList, .string metadata.title),
        (str "created_at".toList, .string metadata.createdAt.1),
        (str "updated_at".toList, .string metadata.updatedAt.1),
        (str "size".toList, .int metadata.size)] ++
      if metadata.session then [(str "session".toList, .boolean true)] else [])

def textField (members : List (Str × Value)) (name : String) : Option Str :=
  match members.lookup (str name.toList) with
  | some (.string text) => some text
  | _ => none

def timeField (members : List (Str × Value)) (name : String) (fallback : Str) : Str :=
  match textField members name with
  | some (first :: rest) => first :: rest
  | _ => fallback

def noteRecord (noteId : NoteId) (fallbackTimestamp : Str) (size : Nat) (sidecar : Option Value) :
    NoteSummary :=
  match sidecar with
  | some (.object existing) =>
    { noteId := noteId
      title := (textField existing "title").getD []
      createdAt := timeField existing "created_at" fallbackTimestamp
      updatedAt := timeField existing "updated_at" fallbackTimestamp
      size := size }
  | _ =>
    { noteId := noteId
      title := []
      createdAt := fallbackTimestamp
      updatedAt := fallbackTimestamp
      size := size }

def NoteMeta.summary (metadata : NoteMeta) : NoteSummary :=
  { noteId := metadata.noteId
    title := metadata.title
    createdAt := metadata.createdAt.1
    updatedAt := metadata.updatedAt.1
    size := metadata.size }

theorem noteRecord_toJson (metadata : NoteMeta) (fallbackTimestamp : Str) :
    noteRecord metadata.noteId fallbackTimestamp metadata.size (some metadata.toJson) =
      metadata.summary := by
  obtain ⟨noteId, title, ⟨created, createdSome⟩, ⟨updated, updatedSome⟩, size, session⟩ := metadata
  obtain ⟨first, rest, rfl⟩ := List.exists_cons_of_ne_nil createdSome
  obtain ⟨other, others, rfl⟩ := List.exists_cons_of_ne_nil updatedSome
  rfl

/-- `decoded` is what base64 makes of the data, if it is valid. -/
structure SaveNoteRequest where
  title : Str
  decoded : Option Bytes
  noteId : Text
  sessionId : Option Text
  createIfMissing : Bool

structure CheckedSave where
  title : Str
  data : Bytes
  noteId : Option NoteId
  createIfMissing : Bool
  session : Bool
  now : IsoTime

def stripTitle (isSpace : Nat → Bool) (title : Str) : Str :=
  ((title.dropWhile isSpace).reverse.dropWhile isSpace).reverse

def isSurrogate (code : Nat) : Bool := 0xD800 ≤ code && code ≤ 0xDFFF

def checkTitle (isSpace : Nat → Bool) (title : Str) : Except NotepadServiceError Str :=
  let stripped := stripTitle isSpace title
  if stripped = [] then .error invalidTitle
  else if maxNoteTitleChars < stripped.length ∨ stripped.any isSurrogate = true then
    .error invalidTitle
  else .ok stripped

def checkNoteId (text : Text) : Except NotepadServiceError (Option NoteId) :=
  if text = [] then .ok none
  else
    match NoteId.parse text with
    | none => .error (invalidId "id" "Invalid note ID")
    | some noteId => .ok (some noteId)

def checkSessionId : Option Text → Except NotepadServiceError Unit
  | none => .ok ()
  | some text =>
    if isValidNoteId text = true then .ok ()
    else .error (invalidId "session_id" "Invalid note session ID")

def checkData : Option Bytes → Except NotepadServiceError Bytes
  | none => .error invalidBase64
  | some data =>
    if data.length = 0 then .error emptyData
    else if data.length < minNoteEncryptedBlobBytes then .error (shortData data.length)
    else if maxNoteEncryptedBlobBytes < data.length then .error (longData data.length)
    else .ok data

/-- The checks of `save_note` before its lock.  `sessionExists` is what the store of
sessions answers. -/
def checkSave (isSpace : Nat → Bool) (request : SaveNoteRequest) (now : IsoTime)
    (sessionExists : Bool) : Except NotepadServiceError CheckedSave := do
  let title ← checkTitle isSpace request.title
  let noteId ← checkNoteId request.noteId
  checkSessionId request.sessionId
  let data ← checkData request.decoded
  return { title := title, data := data, noteId := noteId,
           createIfMissing := request.createIfMissing,
           session := request.sessionId.isSome && sessionExists, now := now }

structure NotePair where
  data : Bytes
  metadata : NoteMeta
  size_eq : metadata.size = data.length

def CheckedSave.pair (save : CheckedSave) (noteId : NoteId) (createdAt : IsoTime) : NotePair :=
  { data := save.data
    metadata :=
      { noteId := noteId
        title := save.title
        createdAt := createdAt
        updatedAt := save.now
        size := save.data.length
        session := save.session }
    size_eq := rfl }

/-- The failures that a call does not report: a look that fails misses its file, the scan
passes over the notes in `unread`, and a sidecar that cannot be read counts as malformed. -/
structure FailingReads where
  missesCiphertext : Bool
  missesSidecar : Bool
  unread : NoteId → Bool
  losesSidecar : Bool

def FailingReads.nothing : FailingReads :=
  { missesCiphertext := false
    missesSidecar := false
    unread := fun _ => false
    losesSidecar := false }

namespace NotesDirectory

/-- What `enc_path.exists()` shows. -/
def seenCiphertext (directory : NotesDirectory) (fails : FailingReads) (noteId : NoteId) :
    Option NoteFile :=
  if fails.missesCiphertext then none else directory.ciphertexts.lookup noteId

def seenSidecar (directory : NotesDirectory) (fails : FailingReads) (noteId : NoteId) :
    Option Value :=
  if fails.missesSidecar then none else directory.sidecars.lookup noteId

variable {directory : NotesDirectory} {fails : FailingReads} {noteId : NoteId}

theorem lookup_of_seenCiphertext {file : NoteFile}
    (seen : directory.seenCiphertext fails noteId = some file) :
    directory.ciphertexts.lookup noteId = some file := by
  unfold seenCiphertext at seen
  split at seen
  · cases seen
  · exact seen

end NotesDirectory

def keptCreation (directory : NotesDirectory) (fails : FailingReads) (noteId : NoteId)
    (file : NoteFile) (now : IsoTime) : IsoTime :=
  match directory.seenSidecar fails noteId with
  | none => now
  | some sidecar =>
    let existing := noteRecord noteId (if fails.unread noteId then [] else file.modified)
      (if fails.unread noteId then 0 else file.data.length)
      (if fails.losesSidecar then none else some sidecar)
    if known : existing.createdAt ≠ [] then ⟨existing.createdAt, known⟩ else now

/-- What `save_note` decides under its lock: the pair to write, and whether it is a new
note.  `drawn` is the random ID at which no ciphertext is seen. -/
def admitSave (policy : NoteStoragePolicy) (directory : NotesDirectory) (fails : FailingReads)
    (save : CheckedSave) (drawn : NoteId) : Except NotepadServiceError (NotePair × Bool) :=
  match save.noteId with
  | none =>
    (checkNoteStorageAccepts policy directory fails.unread drawn save.data.length false).map
      fun _ => (save.pair drawn save.now, true)
  | some noteId =>
    match directory.seenCiphertext fails noteId with
    | none =>
      if save.createIfMissing then
        (checkNoteStorageAccepts policy directory fails.unread noteId save.data.length false).map
          fun _ => (save.pair noteId save.now, true)
      else .error noteNotFound
    | some file =>
      (checkNoteStorageAccepts policy directory fails.unread noteId save.data.length true).map
        fun _ => (save.pair noteId (keptCreation directory fails noteId file save.now), false)

end XFerry.Notepad
