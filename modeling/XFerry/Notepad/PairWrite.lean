/-
The write of a note: temporary files, backups of the present pair, two replacements, and
what undoes them.

Each step of the file system may fail; one that fails changes nothing, but a write may
leave a part of its data.
-/

import XFerry.CrashProgram
import XFerry.Notepad.NoteStore

namespace XFerry.Notepad.PairWrite

open CrashProgram Program Function Json Python

inductive NotePart where
  | ciphertext
  | sidecar
deriving DecidableEq

structure TempLabel where
  part : NotePart
  isBackup : Bool
deriving DecidableEq

def NotePart.text : NotePart → Text
  | .ciphertext => "enc".toList
  | .sidecar => "meta".toList

def TempLabel.text (label : TempLabel) : Text :=
  if label.isBackup then label.part.text ++ ".backup".toList else label.part.text

/-- `secrets.token_hex(8)`. -/
abbrev TempToken := { text : Text // text.length = 16 }

def tempName (noteId : NoteId) (label : TempLabel) (token : TempToken) : Text :=
  ['.'] ++ noteId.text ++ ['.'] ++ label.text ++ ['.'] ++ token.val ++ ".tmp".toList

/-- `enc_path` and `meta_path`. -/
def finalName (noteId : NoteId) : NotePart → Text
  | .ciphertext => noteId.text ++ ".enc".toList
  | .sidecar => noteId.text ++ ".meta.json".toList

inductive IoStep where
  | openTemp (label : TempLabel) (attempt : Nat)
  | writeTemp (label : TempLabel) (attempt : Nat)
  | discardTemp (label : TempLabel) (attempt : Nat)
  | lookFinal (part : NotePart)
  | readFinal (part : NotePart)
  | replaceFinal (part : NotePart)
  | lookBackup (part : NotePart)
  | restoreBackup (part : NotePart)
  | lookReplaced (part : NotePart)
  | unlinkReplaced (part : NotePart)
  | cleanTemp (label : TempLabel)
deriving DecidableEq

/-- `OSError`, and `FileExistsError` of it. -/
inductive IoError where
  | osError
  | fileExists

/-- What the system decides: the tokens, which steps fail, what a write that fails leaves,
and whether `exists` raises when the look fails or answers `False`. -/
structure FileSystem where
  token : TempLabel → Nat → TempToken
  fails : IoStep → Bool
  torn : TempLabel → Nat → Bytes
  looksRaise : Bool

abbrev Files := Text → Option Bytes

structure PairWorld where
  files : Files
  temp : TempLabel → Option Text
  replacementsStarted : Bool
  rollbackComplete : Bool

namespace PairWorld

def start (files : Files) : PairWorld :=
  { files := files
    temp := fun _ => none
    replacementsStarted := false
    rollbackComplete := true }

def put (name : Text) (data : Bytes) (world : PairWorld) : PairWorld :=
  { world with files := update world.files name (some data) }

def remove (name : Text) (world : PairWorld) : PairWorld :=
  { world with files := update world.files name none }

def rename (source target : Text) (world : PairWorld) : PairWorld :=
  { world with
    files := update (update world.files target (world.files source)) source none }

def assign (label : TempLabel) (name : Option Text) (world : PairWorld) : PairWorld :=
  { world with temp := update world.temp label name }

section Fields

variable (world : PairWorld) (name target : Text) (data : Bytes) (label : TempLabel)
  (named : Option Text)

@[simp] theorem files_remove :
    (world.remove name).files = update world.files name none := rfl

@[simp] theorem temp_remove : (world.remove name).temp = world.temp := rfl

@[simp] theorem files_rename :
    (world.rename name target).files =
      update (update world.files target (world.files name)) name none := rfl

@[simp] theorem temp_rename : (world.rename name target).temp = world.temp := rfl

@[simp] theorem files_assign : (world.assign label named).files = world.files := rfl

@[simp] theorem temp_assign :
    (world.assign label named).temp = update world.temp label named := rfl

end Fields

end PairWorld

abbrev Write := Program PairWorld IoError

section Steps

variable (system : FileSystem) (noteId : NoteId)

def failing (step : IoStep) (operation : Write Unit) : Write Unit :=
  if system.fails step = true then raise .osError else operation

/-- `path.exists()`. -/
def lookAt (step : IoStep) (name : Text) : Write Bool :=
  if system.fails step = true then
    if system.looksRaise = true then raise .osError else pure false
  else inspect fun world => (world.files name).isSome

def readBytes (step : IoStep) (name : Text) : Write Bytes := do
  let world ← inspect id
  match world.files name with
  | none => raise .osError
  | some data => if system.fails step = true then raise .osError else pure data

def replace (step : IoStep) (source target : Text) : Write Unit := do
  let world ← inspect id
  if world.files source = none then raise .osError
  else failing system step (durable (PairWorld.rename source target))

def unlink (step : IoStep) (name : Text) : Write Unit := do
  let world ← inspect id
  if world.files name = none then raise .osError
  else failing system step (durable (PairWorld.remove name))

def unlinkMissingOk (step : IoStep) (name : Text) : Write Unit :=
  failing system step (durable (PairWorld.remove name))

/-- `_write_note_temp_bytes`, with the attempts that are left. -/
def writeNoteTempFrom (label : TempLabel) (data : Bytes) : Nat → Nat → Write Text
  | 0, _ => raise .fileExists
  | left + 1, attempt => do
      let name := tempName noteId label (system.token label attempt)
      let world ← inspect id
      if system.fails (.openTemp label attempt) = true then raise .osError
      else if (world.files name).isSome = true then writeNoteTempFrom label data left (attempt + 1)
      else if system.fails (.writeTemp label attempt) = true then do
        durable (PairWorld.put name (system.torn label attempt))
        unlinkMissingOk system (.discardTemp label attempt) name
        raise .osError
      else do
        durable (PairWorld.put name data)
        pure name

def maxAttempts : Nat := 64

def writeNoteTempBytes (label : TempLabel) (data : Bytes) : Write Text :=
  writeNoteTempFrom system noteId label data maxAttempts 0

def stage (part : NotePart) (data : Bytes) : Write Unit := do
  let name ← writeNoteTempBytes system noteId { part := part, isBackup := false } data
  record (PairWorld.assign { part := part, isBackup := false } (some name))

/-- `_copy_note_backup` of a part that is there. -/
def backUp (part : NotePart) : Write Unit := do
  if ← lookAt system (.lookFinal part) (finalName noteId part) then do
    let data ← readBytes system (.readFinal part) (finalName noteId part)
    let name ← writeNoteTempBytes system noteId { part := part, isBackup := true } data
    record (PairWorld.assign { part := part, isBackup := true } (some name))
  else pure ()

def install (part : NotePart) : Write Unit := do
  let world ← inspect id
  match world.temp { part := part, isBackup := false } with
  | none => pure ()
  | some name => do
      replace system (.replaceFinal part) name (finalName noteId part)
      record (PairWorld.assign { part := part, isBackup := false } none)

def hasBackup (part : NotePart) : Option Text → Write Bool
  | none => pure false
  | some name => lookAt system (.lookBackup part) name

/-- What `_restore_note_pair` does of one part. -/
def restorePart (part : NotePart) (backup : Option Text) : Write Unit := do
  if ← hasBackup system part backup then
    match backup with
    | none => pure ()
    | some name => replace system (.restoreBackup part) name (finalName noteId part)
  else if ← lookAt system (.lookReplaced part) (finalName noteId part) then
    unlink system (.unlinkReplaced part) (finalName noteId part)
  else pure ()

def restoreOf (part : NotePart) : Write (Except IoError Unit) := do
  let world ← inspect id
  attempt (restorePart system noteId part (world.temp { part := part, isBackup := true }))

def restoreNotePair : Write Bool := do
  let ciphertext ← restoreOf system noteId .ciphertext
  let sidecar ← restoreOf system noteId .sidecar
  pure (ciphertext.isOk && sidecar.isOk)

/-- `_cleanup_note_temp_files` of one variable: what fails is logged. -/
def cleanTemp (label : TempLabel) : Write Unit := do
  let world ← inspect id
  match world.temp label with
  | none => pure ()
  | some name =>
    if system.fails (.cleanTemp label) = true then pure ()
    else durable (PairWorld.remove name)

def cleanParts (isBackup : Bool) : Write Unit := do
  cleanTemp system { part := .ciphertext, isBackup := isBackup }
  cleanTemp system { part := .sidecar, isBackup := isBackup }

/-- The `finally` clause. -/
def cleanUp : Write Unit := do
  cleanParts system false
  let world ← inspect id
  if world.rollbackComplete = true then cleanParts system true else pure ()

/-- The `except` clause. -/
def rollBack : Write Unit := do
  let world ← inspect id
  if world.replacementsStarted = true then do
    let complete ← restoreNotePair system noteId
    record fun world => { world with rollbackComplete := complete }
  else pure ()

/-- The `try` clause. -/
def replacePair (rawData metaData : Bytes) : Write Unit := do
  stage system noteId .ciphertext rawData
  stage system noteId .sidecar metaData
  backUp system noteId .ciphertext
  backUp system noteId .sidecar
  record fun world => { world with replacementsStarted := true }
  install system noteId .ciphertext
  install system noteId .sidecar

def writeNotePairAtomic (rawData metaData : Bytes) : Write Unit :=
  ensuring (cleaningUp (replacePair system noteId rawData metaData) (rollBack system noteId))
    (cleanUp system)

end Steps

end XFerry.Notepad.PairWrite
