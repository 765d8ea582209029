/-
The upload directory under its storage policy.

Uploads and encrypted transfers are in flight between the steps below, each of
which runs under the lock of the storage or touches one file.  The encrypted
storage holds its own lock through a `create`, so there is one at a time.  The
usage is a scan of the directory; what has been promised is counted apart.
-/

import XFerry.Encrypted.Manifest
import XFerry.EventMachine
import XFerry.OrderedDict
import XFerry.Python.Text

namespace XFerry.Storage

open Python

/-- What `str.isalnum` says of one character. -/
abbrev Alphanumeric := Char → Bool

variable (isAlnum : Alphanumeric) (unicode : Unicode)

def isSafeChar (char : Char) : Bool :=
  isAlnum char || "._- ".toList.contains char || decide (Between '\u0400' '\u04ff' char)

/-- `text.replace("..", ".")`. -/
def replaceDots : Text → Text
  | '.' :: '.' :: rest => '.' :: replaceDots rest
  | char :: rest => char :: replaceDots rest
  | [] => []

/-- The loop `while ".." in text`: a pass that finds two dots shortens the text,
and one that finds none changes nothing. -/
def collapseDots (text : Text) : Text := replaceDots^[text.length] text

/-- `timestamp` is the current time as `%Y%m%d_%H%M%S`. -/
def sanitizeFilename (filename timestamp : Text) : Text :=
  let safe := unicode.strip (collapseDots (filename.filter (isSafeChar isAlnum)))
  if safe.isEmpty then "upload_".toList ++ timestamp else safe

/-- `digestPrefix` is the start of the payload's SHA-256 and `token` a random one,
both in hexadecimal. -/
def safeAdvancedFilename (name digestPrefix token : Text) : Text :=
  let filename := if name.isEmpty then digestPrefix ++ ".bin".toList else name
  let safe := filename.filter fun char => isAlnum char || "._-".toList.contains char
  if safe.isEmpty then "upload_".toList ++ token else safe

inductive FilenameRequest where
  | basic (filename timestamp : Text)
  | advanced (name digestPrefix token : Text)

def FilenameRequest.safeFilename : FilenameRequest → Text
  | .basic filename timestamp => sanitizeFilename isAlnum unicode filename timestamp
  | .advanced name digestPrefix token => safeAdvancedFilename isAlnum name digestPrefix token

/-- `rsplit(".", 1)`, when there is a dot. -/
def splitLastDot (name : Text) : Option (Text × Text) :=
  match name.reverse.dropWhile (· ≠ '.') with
  | [] => none
  | _ :: stem => some (stem.reverse, (name.reverse.takeWhile (· ≠ '.')).reverse)

def filenameWithUniqueSuffix (name uniqueSuffix : Text) : Text :=
  match splitLastDot name with
  | some parts => parts.1 ++ '_' :: uniqueSuffix ++ '.' :: parts.2
  | none => name ++ '_' :: uniqueSuffix

end XFerry.Storage

namespace XFerry.Storage

open Encrypted (FileId)
open EventMachine Python

def uploadTempPrefix : Text := ".upload-tmp-".toList

def dataDirectoryName : Text := ".xferry-encrypted".toList

/-- `part` and `complete` lie in the data directory below the upload directory. -/
inductive StoredPath where
  | upload (name : Text)
  | part (fileId : FileId)
  | complete (fileId : FileId)
  deriving DecidableEq

def StoredPath.name : StoredPath → Text
  | upload name => name
  | part fileId => fileId.text ++ ".part".toList
  | complete fileId => fileId.text ++ ".xfr".toList

def isServiceTempPath (path : StoredPath) : Bool := uploadTempPrefix.isPrefixOf path.name

structure UploadStorageUsage where
  totalBytes : Nat
  fileCount : Nat

def currentUsage (directory : List (StoredPath × Nat)) : UploadStorageUsage :=
  let counted := directory.filter fun file => !isServiceTempPath file.1
  { totalBytes := (counted.map Prod.snd).sum, fileCount := counted.length }

structure UploadStoragePolicy where
  maxTotalBytes : Option Nat
  maxFileCount : Option Nat
  reservedFreeBytes : Nat

/-- An upload in `publish_bytes`; `temp` is the random part of its temp file. -/
structure Upload where
  name : Text
  size : Nat
  temp : Option Text
  reserved : Bool

inductive CreationStage where
  | reserved
  | onDisk (bytes : Nat)
  | dropped
  deriving DecidableEq

/-- An encrypted `create` between its reservation and its release. -/
structure Creation where
  fileId : FileId
  size : Nat
  stage : CreationStage

/-- `files` are the published files and those of the encrypted storage. -/
structure UploadStorageService where
  files : OrderedDict StoredPath Nat
  reservedBytes : Int
  reservedFiles : Int
  uploads : OrderedDict Nat Upload
  creation : Option Creation

def tempName (token : Text) : Text := uploadTempPrefix ++ token ++ ".tmp".toList

namespace UploadStorageService

def empty : UploadStorageService :=
  { files := OrderedDict.empty
    reservedBytes := 0
    reservedFiles := 0
    uploads := OrderedDict.empty
    creation := none }

def temps (storage : UploadStorageService) : List (StoredPath × Nat) :=
  storage.uploads.entries.filterMap fun entry =>
    entry.2.temp.map fun token => (.upload (tempName token), entry.2.size)

def directory (storage : UploadStorageService) : List (StoredPath × Nat) :=
  storage.files.entries ++ storage.temps

end UploadStorageService

/-- The file system when it is asked: the free bytes, and the bytes promised to
partial files that have not been allocated. -/
structure Disk where
  freeBytes : Nat
  unallocatedEncryptedBytes : Nat

/-- The `reason` of an `UploadStorageQuotaExceeded`. -/
inductive Denial where
  | bytes
  | files
  | freeSpace
  deriving DecidableEq

def exceeds (limit : Option Nat) (amount : Int) : Bool :=
  match limit with
  | none => false
  | some limit => limit < amount

variable (policy : UploadStoragePolicy)

def checkAccepts (storage : UploadStorageService) (disk : Disk) (size : Nat)
  (requireFreeForSize : Bool) :
    Except Denial Unit :=
  let usage := currentUsage storage.directory
  let totalAfter := usage.totalBytes + storage.reservedBytes + size
  let fileCountAfter := usage.fileCount + storage.reservedFiles + 1
  let promised := if requireFreeForSize then storage.reservedBytes + size else 0
  let requiredFree : Int := policy.reservedFreeBytes + disk.unallocatedEncryptedBytes + promised
  if exceeds policy.maxTotalBytes totalAfter then .error .bytes
  else if exceeds policy.maxFileCount fileCountAfter then .error .files
  else if disk.freeBytes < requiredFree then .error .freeSpace
  else .ok ()

namespace UploadStorageService

def hold (storage : UploadStorageService) (size : Nat) : UploadStorageService :=
  { storage with
    reservedBytes := storage.reservedBytes + size
    reservedFiles := storage.reservedFiles + 1 }

def release (storage : UploadStorageService) (size : Nat) : UploadStorageService :=
  { storage with
    reservedBytes := storage.reservedBytes - size
    reservedFiles := storage.reservedFiles - 1 }

def reserve (storage : UploadStorageService) (disk : Disk)
  (size : Nat) : Except Denial UploadStorageService :=
  (checkAccepts policy storage disk size true).map fun _ => storage.hold size

/-- Whether `os.link` finds the name in the upload directory. -/
def taken (storage : UploadStorageService) (name : Text) : Bool :=
  name = dataDirectoryName || storage.directory.any fun file => file.1 = .upload name

/-- The candidates of `_link_unique_temp`, in their order. -/
def linkCandidates (name : Text) (suffixes : Fin 63 → Text) : List Text :=
  name :: (List.ofFn suffixes).map (filenameWithUniqueSuffix name)

def publishCheck (storage : UploadStorageService) (disk : Disk)
  (upload : Upload) : Except Denial Unit :=
  checkAccepts policy (storage.release upload.size) disk upload.size false

/-- The part of `publish_bytes` under the lock; `linkFails` is any other error of
`os.link`. -/
def publish (storage : UploadStorageService) (disk : Disk) (id : Nat) (upload : Upload)
    (suffixes : Fin 63 → Text) (linkFails : Bool) : UploadStorageService :=
  let released : UploadStorageService :=
    { storage.release upload.size with
      uploads := storage.uploads.assign id { upload with reserved := false } }
  match publishCheck policy storage disk upload with
  | .error _ => released
  | .ok _ =>
    if linkFails then
      released
    else
      match (linkCandidates upload.name suffixes).find? fun name => !storage.taken name with
      | none => released
      | some name => { released with files := released.files.assign (.upload name) upload.size }

end UploadStorageService

/-- `reserveUpload` to `discardTemp` are the steps of one upload, `reserveCreate` to
`finishCreate` those of an encrypted `create`, of which `dropPart` is the handler of
an error.  The rest are whole operations of the encrypted storage; deletion and
expiry remove a file. -/
inductive StorageEvent where
  | reserveUpload (id : Nat) (request : FilenameRequest) (size : Nat) (disk : Disk)
  | writeTemp (id : Nat) (token : Text)
  | tempFails (id : Nat)
  | publish (id : Nat) (suffixes : Fin 63 → Text) (linkFails : Bool) (disk : Disk)
  | discardTemp (id : Nat)
  | reserveCreate (fileId : FileId) (size : Nat) (disk : Disk)
  | openPart
  | sizePart
  | dropPart
  | finishCreate
  | complete (fileId : FileId)
  | remove (fileId : FileId)

variable (isAlnum : Alphanumeric) (unicode : Unicode)

def step : Machine UploadStorageService StorageEvent := fun storage event =>
  match event with
  | .reserveUpload id request size disk =>
    let name := request.safeFilename isAlnum unicode
    -- a path of one dot is the upload directory itself, not a file in it
    if (storage.uploads.lookup id).isSome ∨ name = ['.'] then
      none
    else
      match storage.reserve policy disk size with
      | .error _ => some storage
      | .ok held =>
        let upload : Upload := { name := name, size := size, temp := none, reserved := true }
        some { held with uploads := held.uploads.assign id upload }
  | .writeTemp id token =>
    match storage.uploads.lookup id with
    | some upload =>
      if upload.temp = none ∧ upload.reserved then
        some { storage with
          uploads := storage.uploads.assign id { upload with temp := some token } }
      else
        none
    | none => none
  | .tempFails id =>
    match storage.uploads.lookup id with
    | some upload =>
      if upload.temp = none ∧ upload.reserved then
        some { storage.release upload.size with uploads := storage.uploads.erase id }
      else
        none
    | none => none
  | .publish id suffixes linkFails disk =>
    match storage.uploads.lookup id with
    | some upload =>
      if upload.temp.isSome ∧ upload.reserved then
        some (storage.publish policy disk id upload suffixes linkFails)
      else
        none
    | none => none
  | .discardTemp id =>
    match storage.uploads.lookup id with
    | some upload =>
      if upload.reserved then none else some { storage with uploads := storage.uploads.erase id }
    | none => none
  | .reserveCreate fileId size disk =>
    if storage.creation.isSome ∨ (storage.files.lookup (.part fileId)).isSome ∨
        (storage.files.lookup (.complete fileId)).isSome then
      none
    else
      match storage.reserve policy disk size with
      | .error _ => some storage
      | .ok held =>
        some { held with
          creation := some { fileId := fileId, size := size, stage := .reserved } }
  | .openPart =>
    match storage.creation with
    | some { fileId, size, stage := .reserved } =>
      some { storage with
        files := storage.files.assign (.part fileId) 0
        creation := some { fileId := fileId, size := size, stage := .onDisk 0 } }
    | _ => none
  | .sizePart =>
    match storage.creation with
    | some { fileId, size, stage := .onDisk _ } =>
      some { storage with
        files := storage.files.assign (.part fileId) size
        creation := some { fileId := fileId, size := size, stage := .onDisk size } }
    | _ => none
  | .dropPart =>
    match storage.creation with
    | some creation =>
      some { storage with
        files := storage.files.erase (.part creation.fileId)
        creation := some { creation with stage := .dropped } }
    | none => none
  | .finishCreate =>
    match storage.creation with
    | some creation =>
      if creation.stage = .onDisk creation.size ∨ creation.stage = .dropped then
        some { storage.release creation.size with creation := none }
      else
        none
    | none => none
  | .complete fileId =>
    match storage.creation, storage.files.lookup (.part fileId),
        storage.files.lookup (.complete fileId) with
    | none, some size, none =>
      some { storage with
        files := (storage.files.erase (.part fileId)).assign (.complete fileId) size }
    | _, _, _ => none
  | .remove fileId =>
    if storage.creation.isSome then
      none
    else
      some { storage with
        files := (storage.files.erase (.part fileId)).erase (.complete fileId) }

end XFerry.Storage
