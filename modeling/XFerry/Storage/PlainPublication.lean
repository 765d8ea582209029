/-
`publish_bytes` and `reservation`, step by step, for any number of threads.

A step is one system call or one access to the counters, and threads take turns
between any two.  The lock of the storage is held through the second check and the
attempts to link.  An exclusive open of a name that exists answers `FileExistsError`;
where it fails otherwise there is nothing for the following `unlink` to remove.
-/

import XFerry.Accounts
import XFerry.Storage.UploadStorage

namespace XFerry.Storage

open EventMachine Python

inductive DirectoryEntry where
  | file (content : Bytes)
  | other

/-- The arguments of `publish_bytes`. -/
structure PublishCall where
  name : Text
  data : Bytes
  maxAttempts : Int

/-- Where a thread is in `publish_bytes`.  `tries` counts the temp names that were taken,
`left` the attempts to link that remain. -/
inductive PublishStage where
  | called
  | ready
  | reserved (tries : Nat)
  | opened (token : Text) (written : Nat)
  | written (token : Text)
  | unpublished
  | locked (token : Text)
  | released (token : Text)
  | linking (token candidate : Text) (left : Nat)
  | leaving (token : Text) (result : Option Text)
  | cleaning (token : Text) (result : Option Text)
  | finished (result : Option Text)

/-- What a thread does: nothing, a `publish_bytes`, or the body of a `reservation`. -/
inductive Operation where
  | idle
  | publishing (call : PublishCall) (stage : PublishStage)
  | holding (size : Nat)

structure PublicationState where
  files : Text → Option DirectoryEntry
  reservedBytes : Int
  reservedFiles : Int
  lock : Option Nat
  operations : Nat → Operation

namespace PublicationState

def start (files : Text → Option DirectoryEntry) : PublicationState :=
  { files := files
    reservedBytes := 0
    reservedFiles := 0
    lock := none
    operations := fun _ => .idle }

variable (state : PublicationState)

def become (id : Nat) (operation : Operation) : PublicationState :=
  { state with operations := Function.update state.operations id operation }

def put (name : Text) (entry : DirectoryEntry) : PublicationState :=
  { state with files := Function.update state.files name (some entry) }

def unlink (name : Text) : PublicationState :=
  { state with files := Function.update state.files name none }

def addReservation (size : Nat) : PublicationState :=
  { state with
    reservedBytes := state.reservedBytes + size
    reservedFiles := state.reservedFiles + 1 }

def giveBack (size : Nat) : PublicationState :=
  { state with
    reservedBytes := state.reservedBytes - size
    reservedFiles := state.reservedFiles - 1 }

end PublicationState

abbrev Scan := Option (UploadStorageUsage × Disk)

/-- `_check_accepts` of a size that is not negative. -/
def checkUsage (policy : UploadStoragePolicy) (reservedBytes reservedFiles : Int)
    (usage : UploadStorageUsage) (disk : Disk) (size : Nat) (requireFreeForSize : Bool) :
    Except Denial Unit :=
  let totalAfter := usage.totalBytes + reservedBytes + size
  let fileCountAfter := usage.fileCount + reservedFiles + 1
  let promised := if requireFreeForSize then reservedBytes + size else 0
  let requiredFree : Int := policy.reservedFreeBytes + disk.unallocatedEncryptedBytes + promised
  if exceeds policy.maxTotalBytes totalAfter then .error .bytes
  else if exceeds policy.maxFileCount fileCountAfter then .error .files
  else if disk.freeBytes < requiredFree then .error .freeSpace
  else .ok ()

def PublicationState.accepts (policy : UploadStoragePolicy) (state : PublicationState)
    (scan : Scan) (size : Nat) (requireFreeForSize : Bool) : Bool :=
  match scan with
  | none => false
  | some (usage, disk) =>
    match checkUsage policy state.reservedBytes state.reservedFiles usage disk size
        requireFreeForSize with
    | .ok _ => true
    | .error _ => false

inductive PublishAction where
  | makeDirectory (fails : Bool)
  | reserve (scan : Scan)
  | openTemp (token : Text) (fails : Bool)
  | writeTemp (count : Nat)
  | closeTemp
  | writeFails
  | releaseUnpublished
  | enterLock
  | releaseReservation
  | checkAgain (scan : Scan)
  | linkTemp (suffix : Text) (fails : Bool)
  | leaveLock
  | unlinkTemp

/-- How often `_write_temp_file` draws a name. -/
def tempAttempts : Nat := 64

def publishStep (policy : UploadStoragePolicy) (state : PublicationState) (id : Nat)
    (call : PublishCall) : PublishStage → PublishAction → Option PublicationState
  | .called, .makeDirectory fails =>
    some (state.become id (.publishing call (if fails then .finished none else .ready)))
  | .ready, .reserve scan =>
    if state.lock ≠ none then none
    else if state.accepts policy scan call.data.length true then
      some ((state.addReservation call.data.length).become id (.publishing call (.reserved 0)))
    else
      some (state.become id (.publishing call (.finished none)))
  | .reserved tries, .openTemp token fails =>
    if state.files (tempName token) ≠ none then
      some (state.become id (.publishing call
        (if tries + 1 < tempAttempts then .reserved (tries + 1) else .unpublished)))
    else if fails then
      some (state.become id (.publishing call .unpublished))
    else
      some ((state.put (tempName token) (.file [])).become id (.publishing call (.opened token 0)))
  | .opened token _, .writeTemp count =>
    some ((state.put (tempName token) (.file (call.data.take count))).become id
      (.publishing call (.opened token count)))
  | .opened token _, .closeTemp =>
    some ((state.put (tempName token) (.file call.data)).become id
      (.publishing call (.written token)))
  | .opened token _, .writeFails =>
    some ((state.unlink (tempName token)).become id (.publishing call .unpublished))
  | .unpublished, .releaseUnpublished =>
    if state.lock ≠ none then none
    else
      some ((state.giveBack call.data.length).become id (.publishing call (.finished none)))
  | .written token, .enterLock =>
    if state.lock ≠ none then none
    else some ({ state with lock := some id }.become id (.publishing call (.locked token)))
  | .locked token, .releaseReservation =>
    some ((state.giveBack call.data.length).become id (.publishing call (.released token)))
  | .released token, .checkAgain scan =>
    if state.accepts policy scan call.data.length false then
      some (state.become id (.publishing call
        (.linking token call.name (max 1 call.maxAttempts).toNat)))
    else
      some (state.become id (.publishing call (.leaving token none)))
  | .linking token candidate left, .linkTemp suffix fails =>
    if fails then
      some (state.become id (.publishing call (.leaving token none)))
    else if state.files candidate ≠ none then
      -- the last attempt ends in the `FileExistsError` behind the loop
      if left ≤ 1 then
        some (state.become id (.publishing call (.leaving token none)))
      else
        some (state.become id (.publishing call
          (.linking token (filenameWithUniqueSuffix call.name suffix) (left - 1))))
    else
      match state.files (tempName token) with
      | none => some (state.become id (.publishing call (.leaving token none)))
      | some entry =>
        some ((state.put candidate entry).become id
          (.publishing call (.leaving token (some candidate))))
  | .leaving token result, .leaveLock =>
    some ({ state with lock := none }.become id (.publishing call (.cleaning token result)))
  | .cleaning token result, .unlinkTemp =>
    some ((state.unlink (tempName token)).become id (.publishing call (.finished result)))
  | _, _ => none

/-- `call` with a destination outside of the upload directory ends at once. -/
inductive PublicationEvent where
  | call (id : Nat) (call : PublishCall) (inside : Bool)
  | publish (id : Nat) (action : PublishAction)
  | enterReservation (id : Nat) (size : Int) (scan : Scan)
  | leaveReservation (id : Nat)

def publicationStep (policy : UploadStoragePolicy) :
    Machine PublicationState PublicationEvent := fun state event =>
  match event with
  | .call id call inside =>
    match state.operations id with
    | .idle =>
      some (state.become id (.publishing call (if inside then .called else .finished none)))
    | _ => none
  | .publish id action =>
    match state.operations id with
    | .publishing call stage => publishStep policy state id call stage action
    | _ => none
  | .enterReservation id size scan =>
    match state.operations id with
    | .idle =>
      if state.lock ≠ none then none
      -- a negative size is a `ValueError`
      else if size < 0 ∨ state.accepts policy scan size.toNat true = false then some state
      else some ((state.addReservation size.toNat).become id (.holding size.toNat))
    | _ => none
  | .leaveReservation id =>
    match state.operations id with
    | .holding size =>
      if state.lock ≠ none then none
      else some ((state.giveBack size).become id .idle)
    | _ => none

end XFerry.Storage
