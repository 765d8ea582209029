/-
The operations of the encrypted storage service, each as the program it runs
while it holds the storage lock.

What an operation takes from outside (its clock readings in their order, the
answer of the quota, whether the disk has room, what a torn write leaves) is the
environment of the call.
-/

import XFerry.Encrypted.Disk

namespace XFerry.Encrypted

open CrashProgram Program

structure Service (Time : Type) where
  maxPlaintextSize : Nat
  incompleteTtl : Time
  sha256 : Bytes → Bytes
  timeText : Time → List Char
  sha256_length : ∀ data, (sha256 data).length = 32
  timeText_length : ∀ time, (timeText time).length ≤ 24

/-- `reservation` is the reason the quota refuses with, if it does. -/
structure Environment (Time : Type) where
  sweep : Time
  lookup : Time
  stamp : Time
  publish : Time
  publishAt : FileId → Time
  reservation : Option String
  allocated : Bool
  torn : Bytes

abbrev Action (Time : Type) := Program (World Time) StorageError

variable {Time : Type} [LinearOrder Time] [Sub Time]

def unlinkPart (fileId : FileId) : Action Time Unit :=
  durable (World.modify fileId fun slot => { slot with part := none })

def unlinkComplete (fileId : FileId) : Action Time Unit :=
  durable (World.modify fileId fun slot => { slot with complete := none })

def unlinkState (fileId : FileId) : Action Time Unit :=
  durable (World.modify fileId fun slot => { slot with journal := none })

def createSizedFile (env : Environment Time) (fileId : FileId) (size : Nat) : Action Time Unit := do
  let slot ← inspect fun world => world.slot fileId
  if slot.part.isSome then
    raise (.os "file exists")
  else do
    durable (World.modify fileId fun slot => { slot with part := some [] })
    if env.allocated then
      durable (World.modify fileId fun slot =>
        { slot with part := some (List.replicate size 0) })
    else
      raise (.quotaExceeded "free_space")

/-- `_write_state`: a temporary first, then `os.replace` over the journal. -/
def writeState (service : Service Time) (record : Record Time) : Action Time Unit := do
  if maxStateBytes < (recordToJson service.timeText record).length then
    raise (.validation "encrypted recovery journal exceeds its limit")
  else do
    durable (World.modify record.fileId fun slot =>
      { slot with temporaries := slot.temporaries + 1 })
    durable (World.modify record.fileId fun slot =>
      { slot with journal := some record, temporaries := slot.temporaries - 1 })

/-- `_read_state_path`. -/
def readState (service : Service Time) (fileId : FileId) : Action Time (Record Time) := do
  let slot ← inspect fun world => world.slot fileId
  match slot.journal with
  | none => raise (.notFound "encrypted file not found")
  | some stored =>
    if maxStateBytes < (recordToJson service.timeText stored).length then
      raise (.corrupt "invalid state sidecar")
    else
      lift (decodeState stored fileId)

def deleteLocked (fileId : FileId) (cause : Cause Time) : Action Time Bool := do
  let slot ← inspect fun world => world.slot fileId
  record (World.judge fileId (Standing.beginRemoval cause))
  unlinkPart fileId
  unlinkComplete fileId
  unlinkState fileId
  return slot.journal.isSome || slot.part.isSome || slot.complete.isSome

def isIdle (service : Service Time) (now : Time) (record : Record Time) : Bool :=
  decide (service.incompleteTtl < now - record.updatedAt)

def get (service : Service Time) (env : Environment Time) (fileId : FileId) :
    Action Time (Option (Record Time)) := do
  let slot ← inspect fun world => world.slot fileId
  match slot.journal with
  | none => return none
  | some _ => do
      let record ← readState service fileId
      if record.status = .partial_ ∧ isIdle service env.lookup record = true then do
        let _ ← deleteLocked fileId (.expired record env.lookup)
        return none
      else
        return some record

def requireFile (service : Service Time) (env : Environment Time) (fileId : FileId) :
    Action Time (Record Time) := do
  match ← get service env fileId with
  | none => raise (.notFound "encrypted file not found")
  | some record => return record

def readStates (service : Service Time) : List FileId → Action Time (List (Record Time))
  | [] => return []
  | fileId :: rest => do
      let record ← readState service fileId
      let records ← readStates service rest
      return record :: records

def listFilesLocked (service : Service Time) (status : Option Status) :
    Action Time (List (Record Time)) := do
  let fileIds ← inspect fun world => world.disk.journalIds
  let records ← readStates service fileIds
  return records.filter fun record => decide (status = none ∨ status = some record.status)

def expireIncompleteLocked (service : Service Time) (current : Time) :
    Action Time (List FileId) := do
  let records ← listFilesLocked service (some .partial_)
  let idle := records.filter (isIdle service current)
  forEach (fun record => do
    let _ ← deleteLocked record.fileId (.expired record current)
    return ()) idle
  return idle.map Record.fileId

def listFiles (service : Service Time) (env : Environment Time)
    (status : Option Status) : Action Time (List (Record Time)) := do
  let _ ← expireIncompleteLocked service env.sweep
  listFilesLocked service status

/-- The steps of `create` inside the reservation, with its clean-up. -/
def createData (service : Service Time) (env : Environment Time)
    (created : Record Time) : Action Time Unit := do
  record (World.judge created.fileId Standing.beginCreation)
  cleaningUp
    (do
      createSizedFile env created.fileId created.manifest.ciphertextSize
      writeState service created)
    (do
      unlinkPart created.fileId
      unlinkState created.fileId)

def create (service : Service Time) (env : Environment Time) (manifest : Manifest) :
    Action Time (Record Time × Bool) := do
  let _ ← expireIncompleteLocked service env.sweep
  match ← get service env manifest.fileId with
  | some existing =>
    if existing.manifest ≠ manifest then
      raise (.conflict "encrypted file ID already has another manifest")
    else
      return (existing, false)
  | none =>
    if service.maxPlaintextSize < manifest.plaintextSize then
      raise (.validation "plaintext_size exceeds configured maximum")
    else do
      let slot ← inspect fun world => world.slot manifest.fileId
      if slot.part.isSome ∨ slot.complete.isSome then
        raise (.conflict "encrypted file ID already has data")
      else
        match env.reservation with
        | some reason => raise (.quotaExceeded reason)
        | none => do
            let created : Record Time :=
              { manifest := manifest
                status := .partial_
                receivedChunks := []
                createdAt := env.stamp
                updatedAt := env.stamp }
            createData service env created
            return (created, true)

def dataOfRecord (record : Record Time) (slot : Slot Time) : Option Bytes :=
  match record.status with
  | .partial_ => slot.part
  | .committing | .complete => slot.complete

def confirmChunk (record : Record Time) (existing offered : StoredChunk) (ciphertext : Bytes)
    (data : Option Bytes) : Action Time (Record Time × Bool) :=
  match data with
  | none => raise (.os "no such file")
  | some data =>
    let persisted := Region.slice data (record.manifest.chunkOffset offered.index) offered.length
    if persisted.length < offered.length then
      raise (.corrupt "encrypted data is truncated")
    else if existing = offered ∧ persisted = ciphertext then
      return (record, false)
    else
      raise (.conflict "encrypted chunk conflicts with persisted data")

def Record.addChunk (record : Record Time) (offered : StoredChunk) (now : Time) : Record Time :=
  { record with
    receivedChunks := sortChunks (record.receivedChunks ++ [offered])
    updatedAt := max record.updatedAt now }

def storeChunk (service : Service Time) (env : Environment Time) (record : Record Time)
    (offered : StoredChunk) (ciphertext : Bytes) (data : Option Bytes) :
    Action Time (Record Time × Bool) :=
  match data with
  | none => raise (.os "no such file")
  | some data =>
    if data.length ≠ record.manifest.ciphertextSize then
      raise (.corrupt "encrypted partial has an unexpected size")
    else do
      let offset := record.manifest.chunkOffset offered.index
      tearable
        (World.modify record.fileId fun slot =>
          { slot with
            part := some (Region.overlay data offset (env.torn.take ciphertext.length)) })
        (World.modify record.fileId fun slot =>
          { slot with part := some (Region.overlay data offset ciphertext) })
      let updated := record.addChunk offered env.stamp
      writeState service updated
      return (updated, true)

def offeredChunk (service : Service Time) (index : Nat) (ciphertext resumeMac : Bytes) :
    StoredChunk :=
  { index := index
    length := ciphertext.length
    resumeMac := resumeMac
    ciphertextSha256 := service.sha256 ciphertext }

def writeChunk (service : Service Time) (env : Environment Time) (fileId : FileId)
    (index : Int) (ciphertext resumeMac : Bytes) : Action Time (Record Time × Bool) := do
  if resumeMac.length ≠ 32 then
    raise (.validation "resume MAC must contain exactly 32 bytes")
  else do
    let record ← requireFile service env fileId
    let expectedLength ← lift (record.manifest.encryptedChunkLength index)
    if ciphertext.length ≠ expectedLength then
      raise (.validation "chunk ciphertext must contain exactly the expected bytes")
    else do
      let offered := offeredChunk service index.toNat ciphertext resumeMac
      let slot ← inspect fun world => world.slot fileId
      match record.receivedChunks.find? fun chunk => chunk.index = offered.index with
      | some existing =>
        confirmChunk record existing offered ciphertext (dataOfRecord record slot)
      | none =>
        if record.status ≠ .partial_ then
          raise (.conflict "encrypted file is no longer writable")
        else
          storeChunk service env record offered ciphertext (dataOfRecord record slot)

def validateDataFile (data : Option Bytes) (expectedSize : Nat) : Except StorageError Unit :=
  match data with
  | none => .error (.corrupt "encrypted data is missing")
  | some data =>
    if data.length ≠ expectedSize then
      .error (.corrupt "encrypted data has an unexpected type or size")
    else
      .ok ()

def publishDataFile (record : Record Time) : Action Time Unit := do
  let slot ← inspect fun world => world.slot record.fileId
  match slot.part, slot.complete with
  | some _, some _ => raise (.corrupt "both partial and complete encrypted data exist")
  | some data, none => do
      lift (validateDataFile (some data) record.manifest.ciphertextSize)
      durable (World.modify record.fileId fun slot =>
        { slot with part := none, complete := slot.part })
  | none, some data => lift (validateDataFile (some data) record.manifest.ciphertextSize)
  | none, none => raise (.corrupt "committing encrypted data is missing")

def publishCommittingLocked (service : Service Time) (now : Time) (record : Record Time) :
    Action Time (Record Time) := do
  publishDataFile record
  let completed : Record Time :=
    { record with status := .complete, updatedAt := max record.updatedAt now }
  writeState service completed
  return completed

def beginCommit (service : Service Time) (env : Environment Time)
    (record : Record Time) : Action Time (Record Time) :=
  match record.status with
  | .partial_ => do
      let committing : Record Time :=
        { record with
          status := .committing
          updatedAt := max record.updatedAt env.stamp }
      writeState service committing
      return committing
  | .committing | .complete => return record

def complete (service : Service Time) (env : Environment Time) (fileId : FileId) :
    Action Time (Record Time × Bool) := do
  let record ← requireFile service env fileId
  if record.status = .complete then
    return (record, false)
  else if record.receivedChunks.length ≠ record.manifest.chunkCount then
    raise (.incomplete "encrypted file is missing chunks")
  else do
    let committing ← beginCommit service env record
    let completed ← publishCommittingLocked service env.publish committing
    return (completed, true)

def reconcileRecord (service : Service Time) (env : Environment Time)
    (record : Record Time) : Action Time (Record Time) := do
  let slot ← inspect fun world => world.slot record.fileId
  match record.status with
  | .partial_ =>
    if slot.complete.isSome then
      raise (.corrupt "partial state has complete data")
    else do
      lift (validateDataFile slot.part record.manifest.ciphertextSize)
      return record
  | .committing =>
    publishCommittingLocked service (env.publishAt record.fileId) record
  | .complete =>
    if slot.part.isSome then
      raise (.corrupt "complete state has partial data")
    else do
      lift (validateDataFile slot.complete record.manifest.ciphertextSize)
      return record

def removeRecordArtifacts (fileId : FileId) : Action Time Unit := do
  unlinkPart fileId
  unlinkComplete fileId
  unlinkState fileId

/-- The exceptions `reconcile` answers by removing the item. -/
def caughtByReconcile : StorageError → Bool
  | .quotaExceeded _ | .os _ => false
  | _ => true

def expectedDataName (record : Record Time) : DataName :=
  match record.status with
  | .partial_ => .part record.fileId
  | .committing | .complete => .complete record.fileId

def reconcileJournal (service : Service Time) (env : Environment Time)
    (fileId : FileId) : Action Time (List DataName) :=
  catching
    (do
      let record ← readState service fileId
      let reconciled ← reconcileRecord service env record
      return [expectedDataName reconciled])
    caughtByReconcile
    (do
      removeRecordArtifacts fileId
      return [])

def reconcileJournals (service : Service Time) (env : Environment Time) :
    List FileId → Action Time (List DataName)
  | [] => return []
  | fileId :: rest => do
      let here ← reconcileJournal service env fileId
      let others ← reconcileJournals service env rest
      return here ++ others

def unlinkData : DataName → Action Time Unit
  | .part fileId => unlinkPart fileId
  | .complete fileId => unlinkComplete fileId

def sweepData (expected : List DataName) : List DataName → Action Time Unit :=
  forEach fun name => if name ∈ expected then return () else unlinkData name

def unlinkTemporaries (fileId : FileId) : Action Time Unit :=
  durable (World.modify fileId fun slot => { slot with temporaries := 0 })

def reconcile (service : Service Time) (env : Environment Time) : Action Time Unit := do
  let known ← inspect fun world => world.disk.keys
  forEach unlinkTemporaries known
  let fileIds ← inspect fun world => world.disk.journalIds
  let expected ← reconcileJournals service env fileIds
  let names ← inspect fun world => world.disk.dataNames
  sweepData expected names

def startUp (service : Service Time) (env : Environment Time) : Action Time Unit := do
  reconcile service env
  let _ ← expireIncompleteLocked service env.sweep
  return ()

end XFerry.Encrypted
