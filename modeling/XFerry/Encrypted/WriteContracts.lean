/-
Contracts of create, write_chunk and complete.

The three keep the item intact through every step: a chunk's bytes reach the data
file before the journal lists them, and the journal says `committing` before the
data file is renamed.
-/

import XFerry.Encrypted.Contracts

namespace XFerry.Encrypted

open CrashProgram Program List

variable {Time : Type} [LinearOrder Time] [Sub Time]
  {service : Service Time} {frame : ItemProperty Time} {fileId : FileId}
  {raises : StorageError → World Time → Prop} {standing : Standing Time} {slot : Slot Time}

variable {data bytes : Bytes} {index : Nat}

theorem StoredChunk.Fits.slice_overlay {manifest : Manifest} {chunk : StoredChunk}
    (fits : chunk.Fits manifest)
    (size : data.length = manifest.ciphertextSize) (inside : index < manifest.chunkCount)
    (length : bytes.length ≤ manifest.chunkLength index) (different : chunk.index ≠ index) :
    Region.slice (Region.overlay data (manifest.chunkOffset index) bytes)
        (manifest.chunkOffset chunk.index) chunk.length =
      Region.slice data (manifest.chunkOffset chunk.index) chunk.length := by
  have within := Manifest.chunkOffset_add_length_le inside
  have room : manifest.chunkOffset index + bytes.length ≤ data.length := by omega
  rcases Nat.lt_or_gt_of_ne different with before | after
  · have apart := manifest.chunkOffset_add_length_le_of_lt before
    rw [← fits.length_eq] at apart
    exact Region.slice_overlay_before room apart
  · have apart := manifest.chunkOffset_add_length_le_of_lt after
    exact Region.slice_overlay_after room (by omega)

variable {record : Record Time}

omit [Sub Time] in
theorem Record.Backed.overlay
    (backed : record.Backed service data) (wellFormed : record.WellFormed fileId)
    (inside : index < record.manifest.chunkCount)
    (length : bytes.length ≤ record.manifest.chunkLength index)
    (unlisted : ∀ chunk ∈ record.receivedChunks, chunk.index ≠ index) :
    record.Backed service (Region.overlay data (record.manifest.chunkOffset index) bytes) := by
  have within := Manifest.chunkOffset_add_length_le inside
  rw [← backed.1] at within
  have fits : record.manifest.chunkOffset index + bytes.length ≤ data.length := by omega
  refine ⟨(Region.length_overlay fits).trans backed.1, ?_⟩
  intro chunk member
  rw [← backed.2 chunk member, (wellFormed.chunks chunk member).slice_overlay backed.1 inside
    length (unlisted chunk member)]

variable {offered : StoredChunk}

omit [Sub Time] in
theorem Record.WellFormed.addChunk (now : Time)
    (wellFormed : record.WellFormed fileId) (status : record.status = .partial_)
    (fits : offered.Fits record.manifest)
    (unlisted : ∀ chunk ∈ record.receivedChunks, chunk.index ≠ offered.index) :
    (record.addChunk offered now).WellFormed fileId := by
  have distinct : ((record.receivedChunks ++ [offered]).map StoredChunk.index).Nodup := by
    rw [map_append, nodup_append]
    refine ⟨(pairwise_map.mpr wellFormed.ordered).imp Nat.ne_of_lt, nodup_singleton _, ?_⟩
    intro left member right last same
    obtain ⟨chunk, present, rfl⟩ := mem_map.mp member
    exact unlisted chunk present (same.trans (by simpa using last))
  refine ⟨wellFormed.fileId_eq, ?_, sortChunks_ordered distinct, ?_, ?_⟩
  · intro chunk member
    rcases mem_append.mp (mem_sortChunks.mp member) with listed | added
    · exact wellFormed.chunks chunk listed
    · rw [mem_singleton.mp added]
      exact fits
  · intro final
    exact absurd status final
  · exact wellFormed.timestamps.trans (le_max_left ..)

variable {data ciphertext : Bytes}

omit [Sub Time] in
theorem Record.Backed.addChunk {now : Time} (backed : record.Backed service data)
    (wellFormed : record.WellFormed fileId) (fits : offered.Fits record.manifest)
    (unlisted : ∀ chunk ∈ record.receivedChunks, chunk.index ≠ offered.index)
    (length : ciphertext.length = offered.length)
    (hash : service.sha256 ciphertext = offered.ciphertextSha256) :
    (record.addChunk offered now).Backed service
      (Region.overlay data (record.manifest.chunkOffset offered.index) ciphertext) := by
  have exactLength : ciphertext.length = record.manifest.chunkLength offered.index :=
    length.trans fits.length_eq
  have kept := backed.overlay wellFormed fits.inside (Nat.le_of_eq exactLength) unlisted
  have within := Manifest.chunkOffset_add_length_le fits.inside
  rw [← backed.1, ← exactLength] at within
  refine ⟨kept.1, ?_⟩
  intro chunk member
  rcases mem_append.mp (mem_sortChunks.mp member) with listed | added
  · exact kept.2 chunk listed
  · rw [mem_singleton.mp added, ← length, ← hash]
    exact congrArg service.sha256 (Region.slice_overlay_same within)

theorem Kept.advance {record next : Record Time} {changed : Slot Time}
    (kept : Kept service fileId record standing slot)
    (intact : Intact service fileId changed next)
    (chunks : record.receivedChunks ⊆ next.receivedChunks)
    (status : record.status = .complete → next.status = .complete) :
    Kept service fileId next standing changed :=
  ⟨intact, kept.allows.mono chunks status⟩

theorem contract_advance (record : Record Time) {next : Record Time}
    (files : Option Bytes → Option Bytes → Prop) (safe : ItemProperty.Safe service frame)
    (wellFormed : next.WellFormed fileId)
    (chunks : record.receivedChunks ⊆ next.receivedChunks)
    (status : record.status = .complete → next.status = .complete)
    (data : ∀ part complete, files part complete →
      ∃ data, Placed part complete data next.status ∧ next.Backed service data) :
    Contract (Sound service)
      (Focus frame fileId fun standing slot =>
        Kept service fileId record standing slot ∧ files slot.part slot.complete)
      (writeState service next)
      (fun _ => Focus frame fileId fun standing slot =>
        Kept service fileId next standing slot ∧ files slot.part slot.complete)
      raises := by
  refine contract_writeState safe wellFormed ?_ (fun _ _ holds => holds.1.settled.sound)
    (fun _ _ holds => holds.1.settled.sound) ?_
  · rintro standing slot temporaries ⟨kept, ready⟩
    have intact := kept.intact
    exact ⟨⟨⟨intact.journal_eq, intact.wellFormed, intact.data⟩, kept.allows⟩, ready⟩
  · rintro standing slot temporaries ⟨kept, ready⟩
    exact ⟨kept.advance ⟨rfl, wellFormed, data _ _ ready⟩ chunks status, ready⟩

def Holding (service : Service Time) (fileId : FileId) (record : Record Time) (data : Bytes)
    (standing : Standing Time) (slot : Slot Time) : Prop :=
  Kept service fileId record standing slot ∧ slot.part = some data ∧ slot.complete = none

theorem Holding.write (holding : Holding service fileId record data standing slot)
    (status : record.status = .partial_) (backed : record.Backed service data)
    (inside : index < record.manifest.chunkCount)
    (length : bytes.length ≤ record.manifest.chunkLength index)
    (unlisted : ∀ chunk ∈ record.receivedChunks, chunk.index ≠ index) :
    Holding service fileId record
      (Region.overlay data (record.manifest.chunkOffset index) bytes) standing { slot with
        part := some (Region.overlay data (record.manifest.chunkOffset index) bytes) } := by
  obtain ⟨kept, _, completeEq⟩ := holding
  have wellFormed := kept.intact.wellFormed
  refine ⟨kept.advance ⟨kept.intact.journal_eq, wellFormed, _, ?_,
    backed.overlay wellFormed inside length unlisted⟩ (fun _ member => member) id,
    rfl, completeEq⟩
  rw [status]
  exact ⟨rfl, completeEq⟩

theorem contract_storeChunk (env : Environment Time)
    (wellFormed : record.WellFormed fileId) (status : record.status = .partial_)
    (backed : record.Backed service data) (fits : offered.Fits record.manifest)
    (unlisted : ∀ chunk ∈ record.receivedChunks, chunk.index ≠ offered.index)
    (length : ciphertext.length = offered.length)
    (hash : service.sha256 ciphertext = offered.ciphertextSha256) :
    Contract (Sound service) (Focus (SettledAt service) fileId (Holding service fileId record data))
      (storeChunk service env record offered ciphertext (some data))
      (fun result => Focus (SettledAt service) fileId fun standing slot =>
        Kept service fileId result.1 standing slot ∧ offered ∈ result.1.receivedChunks)
      raises := by
  have safe := ItemProperty.safe_settledAt service
  have exactLength : ciphertext.length = record.manifest.chunkLength offered.index :=
    length.trans fits.length_eq
  have tornLength : (env.torn.take ciphertext.length).length ≤
      record.manifest.chunkLength offered.index := by
    rw [← exactLength]
    exact length_take_le ..
  have sizeEq : ¬ data.length ≠ record.manifest.ciphertextSize :=
    fun different => different backed.1
  let written := Region.overlay data (record.manifest.chunkOffset offered.index) ciphertext
  unfold storeChunk
  dsimp only
  rw [if_neg sizeEq, show record.fileId = fileId from wellFormed.fileId_eq]
  refine .bind
    (fun _ => Focus (SettledAt service) fileId (Holding service fileId record written))
    ?_ fun _ => ?_
  · refine contract_tear safe ?_ ?_ ?_
    · intro standing slot holding
      exact (holding.write status backed fits.inside tornLength unlisted).1.settled.sound
    · intro standing slot holding
      exact (holding.write status backed fits.inside exactLength.le unlisted).1.settled.sound
    · intro standing slot holding
      exact holding.write status backed fits.inside exactLength.le unlisted
  refine .bind _ (contract_advance record
    (fun part complete => part = some written ∧ complete = none) safe
    (wellFormed.addChunk env.stamp status fits unlisted) ?_ ?_ ?_) fun _ => ?_
  · exact fun chunk member => mem_sortChunks.mpr (mem_append_left _ member)
  · exact id
  · rintro part complete ⟨rfl, rfl⟩
    refine ⟨written, ?_, backed.addChunk wellFormed fits unlisted length hash⟩
    rw [show (record.addChunk offered env.stamp).status = .partial_ from status]
    exact ⟨rfl, rfl⟩
  · refine .pure fun world focus => focus.imp ?_
    rintro standing slot ⟨kept, _⟩
    exact ⟨kept, mem_sortChunks.mpr (mem_append_right _ (mem_singleton_self _))⟩

theorem settled_of_kept {world : World Time}
    (focus : Focus (SettledAt service) fileId (Kept service fileId record) world) :
    Settled service world :=
  settled_of_focus focus fun _ _ kept => kept.settled

theorem contract_confirmChunk {existing offered : StoredChunk}
    {ciphertext : Bytes} (data : Option Bytes) (listed : existing ∈ record.receivedChunks) :
    Contract (Sound service) (Focus (SettledAt service) fileId (Kept service fileId record))
      (confirmChunk record existing offered ciphertext data)
      (fun result => Focus (SettledAt service) fileId fun standing slot =>
        Kept service fileId result.1 standing slot ∧ offered ∈ result.1.receivedChunks)
      (fun _ => Settled service) := by
  unfold confirmChunk
  cases data with
  | none => exact .raise fun _ => settled_of_kept
  | some data =>
    dsimp only
    split
    · exact .raise fun _ => settled_of_kept
    split
    · case isTrue same =>
        refine .pure fun world focus => focus.imp fun standing slot kept => ?_
        exact ⟨kept, same.1 ▸ listed⟩
    · exact .raise fun _ => settled_of_kept

theorem contract_writeChunk (env : Environment Time) (index : Int) (ciphertext resumeMac : Bytes) :
    Contract (Sound service) (Settled service)
      (writeChunk service env fileId index ciphertext resumeMac)
      (fun result => Focus (SettledAt service) fileId fun standing slot =>
        Kept service fileId result.1 standing slot ∧
          offeredChunk service index.toNat ciphertext resumeMac ∈ result.1.receivedChunks)
      (fun _ => Settled service) := by
  unfold writeChunk
  split
  · exact .raise fun _ settled => settled
  rename_i macLength
  refine .bind _ (contract_requireFile env) fun record => ?_
  refine .bind (fun expectedLength world =>
    record.manifest.encryptedChunkLength index = .ok expectedLength ∧
      Focus (SettledAt service) fileId (Kept service fileId record) world)
    (.lift (fun _ found _ focus => ⟨found, focus⟩)
      fun _ _ _ focus => settled_of_kept focus) fun expectedLength => ?_
  refine .assuming fun lengthEq => ?_
  obtain ⟨position, rfl, inside, expectedEq⟩ := Manifest.encryptedChunkLength_eq_ok lengthEq
  split
  · exact .raise fun _ => settled_of_kept
  rename_i sameLength
  refine .bind _ contract_slot fun found => ?_
  rw [Int.toNat_natCast]
  cases search : record.receivedChunks.find? fun chunk =>
      chunk.index = (offeredChunk service position ciphertext resumeMac).index with
  | some existing =>
    have listed := mem_of_find?_eq_some search
    exact (contract_confirmChunk _ listed).weaken
      (fun world focus => focus.imp fun _ _ holds => holds.1)
      (fun _ _ returned => returned) fun _ _ raised => raised
  | none =>
    have unlisted : ∀ chunk ∈ record.receivedChunks, chunk.index ≠ position := by
      intro chunk member same
      have absent := find?_eq_none.mp search chunk member
      simp [offeredChunk, same] at absent
    dsimp only
    split
    · exact .raise fun _ focus =>
        settled_of_focus focus fun _ _ holds => holds.1.settled
    rename_i writable
    have status : record.status = .partial_ := not_not.mp writable
    intro world focus
    obtain ⟨kept, foundEq⟩ := focus.2
    obtain ⟨data, placed, backed⟩ := kept.intact.data
    rw [status] at placed
    have dataEq : dataOfRecord record found = some data := by
      rw [dataOfRecord, status, ← foundEq]
      exact placed.1
    have fits : (offeredChunk service position ciphertext resumeMac).Fits record.manifest :=
      ⟨inside, (not_not.mp sameLength).trans expectedEq, not_not.mp macLength,
        service.sha256_length _⟩
    rw [dataEq]
    exact contract_storeChunk env kept.intact.wellFormed status backed fits
      unlisted rfl rfl world ⟨focus.1, kept, placed.1, placed.2⟩

def Renamed (service : Service Time) (record : Record Time) (part complete : Option Bytes) : Prop :=
  part = none ∧ ∃ data, complete = some data ∧ record.Backed service data

omit [LinearOrder Time] [Sub Time] in
theorem validateDataFile_of_backed {data : Bytes} (backed : record.Backed service data) :
    validateDataFile (some data) record.manifest.ciphertextSize = .ok () := by
  simp [validateDataFile, backed.1]

theorem contract_publishDataFile (safe : ItemProperty.Safe service frame)
    (status : record.status = .committing) :
    Contract (Sound service) (Focus frame fileId (Kept service fileId record))
      (publishDataFile record) (fun _ => Focus frame fileId fun standing slot =>
        Kept service fileId record standing slot ∧ Renamed service record slot.part slot.complete)
      raises := by
  intro world focus
  have kept := focus.2
  have wellFormed := kept.intact.wellFormed
  obtain ⟨data, placed, backed⟩ := kept.intact.data
  have valid := validateDataFile_of_backed backed
  have sameId : record.fileId = fileId := wellFormed.fileId_eq
  unfold publishDataFile
  rw [sameId]
  rw [status] at placed
  rcases placed with ⟨partEq, completeEq⟩ | ⟨partEq, completeEq⟩
  · have renamed : ∀ standing slot,
        (Kept service fileId record standing slot ∧ slot.part = some data) →
          Kept service fileId record standing { slot with part := none, complete := slot.part } ∧
            Renamed service record none slot.part := by
      rintro standing slot ⟨kept, present⟩
      refine ⟨kept.advance ⟨kept.intact.journal_eq, wellFormed, data, ?_, backed⟩
        (fun _ member => member) id, rfl, data, present, backed⟩
      rw [status]
      exact .inr ⟨rfl, present⟩
    have rename : Contract (Sound service)
        (Focus frame fileId fun standing slot =>
          Kept service fileId record standing slot ∧ slot.part = some data)
        (do
          lift (validateDataFile (some data) record.manifest.ciphertextSize)
          durable (World.modify fileId fun slot =>
            { slot with part := none, complete := slot.part }) : Action Time Unit)
        (fun _ => Focus frame fileId fun standing slot =>
          Kept service fileId record standing slot ∧
            Renamed service record slot.part slot.complete) raises := by
      rw [valid]
      refine .bind (fun _ => Focus frame fileId fun standing slot =>
        Kept service fileId record standing slot ∧ slot.part = some data)
        (.pure fun _ focus => focus) fun _ => ?_
      exact contract_modify safe
        (fun standing slot holds => (renamed standing slot holds).1.settled.sound) renamed
    have here := rename world ⟨focus.1, kept, partEq⟩
    simpa only [bind, andThen, inspect, partEq, completeEq, nil_append] using here
  · simp only [bind, andThen, inspect, partEq, completeEq, valid, lift, returning, nil_append]
    exact ⟨by simp, focus.1, kept, partEq, data, completeEq, backed⟩

omit [Sub Time] in
theorem Record.WellFormed.finish {status : Status} {now : Time}
    (wellFormed : record.WellFormed fileId)
    (all : record.receivedChunks.length = record.manifest.chunkCount) :
    Record.WellFormed fileId
      { record with status := status, updatedAt := max record.updatedAt now } :=
  ⟨wellFormed.fileId_eq, wellFormed.chunks, wellFormed.ordered, fun _ => all,
    wellFormed.timestamps.trans (le_max_left ..)⟩

theorem contract_publishCommittingLocked (now : Time)
    (safe : ItemProperty.Safe service frame) (wellFormed : record.WellFormed fileId)
    (status : record.status = .committing) :
    Contract (Sound service) (Focus frame fileId (Kept service fileId record))
      (publishCommittingLocked service now record)
      (fun completed => Focus frame fileId fun standing slot =>
        Kept service fileId completed standing slot ∧ completed.status = .complete)
      raises := by
  refine .bind _ (contract_publishDataFile safe status) fun _ => ?_
  have all := wellFormed.final (by simp [status])
  refine .bind _ (contract_advance record (Renamed service record) safe
    (wellFormed.finish all) (fun _ member => member) (fun _ => rfl) ?_) fun _ => ?_
  · rintro part complete ⟨partEq, data, completeEq, backed⟩
    exact ⟨data, ⟨partEq, completeEq⟩, backed⟩
  · exact .pure fun world focus => focus.imp fun _ _ holds => ⟨holds.1, rfl⟩

theorem contract_beginCommit (env : Environment Time)
    (safe : ItemProperty.Safe service frame) (wellFormed : record.WellFormed fileId)
    (notComplete : record.status ≠ .complete)
    (all : record.receivedChunks.length = record.manifest.chunkCount) :
    Contract (Sound service) (Focus frame fileId (Kept service fileId record))
      (beginCommit service env record) (fun committing world =>
        (committing.WellFormed fileId ∧ committing.status = .committing) ∧
          Focus frame fileId (Kept service fileId committing) world)
      raises := by
  unfold beginCommit
  cases status : record.status with
  | partial_ =>
    have next : Record.WellFormed fileId { record with
        status := .committing, updatedAt := max record.updatedAt env.stamp } :=
      wellFormed.finish all
    refine .bind _ ((contract_advance record
      (fun part complete => ∃ data, Placed part complete data .partial_ ∧
        record.Backed service data) safe next (fun _ member => member) ?_ ?_).weaken ?_
      (fun _ _ returned => returned) fun _ _ raised => raised) fun _ => ?_
    · intro complete
      rw [status] at complete
      cases complete
    · rintro part complete ⟨data, placed, backed⟩
      exact ⟨data, .inl placed, backed⟩
    · intro world focus
      refine focus.imp fun standing slot kept => ⟨kept, ?_⟩
      obtain ⟨data, placed, backed⟩ := kept.intact.data
      rw [status] at placed
      exact ⟨data, placed, backed⟩
    · exact .pure fun world focus =>
        ⟨⟨next, rfl⟩, focus.imp fun _ _ holds => holds.1⟩
  | committing => exact .pure fun world focus => ⟨⟨wellFormed, status⟩, focus⟩
  | complete => exact absurd status notComplete

theorem contract_complete (env : Environment Time) :
    Contract (Sound service) (Settled service) (complete service env fileId)
      (fun result => Focus (SettledAt service) fileId fun standing slot =>
        Kept service fileId result.1 standing slot ∧ result.1.status = .complete)
      (fun _ => Settled service) := by
  have safe := ItemProperty.safe_settledAt service
  refine .bind _ (contract_requireFile env) fun record => ?_
  split
  · case isTrue done =>
    exact .pure fun world focus => focus.imp fun _ _ kept => ⟨kept, done⟩
  rename_i notComplete
  split
  · exact .raise fun _ => settled_of_kept
  rename_i all
  refine .learning _ (fun world focus => focus.2.intact.wellFormed)
    fun wellFormed => ?_
  refine .bind _ (contract_beginCommit env safe wellFormed notComplete
    (not_not.mp all)) fun committing => ?_
  refine .assuming fun facts => ?_
  refine .bind _ (contract_publishCommittingLocked env.publish safe
    facts.1 facts.2) fun completed => ?_
  exact .pure fun _ focus => focus

structure Sized (service : Service Time) (fileId : FileId) (manifest : Manifest)
    (standing : Standing Time) (slot : Slot Time) : Prop where
  released : standing.Released service fileId
  journal_eq : slot.journal = none
  complete_eq : slot.complete = none
  part_eq : slot.part = some (replicate manifest.ciphertextSize 0)

structure Unfinished (service : Service Time) (fileId : FileId) (standing : Standing Time)
    (slot : Slot Time) : Prop where
  released : standing.Released service fileId
  orphan : slot.Orphan

theorem Unfinished.sound (unfinished : Unfinished service fileId standing slot) :
    SoundAt service fileId standing slot :=
  .orphan unfinished.released unfinished.orphan

theorem Unfinished.unlinkPart (unfinished : Unfinished service fileId standing slot) :
    Removed service fileId standing { slot with part := none } :=
  ⟨unfinished.released, unfinished.orphan.journal_eq, rfl, unfinished.orphan.complete_eq⟩

theorem Removed.unlinkState (removed : Removed service fileId standing slot) :
    Removed service fileId standing { slot with journal := none } :=
  ⟨removed.released, rfl, removed.absent.part_eq, removed.absent.complete_eq⟩

theorem Removed.unfinished (removed : Removed service fileId standing slot)
    (part : Option Bytes) : Unfinished service fileId standing { slot with part := part } :=
  ⟨removed.released, removed.absent.journal_eq, removed.absent.complete_eq⟩

section

variable (env : Environment Time)
include env

theorem contract_createSizedFile {manifest : Manifest} (safe : ItemProperty.Safe service frame) :
    Contract (Sound service) (Focus frame fileId (Removed service fileId))
      (createSizedFile env fileId manifest.ciphertextSize)
      (fun _ => Focus frame fileId (Sized service fileId manifest))
      (fun _ => Focus frame fileId (Unfinished service fileId)) := by
  refine .bind _ contract_slot fun found => ?_
  split
  · exact .raise fun _ focus => focus.imp fun _ slot holds =>
      holds.1.unfinished slot.part
  refine .bind (fun _ => Focus frame fileId (Unfinished service fileId)) ?_
    fun _ => ?_
  · exact contract_modify safe (fun _ _ holds => (holds.1.unfinished (some [])).sound)
      fun _ _ holds => holds.1.unfinished (some [])
  split
  · exact contract_modify safe
      (fun _ _ unfinished => .orphan unfinished.released
        ⟨unfinished.orphan.journal_eq, unfinished.orphan.complete_eq⟩)
      fun _ _ unfinished => ⟨unfinished.released, unfinished.orphan.journal_eq,
        unfinished.orphan.complete_eq, rfl⟩
  · exact .raise fun _ focus => focus

theorem contract_createData {created : Record Time}
    (wellFormed : created.WellFormed fileId) (status : created.status = .partial_)
    (empty : created.receivedChunks = []) :
    Contract (Sound service) (Focus (SettledAt service) fileId (Removed service fileId))
      (createData service env created)
      (fun _ => Focus (SettledAt service) fileId (Kept service fileId created))
      (fun _ => Settled service) := by
  have safe := ItemProperty.safe_settledAt service
  unfold createData
  rw [show created.fileId = fileId from wellFormed.fileId_eq]
  refine .bind (fun _ => Focus (SettledAt service) fileId (Removed service fileId))
    (contract_judge fun _ _ removed =>
      ⟨⟨removed.released.justified, removed.released.claim_eq⟩, removed.absent⟩) fun _ => ?_
  refine .cleaningUp
    (fun _ => Focus (SettledAt service) fileId (Unfinished service fileId)) ?_ fun error => ?_
  · refine .bind _ (contract_createSizedFile env safe) fun _ => ?_
    refine contract_writeState safe wellFormed
      (fun _ _ _ sized => ⟨sized.released, sized.journal_eq, sized.complete_eq, sized.part_eq⟩)
      (fun _ _ sized => .orphan sized.released ⟨sized.journal_eq, sized.complete_eq⟩)
      (fun _ _ kept => kept.settled.sound) ?_
    intro standing slot temporaries sized
    refine ⟨⟨rfl, wellFormed, replicate created.manifest.ciphertextSize 0, ?_,
      length_replicate, by simp [empty]⟩, sized.released.justified, ?_, ?_⟩
    · rw [status]
      exact ⟨sized.part_eq, sized.complete_eq⟩
    · simp [sized.released.claim_eq]
    · simp [Standing.completed, sized.released.claim_eq]
  · refine .bind
      (fun _ => Focus (SettledAt service) fileId (Removed service fileId))
      (contract_modify safe (fun _ _ unfinished => unfinished.unlinkPart.settled.sound)
        fun _ _ unfinished => unfinished.unlinkPart) fun _ => ?_
    refine (contract_modify safe (fun _ _ removed => removed.unlinkState.settled.sound)
      fun _ _ removed => removed.unlinkState).weaken (fun _ focus => focus)
      (fun _ _ focus => ?_) fun _ _ raised => raised
    exact settled_of_focus focus fun _ _ removed => removed.settled

theorem contract_create (manifest : Manifest) :
    Contract (Sound service) (Settled service) (create service env manifest)
      (fun result => Focus (SettledAt service) manifest.fileId
        (Kept service manifest.fileId result.1)) (fun _ => Settled service) := by
  refine .bind _ (contract_expireIncompleteLocked env.sweep) fun _ => ?_
  refine .bind _ (contract_get env) fun answer => ?_
  cases answer with
  | some existing =>
    dsimp only
    split
    · exact .raise fun _ => settled_of_kept
    · exact .pure fun _ focus => focus
  | none =>
    have settled : ∀ world, Focus (SettledAt service) manifest.fileId
        (Removed service manifest.fileId) world → Settled service world :=
      fun _ focus => settled_of_focus focus fun _ _ removed => removed.settled
    dsimp only
    split
    · exact .raise fun world => settled world
    refine .bind _ contract_slot fun found => ?_
    split
    · exact .raise fun world focus =>
        settled world (focus.imp fun _ _ holds => holds.1)
    · cases env.reservation with
      | some reason =>
        exact .raise fun world focus =>
          settled world (focus.imp fun _ _ holds => holds.1)
      | none =>
        refine .bind _ ((contract_createData env ?_ rfl rfl).weaken
          (fun world focus => focus.imp fun _ _ holds => holds.1)
          (fun _ _ returned => returned) fun _ _ raised => raised) fun _ =>
            .pure fun _ focus => focus
        exact ⟨rfl, by simp, List.Pairwise.nil, fun final => absurd rfl final, le_refl _⟩

end

end XFerry.Encrypted
