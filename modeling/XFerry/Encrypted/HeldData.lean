/-
What the operations keep although any of their steps may fail.

A call that fails can leave an item half created or half removed, so less is true
of it than after a crash and a start-up: a journal that is there is well formed,
an item has one data file at most, and a chunk the journal lists keeps its bytes.
-/

import XFerry.Encrypted.WriteContracts

namespace XFerry.Encrypted

open CrashProgram Program

variable {Time : Type} [LinearOrder Time] [Sub Time]
  {service : Service Time} {fileId : FileId} {slot : Slot Time}

/-- The bytes a chunk was acknowledged with. -/
structure Pledge where
  fileId : FileId
  chunk : StoredChunk
  bytes : Bytes

def Slot.Lists (slot : Slot Time) (chunk : StoredChunk) : Prop :=
  ∃ record, slot.journal = some record ∧ chunk ∈ record.receivedChunks

def Slot.HasData (slot : Slot Time) (data : Bytes) : Prop :=
  slot.part = some data ∨ slot.complete = some data

def Record.Keeps (record : Record Time) (pledge : Pledge) (data : Bytes) : Prop :=
  pledge.chunk ∈ record.receivedChunks →
    Region.slice data (record.manifest.chunkOffset pledge.chunk.index) pledge.chunk.length =
      pledge.bytes

structure HeldAt (pledges : List Pledge) (fileId : FileId) (slot : Slot Time) : Prop where
  wellFormed : ∀ record, slot.journal = some record → record.WellFormed fileId
  unpublished : ∀ record, slot.journal = some record → record.status = .partial_ →
    slot.complete = none
  apart : slot.part = none ∨ slot.complete = none
  pledged : ∀ pledge ∈ pledges, pledge.fileId = fileId → ∀ record, slot.journal = some record →
    ∀ data, slot.HasData data → record.Keeps pledge data

def Held (pledges : List Pledge) : ItemProperty Time := fun fileId _ slot =>
  HeldAt pledges fileId slot

abbrev AllHeld (pledges : List Pledge) : World Time → Prop := Everywhere (Held pledges)

namespace HeldAt

variable {pledges : List Pledge} (held : HeldAt pledges fileId slot)

include held

section

omit [Sub Time]

theorem temporaries (count : Nat) :
    HeldAt pledges fileId ({ slot with temporaries := count } : Slot Time) :=
  ⟨held.wellFormed, held.unpublished, held.apart, held.pledged⟩

theorem unlinkPart : HeldAt pledges fileId ({ slot with part := none } : Slot Time) := by
  refine ⟨held.wellFormed, held.unpublished, .inl rfl, ?_⟩
  intro pledge member same record present data stored
  rcases stored with absent | stored
  · cases absent
  · exact held.pledged pledge member same record present data (.inr stored)

theorem unlinkComplete : HeldAt pledges fileId ({ slot with complete := none } : Slot Time) := by
  refine ⟨held.wellFormed, fun _ _ _ => rfl, .inr rfl, ?_⟩
  intro pledge member same record present data stored
  rcases stored with stored | absent
  · exact held.pledged pledge member same record present data (.inl stored)
  · cases absent

theorem unlinkState : HeldAt pledges fileId ({ slot with journal := none } : Slot Time) :=
  ⟨nofun, nofun, held.apart, fun _ _ _ _ absent => nomatch absent⟩

theorem createPart (missing : slot.journal = none) (free : slot.complete = none)
    (part : Option Bytes) : HeldAt pledges fileId ({ slot with part := part } : Slot Time) := by
  refine ⟨held.wellFormed, held.unpublished, .inr free, ?_⟩
  intro pledge member same record present
  rw [show slot.journal = some record from present] at missing
  cases missing

theorem rename {record : Record Time} (journaled : slot.journal = some record)
    (status : record.status = .committing) :
    HeldAt pledges fileId ({ slot with part := none, complete := slot.part } : Slot Time) := by
  refine ⟨held.wellFormed, ?_, .inl rfl, ?_⟩
  · intro listed present partial_
    rw [show slot.journal = some listed from present] at journaled
    cases journaled
    rw [status] at partial_
    cases partial_
  · intro pledge member same listed present data stored
    rcases stored with absent | stored
    · cases absent
    · exact held.pledged pledge member same listed present data (.inl stored)

theorem replaceJournal {next : Record Time} (wellFormed : next.WellFormed fileId)
    (unpublished : next.status = .partial_ → slot.complete = none)
    (pledged : ∀ pledge ∈ pledges, pledge.fileId = fileId → ∀ data, slot.HasData data →
      next.Keeps pledge data) (count : Nat) :
    HeldAt pledges fileId
      ({ slot with journal := some next, temporaries := count } : Slot Time) := by
  refine ⟨?_, ?_, held.apart, ?_⟩
  · intro record present
    cases present
    exact wellFormed
  · intro record present
    cases present
    exact unpublished
  · intro pledge member same record present
    cases present
    exact pledged pledge member same

end

end HeldAt

section Contracts

variable {pledges : List Pledge} {env : Environment Time}
  {raises : StorageError → World Time → Prop}

abbrev KeepsHeld {α : Type} (pledges : List Pledge) (program : Action Time α) : Prop :=
  Contract (AllHeld pledges) (AllHeld pledges) program (fun _ => AllHeld pledges)
    fun _ => AllHeld pledges

section

omit [Sub Time]

theorem everywhere_of_focus {property : Standing Time → Slot Time → Prop} {world : World Time}
    (focus : Focus (Held pledges) fileId property world)
    (held : ∀ standing slot, property standing slot → HeldAt pledges fileId slot) :
    AllHeld pledges world :=
  focus.everywhere (fun _ _ _ held => held) held

theorem held_raise {α : Type} {property : Standing Time → Slot Time → Prop} {error : StorageError}
    {returns : α → World Time → Prop}
    (held : ∀ standing slot, property standing slot → HeldAt pledges fileId slot) :
    Contract (AllHeld pledges) (Focus (Held pledges) fileId property)
      (raise error : Action Time α) returns (fun _ => AllHeld pledges) :=
  .raise fun _ focus => everywhere_of_focus focus held

end

variable {change : Slot Time → Slot Time}

section

omit [Sub Time]

theorem held_change {before after : Standing Time → Slot Time → Prop}
    (held : ∀ standing slot, before standing slot → HeldAt pledges fileId (change slot))
    (holds : ∀ standing slot, before standing slot → after standing (change slot)) :
    Contract (AllHeld pledges) (Focus (Held pledges) fileId before)
      (durable (World.modify fileId change)) (fun _ => Focus (Held pledges) fileId after)
      raises :=
  contract_change (fun _ _ _ held => held) held holds

theorem held_unlink
    (held : ∀ slot, HeldAt pledges fileId slot → HeldAt pledges fileId (change slot)) :
    Contract (AllHeld pledges) (AllHeld pledges)
      (durable (World.modify fileId change)) (fun _ => AllHeld pledges) raises := by
  refine (held_change (fun _ => held) fun _ => held).weaken
    (fun _ => (everywhere_iff_focus fileId).mp)
    (fun _ _ => (everywhere_iff_focus fileId).mpr) fun _ _ raised => raised

theorem held_deleteLocked (cause : Cause Time) :
    Contract (AllHeld pledges) (AllHeld pledges)
      (deleteLocked fileId cause)
      (fun _ => Focus (Held pledges) fileId fun _ slot =>
        HeldAt pledges fileId slot ∧ slot.journal = none) raises := by
  refine .bind (fun _ => AllHeld pledges) (.inspect fun _ held => held) fun found => ?_
  refine .bind (fun _ => AllHeld pledges) (.record fun _ held other => held other) fun _ => ?_
  refine .bind _ (held_unlink fun _ held => held.unlinkPart) fun _ => ?_
  refine .bind _ (held_unlink fun _ held => held.unlinkComplete) fun _ => ?_
  refine .bind (fun _ => Focus (Held pledges) fileId fun _ slot =>
    HeldAt pledges fileId slot ∧ slot.journal = none) ?_ fun _ =>
      .pure fun _ focus => focus
  exact (held_change (fun _ _ held => HeldAt.unlinkState held)
    fun _ _ held => ⟨HeldAt.unlinkState held, rfl⟩).weaken
    (fun _ => (everywhere_iff_focus fileId).mp) (fun _ _ focus => focus)
    fun _ _ raised => raised

end

variable {before : Slot Time → Prop}

omit [Sub Time] in
theorem held_readState (held : ∀ slot, before slot → HeldAt pledges fileId slot) :
    Contract (AllHeld pledges) (Focus (Held pledges) fileId fun _ => before)
      (readState service fileId) (fun record => Focus (Held pledges) fileId fun _ slot =>
        before slot ∧ slot.journal = some record) (fun _ => AllHeld pledges) := by
  intro world focus
  cases journal : (world.slot fileId).journal with
  | none =>
    simp only [readState, bind, andThen, Program.inspect, journal, Program.raise]
    exact ⟨by simp, everywhere_of_focus focus fun _ => held⟩
  | some record =>
    rw [readState_eq journal ((held _ focus.2).wellFormed record journal)]
    exact ⟨by simp, focus.1, focus.2, journal⟩

def Found (pledges : List Pledge) (fileId : FileId) (before : Slot Time → Prop)
    (answer : Option (Record Time)) (slot : Slot Time) : Prop :=
  match answer with
  | none => HeldAt pledges fileId slot ∧ slot.journal = none
  | some record => before slot ∧ slot.journal = some record

section

variable (held : ∀ slot, before slot → HeldAt pledges fileId slot)
include held

theorem held_get :
    Contract (AllHeld pledges) (Focus (Held pledges) fileId fun _ => before)
      (get service env fileId)
      (fun answer => Focus (Held pledges) fileId fun _ => Found pledges fileId before answer)
      (fun _ => AllHeld pledges) := by
  refine .bind _ contract_slot fun found => ?_
  cases journal : found.journal with
  | none =>
    refine .pure fun world focus => focus.imp ?_
    rintro standing slot ⟨here, rfl⟩
    exact ⟨held _ here, journal⟩
  | some stored =>
    refine .bind _ ((held_readState held).weaken
      (fun _ focus => focus.imp fun _ _ here => here.1) (fun _ _ returned => returned)
      fun _ _ raised => raised) fun record => ?_
    by_cases idle : record.status = .partial_ ∧ isIdle service env.lookup record = true
    · rw [if_pos idle]
      refine .bind _ ((held_deleteLocked _).weaken
        (fun _ focus => everywhere_of_focus focus fun _ slot here => held slot here.1)
        (fun _ _ focus => focus) fun _ _ raised => raised) fun _ => ?_
      exact .pure fun _ focus => focus
    · rw [if_neg idle]
      exact .pure fun _ focus => focus

theorem held_requireFile :
    Contract (AllHeld pledges) (Focus (Held pledges) fileId fun _ => before)
      (requireFile service env fileId)
      (fun record => Focus (Held pledges) fileId fun _ slot =>
        before slot ∧ slot.journal = some record) (fun _ => AllHeld pledges) := by
  refine .bind _ (held_get held) fun answer => ?_
  cases answer with
  | none => exact held_raise fun _ _ gone => gone.1
  | some record => exact .pure fun _ focus => focus

end

section

omit [Sub Time]

theorem held_readStates (fileIds : List FileId) :
    KeepsHeld pledges (readStates service fileIds) := by
  induction fileIds with
  | nil => exact .pure fun _ held => held
  | cons fileId rest ih =>
    refine .bind (fun _ => AllHeld pledges)
      ((held_readState fun _ held => held).weaken
        (fun _ => (everywhere_iff_focus fileId).mp)
        (fun _ _ focus => everywhere_of_focus focus fun _ _ here => here.1)
        fun _ _ raised => raised) fun record => ?_
    exact .bind _ ih fun records => .pure fun _ held => held

theorem held_listFilesLocked (status : Option Status) :
    KeepsHeld pledges (listFilesLocked service status) := by
  refine .bind (fun _ => AllHeld pledges) (.inspect fun _ held => held) fun fileIds => ?_
  exact .bind _ (held_readStates fileIds) fun _ => .pure fun _ held => held

theorem held_delete (cause : Cause Time) :
    Contract (AllHeld pledges) (AllHeld pledges)
      (deleteLocked fileId cause) (fun _ => AllHeld pledges) raises :=
  (held_deleteLocked cause).weaken (fun _ held => held)
    (fun _ _ focus => everywhere_of_focus focus fun _ _ gone => gone.1)
    fun _ _ raised => raised

end

theorem held_expireIncompleteLocked (current : Time) :
    KeepsHeld pledges (expireIncompleteLocked service current) := by
  refine .bind _ (held_listFilesLocked (some .partial_)) fun records => ?_
  refine .bind _ (.forEach (fun _ => AllHeld pledges)
    (fun record rest => ?_) _) fun _ => .pure fun _ held => held
  exact .bind _ (held_delete _) fun _ => .pure fun _ held => held

structure Fresh (pledges : List Pledge) (fileId : FileId) (slot : Slot Time) : Prop where
  held : HeldAt pledges fileId slot
  journal_eq : slot.journal = none
  complete_eq : slot.complete = none

section

omit [Sub Time]

theorem Fresh.createPart (fresh : Fresh pledges fileId slot) (part : Option Bytes) :
    Fresh pledges fileId { slot with part := part } :=
  ⟨fresh.held.createPart fresh.journal_eq fresh.complete_eq part, fresh.journal_eq,
    fresh.complete_eq⟩

theorem held_createSizedFile (size : Nat) :
    Contract (AllHeld pledges)
      (Focus (Held pledges) fileId fun _ => Fresh pledges fileId)
      (createSizedFile env fileId size)
      (fun _ => Focus (Held pledges) fileId fun _ => Fresh pledges fileId)
      (fun _ => AllHeld pledges) := by
  have created (part : Option Bytes) :
      Contract (AllHeld pledges)
        (Focus (Held pledges) fileId fun _ => Fresh pledges fileId)
        (durable (World.modify fileId fun slot : Slot Time => { slot with part := part }))
        (fun _ => Focus (Held pledges) fileId fun _ => Fresh pledges fileId)
        (fun _ : StorageError => AllHeld pledges) :=
    held_change (fun _ _ fresh => (Fresh.createPart fresh part).held)
      fun _ _ fresh => fresh.createPart part
  refine .bind (fun _ => Focus (Held pledges) fileId fun _ => Fresh pledges fileId)
    (.inspect fun _ focus => focus) fun found => ?_
  split
  · exact held_raise fun _ _ fresh => fresh.held
  refine .bind _ (created _) fun _ => ?_
  split
  · exact created _
  · exact held_raise fun _ _ fresh => fresh.held

end

/-- The steps of `create` inside its `try`. -/
def createFiles (service : Service Time) (env : Environment Time)
    (created : Record Time) : Action Time Unit := do
  createSizedFile env created.fileId created.manifest.ciphertextSize
  writeState service created

def undoCreation (fileId : FileId) : Action Time Unit := do
  unlinkPart fileId
  unlinkState fileId

section

omit [Sub Time]

theorem held_createFiles {created : Record Time} (wellFormed : created.WellFormed fileId)
    (empty : created.receivedChunks = []) :
    Contract (AllHeld pledges)
      (Focus (Held pledges) fileId fun _ => Fresh pledges fileId)
      (createFiles service env created) (fun _ => AllHeld pledges)
      (fun _ => AllHeld pledges) := by
  unfold createFiles
  rw [show created.fileId = fileId from wellFormed.fileId_eq]
  refine .bind _ (held_createSizedFile _) fun _ => ?_
  refine (contract_writeJournal (fun _ _ _ held => held) wellFormed ?_
    (fun _ _ fresh => Fresh.held fresh) (fun _ _ held => held) ?_).weaken
    (fun _ focus => focus) (fun _ _ => (everywhere_iff_focus fileId).mpr)
    fun _ _ raised => raised
  · exact fun _ _ count fresh => ⟨fresh.held.temporaries count, fresh.journal_eq, fresh.complete_eq⟩
  · intro _ slot count fresh
    refine fresh.held.replaceJournal wellFormed (fun _ => fresh.complete_eq) ?_ count
    intro pledge _ _ data _ listed
    rw [empty] at listed
    cases listed

theorem held_undoCreation :
    Contract (AllHeld pledges) (AllHeld pledges)
      (undoCreation fileId : Action Time Unit) (fun _ => AllHeld pledges) raises :=
  .bind _ (held_unlink fun _ held => held.unlinkPart) fun _ =>
    held_unlink fun _ held => held.unlinkState

theorem held_createData {created : Record Time} (wellFormed : created.WellFormed created.fileId)
    (empty : created.receivedChunks = []) :
    Contract (AllHeld pledges)
      (Focus (Held pledges) created.fileId fun _ => Fresh pledges created.fileId)
      (createData service env created) (fun _ => AllHeld pledges)
      (fun _ => AllHeld pledges) := by
  refine .bind
    (fun _ => Focus (Held pledges) created.fileId fun _ => Fresh pledges created.fileId)
    (contract_judge fun _ _ fresh => fresh) fun _ => ?_
  exact .cleaningUp (fun _ => AllHeld pledges)
    (held_createFiles wellFormed empty) fun _ => held_undoCreation

end

/-- `create` up to its reservation: the record it returns, or the new one. -/
def admitCreation (service : Service Time) (env : Environment Time)
    (manifest : Manifest) : Action Time (Record Time ⊕ Record Time) := do
  let _ ← expireIncompleteLocked service env.sweep
  match ← get service env manifest.fileId with
  | some existing =>
    if existing.manifest ≠ manifest then
      raise (.conflict "encrypted file ID already has another manifest")
    else
      return .inl existing
  | none =>
    if service.maxPlaintextSize < manifest.plaintextSize then
      raise (.validation "plaintext_size exceeds configured maximum")
    else do
      let slot ← inspect fun world => world.slot manifest.fileId
      if slot.part.isSome ∨ slot.complete.isSome then
        raise (.conflict "encrypted file ID already has data")
      else
        match env.reservation with
        | some reason => raise (.quotaExceeded reason)
        | none =>
          return .inr
            { manifest := manifest
              status := .partial_
              receivedChunks := []
              createdAt := env.stamp
              updatedAt := env.stamp }

theorem create_eq (service : Service Time) (env : Environment Time) (manifest : Manifest) :
    create service env manifest = (do
      match ← admitCreation service env manifest with
      | .inl existing => return (existing, false)
      | .inr created =>
        createData service env created
        return (created, true)) := by
  unfold create admitCreation
  rw [bind_assoc]
  congr 1
  funext expired
  rw [bind_assoc]
  congr 1
  funext answer
  cases answer with
  | some existing =>
    dsimp only
    split <;> rfl
  | none =>
    dsimp only
    split
    · rfl
    rw [bind_assoc]
    congr 1
    funext slot
    split
    · rfl
    · cases env.reservation with
      | some | none => rfl

theorem held_admitCreation (manifest : Manifest) :
    Contract (AllHeld pledges) (AllHeld pledges)
      (admitCreation service env manifest)
      (fun answer world => AllHeld pledges world ∧
        ∀ created, answer = .inr created →
          (created.WellFormed created.fileId ∧ created.receivedChunks = []) ∧
            Focus (Held pledges) created.fileId (fun _ => Fresh pledges created.fileId) world)
      (fun _ => AllHeld pledges) := by
  refine .bind _ (held_expireIncompleteLocked _) fun _ => ?_
  refine .bind _ ((held_get fun _ held => held).weaken
    (fun _ => (everywhere_iff_focus manifest.fileId).mp) (fun _ _ focus => focus)
    fun _ _ raised => raised) fun answer => ?_
  cases answer with
  | some existing =>
    dsimp only
    split
    · exact held_raise fun _ _ found => found.1
    · exact .pure fun _ focus =>
        ⟨everywhere_of_focus focus fun _ _ found => found.1, nofun⟩
  | none =>
    dsimp only
    split
    · exact held_raise fun _ _ found => found.1
    refine .bind _ contract_slot fun slot => ?_
    split
    · exact held_raise fun _ _ found => found.1.1
    rename_i free
    cases env.reservation with
    | some reason =>
      exact held_raise fun _ _ found => found.1.1
    | none =>
      refine .pure fun world focus =>
        ⟨everywhere_of_focus focus fun _ _ found => found.1.1, ?_⟩
      rintro created same
      cases same
      refine ⟨⟨⟨rfl, by simp, List.Pairwise.nil, fun final => absurd rfl final,
        le_refl _⟩, rfl⟩, focus.imp ?_⟩
      rintro standing found ⟨⟨held, missing⟩, rfl⟩
      have absent : found.complete = none := by
        rw [not_or, Option.not_isSome_iff_eq_none, Option.not_isSome_iff_eq_none] at free
        exact free.2
      exact ⟨held, missing, absent⟩

theorem held_create (manifest : Manifest) : KeepsHeld pledges (create service env manifest) := by
  rw [create_eq]
  refine .bind _ (held_admitCreation manifest) fun answer => ?_
  cases answer with
  | inl existing => exact .pure fun _ admitted => admitted.1
  | inr created =>
    refine .learning (created.WellFormed created.fileId ∧ created.receivedChunks = [])
      (fun _ admitted => (admitted.2 created rfl).1) fun facts => ?_
    refine .bind _ ((held_createData facts.1 facts.2).weaken
      (fun _ admitted => (admitted.2 created rfl).2) (fun _ _ held => held)
      fun _ _ raised => raised) fun _ => .pure fun _ held => held

def Slot.ListsAll (pledges : List Pledge) (fileId : FileId) (slot : Slot Time) : Prop :=
  ∀ pledge ∈ pledges, pledge.fileId = fileId → slot.Lists pledge.chunk

structure Writing (pledges : List Pledge) (fileId : FileId) (record : Record Time)
    (data : Bytes) (slot : Slot Time) : Prop where
  held : HeldAt pledges fileId slot
  listed : slot.ListsAll pledges fileId
  journal_eq : slot.journal = some record
  part_eq : slot.part = some data
  complete_eq : slot.complete = none
  size : data.length = record.manifest.ciphertextSize

omit [LinearOrder Time] [Sub Time] in
theorem Slot.ListsAll.of_journal {record : Record Time}
    (listed : slot.ListsAll pledges fileId) (journaled : slot.journal = some record) :
    ∀ pledge ∈ pledges, pledge.fileId = fileId → pledge.chunk ∈ record.receivedChunks := by
  intro pledge member same
  obtain ⟨other, present, lists⟩ := listed pledge member same
  rw [journaled] at present
  cases present
  exact lists

omit [Sub Time] in
theorem Writing.overlay {record : Record Time} {data bytes : Bytes} {index : Nat}
    (writing : Writing pledges fileId record data slot)
    (inside : index < record.manifest.chunkCount)
    (length : bytes.length ≤ record.manifest.chunkLength index)
    (unlisted : ∀ chunk ∈ record.receivedChunks, chunk.index ≠ index) :
    Writing pledges fileId record
      (Region.overlay data (record.manifest.chunkOffset index) bytes)
      { slot with
        part := some (Region.overlay data (record.manifest.chunkOffset index) bytes) } := by
  have wellFormed := writing.held.wellFormed record writing.journal_eq
  have within := Manifest.chunkOffset_add_length_le inside
  rw [← writing.size] at within
  refine ⟨⟨writing.held.wellFormed, writing.held.unpublished, .inr writing.complete_eq, ?_⟩,
    writing.listed, writing.journal_eq, rfl, writing.complete_eq,
    (Region.length_overlay (by omega)).trans writing.size⟩
  intro pledge member same listed present stored has lists
  have sameRecord : record = listed := Option.some.inj (writing.journal_eq.symm.trans present)
  subst sameRecord
  rcases has with part | complete
  · cases part
    rw [(wellFormed.chunks _ lists).slice_overlay writing.size inside length (unlisted _ lists)]
    exact writing.held.pledged pledge member same record present data (.inl writing.part_eq) lists
  · cases writing.complete_eq.symm.trans complete

structure Acknowledged (pledges : List Pledge) (fileId : FileId) (offered : StoredChunk)
    (ciphertext : Bytes) (record : Record Time) (slot : Slot Time) : Prop where
  held : HeldAt pledges fileId slot
  journal_eq : slot.journal = some record
  listed : offered ∈ record.receivedChunks
  keeps : ∀ data, slot.HasData data → record.Keeps ⟨fileId, offered, ciphertext⟩ data

section

omit [Sub Time]

theorem Writing.acknowledge {record : Record Time} {offered : StoredChunk}
    {data ciphertext : Bytes}
    (writing : Writing pledges fileId record
      (Region.overlay data (record.manifest.chunkOffset offered.index) ciphertext) slot)
    (wellFormed : record.WellFormed fileId) (status : record.status = .partial_)
    (fits : offered.Fits record.manifest)
    (unlisted : ∀ chunk ∈ record.receivedChunks, chunk.index ≠ offered.index)
    (length : ciphertext.length = offered.length)
    (within : record.manifest.chunkOffset offered.index + ciphertext.length ≤ data.length)
    (now : Time) (count : Nat) :
    Acknowledged pledges fileId offered ciphertext (record.addChunk offered now)
      { slot with journal := some (record.addChunk offered now), temporaries := count } := by
  have only (stored : Bytes) (has : slot.HasData stored) :
      stored = Region.overlay data (record.manifest.chunkOffset offered.index) ciphertext := by
    rcases has with part | complete
    · exact Option.some.inj (part.symm.trans writing.part_eq)
    · cases writing.complete_eq.symm.trans complete
  refine ⟨writing.held.replaceJournal (wellFormed.addChunk now status fits unlisted)
    (fun _ => writing.complete_eq) ?_ count, rfl,
    mem_sortChunks.mpr (List.mem_append_right _ (List.mem_singleton_self _)), ?_⟩
  · intro pledge member same stored has lists
    have listed := writing.listed.of_journal writing.journal_eq pledge member same
    exact writing.held.pledged pledge member same record writing.journal_eq stored has listed
  · intro stored has _
    rw [only stored has, ← length]
    exact Region.slice_overlay_same within

theorem held_storeChunk {record : Record Time} {offered : StoredChunk}
    {ciphertext : Bytes} (data : Option Bytes) (wellFormed : record.WellFormed fileId)
    (status : record.status = .partial_) (fits : offered.Fits record.manifest)
    (unlisted : ∀ chunk ∈ record.receivedChunks, chunk.index ≠ offered.index)
    (length : ciphertext.length = offered.length) :
    Contract (AllHeld pledges)
      (Focus (Held pledges) fileId fun _ slot => HeldAt pledges fileId slot ∧
        slot.ListsAll pledges fileId ∧ slot.journal = some record ∧ slot.part = data)
      (storeChunk service env record offered ciphertext data)
      (fun result => Focus (Held pledges) fileId fun _ =>
        Acknowledged pledges fileId offered ciphertext result.1)
      (fun _ => AllHeld pledges) := by
  have exactLength : ciphertext.length = record.manifest.chunkLength offered.index :=
    length.trans fits.length_eq
  have tornLength : (env.torn.take ciphertext.length).length ≤
      record.manifest.chunkLength offered.index := by
    rw [← exactLength]
    exact List.length_take_le ..
  unfold storeChunk
  cases data with
  | none => exact held_raise fun _ _ here => here.1
  | some data =>
    dsimp only
    split
    · exact held_raise fun _ _ here => here.1
    rename_i size
    rw [show record.fileId = fileId from wellFormed.fileId_eq]
    have within := Manifest.chunkOffset_add_length_le fits.inside
    rw [← exactLength, ← not_not.mp size] at within
    let written := Region.overlay data (record.manifest.chunkOffset offered.index) ciphertext
    have write : Contract (AllHeld pledges)
        (Focus (Held pledges) fileId fun _ => Writing pledges fileId record data)
        (tearable
          (World.modify fileId fun slot : Slot Time =>
            { slot with
              part := some (Region.overlay data (record.manifest.chunkOffset offered.index)
                (env.torn.take ciphertext.length)) })
          (World.modify fileId fun slot : Slot Time => { slot with part := some written }))
        (fun _ => Focus (Held pledges) fileId fun _ =>
          Writing pledges fileId record written)
        (fun _ : StorageError => AllHeld pledges) :=
      contract_tornChange (fun _ _ _ held => held)
        (fun _ _ writing => (Writing.overlay writing fits.inside tornLength unlisted).held)
        (fun _ _ writing => (Writing.overlay writing fits.inside exactLength.le unlisted).held)
        fun _ _ writing => writing.overlay fits.inside exactLength.le unlisted
    refine .bind _ (write.weaken (fun _ focus => focus.imp ?_)
      (fun _ _ focus => focus) fun _ _ raised => raised) fun _ => ?_
    · rintro _ slot ⟨held, listed, journaled, part⟩
      exact ⟨held, listed, journaled, part, held.unpublished record journaled status,
        not_not.mp size⟩
    have journaled : Contract (AllHeld pledges)
        (Focus (Held pledges) fileId fun _ => Writing pledges fileId record written)
        (writeState service (record.addChunk offered env.stamp))
        (fun _ => Focus (Held pledges) fileId fun _ =>
          Acknowledged pledges fileId offered ciphertext (record.addChunk offered env.stamp))
        (fun _ => AllHeld pledges) := by
      refine contract_writeJournal (fun _ _ _ held => held)
        (wellFormed.addChunk env.stamp status fits unlisted) ?_
        (fun _ _ writing => Writing.held writing)
        (fun _ _ acknowledged => Acknowledged.held acknowledged) ?_
      · exact fun _ _ count writing => ⟨writing.held.temporaries count, writing.listed,
          writing.journal_eq, writing.part_eq, writing.complete_eq, writing.size⟩
      · exact fun _ _ count writing => writing.acknowledge wellFormed status fits unlisted
          length within _ count
    exact .bind _ journaled fun _ => .pure fun _ focus => focus

end

omit [LinearOrder Time] [Sub Time] in
theorem dataOfRecord_hasData {record : Record Time} {data : Bytes}
    (found : dataOfRecord record slot = some data) : slot.HasData data := by
  unfold dataOfRecord at found
  cases status : record.status with
  | partial_ =>
    rw [status] at found
    exact .inl found
  | committing | complete =>
    rw [status] at found
    exact .inr found

section

omit [Sub Time]

theorem HeldAt.hasData_unique (held : HeldAt pledges fileId slot) {data other : Bytes}
    (here : slot.HasData data) (there : slot.HasData other) : data = other := by
  rcases here with part | complete
  · rcases there with again | complete
    · exact Option.some.inj (part.symm.trans again)
    rcases held.apart with absent | absent
    · cases absent.symm.trans part
    · cases absent.symm.trans complete
  · rcases there with part | again
    · rcases held.apart with absent | absent
      · cases absent.symm.trans part
      · cases absent.symm.trans complete
    · exact Option.some.inj (complete.symm.trans again)

theorem held_confirmChunk {record : Record Time} {existing offered : StoredChunk}
    {ciphertext : Bytes} (found : Slot Time) (listed : existing ∈ record.receivedChunks) :
    Contract (AllHeld pledges)
      (Focus (Held pledges) fileId fun _ slot =>
        (HeldAt pledges fileId slot ∧ slot.journal = some record) ∧ slot = found)
      (confirmChunk record existing offered ciphertext (dataOfRecord record found))
      (fun result => Focus (Held pledges) fileId fun _ =>
        Acknowledged pledges fileId offered ciphertext result.1)
      (fun _ => AllHeld pledges) := by
  unfold confirmChunk
  split
  · exact held_raise fun _ _ here => here.1.1
  rename_i data stored
  dsimp only
  split
  · exact held_raise fun _ _ here => here.1.1
  split
  · case isTrue same =>
      refine .pure fun _ focus => focus.imp ?_
      rintro _ slot ⟨⟨held, journaled⟩, rfl⟩
      refine ⟨held, journaled, same.1 ▸ listed, fun other has _ => ?_⟩
      rw [← held.hasData_unique (dataOfRecord_hasData stored) has]
      exact same.2
  · exact held_raise fun _ _ here => here.1.1

end

theorem held_writeChunk (index : Int) (ciphertext resumeMac : Bytes) :
    Contract (AllHeld pledges)
      (Focus (Held pledges) fileId fun _ slot =>
        HeldAt pledges fileId slot ∧ slot.ListsAll pledges fileId)
      (writeChunk service env fileId index ciphertext resumeMac)
      (fun result => Focus (Held pledges) fileId fun _ =>
        Acknowledged pledges fileId
          (offeredChunk service index.toNat ciphertext resumeMac) ciphertext result.1)
      (fun _ => AllHeld pledges) := by
  unfold writeChunk
  split
  · exact held_raise fun _ _ here => here.1
  refine .bind _ (held_requireFile fun _ here => here.1) fun record => ?_
  refine .bind (fun expectedLength world =>
    record.manifest.encryptedChunkLength index = .ok expectedLength ∧
      Focus (Held pledges) fileId (fun _ slot => (HeldAt pledges fileId slot ∧
        slot.ListsAll pledges fileId) ∧ slot.journal = some record) world)
    (.lift (fun _ found _ focus => ⟨found, focus⟩)
      fun _ _ _ focus => everywhere_of_focus focus fun _ _ here => here.1.1)
    fun expectedLength => ?_
  refine .assuming fun lengthEq => ?_
  obtain ⟨position, rfl, inside, expectedEq⟩ := Manifest.encryptedChunkLength_eq_ok lengthEq
  split
  · exact held_raise fun _ _ here => here.1.1
  rename_i macLength sameLength
  refine .bind _ contract_slot fun found => ?_
  rw [Int.toNat_natCast]
  refine .learning (record.WellFormed fileId)
    (fun _ focus => focus.2.1.1.1.wellFormed record focus.2.1.2) fun wellFormed => ?_
  cases search : record.receivedChunks.find? fun chunk =>
      chunk.index = (offeredChunk service position ciphertext resumeMac).index with
  | some existing =>
    exact (held_confirmChunk found (List.mem_of_find?_eq_some search)).weaken
      (fun _ focus => focus.imp fun _ _ here => ⟨⟨here.1.1.1, here.1.2⟩, here.2⟩)
      (fun _ _ returned => returned) fun _ _ raised => raised
  | none =>
    have unlisted : ∀ chunk ∈ record.receivedChunks, chunk.index ≠ position := by
      intro chunk member same
      have absent := List.find?_eq_none.mp search chunk member
      simp [offeredChunk, same] at absent
    dsimp only
    split
    · exact .raise fun _ focus =>
        everywhere_of_focus focus fun _ _ here => here.1.1.1
    rename_i writable
    have status : record.status = .partial_ := not_not.mp writable
    have fits : (offeredChunk service position ciphertext resumeMac).Fits record.manifest :=
      ⟨inside, (not_not.mp sameLength).trans expectedEq, not_not.mp macLength,
        service.sha256_length _⟩
    refine (held_storeChunk _ wellFormed status fits unlisted rfl).weaken
      (fun _ focus => focus.imp ?_) (fun _ _ returned => returned)
      fun _ _ raised => raised
    rintro _ slot ⟨⟨⟨held, listed⟩, journaled⟩, rfl⟩
    exact ⟨held, listed, journaled, by rw [dataOfRecord, status]⟩

def Recorded (pledges : List Pledge) (fileId : FileId) (record : Record Time)
    (slot : Slot Time) : Prop :=
  HeldAt pledges fileId slot ∧ slot.journal = some record

abbrev HoldsRecord (pledges : List Pledge) (fileId : FileId) (record : Record Time) :
    World Time → Prop :=
  Focus (Held pledges) fileId fun _ => Recorded pledges fileId record

section

omit [Sub Time]

theorem held_publishDataFile {record : Record Time} (sameId : record.fileId = fileId)
    (status : record.status = .committing) :
    Contract (AllHeld pledges) (HoldsRecord pledges fileId record)
      (publishDataFile record)
      (fun _ => HoldsRecord pledges fileId record)
      (fun _ => AllHeld pledges) := by
  have checked (data : Option Bytes) (size : Nat) :
      Contract (AllHeld pledges) (HoldsRecord pledges fileId record)
        (lift (validateDataFile data size) : Action Time Unit)
        (fun _ => HoldsRecord pledges fileId record)
        (fun _ => AllHeld pledges) :=
    .lift (fun _ _ _ focus => focus)
      fun _ _ _ focus => everywhere_of_focus focus fun _ _ here => here.1
  unfold publishDataFile
  rw [sameId]
  refine .bind (fun _ => HoldsRecord pledges fileId record)
    (.inspect fun _ focus => focus) fun found => ?_
  split
  · exact held_raise fun _ _ here => here.1
  · refine .bind _ (checked _ _) fun _ => ?_
    exact held_change (fun _ _ here => here.1.rename here.2 status)
      fun _ _ here => ⟨here.1.rename here.2 status, here.2⟩
  · exact checked _ _
  · exact held_raise fun _ _ here => here.1

theorem held_advance {record : Record Time} {next : Status} {now : Time}
    (wellFormed : record.WellFormed fileId)
    (all : record.receivedChunks.length = record.manifest.chunkCount)
    (published : next ≠ .partial_) :
    let advanced : Record Time :=
      { record with status := next, updatedAt := max record.updatedAt now }
    Contract (AllHeld pledges) (HoldsRecord pledges fileId record)
      (writeState service advanced)
      (fun _ => HoldsRecord pledges fileId advanced)
      (fun _ => AllHeld pledges) := by
  refine contract_writeJournal (fun _ _ _ held => held) (wellFormed.finish all)
    (fun _ _ count here => ⟨here.1.temporaries count, here.2⟩) (fun _ _ here => And.left here)
    (fun _ _ here => And.left here) ?_
  rintro _ slot count ⟨held, journaled⟩
  refine ⟨held.replaceJournal (wellFormed.finish all) (fun same => absurd same published) ?_
    count, rfl⟩
  exact fun pledge member same data has => held.pledged pledge member same record journaled data has

theorem held_publishCommittingLocked {record : Record Time} (now : Time)
    (wellFormed : record.WellFormed fileId) (status : record.status = .committing) :
    Contract (AllHeld pledges) (HoldsRecord pledges fileId record)
      (publishCommittingLocked service now record) (fun _ => AllHeld pledges)
      (fun _ => AllHeld pledges) := by
  refine .bind _ (held_publishDataFile wellFormed.fileId_eq status) fun _ => ?_
  refine .bind _ (held_advance wellFormed (wellFormed.final (by simp [status]))
    (by simp)) fun _ => ?_
  exact .pure fun _ focus => everywhere_of_focus focus fun _ _ here => here.1

theorem held_beginCommit {record : Record Time} (wellFormed : record.WellFormed fileId)
    (notComplete : record.status ≠ .complete)
    (all : record.receivedChunks.length = record.manifest.chunkCount) :
    Contract (AllHeld pledges) (HoldsRecord pledges fileId record)
      (beginCommit service env record)
      (fun committing world => (committing.WellFormed fileId ∧ committing.status = .committing) ∧
        HoldsRecord pledges fileId committing world)
      (fun _ => AllHeld pledges) := by
  unfold beginCommit
  cases status : record.status with
  | partial_ =>
    refine .bind _ (held_advance wellFormed all (by simp)) fun _ => ?_
    exact .pure fun _ focus => ⟨⟨wellFormed.finish all, rfl⟩, focus⟩
  | committing => exact .pure fun _ focus => ⟨⟨wellFormed, status⟩, focus⟩
  | complete => exact absurd status notComplete

end

theorem held_complete : KeepsHeld pledges (complete service env fileId) := by
  refine .bind _ ((held_requireFile fun _ held => held).weaken
    (fun _ => (everywhere_iff_focus fileId).mp) (fun _ _ focus => focus)
    fun _ _ raised => raised) fun record => ?_
  split
  · exact .pure fun _ focus => everywhere_of_focus focus fun _ _ here => here.1
  rename_i notComplete
  split
  · exact held_raise fun _ _ here => here.1
  rename_i all
  refine .learning (record.WellFormed fileId)
    (fun _ focus => focus.2.1.wellFormed record focus.2.2) fun wellFormed => ?_
  refine .bind _ (held_beginCommit wellFormed notComplete (not_not.mp all))
    fun committing => ?_
  refine .assuming fun facts => ?_
  refine .bind _ (held_publishCommittingLocked _ facts.1 facts.2) fun _ => ?_
  exact .pure fun _ held => held

section

omit [Sub Time]

theorem held_removeRecordArtifacts :
    Contract (AllHeld pledges) (AllHeld pledges)
      (removeRecordArtifacts fileId : Action Time Unit) (fun _ => AllHeld pledges)
      raises := by
  refine .bind _ (held_unlink fun _ held => held.unlinkPart) fun _ => ?_
  refine .bind _ (held_unlink fun _ held => held.unlinkComplete) fun _ => ?_
  exact held_unlink fun _ held => held.unlinkState

theorem held_reconcileRecord {record : Record Time} (wellFormed : record.WellFormed fileId) :
    Contract (AllHeld pledges) (HoldsRecord pledges fileId record)
      (reconcileRecord service env record) (fun _ => AllHeld pledges)
      (fun _ => AllHeld pledges) := by
  have settles : ∀ world, HoldsRecord pledges fileId record world → AllHeld pledges world :=
    fun _ focus => everywhere_of_focus focus fun _ _ here => here.1
  have checked (data : Option Bytes) (size : Nat) :
      Contract (AllHeld pledges) (HoldsRecord pledges fileId record)
        (lift (validateDataFile data size) >>= fun _ => pure record : Action Time (Record Time))
        (fun _ => AllHeld pledges) (fun _ => AllHeld pledges) :=
    .bind (fun _ => AllHeld pledges)
      (.lift (fun _ _ => settles) fun _ _ => settles)
      fun _ => .pure fun _ held => held
  refine .bind (fun _ => HoldsRecord pledges fileId record)
    (.inspect fun _ focus => focus) fun found => ?_
  cases status : record.status with
  | partial_ | complete =>
    dsimp only
    split
    · exact .raise settles
    · exact checked _ _
  | committing => exact held_publishCommittingLocked _ wellFormed status

theorem held_reconcileJournal : KeepsHeld pledges (reconcileJournal service env fileId) := by
  refine .catching (fun _ => AllHeld pledges) ?_ (fun _ _ => ?_)
    fun _ _ _ held => held
  · refine .bind _ ((held_readState fun _ held => held).weaken
      (fun _ => (everywhere_iff_focus fileId).mp) (fun _ _ focus => focus)
      fun _ _ raised => raised) fun record => ?_
    refine .learning (record.WellFormed fileId)
      (fun _ focus => focus.2.1.wellFormed record focus.2.2) fun wellFormed => ?_
    exact .bind _ (held_reconcileRecord wellFormed) fun _ =>
      .pure fun _ held => held
  · exact .bind _ held_removeRecordArtifacts fun _ => .pure fun _ held => held

theorem held_reconcileJournals (fileIds : List FileId) :
    KeepsHeld pledges (reconcileJournals service env fileIds) := by
  induction fileIds with
  | nil => exact .pure fun _ held => held
  | cons fileId rest ih =>
    exact .bind _ held_reconcileJournal fun _ =>
      .bind _ ih fun _ => .pure fun _ held => held

theorem held_sweepData (expected names : List DataName) :
    KeepsHeld pledges (sweepData expected names : Action Time Unit) := by
  refine .forEach (fun _ => AllHeld pledges) (fun name rest => ?_) names
  split
  · exact .pure fun _ held => held
  · cases name with
    | part fileId => exact held_unlink fun _ held => held.unlinkPart
    | complete fileId => exact held_unlink fun _ held => held.unlinkComplete

end

theorem held_startUp : KeepsHeld pledges (startUp service env) := by
  have everywhere {α : Type} (view : World Time → α) :
      KeepsHeld pledges (inspect view : Action Time α) := Contract.inspect fun _ held => held
  refine .bind (fun _ => AllHeld pledges) ?_ fun _ => ?_
  · refine .bind _ (everywhere _) fun known => ?_
    refine .bind _ (.forEach (fun _ => AllHeld pledges)
      (fun _ _ => held_unlink fun _ held => held.temporaries 0) known) fun _ => ?_
    refine .bind _ (everywhere _) fun fileIds => ?_
    refine .bind _ (held_reconcileJournals fileIds) fun expected => ?_
    exact .bind _ (everywhere _) fun names => held_sweepData expected names
  · exact .bind _ (held_expireIncompleteLocked _) fun _ =>
      .pure fun _ held => held

end Contracts

end XFerry.Encrypted
