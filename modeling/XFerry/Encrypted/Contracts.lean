/-
Contracts of the single operations, up to the writing operations.

Each contract says what an operation may pass through (states a crash can leave),
what it returns in, and that whatever it raises leaves every item settled.
-/

import XFerry.Encrypted.Invariant

namespace XFerry.Encrypted

open CrashProgram Program List

variable {Time : Type} [LinearOrder Time] [Sub Time]
  {service : Service Time} {frame : ItemProperty Time} {fileId : FileId}
  {raises : StorageError → World Time → Prop}

variable {record : Record Time} {world : World Time}

omit [Sub Time] in
theorem readState_eq (journaled : (world.slot fileId).journal = some record)
    (wellFormed : record.WellFormed fileId) :
    readState service fileId world = { passed := [], world := world, result := .ok record } := by
  have fits := length_recordToJson_le service.timeText_length wellFormed
  have notLong : ¬ maxStateBytes < (recordToJson service.timeText record).length := by omega
  simp only [readState, bind, andThen, Program.inspect, journaled, if_neg notLong, lift,
    decodeState_of_wellFormed wellFormed, returning, nil_append]

variable {before : Standing Time → Slot Time → Prop}

theorem contract_readState (journaled : ∀ standing slot, before standing slot →
      ∃ record, slot.journal = some record ∧ record.WellFormed fileId) :
    Contract (Sound service) (Focus frame fileId before) (readState service fileId)
      (fun record => Focus frame fileId fun standing slot =>
        before standing slot ∧ slot.journal = some record)
      raises := by
  intro world focus
  obtain ⟨record, present, wellFormed⟩ := journaled _ _ focus.2
  rw [readState_eq present wellFormed]
  exact ⟨by simp, focus.1, focus.2, present⟩

variable {before after : Standing Time → Slot Time → Prop}

omit [Sub Time] in
theorem contract_writeJournal {sound frame : ItemProperty Time}
    (safe : ∀ other standing slot, frame other standing slot → sound other standing slot)
    (wellFormed : record.WellFormed fileId)
    (ignored : ∀ standing slot temporaries, before standing slot →
      before standing { slot with temporaries := temporaries })
    (here : ∀ standing slot, before standing slot → sound fileId standing slot)
    (kept : ∀ standing slot, after standing slot → sound fileId standing slot)
    (holds : ∀ standing slot temporaries, before standing slot →
      after standing { slot with journal := some record, temporaries := temporaries }) :
    Contract (Everywhere sound) (Focus frame fileId before) (writeState service record)
      (fun _ => Focus frame fileId after) raises := by
  have fits := length_recordToJson_le service.timeText_length wellFormed
  have sameId : record.fileId = fileId := wellFormed.fileId_eq
  unfold writeState
  rw [if_neg (by omega), sameId]
  refine .bind (fun _ => Focus frame fileId before) ?_ fun _ => ?_
  · exact contract_change safe
      (fun standing slot holds => here _ _ (ignored standing slot _ holds))
      (fun standing slot holds => ignored standing slot _ holds)
  · exact contract_change safe
      (fun standing slot before => kept _ _ (holds standing slot _ before))
      (fun standing slot before => holds standing slot _ before)

theorem contract_writeState
    (safe : ItemProperty.Safe service frame) (wellFormed : record.WellFormed fileId)
    (ignored : ∀ standing slot temporaries, before standing slot →
      before standing { slot with temporaries := temporaries })
    (sound : ∀ standing slot, before standing slot → SoundAt service fileId standing slot)
    (kept : ∀ standing slot, after standing slot → SoundAt service fileId standing slot)
    (holds : ∀ standing slot temporaries, before standing slot →
      after standing { slot with journal := some record, temporaries := temporaries }) :
    Contract (Sound service) (Focus frame fileId before) (writeState service record)
      (fun _ => Focus frame fileId after) raises :=
  contract_writeJournal safe wellFormed ignored sound kept holds

structure Leaving (service : Service Time) (fileId : FileId) (standing : Standing Time) : Prop where
  removing : standing.removing = true
  released : standing.Released service fileId

structure Marked (service : Service Time) (fileId : FileId) (standing : Standing Time)
    (slot : Slot Time) : Prop where
  leaving : Leaving service fileId standing
  settled : SettledAt service fileId standing slot

structure PartUnlinked (service : Service Time) (fileId : FileId) (standing : Standing Time)
    (slot : Slot Time) : Prop where
  leaving : Leaving service fileId standing
  part_eq : slot.part = none
  sound : SoundAt service fileId standing slot

structure DataUnlinked (service : Service Time) (fileId : FileId) (standing : Standing Time)
    (slot : Slot Time) : Prop where
  leaving : Leaving service fileId standing
  part_eq : slot.part = none
  complete_eq : slot.complete = none
  sound : SoundAt service fileId standing slot

structure Removed (service : Service Time) (fileId : FileId) (standing : Standing Time)
    (slot : Slot Time) : Prop where
  released : standing.Released service fileId
  absent : slot.Absent

variable {standing : Standing Time} {slot : Slot Time}

theorem Removed.settled (removed : Removed service fileId standing slot) :
    SettledAt service fileId standing slot :=
  .released removed.released removed.absent

theorem SettledAt.removed_of_journal (settled : SettledAt service fileId standing slot)
    (missing : slot.journal = none) : Removed service fileId standing slot := by
  cases settled with
  | kept record kept =>
    rw [kept.intact.journal_eq] at missing
    cases missing
  | released released absent => exact ⟨released, absent⟩

theorem Marked.unlinkPart (marked : Marked service fileId standing slot) :
    PartUnlinked service fileId standing { slot with part := none } := by
  refine ⟨marked.leaving, rfl, ?_⟩
  cases marked.settled with
  | released released absent =>
    exact .settled (.released released ⟨absent.journal_eq, rfl, absent.complete_eq⟩)
  | kept record kept =>
    obtain ⟨data, placed, backed⟩ := kept.intact.data
    cases present : slot.complete with
    | none =>
      exact .leaving marked.leaving.removing marked.leaving.released
        ⟨⟨record, kept.intact.journal_eq, kept.intact.wellFormed⟩, rfl, rfl⟩
    | some stored =>
      -- A second data file exists only where the `.part` file does not.
      have elsewhere : Placed none (some stored) data record.status := by
        cases status : record.status with
        | partial_ =>
          rw [status, present] at placed
          cases placed.2
        | committing =>
          rw [status, present] at placed
          rcases placed with ⟨_, missing⟩ | ⟨_, stays⟩
          · cases missing
          · exact .inr ⟨rfl, stays⟩
        | complete =>
          rw [status, present] at placed
          exact ⟨rfl, placed.2⟩
      exact .settled (.kept record
        ⟨⟨kept.intact.journal_eq, kept.intact.wellFormed, data, elsewhere, backed⟩,
          kept.allows⟩)

theorem PartUnlinked.unlinkComplete (unlinked : PartUnlinked service fileId standing slot) :
    DataUnlinked service fileId standing { slot with complete := none } := by
  refine ⟨unlinked.leaving, unlinked.part_eq, rfl, ?_⟩
  cases unlinked.sound with
  | settled settled =>
    cases settled with
    | released released absent =>
      exact .settled (.released released ⟨absent.journal_eq, absent.part_eq, rfl⟩)
    | kept record kept =>
      exact .leaving unlinked.leaving.removing unlinked.leaving.released
        ⟨⟨record, kept.intact.journal_eq, kept.intact.wellFormed⟩, unlinked.part_eq, rfl⟩
  | orphan released orphan =>
    exact .settled (.released released ⟨orphan.journal_eq, unlinked.part_eq, rfl⟩)
  | leaving removing released half =>
    exact .leaving removing released ⟨half.journal, half.part_eq, rfl⟩

theorem DataUnlinked.unlinkState (unlinked : DataUnlinked service fileId standing slot) :
    Removed service fileId standing { slot with journal := none } :=
  ⟨unlinked.leaving.released, rfl, unlinked.part_eq, unlinked.complete_eq⟩

theorem contract_deleteLocked {cause : Cause Time} (safe : ItemProperty.Safe service frame)
    (settled : ∀ standing slot, before standing slot → SettledAt service fileId standing slot)
    (justified : ∀ standing slot, before standing slot → Removal.Justified service fileId
      { cause := cause, completed := standing.completed }) :
    Contract (Sound service) (Focus frame fileId before) (deleteLocked fileId cause)
      (fun _ => Focus frame fileId (Removed service fileId)) raises := by
  refine .bind _ contract_slot fun found => ?_
  refine .bind (fun _ => Focus frame fileId (Marked service fileId)) ?_ fun _ => ?_
  · apply contract_judge
    rintro standing slot ⟨holds, _⟩
    have cleared := justified standing slot holds
    cases settled standing slot holds with
    | kept record kept =>
      have removals := Standing.Allows.beginRemoval kept.allows.justified cleared
      exact ⟨⟨rfl, removals, rfl⟩, .kept record
        ⟨kept.intact, removals, by simp [Standing.beginRemoval],
          by simp [Standing.beginRemoval, Standing.completed]⟩⟩
    | released released absent =>
      have removals := Standing.Allows.beginRemoval released.justified cleared
      exact ⟨⟨rfl, removals, rfl⟩, .released ⟨removals, rfl⟩ absent⟩
  refine .bind (fun _ => Focus frame fileId (PartUnlinked service fileId)) ?_ fun _ => ?_
  · exact contract_modify safe (fun _ _ marked => marked.unlinkPart.sound)
      fun _ _ marked => marked.unlinkPart
  refine .bind (fun _ => Focus frame fileId (DataUnlinked service fileId)) ?_ fun _ => ?_
  · exact contract_modify safe (fun _ _ unlinked => unlinked.unlinkComplete.sound)
      fun _ _ unlinked => unlinked.unlinkComplete
  refine .bind (fun _ => Focus frame fileId (Removed service fileId)) ?_ fun _ => ?_
  · exact contract_modify safe (fun _ _ unlinked => unlinked.unlinkState.settled.sound)
      fun _ _ unlinked => unlinked.unlinkState
  exact .pure fun _ focus => focus

theorem contract_of_focus {α : Type} (fileId : FileId) {program : Action Time α}
    {returns : α → World Time → Prop}
    (contract : Contract (Sound service) (Focus frame fileId (frame fileId)) program
      returns raises) :
    Contract (Sound service) (Everywhere frame) program returns raises :=
  fun world everywhere => contract world ((everywhere_iff_focus fileId).mp everywhere)

theorem settled_of_focus {property : Standing Time → Slot Time → Prop}
    (focus : Focus (SettledAt service) fileId property world)
    (settled : ∀ standing slot, property standing slot → SettledAt service fileId standing slot) :
    Settled service world :=
  (everywhere_iff_focus fileId).mpr ⟨focus.1, settled _ _ focus.2⟩

def Looked (service : Service Time) (fileId : FileId) (answer : Option (Record Time))
    (standing : Standing Time) (slot : Slot Time) : Prop :=
  match answer with
  | none => Removed service fileId standing slot
  | some record => Kept service fileId record standing slot

theorem contract_get (env : Environment Time) :
    Contract (Sound service) (Settled service) (get service env fileId)
      (fun answer => Focus (SettledAt service) fileId (Looked service fileId answer)) raises := by
  have safe := ItemProperty.safe_settledAt service
  apply contract_of_focus fileId
  refine .bind _ contract_slot fun found => ?_
  cases journal : found.journal with
  | none =>
    refine .pure fun world focus => focus.imp ?_
    rintro standing slot ⟨settled, rfl⟩
    exact settled.removed_of_journal journal
  | some stored =>
    refine .bind _ (contract_readState ?_) fun record => ?_
    · rintro standing slot ⟨settled, rfl⟩
      have kept := settled.kept_of_journal journal
      exact ⟨stored, journal, kept.intact.wellFormed⟩
    · by_cases idle : record.status = .partial_ ∧ isIdle service env.lookup record = true
      · rw [if_pos idle]
        refine .bind _ (contract_deleteLocked safe ?_ ?_) fun _ => ?_
        · exact fun _ _ holds => holds.1.1
        · rintro standing slot ⟨⟨settled, _⟩, present⟩
          have kept := settled.kept_of_journal present
          refine ⟨kept.intact.wellFormed.fileId_eq, idle.1, idle.2, ?_⟩
          by_contra acknowledged
          have final := kept.allows.status (by simpa using acknowledged)
          rw [idle.1] at final
          cases final
        · exact .pure fun _ focus => focus
      · rw [if_neg idle]
        refine .pure fun world focus => focus.imp ?_
        rintro standing slot ⟨⟨settled, _⟩, present⟩
        exact settled.kept_of_journal present

theorem contract_requireFile (env : Environment Time) :
    Contract (Sound service) (Settled service) (requireFile service env fileId)
      (fun record => Focus (SettledAt service) fileId (Kept service fileId record))
      (fun _ => Settled service) := by
  refine .bind _ (contract_get env) fun answer => ?_
  cases answer with
  | none =>
    exact .raise fun _ focus =>
      settled_of_focus focus fun _ _ removed => removed.settled
  | some record => exact .pure fun _ focus => focus

/-- The records are those of the journals, each journal once. -/
structure Listing (records : List (Record Time)) (world : World Time) : Prop where
  distinct : (records.map Record.fileId).Nodup
  journal_eq : ∀ record ∈ records, (world.slot record.fileId).journal = some record

theorem readStates_eq (settled : Settled service world) {fileIds : List FileId}
    (journaled : ∀ fileId ∈ fileIds, (world.slot fileId).journal.isSome = true) :
    ∃ records, readStates service fileIds world =
        { passed := [], world := world, result := .ok records } ∧
      records.map Record.fileId = fileIds ∧
      ∀ record ∈ records, (world.slot record.fileId).journal = some record := by
  induction fileIds with
  | nil => exact ⟨[], rfl, rfl, by simp⟩
  | cons fileId rest ih =>
    obtain ⟨records, restEq, idsEq, journals⟩ :=
      ih fun other member => journaled other (mem_cons_of_mem _ member)
    obtain ⟨record, present⟩ := Option.isSome_iff_exists.mp (journaled fileId (mem_cons_self ..))
    have wellFormed := ((settled fileId).kept_of_journal present).intact.wellFormed
    have sameId : record.fileId = fileId := wellFormed.fileId_eq
    refine ⟨record :: records, ?_, by simp [sameId, idsEq], ?_⟩
    · simp only [readStates, bind, andThen, readState_eq present wellFormed, restEq]
      rfl
    · intro other member
      rcases mem_cons.mp member with rfl | later
      · rw [sameId]
        exact present
      · exact journals other later

theorem contract_listFilesLocked (status : Option Status) :
    Contract (Sound service) (Settled service) (listFilesLocked service status)
      (fun records world => (∀ record ∈ records, status = none ∨ status = some record.status) ∧
        Settled service world ∧ Listing records world) raises := by
  intro world settled
  obtain ⟨records, readEq, idsEq, journals⟩ := readStates_eq settled
    fun fileId member => (Disk.mem_journalIds.mp member : (world.disk.slot fileId).journal.isSome)
  have distinct : (records.map Record.fileId).Nodup := by
    rw [idsEq]
    exact world.disk.nodup_journalIds
  simp only [listFilesLocked, bind, andThen, Program.inspect, readEq, Pure.pure, returning,
    append_nil, not_mem_nil, false_implies, implies_true, true_and]
  refine ⟨?_, settled, ?_, ?_⟩
  · simp
  · exact (filter_sublist.map Record.fileId).nodup distinct
  · intro record member
    exact journals record (mem_filter.mp member).1

def Pending (service : Service Time) (records : List (Record Time)) : ItemProperty Time :=
  fun fileId standing slot => SettledAt service fileId standing slot ∧
    ∀ record ∈ records, record.fileId = fileId → slot.journal = some record

theorem contract_expire {current : Time} {rest : List (Record Time)}
    (distinct : record.fileId ∉ rest.map Record.fileId) (status : record.status = .partial_)
    (idle : isIdle service current record = true) :
    Contract (Sound service) (Everywhere (Pending service (record :: rest)))
      (deleteLocked record.fileId (.expired record current))
      (fun _ => Everywhere (Pending service rest)) raises := by
  have safe : ItemProperty.Safe service (Pending service rest) :=
    fun _ _ _ pending => pending.1.sound
  have narrowed : ∀ world, Everywhere (Pending service (record :: rest)) world →
      Focus (Pending service rest) record.fileId (fun standing slot =>
        SettledAt service record.fileId standing slot ∧ slot.journal = some record) world := by
    intro world pending
    refine ⟨fun other _ => ⟨(pending other).1, fun later member =>
      (pending other).2 later (mem_cons_of_mem _ member)⟩, (pending _).1, ?_⟩
    exact (pending _).2 record (mem_cons_self ..) rfl
  have widened : ∀ world, Focus (Pending service rest) record.fileId
      (Removed service record.fileId) world → Everywhere (Pending service rest) world := by
    intro world focus
    refine (everywhere_iff_focus record.fileId).mpr ⟨focus.1, focus.2.settled, ?_⟩
    intro later member sameId
    exact absurd (sameId ▸ mem_map_of_mem member) distinct
  refine (contract_deleteLocked safe (fun _ _ holds => holds.1) ?_).weaken narrowed
    (fun _ => widened) fun _ _ raised => raised
  rintro standing slot ⟨settled, present⟩
  refine ⟨rfl, status, idle, ?_⟩
  by_contra acknowledged
  have final := (settled.kept_of_journal present).allows.status (by simpa using acknowledged)
  rw [status] at final
  cases final

def Sweeping (service : Service Time) (current : Time) (rest : List (Record Time))
    (world : World Time) : Prop :=
  ((rest.map Record.fileId).Nodup ∧
      ∀ record ∈ rest, record.status = .partial_ ∧ isIdle service current record = true) ∧
    Everywhere (Pending service rest) world

theorem contract_expireIncompleteLocked (current : Time) :
    Contract (Sound service) (Settled service) (expireIncompleteLocked service current)
      (fun _ => Settled service) raises := by
  refine .bind _ (contract_listFilesLocked (some .partial_)) fun records => ?_
  refine .assuming fun statuses => ?_
  refine .bind (fun _ => Sweeping service current []) ?_ fun _ =>
    .pure fun world done fileId => (done.2 fileId).1
  refine (Contract.forEach (Sweeping service current) ?_ _).weaken ?_
    (fun _ _ done => done) fun _ _ raised => raised
  · intro record rest
    refine Contract.assuming fun facts => ?_
    have parts := nodup_cons.mp facts.1
    have here := facts.2 record (mem_cons_self ..)
    refine .bind _ (contract_expire parts.1 here.1 here.2) fun _ => ?_
    exact .pure fun _ pending =>
      ⟨⟨parts.2, fun later member => facts.2 later (mem_cons_of_mem _ member)⟩, pending⟩
  · rintro world ⟨settled, listing⟩
    refine ⟨⟨(filter_sublist.map Record.fileId).nodup listing.distinct, ?_⟩, ?_⟩
    · intro record member
      have both := mem_filter.mp member
      have status := statuses record both.1
      simp only [reduceCtorEq, Option.some.injEq, false_or] at status
      exact ⟨status.symm, both.2⟩
    · intro fileId
      refine ⟨settled fileId, ?_⟩
      rintro record member rfl
      exact listing.journal_eq record (mem_filter.mp member).1

end XFerry.Encrypted
