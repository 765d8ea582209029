/-
Contracts of start-up: from any state a crash can leave, reconcile and the
expiry sweep leave every item settled, and start-up does not fail.
-/

import XFerry.Encrypted.WriteContracts

namespace XFerry.Encrypted

open CrashProgram Program List DataName

variable {Time : Type} [LinearOrder Time] [Sub Time]
  {service : Service Time} {frame : ItemProperty Time} {fileId : FileId}
  {raises : StorageError → World Time → Prop} {standing : Standing Time} {slot : Slot Time}

def Halved (service : Service Time) (fileId : FileId) (standing : Standing Time)
    (slot : Slot Time) : Prop :=
  Leaving service fileId standing ∧ slot.HalfRemoved fileId

theorem SoundAt.kept_or_halved (sound : SoundAt service fileId standing slot)
    (journaled : slot.journal.isSome = true) :
    (∃ record, Kept service fileId record standing slot) ∨
      Halved service fileId standing slot := by
  cases sound with
  | settled settled =>
    cases settled with
    | kept record kept => exact .inl ⟨record, kept⟩
    | released _ absent =>
      rw [absent.journal_eq] at journaled
      cases journaled
  | orphan _ orphan =>
    rw [orphan.journal_eq] at journaled
    cases journaled
  | leaving removing released half => exact .inr ⟨⟨removing, released⟩, half⟩

variable {record : Record Time}

theorem contract_reconcileRecord (env : Environment Time)
    (safe : ItemProperty.Safe service frame) (wellFormed : record.WellFormed fileId) :
    Contract (Sound service) (Focus frame fileId (Kept service fileId record))
      (reconcileRecord service env record)
      (fun reconciled => Focus frame fileId fun standing slot =>
        Kept service fileId reconciled standing slot ∧ reconciled.status ≠ .committing)
      raises := by
  unfold reconcileRecord
  rw [show record.fileId = fileId from wellFormed.fileId_eq]
  refine .bind _ contract_slot fun found => ?_
  refine .learning (∃ data, Placed found.part found.complete data record.status ∧
    record.Backed service data) (fun world focus => focus.2.2 ▸ focus.2.1.intact.data)
    fun data => ?_
  obtain ⟨data, placed, backed⟩ := data
  have valid := validateDataFile_of_backed backed
  cases status : record.status with
  | partial_ =>
    rw [status] at placed
    rw [placed.1, placed.2, valid, if_neg (by simp)]
    refine .bind (fun _ => Focus frame fileId (Kept service fileId record))
      (.pure fun _ focus => focus.imp fun _ _ holds => holds.1) fun _ => ?_
    exact .pure fun _ focus => focus.imp fun _ _ kept => ⟨kept, by simp [status]⟩
  | committing =>
    refine (contract_publishCommittingLocked _ safe wellFormed status).weaken
      (fun _ focus => focus.imp fun _ _ holds => holds.1)
      (fun _ _ focus => focus.imp fun _ _ holds => ⟨holds.1, by simp [holds.2]⟩)
      fun _ _ raised => raised
  | complete =>
    rw [status] at placed
    dsimp only
    rw [placed.1, placed.2, valid, if_neg (by simp)]
    refine .bind (fun _ => Focus frame fileId (Kept service fileId record))
      (.pure fun _ focus => focus.imp fun _ _ holds => holds.1) fun _ => ?_
    exact .pure fun _ focus => focus.imp fun _ _ kept => ⟨kept, by simp [status]⟩

omit [Sub Time] in
theorem reconcileRecord_of_halved (service : Service Time)
    {world : World Time} (env : Environment Time)
    (half : (world.slot record.fileId).HalfRemoved fileId) :
    ∃ message, reconcileRecord service env record world =
      { passed := [], world := world, result := .error (.corrupt message) } := by
  have partEq := half.part_eq
  have completeEq := half.complete_eq
  cases status : record.status with
  | partial_ | complete =>
    exact ⟨"encrypted data is missing", by
      simp [reconcileRecord, status, bind, andThen, inspect, partEq, completeEq,
        validateDataFile, lift, raise]⟩
  | committing =>
    exact ⟨"committing encrypted data is missing", by
      simp [reconcileRecord, publishCommittingLocked, publishDataFile, status, bind, andThen,
        inspect, partEq, completeEq, raise]⟩

theorem Halved.unlinkPart (halved : Halved service fileId standing slot) :
    PartUnlinked service fileId standing { slot with part := none } :=
  ⟨halved.1, rfl, .leaving halved.1.removing halved.1.released
    ⟨halved.2.journal, rfl, halved.2.complete_eq⟩⟩

theorem contract_removeRecordArtifacts (safe : ItemProperty.Safe service frame) :
    Contract (Sound service) (Focus frame fileId (Halved service fileId))
      (removeRecordArtifacts fileId : Action Time Unit)
      (fun _ => Focus frame fileId (Removed service fileId)) raises := by
  refine .bind (fun _ => Focus frame fileId (PartUnlinked service fileId))
    (contract_modify safe (fun _ _ halved => halved.unlinkPart.sound)
      fun _ _ halved => halved.unlinkPart) fun _ => ?_
  refine .bind (fun _ => Focus frame fileId (DataUnlinked service fileId))
    (contract_modify safe (fun _ _ unlinked => unlinked.unlinkComplete.sound)
      fun _ _ unlinked => unlinked.unlinkComplete) fun _ => ?_
  exact contract_modify safe (fun _ _ unlinked => unlinked.unlinkState.settled.sound)
    fun _ _ unlinked => unlinked.unlinkState

/-- What reconciling one journal leaves of its item, with the name it expects in
the data directory. -/
def Answered (service : Service Time) (fileId : FileId) (names : List DataName)
    (standing : Standing Time) (slot : Slot Time) : Prop :=
  (∃ record, Kept service fileId record standing slot ∧ record.status ≠ .committing ∧
      names = [expectedDataName record]) ∨
    (Removed service fileId standing slot ∧ names = [])

section

variable (env : Environment Time)
include env

section

variable (safe : ItemProperty.Safe service frame)
include safe

theorem contract_reconcileJournal_kept :
    Contract (Sound service) (Focus frame fileId (Kept service fileId record))
      (reconcileJournal service env fileId)
      (fun names => Focus frame fileId (Answered service fileId names)) raises := by
  refine .catching (fun _ _ => False) ?_ (fun _ _ _ impossible => impossible.elim)
    fun _ _ _ impossible => impossible.elim
  refine .bind _ (contract_readState fun standing slot kept =>
    ⟨record, kept.intact.journal_eq, kept.intact.wellFormed⟩) fun stored => ?_
  refine .learning (stored = record ∧ record.WellFormed fileId) (fun world focus =>
    ⟨Option.some.inj (focus.2.2.symm.trans focus.2.1.intact.journal_eq),
      focus.2.1.intact.wellFormed⟩) ?_
  rintro ⟨rfl, wellFormed⟩
  refine .bind _ ((contract_reconcileRecord env safe wellFormed).weaken
    (fun _ focus => focus.imp fun _ _ holds => holds.1) (fun _ _ returned => returned)
    fun _ _ raised => raised) fun reconciled => ?_
  exact .pure fun _ focus => focus.imp fun _ _ holds =>
    .inl ⟨reconciled, holds.1, holds.2, rfl⟩

theorem contract_reconcileJournal_halved :
    Contract (Sound service) (Focus frame fileId (Halved service fileId))
      (reconcileJournal service env fileId)
      (fun names => Focus frame fileId (Answered service fileId names)) raises := by
  refine .catching (fun error world => caughtByReconcile error = true ∧
    Focus frame fileId (Halved service fileId) world) ?_ (fun error caught => ?_) ?_
  · refine .bind _ (contract_readState fun _ _ halved => halved.2.journal)
      fun record => ?_
    refine .bind (fun _ _ => False) ?_ fun _ _ impossible => impossible.elim
    intro world focus
    obtain ⟨⟨leaving, half⟩, journal⟩ := focus.2
    obtain ⟨stored, present, wellFormed⟩ := half.journal
    have sameId : record.fileId = fileId := by
      rw [journal] at present
      cases present
      exact wellFormed.fileId_eq
    rw [← sameId] at half
    obtain ⟨message, refused⟩ := reconcileRecord_of_halved service env half
    rw [refused]
    exact ⟨by simp, rfl, focus.imp fun _ _ holds => holds.1⟩
  · refine .assuming fun _ => ?_
    refine .bind _ (contract_removeRecordArtifacts safe) fun _ => ?_
    exact .pure fun _ focus => focus.imp fun _ _ removed => .inr ⟨removed, rfl⟩
  · rintro error world uncaught ⟨caught, _⟩
    rw [caught] at uncaught
    cases uncaught

theorem contract_reconcileJournal :
    Contract (Sound service) (Focus frame fileId fun standing slot =>
        SoundAt service fileId standing slot ∧ slot.journal.isSome = true)
      (reconcileJournal service env fileId)
      (fun names => Focus frame fileId (Answered service fileId names)) raises := by
  intro world focus
  rcases focus.2.1.kept_or_halved focus.2.2 with ⟨record, kept⟩ | halved
  · exact contract_reconcileJournal_kept env safe world ⟨focus.1, kept⟩
  · exact contract_reconcileJournal_halved env safe world ⟨focus.1, halved⟩

end

end

/-- The item has no journal and no name that the data directory should keep. -/
structure Unjournaled (service : Service Time) (fileId : FileId) (names : List DataName)
    (standing : Standing Time) (slot : Slot Time) : Prop where
  journal_eq : slot.journal = none
  sound : SoundAt service fileId standing slot
  part_not_mem : part fileId ∉ names
  complete_not_mem : DataName.complete fileId ∉ names

structure Journaled (service : Service Time) (fileId : FileId) (names : List DataName)
    (record : Record Time) (standing : Standing Time) (slot : Slot Time) : Prop where
  kept : Kept service fileId record standing slot
  status_ne : record.status ≠ .committing
  mem : expectedDataName record ∈ names

def Reconciled (service : Service Time) (names : List DataName) : ItemProperty Time :=
  fun fileId standing slot =>
    (∃ record, Journaled service fileId names record standing slot) ∨
      Unjournaled service fileId names standing slot

structure Waiting (service : Service Time) (fileId : FileId) (names : List DataName)
    (standing : Standing Time) (slot : Slot Time) : Prop where
  journaled : slot.journal.isSome = true
  sound : SoundAt service fileId standing slot
  part_not_mem : part fileId ∉ names
  complete_not_mem : DataName.complete fileId ∉ names

/-- Between two journals: the ones in `rest` wait, the others are done. -/
def Reconciling (service : Service Time) (rest : List FileId) (names : List DataName) :
    ItemProperty Time := fun fileId standing slot =>
  if fileId ∈ rest then Waiting service fileId names standing slot
  else Reconciled service names fileId standing slot

theorem Reconciled.sound {names : List DataName}
    (reconciled : Reconciled service names fileId standing slot) :
    SoundAt service fileId standing slot := by
  rcases reconciled with ⟨record, journaled⟩ | unjournaled
  · exact journaled.kept.settled.sound
  · exact unjournaled.sound

theorem Reconciling.safe (service : Service Time) (rest : List FileId) (names : List DataName) :
    ItemProperty.Safe service (Reconciling service rest names) := by
  intro fileId standing slot reconciling
  unfold Reconciling at reconciling
  split at reconciling <;> exact reconciling.sound

theorem Answered.names_own {names : List DataName}
    (answered : Answered service fileId names standing slot) {name : DataName}
    (member : name ∈ names) : name = .part fileId ∨ name = .complete fileId := by
  rcases answered with ⟨record, kept, _, rfl⟩ | ⟨_, rfl⟩
  · have sameId : record.fileId = fileId := kept.intact.wellFormed.fileId_eq
    rw [mem_singleton.mp member, expectedDataName, sameId]
    cases record.status <;> simp
  · cases member

variable {names here : List DataName}

theorem Reconciling.extend {rest : List FileId} {other : FileId} (different : other ≠ fileId)
    (own : ∀ name ∈ here, name = .part fileId ∨ name = .complete fileId)
    (reconciling : Reconciling service (fileId :: rest) names other standing slot) :
    Reconciling service rest (names ++ here) other standing slot := by
  have partFresh : part other ∉ names → part other ∉ names ++ here := by
    intro absent member
    rcases mem_append.mp member with early | late
    · exact absent early
    rcases own _ late with same | same
    · exact different (part.inj same)
    · cases same
  have completeFresh : DataName.complete other ∉ names →
      DataName.complete other ∉ names ++ here := by
    intro absent member
    rcases mem_append.mp member with early | late
    · exact absent early
    rcases own _ late with same | same
    · cases same
    · exact different (DataName.complete.inj same)
  unfold Reconciling at reconciling ⊢
  by_cases waiting : other ∈ rest
  · rw [if_pos (mem_cons_of_mem _ waiting)] at reconciling
    rw [if_pos waiting]
    exact ⟨reconciling.journaled, reconciling.sound, partFresh reconciling.part_not_mem,
      completeFresh reconciling.complete_not_mem⟩
  · have done : other ∉ fileId :: rest := fun member =>
      (mem_cons.mp member).elim different waiting
    rw [if_neg done] at reconciling
    rw [if_neg waiting]
    rcases reconciling with ⟨record, journaled⟩ | unjournaled
    · exact .inl ⟨record, journaled.kept, journaled.status_ne, mem_append_left _ journaled.mem⟩
    · exact .inr ⟨unjournaled.journal_eq, unjournaled.sound,
        partFresh unjournaled.part_not_mem, completeFresh unjournaled.complete_not_mem⟩

theorem Answered.reconciled (answered : Answered service fileId here standing slot)
    (partFresh : DataName.part fileId ∉ names) (completeFresh : DataName.complete fileId ∉ names) :
    Reconciled service (names ++ here) fileId standing slot := by
  rcases answered with ⟨record, kept, status, rfl⟩ | ⟨removed, rfl⟩
  · exact .inl ⟨record, kept, status, mem_append_right _ (mem_singleton_self _)⟩
  · rw [append_nil]
    exact .inr ⟨removed.absent.journal_eq, removed.settled.sound, partFresh, completeFresh⟩

theorem contract_reconcileJournals (env : Environment Time) {rest : List FileId}
    (distinct : rest.Nodup) (names : List DataName) :
    Contract (Sound service) (Everywhere (Reconciling service rest names))
      (reconcileJournals service env rest)
      (fun later => Everywhere (Reconciled service (names ++ later))) raises := by
  induction rest generalizing names with
  | nil =>
    refine .pure fun world reconciling fileId => ?_
    rw [append_nil]
    exact reconciling fileId
  | cons fileId rest ih =>
    have parts := nodup_cons.mp distinct
    have safe := Reconciling.safe service (fileId :: rest) names
    have focused : ∀ world, Everywhere (Reconciling service (fileId :: rest) names) world →
        Focus (Reconciling service (fileId :: rest) names) fileId
          (Waiting service fileId names) world := by
      intro world reconciling
      have focus := (everywhere_iff_focus fileId).mp reconciling
      refine focus.imp fun standing slot here => ?_
      rwa [Reconciling, if_pos (mem_cons_self ..)] at here
    refine .learning
      (DataName.part fileId ∉ names ∧ DataName.complete fileId ∉ names)
      (fun world reconciling =>
        have waiting := (focused world reconciling).2
        ⟨waiting.part_not_mem, waiting.complete_not_mem⟩) fun fresh => ?_
    refine .bind (fun here => Everywhere (Reconciling service rest (names ++ here)))
      ?_ fun here => ?_
    · refine (contract_reconcileJournal env safe).weaken ?_ ?_ fun _ _ raised => raised
      · exact fun world reconciling => (focused world reconciling).imp
          fun _ _ waiting => ⟨waiting.sound, waiting.journaled⟩
      · intro here world focus
        refine (everywhere_iff_focus fileId).mpr ⟨fun other different => ?_, ?_⟩
        · exact (focus.1 other different).extend different fun _ => focus.2.names_own
        · rw [Reconciling, if_neg parts.1]
          exact focus.2.reconciled fresh.1 fresh.2
    · refine .bind _ (ih parts.2 (names ++ here)) fun others => ?_
      refine .pure fun world reconciled => ?_
      rw [← append_assoc]
      exact reconciled

def Sweepable (service : Service Time) (expected rest : List DataName) : ItemProperty Time :=
  fun fileId standing slot =>
    (∃ record, Journaled service fileId expected record standing slot) ∨
      (Unjournaled service fileId expected standing slot ∧
        (slot.part ≠ none → part fileId ∈ rest) ∧
        (slot.complete ≠ none → DataName.complete fileId ∈ rest))

theorem SoundAt.of_journal_eq_none (sound : SoundAt service fileId standing slot)
    (missing : slot.journal = none) :
    standing.Released service fileId ∧ slot.Orphan := by
  cases sound with
  | settled settled =>
    cases settled with
    | kept record kept =>
      rw [kept.intact.journal_eq] at missing
      cases missing
    | released released absent => exact ⟨released, absent.journal_eq, absent.complete_eq⟩
  | orphan released orphan => exact ⟨released, orphan⟩
  | leaving _ _ half =>
    obtain ⟨record, present, _⟩ := half.journal
    rw [present] at missing
    cases missing

theorem Sweepable.safe (service : Service Time) (expected rest : List DataName) :
    ItemProperty.Safe service (Sweepable service expected rest) := by
  intro fileId standing slot sweepable
  rcases sweepable with ⟨record, journaled⟩ | ⟨unjournaled, _⟩
  · exact journaled.kept.settled.sound
  · exact unjournaled.sound

variable {expected rest : List DataName}

theorem Sweepable.skip {name : DataName}
    (sweepable : Sweepable service expected (name :: rest) fileId standing slot)
    (other : (part fileId ∉ expected → part fileId ≠ name) ∧
      (DataName.complete fileId ∉ expected → DataName.complete fileId ≠ name)) :
    Sweepable service expected rest fileId standing slot := by
  rcases sweepable with journaled | ⟨unjournaled, part, complete⟩
  · exact .inl journaled
  refine .inr ⟨unjournaled, fun present => ?_, fun present => ?_⟩
  · exact (mem_cons.mp (part present)).resolve_left (other.1 unjournaled.part_not_mem)
  · exact (mem_cons.mp (complete present)).resolve_left (other.2 unjournaled.complete_not_mem)

theorem Sweepable.unlinkPart (unexpected : DataName.part fileId ∉ expected)
    (sweepable : Sweepable service expected (.part fileId :: rest) fileId standing slot) :
    Sweepable service expected rest fileId standing { slot with part := none } := by
  rcases sweepable with ⟨record, journaled⟩ | ⟨unjournaled, _, complete⟩
  · left
    obtain ⟨⟨intact, allows⟩, statusNe, mem⟩ := journaled
    have sameId : record.fileId = fileId := intact.wellFormed.fileId_eq
    obtain ⟨data, placed, backed⟩ := intact.data
    refine ⟨record, ⟨⟨intact.journal_eq, intact.wellFormed, data, ?_, backed⟩, allows⟩,
      statusNe, mem⟩
    cases status : record.status with
    | partial_ =>
      rw [expectedDataName, status, sameId] at mem
      exact absurd mem unexpected
    | committing => exact absurd status statusNe
    | complete =>
      rw [status] at placed
      exact ⟨rfl, placed.2⟩
  · right
    refine ⟨⟨unjournaled.journal_eq, ?_, unexpected, unjournaled.complete_not_mem⟩,
      fun present => absurd rfl present, fun present => ?_⟩
    · have bare := unjournaled.sound.of_journal_eq_none unjournaled.journal_eq
      exact .orphan bare.1 ⟨bare.2.journal_eq, bare.2.complete_eq⟩
    · exact (mem_cons.mp (complete present)).resolve_left (by simp)

theorem Sweepable.unlinkComplete (unexpected : DataName.complete fileId ∉ expected)
    (sweepable : Sweepable service expected (.complete fileId :: rest) fileId standing slot) :
    Sweepable service expected rest fileId standing { slot with complete := none } := by
  rcases sweepable with ⟨record, journaled⟩ | ⟨unjournaled, part, _⟩
  · left
    obtain ⟨⟨intact, allows⟩, statusNe, mem⟩ := journaled
    have sameId : record.fileId = fileId := intact.wellFormed.fileId_eq
    obtain ⟨data, placed, backed⟩ := intact.data
    refine ⟨record, ⟨⟨intact.journal_eq, intact.wellFormed, data, ?_, backed⟩, allows⟩,
      statusNe, mem⟩
    cases status : record.status with
    | partial_ =>
      rw [status] at placed
      exact ⟨placed.1, rfl⟩
    | committing => exact absurd status statusNe
    | complete =>
      rw [expectedDataName, status, sameId] at mem
      exact absurd mem unexpected
  · right
    refine ⟨⟨unjournaled.journal_eq, ?_, unjournaled.part_not_mem, unexpected⟩,
      fun present => ?_, fun present => absurd rfl present⟩
    · have bare := unjournaled.sound.of_journal_eq_none unjournaled.journal_eq
      exact .orphan bare.1 ⟨bare.2.journal_eq, rfl⟩
    · exact (mem_cons.mp (part present)).resolve_left (by simp)

theorem contract_sweepData (expected names : List DataName) :
    Contract (Sound service) (Everywhere (Sweepable service expected names))
      (sweepData expected names) (fun _ => Everywhere (Sweepable service expected []))
      raises := by
  refine .forEach (fun rest => Everywhere (Sweepable service expected rest))
    (fun name rest => ?_) names
  by_cases wanted : name ∈ expected
  · rw [if_pos wanted]
    refine .pure fun world sweepable fileId => (sweepable fileId).skip ⟨?_, ?_⟩
    all_goals exact fun absent same => absent (same ▸ wanted)
  · rw [if_neg wanted]
    have safe := Sweepable.safe service expected rest
    cases name with
    | part fileId =>
      refine (contract_modify safe
        (fun _ _ sweepable => Sweepable.safe _ _ _ _ _ _ (sweepable.unlinkPart wanted))
        (fun _ _ sweepable => Sweepable.unlinkPart wanted sweepable)).weaken
        (fun world sweepable => ⟨fun other different => (sweepable other).skip ⟨?_, ?_⟩,
          sweepable fileId⟩) (fun _ _ => (everywhere_iff_focus fileId).mpr)
        fun _ _ raised => raised
      · exact fun _ same => different (DataName.part.inj same)
      · simp
    | complete fileId =>
      refine (contract_modify safe
        (fun _ _ sweepable => Sweepable.safe _ _ _ _ _ _ (sweepable.unlinkComplete wanted))
        (fun _ _ sweepable => Sweepable.unlinkComplete wanted sweepable)).weaken
        (fun world sweepable => ⟨fun other different => (sweepable other).skip ⟨?_, ?_⟩,
          sweepable fileId⟩) (fun _ _ => (everywhere_iff_focus fileId).mpr)
        fun _ _ raised => raised
      · simp
      · exact fun _ same => different (DataName.complete.inj same)

theorem Sweepable.settled {expected : List DataName}
    (sweepable : Sweepable service expected [] fileId standing slot) :
    SettledAt service fileId standing slot := by
  rcases sweepable with ⟨record, journaled⟩ | ⟨unjournaled, part, _⟩
  · exact journaled.kept.settled
  have partEq : slot.part = none := by
    by_contra present
    cases part present
  have bare := unjournaled.sound.of_journal_eq_none unjournaled.journal_eq
  exact .released bare.1 ⟨bare.2.journal_eq, partEq, bare.2.complete_eq⟩

theorem SoundAt.temporaries (sound : SoundAt service fileId standing slot) (count : Nat) :
    SoundAt service fileId standing { slot with temporaries := count } := by
  cases sound with
  | settled settled =>
    cases settled with
    | kept record kept =>
      exact .settled (.kept record ⟨⟨kept.intact.journal_eq, kept.intact.wellFormed,
        kept.intact.data⟩, kept.allows⟩)
    | released released absent =>
      exact .settled (.released released ⟨absent.journal_eq, absent.part_eq, absent.complete_eq⟩)
  | orphan released orphan => exact .orphan released ⟨orphan.journal_eq, orphan.complete_eq⟩
  | leaving removing released half =>
    exact .leaving removing released ⟨half.journal, half.part_eq, half.complete_eq⟩

theorem contract_unlinkTemporaries (fileIds : List FileId) :
    Contract (Sound service) (Sound service)
      (forEach unlinkTemporaries fileIds : Action Time Unit) (fun _ => Sound service) raises := by
  refine .forEach (fun _ => Sound service) (fun fileId _ => ?_) fileIds
  have safe : ItemProperty.Safe service (SoundAt service) := fun _ _ _ sound => sound
  refine (contract_modify safe (fun _ _ sound => sound.temporaries 0)
    (fun _ _ sound => sound.temporaries 0)).weaken
    (fun _ => (everywhere_iff_focus fileId).mp) (fun _ _ => (everywhere_iff_focus fileId).mpr)
    fun _ _ raised => raised

theorem contract_reconcile (env : Environment Time) :
    Contract (Sound service) (Sound service) (reconcile service env)
      (fun _ => Settled service) raises := by
  refine .bind (fun _ => Sound service) (.inspect fun _ sound => sound)
    fun known => ?_
  refine .bind _ (contract_unlinkTemporaries known) fun _ => ?_
  refine .bind (fun fileIds world => fileIds.Nodup ∧
    Everywhere (Reconciling service fileIds []) world) (.inspect ?_) fun fileIds => ?_
  · intro world sound
    refine ⟨world.disk.nodup_journalIds, fun fileId => ?_⟩
    unfold Reconciling
    split
    · case isTrue member =>
      exact ⟨Disk.mem_journalIds.mp member, sound fileId, by simp, by simp⟩
    rename_i absent
    have missing : (world.slot fileId).journal = none := by
      rw [Disk.mem_journalIds] at absent
      exact Option.not_isSome_iff_eq_none.mp absent
    exact .inr ⟨missing, sound fileId, by simp, by simp⟩
  refine .assuming fun distinct => ?_
  refine .bind _ (contract_reconcileJournals env distinct []) fun expected => ?_
  refine .bind (fun names => Everywhere (Sweepable service expected names))
    (.inspect ?_) fun names => ?_
  · intro world reconciled fileId
    rcases reconciled fileId with journaled | unjournaled
    · exact .inl journaled
    · exact .inr ⟨unjournaled, Disk.part_mem_dataNames, Disk.complete_mem_dataNames⟩
  refine (contract_sweepData expected names).weaken (fun _ sweepable => sweepable)
    (fun _ world sweepable fileId => (sweepable fileId).settled) fun _ _ raised => raised

theorem contract_startUp (env : Environment Time) :
    Contract (Sound service) (Sound service) (startUp service env)
      (fun _ => Settled service) (fun _ _ => False) := by
  refine .bind _ (contract_reconcile env) fun _ => ?_
  refine .bind _ (contract_expireIncompleteLocked env.sweep) fun _ => ?_
  exact .pure fun _ settled => settled

end XFerry.Encrypted
