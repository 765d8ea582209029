/-
What the files of one encrypted item can look like.

`SettledAt` is what holds of every item whenever the storage lock is free, and
`SoundAt` is what a crash can leave.  Operations change one item at a time, so a
contract looks at that item and frames the others.
-/

import XFerry.Encrypted.Service

namespace XFerry.Encrypted

open CrashProgram Program

variable {Time : Type} [LinearOrder Time] [Sub Time]

/-- The data has its full size, and every chunk the journal lists has the bytes
whose hash the journal records. -/
def Record.Backed (service : Service Time) (record : Record Time) (data : Bytes) : Prop :=
  data.length = record.manifest.ciphertextSize ∧
    ∀ chunk ∈ record.receivedChunks,
      service.sha256 (Region.slice data (record.manifest.chunkOffset chunk.index) chunk.length) =
        chunk.ciphertextSha256

/-- The `.part` and `.xfr` files beside a record of the given status. -/
def Placed (part complete : Option Bytes) (data : Bytes) : Status → Prop
  | .partial_ => part = some data ∧ complete = none
  | .committing => (part = some data ∧ complete = none) ∨ (part = none ∧ complete = some data)
  | .complete => part = none ∧ complete = some data

structure Intact (service : Service Time) (fileId : FileId) (slot : Slot Time)
    (record : Record Time) : Prop where
  journal_eq : slot.journal = some record
  wellFormed : record.WellFormed fileId
  data : ∃ data, Placed slot.part slot.complete data record.status ∧ record.Backed service data

structure Slot.Absent (slot : Slot Time) : Prop where
  journal_eq : slot.journal = none
  part_eq : slot.part = none
  complete_eq : slot.complete = none

/-- Data that has no journal yet. -/
structure Slot.Orphan (slot : Slot Time) : Prop where
  journal_eq : slot.journal = none
  complete_eq : slot.complete = none

structure Slot.HalfRemoved (fileId : FileId) (slot : Slot Time) : Prop where
  journal : ∃ record, slot.journal = some record ∧ record.WellFormed fileId
  part_eq : slot.part = none
  complete_eq : slot.complete = none

/-- An expiry removes only a partial upload that has been idle for longer than
the time to live, and never one whose completion was acknowledged. -/
def Removal.Justified (service : Service Time) (fileId : FileId) (removal : Removal Time) : Prop :=
  match removal.cause with
  | .requested => True
  | .expired record now =>
    record.fileId = fileId ∧ record.status = .partial_ ∧ isIdle service now record = true ∧
      removal.completed = false

/-- The record keeps what its callers have been told. -/
structure Standing.Allows (service : Service Time) (fileId : FileId) (record : Record Time)
    (standing : Standing Time) : Prop where
  justified : ∀ removal ∈ standing.removals, removal.Justified service fileId
  chunks : ∀ claim ∈ standing.claim, claim.chunks ⊆ record.receivedChunks
  status : standing.completed = true → record.status = .complete

structure Standing.Released (service : Service Time) (fileId : FileId)
    (standing : Standing Time) : Prop where
  justified : ∀ removal ∈ standing.removals, removal.Justified service fileId
  claim_eq : standing.claim = none

structure Kept (service : Service Time) (fileId : FileId) (record : Record Time)
    (standing : Standing Time) (slot : Slot Time) : Prop where
  intact : Intact service fileId slot record
  allows : standing.Allows service fileId record

inductive SettledAt (service : Service Time) (fileId : FileId) (standing : Standing Time)
    (slot : Slot Time) : Prop where
  | kept (record : Record Time) (kept : Kept service fileId record standing slot)
  | released (released : standing.Released service fileId) (absent : slot.Absent)

inductive SoundAt (service : Service Time) (fileId : FileId) (standing : Standing Time)
    (slot : Slot Time) : Prop where
  | settled (settled : SettledAt service fileId standing slot)
  | orphan (released : standing.Released service fileId) (orphan : slot.Orphan)
  | leaving (removing : standing.removing = true) (released : standing.Released service fileId)
      (half : slot.HalfRemoved fileId)

variable {service : Service Time} {fileId : FileId} {standing : Standing Time}

theorem Standing.Allows.mono {old new : Record Time}
    (allows : standing.Allows service fileId old) (chunks : old.receivedChunks ⊆ new.receivedChunks)
    (status : old.status = .complete → new.status = .complete) :
    standing.Allows service fileId new :=
  ⟨allows.justified, fun claim member => List.Subset.trans (allows.chunks claim member) chunks,
    fun done => status (allows.status done)⟩

theorem Standing.Allows.beginRemoval {cause : Cause Time}
    (earlier : ∀ removal ∈ standing.removals, removal.Justified service fileId)
    (justified : Removal.Justified service fileId
      { cause := cause, completed := standing.completed }) :
    ∀ removal ∈ (standing.beginRemoval cause).removals, removal.Justified service fileId := by
  intro removal member
  rcases List.mem_cons.mp member with rfl | old
  · exact justified
  · exact earlier removal old

variable {slot : Slot Time}

theorem SettledAt.sound (settled : SettledAt service fileId standing slot) :
    SoundAt service fileId standing slot :=
  .settled settled

theorem Kept.settled {record : Record Time} (kept : Kept service fileId record standing slot) :
    SettledAt service fileId standing slot :=
  .kept record kept

theorem SettledAt.kept_of_journal {record : Record Time}
    (settled : SettledAt service fileId standing slot) (found : slot.journal = some record) :
    Kept service fileId record standing slot := by
  cases settled with
  | kept other kept =>
    have same := kept.intact.journal_eq.symm.trans found
    cases same
    exact kept
  | released _ absent =>
    rw [absent.journal_eq] at found
    cases found

abbrev ItemProperty (Time : Type) := FileId → Standing Time → Slot Time → Prop

def Everywhere (property : ItemProperty Time) (world : World Time) : Prop :=
  ∀ fileId, property fileId (world.standing fileId) (world.slot fileId)

/-- `frame` holds of every other item and `property` of this one. -/
def Focus (frame : ItemProperty Time) (fileId : FileId)
    (property : Standing Time → Slot Time → Prop) (world : World Time) : Prop :=
  (∀ other, other ≠ fileId → frame other (world.standing other) (world.slot other)) ∧
    property (world.standing fileId) (world.slot fileId)

def Sound (service : Service Time) : World Time → Prop := Everywhere (SoundAt service)

def Settled (service : Service Time) : World Time → Prop := Everywhere (SettledAt service)

variable {frame : ItemProperty Time} {world : World Time}

theorem Settled.sound (settled : Settled service world) : Sound service world :=
  fun fileId => (settled fileId).sound

variable {change : Slot Time → Slot Time} {property changed : Standing Time → Slot Time → Prop}

section

omit [LinearOrder Time] [Sub Time]

theorem everywhere_iff_focus (fileId : FileId) : Everywhere frame world ↔ Focus frame fileId
    (frame fileId) world := by
  constructor
  · intro all
    exact ⟨fun other _ => all other, all fileId⟩
  · rintro ⟨others, here⟩ other
    by_cases same : other = fileId
    · rw [same]
      exact here
    · exact others other same

theorem Focus.imp (focus : Focus frame fileId property world)
    (implied : ∀ standing slot, property standing slot → changed standing slot) :
    Focus frame fileId changed world :=
  ⟨focus.1, implied _ _ focus.2⟩

theorem Focus.modify (focus : Focus frame fileId property world)
    (implied : ∀ standing slot, property standing slot → changed standing (change slot)) :
    Focus frame fileId changed (world.modify fileId change) := by
  constructor
  · intro other different
    rw [World.standing_modify, World.slot_modify_other _ _ different]
    exact focus.1 other different
  · rw [World.standing_modify, World.slot_modify_same]
    exact implied _ _ focus.2

theorem Focus.judge {change : Standing Time → Standing Time}
    (focus : Focus frame fileId property world)
    (implied : ∀ standing slot, property standing slot → changed (change standing) slot) :
    Focus frame fileId changed (world.judge fileId change) := by
  constructor
  · intro other different
    rw [World.standing_judge_other _ _ different, World.slot_judge]
    exact focus.1 other different
  · rw [World.standing_judge_same, World.slot_judge]
    exact implied _ _ focus.2

end

/-- What the frame says of an item is enough for a crash. -/
def ItemProperty.Safe (service : Service Time) (frame : ItemProperty Time) : Prop :=
  ∀ fileId standing slot, frame fileId standing slot → SoundAt service fileId standing slot

theorem ItemProperty.safe_settledAt (service : Service Time) :
    ItemProperty.Safe service (SettledAt service) :=
  fun _ _ _ settled => settled.sound

section Contracts

variable {service : Service Time} {sound frame : ItemProperty Time} {fileId : FileId}
  {before after : Standing Time → Slot Time → Prop} {passes : World Time → Prop}
  {raises : StorageError → World Time → Prop}

variable {debris : Slot Time → Slot Time}

section

variable (safe : ∀ other standing slot, frame other standing slot → sound other standing slot)
include safe

omit [LinearOrder Time] [Sub Time]

theorem Focus.everywhere {property : Standing Time → Slot Time → Prop}
    (focus : Focus frame fileId property world)
    (here : ∀ standing slot, property standing slot → sound fileId standing slot) :
    Everywhere sound world := by
  rw [everywhere_iff_focus fileId]
  exact ⟨fun other different => safe other _ _ (focus.1 other different), here _ _ focus.2⟩

theorem contract_change
    (kept : ∀ standing slot, before standing slot → sound fileId standing (change slot))
    (holds : ∀ standing slot, before standing slot → after standing (change slot)) :
    Contract (Everywhere sound) (Focus frame fileId before)
      (durable (World.modify fileId change)) (fun _ => Focus frame fileId after) raises := by
  apply Contract.durable
  · intro world focus
    exact Focus.everywhere safe (focus.modify kept) fun _ _ sound => sound
  · intro world focus
    exact focus.modify holds

theorem contract_tornChange
    (torn : ∀ standing slot, before standing slot → sound fileId standing (debris slot))
    (kept : ∀ standing slot, before standing slot → sound fileId standing (change slot))
    (holds : ∀ standing slot, before standing slot → after standing (change slot)) :
    Contract (Everywhere sound) (Focus frame fileId before)
      (tearable (World.modify fileId debris) (World.modify fileId change))
      (fun _ => Focus frame fileId after) raises := by
  apply Contract.tearable
  · intro world focus
    exact Focus.everywhere safe (focus.modify torn) fun _ _ sound => sound
  · intro world focus
    exact Focus.everywhere safe (focus.modify kept) fun _ _ sound => sound
  · intro world focus
    exact focus.modify holds

end

theorem contract_modify (safe : ItemProperty.Safe service frame)
    (kept : ∀ standing slot, before standing slot →
      SoundAt service fileId standing (change slot))
    (holds : ∀ standing slot, before standing slot → after standing (change slot)) :
    Contract (Sound service) (Focus frame fileId before)
      (durable (World.modify fileId change)) (fun _ => Focus frame fileId after) raises :=
  contract_change safe kept holds

theorem contract_tear (safe : ItemProperty.Safe service frame)
    (torn : ∀ standing slot, before standing slot →
      SoundAt service fileId standing (debris slot)) (kept : ∀ standing slot, before standing slot →
      SoundAt service fileId standing (change slot))
    (holds : ∀ standing slot, before standing slot → after standing (change slot)) :
    Contract (Sound service) (Focus frame fileId before)
      (tearable (World.modify fileId debris) (World.modify fileId change))
      (fun _ => Focus frame fileId after) raises :=
  contract_tornChange safe torn kept holds

section

omit [LinearOrder Time] [Sub Time]

theorem contract_judge {change : Standing Time → Standing Time}
    (holds : ∀ standing slot, before standing slot → after (change standing) slot) :
    Contract passes (Focus frame fileId before)
      (record (World.judge fileId change)) (fun _ => Focus frame fileId after) raises :=
  .record fun _ focus => focus.judge holds

theorem contract_slot :
    Contract passes (Focus frame fileId before)
      (inspect fun world => world.slot fileId : Action Time (Slot Time))
      (fun found => Focus frame fileId fun standing slot => before standing slot ∧ slot = found)
      raises :=
  .inspect fun _ focus => ⟨focus.1, focus.2, rfl⟩

end

end Contracts

end XFerry.Encrypted
