/-
The files of the encrypted storage and their durable steps.

Everything the service keeps for one file ID stands in one slot: the journal,
temporaries a crash has left beside it, and the `.part` and `.xfr` data files.
A world adds what the callers have been told, which no operation reads.
-/

import XFerry.CrashProgram
import XFerry.Encrypted.Record
import XFerry.Lists

namespace XFerry.Encrypted

open CrashProgram List

variable {Time : Type}

structure Slot (Time : Type) where
  journal : Option (Record Time)
  temporaries : Nat
  part : Option Bytes
  complete : Option Bytes

def Slot.empty : Slot Time := { journal := none, temporaries := 0, part := none, complete := none }

abbrev Disk (Time : Type) := AList fun _ : FileId => Slot Time

namespace Disk

def slot (disk : Disk Time) (fileId : FileId) : Slot Time :=
  (disk.lookup fileId).getD Slot.empty

def modify (disk : Disk Time) (fileId : FileId) (change : Slot Time → Slot Time) : Disk Time :=
  disk.insert fileId (change (disk.slot fileId))

@[simp] theorem slot_modify_same (disk : Disk Time) (fileId : FileId)
    (change : Slot Time → Slot Time) :
    (disk.modify fileId change).slot fileId = change (disk.slot fileId) := by
  simp [slot, modify]

variable {fileId other : FileId}

theorem slot_modify_other (disk : Disk Time)
    (change : Slot Time → Slot Time) (different : other ≠ fileId) :
    (disk.modify fileId change).slot other = disk.slot other := by
  simp [slot, modify, AList.lookup_insert_ne different]

/-- `sorted(state_dir.glob("*.json"))`. -/
def journalIds (disk : Disk Time) : List FileId :=
  (disk.keys.filter fun fileId => (disk.slot fileId).journal.isSome).insertionSort
    fun left right => left.text ≤ right.text

variable {fileId : FileId}

theorem mem_journalIds {disk : Disk Time} :
    fileId ∈ disk.journalIds ↔ (disk.slot fileId).journal.isSome = true := by
  rw [journalIds, mem_insertionSort, mem_filter]
  constructor
  · exact fun both => both.2
  · intro present
    refine ⟨?_, present⟩
    rw [← AList.mem_keys, ← AList.lookup_isSome]
    cases found : disk.lookup fileId with
    | some slot => rfl
    | none => simp [slot, found, Slot.empty] at present

theorem nodup_journalIds (disk : Disk Time) : disk.journalIds.Nodup :=
  (perm_insertionSort _ _).nodup_iff.mpr (disk.keys_nodup.filter _)

end Disk

inductive DataName where
  | part (fileId : FileId)
  | complete (fileId : FileId)
deriving DecidableEq

/-- `data_dir.iterdir()`. -/
def Disk.dataNames (disk : Disk Time) : List DataName :=
  disk.keys.flatMap fun fileId =>
    ((disk.slot fileId).part.map fun _ => DataName.part fileId).toList ++
      ((disk.slot fileId).complete.map fun _ => DataName.complete fileId).toList

theorem Disk.mem_keys_of_slot {disk : Disk Time} (known : disk.slot fileId ≠ Slot.empty) :
    fileId ∈ disk.keys := by
  rw [← AList.mem_keys, ← AList.lookup_isSome]
  cases found : disk.lookup fileId with
  | some slot => rfl
  | none => simp [Disk.slot, found] at known

theorem Disk.part_mem_dataNames {disk : Disk Time}
    (present : (disk.slot fileId).part ≠ none) : DataName.part fileId ∈ disk.dataNames := by
  have known : fileId ∈ disk.keys := mem_keys_of_slot fun bare => present (by rw [bare]; rfl)
  obtain ⟨data, found⟩ := Option.ne_none_iff_exists'.mp present
  rw [dataNames, mem_flatMap]
  exact ⟨fileId, known, by simp [found]⟩

theorem Disk.complete_mem_dataNames {disk : Disk Time}
    (present : (disk.slot fileId).complete ≠ none) :
    DataName.complete fileId ∈ disk.dataNames := by
  have known : fileId ∈ disk.keys := mem_keys_of_slot fun bare => present (by rw [bare]; rfl)
  obtain ⟨data, found⟩ := Option.ne_none_iff_exists'.mp present
  rw [dataNames, mem_flatMap]
  exact ⟨fileId, known, by simp [found]⟩

/-- Why the removal of an item began, with the record and the reading an expiry
went by. -/
inductive Cause (Time : Type) where
  | requested
  | expired (record : Record Time) (now : Time)

structure Claim where
  chunks : List StoredChunk
  completed : Bool

def Claim.HoldsOf (claim : Claim) (record : Record Time) : Prop :=
  claim.chunks ⊆ record.receivedChunks ∧ (claim.completed = true → record.status = .complete)

def Claim.Within (claim grown : Claim) : Prop :=
  claim.chunks ⊆ grown.chunks ∧ (claim.completed = true → grown.completed = true)

/-- A removal that has begun, and whether a completion had been acknowledged. -/
structure Removal (Time : Type) where
  cause : Cause Time
  completed : Bool

/-- `removals` lists every removal that has begun, the latest first, and `claim`
what has been acknowledged since.  `removing` lasts until the item is created
again. -/
structure Standing (Time : Type) where
  removals : List (Removal Time)
  removing : Bool
  claim : Option Claim

namespace Standing

def initial : Standing Time := { removals := [], removing := false, claim := none }

def completed (standing : Standing Time) : Bool := standing.claim.any Claim.completed

def beginRemoval (cause : Cause Time) (standing : Standing Time) : Standing Time :=
  { removals := { cause := cause, completed := standing.completed } :: standing.removals
    removing := true
    claim := none }

def beginCreation (standing : Standing Time) : Standing Time :=
  { standing with removing := false }

def acknowledge (claim : Claim) (standing : Standing Time) : Standing Time :=
  { standing with
    claim := some
      { chunks := claim.chunks ++ standing.claim.elim [] Claim.chunks
        completed := claim.completed || standing.completed } }

variable {first second third : Standing Time}

theorem removals_eq_between
    (later : second.removals <:+ third.removals) (earlier : first.removals <:+ second.removals)
    (same : third.removals = first.removals) : second.removals = first.removals := by
  refine (earlier.eq_of_length_le ?_).symm
  rw [← same]
  exact later.length_le

/-- Nothing acknowledged is given up without a removal. -/
structure Extends (later earlier : Standing Time) : Prop where
  removals : earlier.removals <:+ later.removals
  claim : later.removals = earlier.removals → ∀ claim ∈ earlier.claim,
    ∃ grown ∈ later.claim, claim.Within grown

theorem Extends.refl (standing : Standing Time) : standing.Extends standing :=
  ⟨suffix_rfl, fun _ claim member => ⟨claim, member, fun _ present => present, id⟩⟩

theorem Extends.trans (later : third.Extends second)
    (earlier : second.Extends first) : third.Extends first := by
  refine ⟨earlier.removals.trans later.removals, fun same claim member => ?_⟩
  have sameEarly := removals_eq_between later.removals earlier.removals same
  obtain ⟨middle, present, chunks, completed⟩ := earlier.claim sameEarly claim member
  obtain ⟨last, found, moreChunks, stillCompleted⟩ :=
    later.claim (same.trans sameEarly.symm) middle present
  exact ⟨last, found, List.Subset.trans chunks moreChunks, fun done =>
    stillCompleted (completed done)⟩

/-- Nothing is acknowledged, and only a removal gives up what was. -/
structure Persists (later earlier : Standing Time) : Prop where
  removals : earlier.removals <:+ later.removals
  claim : later.claim = none ∨ later.claim = earlier.claim
  undisturbed : later.removals = earlier.removals → later.claim = earlier.claim

theorem Persists.refl (standing : Standing Time) : standing.Persists standing :=
  ⟨suffix_rfl, .inr rfl, fun _ => rfl⟩

theorem Persists.trans (later : third.Persists second)
    (earlier : second.Persists first) : third.Persists first := by
  refine ⟨earlier.removals.trans later.removals, ?_, fun same => ?_⟩
  · rcases later.claim with gone | same
    · exact .inl gone
    · rw [same]
      exact earlier.claim
  · have sameEarly := removals_eq_between later.removals earlier.removals same
    rw [later.undisturbed (same.trans sameEarly.symm), earlier.undisturbed sameEarly]

variable {later earlier : Standing Time}

theorem Persists.extends (persists : later.Persists earlier) : later.Extends earlier := by
  refine ⟨persists.removals, fun same claim member => ⟨claim, ?_, fun _ present => present, id⟩⟩
  rw [persists.undisturbed same]
  exact member

theorem Persists.completed (persists : later.Persists earlier)
    (done : later.completed = true) : earlier.completed = true := by
  rcases persists.claim with gone | same
  · simp [Standing.completed, gone] at done
  · rw [Standing.completed, same] at done
    exact done

theorem beginRemoval_persists (cause : Cause Time) (standing : Standing Time) :
    (standing.beginRemoval cause).Persists standing := by
  refine ⟨suffix_cons .., .inl rfl, fun same => ?_⟩
  have lengths := congrArg length same
  simp [beginRemoval] at lengths

theorem beginCreation_persists (standing : Standing Time) :
    standing.beginCreation.Persists standing :=
  ⟨suffix_rfl, .inr rfl, fun _ => rfl⟩

theorem acknowledge_extends (claim : Claim) (standing : Standing Time) :
    (standing.acknowledge claim).Extends standing := by
  refine ⟨suffix_rfl, fun _ earlier member => ⟨_, rfl, ?_, fun done => ?_⟩⟩
  · rw [Option.mem_def.mp member]
    exact subset_append_right ..
  · simp [Standing.completed, Option.mem_def.mp member, done]

theorem acknowledge_completed (claim : Claim) (standing : Standing Time) :
    (standing.acknowledge claim).completed = (claim.completed || standing.completed) := rfl

theorem acknowledge_claims (claim : Claim) (standing : Standing Time) :
    ∃ grown ∈ (standing.acknowledge claim).claim, claim.Within grown :=
  ⟨_, rfl, subset_append_left .., fun done => by simp [done]⟩

end Standing

structure World (Time : Type) where
  disk : Disk Time
  standing : FileId → Standing Time

namespace World

def initial : World Time := { disk := ∅, standing := fun _ => .initial }

def slot (world : World Time) (fileId : FileId) : Slot Time := world.disk.slot fileId

def modify (fileId : FileId) (change : Slot Time → Slot Time) (world : World Time) : World Time :=
  { world with disk := world.disk.modify fileId change }

def judge (fileId : FileId) (change : Standing Time → Standing Time) (world : World Time) :
    World Time :=
  { world with
    standing := Function.update world.standing fileId (change (world.standing fileId)) }

section

variable (world : World Time)
include world

@[simp] theorem slot_modify_same (fileId : FileId) (change : Slot Time → Slot Time) :
    (world.modify fileId change).slot fileId = change (world.slot fileId) :=
  Disk.slot_modify_same world.disk fileId change

theorem slot_modify_other (change : Slot Time → Slot Time) (different : other ≠ fileId) :
    (world.modify fileId change).slot other = world.slot other :=
  Disk.slot_modify_other world.disk change different

@[simp] theorem standing_modify (fileId : FileId) (change : Slot Time → Slot Time) :
    (world.modify fileId change).standing = world.standing := rfl

@[simp] theorem slot_judge (fileId other : FileId) (change : Standing Time → Standing Time) :
    (world.judge fileId change).slot other = world.slot other := rfl

@[simp] theorem standing_judge_same (fileId : FileId) (change : Standing Time → Standing Time) :
    (world.judge fileId change).standing fileId = change (world.standing fileId) :=
  Function.update_self ..

theorem standing_judge_other (change : Standing Time → Standing Time) (different : other ≠ fileId) :
    (world.judge fileId change).standing other = world.standing other :=
  Function.update_of_ne different ..

end

end World

end XFerry.Encrypted
