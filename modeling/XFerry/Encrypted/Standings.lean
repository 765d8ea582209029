/-
No operation gives up what has been acknowledged except by removing the item.

The files are left out of account here: whatever an operation meets on disk, and
wherever it is interrupted, a claim stays until a removal is noted.
-/

import XFerry.Encrypted.Service

namespace XFerry.Encrypted

open CrashProgram Program

variable {Time : Type} [LinearOrder Time] [Sub Time]

def World.Extends (later earlier : World Time) : Prop :=
  ∀ fileId, (later.standing fileId).Extends (earlier.standing fileId)

instance : Std.Refl (World.Extends : World Time → World Time → Prop) :=
  ⟨fun world fileId => .refl (world.standing fileId)⟩

instance : IsTrans (World Time) World.Extends :=
  ⟨fun _ _ _ later earlier fileId => (later fileId).trans (earlier fileId)⟩

def World.Persists (later earlier : World Time) : Prop :=
  ∀ fileId, (later.standing fileId).Persists (earlier.standing fileId)

instance : Std.Refl (World.Persists : World Time → World Time → Prop) :=
  ⟨fun world fileId => .refl (world.standing fileId)⟩

instance : IsTrans (World Time) World.Persists :=
  ⟨fun _ _ _ later earlier fileId => (later fileId).trans (earlier fileId)⟩

section

omit [LinearOrder Time] [Sub Time]

theorem World.Persists.extends {later earlier : World Time} (persists : later.Persists earlier) :
    later.Extends earlier :=
  fun fileId => (persists fileId).extends

theorem World.modify_persists (fileId : FileId) (change : Slot Time → Slot Time)
    (world : World Time) : (world.modify fileId change).Persists world :=
  fun other => .refl (world.standing other)

end

variable {change : Standing Time → Standing Time}

omit [LinearOrder Time] [Sub Time] in
theorem World.judge_related {relation : Standing Time → Standing Time → Prop}
    [Std.Refl relation] (fileId : FileId)
    (related : ∀ standing, relation (change standing) standing) (world : World Time)
    (other : FileId) :
    relation ((world.judge fileId change).standing other) (world.standing other) := by
  by_cases same : other = fileId
  · rw [same, World.standing_judge_same]
    exact related _
  · rw [World.standing_judge_other _ _ same]
    exact refl_of relation _

instance : Std.Refl (Standing.Persists : Standing Time → Standing Time → Prop) := ⟨.refl⟩

instance : Std.Refl (Standing.Extends : Standing Time → Standing Time → Prop) := ⟨.refl⟩

/-- Every state of the action keeps the claims it started with, and has no others. -/
abbrev Keeps {α : Type} (action : Action Time α) : Prop := action.Respects World.Persists

section

omit [LinearOrder Time] [Sub Time]

theorem keeps_modify (fileId : FileId) (change : Slot Time → Slot Time) :
    Keeps (durable (World.modify fileId change) : Action Time Unit) :=
  .durable (World.modify_persists fileId change)

theorem keeps_judge (fileId : FileId) (persists : ∀ standing, (change standing).Persists standing) :
    Keeps (record (World.judge fileId change) : Action Time Unit) :=
  .record (World.judge_related fileId persists)

end

/-! ### Operations -/

section Operations

variable (service : Service Time) (env : Environment Time) (fileId : FileId)

section

omit [LinearOrder Time] [Sub Time]

theorem keeps_createSizedFile (size : Nat) : Keeps (createSizedFile env fileId size) := by
  refine .bind (.inspect _) fun slot => ?_
  split
  · exact .raise _
  refine .bind (keeps_modify _ _) fun _ => ?_
  split
  · exact keeps_modify _ _
  · exact .raise _

theorem keeps_writeState (record : Record Time) : Keeps (writeState service record) := by
  unfold writeState
  split
  · exact .raise _
  · exact .bind (keeps_modify _ _) fun _ => keeps_modify _ _

end

omit [Sub Time] in
theorem keeps_readState : Keeps (readState service fileId) := by
  refine .bind (.inspect _) fun slot => ?_
  cases slot.journal with
  | none => exact .raise _
  | some stored =>
    dsimp only
    split
    · exact .raise _
    · exact .lift _

omit [LinearOrder Time] [Sub Time] in
theorem keeps_deleteLocked (cause : Cause Time) :
    Keeps (deleteLocked fileId cause : Action Time Bool) := by
  refine .bind (.inspect _) fun slot => ?_
  refine .bind (keeps_judge _ (Standing.beginRemoval_persists cause)) fun _ => ?_
  refine .bind (keeps_modify _ _) fun _ => ?_
  refine .bind (keeps_modify _ _) fun _ => ?_
  exact .bind (keeps_modify _ _) fun _ => .pure _

theorem keeps_get : Keeps (get service env fileId) := by
  refine .bind (.inspect _) fun slot => ?_
  cases slot.journal with
  | none => exact .pure _
  | some stored =>
    refine .bind (keeps_readState service fileId) fun record => ?_
    split
    · exact .bind (keeps_deleteLocked _ _) fun _ => .pure _
    · exact .pure _

theorem keeps_requireFile : Keeps (requireFile service env fileId) := by
  refine .bind (keeps_get service env fileId) fun answer => ?_
  cases answer with
  | none => exact .raise _
  | some record => exact .pure _

section

omit [Sub Time]

theorem keeps_readStates (fileIds : List FileId) : Keeps (readStates service fileIds) := by
  induction fileIds with
  | nil => exact .pure _
  | cons fileId rest ih =>
    exact .bind (keeps_readState service fileId) fun _ => .bind ih fun _ => .pure _

theorem keeps_listFilesLocked (status : Option Status) : Keeps (listFilesLocked service status) :=
  .bind (.inspect _) fun _ => .bind (keeps_readStates service _) fun _ => .pure _

end

theorem keeps_expireIncompleteLocked (current : Time) :
    Keeps (expireIncompleteLocked service current) := by
  refine .bind (keeps_listFilesLocked service _) fun records => ?_
  refine .bind (.forEach (fun record => ?_) _) fun _ => .pure _
  exact .bind (keeps_deleteLocked _ _) fun _ => .pure _

theorem keeps_listFiles (status : Option Status) : Keeps (listFiles service env status) :=
  .bind (keeps_expireIncompleteLocked service _) fun _ => keeps_listFilesLocked service status

omit [LinearOrder Time] [Sub Time] in
theorem keeps_createData (created : Record Time) : Keeps (createData service env created) := by
  refine .bind (keeps_judge _ Standing.beginCreation_persists) fun _ => .cleaningUp ?_ ?_
  · exact .bind (keeps_createSizedFile env _ _) fun _ => keeps_writeState service _
  · exact .bind (keeps_modify _ _) fun _ => keeps_modify _ _

theorem keeps_create (manifest : Manifest) : Keeps (create service env manifest) := by
  refine .bind (keeps_expireIncompleteLocked service _) fun _ => ?_
  refine .bind (keeps_get service env _) fun answer => ?_
  cases answer with
  | some existing =>
    dsimp only
    split
    · exact .raise _
    · exact .pure _
  | none =>
    dsimp only
    split
    · exact .raise _
    refine .bind (.inspect _) fun slot => ?_
    split
    · exact .raise _
    · cases env.reservation with
      | some reason => exact .raise _
      | none => exact .bind (keeps_createData service env _) fun _ => .pure _

omit [LinearOrder Time] [Sub Time] in
theorem keeps_confirmChunk (record : Record Time) (existing offered : StoredChunk)
    (ciphertext : Bytes) (data : Option Bytes) :
    Keeps (confirmChunk record existing offered ciphertext data) := by
  cases data with
  | none => exact .raise _
  | some data =>
    unfold confirmChunk
    dsimp only
    split
    · exact .raise _
    split
    · exact .pure _
    · exact .raise _

omit [Sub Time] in
theorem keeps_storeChunk (record : Record Time) (offered : StoredChunk) (ciphertext : Bytes)
    (data : Option Bytes) :
    Keeps (storeChunk service env record offered ciphertext data) := by
  cases data with
  | none => exact .raise _
  | some data =>
    unfold storeChunk
    dsimp only
    split
    · exact .raise _
    refine .bind (.tearable (World.modify_persists _ _) (World.modify_persists _ _))
      fun _ => ?_
    exact .bind (keeps_writeState service _) fun _ => .pure _

theorem keeps_writeChunk (index : Int) (ciphertext resumeMac : Bytes) :
    Keeps (writeChunk service env fileId index ciphertext resumeMac) := by
  unfold writeChunk
  split
  · exact .raise _
  refine .bind (keeps_requireFile service env fileId) fun record => ?_
  refine .bind (.lift _) fun expectedLength => ?_
  split
  · exact .raise _
  refine .bind (.inspect _) fun slot => ?_
  split
  · exact keeps_confirmChunk _ _ _ _ _
  split
  · exact .raise _
  · exact keeps_storeChunk service env _ _ _ _

omit [LinearOrder Time] [Sub Time] in
theorem keeps_publishDataFile (record : Record Time) : Keeps (publishDataFile record) := by
  refine .bind (.inspect _) fun slot => ?_
  split
  · exact .raise _
  · exact .bind (.lift _) fun _ => keeps_modify _ _
  · exact .lift _
  · exact .raise _

section

omit [Sub Time]

theorem keeps_publishCommittingLocked (now : Time) (record : Record Time) :
    Keeps (publishCommittingLocked service now record) :=
  .bind (keeps_publishDataFile record) fun _ =>
    .bind (keeps_writeState service _) fun _ => .pure _

theorem keeps_beginCommit (record : Record Time) : Keeps (beginCommit service env record) := by
  unfold beginCommit
  cases record.status with
  | partial_ => exact .bind (keeps_writeState service _) fun _ => .pure _
  | committing | complete => exact .pure _

end

theorem keeps_complete : Keeps (complete service env fileId) := by
  refine .bind (keeps_requireFile service env fileId) fun record => ?_
  split
  · exact .pure _
  split
  · exact .raise _
  · refine .bind (keeps_beginCommit service env record) fun committing => ?_
    exact .bind (keeps_publishCommittingLocked service _ _) fun _ => .pure _

section

omit [Sub Time]

theorem keeps_reconcileRecord (record : Record Time) :
    Keeps (reconcileRecord service env record) := by
  refine .bind (.inspect _) fun slot => ?_
  cases record.status with
  | partial_ | complete =>
    dsimp only
    split
    · exact .raise _
    · exact .bind (.lift _) fun _ => .pure _
  | committing => exact keeps_publishCommittingLocked service _ _

theorem keeps_reconcileJournal : Keeps (reconcileJournal service env fileId) := by
  refine .catching ?_ ?_
  · refine .bind (keeps_readState service fileId) fun record => ?_
    exact .bind (keeps_reconcileRecord service env record) fun _ => .pure _
  · refine .bind ?_ fun _ => .pure _
    exact .bind (keeps_modify _ _) fun _ => .bind (keeps_modify _ _) fun _ => keeps_modify _ _

theorem keeps_reconcileJournals (fileIds : List FileId) :
    Keeps (reconcileJournals service env fileIds) := by
  induction fileIds with
  | nil => exact .pure _
  | cons fileId rest ih =>
    exact .bind (keeps_reconcileJournal service env fileId) fun _ =>
      .bind ih fun _ => .pure _

end

omit [LinearOrder Time] [Sub Time] in
theorem keeps_sweepData (expected names : List DataName) :
    Keeps (sweepData expected names : Action Time Unit) := by
  refine .forEach (fun name => ?_) names
  split
  · exact .pure _
  · cases name with
    | part | complete => exact keeps_modify _ _

theorem keeps_startUp : Keeps (startUp service env) := by
  refine .bind ?_ fun _ => .bind (keeps_expireIncompleteLocked service _) fun _ => .pure _
  refine .bind (.inspect _) fun known => ?_
  refine .bind (.forEach (fun fileId => keeps_modify _ _) known) fun _ => ?_
  refine .bind (.inspect _) fun fileIds => ?_
  refine .bind (keeps_reconcileJournals service env fileIds) fun expected => ?_
  exact .bind (.inspect _) fun names => keeps_sweepData expected names

end Operations

end XFerry.Encrypted
