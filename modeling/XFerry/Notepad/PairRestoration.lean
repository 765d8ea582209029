/-
The restoration of a note's pair, and what is cleaned up after it.
-/

import XFerry.Notepad.PairAtomicity

namespace XFerry.Notepad.PairWrite

open CrashProgram Program Json Python Function PairWorld

variable {system : FileSystem} {noteId : NoteId} {before : Files}

def restorationSteps (part : NotePart) : List IoStep :=
  [.lookBackup part, .restoreBackup part, .lookReplaced part, .unlinkReplaced part]

def PartFails (system : FileSystem) (part : NotePart) : Prop :=
  ∃ step ∈ restorationSteps part, system.fails step = true

theorem isRestoration_of_mem {part : NotePart} {step : IoStep}
    (member : step ∈ restorationSteps part) : step.isRestoration = true := by
  simp only [restorationSteps, List.mem_cons, List.not_mem_nil, or_false] at member
  rcases member with rfl | rfl | rfl | rfl <;> rfl

theorem PartFails.restorationFails {part : NotePart} (fails : PartFails system part) :
    RestorationFails system := by
  obtain ⟨step, member, failed⟩ := fails
  exact ⟨step, isRestoration_of_mem member, failed⟩

/-! ### One part -/

variable {part : NotePart} {world later : PairWorld}

theorem Held.frame (held : Held noteId before part world) (sameTemp : later.temp = world.temp)
    (sameBackup : ∀ name, world.temp { part := part, isBackup := true } = some name →
      later.files name = world.files name) : Held noteId before part later := by
  rcases held with ⟨isNone, absent⟩ | ⟨name, isName, copied, was⟩
  · refine .inl ⟨?_, absent⟩
    rw [sameTemp]
    exact isNone
  refine .inr ⟨name, ?_, ?_, was⟩
  · rw [sameTemp]
    exact isName
  · rw [sameBackup name isName]
    exact copied

theorem Status.frame {stage : PartStage}
    (status : Status system noteId before part world stage) (sameTemp : later.temp = world.temp)
    (sameFinal : later.files (finalName noteId part) = world.files (finalName noteId part))
    (sameBackup : ∀ name, world.temp { part := part, isBackup := true } = some name →
      later.files name = world.files name) : Status system noteId before part later stage := by
  cases stage with
  | held => exact Held.frame status sameTemp sameBackup
  | settled =>
    obtain ⟨restored, used⟩ := status
    refine ⟨sameFinal ▸ restored, fun name isName => ?_⟩
    rw [sameTemp] at isName
    rw [sameBackup name isName]
    exact used name isName
  | lost => exact ⟨status.1.frame sameTemp sameBackup, sameFinal.trans status.2⟩

variable {stage : NotePart → PartStage}

theorem Undoing.become {next : PartStage}
    (undoing : Undoing system noteId before stage world) (sameTemp : later.temp = world.temp)
    (sameStarted : later.replacementsStarted = world.replacementsStarted)
    (reached : Status system noteId before part later next)
    (others : ∀ name, name ≠ finalName noteId part →
      world.temp { part := part, isBackup := true } ≠ some name →
      later.files name = world.files name) :
    Undoing system noteId before (update stage part next) later where
  recorded := by
    constructor
    · rw [sameTemp]
      exact undoing.recorded.fresh
    · rw [sameTemp]
      exact undoing.recorded.named
  elsewhere := by
    intro name unnamed notFinal
    rw [sameTemp] at unnamed
    rw [others name (notFinal part) (unnamed _)]
    exact undoing.elsewhere name unnamed notFinal
  status := by
    intro other
    by_cases same : other = part
    · rw [same, update_self]
      exact reached
    rw [update_of_ne same]
    refine (undoing.status other).frame sameTemp ?_ ?_
    · exact others _ (fun isFinal => same (finalName_injective noteId isFinal))
        (undoing.recorded.finalName_unnamed other _)
    · intro name isName
      refine others name (undoing.recorded.ne_finalName isName part) fun alsoName => ?_
      exact same (congrArg TempLabel.part (undoing.recorded.label isName alsoName))
  started := sameStarted.trans undoing.started

variable {world : PairWorld} {name : Text}

section

variable (undoing : Undoing system noteId before stage world)
include undoing

theorem Undoing.putBack (isName : world.temp { part := part, isBackup := true } = some name)
    (copied : world.files name = before (finalName noteId part)) :
    Undoing system noteId before (update stage part .settled)
      (world.rename name (finalName noteId part)) := by
  have notFinal := undoing.recorded.ne_finalName isName part
  refine undoing.become rfl rfl ⟨.inl ?_, fun kept isKept => ?_⟩ fun kept keptFinal keptName => ?_
  · rw [files_rename, update_of_ne notFinal.symm, update_self]
    exact copied
  · rw [temp_rename, isName] at isKept
    rw [← Option.some.inj isKept, files_rename, update_self]
  · have different : kept ≠ name := by
      rintro rfl
      exact keptName isName
    rw [files_rename, update_of_ne different, update_of_ne keptFinal]

theorem Undoing.takeAway (isNone : world.temp { part := part, isBackup := true } = none)
    (absent : before (finalName noteId part) = none) :
    Undoing system noteId before (update stage part .settled)
      (world.remove (finalName noteId part)) := by
  refine undoing.become rfl rfl ⟨.inl ?_, fun kept isKept => ?_⟩ fun kept keptFinal _ => ?_
  · rw [files_remove, update_self]
    exact absent.symm
  · rw [temp_remove, isNone] at isKept
    cases isKept
  · rw [files_remove, update_of_ne keptFinal]

theorem Undoing.neverThere (isNone : world.temp { part := part, isBackup := true } = none)
    (restored : world.files (finalName noteId part) = before (finalName noteId part) ∨
      RestorationFails system ∧ before (finalName noteId part) = none) :
    Undoing system noteId before (update stage part .settled) world := by
  refine undoing.become rfl rfl ⟨restored, fun kept isKept => ?_⟩ fun _ _ _ => rfl
  rw [isNone] at isKept
  cases isKept

theorem Undoing.lose (held : Held noteId before part world) :
    Undoing system noteId before (update stage part .lost)
      (world.remove (finalName noteId part)) := by
  refine undoing.become rfl rfl ⟨held.frame rfl fun kept isKept => ?_, update_self ..⟩
    fun kept keptFinal _ => ?_
  · rw [files_remove, update_of_ne (undoing.recorded.ne_finalName isKept part)]
  · rw [files_remove, update_of_ne keptFinal]

end

/-- A look at the backup of a part that was there does not go wrong unnoticed. -/
def BackupSeen (system : FileSystem) (noteId : NoteId) (before : Files) (part : NotePart) : Prop :=
  (before (finalName noteId part)).isSome = true →
    system.looksRaise = true ∨ system.fails (.lookBackup part) = false

/-- A part is put back, or a step fails and the part is as it was. -/
def Restored (system : FileSystem) (noteId : NoteId) (before : Files)
    (stage : NotePart → PartStage) (part : NotePart) (outcome : Except IoError Unit)
    (world : PairWorld) : Prop :=
  outcome.isOk = true ∧ Undoing system noteId before (update stage part .settled) world ∨
    outcome.isOk = false ∧ PartFails system part ∧ Undoing system noteId before stage world

theorem restorePart_absent (undoing : Undoing system noteId before stage world)
    (isNone : world.temp { part := part, isBackup := true } = none)
    (absent : before (finalName noteId part) = none) :
    Contract (fun _ => True) (· = world) (restorePart system noteId part none)
      (fun _ => Undoing system noteId before (update stage part .settled))
      (fun _ later => PartFails system part ∧ Undoing system noteId before stage later) := by
  refine .bind (fun found later => found = false ∧ later = world)
    (.pure fun _ same => ⟨rfl, same⟩) fun found => ?_
  cases found with
  | true => exact fun later start => nomatch start.1
  | false =>
    refine .bind _ ((lookAt_contract _ _).weaken (fun _ start => start.2)
      (fun _ _ seen => seen) fun _ later failed => ?_) fun found => ?_
    · rw [failed.1]
      exact ⟨⟨_, by simp [restorationSteps], failed.2⟩, undoing⟩
    · cases found with
      | true =>
        refine .weaken changing_contract (fun _ start => start) ?_ ?_
        · rintro _ later ⟨earlier, ⟨rfl, _⟩, rfl⟩
          exact undoing.takeAway isNone absent
        · rintro _ later ⟨⟨rfl, seen⟩, missing | failed⟩
          · rcases seen with present | ⟨unseen, _⟩
            · rw [missing] at present
              cases present
            · cases unseen
          · exact ⟨⟨_, by simp [restorationSteps], failed⟩, undoing⟩
      | false =>
        refine .pure fun later start => ?_
        obtain ⟨rfl, seen⟩ := start
        refine undoing.neverThere isNone ?_
        rcases seen with gone | ⟨_, failed, _⟩
        · rw [absent]
          exact .inl (Option.not_isSome_iff_eq_none.mp (by rw [← gone]; exact Bool.false_ne_true))
        · exact .inr ⟨⟨_, rfl, failed⟩, absent⟩

theorem restorePart_backup
    (seen : system.looksRaise = true ∨ system.fails (.lookBackup part) = false)
    (undoing : Undoing system noteId before stage world)
    (isName : world.temp { part := part, isBackup := true } = some name)
    (copied : world.files name = before (finalName noteId part))
    (was : (before (finalName noteId part)).isSome = true) :
    Contract (fun _ => True) (· = world) (restorePart system noteId part (some name))
      (fun _ => Undoing system noteId before (update stage part .settled))
      (fun _ later => PartFails system part ∧ Undoing system noteId before stage later) := by
  refine .bind _ ((lookAt_contract _ _).weaken (fun _ same => same)
    (fun _ _ seen => seen) fun _ later failed => ?_) fun found => ?_
  · rw [failed.1]
    exact ⟨⟨_, by simp [restorationSteps], failed.2⟩, undoing⟩
  · cases found with
    | true =>
      refine .weaken changing_contract (fun _ start => start) ?_ ?_
      · rintro _ later ⟨earlier, ⟨rfl, _⟩, rfl⟩
        exact undoing.putBack isName copied
      · rintro _ later ⟨⟨rfl, _⟩, missing | failed⟩
        · rw [copied] at missing
          rw [missing] at was
          cases was
        · exact ⟨⟨_, by simp [restorationSteps], failed⟩, undoing⟩
    | false =>
      refine .learning False (fun later start => ?_) nofun
      obtain ⟨rfl, unseen | ⟨_, failed, silent⟩⟩ := start
      · rw [copied, was] at unseen
        cases unseen
      · rw [silent, failed] at seen
        rcases seen with raises | works
        · cases raises
        · cases works

theorem restoreOf_contract (seen : BackupSeen system noteId before part)
    (notYet : stage part = .held) :
    Contract (fun _ => True) (Undoing system noteId before stage) (restoreOf system noteId part)
      (Restored system noteId before stage part) (fun _ _ => False) := by
  refine .look fun world undoing => ?_
  have held := undoing.status part
  rw [notYet] at held
  have restores : Contract (fun _ => True) (· = world)
      (restorePart system noteId part (world.temp { part := part, isBackup := true }))
      (fun _ => Undoing system noteId before (update stage part .settled))
      (fun _ later => PartFails system part ∧ Undoing system noteId before stage later) := by
    rcases held with ⟨isNone, absent⟩ | ⟨name, isName, copied, was⟩
    · rw [isNone]
      exact restorePart_absent undoing isNone absent
    · rw [isName]
      exact restorePart_backup (seen was) undoing isName copied was
  refine (Contract.attempt restores).weaken (fun _ same => same) ?_ fun _ _ none => none
  intro outcome later reached
  cases outcome with
  | ok value => exact .inl ⟨rfl, reached⟩
  | error error => exact .inr ⟨rfl, reached⟩

/-! ### The pair -/

def allSettled : NotePart → PartStage := fun _ => .settled

def PairRestored (system : FileSystem) (noteId : NoteId) (before : Files) (complete : Bool)
    (world : PairWorld) : Prop :=
  complete = true ∧ Undoing system noteId before allSettled world ∨
    complete = false ∧ RestorationFails system ∧ ∃ stage, Undoing system noteId before stage world

theorem restoreNotePair_contract (seen : ∀ part, BackupSeen system noteId before part) :
    Contract (fun _ => True) (Undoing system noteId before fun _ => .held)
      (restoreNotePair system noteId) (PairRestored system noteId before) (fun _ _ => False) := by
  refine .bind _ (restoreOf_contract (seen _) rfl) fun ciphertext => ?_
  refine .bind (fun sidecar world =>
    PairRestored system noteId before (ciphertext.isOk && sidecar.isOk) world) ?_ fun sidecar =>
      .pure fun _ restored => restored
  refine .pointwise fun world first => ?_
  rcases first with ⟨isOk, undoing⟩ | ⟨notOk, fails, undoing⟩
  · refine (restoreOf_contract (seen _) rfl).weaken (fun _ same => same ▸ undoing) ?_
      fun _ _ none => none
    intro sidecar later second
    rcases second with ⟨alsoOk, both⟩ | ⟨notOk, fails, one⟩
    · have all : update (update (fun _ => PartStage.held) .ciphertext .settled)
          .sidecar .settled = allSettled := by
        funext part
        cases part with
        | ciphertext | sidecar => rfl
      rw [all] at both
      exact .inl ⟨by rw [isOk, alsoOk, Bool.true_and], both⟩
    · exact .inr ⟨by rw [notOk, Bool.and_false], fails.restorationFails, _, one⟩
  · refine (restoreOf_contract (seen _) rfl).weaken (fun _ same => same ▸ undoing) ?_
      fun _ _ none => none
    intro sidecar later second
    refine .inr ⟨by rw [notOk, Bool.false_and], fails.restorationFails, ?_⟩
    rcases second with ⟨_, one⟩ | ⟨_, _, none⟩
    · exact ⟨_, one⟩
    · exact ⟨_, none⟩

inductive RolledBack (system : FileSystem) (noteId : NoteId) (before : Files) (world : PairWorld) :
    Prop where
  | untouched (preparing : Preparing noteId before world)
  | restored (undoing : Undoing system noteId before allSettled world)
      (complete : world.rollbackComplete = true)
  | incomplete (fails : RestorationFails system) (stage : NotePart → PartStage)
      (undoing : Undoing system noteId before stage world)
      (incomplete : world.rollbackComplete = false)

theorem Undoing.recording {stage : NotePart → PartStage} {complete : Bool}
    (undoing : Undoing system noteId before stage world) :
    Undoing system noteId before stage { world with rollbackComplete := complete } where
  recorded := ⟨undoing.recorded.fresh, undoing.recorded.named⟩
  __ := undoing
  status := fun part => (undoing.status part).frame rfl rfl fun _ _ => rfl

/-- Where the restoration is reached, the backups are seen. -/
def BackupsSeen (system : FileSystem) (noteId : NoteId) (before : Files) : Prop :=
  (∃ part, system.fails (.replaceFinal part) = true) →
    ∀ part, BackupSeen system noteId before part

theorem rollBack_contract (seen : BackupsSeen system noteId before) :
    Contract (fun _ => True) (Broken system noteId before) (rollBack system noteId)
      (fun _ world => Halted system noteId before ∧ RolledBack system noteId before world)
      (fun _ _ => False) := by
  refine .look fun world broken => ?_
  rcases broken with ⟨early, preparing⟩ | ⟨⟨part, replaces⟩, undoing⟩
  · rw [preparing.notStarted, if_neg Bool.false_ne_true]
    refine .pure fun _ same => ?_
    rw [same]
    exact ⟨early.halted, .untouched preparing⟩
  · rw [undoing.started, if_pos rfl]
    refine .bind _ ((restoreNotePair_contract (seen ⟨part, replaces⟩)).weaken
      (fun _ same => same ▸ undoing) (fun _ _ restored => restored) fun _ _ none => none)
      fun complete => .record fun later restored =>
        ⟨⟨.io (.replaceFinal part), replaces, rfl⟩, ?_⟩
    rcases restored with ⟨isComplete, all⟩ | ⟨notComplete, fails, stage, some⟩
    · exact .restored all.recording isComplete
    · exact .incomplete fails stage some.recording notComplete

/-! ### Cleaning up -/

variable {raises : IoError → PairWorld → Prop} {label : TempLabel}

theorem cleanTemp_contract {requires returns : PairWorld → Prop}
    (unset : ∀ world, requires world → world.temp label = none → returns world)
    (kept : ∀ world, requires world → system.fails (.cleanTemp label) = true → returns world)
    (removed : ∀ world name, requires world → world.temp label = some name →
      returns (world.remove name)) :
    Contract (fun _ => True) requires (cleanTemp system label) (fun _ => returns) raises := by
  refine .look fun world start => ?_
  split
  · case _ isNone => exact .pure fun _ same => same ▸ unset world start isNone
  rename_i name isName
  split
  · case _ fails => exact .pure fun _ same => same ▸ kept world start fails
  refine .durable (fun _ _ => trivial) fun _ same => ?_
  rw [same]
  exact removed world name start isName

/-- What the labels named at the start is gone, and nothing else has changed. -/
structure Cleaned (start : PairWorld) (labels : List TempLabel) (world : PairWorld) : Prop where
  temp : world.temp = start.temp
  complete : world.rollbackComplete = start.rollbackComplete
  gone : ∀ label ∈ labels, ∀ name, start.temp label = some name → world.files name = none
  kept : ∀ name, (∀ label ∈ labels, start.temp label ≠ some name) →
    world.files name = start.files name

def labelsOf (isBackup : Bool) : List TempLabel :=
  [ { part := .sidecar, isBackup := isBackup }, { part := .ciphertext, isBackup := isBackup } ]

def cleanedLabels (complete : Bool) : List TempLabel :=
  if complete = true then labelsOf true ++ labelsOf false else labelsOf false

theorem mem_cleanedLabels (label : TempLabel) : label ∈ cleanedLabels true := by
  obtain ⟨part, isBackup⟩ := label
  cases part <;> cases isBackup <;> decide

variable {labels : List TempLabel} {start : PairWorld}

theorem cleanTemp_cleans (quiet : system.fails (.cleanTemp label) = false) :
    Contract (fun _ => True) (Cleaned start labels) (cleanTemp system label)
      (fun _ => Cleaned start (label :: labels)) raises := by
  refine cleanTemp_contract ?_ ?_ ?_
  · intro world cleaned isNone
    rw [cleaned.temp] at isNone
    refine ⟨cleaned.temp, cleaned.complete, fun other member name isName => ?_,
      fun name unnamed => cleaned.kept name (List.forall_mem_cons.mp unnamed).2⟩
    rcases List.mem_cons.mp member with rfl | before
    · rw [isNone] at isName
      cases isName
    · exact cleaned.gone other before name isName
  · intro _ _ fails
    rw [quiet] at fails
    cases fails
  · intro world name cleaned isName
    rw [cleaned.temp] at isName
    refine ⟨cleaned.temp, cleaned.complete, fun other member kept isKept => ?_,
      fun kept unnamed => ?_⟩
    · by_cases same : kept = name
      · rw [same, files_remove, update_self]
      rw [files_remove, update_of_ne same]
      rcases List.mem_cons.mp member with rfl | before
      · rw [isName] at isKept
        exact absurd (Option.some.inj isKept).symm same
      · exact cleaned.gone other before kept isKept
    · obtain ⟨notLabel, unnamed⟩ := List.forall_mem_cons.mp unnamed
      have different : kept ≠ name := by
        rintro rfl
        exact notLabel isName
      rw [files_remove, update_of_ne different]
      exact cleaned.kept kept unnamed

theorem cleanUp_cleans (quiet : ∀ label, system.fails (.cleanTemp label) = false) :
    Contract (fun _ => True) (· = start) (cleanUp system)
      (fun _ => Cleaned start (cleanedLabels start.rollbackComplete)) raises := by
  have parts (isBackup : Bool) (labels : List TempLabel) :
      Contract (fun _ => True) (Cleaned start labels) (cleanParts system isBackup)
        (fun _ => Cleaned start (labelsOf isBackup ++ labels)) raises :=
    .bind _ (cleanTemp_cleans (quiet _)) fun _ => cleanTemp_cleans (quiet _)
  refine .bind (fun _ => Cleaned start (labelsOf false)) ((parts false []).weaken ?_
    (fun _ _ cleaned => cleaned) fun _ _ why => why) fun _ => .look fun world cleaned => ?_
  · rintro world rfl
    exact ⟨rfl, rfl, nofun, fun _ _ => rfl⟩
  · unfold cleanedLabels
    rw [cleaned.complete]
    split
    · exact (parts true _).weaken (fun _ same => same ▸ cleaned) (fun _ _ cleaned => cleaned)
        fun _ _ why => why
    · exact .pure fun _ same => same ▸ cleaned

theorem Cleaned.ends (cleaned : Cleaned start (cleanedLabels start.rollbackComplete) world)
    (recorded : Recorded noteId before start) (complete : start.rollbackComplete = true)
    (name : Text) :
    (∀ label, start.temp label ≠ some name) ∧ world.files name = start.files name ∨
      world.files name = before name ∧ ∀ part, name ≠ finalName noteId part := by
  rw [complete] at cleaned
  by_cases unnamed : ∀ label, start.temp label ≠ some name
  · exact .inl ⟨unnamed, cleaned.kept name fun label _ => unnamed label⟩
  · obtain ⟨label, isName⟩ := not_forall.mp unnamed
    rw [not_not] at isName
    refine .inr ⟨?_, recorded.ne_finalName isName⟩
    rw [cleaned.gone label (mem_cleanedLabels label) name isName, recorded.fresh label name isName]

/-- A name ends as it was; a part that was not there may stay, where the restoration fails. -/
def EndsAsBefore (system : FileSystem) (noteId : NoteId) (before : Files) (name : Text)
    (content : Option Bytes) : Prop :=
  content = before name ∨
    RestorationFails system ∧ before name = none ∧ ∃ part, name = finalName noteId part

theorem Preparing.ends (preparing : Preparing noteId before start)
    (cleaned : Cleaned start (cleanedLabels start.rollbackComplete) world) (name : Text) :
    EndsAsBefore system noteId before name (world.files name) := by
  rcases cleaned.ends preparing.recorded preparing.complete name with ⟨unnamed, same⟩ | asBefore
  · exact .inl (same.trans (preparing.elsewhere name unnamed))
  · exact .inl asBefore.1

theorem Undoing.ends (undoing : Undoing system noteId before allSettled start)
    (complete : start.rollbackComplete = true)
    (cleaned : Cleaned start (cleanedLabels start.rollbackComplete) world) (name : Text) :
    EndsAsBefore system noteId before name (world.files name) := by
  rcases cleaned.ends undoing.recorded complete name with ⟨unnamed, same⟩ | asBefore
  · rw [same]
    by_cases isFinal : ∃ part, name = finalName noteId part
    · obtain ⟨part, rfl⟩ := isFinal
      exact (undoing.status part).1.imp_right fun stays => ⟨stays.1, stays.2, part, rfl⟩
    · exact .inl (undoing.elsewhere name unnamed (not_exists.mp isFinal))
  · exact .inl asBefore.1

/-! ### The write -/

/-- The old pair, where the restoration fails: each content stands in its place or in a
backup that the write has made, and no other file is left. -/
structure OldPairKept (system : FileSystem) (noteId : NoteId) (before : Files)
    (world : PairWorld) : Prop where
  fails : RestorationFails system
  kept : ∀ part old, before (finalName noteId part) = some old →
    world.files (finalName noteId part) = some old ∨
      ∃ token, before (tempName noteId { part := part, isBackup := true } token) = none ∧
        world.files (tempName noteId { part := part, isBackup := true } token) = some old
  elsewhere : ∀ name, (∀ part, name ≠ finalName noteId part) → world.files name = before name ∨
    ∃ part token, name = tempName noteId { part := part, isBackup := true } token ∧
      world.files name = before (finalName noteId part)

theorem Undoing.oldPairKept (undoing : Undoing system noteId before stage start)
    (cleaned : Cleaned start (labelsOf false) world) (fails : RestorationFails system) :
    OldPairKept system noteId before world := by
  have recorded := undoing.recorded
  have status (part : NotePart) : Status system noteId before part world (stage part) := by
    refine (undoing.status part).frame cleaned.temp
      (cleaned.kept _ fun label _ => recorded.finalName_unnamed part label) fun name isName =>
        cleaned.kept name fun label member isLabel => ?_
    rw [← recorded.label isName isLabel] at member
    revert member
    cases part with
    | ciphertext | sidecar => decide
  refine ⟨fails, fun part old was => ?_, fun name notFinal => ?_⟩
  · have backed (held : Held noteId before part world) :
        ∃ token, before (tempName noteId { part := part, isBackup := true } token) = none ∧
          world.files (tempName noteId { part := part, isBackup := true } token) = some old := by
      rcases held with ⟨_, absent⟩ | ⟨name, isName, copied, _⟩
      · rw [was] at absent
        cases absent
      · rw [cleaned.temp] at isName
        have fresh := recorded.fresh _ name isName
        obtain ⟨token, rfl⟩ := recorded.named _ name isName
        exact ⟨token, fresh, copied.trans was⟩
    have status := status part
    cases isStage : stage part with
    | held =>
      rw [isStage] at status
      exact .inr (backed status)
    | settled =>
      rw [isStage] at status
      rcases status.1 with same | ⟨_, absent⟩
      · exact .inl (same.trans was)
      · rw [was] at absent
        cases absent
    | lost =>
      rw [isStage] at status
      exact .inr (backed status.1)
  · by_cases unnamed : ∀ label, start.temp label ≠ some name
    · exact .inl ((cleaned.kept name fun label _ => unnamed label).trans
        (undoing.elsewhere name unnamed notFinal))
    obtain ⟨⟨part, isBackup⟩, isName⟩ := not_forall.mp unnamed
    rw [not_not] at isName
    have fresh := recorded.fresh _ name isName
    cases isBackup with
    | false =>
      refine .inl ((cleaned.gone _ ?_ name isName).trans fresh.symm)
      cases part with
      | ciphertext | sidecar => decide
    | true =>
      have isLater := isName
      rw [← cleaned.temp] at isLater
      have copy (held : Held noteId before part world) : ∃ part token,
          name = tempName noteId { part := part, isBackup := true } token ∧
            world.files name = before (finalName noteId part) := by
        rcases held with ⟨isNone, _⟩ | ⟨other, isOther, copied, _⟩
        · rw [isLater] at isNone
          cases isNone
        rw [isLater] at isOther
        cases isOther
        obtain ⟨token, named⟩ := recorded.named _ name isName
        exact ⟨part, token, named, copied⟩
      have status := status part
      cases isStage : stage part with
      | held =>
        rw [isStage] at status
        exact .inr (copy status)
      | settled =>
        rw [isStage] at status
        exact .inl ((status.2 name isLater).trans fresh.symm)
      | lost =>
        rw [isStage] at status
        exact .inr (copy status.1)

/-- What a write that raises leaves of the directory. -/
def Left (system : FileSystem) (noteId : NoteId) (before : Files) (world : PairWorld) : Prop :=
  world.files = before ∨ Halted system noteId before ∧ OldPairKept system noteId before world

theorem asBefore_or_kept
    (ended : ∀ name, EndsAsBefore system noteId before name (world.files name)) :
    world.files = before ∨ OldPairKept system noteId before world := by
  by_cases same : ∀ name, world.files name = before name
  · exact .inl (funext same)
  refine .inr ?_
  obtain ⟨odd, differs⟩ := not_forall.mp same
  obtain ⟨fails, _⟩ := (ended odd).resolve_left differs
  refine ⟨fails, fun part old was => .inl ?_, fun name notFinal => .inl ?_⟩
  · refine ((ended _).resolve_right ?_).trans was
    rintro ⟨_, absent, _⟩
    rw [was] at absent
    cases absent
  · refine (ended name).resolve_right ?_
    rintro ⟨_, _, part, isFinal⟩
    exact notFinal part isFinal

theorem cleanUp_contract (single : SingleFailure system noteId before) :
    Contract (fun _ => True)
      (fun world => Halted system noteId before ∧ RolledBack system noteId before world)
      (cleanUp system) (fun _ => Left system noteId before) (fun _ _ => False) := by
  refine .pointwise fun world start => ?_
  obtain ⟨halted, rolledBack⟩ := start
  refine (cleanUp_cleans (halted.clean single)).weaken (fun _ same => same) ?_
    fun _ _ none => none
  intro _ last cleaned
  have asBefore (ended : ∀ name, EndsAsBefore system noteId before name (last.files name)) :
      Left system noteId before last :=
    (asBefore_or_kept ended).imp_right fun kept => ⟨halted, kept⟩
  cases rolledBack with
  | untouched preparing => exact asBefore (preparing.ends cleaned)
  | restored undoing complete => exact asBefore (undoing.ends complete cleaned)
  | incomplete fails stage undoing incomplete =>
    rw [incomplete] at cleaned
    exact .inr ⟨halted, undoing.oldPairKept cleaned fails⟩

theorem cleanUp_returns :
    Contract (fun _ => True) (fun _ => True) (cleanUp system) (fun _ _ => True) raises := by
  have temp (label : TempLabel) :
      Contract (fun _ => True) (fun _ => True) (cleanTemp system label) (fun _ _ => True) raises :=
    cleanTemp_contract (fun _ _ _ => trivial) (fun _ _ _ => trivial) fun _ _ _ _ => trivial
  have parts (isBackup : Bool) :
      Contract (fun _ => True) (fun _ => True) (cleanParts system isBackup) (fun _ _ => True)
        raises := Contract.bind _ (temp _) fun _ => temp _
  refine .bind _ (parts false) fun _ => .look fun world _ => ?_
  split
  · exact (parts true).weaken (fun _ _ => trivial) (fun _ _ done => done) fun _ _ why => why
  · exact .pure fun _ _ => trivial

theorem writeNotePairAtomic_contract (single : SingleFailure system noteId before)
    (seen : BackupsSeen system noteId before) (rawData metaData : Bytes) :
    Contract (fun _ => True) (· = PairWorld.start before)
      (writeNotePairAtomic system noteId rawData metaData) (fun _ _ => True)
      (fun _ => Left system noteId before) := by
  have undone : Contract (fun _ => True) (· = PairWorld.start before)
      (cleaningUp (replacePair system noteId rawData metaData) (rollBack system noteId))
      (fun _ _ => True)
      (fun _ world => Halted system noteId before ∧ RolledBack system noteId before world) := by
    refine .cleaningUp _ ((replacePair_contract single rawData metaData).weaken
      (fun _ start => start) (fun _ _ _ => trivial) fun _ _ broken => broken) fun _ => ?_
    exact (rollBack_contract seen).weaken (fun _ broken => broken) (fun _ _ rolled => rolled)
      fun _ _ none => none.elim
  refine .bind _ (.attempt undone) fun outcome => ?_
  cases outcome with
  | ok value =>
    refine .bind _ (cleanUp_returns.weaken (fun _ _ => trivial) (fun _ _ done => done)
      fun _ _ why => why) fun _ => ?_
    exact .pure fun _ _ => trivial
  | error error =>
    refine .bind _ ((cleanUp_contract single).weaken (fun _ rolled => rolled)
      (fun _ _ left => left) fun _ _ none => none.elim) fun _ => ?_
    exact .raise fun _ left => left

/-! ### A backup that is not seen -/

/-- The look at the backup of a part fails unnoticed, and no other step of the restoration
fails. -/
structure Loses (system : FileSystem) (noteId : NoteId) (before : Files) (lost : NotePart) :
    Prop where
  silent : system.looksRaise = false
  unseen : system.fails (.lookBackup lost) = true
  works : ∀ step, step.isRestoration = true → step ≠ .lookBackup lost → system.fails step = false
  was : (before (finalName noteId lost)).isSome = true

variable {lost : NotePart}

theorem lookAt_unseen {step : IoStep} (silent : system.looksRaise = false)
    (fails : system.fails step = true) : lookAt system step name = pure false := by
  unfold lookAt
  rw [if_pos fails, if_neg (by rw [silent]; decide)]

theorem lookAt_works {step : IoStep} (works : system.fails step = false) :
    lookAt system step name = inspect fun world => (world.files name).isSome := by
  unfold lookAt
  rw [if_neg (by rw [works]; decide)]

theorem restorePart_lost (loses : Loses system noteId before lost)
    (undoing : Undoing system noteId before stage world) (held : Held noteId before lost world)
    (backup : Text) :
    Contract (fun _ => True) (· = world) (restorePart system noteId lost (some backup))
      (fun _ => Undoing system noteId before (update stage lost .lost)) (fun _ _ => False) := by
  refine .bind (fun found later => found = false ∧ later = world) ?_ fun found => ?_
  · unfold hasBackup
    dsimp only
    rw [lookAt_unseen loses.silent loses.unseen]
    exact .pure fun _ same => ⟨rfl, same⟩
  cases found with
  | true => exact fun later start => nomatch start.1
  | false =>
    refine .bind (fun found later =>
      found = (world.files (finalName noteId lost)).isSome ∧ later = world) ?_ fun found => ?_
    · rw [lookAt_works (loses.works (.lookReplaced lost) rfl nofun)]
      refine .inspect fun later start => ?_
      rw [start.2]
      exact ⟨rfl, rfl⟩
    cases found with
    | true =>
      unfold unlink failing
      refine .look fun _ start => ?_
      obtain ⟨present, rfl⟩ := start
      have isThere := Option.ne_none_iff_isSome.mpr present.symm
      rw [if_neg isThere, loses.works (.unlinkReplaced lost) rfl nofun, if_neg Bool.false_ne_true]
      exact .durable (fun _ _ => trivial) fun _ same => same ▸ undoing.lose held
    | false =>
      refine .pure fun later start => ?_
      obtain ⟨gone, rfl⟩ := start
      have isGone := Option.isSome_eq_false_iff.mp gone.symm
      exact undoing.become rfl rfl ⟨held, Option.isNone_iff_eq_none.mp isGone⟩ fun _ _ _ => rfl

def stageOf (lost part : NotePart) : PartStage := if part = lost then .lost else .settled

theorem restoreOf_loses (loses : Loses system noteId before lost) (notYet : stage part = .held) :
    Contract (fun _ => True) (Undoing system noteId before stage) (restoreOf system noteId part)
      (fun outcome world => outcome.isOk = true ∧
        Undoing system noteId before (update stage part (stageOf lost part)) world)
      (fun _ _ => False) := by
  by_cases isLost : part = lost
  · subst isLost
    rw [stageOf, if_pos rfl]
    refine .look fun world undoing => ?_
    have held := undoing.status part
    rw [notYet] at held
    obtain ⟨name, isName⟩ : ∃ name, world.temp { part := part, isBackup := true } = some name := by
      rcases held with ⟨_, absent⟩ | ⟨name, isName, _⟩
      · have was := loses.was
        rw [absent] at was
        cases was
      · exact ⟨name, isName⟩
    rw [isName]
    refine (Contract.attempt (restorePart_lost loses undoing held name)).weaken
      (fun _ same => same) ?_ fun _ _ none => none
    intro outcome later reached
    cases outcome with
    | ok value => exact ⟨rfl, reached⟩
    | error error => exact reached.elim
  · have works {step : IoStep} (member : step ∈ restorationSteps part) :
        system.fails step = false := by
      refine loses.works step (isRestoration_of_mem member) ?_
      rintro rfl
      simp only [restorationSteps, List.mem_cons, List.not_mem_nil, or_false, reduceCtorEq,
        IoStep.lookBackup.injEq] at member
      exact isLost member.symm
    rw [stageOf, if_neg isLost]
    have seen : BackupSeen system noteId before part :=
      fun _ => .inr (works (by simp [restorationSteps]))
    refine (restoreOf_contract seen notYet).weaken (fun _ start => start) ?_ fun _ _ none => none
    rintro outcome later (restored | ⟨_, ⟨step, member, fails⟩, _⟩)
    · exact restored
    · rw [works member] at fails
      cases fails

theorem restoreNotePair_loses (loses : Loses system noteId before lost) :
    Contract (fun _ => True) (Undoing system noteId before fun _ => .held)
      (restoreNotePair system noteId)
      (fun complete world => complete = true ∧ Undoing system noteId before (stageOf lost) world)
      (fun _ _ => False) := by
  refine .bind _ (restoreOf_loses loses rfl) fun ciphertext => ?_
  refine .bind (fun sidecar world => (ciphertext.isOk && sidecar.isOk) = true ∧
    Undoing system noteId before (stageOf lost) world) ?_ fun sidecar =>
      .pure fun _ restored => restored
  refine .learning (ciphertext.isOk = true) (fun _ start => start.1) fun isOk => ?_
  refine (restoreOf_loses loses rfl).weaken (fun _ start => start.2) ?_ fun _ _ none => none
  rintro sidecar later ⟨alsoOk, both⟩
  have all : update (update (fun _ => PartStage.held) .ciphertext (stageOf lost .ciphertext))
      .sidecar (stageOf lost .sidecar) = stageOf lost := by
    funext part
    cases part with
    | ciphertext | sidecar => rfl
  rw [all] at both
  exact ⟨by rw [isOk, alsoOk, Bool.true_and], both⟩

/-- The lost part ends as missing, and nothing else has changed but the other part. -/
def EndsLost (noteId : NoteId) (before : Files) (lost : NotePart) (name : Text)
    (content : Option Bytes) : Prop :=
  (name = finalName noteId lost → content = none) ∧
    ((∀ part, name ≠ finalName noteId part) → content = before name)

theorem Undoing.endsLost (undoing : Undoing system noteId before (stageOf lost) start)
    (complete : start.rollbackComplete = true)
    (cleaned : Cleaned start (cleanedLabels start.rollbackComplete) world) (name : Text) :
    EndsLost noteId before lost name (world.files name) := by
  rcases cleaned.ends undoing.recorded complete name with ⟨unnamed, same⟩ | ⟨asBefore, notFinal⟩
  · rw [same]
    refine ⟨?_, undoing.elsewhere name unnamed⟩
    rintro rfl
    have status := undoing.status lost
    rw [stageOf, if_pos rfl] at status
    exact status.2
  · exact ⟨fun isFinal => absurd isFinal (notFinal lost), fun _ => asBefore⟩

theorem writeNotePairAtomic_loses (single : SingleFailure system noteId before)
    (replaces : system.fails (.replaceFinal part) = true)
    (loses : Loses system noteId before lost) (rawData metaData : Bytes) :
    Contract (fun _ => True) (· = PairWorld.start before)
      (writeNotePairAtomic system noteId rawData metaData) (fun _ _ => False)
      (fun _ world => ∀ name, EndsLost noteId before lost name (world.files name)) := by
  have isFailure : Fails system noteId before (.io (.replaceFinal part)) := replaces
  have quiet := Halted.clean single ⟨_, isFailure, rfl⟩
  have undone : Contract (fun _ => True) (Broken system noteId before) (rollBack system noteId)
      (fun _ world => Undoing system noteId before (stageOf lost) world ∧
        world.rollbackComplete = true) (fun _ _ => False) := by
    refine .look fun world broken => ?_
    rcases broken with ⟨⟨failure, fails, halts, early⟩, _⟩ | ⟨_, undoing⟩
    · exact absurd (single failure _ fails isFailure (not_restoration_of_halts halts) rfl)
        (early part)
    rw [undoing.started, if_pos rfl]
    refine .bind _ ((restoreNotePair_loses loses).weaken (fun _ same => same ▸ undoing)
      (fun _ _ restored => restored) fun _ _ none => none) fun complete =>
        .record fun later restored => ?_
    exact ⟨restored.2.recording, restored.1⟩
  have replaced : Contract (fun _ => True) (· = PairWorld.start before)
      (cleaningUp (replacePair system noteId rawData metaData) (rollBack system noteId))
      (fun _ _ => False)
      (fun _ world => Undoing system noteId before (stageOf lost) world ∧
        world.rollbackComplete = true) := by
    refine .cleaningUp _ ((replacePair_contract single rawData metaData).weaken
      (fun _ start => start) (fun _ _ none => ?_) fun _ _ broken => broken) fun _ => ?_
    · rw [none part] at replaces
      cases replaces
    · exact undone.weaken (fun _ broken => broken) (fun _ _ rest => rest) fun _ _ none => none.elim
  refine .bind _ (.attempt replaced) fun outcome => ?_
  cases outcome with
  | ok value => exact fun _ none => none.elim
  | error error =>
    refine .pointwise fun start lost => ?_
    exact .bind _ (cleanUp_cleans quiet) fun _ =>
      .raise fun _ cleaned => lost.1.endsLost lost.2 cleaned

def SingleRestorationFailure (system : FileSystem) : Prop :=
  ∀ first second : IoStep, first.isRestoration = true → second.isRestoration = true →
    system.fails first = true → system.fails second = true → first = second

theorem exists_lost (single : SingleFailure system noteId before)
    (one : SingleRestorationFailure system) (unseen : ¬ BackupsSeen system noteId before)
    (rawData metaData : Bytes) :
    ∃ error world, (writeNotePairAtomic system noteId rawData metaData).final
        (PairWorld.start before) = (.error error, world) ∧
      ¬ (world.files = before ∨ OldPairKept system noteId before world) := by
  obtain ⟨⟨part, replaces⟩, notSeen⟩ := Classical.not_imp.mp unseen
  obtain ⟨lost, notSeen⟩ := not_forall.mp notSeen
  obtain ⟨was, notSeen⟩ := Classical.not_imp.mp notSeen
  rw [not_or, Bool.not_eq_true, Bool.not_eq_false] at notSeen
  have loses : Loses system noteId before lost :=
    { silent := notSeen.1
      unseen := notSeen.2
      works := fun step restores other => Bool.eq_false_iff.mpr fun fails =>
        other (one step _ restores rfl fails notSeen.2)
      was := was }
  have contract := writeNotePairAtomic_loses single replaces loses rawData metaData
  cases ended : (writeNotePairAtomic system noteId rawData metaData).final (start before) with
  | mk outcome world =>
    cases outcome with
    | ok value => exact (contract.of_returned rfl ended).elim
    | error error =>
      have ends := contract.of_raised rfl ended
      have gone := (ends (finalName noteId lost)).1 rfl
      obtain ⟨old, isOld⟩ := Option.isSome_iff_exists.mp was
      refine ⟨error, world, rfl, ?_⟩
      rintro (same | kept)
      · rw [same, isOld] at gone
        cases gone
      rcases kept.kept lost old isOld with stays | ⟨token, absent, backedUp⟩
      · rw [gone] at stays
        cases stays
      · rw [(ends _).2 (tempName_ne_finalName noteId _ token), absent] at backedUp
        cases backedUp

/-- A write that raises for one failure leaves the directory as it was.  Where steps of the
restoration fail too, the old pair is kept if the backups are seen, and of one such step only
then. -/
theorem writeNotePairAtomic_raised (system : FileSystem) (noteId : NoteId) (before : Files)
    (rawData metaData : Bytes) :
    ((∀ first second, Fails system noteId before first → Fails system noteId before second →
      first = second) →
      ∀ error world, (writeNotePairAtomic system noteId rawData metaData).final
        (PairWorld.start before) = (.error error, world) → world.files = before) ∧
    (SingleFailure system noteId before → BackupsSeen system noteId before →
      ∀ error world, (writeNotePairAtomic system noteId rawData metaData).final
        (PairWorld.start before) = (.error error, world) →
      world.files = before ∨ OldPairKept system noteId before world) ∧
    (SingleFailure system noteId before → SingleRestorationFailure system →
      ((∀ error world, (writeNotePairAtomic system noteId rawData metaData).final
          (PairWorld.start before) = (.error error, world) →
        world.files = before ∨ OldPairKept system noteId before world) ↔
        BackupsSeen system noteId before)) := by
  have keeps (single : SingleFailure system noteId before)
      (seen : BackupsSeen system noteId before) (error : IoError) (world : PairWorld)
      (raised : (writeNotePairAtomic system noteId rawData metaData).final
        (PairWorld.start before) = (.error error, world)) :=
    (writeNotePairAtomic_contract single seen rawData metaData).of_raised rfl raised
  refine ⟨?_, ?_, ?_⟩
  · intro only error world raised
    have single : SingleFailure system noteId before := fun first second isFirst isSecond _ _ =>
      only first second isFirst isSecond
    -- the failure that ends the write is not one of the restoration
    have quiet (halted : Halted system noteId before) {step : IoStep}
        (restores : step.isRestoration = true) : system.fails step = false := by
      obtain ⟨failure, fails, halts⟩ := halted
      rw [← Bool.not_eq_true]
      intro also
      have kind := not_restoration_of_halts halts
      rw [only failure (.io step) fails also] at kind
      change step.isRestoration = false at kind
      rw [restores] at kind
      cases kind
    have seen : BackupsSeen system noteId before := by
      rintro ⟨replaced, replaces⟩ part _
      exact .inr (quiet ⟨.io (.replaceFinal replaced), replaces, rfl⟩ rfl)
    rcases keeps single seen error world raised with same | ⟨halted, kept⟩
    · exact same
    obtain ⟨step, restores, fails⟩ := kept.fails
    rw [quiet halted restores] at fails
    cases fails
  · intro single seen error world raised
    exact (keeps single seen error world raised).imp_right fun left => left.2
  · intro single one
    refine ⟨fun property => ?_, fun seen error world raised =>
      (keeps single seen error world raised).imp_right fun left => left.2⟩
    by_contra unseen
    obtain ⟨error, world, raised, broken⟩ := exists_lost single one unseen rawData metaData
    exact broken (property error world raised)

def sampleId : NoteId := { text := List.replicate 32 'b', valid := by decide }

def samplePair : Files := fun name =>
  if name = finalName sampleId .ciphertext then some [1]
  else if name = finalName sampleId .sidecar then some [2]
  else none

def sampleSystem (failing : List IoStep) : FileSystem :=
  { token := fun _ _ => ⟨List.replicate 16 '0', rfl⟩
    fails := fun step => decide (step ∈ failing)
    torn := fun _ _ => [0]
    looksRaise := true }

theorem samplePair_fails {failing : List IoStep} {failure : Failure}
    (fails : Fails (sampleSystem failing) sampleId samplePair failure) :
    ∃ step ∈ failing, failure = .io step := by
  cases failure with
  | io step => exact ⟨step, of_decide_eq_true fails, rfl⟩
  | exhausted label =>
    have taken := fails 0 (by decide)
    have notFinal := tempName_ne_finalName sampleId label ((sampleSystem failing).token label 0)
    cases taken

theorem sampleSystem_single {restoration : IoStep} (restores : restoration.isRestoration = true)
    (raises : Bool) : SingleFailure { sampleSystem [.replaceFinal .sidecar, restoration] with
      looksRaise := raises } sampleId samplePair := by
  intro first second isFirst isSecond one two
  have replaces {failure : Failure} (fails :
      Fails (sampleSystem [.replaceFinal .sidecar, restoration]) sampleId samplePair failure)
      (kind : failure.isRestoration = false) : failure = .io (.replaceFinal .sidecar) := by
    obtain ⟨step, member, rfl⟩ := samplePair_fails fails
    rcases List.mem_pair.mp member with rfl | rfl
    · rfl
    · exact absurd (restores.symm.trans kind) (by decide)
  rw [replaces isFirst one, replaces isSecond two]

/-- The second replacement fails, and the first is undone; where the old ciphertext cannot
be put back either, its backup stays. -/
theorem secondReplacement_undone :
    ((writeNotePairAtomic (sampleSystem [.replaceFinal .sidecar]) sampleId [3] [4]).final
      (PairWorld.start samplePair)).2.files = samplePair ∧
    OldPairKept (sampleSystem [.replaceFinal .sidecar, .restoreBackup .ciphertext]) sampleId
      samplePair
      ((writeNotePairAtomic (sampleSystem [.replaceFinal .sidecar, .restoreBackup .ciphertext])
        sampleId [3] [4]).final (PairWorld.start samplePair)).2 := by
  constructor
  · refine (writeNotePairAtomic_raised (sampleSystem [.replaceFinal .sidecar]) sampleId samplePair
      [3] [4]).1 (fun first second isFirst isSecond => ?_) .osError _ (Prod.ext rfl rfl)
    obtain ⟨step, member, rfl⟩ := samplePair_fails isFirst
    obtain ⟨other, alsoMember, rfl⟩ := samplePair_fails isSecond
    rw [List.mem_singleton.mp member, List.mem_singleton.mp alsoMember]
  · have outcome := (writeNotePairAtomic_raised
      (sampleSystem [.replaceFinal .sidecar, .restoreBackup .ciphertext]) sampleId samplePair
      [3] [4]).2.1 (sampleSystem_single rfl true) (fun _ _ _ => .inl rfl) .osError _
      (Prod.ext rfl rfl)
    refine outcome.resolve_left fun same => ?_
    have replaced := congrFun same (finalName sampleId .ciphertext)
    revert replaced
    decide +kernel

/-- `exists` answers False for the backup of the ciphertext: the old ciphertext is removed, and
then its backup. -/
theorem unseenBackup_lost :
    ¬ ∀ (system : FileSystem) (before : Files) (rawData metaData : Bytes),
      SingleFailure system sampleId before → SingleRestorationFailure system →
      ∀ error world, (writeNotePairAtomic system sampleId rawData metaData).final
          (PairWorld.start before) = (.error error, world) →
        world.files = before ∨ OldPairKept system sampleId before world := by
  intro property
  let system := { sampleSystem [.replaceFinal .sidecar, .lookBackup .ciphertext] with
    looksRaise := false }
  have single : SingleFailure system sampleId samplePair := sampleSystem_single rfl false
  have one : SingleRestorationFailure system := by
    intro first second isFirst isSecond firstFails secondFails
    have looks {step : IoStep} (restores : step.isRestoration = true)
        (fails : system.fails step = true) : step = .lookBackup .ciphertext := by
      rcases List.mem_pair.mp (of_decide_eq_true fails) with rfl | rfl
      · cases restores
      · rfl
    rw [looks isFirst firstFails, looks isSecond secondFails]
  have unseen : ¬ BackupsSeen system sampleId samplePair := by
    intro seen
    rcases seen ⟨.sidecar, by decide⟩ .ciphertext (by decide) with raises | works
    · cases raises
    · exact absurd works (by decide)
  obtain ⟨error, world, raised, broken⟩ := exists_lost single one unseen [3] [4]
  exact broken (property system samplePair [3] [4] single one error world raised)

end XFerry.Notepad.PairWrite
