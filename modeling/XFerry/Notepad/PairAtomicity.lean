/-
A write of a note that raises leaves the pair that was there.

The variables of the write name every file it has made.  Until the replacements start, all
other files are as before; from then on the backups hold what the pair was.
-/

import XFerry.Notepad.PairWrite

namespace XFerry.Notepad.PairWrite

open CrashProgram Program Json Python Function List PairWorld

theorem head_finalName (noteId : NoteId) (part : NotePart) :
    (finalName noteId part).head? ≠ some '.' := by
  have valid := noteId.valid
  unfold isValidNoteId at valid
  rw [Bool.and_eq_true, decide_eq_true_eq, all_eq_true] at valid
  cases text : noteId.text with
  | nil =>
    rw [text] at valid
    exact absurd valid.1 (by decide)
  | cons first rest =>
    have digit := valid.2 first (by rw [text]; exact mem_cons_self)
    have isFirst : (finalName noteId part).head? = some first := by
      cases part with
      | ciphertext | sidecar =>
        unfold finalName
        rw [text]
        rfl
    rw [isFirst]
    intro isDot
    rw [Option.some.inj isDot] at digit
    exact absurd digit (by decide)

theorem tempName_ne_finalName (noteId : NoteId) (label : TempLabel) (token : TempToken)
    (part : NotePart) : tempName noteId label token ≠ finalName noteId part := by
  intro same
  refine head_finalName noteId part ?_
  rw [← same]
  rfl

theorem finalName_injective (noteId : NoteId) {first second : NotePart}
    (same : finalName noteId first = finalName noteId second) : first = second := by
  cases first with
  | ciphertext =>
    cases second with
    | ciphertext => rfl
    | sidecar => exact absurd (append_cancel_left same) (by decide)
  | sidecar =>
    cases second with
    | ciphertext => exact absurd (append_cancel_left same) (by decide)
    | sidecar => rfl

variable {first second : TempLabel}

theorem text_injective (same : first.text = second.text) : first = second := by
  obtain ⟨firstPart, firstBackup⟩ := first
  obtain ⟨secondPart, secondBackup⟩ := second
  cases firstPart <;> cases firstBackup <;> cases secondPart <;> cases secondBackup <;>
    first | rfl | exact absurd same (by decide)

theorem tempName_label {noteId : NoteId} {firstToken secondToken : TempToken}
    (same : tempName noteId first firstToken = tempName noteId second secondToken) :
    first = second := by
  unfold tempName at same
  simp only [append_assoc] at same
  have rest := append_cancel_left (append_cancel_left (append_cancel_left same))
  have lengths : (['.'] ++ (firstToken.val ++ ".tmp".toList)).length =
      (['.'] ++ (secondToken.val ++ ".tmp".toList)).length := by
    simp only [length_append, firstToken.property, secondToken.property]
  exact text_injective (append_inj_left' rest lengths)

inductive Failure where
  | io (failed : IoStep)
  | exhausted (label : TempLabel)

def IoStep.isRestoration : IoStep → Bool
  | .lookBackup _ | .restoreBackup _ | .lookReplaced _ | .unlinkReplaced _ => true
  | _ => false

def IoStep.isCleaning : IoStep → Bool
  | .discardTemp _ _ | .cleanTemp _ => true
  | _ => false

def Failure.halts : Failure → Bool
  | .io failed => !failed.isRestoration && !failed.isCleaning
  | .exhausted _ => true

def Failure.isRestoration : Failure → Bool
  | .io failed => failed.isRestoration
  | .exhausted _ => false

section Atomicity

variable (system : FileSystem) (noteId : NoteId) (before : Files)

def Fails : Failure → Prop
  | .io failed => system.fails failed = true
  | .exhausted label => ∀ attempt < maxAttempts,
      (before (tempName noteId label (system.token label attempt))).isSome = true

/-- Apart from the steps that restore the pair, one step fails at most. -/
def SingleFailure : Prop :=
  ∀ first second, Fails system noteId before first → Fails system noteId before second →
    first.isRestoration = false → second.isRestoration = false → first = second

def Halted : Prop := ∃ failure, Fails system noteId before failure ∧ failure.halts = true

def HaltedEarly : Prop :=
  ∃ failure, Fails system noteId before failure ∧ failure.halts = true ∧
    ∀ part, failure ≠ .io (.replaceFinal part)

variable {system noteId before}

theorem not_restoration_of_halts {failure : Failure} (halts : failure.halts = true) :
    failure.isRestoration = false := by
  cases failure with
  | io failed =>
    unfold Failure.halts at halts
    rw [Bool.and_eq_true, Bool.not_eq_true', Bool.not_eq_true'] at halts
    exact halts.1
  | exhausted label => rfl

variable {step : IoStep}

theorem not_fails_of_cleaning (single : SingleFailure system noteId before) {failure : Failure}
    (fails : Fails system noteId before failure) (halts : failure.halts = true)
    (cleaning : step.isCleaning = true) : system.fails step = false := by
  rw [← Bool.not_eq_true]
  intro also
  have kind : (Failure.io step).isRestoration = false := by
    cases step <;> first | rfl | cases cleaning
  have same := single failure (.io step) fails also (not_restoration_of_halts halts) kind
  rw [same] at halts
  change (!step.isRestoration && !step.isCleaning) = true at halts
  rw [cleaning, Bool.not_true, Bool.and_false] at halts
  cases halts

theorem HaltedEarly.halted (early : HaltedEarly system noteId before) :
    Halted system noteId before := by
  obtain ⟨failure, fails, halts, _⟩ := early
  exact ⟨failure, fails, halts⟩

theorem Halted.clean (single : SingleFailure system noteId before)
    (halted : Halted system noteId before) (label : TempLabel) :
    system.fails (.cleanTemp label) = false := by
  obtain ⟨failure, fails, halts⟩ := halted
  exact not_fails_of_cleaning single fails halts rfl

structure Recorded (noteId : NoteId) (before : Files) (world : PairWorld) : Prop where
  fresh : ∀ label name, world.temp label = some name → before name = none
  named : ∀ label name, world.temp label = some name → ∃ token, name = tempName noteId label token

variable {world : PairWorld} {name : Text}

theorem Recorded.label (recorded : Recorded noteId before world)
    (isFirst : world.temp first = some name)
    (isSecond : world.temp second = some name) : first = second := by
  obtain ⟨firstToken, named⟩ := recorded.named first name isFirst
  obtain ⟨secondToken, alsoNamed⟩ := recorded.named second name isSecond
  exact tempName_label (named.symm.trans alsoNamed)

variable {label : TempLabel}

theorem Recorded.ne_finalName (recorded : Recorded noteId before world)
    (isName : world.temp label = some name) (part : NotePart) :
    name ≠ finalName noteId part := by
  obtain ⟨token, rfl⟩ := recorded.named label name isName
  exact tempName_ne_finalName noteId label token part

theorem Recorded.finalName_unnamed (recorded : Recorded noteId before world)
    (part : NotePart) (label : TempLabel) : world.temp label ≠ some (finalName noteId part) :=
  fun isName => recorded.ne_finalName isName part rfl

structure Preparing (noteId : NoteId) (before : Files) (world : PairWorld) : Prop where
  recorded : Recorded noteId before world
  elsewhere : ∀ name, (∀ label, world.temp label ≠ some name) → world.files name = before name
  present : ∀ label name, world.temp label = some name → (world.files name).isSome = true
  copies : ∀ part name, world.temp { part := part, isBackup := true } = some name →
    world.files name = before (finalName noteId part)
  notStarted : world.replacementsStarted = false
  complete : world.rollbackComplete = true

theorem preparing_start : Preparing noteId before (start before) where
  recorded :=
    { fresh := fun _ _ absent => nomatch absent
      named := fun _ _ absent => nomatch absent }
  elsewhere := fun _ _ => rfl
  present := fun _ _ absent => nomatch absent
  copies := fun _ _ absent => nomatch absent
  notStarted := rfl
  complete := rfl

theorem Preparing.finalName (preparing : Preparing noteId before world) (part : NotePart) :
    world.files (finalName noteId part) = before (finalName noteId part) :=
  preparing.elsewhere _ (preparing.recorded.finalName_unnamed part)

theorem Preparing.assign (preparing : Preparing noteId before world) {token : TempToken}
    {data : Bytes} (unset : world.temp label = none)
    (free : world.files (tempName noteId label token) = none)
    (copied : label.isBackup = true → some data = before (PairWrite.finalName noteId label.part)) :
    Preparing noteId before ((world.put (tempName noteId label token) data).assign label
        (some (tempName noteId label token))) := by
  obtain ⟨name, isName⟩ : ∃ name, tempName noteId label token = name := ⟨_, rfl⟩
  rw [isName] at free ⊢
  have unnamed : ∀ other, world.temp other ≠ some name := by
    intro other named
    have present := preparing.present other name named
    rw [free] at present
    cases present
  have known : ∀ other kept,
      ((world.put name data).assign label (some name)).temp other = some kept →
      other = label ∧ kept = name ∨ world.temp other = some kept ∧ kept ≠ name := by
    intro other kept isKept
    by_cases same : other = label
    · subst same
      rw [temp_assign, update_self] at isKept
      exact .inl ⟨rfl, (Option.some.inj isKept).symm⟩
    have isOld : world.temp other = some kept := by
      rw [temp_assign, update_of_ne same] at isKept
      exact isKept
    refine .inr ⟨isOld, ?_⟩
    rintro rfl
    exact unnamed other isOld
  have written : ((world.put name data).assign label (some name)).files name = some data :=
    update_self ..
  have others {kept : Text} (different : kept ≠ name) :
      ((world.put name data).assign label (some name)).files kept = world.files kept :=
    update_of_ne different ..
  have isFresh : before name = none := by
    rw [← preparing.elsewhere name unnamed]
    exact free
  constructor
  · constructor
    · intro other kept isKept
      rcases known other kept isKept with ⟨_, rfl⟩ | ⟨isOld, _⟩
      · exact isFresh
      · exact preparing.recorded.fresh other kept isOld
    · intro other kept isKept
      rcases known other kept isKept with ⟨rfl, rfl⟩ | ⟨isOld, _⟩
      · exact ⟨token, isName.symm⟩
      · exact preparing.recorded.named other kept isOld
  · intro kept unrecorded
    have different : kept ≠ name := by
      rintro rfl
      exact unrecorded label (update_self ..)
    rw [others different]
    refine preparing.elsewhere kept fun other isOld => ?_
    by_cases same : other = label
    · rw [same, unset] at isOld
      cases isOld
    refine unrecorded other ?_
    rw [temp_assign, update_of_ne same]
    exact isOld
  · intro other kept isKept
    rcases known other kept isKept with ⟨_, rfl⟩ | ⟨isOld, different⟩
    · rw [written]
      rfl
    · rw [others different]
      exact preparing.present other kept isOld
  · intro part kept isKept
    rcases known _ kept isKept with ⟨rfl, rfl⟩ | ⟨isOld, different⟩
    · rw [written]
      exact copied rfl
    · rw [others different]
      exact preparing.copies part kept isOld
  · exact preparing.notStarted
  · exact preparing.complete

theorem writeNoteTempFrom_final (single : SingleFailure system noteId before) (label : TempLabel)
    (data : Bytes) (left attempt : Nat) (world : PairWorld) :
    (∃ token, world.files (tempName noteId label token) = none ∧
      (writeNoteTempFrom system noteId label data left attempt).final world =
        (.ok (tempName noteId label token), world.put (tempName noteId label token) data)) ∨
    ∃ error, (writeNoteTempFrom system noteId label data left attempt).final world =
        (.error error, world) ∧
      (HaltedEarly system noteId before ∨ ∀ later, attempt ≤ later → later < attempt + left →
        (world.files (tempName noteId label (system.token label later))).isSome = true) := by
  induction left generalizing attempt with
  | zero =>
    refine .inr ⟨.fileExists, rfl, .inr fun later from_ until_ => ?_⟩
    omega
  | succ left ih =>
    unfold writeNoteTempFrom
    simp only [final_look]
    by_cases opens : system.fails (.openTemp label attempt) = true
    · rw [if_pos opens]
      exact .inr ⟨.osError, rfl, .inl ⟨.io (.openTemp label attempt), opens, rfl, nofun⟩⟩
    rw [if_neg opens]
    by_cases taken :
        (world.files (tempName noteId label (system.token label attempt))).isSome = true
    · rw [if_pos taken]
      rcases ih (attempt + 1) with written | ⟨error, raised, why⟩
      · exact .inl written
      refine .inr ⟨error, raised, why.imp_right fun all later from_ until_ => ?_⟩
      rcases Nat.eq_or_lt_of_le from_ with rfl | after
      · exact taken
      · exact all later after (by omega)
    · rw [if_neg taken]
      have free : world.files (tempName noteId label (system.token label attempt)) = none :=
        Option.not_isSome_iff_eq_none.mp taken
      by_cases tears : system.fails (.writeTemp label attempt) = true
      · -- the file that was torn is discarded, so the directory is as it was
        rw [if_pos tears]
        have halting : Fails system noteId before (.io (.writeTemp label attempt)) := tears
        have discards : system.fails (.discardTemp label attempt) = false :=
          not_fails_of_cleaning single halting rfl rfl
        have undone (torn : Bytes) :
            (world.put (tempName noteId label (system.token label attempt)) torn).remove
              (tempName noteId label (system.token label attempt)) = world := by
          unfold put remove
          rw [update_idem, ← free, update_eq_self]
        refine .inr ⟨.osError, ?_, .inl ⟨_, halting, rfl, nofun⟩⟩
        rw [final_bind_of_ok (final_durable _ _)]
        unfold unlinkMissingOk failing
        rw [discards, if_neg Bool.false_ne_true, final_bind_of_ok (final_durable _ _), undone]
        rfl
      · rw [if_neg tears]
        refine .inl ⟨system.token label attempt, free, ?_⟩
        rfl

section Steps

variable {requires : PairWorld → Prop}

theorem lookAt_contract (step : IoStep) (name : Text) :
    Contract (fun _ => True) requires (lookAt system step name)
      (fun found world => requires world ∧ (found = (world.files name).isSome ∨
        found = false ∧ system.fails step = true ∧ system.looksRaise = false))
      (fun _ world => requires world ∧ system.fails step = true) := by
  unfold lookAt
  split
  · case _ fails =>
      split
      · exact .raise fun world start => ⟨start, fails⟩
      rename_i silent
      exact .pure fun world start =>
        ⟨start, .inr ⟨rfl, fails, Bool.eq_false_iff.mpr silent⟩⟩
  · exact .inspect fun world start => ⟨start, .inl rfl⟩

theorem readBytes_contract (step : IoStep) (name : Text) :
    Contract (fun _ => True) requires (readBytes system step name)
      (fun data world => requires world ∧ world.files name = some data)
      (fun _ world => requires world ∧ (world.files name = none ∨ system.fails step = true)) := by
  refine .look fun world start => ?_
  split
  · case _ missing =>
      refine .raise fun _ same => ?_
      rw [same]
      exact ⟨start, .inl missing⟩
  rename_i data found
  split
  · case _ fails =>
      refine .raise fun _ same => ?_
      rw [same]
      exact ⟨start, .inr fails⟩
  · refine .pure fun _ same => ?_
    rw [same]
    exact ⟨start, found⟩

variable {change : PairWorld → PairWorld}

theorem failing_contract :
    Contract (fun _ => True) requires (failing system step (durable change))
      (fun _ world => ∃ earlier, requires earlier ∧ world = change earlier)
      (fun _ world => requires world ∧ system.fails step = true) := by
  unfold failing
  split
  · case _ fails => exact .raise fun world start => ⟨start, fails⟩
  · exact .durable (fun _ _ => trivial) fun world start => ⟨world, start, rfl⟩

theorem changing_contract :
    Contract (fun _ => True) requires ((inspect id >>= fun world : PairWorld =>
        if world.files name = none then raise .osError
        else failing system step (durable change)) : Write Unit)
      (fun _ world => ∃ earlier, requires earlier ∧ world = change earlier)
      (fun _ world => requires world ∧ (world.files name = none ∨ system.fails step = true)) := by
  refine .look fun world start => ?_
  split
  · case _ missing =>
      refine .raise fun _ same => ?_
      rw [same]
      exact ⟨start, .inl missing⟩
  · refine failing_contract.weaken (fun _ same => ?_) (fun _ _ changed => changed)
      fun _ _ failed => ⟨failed.1, .inr failed.2⟩
    rw [same]
    exact start

end Steps

/-- The files of the labels are still to be made; each part without a backup was not seen. -/
structure Pending (system : FileSystem) (noteId : NoteId) (before : Files)
    (labels : List TempLabel) (world : PairWorld) : Prop where
  preparing : Preparing noteId before world
  unset : ∀ label ∈ labels, world.temp label = none
  staged : ∀ part, { part := part, isBackup := false } ∉ labels →
    (world.temp { part := part, isBackup := false }).isSome = true
  backed : ∀ part, world.temp { part := part, isBackup := true } = none →
    { part := part, isBackup := true } ∈ labels ∨ before (finalName noteId part) = none ∨
      system.fails (.lookFinal part) = true

def Stopped (system : FileSystem) (noteId : NoteId) (before : Files) (world : PairWorld) : Prop :=
  HaltedEarly system noteId before ∧ Preparing noteId before world

variable {labels : List TempLabel}

theorem Pending.exhausted (pending : Pending system noteId before (label :: labels) world)
    (taken : ∀ later, 0 ≤ later → later < 0 + maxAttempts →
      (world.files (tempName noteId label (system.token label later))).isSome = true) :
    Fails system noteId before (.exhausted label) := by
  intro attempt within
  have present := taken attempt (Nat.zero_le _) (by omega)
  rw [pending.preparing.elsewhere] at present
  · exact present
  · intro other isOther
    obtain ⟨token, named⟩ := pending.preparing.recorded.named other _ isOther
    rw [← tempName_label named, pending.unset label mem_cons_self] at isOther
    cases isOther

structure Written (system : FileSystem) (noteId : NoteId) (before : Files) (label : TempLabel)
    (labels : List TempLabel) (data : Bytes) (name : Text) (world : PairWorld) : Prop where
  wrote : ∃ earlier token, Pending system noteId before (label :: labels) earlier ∧
    name = tempName noteId label token ∧ earlier.files name = none ∧
    world = earlier.put name data

theorem writeNoteTempBytes_contract (single : SingleFailure system noteId before)
    (label : TempLabel) (labels : List TempLabel) (data : Bytes) :
    Contract (fun _ => True) (Pending system noteId before (label :: labels))
      (writeNoteTempBytes system noteId label data)
      (Written system noteId before label labels data)
      (fun _ => Stopped system noteId before) := by
  refine .of_ended ?_ ?_
  · intro world name last pending ended
    rcases writeNoteTempFrom_final single label data maxAttempts 0 world with
      ⟨token, free, written⟩ | ⟨error, raised, _⟩
    · rw [writeNoteTempBytes, written] at ended
      cases ended
      exact ⟨world, token, pending, rfl, free, rfl⟩
    · rw [writeNoteTempBytes, raised] at ended
      cases ended
  · intro world error last pending ended
    rcases writeNoteTempFrom_final single label data maxAttempts 0 world with
      ⟨token, free, written⟩ | ⟨other, raised, why⟩
    · rw [writeNoteTempBytes, written] at ended
      cases ended
    rw [writeNoteTempBytes, raised] at ended
    cases ended
    refine ⟨?_, pending.preparing⟩
    rcases why with halted | taken
    · exact halted
    · exact ⟨.exhausted label, pending.exhausted taken, rfl, nofun⟩

theorem Written.assign {data : Bytes}
    (written : Written system noteId before label labels data name world)
    (new : label ∉ labels)
    (copied : label.isBackup = true → some data = before (PairWrite.finalName noteId label.part)) :
    Pending system noteId before labels (world.assign label (some name)) := by
  obtain ⟨earlier, token, pending, rfl, free, rfl⟩ := written.wrote
  have unset := pending.unset label mem_cons_self
  constructor
  · exact pending.preparing.assign unset free copied
  · intro other member
    have different : other ≠ label := by
      rintro rfl
      exact new member
    rw [temp_assign, update_of_ne different]
    exact pending.unset other (mem_cons_of_mem _ member)
  · intro part out
    by_cases same : { part := part, isBackup := false } = label
    · rw [temp_assign, same, update_self]
      rfl
    rw [temp_assign, update_of_ne same]
    exact pending.staged part fun member => out ((mem_cons.mp member).resolve_left same)
  · intro part isNone
    by_cases same : { part := part, isBackup := true } = label
    · rw [temp_assign, same, update_self] at isNone
      cases isNone
    rw [temp_assign, update_of_ne same] at isNone
    refine (pending.backed part isNone).imp_left fun member => ?_
    exact (mem_cons.mp member).resolve_left same

variable {part : NotePart}

theorem stage_contract (single : SingleFailure system noteId before)
    (new : { part := part, isBackup := false } ∉ labels) (data : Bytes) :
    Contract (fun _ => True)
      (Pending system noteId before ({ part := part, isBackup := false } :: labels))
      (stage system noteId part data) (fun _ => Pending system noteId before labels)
      (fun _ => Stopped system noteId before) := by
  refine .bind _ (writeNoteTempBytes_contract single _ labels data) fun name => ?_
  exact .record fun world written => written.assign new nofun

theorem backUp_contract (single : SingleFailure system noteId before)
    (new : { part := part, isBackup := true } ∉ labels) :
    Contract (fun _ => True)
      (Pending system noteId before ({ part := part, isBackup := true } :: labels))
      (backUp system noteId part) (fun _ => Pending system noteId before labels)
      (fun _ => Stopped system noteId before) := by
  refine .bind _ ((lookAt_contract _ _).weaken (fun _ pending => pending)
    (fun _ _ found => found) fun _ world failed => ?_) fun found => ?_
  · exact ⟨⟨.io (.lookFinal part), failed.2, rfl, nofun⟩, failed.1.preparing⟩
  · cases found with
    | true =>
      refine .bind (fun data world =>
        Pending system noteId before ({ part := part, isBackup := true } :: labels) world ∧
          some data = before (finalName noteId part)) ?_ fun data => ?_
      · refine .weaken (readBytes_contract _ _) (fun _ start => start) ?_ ?_
        · rintro data world ⟨⟨pending, _⟩, read⟩
          rw [pending.preparing.finalName part] at read
          exact ⟨pending, read.symm⟩
        · rintro _ world ⟨⟨pending, seen⟩, missing | failed⟩
          · rcases seen with present | ⟨absent, _⟩
            · rw [missing] at present
              cases present
            · cases absent
          · exact ⟨⟨.io (.readFinal part), failed, rfl, nofun⟩, pending.preparing⟩
      · refine .bind (fun name world => some data = before (finalName noteId part) ∧
          Written system noteId before { part := part, isBackup := true } labels data name world)
          ?_ fun name => ?_
        · refine .learning (some data = before (finalName noteId part))
            (fun world start => start.2) fun copied => ?_
          exact (writeNoteTempBytes_contract single _ labels data).weaken
            (fun _ start => start.1) (fun _ _ written => ⟨copied, written⟩) fun _ _ why => why
        · exact .record fun world start => start.2.assign new fun _ => start.1
    | false =>
      refine .pure fun world start => ?_
      obtain ⟨pending, seen⟩ := start
      refine ⟨pending.preparing, fun label member =>
        pending.unset label (mem_cons_of_mem _ member), fun other out => ?_, fun other isNone => ?_⟩
      · exact pending.staged other fun member =>
          (mem_cons.mp member).elim nofun fun later => out later
      rcases pending.backed other isNone with member | known
      · rcases mem_cons.mp member with same | later
        · cases same
          refine .inr ?_
          rcases seen with absent | ⟨_, failed, _⟩
          · refine .inl ?_
            rw [← pending.preparing.finalName]
            exact Option.not_isSome_iff_eq_none.mp (by rw [← absent]; exact Bool.false_ne_true)
          · exact .inr failed
        · exact .inl later
      · exact .inr known

/-- From the first replacement on, the pair may be old or new, and the backups are whole.
The listed parts are still to be replaced. -/
structure Replacing (system : FileSystem) (noteId : NoteId) (before : Files)
    (parts : List NotePart) (world : PairWorld) : Prop where
  recorded : Recorded noteId before world
  elsewhere : ∀ name, (∀ label, world.temp label ≠ some name) →
    (∀ part, name ≠ finalName noteId part) → world.files name = before name
  present : ∀ part name, world.temp { part := part, isBackup := false } = some name →
    (world.files name).isSome = true
  copies : ∀ part name, world.temp { part := part, isBackup := true } = some name →
    world.files name = before (finalName noteId part) ∧
      (before (finalName noteId part)).isSome = true
  backed : ∀ part, world.temp { part := part, isBackup := true } = none →
    before (finalName noteId part) = none ∨ system.fails (.lookFinal part) = true
  staged : ∀ part ∈ parts, (world.temp { part := part, isBackup := false }).isSome = true
  replaced : ∀ part, part ∉ parts → system.fails (.replaceFinal part) = false
  started : world.replacementsStarted = true

theorem Pending.replacing (pending : Pending system noteId before [] world) :
    Replacing system noteId before [.ciphertext, .sidecar]
      { world with replacementsStarted := true } where
  recorded := ⟨pending.preparing.recorded.fresh, pending.preparing.recorded.named⟩
  elsewhere := fun name unnamed _ => pending.preparing.elsewhere name unnamed
  present := fun _ name isName => pending.preparing.present _ name isName
  copies := by
    intro part name isName
    have copied := pending.preparing.copies part name isName
    refine ⟨copied, ?_⟩
    rw [← copied]
    exact pending.preparing.present _ name isName
  backed := fun part isNone => (pending.backed part isNone).resolve_left not_mem_nil
  staged := fun part _ => pending.staged part not_mem_nil
  replaced := by
    intro part out
    cases part with
    | ciphertext | sidecar => exact absurd (by decide) out
  started := rfl

variable {parts : List NotePart}

theorem Replacing.install (replacing : Replacing system noteId before (part :: parts) world)
    (new : part ∉ parts) (works : system.fails (.replaceFinal part) = false)
    (isName : world.temp { part := part, isBackup := false } = some name) :
    Replacing system noteId before parts
      ((world.rename name (finalName noteId part)).assign { part := part, isBackup := false }
        none) := by
  have known : ∀ other kept, ((world.rename name (finalName noteId part)).assign
      { part := part, isBackup := false } none).temp other = some kept →
      world.temp other = some kept ∧ kept ≠ name := by
    intro other kept isKept
    by_cases same : other = { part := part, isBackup := false }
    · rw [temp_assign, same, update_self] at isKept
      cases isKept
    rw [temp_assign, update_of_ne same] at isKept
    refine ⟨isKept, ?_⟩
    rintro rfl
    exact same (replacing.recorded.label isKept isName)
  have others {kept : Text} (notName : kept ≠ name) (notFinal : kept ≠ finalName noteId part) :
      ((world.rename name (finalName noteId part)).assign { part := part, isBackup := false }
        none).files kept = world.files kept := by
    rw [files_assign, files_rename, update_of_ne notName, update_of_ne notFinal]
  constructor
  · exact
      { fresh := fun other kept isKept =>
          replacing.recorded.fresh other kept (known other kept isKept).1
        named := fun other kept isKept =>
          replacing.recorded.named other kept (known other kept isKept).1 }
  · intro kept unnamed notFinal
    by_cases same : kept = name
    · rw [same, files_assign, files_rename, update_self]
      exact (replacing.recorded.fresh _ name isName).symm
    rw [others same (notFinal part)]
    refine replacing.elsewhere kept (fun other isOld => ?_) notFinal
    by_cases installed : other = { part := part, isBackup := false }
    · rw [installed, isName] at isOld
      exact same (Option.some.inj isOld).symm
    refine unnamed other ?_
    rw [temp_assign, update_of_ne installed]
    exact isOld
  · intro other kept isKept
    obtain ⟨isOld, different⟩ := known _ kept isKept
    rw [others different (replacing.recorded.ne_finalName isOld part)]
    exact replacing.present other kept isOld
  · intro other kept isKept
    obtain ⟨isOld, different⟩ := known _ kept isKept
    rw [others different (replacing.recorded.ne_finalName isOld part)]
    exact replacing.copies other kept isOld
  · intro other isNone
    have notInstalled : ({ part := other, isBackup := true } : TempLabel) ≠
        { part := part, isBackup := false } := nofun
    rw [temp_assign, update_of_ne notInstalled] at isNone
    exact replacing.backed other isNone
  · intro other member
    have different : ({ part := other, isBackup := false } : TempLabel) ≠
        { part := part, isBackup := false } := by
      rintro ⟨⟩
      exact new member
    rw [temp_assign, update_of_ne different]
    exact replacing.staged other (mem_cons_of_mem _ member)
  · intro other out
    by_cases same : other = part
    · exact same ▸ works
    · exact replacing.replaced other fun member => out ((mem_cons.mp member).resolve_left same)
  · exact replacing.started

/-- What the backup of a part must hold for the part to be put back. -/
def Held (noteId : NoteId) (before : Files) (part : NotePart) (world : PairWorld) : Prop :=
  (world.temp { part := part, isBackup := true } = none ∧ before (finalName noteId part) = none) ∨
    ∃ name, world.temp { part := part, isBackup := true } = some name ∧
      world.files name = before (finalName noteId part) ∧
      (before (finalName noteId part)).isSome = true

def RestorationFails (system : FileSystem) : Prop :=
  ∃ step, step.isRestoration = true ∧ system.fails step = true

/-- A part is what it was, and its backup is used up; one that was not there may stay, where a
step of the restoration fails. -/
def Settled (system : FileSystem) (noteId : NoteId) (before : Files) (part : NotePart)
    (world : PairWorld) : Prop :=
  (world.files (finalName noteId part) = before (finalName noteId part) ∨
    RestorationFails system ∧ before (finalName noteId part) = none) ∧
    ∀ name, world.temp { part := part, isBackup := true } = some name → world.files name = none

/-- How far the restoration of a part has come. -/
inductive PartStage where
  | held
  | settled
  /-- The backup was not seen, and the part is removed. -/
  | lost

def Status (system : FileSystem) (noteId : NoteId) (before : Files) (part : NotePart)
    (world : PairWorld) : PartStage → Prop
  | .held => Held noteId before part world
  | .settled => Settled system noteId before part world
  | .lost => Held noteId before part world ∧ world.files (finalName noteId part) = none

structure Undoing (system : FileSystem) (noteId : NoteId) (before : Files)
    (stage : NotePart → PartStage) (world : PairWorld) : Prop where
  recorded : Recorded noteId before world
  elsewhere : ∀ name, (∀ label, world.temp label ≠ some name) →
    (∀ part, name ≠ finalName noteId part) → world.files name = before name
  status : ∀ part, Status system noteId before part world (stage part)
  started : world.replacementsStarted = true

theorem Replacing.undoing (single : SingleFailure system noteId before)
    (replacing : Replacing system noteId before parts world)
    (fails : system.fails (.replaceFinal part) = true) :
    Undoing system noteId before (fun _ => .held) world where
  __ := replacing
  status := by
    intro other
    cases isTemp : world.temp { part := other, isBackup := true } with
    | none =>
      refine .inl ⟨isTemp, (replacing.backed other isTemp).resolve_right fun unseen => ?_⟩
      have same := single (.io (.replaceFinal part)) (.io (.lookFinal other)) fails unseen rfl rfl
      cases same
    | some name =>
      obtain ⟨copied, was⟩ := replacing.copies other name isTemp
      exact .inr ⟨name, isTemp, copied, was⟩

def Broken (system : FileSystem) (noteId : NoteId) (before : Files) (world : PairWorld) : Prop :=
  HaltedEarly system noteId before ∧ Preparing noteId before world ∨
    (∃ part, system.fails (.replaceFinal part) = true) ∧
      Undoing system noteId before (fun _ => .held) world

theorem install_contract (single : SingleFailure system noteId before) (new : part ∉ parts) :
    Contract (fun _ => True) (Replacing system noteId before (part :: parts))
      (install system noteId part) (fun _ => Replacing system noteId before parts)
      (fun _ => Broken system noteId before) := by
  refine .look fun world replacing => ?_
  split
  · case _ isNone =>
      have isStaged := replacing.staged part mem_cons_self
      rw [isNone] at isStaged
      cases isStaged
  rename_i name isName
  have present : world.files name ≠ none := by
    intro missing
    have isThere := replacing.present part name isName
    rw [missing] at isThere
    cases isThere
  cases works : system.fails (.replaceFinal part) with
  | true =>
    refine .bind (fun _ _ => False) ?_ fun _ => nofun
    unfold replace failing
    refine .look fun _ same => ?_
    rw [same, if_neg present, works, if_pos rfl]
    exact .raise fun _ isWorld =>
      .inr ⟨⟨part, works⟩, isWorld ▸ replacing.undoing single works⟩
  | false =>
    refine .bind (fun _ after => after = world.rename name (finalName noteId part)) ?_
      fun _ => .record fun after same => ?_
    · unfold replace failing
      refine .look fun _ same => ?_
      rw [same, if_neg present, works, if_neg Bool.false_ne_true]
      exact .durable (fun _ _ => trivial) fun _ isWorld => isWorld ▸ rfl
    · rw [same]
      exact replacing.install new works isName

theorem replacePair_contract (single : SingleFailure system noteId before)
    (rawData metaData : Bytes) :
    Contract (fun _ => True) (· = start before)
      (replacePair system noteId rawData metaData)
      (fun _ _ => ∀ part, system.fails (.replaceFinal part) = false)
      (fun _ => Broken system noteId before) := by
  have stopped : ∀ (_ : IoError) world, Stopped system noteId before world →
      Broken system noteId before world := fun _ _ stopped => .inl stopped
  have keep {requires : PairWorld → Prop} {returns : Unit → PairWorld → Prop} {step : Write Unit}
      (contract : Contract (fun _ => True) requires step returns
        fun _ => Stopped system noteId before) :
      Contract (fun _ => True) requires step returns fun _ => Broken system noteId before :=
    contract.weaken (fun _ start => start) (fun _ _ reached => reached) stopped
  have start : ∀ world, world = start before → Pending system noteId before
      [ { part := .ciphertext, isBackup := false }, { part := .sidecar, isBackup := false },
        { part := .ciphertext, isBackup := true }, { part := .sidecar, isBackup := true } ]
      world := by
    rintro world rfl
    refine ⟨preparing_start, fun _ _ => rfl, fun part out => absurd ?_ out, fun part _ => .inl ?_⟩
    all_goals
      cases part with
      | ciphertext | sidecar => decide
  refine .bind _ ((keep (stage_contract single (by decide) rawData)).weaken start
    (fun _ _ reached => reached) fun _ _ why => why) fun _ => ?_
  refine .bind _ (keep (stage_contract single (by decide) metaData)) fun _ => ?_
  refine .bind _ (keep (backUp_contract single (by decide))) fun _ => ?_
  refine .bind _ (keep (backUp_contract single (by decide))) fun _ => ?_
  refine .bind (fun _ => Replacing system noteId before [.ciphertext, .sidecar])
    (.record fun _ pending => pending.replacing) fun _ => ?_
  refine .bind _ (install_contract single (by decide)) fun _ => ?_
  exact (install_contract single not_mem_nil).weaken (fun _ start => start)
    (fun _ _ replacing part => replacing.replaced part not_mem_nil) fun _ _ why => why

end Atomicity

end XFerry.Notepad.PairWrite
