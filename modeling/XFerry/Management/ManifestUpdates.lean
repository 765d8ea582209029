/-
Operations of any number of processes on one deployment, step by step.

An operation reads the manifest before it takes the lock of the deployment, and most of
them compare it again under the lock.  `credentials` on the host does not, and `update`
and `rollback` on the host read it there for the first time.  A write replaces the manifest
as a whole.
-/

import XFerry.EventMachine
import XFerry.Management.Deployment

namespace XFerry.Management

open EventMachine Function
open Python (Text)

inductive OperationStage where
  | idle
  /-- The manifest has been read, and the lock is not held. -/
  | prepared (request : Request) (spec : DeploymentSpec)
  | locked (request : Request) (spec : DeploymentSpec)
  /-- The manifest was `before` when the checks under the lock were passed, and the first
  `made` writes of the operation are in it. -/
  | working (request : Request) (spec before : DeploymentSpec) (answers : Answers) (made : Nat)
  | ended (success : Bool)

structure DeploymentState where
  manifest : DeploymentSpec
  /-- The text of the profile. -/
  profile : Text
  lock : Option Nat
  stages : Nat → OperationStage
  committed : List Commit

namespace DeploymentState

def start (manifest : DeploymentSpec) (profile : Text) : DeploymentState :=
  { manifest := manifest
    profile := profile
    lock := none
    stages := fun _ => .idle
    committed := [] }

def become (state : DeploymentState) (id : Nat) (stage : OperationStage) : DeploymentState :=
  { state with stages := update state.stages id stage }

def unlock (state : DeploymentState) : DeploymentState := { state with lock := none }

end DeploymentState

inductive OperationAction where
  | begin (request : Request)
  /-- A check raises before anything is written. -/
  | refuse
  | acquire
  | check (answers : Answers)
  | write
  | finish
  /-- What follows the checks fails.  The manifest is put back, with the receipts that are
  read of the restored files, or the restoration does not get to it. -/
  | fail (readings : Readings) (putBack : Bool)

abbrev OperationEvent := Nat × OperationAction

/-- What `configure` accepts before the lock: a bundle keeps its folder. -/
def prepares (backend : Backend) (spec : DeploymentSpec) : Request → Bool
  | .configure _ _ filesDir =>
    match backend with
    | .native => true
    | .docker => (nextSpec spec filesDir).filesDir = spec.filesDir
  | _ => true

def heldSpec (backend : Backend) (manifest spec : DeploymentSpec) : Request → DeploymentSpec
  | .update | .rollback =>
    match backend with
    | .native => manifest
    | .docker => spec
  | _ => spec

def passes (backend : Backend) (manifest spec : DeploymentSpec) (profile : Text) : Request → Bool
  | .configure _ expectedText _ => manifest = spec && profile = expectedText
  | .credentials | .start | .update | .rollback =>
    match backend with
    | .native => true
    | .docker => manifest = spec

def Write.isReveal : Write → Bool
  | .reveal => true
  | _ => false

/-- Where an operation can still fail: the last write of a release on the host and the
mark of shown credentials are the end of the operation. -/
def canFail (backend : Backend) (all : List Write) (made : Nat) : Request → Bool
  | .start => made < all.length || all.all fun write => !write.isReveal
  | .update | .rollback =>
    match backend with
    | .native => made < all.length
    | .docker => true
  | _ => true

def restored (backend : Backend) (places : Places) (readings : Readings)
    (spec before manifest : DeploymentSpec) (answers : Answers) : Request → DeploymentSpec
  | .configure _ _ _ => before
  | .credentials => receipt backend places readings spec [] [places.auth]
  | .start => if answers.acl = [] then manifest else before
  | .update | .rollback =>
    match backend with
    | .native => manifest
    | .docker => before

def profileAfter (profile : Text) : Request → Text
  | .configure candidate _ _ => candidate
  | _ => profile

def operationStep (backend : Backend) (places : Places) :
    Machine DeploymentState OperationEvent := fun state event =>
  let id := event.1
  match state.stages id, event.2 with
  | .idle, .begin request =>
    if prepares backend state.manifest request then
      some (state.become id (.prepared request state.manifest))
    else some (state.become id (.ended false))
  | .prepared _ _, .refuse => some (state.become id (.ended false))
  | .prepared request spec, .acquire =>
    match state.lock with
    | some _ => some (state.become id (.ended false))
    | none => some { state.become id (.locked request spec) with lock := some id }
  | .locked _ _, .refuse => some (state.become id (.ended false)).unlock
  | .locked request spec, .check answers =>
    if passes backend state.manifest spec state.profile request then
      some (state.become id (.working request (heldSpec backend state.manifest spec request)
        state.manifest answers 0))
    else some (state.become id (.ended false)).unlock
  | .working request spec before answers made, .write =>
    match (writes backend places answers spec request)[made]? with
    | none => none
    | some write =>
      some { state.become id (.working request spec before answers (made + 1)) with
        manifest := write.written backend places (answers.readings made) state.manifest }
  | .working request spec _ answers made, .finish =>
    if made = (writes backend places answers spec request).length then
      some { (state.become id (.ended true)).unlock with
        profile := profileAfter state.profile request
        committed := state.committed ++ [{ request := request, answers := answers }] }
    else none
  | .working request spec before answers made, .fail readings putBack =>
    if canFail backend (writes backend places answers spec request) made request then
      some { (state.become id (.ended false)).unlock with
        manifest :=
          if putBack then
            restored backend places readings spec before state.manifest answers request
          else state.manifest }
    else none
  | _, _ => none

/-- No `credentials` on the host has read the manifest before another operation wrote it,
no `credentials` fails after its checks, and the manifest is put back where another operation
does. -/
def Rechecked (backend : Backend) (state : DeploymentState) (event : OperationEvent) : Prop :=
  match state.stages event.1, event.2 with
  | .locked .credentials spec, .check _ => backend = .native → state.manifest = spec
  | .working .credentials _ _ _ _, .fail _ _ => False
  | .working _ _ _ _ _, .fail _ putBack => putBack = true
  | _, _ => True

instance (backend : Backend) (state : DeploymentState) (event : OperationEvent) :
    Decidable (Rechecked backend state event) := by
  unfold Rechecked
  split <;> infer_instance

section Carried

variable (backend : Backend) (places : Places) (initial : DeploymentSpec)

/-- The manifest carries the operations that have reported success, one after the other,
and what an operation writes is what it would write if it had read that manifest. -/
structure Carried (state : DeploymentState) : Prop where
  atRest : state.lock = none → state.manifest = inOrder backend places initial state.committed
  filesDir : state.lock = none →
    (givesFilesDir backend places).Last initial state.committed state.manifest
  artifact : state.lock = none →
    (givesArtifact backend places).Last initial state.committed state.manifest
  acl : state.lock = none → (givesAcl backend places).Last initial state.committed state.manifest
  receipts : state.lock = none → ∀ path,
    (givesReceipt backend places path).Last initial state.committed state.manifest
  revealed : state.lock = none →
    (givesRevealed backend places).Last initial state.committed state.manifest
  current : ∀ id request spec before answers made,
    state.stages id = .working request spec before answers made →
      writes backend places answers spec request =
        writes backend places answers (inOrder backend places initial state.committed) request

def OperationStage.inside : OperationStage → Bool
  | .locked _ _ | .working _ _ _ _ _ => true
  | .idle | .prepared _ _ | .ended _ => false

/-- The manifest is that of the operations before the one under the lock, with the writes
it has made. -/
def Fits (state : DeploymentState) : OperationStage → Prop
  | .locked _ _ => state.manifest = inOrder backend places initial state.committed
  | .working request spec before answers made =>
    before = inOrder backend places initial state.committed ∧
      writes backend places answers spec request = writes backend places answers before request ∧
      state.manifest = afterWrites backend places answers.readings before
        ((writes backend places answers before request).take made)
  | .idle | .prepared _ _ | .ended _ => True

structure Consistent (state : DeploymentState) : Prop where
  free : state.lock = none → state.manifest = inOrder backend places initial state.committed
  held : ∀ id, (state.stages id).inside = true →
    state.lock = some id ∧ Fits backend places initial state (state.stages id)

variable {backend places initial} {state next : DeploymentState} {id : Nat}
  {stage : OperationStage}

theorem Consistent.start (profile : Text) :
    Consistent backend places initial (DeploymentState.start initial profile) where
  free _ := rfl
  held _ isInside := by cases isInside

section

variable (consistent : Consistent backend places initial state)
include consistent

theorem Consistent.outside (notInside : stage.inside = false) :
    Consistent backend places initial (state.become id stage) where
  free := consistent.free
  held other isInside := by
    have stages : (state.become id stage).stages other = update state.stages id stage other := rfl
    rcases eq_or_ne other id with rfl | different
    · rw [stages, update_self, notInside] at isInside
      cases isInside
    rw [stages, update_of_ne different] at isInside ⊢
    obtain ⟨isLocked, fits⟩ := consistent.held other isInside
    refine ⟨isLocked, ?_⟩
    cases isStage : state.stages other with
    | idle | prepared | ended => trivial
    | locked | working =>
      rw [isStage] at fits
      exact fits

theorem Consistent.alone (own : state.lock = none ∨ state.lock = some id)
    (stages : next.stages = update state.stages id stage)
    (free : next.lock = none → next.manifest = inOrder backend places initial next.committed)
    (held : stage.inside = true → next.lock = some id ∧ Fits backend places initial next stage) :
    Consistent backend places initial next where
  free := free
  held other isInside := by
    rw [stages] at isInside ⊢
    rcases eq_or_ne other id with rfl | different
    · rw [update_self] at isInside ⊢
      exact held isInside
    rw [update_of_ne different] at isInside
    have isLocked := (consistent.held other isInside).1
    rcases own with free | mine
    · rw [free] at isLocked
      cases isLocked
    · rw [mine] at isLocked
      exact absurd (Option.some.inj isLocked).symm different

theorem Consistent.of_inside (isStage : state.stages id = stage) (isInside : stage.inside = true) :
    state.lock = some id ∧ Fits backend places initial state stage := by
  have held := consistent.held id
  rw [isStage] at held
  exact held isInside

end

/-- Under the condition, an operation that passes the comparison writes what it would write
if it had read the manifest under the lock. -/
theorem writes_heldSpec {request : Request} {spec : DeploymentSpec} {answers : Answers}
    (isStage : state.stages id = .locked request spec)
    (passed : passes backend state.manifest spec state.profile request = true)
    (rechecked : Rechecked backend state (id, .check answers)) :
    writes backend places answers (heldSpec backend state.manifest spec request) request =
      writes backend places answers state.manifest request := by
  unfold Rechecked at rechecked
  rw [isStage] at rechecked
  have agree (same : state.manifest = spec) :
      writes backend places answers spec request =
        writes backend places answers state.manifest request := by
    rw [same]
  cases request with
  | configure candidate expectedText filesDir =>
    exact agree (of_decide_eq_true (Bool.and_eq_true_iff.mp passed).1)
  | credentials =>
    cases backend with
    | native => exact agree (rechecked rfl)
    | docker => exact agree (of_decide_eq_true passed)
  | start | update | rollback =>
    cases backend with
    | native => rfl
    | docker => exact agree (of_decide_eq_true passed)

theorem afterWrites_zero {readings : Nat → Readings} {before : DeploymentSpec} {all : List Write} :
    afterWrites backend places readings before (all.take 0) = before := by
  rfl

theorem restored_eq {request : Request} {spec before : DeploymentSpec} {answers : Answers}
    {made : Nat} {readings : Readings} (notCredentials : request ≠ .credentials)
    (fails : canFail backend (writes backend places answers before request) made request = true)
    (written : state.manifest = afterWrites backend places answers.readings before
      ((writes backend places answers before request).take made)) :
    restored backend places readings spec before state.manifest answers request = before := by
  have unwritten (none : (writes backend places answers before request).take made = []) :
      state.manifest = before := by
    rw [written, none]
    rfl
  cases request with
  | configure candidate expectedText filesDir => rfl
  | credentials => exact absurd rfl notCredentials
  | start =>
    rw [restored]
    by_cases nothing : answers.acl = []
    · rw [if_pos nothing]
      refine unwritten ?_
      cases backend with
      | native => exact List.take_nil
      | docker =>
        -- Only the mark of shown credentials is written, and it is the end.
        simp only [writes, nothing, if_true, List.nil_append, canFail] at fails ⊢
        split at fails
        · case isTrue hidden =>
            have first : made = 0 := by
              simpa [Write.isReveal] using fails
            rw [if_pos hidden, first, List.take_zero]
        · case isFalse shown => rw [if_neg shown, List.take_nil]
    · exact if_neg nothing
  | update | rollback =>
    cases backend with
    | native =>
      have first : made = 0 := by
        simpa [canFail, writes] using fails
      exact unwritten (by rw [first, List.take_zero])
    | docker => rfl

theorem Consistent.step {event : OperationEvent}
    (consistent : Consistent backend places initial state)
    (rechecked : Rechecked backend state event)
    (taken : operationStep backend places state event = some next) :
    Consistent backend places initial next := by
  obtain ⟨id, action⟩ := event
  cases isStage : state.stages id with
  | idle =>
    cases action with
    | begin request =>
      simp only [operationStep, isStage] at taken
      split at taken
      all_goals
        cases taken
        exact consistent.outside rfl
    | _ => simp [operationStep, isStage] at taken
  | prepared request spec =>
    cases action with
    | refuse =>
      simp only [operationStep, isStage] at taken
      cases taken
      exact consistent.outside rfl
    | acquire =>
      simp only [operationStep, isStage] at taken
      cases isLock : state.lock with
      | some holder =>
        rw [isLock] at taken
        cases taken
        exact consistent.outside rfl
      | none =>
        rw [isLock] at taken
        cases taken
        refine consistent.alone (.inl isLock) rfl (fun free => nomatch free) ?_
        exact fun _ => ⟨rfl, consistent.free isLock⟩
    | _ => simp [operationStep, isStage] at taken
  | locked request spec =>
    obtain ⟨mine, fits⟩ := consistent.of_inside isStage rfl
    cases action with
    | refuse =>
      simp only [operationStep, isStage] at taken
      cases taken
      exact consistent.alone (.inr mine) rfl (fun _ => fits) (fun inside => nomatch inside)
    | check answers =>
      simp only [operationStep, isStage] at taken
      split at taken
      · case isTrue passed =>
          cases taken
          refine consistent.alone (.inr mine) rfl ?_ (fun _ => ⟨mine, fits, ?_, ?_⟩)
          · intro free
            rw [DeploymentState.become, mine] at free
            cases free
          · exact writes_heldSpec isStage passed rechecked
          · exact afterWrites_zero.symm
      · cases taken
        exact consistent.alone (.inr mine) rfl (fun _ => fits) (fun inside => nomatch inside)
    | _ => simp [operationStep, isStage] at taken
  | working request spec before answers made =>
    obtain ⟨mine, found, sameWrites, written⟩ := consistent.of_inside isStage rfl
    cases action with
    | write =>
      simp only [operationStep, isStage] at taken
      cases isNext : (writes backend places answers spec request)[made]? with
      | none =>
        rw [isNext] at taken
        cases taken
      | some write =>
        rw [isNext] at taken
        cases taken
        refine consistent.alone (.inr mine) rfl ?_ (fun _ => ⟨mine, found, sameWrites, ?_⟩)
        · intro free
          rw [DeploymentState.become, mine] at free
          cases free
        · rw [sameWrites] at isNext
          rw [afterWrites_succ isNext, ← written]
    | finish =>
      simp only [operationStep, isStage] at taken
      split at taken
      · case isTrue complete =>
          cases taken
          refine consistent.alone (.inr mine) rfl (fun _ => ?_) (fun inside => nomatch inside)
          rw [sameWrites] at complete
          rw [complete, List.take_length] at written
          rw [inOrder_append, ← found]
          exact written
      · cases taken
    | fail readings putBack =>
      simp only [operationStep, isStage] at taken
      split at taken
      · case isTrue fails =>
          cases taken
          refine consistent.alone (.inr mine) rfl (fun _ => ?_) (fun inside => nomatch inside)
          unfold Rechecked at rechecked
          rw [isStage] at rechecked
          have notCredentials : request ≠ .credentials := by
            rintro rfl
            exact rechecked
          have isBack : putBack = true := by
            cases request with
            | credentials => exact absurd rfl notCredentials
            | configure | start | update | rollback => exact rechecked
          rw [sameWrites] at fails
          rw [isBack]
          exact (restored_eq notCredentials fails written).trans found
      · cases taken
    | _ => simp [operationStep, isStage] at taken
  | ended success => simp [operationStep, isStage] at taken

theorem run_carried {profile : Text} {events : List OperationEvent} {final : DeploymentState}
    (rechecked : Along (operationStep backend places) (Rechecked backend)
      (DeploymentState.start initial profile) events)
    (reached : run (operationStep backend places) (DeploymentState.start initial profile) events =
      some final) : Carried backend places initial final := by
  have consistent : Consistent backend places initial final :=
    run_invariant (Consistent backend places initial)
      (fun _ _ _ holds guard taken => holds.step guard taken) (.start profile) rechecked reached
  have last {α : Type} (gives : Gives backend places α) (free : final.lock = none) :
      gives.Last initial final.committed final.manifest := by
    rw [consistent.free free]
    exact gives.last_inOrder initial final.committed
  refine ⟨consistent.free, last _, last _, last _, fun free path => last _ free, last _, ?_⟩
  intro id request spec before answers made isStage
  obtain ⟨_, found, sameWrites, _⟩ := consistent.of_inside isStage rfl
  rw [sameWrites, found]

end Carried

def samplePlaces : Places :=
  { profile := "/etc/xferry/profile.ini".toList
    runtime := "/etc/xferry/config.ini".toList
    auth := "/etc/xferry/auth".toList
    unit := "/etc/systemd/system/xferry.service".toList
    compose := []
    history := []
    output := [] }

def sampleDeployment : DeploymentSpec :=
  { instanceId := "1f3870be-274f-4c49-b3e3-1a0c6728957f".toList
    backend := .native
    profile := "/etc/xferry/profile.ini".toList
    filesDir := "/srv/old".toList
    stateDir := "/var/lib/xferry".toList
    artifact := { image := none, version := some "4.1.0".toList, sha256 := none }
    ownership := { resources := [], acl := [], accounts := [] }
    options := { project := none, credentialsRevealed := none } }

def sampleAnswers : Answers :=
  { acl := []
    artifact := { image := none, version := none, sha256 := none }
    readings := fun index _ =>
      { sha256 := none, uid := 0, gid := 0, device := 1, inode := index, size := 1, modifiedNs := 0
        mode := 416 } }

def moveFolder : Request :=
  .configure "files_dir = /srv/new".toList "files_dir = /srv/old".toList (some "/srv/new".toList)

def underLock (id : Nat) : List OperationEvent :=
  [(id, .acquire), (id, .check sampleAnswers), (id, .write), (id, .finish)]

def staleRotation : List OperationEvent :=
  [(0, .begin .credentials), (1, .begin moveFolder)] ++ underLock 1 ++ underLock 0

def freshRotation : List OperationEvent :=
  [(1, .begin moveFolder)] ++ underLock 1 ++ [(0, .begin .credentials)] ++ underLock 0

def rotated (events : List OperationEvent) : Option DeploymentState :=
  run (operationStep .native samplePlaces)
    (.start sampleDeployment "files_dir = /srv/old".toList) events

/-- Both operations have reported success, and the folder is the old one. -/
theorem staleRotation_reverts :
    ∃ final, rotated staleRotation = some final ∧ final.lock = none ∧
      final.committed.length = 2 ∧ final.manifest.filesDir = "/srv/old".toList ∧
      ¬ Carried .native samplePlaces sampleDeployment final := by
  refine ⟨_, rfl, rfl, rfl, rfl, ?_⟩
  intro carried
  have last := carried.filesDir rfl
  revert last
  unfold Gives.Last
  decide +kernel

theorem freshRotation_carried :
    ∃ final, rotated freshRotation = some final ∧
      Carried .native samplePlaces sampleDeployment final := by
  obtain ⟨final, reached⟩ : ∃ final, rotated freshRotation = some final := ⟨_, rfl⟩
  exact ⟨final, reached, run_carried (by decide +kernel) reached⟩

end XFerry.Management
