/-
A bounded pool of capacity.

A thread that asks for capacity looks at the pool again and again until it is decided:
each look is one critical section of the condition, and between two of them the thread
waits.  A lease gives its slot back once, however often and by however many threads it is
released.
-/

import XFerry.Accounts
import XFerry.EventMachine

namespace XFerry.Server

open EventMachine

structure CapacityGate where
  limit : Nat
  active : Nat
  closed : Bool

namespace CapacityGate

def initial (limit : Nat) : CapacityGate := { limit := limit, active := 0, closed := false }

/-- What one look of `acquire` comes to. -/
inductive Look where
  | granted (gate : CapacityGate)
  | rejected
  | waiting

def look (gate : CapacityGate) (timedOut : Bool) : Look :=
  if gate.active < gate.limit ∧ gate.closed = false then
    .granted { gate with active := gate.active + 1 }
  else if gate.closed = true ∨ timedOut = true then .rejected
  else .waiting

/-- `acquire`, as its last look decides it. -/
def acquire (gate : CapacityGate) : Option CapacityGate :=
  match gate.look true with
  | .granted next => some next
  | .rejected => none
  | .waiting => none

def release (gate : CapacityGate) : CapacityGate := { gate with active := gate.active - 1 }

def close (gate : CapacityGate) : CapacityGate := { gate with closed := true }

@[simp] theorem release_limit (gate : CapacityGate) : gate.release.limit = gate.limit := rfl

@[simp] theorem release_active (gate : CapacityGate) : gate.release.active = gate.active - 1 := rfl

variable {gate next : CapacityGate}

theorem look_eq_granted {timedOut : Bool} (granted : gate.look timedOut = .granted next) :
    gate.active < gate.limit ∧ gate.closed = false ∧
      next = { gate with active := gate.active + 1 } := by
  unfold look at granted
  split at granted
  · case isTrue room =>
    cases granted
    exact ⟨room.1, room.2, rfl⟩
  split at granted
  · cases granted
  · cases granted

theorem acquire_eq_some (acquired : gate.acquire = some next) :
    gate.active < gate.limit ∧ gate.closed = false ∧
      next = { gate with active := gate.active + 1 } := by
  unfold acquire at acquired
  split at acquired
  · case h_1 granted looked =>
    cases acquired
    exact look_eq_granted looked
  · cases acquired
  · cases acquired

end CapacityGate

/-! ### A gate and its leases -/

/-- A lease is being released from the moment that its flag is set until its slot is
given back. -/
inductive LeaseStage where
  | unasked
  | waiting
  | rejected
  | held
  | releasing
  | released
deriving DecidableEq

def LeaseStage.slots : LeaseStage → Nat
  | .held => 1
  | .releasing => 1
  | .unasked => 0
  | .waiting => 0
  | .rejected => 0
  | .released => 0

def LeaseStage.isGranted : LeaseStage → Bool
  | .held => true
  | .releasing => true
  | .released => true
  | .unasked => false
  | .waiting => false
  | .rejected => false

/-- `givenBack` counts how often the slot of a lease has been given back; the gate has no
need of it. -/
structure GateState where
  gate : CapacityGate
  leases : Nat → LeaseStage
  givenBack : Nat → Nat

inductive GateEvent where
  | ask (lease : Nat)
  | look (lease : Nat) (timedOut : Bool)
  | giveUp (lease : Nat)
  | release (lease : Nat)
  | giveBack (lease : Nat)
  | close

def GateEvent.lease? : GateEvent → Option Nat
  | .ask lease => some lease
  | .look lease _ => some lease
  | .giveUp lease => some lease
  | .release lease => some lease
  | .giveBack lease => some lease
  | .close => none

namespace GateState

def initial (limit : Nat) : GateState :=
  { gate := .initial limit, leases := fun _ => .unasked, givenBack := fun _ => 0 }

def enter (state : GateState) (gate : CapacityGate) (lease : Nat) (stage : LeaseStage) :
    GateState :=
  { state with gate := gate, leases := Function.update state.leases lease stage }

def countBack (state : GateState) (lease : Nat) : GateState :=
  { state with givenBack := Function.update state.givenBack lease (state.givenBack lease + 1) }

section

variable (state : GateState) (gate : CapacityGate) (stage : LeaseStage)

@[simp] theorem enter_gate (lease : Nat) : (state.enter gate lease stage).gate = gate := rfl

@[simp] theorem enter_givenBack (lease : Nat) :
    (state.enter gate lease stage).givenBack = state.givenBack := rfl

@[simp] theorem enter_same (lease : Nat) : (state.enter gate lease stage).leases lease = stage :=
  Function.update_self ..

theorem enter_other {lease other : Nat} (different : other ≠ lease) :
    (state.enter gate lease stage).leases other = state.leases other :=
  Function.update_of_ne different ..

@[simp] theorem countBack_gate (lease : Nat) : (state.countBack lease).gate = state.gate := rfl

@[simp] theorem countBack_leases (lease : Nat) :
    (state.countBack lease).leases = state.leases := rfl

@[simp] theorem countBack_same (lease : Nat) :
    (state.countBack lease).givenBack lease = state.givenBack lease + 1 :=
  Function.update_self ..

theorem countBack_other {lease other : Nat} (different : other ≠ lease) :
    (state.countBack lease).givenBack other = state.givenBack other :=
  Function.update_of_ne different ..

end

def step : Machine GateState GateEvent
  | state, .ask lease =>
    match state.leases lease with
    | .unasked => some (state.enter state.gate lease .waiting)
    | _ => none
  | state, .look lease timedOut =>
    match state.leases lease with
    | .waiting =>
      match state.gate.look timedOut with
      | .granted gate => some (state.enter gate lease .held)
      | .rejected => some (state.enter state.gate lease .rejected)
      | .waiting => some state
    | _ => none
  | state, .giveUp lease =>
    match state.leases lease with
    | .waiting => some (state.enter state.gate lease .rejected)
    | _ => none
  | state, .release lease =>
    match state.leases lease with
    | .held => some (state.enter state.gate lease .releasing)
    | .releasing => some state
    | .released => some state
    | _ => none
  | state, .giveBack lease =>
    match state.leases lease with
    | .releasing => some ((state.enter state.gate.release lease .released).countBack lease)
    | _ => none
  | state, .close => some { state with gate := state.gate.close }

/-- The slots in use are those of the leases that are not released, and a lease has given
its slot back once or not at all. -/
structure Accounted (limit : Nat) (state : GateState) : Prop where
  counted : Totals (fun lease => (state.leases lease).slots) state.gate.active
  within : state.gate.active ≤ limit
  sameLimit : state.gate.limit = limit
  once : ∀ lease, state.givenBack lease = if state.leases lease = .released then 1 else 0

variable {limit : Nat} {state : GateState}

theorem initial_accounted (limit : Nat) : (initial limit).Accounted limit :=
  { counted := Totals.zero
    within := Nat.zero_le _
    sameLimit := rfl
    once := fun _ => rfl }

variable {lease : Nat}

section

variable (accounted : state.Accounted limit)
include accounted

theorem Accounted.enter {stage : LeaseStage}
    {gate : CapacityGate} (notBefore : state.leases lease ≠ .released)
    (notAfter : stage ≠ .released)
    (moved : gate.active = state.gate.active - (state.leases lease).slots + stage.slots)
    (within : gate.active ≤ limit) (sameLimit : gate.limit = limit) :
    (state.enter gate lease stage).Accounted limit := by
  have kept := accounted.counted.updateState lease stage
  rw [← moved] at kept
  constructor
  case counted => exact kept
  case within => exact within
  case sameLimit => exact sameLimit
  case once =>
    intro other
    have before := accounted.once other
    by_cases same : other = lease
    · rw [same, if_neg notBefore] at before
      rw [same, enter_same, if_neg notAfter]
      exact before
    · rw [enter_other _ _ _ same]
      exact before

theorem Accounted.giveBack (releasing : state.leases lease = .releasing) :
    ((state.enter state.gate.release lease .released).countBack lease).Accounted limit := by
  have kept := accounted.counted.updateState lease .released
  rw [releasing] at kept
  have within := accounted.within
  constructor
  case counted => exact kept
  case within =>
    rw [countBack_gate, enter_gate, CapacityGate.release_active]
    omega
  case sameLimit => exact accounted.sameLimit
  case once =>
    intro other
    have before := accounted.once other
    rw [countBack_leases]
    by_cases same : other = lease
    · rw [same, releasing, if_neg (by decide)] at before
      rw [same, enter_same, countBack_same, enter_givenBack, before, if_pos rfl]
    · rw [enter_other _ _ _ same, countBack_other _ same, enter_givenBack]
      exact before

theorem Accounted.step {event : GateEvent}
    {next : GateState} (taken : GateState.step state event = some next) :
    next.Accounted limit := by
  cases event with
  | ask | giveUp =>
    simp only [GateState.step] at taken
    split at taken
    · case h_1 stage =>
      cases taken
      apply accounted.enter _ (by decide) _ accounted.within accounted.sameLimit
      · rw [stage]
        decide
      · rw [stage]
        rfl
    · cases taken
  | look lease timedOut =>
    simp only [GateState.step] at taken
    split at taken
    · case h_1 stage =>
      have unreleased : state.leases lease ≠ .released := by
        rw [stage]
        decide
      split at taken
      · case h_1 gate looked =>
        cases taken
        obtain ⟨room, _, rfl⟩ := CapacityGate.look_eq_granted looked
        rw [accounted.sameLimit] at room
        refine accounted.enter unreleased ?_ ?_ room accounted.sameLimit
        · decide
        · rw [stage]
          rfl
      · cases taken
        apply accounted.enter unreleased (by decide) _ accounted.within accounted.sameLimit
        rw [stage]
        rfl
      · cases taken
        exact accounted
    · cases taken
  | release lease =>
    simp only [GateState.step] at taken
    split at taken
    · case h_1 stage =>
      cases taken
      have enough := accounted.counted.le lease
      apply accounted.enter _ (by decide) _ accounted.within accounted.sameLimit
      · rw [stage]
        decide
      · rw [stage] at enough ⊢
        simp only [LeaseStage.slots] at enough ⊢
        omega
    · cases taken
      exact accounted
    · cases taken
      exact accounted
    · cases taken
  | giveBack lease =>
    simp only [GateState.step] at taken
    split at taken
    · case h_1 stage =>
      cases taken
      exact accounted.giveBack stage
    · cases taken
  | close =>
    cases taken
    exact
      { __ := accounted }

end

variable {events : List GateEvent}

theorem run_gateAccounted {final : GateState}
    (reached : run step (initial limit) events = some final) : final.Accounted limit :=
  run_invariant_of_step (Accounted limit) (fun _ _ _ accounted taken => accounted.step taken)
    (initial_accounted limit) reached

theorem step_other {event : GateEvent} {next : GateState} {other : Nat}
    (taken : step state event = some next) (different : event.lease? ≠ some other) :
    next.leases other = state.leases other := by
  cases event with
  | ask lease | giveUp lease =>
    have apart : other ≠ lease := fun same => different (congrArg some same.symm)
    simp only [step] at taken
    split at taken
    · cases taken
      exact enter_other _ _ _ apart
    · cases taken
  | look lease timedOut =>
    have apart : other ≠ lease := fun same => different (congrArg some same.symm)
    simp only [step] at taken
    split at taken
    · split at taken
      · cases taken
        exact enter_other _ _ _ apart
      · cases taken
        exact enter_other _ _ _ apart
      · cases taken
        rfl
    · cases taken
  | release lease =>
    have apart : other ≠ lease := fun same => different (congrArg some same.symm)
    simp only [step] at taken
    split at taken
    · cases taken
      exact enter_other _ _ _ apart
    · cases taken
      rfl
    · cases taken
      rfl
    · cases taken
  | giveBack lease =>
    have apart : other ≠ lease := fun same => different (congrArg some same.symm)
    simp only [step] at taken
    split at taken
    · cases taken
      rw [countBack_leases]
      exact enter_other _ _ _ apart
    · cases taken
  | close =>
    cases taken
    rfl

/-! ### After the gate is closed -/

/-- What becomes of the leases when the gate was closed before. -/
def GrantsNothing (next state : GateState) : Prop :=
  state.gate.closed = true → next.gate.closed = true ∧
    ∀ lease, (next.leases lease).isGranted = true → (state.leases lease).isGranted = true

instance : Std.Refl GrantsNothing where
  refl _ closed := ⟨closed, fun _ granted => granted⟩

instance : IsTrans GateState GrantsNothing where
  trans _ _ _ later earlier closed :=
    ⟨(later (earlier closed).1).1, fun lease granted =>
      (earlier closed).2 lease ((later (earlier closed).1).2 lease granted)⟩

theorem grantsNothing_enter {gate : CapacityGate} {stage : LeaseStage}
    (closes : state.gate.closed = true → gate.closed = true)
    (granted : state.gate.closed = true → stage.isGranted = true →
      (state.leases lease).isGranted = true) :
    GrantsNothing (state.enter gate lease stage) state := by
  intro closed
  refine ⟨closes closed, ?_⟩
  intro other grantedOther
  by_cases same : other = lease
  · rw [same, enter_same] at grantedOther
    rw [same]
    exact granted closed grantedOther
  · rwa [enter_other _ _ _ same] at grantedOther

theorem step_grantsNothing (state : GateState) (event : GateEvent) (next : GateState)
    (taken : step state event = some next) : GrantsNothing next state := by
  cases event with
  | ask | giveUp =>
    simp only [step] at taken
    split at taken
    · cases taken
      exact grantsNothing_enter id (fun _ granted => nomatch granted)
    · cases taken
  | look lease timedOut =>
    simp only [step] at taken
    split at taken
    · split at taken
      · case h_1 gate looked =>
        obtain ⟨_, isOpen, rfl⟩ := CapacityGate.look_eq_granted looked
        intro closed
        rw [isOpen] at closed
        cases closed
      · cases taken
        exact grantsNothing_enter id (fun _ granted => nomatch granted)
      · cases taken
        exact refl_of GrantsNothing _
    · cases taken
  | release lease =>
    simp only [step] at taken
    split at taken
    · case h_1 stage =>
      cases taken
      refine grantsNothing_enter id ?_
      intro _ _
      rw [stage]
      rfl
    · cases taken
      exact refl_of GrantsNothing _
    · cases taken
      exact refl_of GrantsNothing _
    · cases taken
  | giveBack lease =>
    simp only [step] at taken
    split at taken
    · case h_1 stage =>
      cases taken
      have moved : GrantsNothing (state.enter state.gate.release lease .released) state := by
        refine grantsNothing_enter id ?_
        intro _ _
        rw [stage]
        rfl
      exact moved
    · cases taken
  | close =>
    cases taken
    exact fun _ => ⟨rfl, fun _ granted => granted⟩

theorem run_grantsNothing {state final : GateState}
    (reached : run step state events = some final) : GrantsNothing final state :=
  run_relation GrantsNothing step_grantsNothing reached

end GateState

end XFerry.Server
