/-
Machines driven by labelled events.

A machine is a partial step function: every choice a scheduler or an
environment can make is part of the event, and an event that is not enabled
yields no state.  The file relates two ways of speaking about a run: what is
true of the state a run reaches, and what is true at every step along it.
-/

import XFerry.Lists

namespace XFerry.EventMachine

variable {State Event : Type}

abbrev Machine (State Event : Type) := State → Event → Option State

def run (step : Machine State Event) : State → List Event → Option State
  | state, [] => some state
  | state, event :: rest => (step state event).bind fun next => run step next rest

/-- `property` holds at each step of the run, read in the state before the
step.  A run that meets a disabled event is judged up to that event. -/
def Along (step : Machine State Event) (property : State → Event → Prop) : State → List Event → Prop
  | _, [] => True
  | state, event :: rest =>
    property state event ∧
      match step state event with
      | none => True
      | some next => Along step property next rest

def decidableAlong (step : Machine State Event) (property : State → Event → Prop)
    (decision : ∀ state event, Decidable (property state event)) :
    ∀ (events : List Event) (state : State), Decidable (Along step property state events)
  | [], _ => isTrue trivial
  | event :: rest, state =>
    have _ := decision state event
    match found : step state event with
    | none => decidable_of_iff (property state event) (by simp [Along, found])
    | some next =>
      have _ := decidableAlong step property decision rest next
      decidable_of_iff (property state event ∧ Along step property next rest)
        (by simp [Along, found])

instance instDecidableAlong (step : Machine State Event) (property : State → Event → Prop)
    [decision : ∀ state event, Decidable (property state event)]
    (state : State) (events : List Event) : Decidable (Along step property state events) :=
  decidableAlong step property decision events state

section

variable (step : Machine State Event)
include step

theorem run_cons (state : State) (event : Event) (rest : List Event) :
    run step state (event :: rest) = (step state event).bind fun next => run step next rest := rfl

theorem run_singleton (state : State) (event : Event) :
    run step state [event] = step state event := by
  simp [run]

theorem run_append (state : State) (first second : List Event) :
    run step state (first ++ second) =
      (run step state first).bind fun middle => run step middle second := by
  induction first generalizing state with
  | nil => rfl
  | cons event rest ih =>
    cases taken : step state event with
    | none => simp [run, taken]
    | some next => simpa [run, taken] using ih next

end

variable {step : Machine State Event}

theorem along_cons_some {property : State → Event → Prop}
    {state next : State} {event : Event} {rest : List Event}
    (taken : step state event = some next) :
    Along step property state (event :: rest) ↔
      property state event ∧ Along step property next rest := by
  simp only [Along, taken]

variable {events : List Event} {state final : State}

theorem run_invariant {guard : State → Event → Prop} (invariant : State → Prop)
    (preserved : ∀ state event next, invariant state → guard state event →
      step state event = some next → invariant next)
    (start : invariant state) (guarded : Along step guard state events)
    (reached : run step state events = some final) : invariant final := by
  induction events generalizing state with
  | nil =>
    cases reached
    exact start
  | cons event rest ih =>
    cases taken : step state event with
    | none => simp [run, taken] at reached
    | some next =>
      have both := (along_cons_some taken).mp guarded
      rw [run_cons, taken] at reached
      exact ih (preserved state event next start both.1 taken) both.2 reached

/-- A property that follows from the invariant and the guard at one step holds
all along a guarded run. -/
theorem along_of_invariant {guard property : State → Event → Prop} (invariant : State → Prop)
    (preserved : ∀ state event next, invariant state → guard state event →
      step state event = some next → invariant next)
    (implied : ∀ state event, invariant state → guard state event → property state event)
    {state : State} (start : invariant state) (guarded : Along step guard state events) :
    Along step property state events := by
  induction events generalizing state with
  | nil => trivial
  | cons event rest ih =>
    have here : guard state event := guarded.1
    refine ⟨implied state event start here, ?_⟩
    cases taken : step state event with
    | none => trivial
    | some next =>
      have both := (along_cons_some taken).mp guarded
      exact ih (preserved state event next start here taken) both.2

theorem along_of_forall_mem {property : State → Event → Prop}
    (holds : ∀ event ∈ events, ∀ state, property state event) (state : State) :
    Along step property state events := by
  induction events generalizing state with
  | nil => trivial
  | cons event rest ih =>
    obtain ⟨here, later⟩ := List.forall_mem_cons.mp holds
    refine ⟨here state, ?_⟩
    cases step state event with
    | none => trivial
    | some next => exact ih later next

/-- An unconditional invariant holds in every state a run reaches. -/
theorem run_invariant_of_step (invariant : State → Prop)
    (preserved : ∀ state event next, invariant state →
      step state event = some next → invariant next)
    (start : invariant state) (reached : run step state events = some final) :
    invariant final := by
  have unguarded : ∀ state event next, invariant state → True →
      step state event = some next → invariant next :=
    fun state event next holds _ taken => preserved state event next holds taken
  have always : Along step (fun _ _ => True) state events :=
    along_of_forall_mem (fun _ _ _ => trivial) state
  exact run_invariant invariant unguarded start always reached

/-- Where an invariant keeps every event enabled, every run goes through. -/
theorem run_total (invariant : State → Prop) (enabled : ∀ state event, invariant state →
      ∃ next, step state event = some next ∧ invariant next)
    {state : State} (start : invariant state) (events : List Event) :
    ∃ final, run step state events = some final ∧ invariant final := by
  induction events generalizing state with
  | nil => exact ⟨state, rfl, start⟩
  | cons event rest ih =>
    obtain ⟨next, taken, holds⟩ := enabled state event start
    obtain ⟨final, reached, kept⟩ := ih holds
    refine ⟨final, ?_, kept⟩
    rw [run_cons, taken]
    exact reached

/-- What relates each state to the next, a run relates from its start to its end. -/
theorem run_relation (relation : State → State → Prop) [Std.Refl relation] [IsTrans State relation]
    (taken : ∀ state event next, step state event = some next → relation next state)
    (reached : run step state events = some final) : relation final state := by
  induction events generalizing state with
  | nil =>
    cases reached
    exact refl_of relation _
  | cons event rest ih =>
    obtain ⟨next, moved, later⟩ := Option.bind_eq_some_iff.mp reached
    exact trans_of relation (ih later) (taken state event next moved)

end XFerry.EventMachine
