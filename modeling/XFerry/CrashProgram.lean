/-
Programs over durable storage that can stop between any two steps.

A program carries the storage through its steps and keeps the states it has
passed, so a run and every crash it can suffer are read from one value.  A
contract speaks of three kinds of state: those a program passes, the one it
returns in and the one it raises in.
-/

import Mathlib

namespace XFerry.CrashProgram

variable {World Error α β γ : Type}

/-- `passed` lists the durable states reached on the way, the last one included. -/
structure Outcome (World Error α : Type) where
  passed : List World
  world : World
  result : Except Error α

def Program (World Error α : Type) := World → Outcome World Error α

namespace Program

def returning (value : α) : Program World Error α := fun world =>
  { passed := [], world := world, result := .ok value }

def raise (error : Error) : Program World Error α := fun world =>
  { passed := [], world := world, result := .error error }

def andThen (program : Program World Error α) (next : α → Program World Error β) :
    Program World Error β := fun world =>
  match (program world).result with
  | .error error => { program world with result := .error error }
  | .ok value =>
    let rest := next value (program world).world
    { rest with passed := (program world).passed ++ rest.passed }

instance : Monad (Program World Error) where
  pure := returning
  bind := andThen

def inspect (view : World → α) : Program World Error α := fun world =>
  { passed := [], world := world, result := .ok (view world) }

def durable (change : World → World) : Program World Error Unit := fun world =>
  { passed := [change world], world := change world, result := .ok () }

/-- A step that is not atomic: a crash inside it leaves `debris`. -/
def tearable (debris change : World → World) : Program World Error Unit := fun world =>
  { passed := [debris world, change world], world := change world, result := .ok () }

def record (change : World → World) : Program World Error Unit := fun world =>
  { passed := [], world := change world, result := .ok () }

def lift : Except Error α → Program World Error α
  | .ok value => returning value
  | .error error => raise error

/-- `try program except: cleanup; raise`. -/
def cleaningUp (program : Program World Error α) (cleanup : Program World Error Unit) :
    Program World Error α := fun world =>
  match (program world).result with
  | .ok _ => program world
  | .error error =>
    let rest := (cleanup.andThen fun _ => raise error) (program world).world
    { rest with passed := (program world).passed ++ rest.passed }

/-- `try program except caught: handler`. -/
def catching (program : Program World Error α) (caught : Error → Bool)
    (handler : Program World Error α) : Program World Error α := fun world =>
  match (program world).result with
  | .ok _ => program world
  | .error error =>
    if caught error then
      let rest := handler (program world).world
      { rest with passed := (program world).passed ++ rest.passed }
    else program world

def forEach (body : β → Program World Error Unit) : List β → Program World Error Unit
  | [] => returning ()
  | item :: rest => (body item).andThen fun _ => forEach body rest

def attempt (program : Program World Error α) : Program World Error (Except Error α) :=
  fun world =>
    { passed := (program world).passed
      world := (program world).world
      result := .ok (program world).result }

/-- `try program finally: leave`, where what `leave` raises takes the place of the
program's own outcome. -/
def ensuring (program : Program World Error α) (leave : Program World Error Unit) :
    Program World Error α := do
  let outcome ← attempt program
  leave
  lift outcome

def crashes (program : Program World Error α) (world : World) : List World :=
  world :: (program world).passed

def final (program : Program World Error α) (world : World) : Except Error α × World :=
  ((program world).result, (program world).world)

theorem bind_assoc (program : Program World Error α) (next : α → Program World Error β)
    (last : β → Program World Error γ) :
    (program >>= next) >>= last = program >>= fun value => next value >>= last := by
  funext world
  change (program.andThen next).andThen last world =
    program.andThen (fun value => (next value).andThen last) world
  cases first : (program world).result with
  | error error => simp only [andThen, first]
  | ok value =>
    cases second : (next value (program world).world).result with
    | error error => simp only [andThen, first, second]
    | ok result => simp only [andThen, first, second, List.append_assoc]

@[simp]
theorem final_pure (value : α) (world : World) :
    (Pure.pure value : Program World Error α).final world = (.ok value, world) := rfl

@[simp]
theorem final_raise (error : Error) (world : World) :
    (raise error : Program World Error α).final world = (.error error, world) := rfl

@[simp]
theorem final_inspect (view : World → α) (world : World) :
    (inspect view : Program World Error α).final world = (.ok (view world), world) := rfl

@[simp]
theorem final_durable (change : World → World) (world : World) :
    (durable change : Program World Error Unit).final world = (.ok (), change world) := rfl

@[simp]
theorem final_lift (outcome : Except Error α) (world : World) :
    (lift outcome : Program World Error α).final world = (outcome, world) := by
  cases outcome <;> rfl

@[simp]
theorem final_attempt (program : Program World Error α) (world : World) :
    program.attempt.final world = (.ok (program.final world).1, (program.final world).2) := rfl

variable {world last : World} {outcome : Except Error α}

variable {program : Program World Error α} {next : α → Program World Error β}

theorem attempt_ended (ended : program.attempt.final world = (.ok outcome, last)) :
    program.final world = (outcome, last) := by
  cases ended
  rfl

theorem final_bind (program : Program World Error α) (next : α → Program World Error β)
    (world : World) :
    (program >>= next).final world =
      match program.final world with
      | (.ok value, middle) => (next value).final middle
      | (.error error, middle) => (.error error, middle) := by
  change (program.andThen next).final world = _
  cases answer : (program world).result with
  | ok | error => simp only [final, andThen, answer]

variable {value : α}

theorem final_bind_of_ok {middle : World} (first : program.final world = (.ok value, middle)) :
    (program >>= next).final world = (next value).final middle := by
  rw [final_bind, first]

variable {error : Error}

theorem final_bind_of_error {middle : World}
    (first : program.final world = (.error error, middle)) :
    (program >>= next).final world = (.error error, middle) := by
  rw [final_bind, first]

theorem final_look (next : World → Program World Error α) (world : World) :
    (inspect id >>= next).final world = (next world).final world :=
  final_bind_of_ok (final_inspect id world)

def leaving (leave : Except Error Unit) (outcome : Except Error α) : Except Error α :=
  match leave with
  | .ok () => outcome
  | .error error => .error error

variable {leave : Except Error Unit}

theorem leaving_ok : leaving leave outcome = .ok value ↔ leave = .ok () ∧ outcome = .ok value := by
  cases leave with
  | ok | error => simp [leaving]

theorem leaving_error (raised : leaving leave outcome = .error error) :
    leave = .error error ∨ leave = .ok () ∧ outcome = .error error := by
  cases leave with
  | ok done => exact .inr ⟨rfl, raised⟩
  | error failure =>
    cases raised
    exact .inl rfl

theorem final_ensuring_lift (program : Program World Error α) (leave : Except Error Unit)
    (world : World) :
    (program.ensuring (lift leave)).final world =
      (leaving leave (program.final world).1, (program.final world).2) := by
  unfold ensuring
  rw [final_bind_of_ok (final_attempt program world), final_bind, final_lift]
  cases leave with
  | ok | error => simp [leaving]

theorem bind_returned {result : β}
    (returned : (program >>= next).final world = (.ok result, last)) :
    ∃ value middle, program.final world = (.ok value, middle) ∧
      (next value).final middle = (.ok result, last) := by
  cases first : program.final world with
  | mk answer middle =>
    cases answer with
    | ok value => exact ⟨value, middle, rfl, by rw [← returned, final_bind_of_ok first]⟩
    | error error =>
      rw [final_bind_of_error first] at returned
      cases returned

theorem bind_raised (raised : (program >>= next).final world = (.error error, last)) :
    program.final world = (.error error, last) ∨
      ∃ value middle, program.final world = (.ok value, middle) ∧
        (next value).final middle = (.error error, last) := by
  cases first : program.final world with
  | mk answer middle =>
    cases answer with
    | ok value => exact .inr ⟨value, middle, rfl, by rw [← raised, final_bind_of_ok first]⟩
    | error failure =>
      rw [final_bind_of_error first] at raised
      cases raised
      exact .inl rfl

end Program

open Program

def Contract (passes : World → Prop) (requires : World → Prop)
    (program : Program World Error α) (returns : α → World → Prop)
    (raises : Error → World → Prop) : Prop :=
  ∀ world, requires world →
    (∀ state ∈ (program world).passed, passes state) ∧
      match (program world).result with
      | .ok value => returns value (program world).world
      | .error error => raises error (program world).world

namespace Contract

variable {passes requires : World → Prop} {returns : α → World → Prop}
  {raises : Error → World → Prop} {program : Program World Error α}
  {next : α → Program World Error β}

theorem pure (holds : ∀ world, requires world → returns value world) :
    Contract passes requires (Pure.pure value : Program World Error α) returns raises := by
  intro world start
  exact ⟨by simp [Pure.pure, returning], holds world start⟩

theorem raise (holds : ∀ world, requires world → raises error world) :
    Contract passes requires (raise error : Program World Error α) returns raises := by
  intro world start
  exact ⟨by simp [Program.raise], holds world start⟩

theorem inspect {view : World → α} (holds : ∀ world, requires world → returns (view world) world) :
    Contract passes requires (inspect view : Program World Error α) returns raises := by
  intro world start
  exact ⟨by simp [Program.inspect], holds world start⟩

theorem look {next : World → Program World Error α}
    (contract : ∀ world, requires world → Contract passes (· = world) (next world) returns raises) :
    Contract passes requires (Program.inspect id >>= next) returns raises := by
  intro world start
  exact contract world start world rfl

variable {change : World → World}

theorem record {returns : Unit → World → Prop}
    (holds : ∀ world, requires world → returns () (change world)) :
    Contract passes requires (record change : Program World Error Unit) returns raises := by
  intro world start
  exact ⟨by simp [Program.record], holds world start⟩

theorem durable {returns : Unit → World → Prop}
    (kept : ∀ world, requires world → passes (change world))
    (holds : ∀ world, requires world → returns () (change world)) :
    Contract passes requires (durable change : Program World Error Unit) returns raises := by
  intro world start
  refine ⟨?_, holds world start⟩
  intro state passed
  rw [List.mem_singleton.mp passed]
  exact kept world start

variable {debris change : World → World}

theorem tearable {returns : Unit → World → Prop}
    (torn : ∀ world, requires world → passes (debris world))
    (kept : ∀ world, requires world → passes (change world))
    (holds : ∀ world, requires world → returns () (change world)) :
    Contract passes requires (tearable debris change : Program World Error Unit)
      returns raises := by
  intro world start
  refine ⟨?_, holds world start⟩
  intro state passed
  rcases List.mem_pair.mp passed with rfl | rfl
  · exact torn world start
  · exact kept world start

theorem lift {value : Except Error α}
    (fine : ∀ item, value = .ok item → ∀ world, requires world → returns item world)
    (failed : ∀ error, value = .error error → ∀ world, requires world → raises error world) :
    Contract passes requires (lift value : Program World Error α) returns raises := by
  cases value with
  | ok item => exact .pure (fine item rfl)
  | error error => exact .raise (failed error rfl)

theorem bind (middle : α → World → Prop) {returns : β → World → Prop}
    (first : Contract passes requires program middle raises)
    (second : ∀ value, Contract passes (middle value) (next value) returns raises) :
    Contract passes requires (program >>= next) returns raises := by
  intro world start
  have here := first world start
  change (∀ state ∈ (program.andThen next world).passed, passes state) ∧
    match (program.andThen next world).result with
    | .ok value => returns value (program.andThen next world).world
    | .error error => raises error (program.andThen next world).world
  cases answer : (program world).result with
  | error error =>
    simp only [answer] at here
    simp only [andThen, answer]
    exact here
  | ok value =>
    simp only [answer] at here
    have there := second value (program world).world here.2
    simp only [andThen, answer]
    refine ⟨?_, there.2⟩
    intro state passed
    rcases List.mem_append.mp passed with early | late
    · exact here.1 state early
    · exact there.1 state late

variable {raises' : Error → World → Prop}

theorem weaken {requires' : World → Prop} {returns' : α → World → Prop}
    (contract : Contract passes requires' program returns' raises')
    (stronger : ∀ world, requires world → requires' world)
    (weaker : ∀ value world, returns' value world → returns value world)
    (milder : ∀ error world, raises' error world → raises error world) :
    Contract passes requires program returns raises := by
  intro world start
  have here := contract world (stronger world start)
  refine ⟨here.1, ?_⟩
  cases answer : (program world).result with
  | ok value =>
    simp only [answer] at here
    exact weaker value _ here.2
  | error error =>
    simp only [answer] at here
    exact milder error _ here.2

section

variable (contract : Contract passes requires program returns raises)
include contract

theorem attempt :
    Contract passes requires program.attempt (fun outcome world =>
        match outcome with
        | .ok value => returns value world
        | .error error => raises error world) raises' := by
  intro world start
  have here := contract world start
  cases answer : (program world).result with
  | ok | error => simpa [Program.attempt, answer] using here

theorem of_returned (start : requires world)
    (ended : program.final world = (.ok value, last)) : returns value last := by
  have here := (contract world start).2
  have answer : (program world).result = .ok value := congrArg Prod.fst ended
  have there : (program world).world = last := congrArg Prod.snd ended
  rw [answer, there] at here
  exact here

theorem of_raised (start : requires world)
    (ended : program.final world = (.error error, last)) : raises error last := by
  have here := (contract world start).2
  have answer : (program world).result = .error error := congrArg Prod.fst ended
  have there : (program world).world = last := congrArg Prod.snd ended
  rw [answer, there] at here
  exact here

end

theorem of_final
    (holds : ∀ world value last, requires world → program.final world = (.ok value, last) →
      returns value last) :
    Contract (fun _ => True) requires program returns (fun _ _ => True) := by
  intro world start
  refine ⟨fun _ _ => trivial, ?_⟩
  cases answer : (program world).result with
  | ok value => exact holds world value _ start (Prod.ext answer rfl)
  | error error => trivial

theorem of_ended
    (returned : ∀ world value last, requires world → program.final world = (.ok value, last) →
      returns value last)
    (raised : ∀ world error last, requires world → program.final world = (.error error, last) →
      raises error last) :
    Contract (fun _ => True) requires program returns raises := by
  intro world start
  refine ⟨fun _ _ => trivial, ?_⟩
  cases answer : (program world).result with
  | ok value => exact returned world value _ start (Prod.ext answer rfl)
  | error error => exact raised world error _ start (Prod.ext answer rfl)

/-- What `leave` raises takes the place of the outcome, in the same state. -/
theorem ensuring_lift (main : Contract passes requires program returns raises)
    (left : ∀ error, leave = .error error → ∀ world,
      (∃ value, returns value world) ∨ (∃ failure, raises failure world) → raises error world) :
    Contract passes requires (program.ensuring (Program.lift leave)) returns raises := by
  refine bind _ (attempt main) fun outcome => ?_
  cases leave with
  | ok done =>
    cases outcome with
    | ok value => exact pure fun world holds => holds
    | error error => exact raise fun world holds => holds
  | error error =>
    refine bind (fun _ _ => False) (raise fun world holds => ?_) fun _ world none => none.elim
    refine left error rfl world ?_
    cases outcome with
    | ok value => exact .inl ⟨value, holds⟩
    | error failure => exact .inr ⟨failure, holds⟩

/-- A fact that is not about the storage may be taken out of the precondition. -/
theorem assuming {fact : Prop} (contract : fact → Contract passes requires program returns raises) :
    Contract passes (fun world => fact ∧ requires world) program returns raises :=
  fun world start => contract start.1 world start.2

theorem learning (fact : Prop) (known : ∀ world, requires world → fact)
    (contract : fact → Contract passes requires program returns raises) :
    Contract passes requires program returns raises :=
  fun world start => contract (known world start) world start

theorem pointwise
    (contract : ∀ world, requires world → Contract passes (· = world) program returns raises) :
    Contract passes requires program returns raises :=
  fun world start => contract world start world rfl

variable {cleanup : Program World Error Unit}

theorem cleaningUp (middle : Error → World → Prop)
    (main : Contract passes requires program returns middle)
    (cleaned : ∀ error, Contract passes (middle error) cleanup (fun _ => raises error)
      (fun _ world => ∀ other, raises other world)) :
    Contract passes requires (program.cleaningUp cleanup) returns raises := by
  intro world start
  have here := main world start
  cases answer : (program world).result with
  | ok value =>
    simp only [answer] at here
    simp only [Program.cleaningUp, answer]
    exact here
  | error error =>
    simp only [answer] at here
    have after : Contract passes (middle error)
        (cleanup >>= fun _ => (Program.raise error : Program World Error α)) returns raises :=
      bind _ ((cleaned error).weaken (fun _ holds => holds) (fun _ _ holds => holds)
        fun other _ holds => holds other) fun _ => .raise fun _ holds => holds
    have there := after (program world).world here.2
    simp only [Program.cleaningUp, answer]
    refine ⟨?_, there.2⟩
    intro state passed
    rcases List.mem_append.mp passed with early | late
    · exact here.1 state early
    · exact there.1 state late

theorem catching (middle : Error → World → Prop) {handler : Program World Error α}
    {caught : Error → Bool}
    (main : Contract passes requires program returns middle)
    (handled : ∀ error, caught error = true →
      Contract passes (middle error) handler returns raises)
    (uncaught : ∀ error world, caught error = false → middle error world → raises error world) :
    Contract passes requires (program.catching caught handler) returns raises := by
  intro world start
  have here := main world start
  cases answer : (program world).result with
  | ok value =>
    simp only [answer] at here
    simp only [Program.catching, answer]
    exact here
  | error error =>
    simp only [answer] at here
    cases decision : caught error with
    | false =>
      simp only [Program.catching, answer, decision, Bool.false_eq_true, if_false]
      exact ⟨here.1, uncaught error _ decision here.2⟩
    | true =>
      have there := handled error decision (program world).world here.2
      simp only [Program.catching, answer, decision, if_true]
      refine ⟨?_, there.2⟩
      intro state passed
      rcases List.mem_append.mp passed with early | late
      · exact here.1 state early
      · exact there.1 state late

theorem forEach (invariant : List β → World → Prop) {body : β → Program World Error Unit}
    (step : ∀ item rest, Contract passes (invariant (item :: rest)) (body item)
      (fun _ => invariant rest) raises) (items : List β) :
    Contract passes (invariant items) (forEach body items) (fun _ => invariant []) raises := by
  induction items with
  | nil => exact .pure fun _ holds => holds
  | cons item rest ih => exact .bind _ (step item rest) fun _ => ih

end Contract

/-- Every state a program passes or ends in stands in the relation to the one it
started from. -/
def Program.Respects (relation : World → World → Prop) (program : Program World Error α) : Prop :=
  ∀ world, (∀ state ∈ (program world).passed, relation state world) ∧
    relation (program world).world world

namespace Program.Respects

variable {relation : World → World → Prop} {program : Program World Error α}
  {next : α → Program World Error β}

theorem imp {weaker : World → World → Prop} (respects : program.Respects relation)
    (implied : ∀ later earlier, relation later earlier → weaker later earlier) :
    program.Respects weaker :=
  fun world => ⟨fun state passed => implied _ _ ((respects world).1 state passed),
    implied _ _ (respects world).2⟩

theorem related
    (respects : program.Respects relation) (ended : program.final world = (outcome, last)) :
    relation last world := by
  have reached : (program world).world = last := congrArg Prod.snd ended
  rw [← reached]
  exact (respects world).2

theorem durable (related : ∀ world, relation (change world) world) :
    (durable change : Program World Error Unit).Respects relation :=
  fun world => ⟨by simpa [Program.durable] using related world, related world⟩

theorem tearable (torn : ∀ world, relation (debris world) world)
    (related : ∀ world, relation (change world) world) :
    (tearable debris change : Program World Error Unit).Respects relation :=
  fun world => ⟨by simpa [Program.tearable] using ⟨torn world, related world⟩, related world⟩

theorem record (related : ∀ world, relation (change world) world) :
    (record change : Program World Error Unit).Respects relation :=
  fun world => ⟨by simp [Program.record], related world⟩

theorem attempt (respects : program.Respects relation) : program.attempt.Respects relation :=
  respects

/-- To respect a relation is a contract for each state to start from. -/
theorem iff_contract :
    program.Respects relation ↔ ∀ start, Contract (relation · start) (· = start) program
      (fun _ => (relation · start)) fun _ => (relation · start) := by
  constructor
  · rintro respects start world rfl
    refine ⟨(respects world).1, ?_⟩
    cases (program world).result <;> exact (respects world).2
  · intro contract world
    have here := contract world world rfl
    refine ⟨here.1, ?_⟩
    cases answer : (program world).result with
    | ok | error => simpa only [answer] using here.2

section

variable [Std.Refl relation]

theorem pure (value : α) : (Pure.pure value : Program World Error α).Respects relation :=
  fun world => ⟨by simp [Pure.pure, returning], refl_of relation world⟩

theorem raise (error : Error) : (raise error : Program World Error α).Respects relation :=
  fun world => ⟨by simp [Program.raise], refl_of relation world⟩

theorem inspect (view : World → α) : (inspect view : Program World Error α).Respects relation :=
  fun world => ⟨by simp [Program.inspect], refl_of relation world⟩

variable {computation : Except Error α}

theorem lift (value : Except Error α) : (lift value : Program World Error α).Respects relation := by
  cases value with
  | ok item => exact .pure item
  | error error => exact .raise error

/-- The rest of a program may know what a computation without steps has given. -/
theorem bind_lift (rest : ∀ value, computation = .ok value → (next value).Respects relation) :
    (Program.lift computation >>= next).Respects relation := by
  cases computation with
  | ok value => exact rest value rfl
  | error error => exact .raise error

end

variable [IsTrans World relation]

/-- The program may also start in a state that is related to the first. -/
theorem onward (respects : program.Respects relation) (start : World) :
    Contract (relation · start) (relation · start) program
      (fun _ => (relation · start)) fun _ => (relation · start) := by
  intro world reached
  refine ⟨fun state passed => trans_of relation ((respects world).1 state passed) reached, ?_⟩
  cases (program world).result <;> exact trans_of relation (respects world).2 reached

theorem bind
    (first : program.Respects relation) (second : ∀ value, (next value).Respects relation) :
    (program >>= next).Respects relation :=
  iff_contract.mpr fun start =>
    .bind _ (iff_contract.mp first start) fun value => (second value).onward start

theorem catching {handler : Program World Error α} {caught : Error → Bool}
    (main : program.Respects relation) (handled : handler.Respects relation) :
    (program.catching caught handler).Respects relation :=
  iff_contract.mpr fun start =>
    .catching _ (iff_contract.mp main start) (fun _ _ => handled.onward start)
      fun _ _ _ reached => reached

theorem cleaningUp (main : program.Respects relation) (cleaned : cleanup.Respects relation) :
    (program.cleaningUp cleanup).Respects relation :=
  iff_contract.mpr fun start =>
    .cleaningUp _ (iff_contract.mp main start) fun _ =>
      (cleaned.onward start).weaken (fun _ reached => reached) (fun _ _ reached => reached)
        fun _ _ reached _ => reached

variable [Std.Refl relation] {leave : Program World Error Unit}

theorem ensuring (main : program.Respects relation) (left : leave.Respects relation) :
    (program.ensuring leave).Respects relation :=
  bind (attempt main) fun outcome => bind left fun _ => lift outcome

theorem forEach {body : β → Program World Error Unit}
    (step : ∀ item, (body item).Respects relation) (items : List β) :
    (forEach body items).Respects relation := by
  induction items with
  | nil => exact .pure ()
  | cons item rest ih => exact .bind (step item) fun _ => ih

end Program.Respects

/-- Related storages of which the later keeps what holds of the earlier. -/
def Keeping (fact : World → Prop) (later earlier : World) : Prop := fact earlier → fact later

instance (fact : World → Prop) : Std.Refl (Keeping fact) where
  refl _ holds := holds

instance (fact : World → Prop) : IsTrans World (Keeping fact) where
  trans _ _ _ late early holds := late (early holds)

theorem Contract.keeping {fact : World → Prop} {program : Program World Error α}
    (contract : Contract fact fact program (fun _ => fact) (fun _ => fact)) :
    program.Respects (Keeping fact) := by
  intro world
  refine ⟨fun state passed holds => (contract world holds).1 state passed, fun holds => ?_⟩
  have here := (contract world holds).2
  cases answer : (program world).result with
  | ok | error => simpa only [answer] using here

theorem Program.Respects.kept {fact : World → Prop} {program : Program World Error α}
    (respects : program.Respects (Keeping fact))
    (ended : program.final world = (outcome, last)) (holds : fact world) : fact last :=
  respects.related ended holds

def Program.RaisesOnly (allowed : Error → Prop) (program : Program World Error α) : Prop :=
  ∀ world error, (program world).result = .error error → allowed error

namespace Program.RaisesOnly

variable {allowed : Error → Prop} {computation : Except Error α} {leave : Program World Error Unit}
  {program : Program World Error α} {next : α → Program World Error β}

theorem pure (value : α) : (Pure.pure value : Program World Error α).RaisesOnly allowed := by
  intro world error raised
  cases raised

theorem raise (fits : allowed error) :
    (raise error : Program World Error α).RaisesOnly allowed := by
  intro world other raised
  cases raised
  exact fits

theorem inspect (view : World → α) : (inspect view : Program World Error α).RaisesOnly allowed := by
  intro world error raised
  cases raised

theorem durable (change : World → World) :
    (durable change : Program World Error Unit).RaisesOnly allowed := by
  intro world error raised
  cases raised

theorem tearable (debris change : World → World) :
    (tearable debris change : Program World Error Unit).RaisesOnly allowed := by
  intro world error raised
  cases raised

theorem record (change : World → World) :
    (record change : Program World Error Unit).RaisesOnly allowed := by
  intro world error raised
  cases raised

theorem lift (fits : ∀ error, computation = .error error → allowed error) :
    (lift computation : Program World Error α).RaisesOnly allowed := by
  cases computation with
  | ok value => exact pure value
  | error error => exact raise (fits error rfl)

theorem bind
    (first : program.RaisesOnly allowed) (rest : ∀ value, (next value).RaisesOnly allowed) :
    (program >>= next).RaisesOnly allowed := by
  intro world error raised
  change (program.andThen next world).result = .error error at raised
  cases answer : (program world).result with
  | error failure =>
    simp only [andThen, answer] at raised
    cases raised
    exact first world _ answer
  | ok value =>
    simp only [andThen, answer] at raised
    exact rest value _ error raised

theorem ensuring (main : program.RaisesOnly allowed) (left : leave.RaisesOnly allowed) :
    (program.ensuring leave).RaisesOnly allowed := by
  intro world error raised
  exact bind left (fun _ => lift (main world)) _ error raised

theorem cleaningUp (main : program.RaisesOnly allowed) (cleaned : cleanup.RaisesOnly allowed) :
    (program.cleaningUp cleanup).RaisesOnly allowed := by
  intro world error raised
  cases answer : (program world).result with
  | ok value =>
    simp only [Program.cleaningUp, answer] at raised
    cases raised
  | error failure =>
    simp only [Program.cleaningUp, answer] at raised
    exact bind cleaned (fun _ => Program.RaisesOnly.raise (main world failure answer)) _ error
      raised

theorem forEach {body : β → Program World Error Unit}
    (step : ∀ item, (body item).RaisesOnly allowed) (items : List β) :
    (forEach body items).RaisesOnly allowed := by
  induction items with
  | nil => exact pure ()
  | cons item rest ih => exact bind (step item) fun _ => ih

end Program.RaisesOnly

end XFerry.CrashProgram
