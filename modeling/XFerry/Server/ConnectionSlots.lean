/-
The slots of accepted connections.

A connection gets a lease of the connection gate and is submitted to the worker pool.
Three parties may have to release it: the accept loop when the submission fails, the
worker when it is through, and the callback of the future when the task is cancelled
before a worker takes it.  They run as they like, and shutdown comes at any moment; so do
the signals, which the thread of the accept loop handles itself.
-/

import XFerry.Server.CapacityGate

namespace XFerry.Server

open EventMachine

inductive Releaser where
  | acceptLoop
  | worker
  | callback
deriving DecidableEq

/-- Where the accept loop is with a connection.  It is `failing` when the submission has
raised and the lease is still to be released, and the connection is `abandoned` when an
exception has left the loop that only `start` catches. -/
inductive AcceptStage where
  | unseen
  | acquiring
  | refused
  | admitted
  | submitted
  | failing
  | finished
  | abandoned
deriving DecidableEq

/-- The task in the worker pool, which is `leaving` when the handler has returned or
raised and the worker has taken its socket out of the table. -/
inductive TaskStage where
  | absent
  | queued
  | running
  | leaving
  | ended
  | cancelled
deriving DecidableEq

/-- The done-callback of the future, as far as it has a lease to release. -/
inductive CallbackStage where
  | absent
  | attached
  | due
  | finished
deriving DecidableEq

/-- `winner` is the party whose release has set the flag of the lease. -/
structure AcceptedConnection where
  accept : AcceptStage
  task : TaskStage
  callback : CallbackStage
  winner : Option Releaser

namespace AcceptedConnection

def unseen : AcceptedConnection :=
  { accept := .unseen, task := .absent, callback := .absent, winner := none }

def due (connection : AcceptedConnection) : Releaser → Bool
  | .acceptLoop => connection.accept = .failing
  | .worker => connection.task = .leaving
  | .callback => connection.callback = .due

def relieve (connection : AcceptedConnection) : Releaser → AcceptedConnection
  | .acceptLoop => { connection with accept := .finished }
  | .worker => { connection with task := .ended }
  | .callback => { connection with callback := .finished }

/-- Nobody has anything left to do for the connection. -/
structure Settled (connection : AcceptedConnection) : Prop where
  accept : connection.accept = .finished ∨ connection.accept = .abandoned
  task : connection.task = .absent ∨ connection.task = .ended ∨ connection.task = .cancelled
  callback : connection.callback ≠ .due

end AcceptedConnection

open AcceptedConnection

/-- The server is `stuck` while the thread of the accept loop waits for `_sockets_lock` and
holds it itself. -/
structure ServerLifecycle where
  slots : GateState
  running : Bool
  executorDown : Bool
  stuck : Bool
  connections : Nat → AcceptedConnection

/-- A submission that raises may have queued its task before.  The close of the gate is
part of `stop` and of `cleanup`, and may come before or after the loop notices.
`interrupt` is a `KeyboardInterrupt` in the thread of the accept loop, and `terminate` the
`stop` of the signal handler in that thread while it holds `_sockets_lock`; both name the
connection that the thread is at. -/
inductive LifecycleEvent where
  | accept (connection : Nat)
  | look (connection : Nat) (timedOut : Bool)
  | submit (connection : Nat) (queued raised : Bool)
  | attachCallback (connection : Nat)
  | startTask (connection : Nat)
  | finishTask (connection : Nat)
  | cancelTask (connection : Nat)
  | release (connection : Nat) (releaser : Releaser)
  | stopRunning
  | closeGate
  | shutDownExecutor
  | interrupt (connection : Option Nat)
  | terminate (connection : Option Nat)

def LifecycleEvent.connection? : LifecycleEvent → Option Nat
  | .accept connection => some connection
  | .look connection _ => some connection
  | .submit connection _ _ => some connection
  | .attachCallback connection => some connection
  | .startTask connection => some connection
  | .finishTask connection => some connection
  | .cancelTask connection => some connection
  | .release connection _ => some connection
  | .stopRunning => none
  | .closeGate => none
  | .shutDownExecutor => none
  | .interrupt _ => none
  | .terminate _ => none

namespace ServerLifecycle

def initial (maxConnections : Nat) : ServerLifecycle :=
  { slots := .initial maxConnections
    running := true
    executorDown := false
    stuck := false
    connections := fun _ => .unseen }

def enter (state : ServerLifecycle) (number : Nat) (connection : AcceptedConnection) :
    ServerLifecycle :=
  { state with connections := Function.update state.connections number connection }

@[simp] theorem enter_same (state : ServerLifecycle) (number : Nat)
    (connection : AcceptedConnection) :
    (state.enter number connection).connections number = connection :=
  Function.update_self ..

theorem enter_other (state : ServerLifecycle) {number other : Nat}
    (connection : AcceptedConnection) (different : other ≠ number) :
    (state.enter number connection).connections other = state.connections other :=
  Function.update_of_ne different ..

def withSlots (state : ServerLifecycle) (event : GateEvent) (number : Nat)
    (outcome : LeaseStage → AcceptedConnection) : Option ServerLifecycle :=
  (state.slots.step event).map fun slots =>
    { state with slots := slots }.enter number (outcome (slots.leases number))

/-- The end of one look of `acquire_connection`. -/
def afterLook (connection : AcceptedConnection) : LeaseStage → AcceptedConnection
  | .held => { connection with accept := .admitted }
  | .rejected => { connection with accept := .refused }
  | _ => connection

/-- `executor.submit`, which raises when the pool is down. -/
def submitted (connection : AcceptedConnection) (queued raised : Bool) : AcceptedConnection :=
  { connection with
    accept := if raised = true then .failing else .submitted
    task := if queued = true then .queued else .absent }

/-- `add_done_callback`, which runs the callback of a finished future at once. -/
def withCallback (connection : AcceptedConnection) : AcceptedConnection :=
  { connection with
    accept := .finished
    callback := if connection.task = .cancelled then .due else .attached }

def cancelled (connection : AcceptedConnection) : AcceptedConnection :=
  { connection with
    task := .cancelled
    callback := if connection.callback = .attached then .due else connection.callback }

/-- What an exception that only `start` catches leaves of a connection with a lease that the
thread is at: the accept loop has it in hand, its callback runs in the thread, or the thread
has just taken its task out of the queue to cancel it. -/
def interrupted (executorDown : Bool) (connection : AcceptedConnection) :
    Option AcceptedConnection :=
  match connection.accept with
  | .admitted | .submitted | .failing => some { connection with accept := .abandoned }
  | .finished =>
    if connection.callback = .due then some { connection with callback := .absent }
    else if executorDown = true ∧ connection.task = .queued then
      some { connection with task := .absent }
    else none
  | _ => none

/-- The thread of the accept loop may hold `_sockets_lock`: at a connection that it enters
into the table or takes out, or when it closes all sockets. -/
def mayHoldSockets (state : ServerLifecycle) : Option Nat → Bool
  | none => state.running = false
  | some number =>
    (state.connections number).accept = .admitted ∨ (state.connections number).accept = .failing

/-- One step of `release` by a party that has it to do: the flag is set, the slot is given
back, or another party has done so. -/
def releaseBy (state : ServerLifecycle) (number : Nat) (connection : AcceptedConnection)
    (releaser : Releaser) : Option ServerLifecycle :=
  match state.slots.leases number with
  | .held =>
    state.withSlots (.release number) number fun _ => { connection with winner := some releaser }
  | .releasing =>
    if connection.winner = some releaser then
      state.withSlots (.giveBack number) number fun _ => connection.relieve releaser
    else some (state.enter number (connection.relieve releaser))
  | .released => some (state.enter number (connection.relieve releaser))
  | _ => none

def step : Machine ServerLifecycle LifecycleEvent
  | state, .accept number =>
    let connection := state.connections number
    if state.running = true ∧ connection.accept = .unseen then
      state.withSlots (.ask number) number fun _ => { connection with accept := .acquiring }
    else none
  | state, .look number timedOut =>
    let connection := state.connections number
    if state.stuck = false ∧ connection.accept = .acquiring then
      state.withSlots (.look number timedOut) number (afterLook connection)
    else none
  | state, .submit number queued raised =>
    let connection := state.connections number
    if state.stuck = false ∧ connection.accept = .admitted ∧ (raised = false → queued = true) ∧
        (state.executorDown = true → raised = true ∧ queued = false) then
      some (state.enter number (submitted connection queued raised))
    else none
  | state, .attachCallback number =>
    let connection := state.connections number
    if state.stuck = false ∧ connection.accept = .submitted then
      some (state.enter number (withCallback connection))
    else none
  | state, .startTask number =>
    let connection := state.connections number
    if connection.task = .queued then
      some (state.enter number { connection with task := .running })
    else none
  | state, .finishTask number =>
    let connection := state.connections number
    if state.stuck = false ∧ connection.task = .running then
      some (state.enter number { connection with task := .leaving })
    else none
  | state, .cancelTask number =>
    let connection := state.connections number
    if state.stuck = false ∧ state.executorDown = true ∧ connection.task = .queued then
      some (state.enter number (cancelled connection))
    else none
  | state, .release number releaser =>
    let connection := state.connections number
    if connection.due releaser = true ∧ (state.stuck = true → releaser = .worker) then
      state.releaseBy number connection releaser
    else none
  | state, .stopRunning => some { state with running := false }
  | state, .closeGate => (state.slots.step .close).map fun slots => { state with slots := slots }
  | state, .shutDownExecutor =>
    if state.stuck = false then some { state with executorDown := true } else none
  | state, .interrupt none => some { state with running := false, stuck := false }
  | state, .interrupt (some number) =>
    let connection := state.connections number
    let left := { state with running := false, stuck := false }
    if connection.accept = .acquiring then
      left.withSlots (.giveUp number) number fun _ => { connection with accept := .refused }
    else (interrupted state.executorDown connection).map (left.enter number)
  | state, .terminate holding =>
    if state.mayHoldSockets holding = true then
      (state.slots.step .close).map fun slots =>
        { state with slots := slots, running := false, stuck := true }
    else none

/-! ### The lifecycle uses the gate as a gate -/

section

variable {state : ServerLifecycle} {number : Nat} {next : ServerLifecycle} {event : GateEvent}
  {outcome : LeaseStage → AcceptedConnection}

theorem withSlots_eq_some (taken : state.withSlots event number outcome = some next) :
    ∃ slots, state.slots.step event = some slots ∧
      next = { state with slots := slots }.enter number (outcome (slots.leases number)) := by
  obtain ⟨slots, moved, same⟩ := Option.map_eq_some_iff.mp taken
  exact ⟨slots, moved, same.symm⟩

theorem withSlots_slots (taken : state.withSlots event number outcome = some next) :
    ∃ operation, state.slots.step operation = some next.slots := by
  obtain ⟨slots, moved, rfl⟩ := withSlots_eq_some taken
  exact ⟨event, moved⟩

end

variable {state : ServerLifecycle} {number : Nat} {next : ServerLifecycle} {event : LifecycleEvent}

theorem step_slots (taken : step state event = some next) :
    next.slots = state.slots ∨ ∃ operation, state.slots.step operation = some next.slots := by
  cases event with
  | accept number | look number timedOut =>
    simp only [step] at taken
    split at taken
    · exact .inr (withSlots_slots taken)
    · cases taken
  | submit | attachCallback | startTask | finishTask | cancelTask | shutDownExecutor =>
    simp only [step] at taken
    split at taken
    · cases taken
      exact .inl rfl
    · cases taken
  | release number releaser =>
    simp only [step] at taken
    split at taken
    · unfold releaseBy at taken
      split at taken
      · exact .inr (withSlots_slots taken)
      · split at taken
        · exact .inr (withSlots_slots taken)
        · cases taken
          exact .inl rfl
      · cases taken
        exact .inl rfl
      · cases taken
    · cases taken
  | stopRunning =>
    cases taken
    exact .inl rfl
  | closeGate =>
    simp only [step, Option.map_eq_some_iff] at taken
    obtain ⟨slots, moved, rfl⟩ := taken
    exact .inr ⟨.close, moved⟩
  | interrupt holding =>
    cases holding with
    | none =>
      cases taken
      exact .inl rfl
    | some number =>
      simp only [step] at taken
      split at taken
      · obtain ⟨slots, moved, rfl⟩ := withSlots_eq_some taken
        exact .inr ⟨.giveUp number, moved⟩
      obtain ⟨connection, _, rfl⟩ := Option.map_eq_some_iff.mp taken
      exact .inl rfl
  | terminate holding =>
    simp only [step] at taken
    split at taken
    · obtain ⟨slots, moved, rfl⟩ := Option.map_eq_some_iff.mp taken
      exact .inr ⟨.close, moved⟩
    · cases taken

variable {events : List LifecycleEvent} {final : ServerLifecycle}

theorem run_slots (reached : run step state events = some final) :
    ∃ operations, run GateState.step state.slots operations = some final.slots := by
  induction events generalizing state with
  | nil =>
    cases reached
    exact ⟨[], rfl⟩
  | cons event rest ih =>
    obtain ⟨next, taken, later⟩ := Option.bind_eq_some_iff.mp reached
    obtain ⟨operations, rest⟩ := ih later
    rcases step_slots taken with same | ⟨operation, moved⟩
    · rw [same] at rest
      exact ⟨operations, rest⟩
    refine ⟨operation :: operations, ?_⟩
    rw [run_cons, moved]
    exact rest

/-! ### Somebody has each lease to release -/

end ServerLifecycle

open ServerLifecycle

namespace AcceptedConnection

/-- A party has the lease to release, or will have. -/
def Owes (connection : AcceptedConnection) : Prop :=
  connection.accept = .admitted ∨ connection.accept = .submitted ∨ connection.accept = .failing ∨
    connection.task = .queued ∨ connection.task = .running ∨ connection.task = .leaving ∨
    connection.callback = .due

/-- The lease of a connection and the parties that may release it.  While the lease is
held, somebody owes its release and nobody has returned from one. -/
structure Sound (lease : LeaseStage) (connection : AcceptedConnection) : Prop where
  unseen : connection.accept = .unseen ↔ lease = .unasked
  acquiring : connection.accept = .acquiring ↔ lease = .waiting
  refused : connection.accept = .refused ↔ lease = .rejected
  untouched : connection.accept = .unseen ∨ connection.accept = .acquiring ∨
    connection.accept = .refused ∨ connection.accept = .admitted →
      connection.task = .absent ∧ connection.callback = .absent
  unattached : connection.accept = .submitted ∨ connection.accept = .failing →
    connection.callback = .absent
  tasked : connection.accept = .submitted → connection.task ≠ .absent
  watched : connection.callback = .attached → connection.task ≠ .cancelled
  abandoned : connection.accept = .abandoned → connection.callback = .absent ∧
    (connection.task = .running ∨ connection.task = .leaving ∨ connection.task = .ended)
  owed : lease = .held → connection.Owes
  unrelieved : lease = .held → connection.task ≠ .ended ∧ connection.callback ≠ .finished ∧
    (connection.accept = .finished → connection.callback ≠ .absent)
  won : lease = .releasing → ∃ releaser, connection.winner = some releaser ∧
    connection.due releaser = true

variable {lease : LeaseStage} {connection : AcceptedConnection}

theorem unseen_sound : unseen.Sound .unasked := by
  constructor <;> simp [unseen]

section

variable (sound : connection.Sound lease)
include sound

theorem Sound.submitted (admitted : connection.accept = .admitted)
    {queued raised : Bool} (kept : raised = false → queued = true) :
    (submitted connection queued raised).Sound lease := by
  obtain ⟨task, callback⟩ := sound.untouched (by simp [admitted])
  have notWon : lease ≠ .releasing := by
    intro releasing
    obtain ⟨releaser, _, isDue⟩ := sound.won releasing
    cases releaser <;> simp [due, admitted, task, callback] at isDue
  have notUnseen := sound.unseen
  have notAcquiring := sound.acquiring
  have notRefused := sound.refused
  cases raised <;> cases queued <;> constructor <;> simp_all [ServerLifecycle.submitted, Owes]

theorem Sound.withCallback (submitted : connection.accept = .submitted) :
    (withCallback connection).Sound lease := by
  have tasked := sound.tasked submitted
  have notUnseen := sound.unseen
  have notAcquiring := sound.acquiring
  have notRefused := sound.refused
  rw [submitted] at notUnseen notAcquiring notRefused
  have unattached := sound.unattached (.inl submitted)
  constructor
  case unseen => simpa [ServerLifecycle.withCallback] using notUnseen
  case acquiring => simpa [ServerLifecycle.withCallback] using notAcquiring
  case refused => simpa [ServerLifecycle.withCallback] using notRefused
  case untouched => simp [ServerLifecycle.withCallback]
  case unattached => simp [ServerLifecycle.withCallback]
  case tasked => simp [ServerLifecycle.withCallback]
  case watched =>
    intro attached cancelled
    simp [ServerLifecycle.withCallback] at attached cancelled
    exact attached cancelled
  case abandoned => simp [ServerLifecycle.withCallback]
  case owed =>
    intro held
    have notEnded := (sound.unrelieved held).1
    cases task : connection.task with
    | absent => exact absurd task tasked
    | ended => exact absurd task notEnded
    | queued | running | leaving | cancelled => simp [ServerLifecycle.withCallback, Owes, task]
  case unrelieved =>
    intro held
    refine ⟨(sound.unrelieved held).1, ?_, ?_⟩
    all_goals
      simp only [ServerLifecycle.withCallback]
      split <;> simp
  case won =>
    intro releasing
    obtain ⟨releaser, winner, isDue⟩ := sound.won releasing
    refine ⟨releaser, winner, ?_⟩
    cases releaser with
    | acceptLoop => simp [due, submitted] at isDue
    | worker => exact isDue
    | callback => simp [due, unattached] at isDue

theorem Sound.advanceTask {task : TaskStage}
    (before : connection.task = .queued ∨ connection.task = .running)
    (after : task = .running ∨ task = .leaving) : { connection with task := task }.Sound lease := by
  constructor
  case unseen => exact sound.unseen
  case acquiring => exact sound.acquiring
  case refused => exact sound.refused
  case untouched =>
    intro early
    have absent := (sound.untouched early).1
    rw [absent] at before
    rcases before with here | here <;> cases here
  case unattached => exact sound.unattached
  case tasked =>
    rcases after with rfl | rfl <;> simp
  case watched =>
    rcases after with rfl | rfl <;> simp
  case abandoned =>
    intro abandoned
    refine ⟨(sound.abandoned abandoned).1, ?_⟩
    rcases after with rfl | rfl <;> simp
  case owed =>
    rcases after with rfl | rfl <;> simp [Owes]
  case unrelieved =>
    intro held
    refine ⟨?_, (sound.unrelieved held).2⟩
    rcases after with rfl | rfl <;> simp
  case won =>
    intro releasing
    obtain ⟨releaser, winner, isDue⟩ := sound.won releasing
    refine ⟨releaser, winner, ?_⟩
    cases releaser with
    | acceptLoop | callback => exact isDue
    | worker =>
      have leaving : connection.task = .leaving := by simpa [due] using isDue
      rw [leaving] at before
      rcases before with here | here <;> cases here

theorem Sound.cancelled (queued : connection.task = .queued) :
    (cancelled connection).Sound lease := by
  constructor
  case unseen => exact sound.unseen
  case acquiring => exact sound.acquiring
  case refused => exact sound.refused
  case untouched =>
    intro early
    have absent := (sound.untouched early).1
    rw [queued] at absent
    cases absent
  case unattached =>
    intro early
    have absent := sound.unattached early
    simp [ServerLifecycle.cancelled, absent]
  case tasked => simp [ServerLifecycle.cancelled]
  case watched =>
    intro attached
    simp only [ServerLifecycle.cancelled] at attached
    split at attached
    · cases attached
    · contradiction
  case abandoned =>
    intro abandoned
    have tasked := (sound.abandoned abandoned).2
    rw [queued] at tasked
    rcases tasked with here | here | here <;> cases here
  case owed =>
    intro held
    obtain ⟨_, notOver, notAbsent⟩ := sound.unrelieved held
    have callback : connection.callback = .attached ∨ connection.callback = .due →
        (ServerLifecycle.cancelled connection).callback = .due := by
      rintro (here | here) <;> simp [ServerLifecycle.cancelled, here]
    cases stage : connection.callback with
    | attached => simp [Owes, callback (Or.inl stage)]
    | due => simp [Owes, callback (Or.inr stage)]
    | finished => exact absurd stage notOver
    | absent =>
      have untouched := sound.untouched
      have abandoned := sound.abandoned
      have notOverYet : connection.accept ≠ .finished := fun finished => notAbsent finished stage
      rw [queued] at untouched abandoned
      cases accept : connection.accept with
      | finished => exact absurd accept notOverYet
      | admitted | unseen | acquiring | refused => simp [accept] at untouched
      | submitted | failing => simp [ServerLifecycle.cancelled, Owes, accept]
      | abandoned => simp [accept] at abandoned
  case unrelieved =>
    intro held
    obtain ⟨_, notOver, notAbsent⟩ := sound.unrelieved held
    refine ⟨by simp [ServerLifecycle.cancelled], ?_, ?_⟩
    · simp only [ServerLifecycle.cancelled]
      split
      · decide
      · exact notOver
    · intro finished
      simp only [ServerLifecycle.cancelled]
      split
      · decide
      · exact notAbsent finished
  case won =>
    intro releasing
    obtain ⟨releaser, winner, isDue⟩ := sound.won releasing
    refine ⟨releaser, winner, ?_⟩
    cases releaser with
    | acceptLoop => exact isDue
    | worker => simp [due, queued] at isDue
    | callback =>
      have dueHere : connection.callback = .due := by simpa [due] using isDue
      simp [due, ServerLifecycle.cancelled, dueHere]

end

theorem Sound.ask (sound : connection.Sound .unasked) :
    { connection with accept := .acquiring }.Sound .waiting := by
  have unseen : connection.accept = .unseen := sound.unseen.mpr rfl
  have untouched := sound.untouched (.inl unseen)
  constructor
  case untouched =>
    intro _
    exact untouched
  case watched => simp [untouched]
  all_goals simp

theorem Sound.afterLook (sound : connection.Sound .waiting) {stage : LeaseStage}
    (looked : stage = .held ∨ stage = .rejected ∨ stage = .waiting) :
    (afterLook connection stage).Sound stage := by
  have acquiring : connection.accept = .acquiring := sound.acquiring.mpr rfl
  have untouched := sound.untouched (.inr (.inl acquiring))
  rcases looked with rfl | rfl | rfl
  · constructor
    case untouched =>
      intro _
      exact untouched
    case watched => simp [ServerLifecycle.afterLook, untouched]
    case owed =>
      intro _
      exact .inl rfl
    case unrelieved => simp [ServerLifecycle.afterLook, untouched]
    all_goals simp [ServerLifecycle.afterLook]
  · constructor
    case untouched =>
      intro _
      exact untouched
    case watched => simp [ServerLifecycle.afterLook, untouched]
    all_goals simp [ServerLifecycle.afterLook]
  · exact sound

variable {releaser : Releaser}

theorem Sound.claim (sound : connection.Sound .held) (isDue : connection.due releaser = true) :
    { connection with winner := some releaser }.Sound .releasing := by
  constructor
  case unseen => simpa using sound.unseen
  case acquiring => simpa using sound.acquiring
  case refused => simpa using sound.refused
  case untouched => exact sound.untouched
  case unattached => exact sound.unattached
  case tasked => exact sound.tasked
  case watched => exact sound.watched
  case abandoned => exact sound.abandoned
  case owed =>
    intro held
    cases held
  case unrelieved =>
    intro held
    cases held
  case won =>
    intro _
    refine ⟨releaser, rfl, ?_⟩
    cases releaser with
    | acceptLoop | worker | callback => exact isDue

/-- A party that had a released lease to release returns.  The one that gives the slot
back is not among those that return earlier. -/
theorem Sound.relieve (sound : connection.Sound lease)
    (isDue : connection.due releaser = true) {stage : LeaseStage}
    (before : lease = .releasing ∨ lease = .released)
    (after : stage = .released ∨ stage = .releasing ∧ lease = .releasing ∧
      connection.winner ≠ some releaser) : (connection.relieve releaser).Sound stage := by
  have notUnseen : connection.accept ≠ .unseen := by
    intro unseen
    have unasked := sound.unseen.mp unseen
    rcases before with rfl | rfl <;> cases unasked
  have notAcquiring : connection.accept ≠ .acquiring := by
    intro acquiring
    have waiting := sound.acquiring.mp acquiring
    rcases before with rfl | rfl <;> cases waiting
  have notRefused : connection.accept ≠ .refused := by
    intro refused
    have rejected := sound.refused.mp refused
    rcases before with rfl | rfl <;> cases rejected
  have notHeld : stage ≠ .held := by
    rcases after with rfl | ⟨rfl, _⟩ <;> decide
  have untouched := sound.untouched
  have unattached := sound.unattached
  have abandoned := sound.abandoned
  constructor
  case unseen =>
    rcases after with rfl | ⟨rfl, _⟩ <;> cases releaser <;> simp_all [relieve]
  case acquiring =>
    rcases after with rfl | ⟨rfl, _⟩ <;> cases releaser <;> simp_all [relieve]
  case refused =>
    rcases after with rfl | ⟨rfl, _⟩ <;> cases releaser <;> simp_all [relieve]
  case untouched => cases releaser <;> simp_all [relieve, due]
  case unattached => cases releaser <;> simp_all [relieve, due]
  case tasked => cases releaser <;> simp_all [relieve, due]
  case watched => cases releaser <;> simp_all [relieve, due]
  case abandoned => cases releaser <;> simp_all [relieve, due]
  case owed => exact fun held => absurd held notHeld
  case unrelieved => exact fun held => absurd held notHeld
  case won =>
    intro releasing
    rcases after with rfl | ⟨rfl, same, other⟩
    · cases releasing
    obtain ⟨winner, isWinner, winnerDue⟩ := sound.won same
    refine ⟨winner, ?_, ?_⟩
    · cases releaser <;> exact isWinner
    · cases releaser <;> cases winner <;> simp_all [relieve, due]

theorem Sound.released_of_settled (sound : connection.Sound lease)
    (settled : connection.Settled) : lease = .released := by
  obtain ⟨gone, task, callback⟩ := settled
  cases lease with
  | released => rfl
  | unasked =>
    have unseen := sound.unseen.mpr rfl
    rcases gone with here | here <;> cases unseen.symm.trans here
  | waiting =>
    have acquiring := sound.acquiring.mpr rfl
    rcases gone with here | here <;> cases acquiring.symm.trans here
  | rejected =>
    have refused := sound.refused.mpr rfl
    rcases gone with here | here <;> cases refused.symm.trans here
  | held =>
    have owed := sound.owed rfl
    rcases gone with left | left <;> rcases task with here | here | here <;>
      simp [Owes, left, here, callback] at owed
  | releasing =>
    obtain ⟨releaser, _, isDue⟩ := sound.won rfl
    rcases gone with left | left <;> rcases task with here | here | here <;> cases releaser <;>
      simp [due, left, here, callback] at isDue

/-- An exception takes no release with it: the accept loop only waits for the slot, or a worker
has the task and the loop has not begun to release the lease itself. -/
def Spared (connection : AcceptedConnection) : Prop :=
  connection.accept = .acquiring ∨
    connection.accept ≠ .finished ∧ connection.winner ≠ some .acceptLoop ∧
      (connection.task = .running ∨ connection.task = .leaving ∨ connection.task = .ended)

theorem Sound.abandon (sound : connection.Sound lease)
    (early : connection.accept = .submitted ∨ connection.accept = .failing)
    (kept : connection.winner ≠ some .acceptLoop)
    (task : connection.task = .running ∨ connection.task = .leaving ∨ connection.task = .ended) :
    { connection with accept := .abandoned }.Sound lease := by
  have unattached := sound.unattached early
  constructor
  case unseen =>
    have unseen := sound.unseen
    rcases early with here | here <;> simp_all
  case acquiring =>
    have acquiring := sound.acquiring
    rcases early with here | here <;> simp_all
  case refused =>
    have refused := sound.refused
    rcases early with here | here <;> simp_all
  case untouched => simp
  case unattached => simp
  case tasked => simp
  case watched => exact sound.watched
  case abandoned => exact fun _ => ⟨unattached, task⟩
  case owed =>
    intro held
    have notEnded := (sound.unrelieved held).1
    rcases task with here | here | here
    · simp [Owes, here]
    · simp [Owes, here]
    · exact absurd here notEnded
  case unrelieved =>
    intro held
    refine ⟨(sound.unrelieved held).1, (sound.unrelieved held).2.1, ?_⟩
    simp
  case won =>
    intro releasing
    obtain ⟨releaser, winner, isDue⟩ := sound.won releasing
    refine ⟨releaser, winner, ?_⟩
    cases releaser with
    | acceptLoop => exact absurd winner kept
    | worker | callback => exact isDue

theorem Sound.interrupted (sound : connection.Sound lease) (spared : connection.Spared)
    {executorDown : Bool} {left : AcceptedConnection}
    (taken : interrupted executorDown connection = some left) :
    left.Sound lease := by
  unfold ServerLifecycle.interrupted at taken
  split at taken
  · case h_1 admitted =>
    rcases spared with acquiring | ⟨_, _, task⟩
    · cases admitted.symm.trans acquiring
    rw [(sound.untouched (by simp [admitted])).1] at task
    rcases task with here | here | here <;> cases here
  · case h_2 submitted =>
    cases taken
    rcases spared with acquiring | ⟨_, kept, task⟩
    · cases submitted.symm.trans acquiring
    exact sound.abandon (.inl submitted) kept task
  · case h_3 failing =>
    cases taken
    rcases spared with acquiring | ⟨_, kept, task⟩
    · cases failing.symm.trans acquiring
    exact sound.abandon (.inr failing) kept task
  · case h_4 finished =>
    rcases spared with acquiring | ⟨unfinished, _⟩
    · cases finished.symm.trans acquiring
    exact absurd finished unfinished
  · cases taken

end AcceptedConnection

namespace ServerLifecycle

/-- Every connection is sound with its own lease, and nobody waits for ever. -/
structure Sound (state : ServerLifecycle) : Prop where
  unstuck : state.stuck = false
  each : ∀ number, (state.connections number).Sound (state.slots.leases number)

/-- A signal does no harm: an exception spares the connection that the thread is at, and the
handler does not run while the thread holds `_sockets_lock`. -/
def SafeSignal (state : ServerLifecycle) : LifecycleEvent → Prop
  | .interrupt (some number) => (state.connections number).Spared
  | .terminate _ => False
  | _ => True

variable {state : ServerLifecycle} {connection : AcceptedConnection}

section

variable (sound : state.Sound)
include sound

theorem Sound.enter (here : connection.Sound (state.slots.leases number)) :
    (state.enter number connection).Sound := by
  refine ⟨sound.unstuck, ?_⟩
  intro other
  by_cases same : other = number
  · rw [same, enter_same]
    exact here
  · rw [enter_other _ _ same]
    exact sound.each other

theorem Sound.withSlots
    (about : event.lease? = some number) (taken : state.withSlots event number outcome = some next)
    (here : ∀ slots, state.slots.step event = some slots →
      (outcome (slots.leases number)).Sound (slots.leases number)) :
    next.Sound := by
  obtain ⟨slots, moved, rfl⟩ := withSlots_eq_some taken
  refine ⟨sound.unstuck, ?_⟩
  intro other
  by_cases same : other = number
  · rw [same, enter_same]
    exact here slots moved
  rw [enter_other _ _ same]
  have kept : slots.leases other = state.slots.leases other := by
    apply GateState.step_other moved
    rw [about]
    intro equal
    exact same (Option.some.inj equal).symm
  have before := sound.each other
  rw [← kept] at before
  exact before

theorem Sound.releaseBy (isDue : (state.connections number).due releaser = true)
    (taken : state.releaseBy number (state.connections number) releaser = some next) :
    next.Sound := by
  have here := sound.each number
  unfold ServerLifecycle.releaseBy at taken
  split at taken
  · case h_1 held =>
    rw [held] at here
    refine sound.withSlots rfl taken ?_
    intro slots moved
    simp only [GateState.step, held, Option.some.injEq] at moved
    rw [← moved, GateState.enter_same]
    exact here.claim isDue
  · case h_2 releasing =>
    rw [releasing] at here
    split at taken
    · refine sound.withSlots rfl taken ?_
      intro slots moved
      simp only [GateState.step, releasing, Option.some.injEq] at moved
      rw [← moved, GateState.countBack_leases, GateState.enter_same]
      exact here.relieve isDue (.inl rfl) (.inl rfl)
    rename_i lost
    cases taken
    apply sound.enter
    rw [releasing]
    exact here.relieve isDue (.inl rfl) (.inr ⟨rfl, rfl, lost⟩)
  · case h_3 released =>
    cases taken
    rw [released] at here
    apply sound.enter
    rw [released]
    exact here.relieve isDue (.inr rfl) (.inl rfl)
  · cases taken

theorem Sound.interrupt (spared : (state.connections number).Spared)
    (taken : step state (.interrupt (some number)) = some next) : next.Sound := by
  have left : ServerLifecycle.Sound { state with running := false, stuck := false } :=
    ⟨rfl, sound.each⟩
  have here := sound.each number
  simp only [step] at taken
  split at taken
  · case isTrue acquiring =>
    have waiting := here.acquiring.mp acquiring
    rw [waiting] at here
    refine left.withSlots rfl taken ?_
    intro slots moved
    simp only [GateState.step, waiting, Option.some.injEq] at moved
    rw [← moved, GateState.enter_same]
    exact here.afterLook (.inr (.inl rfl))
  obtain ⟨connection, found, rfl⟩ := Option.map_eq_some_iff.mp taken
  exact left.enter (here.interrupted spared found)

theorem Sound.step (safe : state.SafeSignal event)
    (taken : step state event = some next) : next.Sound := by
  cases event with
  | accept number =>
    simp only [ServerLifecycle.step] at taken
    split at taken
    · case isTrue fresh =>
      have here := sound.each number
      have unasked := here.unseen.mp fresh.2
      rw [unasked] at here
      refine sound.withSlots rfl taken ?_
      intro slots moved
      simp only [GateState.step, unasked, Option.some.injEq] at moved
      rw [← moved, GateState.enter_same]
      exact here.ask
    · cases taken
  | look number timedOut =>
    simp only [ServerLifecycle.step] at taken
    split at taken
    · case isTrue acquiring =>
      have here := sound.each number
      have waiting := here.acquiring.mp acquiring.2
      rw [waiting] at here
      refine sound.withSlots rfl taken ?_
      intro slots moved
      have looked : slots.leases number = .held ∨ slots.leases number = .rejected ∨
          slots.leases number = .waiting := by
        simp only [GateState.step, waiting] at moved
        split at moved
        · cases moved
          exact .inl (GateState.enter_same ..)
        · cases moved
          exact .inr (.inl (GateState.enter_same ..))
        · cases moved
          exact .inr (.inr waiting)
      exact here.afterLook looked
    · cases taken
  | submit number queued raised =>
    simp only [ServerLifecycle.step] at taken
    split at taken
    · case isTrue admitted =>
      cases taken
      exact sound.enter ((sound.each number).submitted admitted.2.1 admitted.2.2.1)
    · cases taken
  | attachCallback number =>
    simp only [ServerLifecycle.step] at taken
    split at taken
    · case isTrue submitted =>
      cases taken
      exact sound.enter ((sound.each number).withCallback submitted.2)
    · cases taken
  | startTask number =>
    simp only [ServerLifecycle.step] at taken
    split at taken
    · case isTrue queued =>
      cases taken
      exact sound.enter ((sound.each number).advanceTask (.inl queued) (.inl rfl))
    · cases taken
  | finishTask number =>
    simp only [ServerLifecycle.step] at taken
    split at taken
    · case isTrue running =>
      cases taken
      exact sound.enter ((sound.each number).advanceTask (.inr running.2) (.inr rfl))
    · cases taken
  | cancelTask number =>
    simp only [ServerLifecycle.step] at taken
    split at taken
    · case isTrue queued =>
      cases taken
      exact sound.enter ((sound.each number).cancelled queued.2.2)
    · cases taken
  | release number releaser =>
    simp only [ServerLifecycle.step] at taken
    split at taken
    · case isTrue isDue => exact sound.releaseBy isDue.1 taken
    · cases taken
  | stopRunning | closeGate =>
    cases taken
    exact ⟨sound.unstuck, sound.each⟩
  | shutDownExecutor =>
    simp only [ServerLifecycle.step] at taken
    split at taken
    · cases taken
      exact ⟨sound.unstuck, sound.each⟩
    · cases taken
  | interrupt holding =>
    cases holding with
    | none =>
      cases taken
      exact ⟨rfl, sound.each⟩
    | some number => exact sound.interrupt safe taken
  | terminate holding => exact absurd safe id

end

theorem run_sound {limit : Nat} (safe : Along step SafeSignal (initial limit) events)
    (reached : run step (initial limit) events = some final) : final.Sound :=
  run_invariant Sound (fun _ _ _ sound safe taken => sound.step safe taken)
    ⟨rfl, fun _ => unseen_sound⟩ safe reached

/-! ### Nobody gets stuck -/

theorem exists_withSlots {slots : GateState}
    (moved : state.slots.step event = some slots) (number : Nat)
    (outcome : LeaseStage → AcceptedConnection) :
    ∃ next, state.withSlots event number outcome = some next := by
  rw [withSlots, moved]
  exact ⟨_, rfl⟩

theorem exists_releaseBy (granted : (state.slots.leases number).isGranted = true) :
    ∃ next, state.releaseBy number connection releaser = some next := by
  unfold releaseBy
  cases stage : state.slots.leases number with
  | held =>
    have moved : state.slots.step (.release number) =
        some (state.slots.enter state.slots.gate number .releasing) := by
      simp only [GateState.step, stage]
    exact exists_withSlots moved number _
  | releasing =>
    have moved : state.slots.step (.giveBack number) =
        some ((state.slots.enter state.slots.gate.release number .released).countBack number) := by
      simp only [GateState.step, stage]
    dsimp only
    split
    · exact exists_withSlots moved number _
    · exact ⟨_, rfl⟩
  | released => exact ⟨_, rfl⟩
  | unasked | waiting | rejected =>
    rw [stage] at granted
    cases granted

theorem exists_look (unstuck : state.stuck = false)
    (acquiring : (state.connections number).accept = .acquiring)
    (waiting : state.slots.leases number = .waiting) :
    ∃ next, step state (.look number true) = some next := by
  have looked : ∃ slots, state.slots.step (.look number true) = some slots := by
    simp only [GateState.step, waiting]
    split <;> exact ⟨_, rfl⟩
  obtain ⟨slots, moved⟩ := looked
  simp only [step, unstuck, acquiring, and_self, if_true]
  exact exists_withSlots moved number _

def Proceeds (state : ServerLifecycle) (number : Nat) : Prop :=
  ∃ event next, LifecycleEvent.connection? event = some number ∧ step state event = some next

theorem Sound.proceeds_of_due (sound : state.Sound)
    (accepted : (state.connections number).accept = .failing ∨
      (state.connections number).accept = .finished ∨
      (state.connections number).accept = .abandoned)
    (isDue : (state.connections number).due releaser = true) : state.Proceeds number := by
  have here := sound.each number
  have granted : (state.slots.leases number).isGranted = true := by
    cases stage : state.slots.leases number with
    | unasked => rcases accepted with is | is | is <;> cases is.symm.trans (here.unseen.mpr stage)
    | waiting =>
      rcases accepted with is | is | is <;> cases is.symm.trans (here.acquiring.mpr stage)
    | rejected => rcases accepted with is | is | is <;> cases is.symm.trans (here.refused.mpr stage)
    | held | releasing | released => rfl
  obtain ⟨next, taken⟩ := exists_releaseBy granted
  refine ⟨.release number releaser, next, rfl, ?_⟩
  simp only [ServerLifecycle.step, isDue, sound.unstuck, Bool.false_eq_true, false_implies,
    and_self, if_true]
  exact taken

theorem Sound.proceeds_of_callback (sound : state.Sound)
    (accept : (state.connections number).accept = .finished ∨
      (state.connections number).accept = .abandoned)
    (task : (state.connections number).task = .absent ∨ (state.connections number).task = .ended ∨
      (state.connections number).task = .cancelled)
    (unsettled : ¬ (state.connections number).Settled) : state.Proceeds number := by
  have callback : (state.connections number).callback = .due := by
    by_contra notDue
    exact unsettled { accept := accept, task := task, callback := notDue }
  have isDue : (state.connections number).due .callback = true := by
    simp [due, callback]
  exact sound.proceeds_of_due (.inr accept) isDue

theorem Sound.proceeds_of_over (sound : state.Sound)
    (accept : (state.connections number).accept = .finished ∨
      (state.connections number).accept = .abandoned)
    (unsettled : ¬ (state.connections number).Settled) : state.Proceeds number := by
  cases task : (state.connections number).task with
  | queued =>
    have taken : ServerLifecycle.step state (.startTask number) =
        some (state.enter number { state.connections number with task := .running }) := by
      simp only [ServerLifecycle.step, task, if_true]
    exact ⟨_, _, rfl, taken⟩
  | running =>
    have taken : ServerLifecycle.step state (.finishTask number) =
        some (state.enter number { state.connections number with task := .leaving }) := by
      simp only [ServerLifecycle.step, sound.unstuck, task, and_self, if_true]
    exact ⟨_, _, rfl, taken⟩
  | leaving =>
    have isDue : (state.connections number).due .worker = true := by
      simp [due, task]
    exact sound.proceeds_of_due (.inr accept) isDue
  | absent => exact sound.proceeds_of_callback accept (.inl task) unsettled
  | ended => exact sound.proceeds_of_callback accept (.inr (.inl task)) unsettled
  | cancelled => exact sound.proceeds_of_callback accept (.inr (.inr task)) unsettled

theorem Sound.proceeds (sound : state.Sound) (seen : (state.connections number).accept ≠ .unseen)
    (notRefused : (state.connections number).accept ≠ .refused)
    (unsettled : ¬ (state.connections number).Settled) : state.Proceeds number := by
  cases accept : (state.connections number).accept with
  | unseen => exact absurd accept seen
  | refused => exact absurd accept notRefused
  | acquiring =>
    obtain ⟨next, taken⟩ :=
      exists_look sound.unstuck accept ((sound.each number).acquiring.mp accept)
    exact ⟨_, next, rfl, taken⟩
  | admitted =>
    have taken : ServerLifecycle.step state (.submit number false true) =
        some (state.enter number (submitted (state.connections number) false true)) := by
      simp [ServerLifecycle.step, sound.unstuck, accept]
    exact ⟨_, _, rfl, taken⟩
  | submitted =>
    have taken : ServerLifecycle.step state (.attachCallback number) =
        some (state.enter number (withCallback (state.connections number))) := by
      simp only [ServerLifecycle.step, sound.unstuck, accept, and_self, if_true]
    exact ⟨_, _, rfl, taken⟩
  | failing =>
    have isDue : (state.connections number).due .acceptLoop = true := by
      simp [due, accept]
    exact sound.proceeds_of_due (.inl accept) isDue
  | finished => exact sound.proceeds_of_over (.inl accept) unsettled
  | abandoned => exact sound.proceeds_of_over (.inr accept) unsettled

/-! ### The accounts of the gate and of the connections -/

/-- A connection that nobody has anything left to do for has had its slot given back once,
and one that got none has given none back.  Any other can still go on. -/
structure ReleasedOnce (state : ServerLifecycle) : Prop where
  atMostOnce : ∀ number, state.slots.givenBack number ≤ 1
  settled : ∀ number, (state.connections number).Settled → state.slots.givenBack number = 1
  refused : ∀ number, (state.connections number).accept = .refused →
    state.slots.leases number = .rejected ∧ state.slots.givenBack number = 0
  progress : ∀ number, (state.connections number).accept ≠ .unseen →
    (state.connections number).accept ≠ .refused → ¬ (state.connections number).Settled →
      state.Proceeds number
  drained : (∀ number, (state.connections number).Settled ∨
    (state.connections number).accept = .refused ∨
      (state.connections number).accept = .unseen) → state.slots.gate.active = 0

theorem Sound.releasedOnce (sound : state.Sound) {limit : Nat}
    (accounted : state.slots.Accounted limit) : state.ReleasedOnce := by
  constructor
  case atMostOnce =>
    intro number
    rw [accounted.once number]
    split
    · exact Nat.le_refl 1
    · exact Nat.zero_le 1
  case settled =>
    intro number settled
    rw [accounted.once number, if_pos ((sound.each number).released_of_settled settled)]
  case refused =>
    intro number refused
    have rejected := (sound.each number).refused.mp refused
    refine ⟨rejected, ?_⟩
    rw [accounted.once number, rejected, if_neg (by decide)]
  case progress => exact fun number => sound.proceeds
  case drained =>
    intro all
    have none : ∀ number, (state.slots.leases number).slots = 0 := by
      intro number
      rcases all number with settled | refused | unseen
      · rw [(sound.each number).released_of_settled settled]
        rfl
      · rw [(sound.each number).refused.mp refused]
        rfl
      · rw [(sound.each number).unseen.mp unseen]
        rfl
    exact accounted.counted.eq_zero none

def sampleLifecycle : List LifecycleEvent :=
  [ .accept 0, .look 0 false, .submit 0 true false, .startTask 0, .interrupt (some 0), .closeGate,
    .finishTask 0, .release 0 .worker, .release 0 .worker, .shutDownExecutor ]

theorem sampleLifecycle_safe : Along step SafeSignal (initial 1) sampleLifecycle := by
  have spared : ∀ connection : AcceptedConnection, connection.accept = .submitted →
      connection.task = .running → connection.winner = none → connection.Spared := by
    intro connection submitted running unreleased
    refine .inr ⟨?_, ?_, .inl running⟩
    · rw [submitted]
      decide
    · rw [unreleased]
      decide
  exact ⟨trivial, trivial, trivial, trivial, spared _ rfl rfl rfl, trivial, trivial, trivial,
    trivial, trivial, trivial⟩

end ServerLifecycle

end XFerry.Server
