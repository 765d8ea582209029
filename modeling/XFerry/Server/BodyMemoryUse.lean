/-
Connections that share the body memory budget.

A connection receives requests one after another.  The call that receives one may
reserve memory for its body.  If it rejects the request or raises, it releases the
reservation itself; otherwise it hands the reservation over with the request, and the
connection releases it when the request has been processed, or when that has failed.
-/

import XFerry.Http.BodyMemory
import XFerry.Http.ReceiveCompleteness

namespace XFerry.Server

open EventMachine Http Python

/-- Where a connection is in a round of its loop.  It is `unwinding` when the call that
receives has rejected the request or has raised, and `finishing` in the `finally` clause
of `_handle_client`. -/
inductive ClientStage where
  | atHead
  | receiving (config : ReceiveConfig) (receiver : Receiver)
  | unwinding
  | received (result : RequestReceiveResult)
  | finishing (keepAlive : Bool)
  | ended

def ClientStage.after (config : ReceiveConfig) : Phase → ClientStage
  | .waiting receiver => .receiving config receiver
  | .finished (.returned result) =>
    if result.rejectionReason = none then .received result else .unwinding
  | .finished (.raised _) => .unwinding

def ClientStage.Holds (reservation : ReservationStage) : ClientStage → Prop
  | .atHead => reservation = .unmade
  | .receiving _ receiver => reservation = .made receiver.bodyReservation
  | .received result => reservation = .made result.bodyReservation
  | .unwinding => True
  | .finishing _ => True
  | .ended => reservation.isSettled = true

structure ClientConnection where
  round : Nat
  stage : ClientStage

structure BodyMemoryUse where
  memory : BodyMemory (Nat × Nat)
  connections : Nat → ClientConnection

/-- `fail` is an exception, while a request is received or while it is processed. -/
inductive BodyMemoryEvent where
  | receive (connection : Nat) (config : ReceiveConfig) (startTime : Seconds)
  | turn (connection : Nat) (turn : Turn)
  | fail (connection : Nat)
  | process (connection : Nat) (keepAlive : Bool)
  | release (connection : Nat)
  | leave (connection : Nat)

def BodyMemoryEvent.connection : BodyMemoryEvent → Nat
  | .receive connection _ _ => connection
  | .turn connection _ => connection
  | .fail connection => connection
  | .process connection _ => connection
  | .release connection => connection
  | .leave connection => connection

namespace BodyMemoryUse

def initial (maxBytes : Nat) (positive : 0 < maxBytes) : BodyMemoryUse :=
  { memory := .initial maxBytes positive
    connections := fun _ => { round := 0, stage := .atHead } }

def key (state : BodyMemoryUse) (number : Nat) : Nat × Nat :=
  (number, (state.connections number).round)

def enter (state : BodyMemoryUse) (memory : BodyMemory (Nat × Nat)) (number : Nat)
    (connection : ClientConnection) : BodyMemoryUse :=
  { memory := memory, connections := Function.update state.connections number connection }

def advance (state : BodyMemoryUse) (memory : BodyMemory (Nat × Nat)) (number : Nat)
    (stage : ClientStage) : BodyMemoryUse :=
  state.enter memory number { state.connections number with stage := stage }

def release (state : BodyMemoryUse) (number : Nat) : Option BodyMemoryUse :=
  (state.memory.release (state.key number)).map fun memory =>
    state.advance memory number (state.connections number).stage

def leave (state : BodyMemoryUse) (number : Nat) (connection : ClientConnection) :
    Option BodyMemoryUse :=
  if (state.memory.reservations (state.key number)).isSettled = true then
    some (state.enter state.memory number connection)
  else none

def step (unicode : Unicode) : Machine BodyMemoryUse BodyMemoryEvent
  | state, .receive number config startTime =>
    match (state.connections number).stage with
    | .atHead =>
      some (state.advance state.memory number (.receiving config (.initial startTime)))
    | _ => none
  | state, .turn number turn =>
    match (state.connections number).stage with
    | .receiving config receiver =>
      let shared := config.sharing state.memory.budget
      (receiver.turn unicode shared turn).map fun phase =>
        state.advance
          (state.memory.reserve (state.key number) (receiver.reserves unicode shared turn))
          number (.after config phase)
    | _ => none
  | state, .fail number =>
    match (state.connections number).stage with
    | .receiving _ _ => some (state.advance state.memory number .unwinding)
    | .received _ => some (state.advance state.memory number (.finishing false))
    | _ => none
  | state, .process number keepAlive =>
    match (state.connections number).stage with
    | .received result =>
      if result.data = [] ∧ keepAlive = true then none
      else some (state.advance state.memory number (.finishing keepAlive))
    | _ => none
  | state, .release number =>
    match (state.connections number).stage with
    | .unwinding => state.release number
    | .finishing _ => state.release number
    | _ => none
  | state, .leave number =>
    let connection := state.connections number
    match connection.stage with
    | .atHead => some (state.advance state.memory number .ended)
    | .unwinding => state.leave number { connection with stage := .ended }
    | .finishing true => state.leave number { round := connection.round + 1, stage := .atHead }
    | .finishing false => state.leave number { connection with stage := .ended }
    | _ => none

section

variable (state : BodyMemoryUse) (memory : BodyMemory (Nat × Nat))
  (connection : ClientConnection) (stage : ClientStage)

@[simp] theorem enter_memory (number : Nat) :
    (state.enter memory number connection).memory = memory := rfl

@[simp] theorem enter_same (number : Nat) :
    (state.enter memory number connection).connections number = connection :=
  Function.update_self ..

theorem enter_other {number other : Nat} (different : other ≠ number) :
    (state.enter memory number connection).connections other = state.connections other :=
  Function.update_of_ne different ..

end

/-- The reservations of the rounds before are settled, and those of the rounds to come are
not made. -/
structure Owned (memory : BodyMemory (Nat × Nat)) (number : Nat) (connection : ClientConnection) :
    Prop where
  before : ∀ round, round < connection.round →
    (memory.reservations (number, round)).isSettled = true
  now : connection.stage.Holds (memory.reservations (number, connection.round))
  after : ∀ round, connection.round < round → memory.reservations (number, round) = .unmade

structure Sound (maxBytes : Nat) (state : BodyMemoryUse) : Prop where
  accounted : state.memory.Accounted maxBytes
  owned : ∀ number, Owned state.memory number (state.connections number)

variable {state next : BodyMemoryUse} {memory : BodyMemory (Nat × Nat)} {number : Nat}
  {unicode : Unicode} {maxBytes : Nat}

theorem Sound.advance (sound : state.Sound maxBytes) (accounted : memory.Accounted maxBytes)
    (others : ∀ key, key ≠ state.key number →
      memory.reservations key = state.memory.reservations key) {stage : ClientStage}
    (holds : stage.Holds (memory.reservations (state.key number))) :
    (state.advance memory number stage).Sound maxBytes := by
  refine ⟨accounted, ?_⟩
  intro other
  have owned := sound.owned other
  by_cases same : other = number
  · subst same
    rw [BodyMemoryUse.advance, enter_same]
    constructor
    case before =>
      intro round earlier
      rw [enter_memory, others _ (fun equal => Nat.ne_of_lt earlier (congrArg Prod.snd equal))]
      exact owned.before round earlier
    case now => exact holds
    case after =>
      intro round later
      rw [enter_memory, others _ (fun equal => Nat.ne_of_gt later (congrArg Prod.snd equal))]
      exact owned.after round later
  · have apart : ∀ round, memory.reservations (other, round) =
        state.memory.reservations (other, round) :=
      fun round => others _ (fun equal => same (congrArg Prod.fst equal))
    rw [BodyMemoryUse.advance, enter_other _ _ _ same]
    constructor
    case before =>
      intro round earlier
      rw [enter_memory, apart]
      exact owned.before round earlier
    case now =>
      rw [enter_memory, apart]
      exact owned.now
    case after =>
      intro round later
      rw [enter_memory, apart]
      exact owned.after round later

theorem Sound.goOn (sound : state.Sound maxBytes) {stage : ClientStage}
    (holds : stage.Holds (state.memory.reservations (state.key number))) :
    (state.advance state.memory number stage).Sound maxBytes :=
  sound.advance sound.accounted (fun _ _ => rfl) holds

theorem Sound.nextRound (sound : state.Sound maxBytes)
    (settled : (state.memory.reservations (state.key number)).isSettled = true) :
    (state.enter state.memory number
      { round := (state.connections number).round + 1, stage := .atHead }).Sound maxBytes := by
  refine ⟨sound.accounted, ?_⟩
  intro other
  have owned := sound.owned other
  by_cases same : other = number
  · subst same
    rw [enter_same]
    constructor
    case before =>
      intro round earlier
      rcases Nat.lt_succ_iff_lt_or_eq.mp earlier with before | last
      · exact owned.before round before
      · rw [last]
        exact settled
    case now => exact owned.after _ (Nat.lt_succ_self _)
    case after => exact fun round later => owned.after round (Nat.lt_of_succ_lt later)
  · rw [enter_other _ _ _ same]
    exact owned

variable {connection : ClientConnection}

theorem leave_eq_some (left : state.leave number connection = some next) :
    (state.memory.reservations (state.key number)).isSettled = true ∧
      next = state.enter state.memory number connection := by
  unfold leave at left
  split at left
  · case isTrue settled =>
    cases left
    exact ⟨settled, rfl⟩
  · cases left

theorem Sound.release (sound : state.Sound maxBytes)
    (holds : ∀ reservation, (state.connections number).stage.Holds reservation)
    (released : state.release number = some next) : next.Sound maxBytes := by
  obtain ⟨memory, moved, rfl⟩ := Option.map_eq_some_iff.mp released
  exact sound.advance (sound.accounted.release moved)
    (fun _ different => BodyMemory.release_other moved different) (holds _)

theorem Sound.turn (sound : state.Sound maxBytes) {config : ReceiveConfig} {receiver : Receiver}
    {turn : Turn} {phase : Phase}
    (stage : (state.connections number).stage = .receiving config receiver)
    (taken : receiver.turn unicode (config.sharing state.memory.budget) turn = some phase) :
    (state.advance
      (state.memory.reserve (state.key number)
        (receiver.reserves unicode (config.sharing state.memory.budget) turn))
      number (.after config phase)).Sound maxBytes := by
  have now : state.memory.reservations (state.key number) = .made receiver.bodyReservation := by
    have holds := (sound.owned number).now
    rwa [stage] at holds
  have unmade : receiver.bodyReservation = none →
      state.memory.reservations (state.key number) = .unmade := by
    intro nothing
    rw [now, nothing]
    rfl
  have held := Receiver.turn_holds taken
  have same : (state.memory.reserve (state.key number)
      (receiver.reserves unicode (config.sharing state.memory.budget) turn)).reservations
        (state.key number) =
      .made (receiver.bodyReservation.or
        (receiver.reserves unicode (config.sharing state.memory.budget) turn)) := by
    cases reserved : receiver.reserves unicode (config.sharing state.memory.budget) turn with
    | none =>
      rw [Option.or_none]
      exact now
    | some byteCount =>
      have nothing := (Receiver.reserves_eq_some reserved).1
      rw [nothing, Option.none_or]
      exact BodyMemory.reserve_same (unmade nothing) _
  refine sound.advance ?_ (fun _ different => BodyMemory.reserve_other _ different) ?_
  · cases reserved : receiver.reserves unicode (config.sharing state.memory.budget) turn with
    | none => exact sound.accounted
    | some byteCount =>
      obtain ⟨nothing, room⟩ := Receiver.reserves_eq_some reserved
      refine sound.accounted.reserve (unmade nothing) ?_
      intro asked equal
      cases equal
      exact room
  · rw [same]
    cases phase with
    | waiting receiver => exact congrArg ReservationStage.made held.symm
    | finished outcome =>
      cases outcome with
      | returned result =>
        unfold ClientStage.after
        simp only
        split
        · case isTrue noReason => exact congrArg ReservationStage.made (held noReason).symm
        · trivial
      | raised message => trivial

variable {event : BodyMemoryEvent}

theorem Sound.step (sound : state.Sound maxBytes)
    (taken : BodyMemoryUse.step unicode state event = some next) : next.Sound maxBytes := by
  cases event with
  | receive number config startTime =>
    have now := (sound.owned number).now
    simp only [BodyMemoryUse.step] at taken
    split at taken
    · case h_1 stage =>
      cases taken
      rw [stage] at now
      exact sound.goOn now
    · cases taken
  | turn number turn =>
    simp only [BodyMemoryUse.step] at taken
    split at taken
    · case h_1 config receiver stage =>
      obtain ⟨phase, moved, rfl⟩ := Option.map_eq_some_iff.mp taken
      exact sound.turn stage moved
    · cases taken
  | fail number =>
    simp only [BodyMemoryUse.step] at taken
    split at taken
    · cases taken
      exact sound.goOn trivial
    · cases taken
      exact sound.goOn trivial
    · cases taken
  | process number keepAlive =>
    simp only [BodyMemoryUse.step] at taken
    split at taken
    · split at taken
      · cases taken
      · cases taken
        exact sound.goOn trivial
    · cases taken
  | release number =>
    simp only [BodyMemoryUse.step] at taken
    split at taken
    · case h_1 stage =>
      refine sound.release ?_ taken
      rw [stage]
      exact fun _ => trivial
    · case h_2 keepAlive stage =>
      refine sound.release ?_ taken
      rw [stage]
      exact fun _ => trivial
    · cases taken
  | leave number =>
    have now := (sound.owned number).now
    simp only [BodyMemoryUse.step] at taken
    split at taken
    · case h_1 stage =>
      cases taken
      rw [stage] at now
      refine sound.goOn ?_
      have unmade : state.memory.reservations (state.key number) = .unmade := now
      rw [unmade]
      rfl
    · obtain ⟨settled, rfl⟩ := leave_eq_some taken
      exact sound.goOn settled
    · obtain ⟨settled, rfl⟩ := leave_eq_some taken
      exact sound.nextRound settled
    · obtain ⟨settled, rfl⟩ := leave_eq_some taken
      exact sound.goOn settled
    · cases taken

theorem initial_sound (positive : 0 < maxBytes) : (initial maxBytes positive).Sound maxBytes :=
  { accounted := BodyMemory.initial_accounted positive
    owned := fun _ =>
      { before := fun _ earlier => absurd earlier (Nat.not_lt_zero _)
        now := rfl
        after := fun _ _ => rfl } }

theorem run_sound {positive : 0 < maxBytes} {events : List BodyMemoryEvent}
    {final : BodyMemoryUse}
    (reached : run (step unicode) (initial maxBytes positive) events = some final) :
    final.Sound maxBytes :=
  run_invariant_of_step (Sound maxBytes) (fun _ _ _ sound taken => sound.step taken)
    (initial_sound positive) reached

def Proceeds (unicode : Unicode) (state : BodyMemoryUse) (number : Nat) : Prop :=
  ∃ event next, BodyMemoryEvent.connection event = number ∧ step unicode state event = some next

theorem proceeds_of_isSome (enabled : (step unicode state event).isSome = true) :
    state.Proceeds unicode event.connection := by
  obtain ⟨next, taken⟩ := Option.isSome_iff_exists.mp enabled
  exact ⟨event, next, rfl, taken⟩

theorem proceeds_of_release (releases : step unicode state (.release number) = state.release number)
    (leaves : step unicode state (.leave number) = state.leave number connection) :
    state.Proceeds unicode number := by
  cases settled : (state.memory.reservations (state.key number)).isSettled with
  | true =>
    have enabled : (step unicode state (.leave number)).isSome = true := by
      rw [leaves, leave, if_pos settled]
      rfl
    exact proceeds_of_isSome enabled
  | false =>
    have enabled : (step unicode state (.release number)).isSome = true := by
      obtain ⟨memory, moved⟩ := BodyMemory.exists_release settled
      rw [releases, release, moved]
      rfl
    exact proceeds_of_isSome enabled

theorem proceeds_of_not_ended (going : (state.connections number).stage ≠ .ended) :
    state.Proceeds unicode number := by
  cases stage : (state.connections number).stage with
  | atHead =>
    have enabled : (step unicode state (.leave number)).isSome = true := by
      simp only [step, stage]
      rfl
    exact proceeds_of_isSome enabled
  | receiving | received =>
    have enabled : (step unicode state (.fail number)).isSome = true := by
      simp only [step, stage]
      rfl
    exact proceeds_of_isSome enabled
  | unwinding =>
    apply proceeds_of_release
    case releases => simp only [step, stage]
    case leaves =>
      simp only [step, stage]
      rfl
  | finishing keepAlive =>
    cases keepAlive with
    | true | false =>
      apply proceeds_of_release
      case releases => simp only [step, stage]
      case leaves =>
        simp only [step, stage]
        rfl
  | ended => exact absurd stage going

def Past (state : BodyMemoryUse) (number round : Nat) : Prop :=
  round < (state.connections number).round ∨
    round = (state.connections number).round ∧ (state.connections number).stage = .ended

/-- The bytes in use are those of the reservations that are not released, within the
maximum, and each reservation is released once when its round is over. -/
structure Balanced (unicode : Unicode) (maxBytes : Nat) (state : BodyMemoryUse) : Prop where
  counted : Totals (fun key => (state.memory.reservations key).bytes)
    state.memory.budget.currentBytes
  within : state.memory.budget.currentBytes ≤ maxBytes
  atMostOnce : ∀ key, state.memory.givenBack key ≤ 1
  releasedOnce : ∀ number round, state.Past number round →
    state.memory.reservations (number, round) ≠ .unmade → state.memory.givenBack (number, round) = 1
  progress : ∀ number, (state.connections number).stage ≠ .ended → state.Proceeds unicode number
  drained : (∀ number, (state.connections number).stage = .ended ∨
    (state.connections number).stage = .atHead) → state.memory.budget.currentBytes = 0

theorem Owned.isSettled_of_over (owned : Owned memory number connection)
    (isOver : connection.stage = .ended ∨ connection.stage = .atHead) (round : Nat) :
    (memory.reservations (number, round)).isSettled = true := by
  rcases Nat.lt_trichotomy round connection.round with earlier | same | later
  · exact owned.before round earlier
  · have now := owned.now
    rw [same]
    rcases isOver with ended | atHead
    · rw [ended] at now
      exact now
    rw [atHead] at now
    have unmade : memory.reservations (number, connection.round) = .unmade := now
    rw [unmade]
    rfl
  · rw [owned.after round later]
    rfl

theorem Sound.isSettled_of_past (sound : state.Sound maxBytes) {round : Nat}
    (past : state.Past number round) :
    (state.memory.reservations (number, round)).isSettled = true := by
  rcases past with earlier | ⟨_, ended⟩
  · exact (sound.owned number).before round earlier
  · exact (sound.owned number).isSettled_of_over (.inl ended) round

theorem Sound.balanced (sound : state.Sound maxBytes) (unicode : Unicode) :
    state.Balanced unicode maxBytes :=
  { counted := sound.accounted.counted
    within := sound.accounted.within
    atMostOnce := sound.accounted.givenBack_le
    releasedOnce := fun _ _ past made =>
      sound.accounted.givenBack_of_isSettled (sound.isSettled_of_past past) made
    progress := fun _ going => proceeds_of_not_ended going
    drained := fun isOver => sound.accounted.drained fun key =>
      (sound.owned key.1).isSettled_of_over (isOver key.1) key.2 }

theorem run_balanced (unicode : Unicode) (maxBytes : Nat) (positive : 0 < maxBytes)
    (events : List BodyMemoryEvent) (final : BodyMemoryUse)
    (reached : run (step unicode) (initial maxBytes positive) events = some final) :
    final.Balanced unicode maxBytes :=
  (run_sound reached).balanced unicode

/-- Two connections with two bytes each under a budget of three: one request is processed
after a rejection of the other for the budget. -/
def sampleUse : List BodyMemoryEvent :=
  [ .receive 0 sampleReceive 0, .receive 1 sampleReceive 0,
    .turn 0 (stillTurn (.data (asciiBytes "PUT / HTTP/1.1\r\ncontent-length: 2\r\n"))),
    .turn 0 (stillTurn (.data (asciiBytes "\r\nok"))),
    .turn 1 (stillTurn (.data (asciiBytes "PUT / HTTP/1.1\r\ncontent-length: 2\r\n\r\n"))),
    .leave 1, .process 0 true, .release 0, .release 0, .leave 0, .leave 0 ]

theorem sampleUse_balanced : ∃ final,
    run (step .ascii) (initial 3 (by decide)) sampleUse = some final ∧ final.Balanced .ascii 3 := by
  have runs : (run (step .ascii) (initial 3 (by decide)) sampleUse).isSome = true := by
    decide +kernel
  obtain ⟨final, reached⟩ := Option.isSome_iff_exists.mp runs
  exact ⟨final, reached, run_balanced .ascii 3 (by decide) sampleUse final reached⟩

end BodyMemoryUse

end XFerry.Server
