/-
The admission controller in front of password verification.

Every public operation runs under one condition variable, so the events here
are its critical sections: an arrival up to its first wait, one pass of the wait
loop, a finished verification, and the shutdown.  Clock readings are chosen by
the environment.  Beside the fields of the controller the state keeps what its
callers hold, and a history of the verifications that no operation reads.
-/

import XFerry.EventMachine
import XFerry.OrderedDict

namespace XFerry.AuthAdmission

open EventMachine

abbrev Peer := String

inductive AuthAttemptOutcome where
  | succeeded
  | failed
  | error
  deriving DecidableEq

inductive AuthAdmissionDenialReason where
  | capacity
  | cooldown
  | peerCapacity
  | timeout

structure AuthAdmissionDenied where
  reason : AuthAdmissionDenialReason
  retryAfter : Int

structure PeerAuthState (Time : Type) [Zero Time] where
  failures : Nat := 0
  verifying : Nat := 0
  outstanding : Nat := 0
  cooldownUntil : Time := 0
  lastSeen : Time := 0
  lastFailure : Time := 0

/-- `ticket` stands for the identity of the waiter object. -/
structure AuthWaiter (Time : Type) where
  ticket : Nat
  peer : Peer
  deadline : Time
  waitDeadline : Time
  granted : Bool := false
  denied : Option AuthAdmissionDenied := none

structure AuthAttemptLease where
  ticket : Nat
  peer : Peer

/-- `ended` records the failure count of the peer just after the verification. -/
inductive Verification (Time : Type) where
  | started (peer : Peer) (time : Time)
  | ended (peer : Peer) (time : Time) (outcome : AuthAttemptOutcome) (failures : Nat)

structure Config (Time : Type) [Zero Time] [LT Time] [LE Time] where
  maxFailures : Nat
  cooldown : Time
  maxPeers : Nat
  pruneInterval : Time
  waitTimeout : Time
  maxPending : Nat
  maxActive : Nat
  perPeerPending : Nat
  maxFailuresPositive : 1 ≤ maxFailures
  cooldownPositive : 0 < cooldown
  maxPeersPositive : 1 ≤ maxPeers
  pruneIntervalNonnegative : 0 ≤ pruneInterval
  waitTimeoutNonnegative : 0 ≤ waitTimeout
  maxActivePositive : 1 ≤ maxActive
  perPeerPendingPositive : 1 ≤ perPeerPending
  activeWithinPending : maxActive ≤ maxPending
  perPeerWithinPending : perPeerPending ≤ maxPending

/-- `settled` are the waiters that have left the queue, with the flag the
controller wrote on them; `leases` are the verification slots in use.  `clock`
is the latest reading an operation used. -/
structure AuthAdmissionController (Time : Type) [Zero Time] where
  peers : OrderedDict Peer (PeerAuthState Time)
  waiters : List (AuthWaiter Time)
  active : Int
  outstanding : Int
  lastPrune : Time
  closed : Bool
  nextTicket : Nat
  settled : List (AuthWaiter Time)
  leases : List AuthAttemptLease
  clock : Time
  history : List (Verification Time)

inductive AcquireResult where
  | lease (lease : AuthAttemptLease)
  | denied (denial : AuthAdmissionDenied)
  | waiting (ticket : Nat)
  | invalidPeer

inductive RuntimeError where
  | leaseInconsistent
  | reservationInconsistent

def RuntimeError.message : RuntimeError → String
  | .leaseInconsistent => "authentication lease state is inconsistent"
  | .reservationInconsistent => "authentication waiter reservation is inconsistent"

/-- `monotonic` is the reading taken when the promotion looks at a waiter. -/
structure PromotionReadings (Time : Type) where
  now : Time
  monotonic : Nat → Time

structure PassReadings (Time : Type) where
  promotion : PromotionReadings Time
  remaining : Time

def deny (reason : AuthAdmissionDenialReason) (retryAfter : Int) : AuthAdmissionDenied :=
  { reason := reason, retryAfter := max 1 retryAfter }

variable {Time : Type} [Ring Time] [LinearOrder Time] [FloorRing Time]

/-- `_cooldown_denial_locked`, with the peer's record as it leaves it. -/
def cooldownDenial (config : Config Time) (state : PeerAuthState Time) (now : Time) :
    Option AuthAdmissionDenied × PeerAuthState Time :=
  if state.failures < config.maxFailures then
    (none, state)
  else if state.cooldownUntil ≤ now then
    (none, { state with failures := 0, cooldownUntil := 0, lastFailure := 0 })
  else
    (some (deny .cooldown (max 1 ⌈state.cooldownUntil - now⌉)), state)

namespace AuthAdmissionController

def initial (clock : Time) : AuthAdmissionController Time :=
  { peers := OrderedDict.empty
    waiters := []
    active := 0
    outstanding := 0
    lastPrune := clock
    closed := false
    nextTicket := 0
    settled := []
    leases := []
    clock := clock
    history := [] }

variable (config : Config Time) (self : AuthAdmissionController Time)

def observe (now : Time) : AuthAdmissionController Time := { self with clock := now }

def setPeer (peer : Peer) (state : PeerAuthState Time) : AuthAdmissionController Time :=
  { self with peers := self.peers.assign peer state }

def dropIdlePeer (peer : Peer) (state : PeerAuthState Time) : AuthAdmissionController Time :=
  { self with
    peers := if state.outstanding = 0 ∧ state.failures = 0 then self.peers.erase peer
      else self.peers }

/-- What `_prune_if_needed_locked` leaves in the table. -/
def keepsPeer (now : Time) (state : PeerAuthState Time) : Bool :=
  state.outstanding ≠ 0 || (state.failures ≠ 0 && now - state.lastFailure < config.cooldown)

def pruneIfNeeded (now : Time) (force : Bool) : AuthAdmissionController Time :=
  if !force && now - self.lastPrune < config.pruneInterval then
    self
  else
    { self with
      lastPrune := now
      peers := self.peers.filter fun entry => keepsPeer config now entry.2 }

/-- `_state_for_peer_locked`. -/
def stateForPeer (peer : Peer) (now : Time) :
    AuthAdmissionController Time × Option (PeerAuthState Time) :=
  match self.peers.lookup peer with
  | some state =>
    let state := { state with lastSeen := now }
    (self.setPeer peer state, some state)
  | none =>
    let self := if config.maxPeers ≤ self.peers.size then self.pruneIfNeeded config now true
      else self
    if config.maxPeers ≤ self.peers.size then
      (self, none)
    else
      let state : PeerAuthState Time := { lastSeen := now }
      (self.setPeer peer state, some state)

def canStart (state : PeerAuthState Time) (now : Time) : Bool × PeerAuthState Time :=
  if self.active < config.maxActive then
    match cooldownDenial config state now with
    | (some _, state) => (false, state)
    | (none, state) => (decide (state.failures + state.verifying < config.maxFailures), state)
  else
    (false, state)

/-- `not self._waiters and self._can_start_locked(state, now)`. -/
def startsAtOnce (state : PeerAuthState Time) (now : Time) : Bool × PeerAuthState Time :=
  if self.waiters.isEmpty then self.canStart config state now else (false, state)

/-- `_start_locked`, for the attempt that gets the lease. -/
def start (lease : AuthAttemptLease) (state : PeerAuthState Time) (now : Time) :
    AuthAdmissionController Time :=
  { self.setPeer lease.peer { state with verifying := state.verifying + 1, lastSeen := now } with
    active := self.active + 1
    leases := self.leases ++ [lease]
    history := self.history ++ [Verification.started lease.peer now] }

def releaseWaiterReservation (peer : Peer) (state : PeerAuthState Time) :
    Except RuntimeError (AuthAdmissionController Time) :=
  if state.outstanding < 1 ∨ self.outstanding < 1 then
    .error .reservationInconsistent
  else
    let state := { state with outstanding := state.outstanding - 1 }
    .ok (({ self with outstanding := self.outstanding - 1 }.setPeer peer state).dropIdlePeer
      peer state)

/-- A waiter leaves the queue, which keeps `queue`, with its flag written. -/
def settle (waiter : AuthWaiter Time) (queue : List (AuthWaiter Time)) :
    AuthAdmissionController Time :=
  { self with waiters := queue, settled := self.settled ++ [waiter] }

/-- The loop of `_promote_waiters_locked` at the waiter that follows `front`. -/
def promoteFrom (readings : PromotionReadings Time) (front : List (AuthWaiter Time)) :
    List (AuthWaiter Time) → AuthAdmissionController Time →
      Except RuntimeError (AuthAdmissionController Time)
  | [], self => .ok self
  | waiter :: rest, self =>
    if config.maxActive ≤ self.active then
      .ok self
    else
      match self.peers.lookup waiter.peer with
      | none =>
        promoteFrom readings front rest
          (self.settle { waiter with denied := some (deny .peerCapacity 1) } (front ++ rest))
      | some state =>
        match cooldownDenial config state readings.now with
        | (some denial, state) => do
            let self ← (self.setPeer waiter.peer state).releaseWaiterReservation waiter.peer state
            promoteFrom readings front rest
              (self.settle { waiter with denied := some denial } (front ++ rest))
        | (none, state) =>
          let self := self.setPeer waiter.peer state
          if waiter.deadline ≤ readings.now ∨
              waiter.waitDeadline ≤ readings.monotonic waiter.ticket then do
            let self ← self.releaseWaiterReservation waiter.peer state
            promoteFrom readings front rest
              (self.settle { waiter with denied := some (deny .timeout 1) } (front ++ rest))
          else
            match self.canStart config state readings.now with
            | (true, state) =>
              promoteFrom readings front rest
                ((self.settle { waiter with granted := true } (front ++ rest)).start
                  { ticket := waiter.ticket, peer := waiter.peer } state readings.now)
            | (false, state) =>
              promoteFrom readings (front ++ [waiter]) rest (self.setPeer waiter.peer state)

def promoteWaiters (readings : PromotionReadings Time) :
    Except RuntimeError (AuthAdmissionController Time) :=
  promoteFrom config readings [] self.waiters self

/-- `_remove_waiter_locked` after the denial was written on the waiter. -/
def removeWaiter (waiter : AuthWaiter Time) (denial : AuthAdmissionDenied) :
    Except RuntimeError (AuthAdmissionController Time) :=
  let self := self.settle { waiter with denied := some denial }
    (self.waiters.eraseP fun queued => queued.ticket = waiter.ticket)
  match self.peers.lookup waiter.peer with
  | none => .ok self
  | some state => self.releaseWaiterReservation waiter.peer state

def awaits (ticket : Nat) : Bool := self.waiters.any fun waiter => waiter.ticket = ticket

def verdict (ticket : Nat) : Option AcquireResult :=
  match self.settled.find? fun waiter => waiter.ticket = ticket with
  | none => none
  | some waiter =>
    if waiter.granted then
      some (.lease { ticket := ticket, peer := waiter.peer })
    else
      waiter.denied.map .denied

def endPass (ticket : Nat) (readings : PassReadings Time) :
    Except RuntimeError (AuthAdmissionController Time × AcquireResult) :=
  match self.verdict ticket with
  | some result => .ok (self, result)
  | none =>
    match self.waiters.find? fun waiter => waiter.ticket = ticket with
    | none => .ok (self, .waiting ticket)
    | some waiter =>
      let remaining := min (waiter.deadline - readings.promotion.now)
        (waiter.waitDeadline - readings.remaining)
      if remaining ≤ 0 then do
        let denial := deny .timeout 1
        let self ← self.removeWaiter waiter denial
        .ok (self, .denied denial)
      else
        .ok (self, .waiting ticket)

/-- One pass of the wait loop of `acquire`, up to the return or the wait. -/
def waitPass (ticket : Nat) (readings : PassReadings Time) :
    Except RuntimeError (AuthAdmissionController Time × AcquireResult) :=
  match self.verdict ticket with
  | some result => .ok (self, result)
  | none => do
      let self ← (self.observe readings.promotion.now).promoteWaiters config readings.promotion
      self.endPass ticket readings

def reserve (peer : Peer) (state : PeerAuthState Time) : AuthAdmissionController Time :=
  { self.setPeer peer state with
    outstanding := self.outstanding + 1
    nextTicket := self.nextTicket + 1 }

def enqueue (waiter : AuthWaiter Time) : AuthAdmissionController Time :=
  { self with waiters := self.waiters ++ [waiter] }

/-- The readings of an arrival: `now` before the lock, `created` for the waiter's
deadline, then those of the two promotions it may run. -/
structure Arrival (Time : Type) where
  now : Time
  created : Time
  monotonic : Nat → Time
  pass : PassReadings Time

def Arrival.promotion (arrival : Arrival Time) : PromotionReadings Time :=
  { now := arrival.now, monotonic := arrival.monotonic }

/-- `acquire` once the attempt has its reservation. -/
def startOrQueue (ticket : Nat) (peer : Peer) (state : PeerAuthState Time)
    (arrival : Arrival Time) :
    Except RuntimeError (AuthAdmissionController Time × AcquireResult) :=
  match self.startsAtOnce config state arrival.now with
  | (true, state) =>
    let lease : AuthAttemptLease := { ticket := ticket, peer := peer }
    .ok (self.start lease state arrival.now, .lease lease)
  | (false, state) => do
      let waiter : AuthWaiter Time :=
        { ticket := ticket
          peer := peer
          deadline := arrival.now + config.waitTimeout
          waitDeadline := arrival.created + config.waitTimeout }
      let self ← ((self.setPeer peer state).enqueue waiter).promoteWaiters config arrival.promotion
      self.waitPass config ticket arrival.pass

/-- `acquire` once the peer has a record in the table. -/
def acquireTracked (peer : Peer) (state : PeerAuthState Time) (arrival : Arrival Time) :
    Except RuntimeError (AuthAdmissionController Time × AcquireResult) :=
  match cooldownDenial config state arrival.now with
  | (some denial, state) =>
    .ok ((self.setPeer peer state).dropIdlePeer peer state, .denied denial)
  | (none, state) =>
    let self := self.setPeer peer state
    if config.perPeerPending ≤ state.outstanding then
      .ok (self, .denied (deny .peerCapacity 1))
    else if config.maxPending ≤ self.outstanding then
      .ok (self, .denied (deny .capacity 1))
    else
      let state := { state with
        outstanding := state.outstanding + 1
        lastSeen := arrival.now }
      (self.reserve peer state).startOrQueue config self.nextTicket peer state arrival

/-- `acquire` from the lookup of the peer on. -/
def acquireOpen (peer : Peer) (arrival : Arrival Time) :
    Except RuntimeError (AuthAdmissionController Time × AcquireResult) :=
  match self.peers.lookup peer with
  | none =>
    if config.maxPending ≤ self.outstanding then
      .ok (self, .denied (deny .capacity 1))
    else
      match self.stateForPeer config peer arrival.now with
      | (self, none) => .ok (self, .denied (deny .peerCapacity 1))
      | (self, some state) => self.acquireTracked config peer state arrival
  | some state =>
    let state := { state with lastSeen := arrival.now }
    (self.setPeer peer state).acquireTracked config peer state arrival

/-- The critical section of `acquire` up to its return or its first wait. -/
def acquire (peer : Peer) (arrival : Arrival Time) :
    Except RuntimeError (AuthAdmissionController Time × AcquireResult) :=
  if peer = "" then
    .ok (self, .invalidPeer)
  else if self.closed then
    .ok (self.observe arrival.now, .denied (deny .capacity 1))
  else
    ((self.observe arrival.now).pruneIfNeeded config arrival.now false).acquireOpen config peer
      arrival

def recordOutcome (state : PeerAuthState Time) (outcome : AuthAttemptOutcome) (now : Time) :
    PeerAuthState Time :=
  let state := { state with
    verifying := state.verifying - 1
    outstanding := state.outstanding - 1
    lastSeen := now }
  match outcome with
  | .succeeded => { state with failures := 0, cooldownUntil := 0, lastFailure := 0 }
  | .failed | .error =>
    { state with
      failures := state.failures + 1
      lastFailure := now
      cooldownUntil :=
        if config.maxFailures ≤ state.failures + 1 then now + config.cooldown
        else state.cooldownUntil }

def endVerification (lease : AuthAttemptLease) (state : PeerAuthState Time)
    (outcome : AuthAttemptOutcome) : AuthAdmissionController Time :=
  { self.setPeer lease.peer state with
    active := self.active - 1
    outstanding := self.outstanding - 1
    leases := self.leases.eraseP fun held => held.ticket = lease.ticket
    history := self.history ++ [Verification.ended lease.peer self.clock outcome state.failures] }

/-- `_finish`.  A lease that is not in use any more has been finished before. -/
def finish (ticket : Nat) (outcome : AuthAttemptOutcome) (readings : PromotionReadings Time) :
    Except RuntimeError (AuthAdmissionController Time) :=
  match self.leases.find? fun lease => lease.ticket = ticket with
  | none => .ok (self.observe readings.now)
  | some lease =>
    match self.peers.lookup lease.peer with
    | none => .error .leaseInconsistent
    | some state =>
      if state.verifying < 1 ∨ state.outstanding < 1 then
        .error .leaseInconsistent
      else
        let state := recordOutcome config state outcome readings.now
        let self := (self.observe readings.now).endVerification lease state outcome
        (self.dropIdlePeer lease.peer state).promoteWaiters config readings

def cancelAll : List (AuthWaiter Time) → AuthAdmissionController Time →
    Except RuntimeError (AuthAdmissionController Time)
  | [], self => .ok self
  | waiter :: rest, self => do
      let self ← self.removeWaiter waiter (deny .capacity 1)
      cancelAll rest self

def close : Except RuntimeError (AuthAdmissionController Time) :=
  cancelAll self.waiters { self with closed := true }

end AuthAdmissionController

inductive Event (Time : Type) where
  | acquire (peer : Peer) (arrival : AuthAdmissionController.Arrival Time)
  | wake (ticket : Nat) (readings : PassReadings Time)
  | finish (ticket : Nat) (outcome : AuthAttemptOutcome) (readings : PromotionReadings Time)
  | close

def Event.readings : Event Time → List Time
  | .acquire _ arrival => [arrival.now, arrival.pass.promotion.now]
  | .wake _ readings => [readings.promotion.now]
  | .finish _ _ readings => [readings.now]
  | .close => []

def perform (config : Config Time) (self : AuthAdmissionController Time) :
    Event Time → Except RuntimeError (AuthAdmissionController Time)
  | .acquire peer arrival => (self.acquire config peer arrival).map Prod.fst
  | .wake ticket readings =>
    if self.awaits ticket then (self.waitPass config ticket readings).map Prod.fst
    else .ok self
  | .finish ticket outcome readings => self.finish config ticket outcome readings
  | .close => self.close

def step (config : Config Time) : Machine (AuthAdmissionController Time) (Event Time) :=
  fun self event => (perform config self event).toOption

end XFerry.AuthAdmission
