/-
The changes that the sections of the admission controller are made of.

There are few: a rewrite of the table that forgets no live failure, an attempt
that starts, a queued waiter that is granted or withdrawn, a waiter that is
queued, and a verification that ends.  The counters are an invariant of each.
-/

import XFerry.Security.AuthAdmission

namespace XFerry.AuthAdmission

open EventMachine List

variable {Time : Type} [Ring Time] {self next : AuthAdmissionController Time}

namespace AuthAdmissionController

def record (self : AuthAdmissionController Time) (peer : Peer) : PeerAuthState Time :=
  (self.peers.lookup peer).getD {}

def leasesOf (self : AuthAdmissionController Time) (peer : Peer) : Nat :=
  self.leases.countP fun lease => lease.peer = peer

def queuedOf (self : AuthAdmissionController Time) (peer : Peer) : Nat :=
  self.waiters.countP fun waiter => waiter.peer = peer

variable {state : PeerAuthState Time} {peer : Peer}

theorem record_of_lookup (found : self.peers.lookup peer = some state) :
    self.record peer = state := by
  rw [record, found, Option.getD_some]

@[simp] theorem record_setPeer (peer other : Peer) (state : PeerAuthState Time) :
    (self.setPeer peer state).record other = if other = peer then state else self.record other := by
  rw [record, setPeer, OrderedDict.lookup_assign]
  split <;> rfl

theorem record_dropIdlePeer (peer other : Peer) (state : PeerAuthState Time) :
    (self.dropIdlePeer peer state).record other =
      if other = peer ∧ state.outstanding = 0 ∧ state.failures = 0 then {}
      else self.record other := by
  rw [record, dropIdlePeer]
  by_cases idle : state.outstanding = 0 ∧ state.failures = 0
  · rw [if_pos idle, OrderedDict.lookup_erase]
    by_cases same : other = peer
    · rw [if_pos same, if_pos ⟨same, idle⟩, Option.getD_none]
    · rw [if_neg same, if_neg fun both => same both.1, record]
  · rw [if_neg idle, if_neg fun both => idle both.2, record]

@[simp] theorem record_reserve (peer other : Peer) (state : PeerAuthState Time) :
    (self.reserve peer state).record other =
      if other = peer then state else self.record other :=
  record_setPeer peer other state

@[simp] theorem record_start (lease : AuthAttemptLease) (state : PeerAuthState Time) (now : Time)
    (other : Peer) :
    (self.start lease state now).record other =
      if other = lease.peer then
        { state with verifying := state.verifying + 1, lastSeen := now }
      else self.record other :=
  record_setPeer lease.peer other _

@[simp] theorem record_settle (waiter : AuthWaiter Time) (queue : List (AuthWaiter Time))
    (peer : Peer) : (self.settle waiter queue).record peer = self.record peer := rfl

@[simp] theorem record_enqueue (waiter : AuthWaiter Time) (peer : Peer) :
    (self.enqueue waiter).record peer = self.record peer := rfl

@[simp] theorem record_endVerification (lease : AuthAttemptLease) (state : PeerAuthState Time)
    (outcome : AuthAttemptOutcome) (other : Peer) :
    (self.endVerification lease state outcome).record other =
      if other = lease.peer then state else self.record other :=
  record_setPeer lease.peer other state

theorem leasesOf_start (lease : AuthAttemptLease) (state : PeerAuthState Time) (now : Time)
    (peer : Peer) :
    (self.start lease state now).leasesOf peer =
      self.leasesOf peer + if lease.peer = peer then 1 else 0 := by
  simp [leasesOf, start, setPeer, countP_append, countP_singleton]

theorem size_setPeer_of_lookup {old : PeerAuthState Time}
    (found : self.peers.lookup peer = some old) (state : PeerAuthState Time) :
    (self.peers.assign peer state).size = self.peers.size := by
  rw [OrderedDict.size_assign, found, if_neg (Option.some_ne_none _)]

theorem lookup_setPeer_self (self : AuthAdmissionController Time) (peer : Peer)
    (state : PeerAuthState Time) :
    (self.setPeer peer state).peers.lookup peer = some state := by
  rw [setPeer, OrderedDict.lookup_assign, if_pos rfl]

variable {waiter : AuthWaiter Time} {front rest : List (AuthWaiter Time)}

theorem queuedOf_settle
    (queue : self.waiters = front ++ waiter :: rest) (settled : AuthWaiter Time) (peer : Peer) :
    self.queuedOf peer = (self.settle settled (front ++ rest)).queuedOf peer +
      if waiter.peer = peer then 1 else 0 := by
  simp only [queuedOf, settle, queue, countP_append, countP_cons, decide_eq_true_eq]
  omega

theorem size_dropIdlePeer_le (peer : Peer) (state : PeerAuthState Time) :
    (self.dropIdlePeer peer state).peers.size ≤ self.peers.size := by
  rw [dropIdlePeer]
  split
  · exact OrderedDict.size_erase_le _ _
  · exact le_rfl

end AuthAdmissionController

open AuthAdmissionController

variable [LinearOrder Time] [FloorRing Time] {config : Config Time}

/-! ### Rewriting a record -/

/-- The failures of a record at time `now`: kept, or forgotten after the cooldown. -/
def FailuresKept (config : Config Time) (now : Time) (old new : PeerAuthState Time) : Prop :=
  new.failures = old.failures ∧
      (1 ≤ old.failures →
        new.cooldownUntil = old.cooldownUntil ∧ new.lastFailure = old.lastFailure) ∨
    new.failures = 0 ∧
      (old.outstanding = 0 ∧ config.cooldown ≤ now - old.lastFailure ∨
        config.maxFailures ≤ old.failures ∧ old.cooldownUntil ≤ now)

omit [FloorRing Time] in
theorem FailuresKept.of_same (config : Config Time) (now : Time) {old new : PeerAuthState Time}
    (failures : new.failures = old.failures) (cooldownUntil : new.cooldownUntil = old.cooldownUntil)
    (lastFailure : new.lastFailure = old.lastFailure) : FailuresKept config now old new :=
  .inl ⟨failures, fun _ => ⟨cooldownUntil, lastFailure⟩⟩

structure Upkept (config : Config Time) (now : Time) (old new : PeerAuthState Time) : Prop where
  verifying : new.verifying = old.verifying
  outstanding : new.outstanding = old.outstanding
  failures : FailuresKept config now old new

section

omit [FloorRing Time]

theorem Upkept.refl (config : Config Time) (now : Time) (state : PeerAuthState Time) :
    Upkept config now state state where
  verifying := rfl
  outstanding := rfl
  failures := FailuresKept.of_same config now rfl rfl rfl

theorem upkept_dropIdlePeer (config : Config Time) (now : Time) (here : self.record peer = state)
    (working : state.verifying ≤ state.outstanding) (other : Peer) :
    Upkept config now (self.record other) ((self.dropIdlePeer peer state).record other) := by
  rw [record_dropIdlePeer]
  split
  · case isTrue idle =>
    obtain ⟨rfl, nothing, clean⟩ := idle
    rw [here]
    constructor
    · change 0 = state.verifying
      omega
    · exact nothing.symm
    · refine .inl ⟨clean.symm, fun failed => ?_⟩
      omega
  · exact Upkept.refl config now _

end

theorem exists_split_of_find {α : Type} {items : List α} {satisfies : α → Bool} {item : α}
    (found : items.find? satisfies = some item) :
    ∃ before after, items = before ++ item :: after ∧ items.eraseP satisfies = before ++ after := by
  obtain ⟨holds, before, after, rfl, earlier⟩ := find?_eq_some_iff_append.mp found
  refine ⟨before, after, rfl, ?_⟩
  rw [eraseP_append_right _ (fun other member => by simpa using earlier other member),
    eraseP_cons_of_pos holds]

section

omit [FloorRing Time]

theorem verifying_recordOutcome (config : Config Time) (state : PeerAuthState Time)
    (outcome : AuthAttemptOutcome) (now : Time) :
    (recordOutcome config state outcome now).verifying = state.verifying - 1 := by
  cases outcome with
  | succeeded | failed | error => rfl

theorem outstanding_recordOutcome (config : Config Time) (state : PeerAuthState Time)
    (outcome : AuthAttemptOutcome) (now : Time) :
    (recordOutcome config state outcome now).outstanding = state.outstanding - 1 := by
  cases outcome with
  | succeeded | failed | error => rfl

theorem failures_recordOutcome_le (config : Config Time) (state : PeerAuthState Time)
    (outcome : AuthAttemptOutcome) (now : Time) :
    (recordOutcome config state outcome now).failures ≤ state.failures + 1 := by
  cases outcome with
  | succeeded => exact Nat.zero_le _
  | failed | error => exact le_rfl

end

/-! ### The counters -/

/-- The counters agree with the leases in use and the waiters in the queue, and
every bound of the configuration holds. -/
structure Balanced (config : Config Time) (controller : AuthAdmissionController Time) : Prop where
  active : controller.active = controller.leases.length
  outstanding : controller.outstanding = controller.leases.length + controller.waiters.length
  active_le : controller.active ≤ config.maxActive
  outstanding_le : controller.outstanding ≤ config.maxPending
  verifying : ∀ peer, (controller.record peer).verifying = controller.leasesOf peer
  owed : ∀ peer,
    (controller.record peer).outstanding = controller.leasesOf peer + controller.queuedOf peer
  owed_le : ∀ peer, (controller.record peer).outstanding ≤ config.perPeerPending
  attempts_le : ∀ peer,
    (controller.record peer).failures + (controller.record peer).verifying ≤ config.maxFailures
  tracked_le : controller.peers.size ≤ config.maxPeers

/-! ### The changes a critical section is made of -/

/-- One change inside a critical section whose latest reading is the clock. -/
inductive Move (config : Config Time) :
    AuthAdmissionController Time → AuthAdmissionController Time → Prop where
  | upkeep {self : AuthAdmissionController Time}
      (peers : OrderedDict Peer (PeerAuthState Time)) (lastPrune : Time)
      (kept : ∀ peer, Upkept config self.clock (self.record peer)
        ((peers.lookup peer).getD {}))
      (bounded : peers.size ≤ config.maxPeers) :
      Move config self { self with peers := peers, lastPrune := lastPrune }
  | begin {self : AuthAdmissionController Time} {lease : AuthAttemptLease}
      {state : PeerAuthState Time} (found : self.peers.lookup lease.peer = some state)
      (empty : self.waiters = [])
      (room : state.outstanding < config.perPeerPending)
      (pending : self.outstanding < config.maxPending)
      (free : self.active < config.maxActive)
      (allowed : state.failures + state.verifying < config.maxFailures) :
      Move config self
        ((self.reserve lease.peer
            { state with outstanding := state.outstanding + 1, lastSeen := self.clock }).start
          lease { state with outstanding := state.outstanding + 1, lastSeen := self.clock }
          self.clock)
  | grant {self : AuthAdmissionController Time} {waiter : AuthWaiter Time}
      {front rest : List (AuthWaiter Time)} {state : PeerAuthState Time}
      (found : self.peers.lookup waiter.peer = some state)
      (queue : self.waiters = front ++ waiter :: rest)
      (free : self.active < config.maxActive)
      (allowed : state.failures + state.verifying < config.maxFailures) :
      Move config self
        ((self.settle { waiter with granted := true } (front ++ rest)).start
          { ticket := waiter.ticket, peer := waiter.peer } state self.clock)
  | withdraw {self : AuthAdmissionController Time} {waiter : AuthWaiter Time}
      {front rest : List (AuthWaiter Time)} {state : PeerAuthState Time}
      (found : self.peers.lookup waiter.peer = some state)
      (queue : self.waiters = front ++ waiter :: rest) (denial : AuthAdmissionDenied) :
      Move config self
        (({ self with outstanding := self.outstanding - 1 }.setPeer waiter.peer
            { state with outstanding := state.outstanding - 1 }).settle
          { waiter with denied := some denial } (front ++ rest))

abbrev Moves (config : Config Time) := Relation.ReflTransGen (Move config)

namespace Balanced

section

omit [FloorRing Time]

theorem initial (config : Config Time) (clock : Time) :
    Balanced config (AuthAdmissionController.initial clock) where
  active := rfl
  outstanding := rfl
  active_le := Int.natCast_nonneg _
  outstanding_le := Int.natCast_nonneg _
  verifying _ := rfl
  owed _ := rfl
  owed_le _ := Nat.zero_le _
  attempts_le _ := Nat.zero_le _
  tracked_le := Nat.zero_le _

theorem upkeep (balanced : Balanced config self)
    (peers : OrderedDict Peer (PeerAuthState Time)) (lastPrune : Time)
    (kept : ∀ peer, Upkept config self.clock (self.record peer) ((peers.lookup peer).getD {}))
    (bounded : peers.size ≤ config.maxPeers) :
    Balanced config { self with peers := peers, lastPrune := lastPrune } where
  __ := balanced
  verifying peer := (kept peer).verifying.trans (balanced.verifying peer)
  owed peer := (kept peer).outstanding.trans (balanced.owed peer)
  owed_le peer := (kept peer).outstanding.le.trans (balanced.owed_le peer)
  attempts_le peer := by
    have before := balanced.attempts_le peer
    have working := (kept peer).verifying
    change ((peers.lookup peer).getD {}).failures + ((peers.lookup peer).getD {}).verifying ≤ _
    cases (kept peer).failures with
    | inl | inr => omega
  tracked_le := bounded

theorem of_changed_peer (balanced : Balanced config self) (peer : Peer)
    (others : ∀ other, other ≠ peer → next.record other = self.record other ∧
      next.leasesOf other = self.leasesOf other ∧ next.queuedOf other = self.queuedOf other)
    (verifying : (next.record peer).verifying = next.leasesOf peer)
    (owed : (next.record peer).outstanding = next.leasesOf peer + next.queuedOf peer)
    (owed_le : (next.record peer).outstanding ≤ config.perPeerPending)
    (attempts_le : (next.record peer).failures + (next.record peer).verifying ≤
      config.maxFailures)
    (active : next.active = next.leases.length)
    (outstanding : next.outstanding = next.leases.length + next.waiters.length)
    (active_le : next.active ≤ config.maxActive)
    (outstanding_le : next.outstanding ≤ config.maxPending)
    (tracked_le : next.peers.size ≤ self.peers.size) : Balanced config next where
  active := active
  outstanding := outstanding
  active_le := active_le
  outstanding_le := outstanding_le
  verifying other := by
    by_cases same : other = peer
    · rw [same]
      exact verifying
    obtain ⟨record, leases, _⟩ := others other same
    rw [record, leases]
    exact balanced.verifying other
  owed other := by
    by_cases same : other = peer
    · rw [same]
      exact owed
    obtain ⟨record, leases, queued⟩ := others other same
    rw [record, leases, queued]
    exact balanced.owed other
  owed_le other := by
    by_cases same : other = peer
    · rw [same]
      exact owed_le
    · rw [(others other same).1]
      exact balanced.owed_le other
  attempts_le other := by
    by_cases same : other = peer
    · rw [same]
      exact attempts_le
    · rw [(others other same).1]
      exact balanced.attempts_le other
  tracked_le := tracked_le.trans balanced.tracked_le

end

variable {lease : AuthAttemptLease}

section

variable (balanced : Balanced config self)
include balanced

section

omit [FloorRing Time]

theorem begin (now : Time) (found : self.peers.lookup lease.peer = some state)
    (room : state.outstanding < config.perPeerPending)
    (pending : self.outstanding < config.maxPending) (free : self.active < config.maxActive)
    (allowed : state.failures + state.verifying < config.maxFailures) :
    Balanced config ((self.reserve lease.peer
          { state with outstanding := state.outstanding + 1, lastSeen := now }).start
        lease { state with outstanding := state.outstanding + 1, lastSeen := now } now) := by
  have here := record_of_lookup found
  have verifying := balanced.verifying lease.peer
  have owed := balanced.owed lease.peer
  have active := balanced.active
  have outstanding := balanced.outstanding
  rw [here] at verifying owed
  apply balanced.of_changed_peer lease.peer
  case others =>
    intro other different
    rw [record_start, if_neg different,
      record_reserve, if_neg different,
      leasesOf_start, if_neg (Ne.symm different)]
    exact ⟨rfl, rfl, rfl⟩
  case verifying =>
    rw [record_start, if_pos rfl, leasesOf_start, if_pos rfl]
    exact congrArg (· + 1) verifying
  case owed =>
    rw [record_start, if_pos rfl, leasesOf_start, if_pos rfl]
    change state.outstanding + 1 = self.leasesOf lease.peer + 1 + self.queuedOf lease.peer
    omega
  case owed_le =>
    rw [record_start, if_pos rfl]
    exact room
  case attempts_le =>
    rw [record_start, if_pos rfl]
    exact allowed
  case active =>
    change self.active + 1 = ((self.leases ++ [lease]).length : Int)
    rw [length_append, length_singleton, active, Nat.cast_add, Nat.cast_one]
  case outstanding =>
    change self.outstanding + 1 =
      ((self.leases ++ [lease]).length : Int) + (self.waiters.length : Int)
    rw [length_append, length_singleton, Nat.cast_add, Nat.cast_one]
    omega
  case active_le => exact free
  case outstanding_le => exact pending
  case tracked_le =>
    have first := size_setPeer_of_lookup found
      { state with outstanding := state.outstanding + 1, lastSeen := now }
    have second := size_setPeer_of_lookup
      (lookup_setPeer_self self lease.peer
        { state with outstanding := state.outstanding + 1, lastSeen := now })
      { state with
        outstanding := state.outstanding + 1
        verifying := state.verifying + 1
        lastSeen := now }
    exact (second.trans first).le

theorem grant (now : Time) (found : self.peers.lookup waiter.peer = some state)
    (queue : self.waiters = front ++ waiter :: rest) (free : self.active < config.maxActive)
    (allowed : state.failures + state.verifying < config.maxFailures) :
    Balanced config ((self.settle { waiter with granted := true } (front ++ rest)).start
        { ticket := waiter.ticket, peer := waiter.peer } state now) := by
  have here := record_of_lookup found
  have verifying := balanced.verifying waiter.peer
  have owed := balanced.owed waiter.peer
  have owed_le := balanced.owed_le waiter.peer
  have active := balanced.active
  have outstanding := balanced.outstanding
  have queued := fun peer =>
    queuedOf_settle queue { waiter with granted := true } peer
  have length : self.waiters.length = (front ++ rest).length + 1 := by
    rw [queue, length_append, length_append, length_cons]
    omega
  rw [here] at verifying owed owed_le
  apply balanced.of_changed_peer waiter.peer
  case others =>
    intro other different
    have same := queued other
    rw [if_neg (Ne.symm different)] at same
    rw [record_start, if_neg different, leasesOf_start, if_neg (Ne.symm different)]
    exact ⟨rfl, rfl, same.symm⟩
  case verifying =>
    rw [record_start, if_pos rfl, leasesOf_start, if_pos rfl]
    exact congrArg (· + 1) verifying
  case owed =>
    have fewer := queued waiter.peer
    rw [if_pos rfl] at fewer
    rw [record_start, if_pos rfl, leasesOf_start, if_pos rfl]
    change state.outstanding = self.leasesOf waiter.peer + 1 +
      (self.settle { waiter with granted := true } (front ++ rest)).queuedOf waiter.peer
    omega
  case owed_le =>
    rw [record_start, if_pos rfl]
    exact owed_le
  case attempts_le =>
    rw [record_start, if_pos rfl]
    exact allowed
  case active =>
    change self.active + 1 = ((self.leases ++ [_]).length : Int)
    rw [length_append, length_singleton, active, Nat.cast_add, Nat.cast_one]
  case outstanding =>
    change self.outstanding =
      ((self.leases ++ [AuthAttemptLease.mk waiter.ticket waiter.peer]).length : Int) +
        ((front ++ rest).length : Int)
    rw [length_append, length_singleton, Nat.cast_add, Nat.cast_one]
    omega
  case active_le => exact free
  case outstanding_le => exact balanced.outstanding_le
  case tracked_le =>
    exact (size_setPeer_of_lookup found _).le

theorem withdraw (found : self.peers.lookup waiter.peer = some state)
    (queue : self.waiters = front ++ waiter :: rest) (denial : AuthAdmissionDenied) :
    Balanced config (({ self with outstanding := self.outstanding - 1 }.setPeer waiter.peer
          { state with outstanding := state.outstanding - 1 }).settle
        { waiter with denied := some denial } (front ++ rest)) := by
  have here := record_of_lookup found
  have verifying := balanced.verifying waiter.peer
  have owed := balanced.owed waiter.peer
  have owed_le := balanced.owed_le waiter.peer
  have attempts_le := balanced.attempts_le waiter.peer
  have active := balanced.active
  have outstanding := balanced.outstanding
  have queued := fun peer =>
    queuedOf_settle queue { waiter with denied := some denial } peer
  have length : self.waiters.length = (front ++ rest).length + 1 := by
    rw [queue, length_append, length_append, length_cons]
    omega
  have fewer := queued waiter.peer
  rw [if_pos rfl] at fewer
  rw [here] at verifying owed owed_le attempts_le
  apply balanced.of_changed_peer waiter.peer
  case others =>
    intro other different
    have same := queued other
    rw [if_neg (Ne.symm different)] at same
    rw [record_settle, record_setPeer, if_neg different]
    exact ⟨rfl, rfl, same.symm⟩
  case verifying =>
    rw [record_settle, record_setPeer, if_pos rfl]
    exact verifying
  case owed =>
    rw [record_settle, record_setPeer, if_pos rfl]
    change state.outstanding - 1 = self.leasesOf waiter.peer +
      (self.settle { waiter with denied := some denial } (front ++ rest)).queuedOf waiter.peer
    omega
  case owed_le =>
    rw [record_settle, record_setPeer, if_pos rfl]
    exact (Nat.sub_le _ _).trans owed_le
  case attempts_le =>
    rw [record_settle, record_setPeer, if_pos rfl]
    exact attempts_le
  case active => exact active
  case outstanding =>
    change self.outstanding - 1 = (self.leases.length : Int) + ((front ++ rest).length : Int)
    omega
  case active_le => exact balanced.active_le
  case outstanding_le =>
    have bounded := balanced.outstanding_le
    change self.outstanding - 1 ≤ config.maxPending
    omega
  case tracked_le =>
    exact (size_setPeer_of_lookup found _).le

theorem queue (now : Time) (found : self.peers.lookup waiter.peer = some state)
    (room : state.outstanding < config.perPeerPending)
    (pending : self.outstanding < config.maxPending) :
    Balanced config ((self.reserve waiter.peer
        { state with outstanding := state.outstanding + 1, lastSeen := now }).enqueue waiter) := by
  have here := record_of_lookup found
  have verifying := balanced.verifying waiter.peer
  have owed := balanced.owed waiter.peer
  have attempts_le := balanced.attempts_le waiter.peer
  have outstanding := balanced.outstanding
  have queued (peer : Peer) : (self.waiters ++ [waiter]).countP (fun queued => queued.peer = peer) =
      self.queuedOf peer + if waiter.peer = peer then 1 else 0 := by
    simp [queuedOf, countP_append, countP_singleton]
  rw [here] at verifying owed attempts_le
  apply balanced.of_changed_peer waiter.peer
  case others =>
    intro other different
    have same := queued other
    rw [if_neg (Ne.symm different)] at same
    rw [record_enqueue, record_reserve, if_neg different]
    exact ⟨rfl, rfl, same⟩
  case verifying =>
    rw [record_enqueue, record_reserve, if_pos rfl]
    exact verifying
  case owed =>
    have more := queued waiter.peer
    rw [if_pos rfl] at more
    rw [record_enqueue, record_reserve, if_pos rfl]
    change state.outstanding + 1 = self.leasesOf waiter.peer +
      (self.waiters ++ [waiter]).countP (fun queued => queued.peer = waiter.peer)
    omega
  case owed_le =>
    rw [record_enqueue, record_reserve, if_pos rfl]
    exact room
  case attempts_le =>
    rw [record_enqueue, record_reserve, if_pos rfl]
    exact attempts_le
  case active => exact balanced.active
  case outstanding =>
    change self.outstanding + 1 =
      (self.leases.length : Int) + ((self.waiters ++ [waiter]).length : Int)
    rw [length_append, length_singleton, Nat.cast_add, Nat.cast_one]
    omega
  case active_le => exact balanced.active_le
  case outstanding_le => exact pending
  case tracked_le => exact (size_setPeer_of_lookup found _).le

theorem move (moved : Move config self next) : Balanced config next := by
  cases moved with
  | upkeep peers lastPrune kept bounded => exact balanced.upkeep peers lastPrune kept bounded
  | begin found empty room pending free allowed =>
    exact balanced.begin self.clock found room pending free allowed
  | grant found queue free allowed => exact balanced.grant self.clock found queue free allowed
  | withdraw found queue denial => exact balanced.withdraw found queue denial

theorem observe (now : Time) : Balanced config (self.observe now) := { balanced with }

theorem close : Balanced config { self with closed := true } := { balanced with }

theorem moves (moved : Moves config self next) : Balanced config next := by
  induction moved with
  | refl => exact balanced
  | tail _ last ih => exact ih.move last

theorem leased (held : lease ∈ self.leases) :
    ∃ state, self.peers.lookup lease.peer = some state ∧ 1 ≤ state.verifying ∧
      1 ≤ state.outstanding := by
  have counted : 1 ≤ self.leasesOf lease.peer := countP_pos_iff.mpr ⟨lease, held, by simp⟩
  have verifying := balanced.verifying lease.peer
  have owed := balanced.owed lease.peer
  rw [record] at verifying owed
  cases found : self.peers.lookup lease.peer with
  | none =>
    rw [found] at verifying
    change 0 = self.leasesOf lease.peer at verifying
    omega
  | some state =>
    rw [found, Option.getD_some] at verifying owed
    exact ⟨state, rfl, by omega, by omega⟩

theorem reserved (queued : waiter ∈ self.waiters) :
    ∃ state, self.peers.lookup waiter.peer = some state ∧ 1 ≤ state.outstanding ∧
      1 ≤ self.outstanding := by
  have counted : 1 ≤ self.queuedOf waiter.peer := countP_pos_iff.mpr ⟨waiter, queued, by simp⟩
  have owed := balanced.owed waiter.peer
  have total := balanced.outstanding
  have nonempty := length_pos_of_mem queued
  rw [record] at owed
  cases found : self.peers.lookup waiter.peer with
  | none =>
    rw [found] at owed
    change 0 = self.leasesOf waiter.peer + self.queuedOf waiter.peer at owed
    omega
  | some state =>
    rw [found, Option.getD_some] at owed
    exact ⟨state, rfl, by omega, by omega⟩

theorem endVerification {before after : List AuthAttemptLease}
    (held : self.leases = before ++ lease :: after)
    (given : self.leases.eraseP (fun other => other.ticket = lease.ticket) = before ++ after)
    (found : self.peers.lookup lease.peer = some state) (outcome : AuthAttemptOutcome) :
    Balanced config
      (self.endVerification lease (recordOutcome config state outcome self.clock) outcome) := by
  have here := record_of_lookup found
  have verifying := balanced.verifying lease.peer
  have owed := balanced.owed lease.peer
  have owed_le := balanced.owed_le lease.peer
  have attempts_le := balanced.attempts_le lease.peer
  have active := balanced.active
  have outstanding := balanced.outstanding
  have length : self.leases.length = (before ++ after).length + 1 := by
    rw [held, length_append, length_append, length_cons]
    omega
  have leases (peer : Peer) : self.leasesOf peer =
      (before ++ after).countP (fun other => other.peer = peer) +
        if lease.peer = peer then 1 else 0 := by
    simp only [leasesOf, held, countP_append, countP_cons, decide_eq_true_eq]
    omega
  have remaining (peer : Peer) :
      (self.endVerification lease (recordOutcome config state outcome self.clock)
        outcome).leasesOf peer = (before ++ after).countP fun other => other.peer = peer :=
    congrArg (countP fun other : AuthAttemptLease => other.peer = peer) given
  have fewer := leases lease.peer
  rw [if_pos rfl] at fewer
  rw [here] at verifying owed owed_le attempts_le
  apply balanced.of_changed_peer lease.peer
  case others =>
    intro other different
    have same := leases other
    rw [if_neg (Ne.symm different)] at same
    rw [record_endVerification, if_neg different, remaining]
    exact ⟨rfl, same.symm, rfl⟩
  case verifying =>
    rw [record_endVerification, if_pos rfl, remaining, verifying_recordOutcome]
    omega
  case owed =>
    rw [record_endVerification, if_pos rfl, remaining, outstanding_recordOutcome]
    change state.outstanding - 1 = _ + self.queuedOf lease.peer
    omega
  case owed_le =>
    rw [record_endVerification, if_pos rfl, outstanding_recordOutcome]
    omega
  case attempts_le =>
    rw [record_endVerification, if_pos rfl, verifying_recordOutcome]
    have counted := failures_recordOutcome_le config state outcome self.clock
    omega
  case active =>
    change self.active - 1 = ((self.leases.eraseP _).length : Int)
    rw [given]
    omega
  case outstanding =>
    change self.outstanding - 1 = ((self.leases.eraseP _).length : Int) + self.waiters.length
    rw [given]
    omega
  case active_le =>
    have bounded := balanced.active_le
    change self.active - 1 ≤ config.maxActive
    omega
  case outstanding_le =>
    have bounded := balanced.outstanding_le
    change self.outstanding - 1 ≤ config.maxPending
    omega
  case tracked_le => exact (size_setPeer_of_lookup found _).le

end

end

end Balanced

end XFerry.AuthAdmission
