/-
The critical sections of the admission controller as sequences of changes.

No section raises one of the internal errors, and each is a path of changes
under the clock readings it uses.  That no waiter is stuck can fail between two
changes; every section that breaks it ends with a promotion, which restores it.
-/

import XFerry.Ensures
import XFerry.Security.AuthChanges

namespace XFerry.AuthAdmission

open EventMachine AuthAdmissionController List Relation

variable {Time : Type} [Ring Time] [LinearOrder Time]
variable {config : Config Time} {self next : AuthAdmissionController Time}

/-! ### Waiters that a pending finish will unblock -/

/-- Every attempt that the peer may still make is in progress. -/
def AttemptsTaken (config : Config Time) (controller : AuthAdmissionController Time)
    (peer : Peer) : Prop :=
  1 ≤ (controller.record peer).verifying ∧
    config.maxFailures ≤ (controller.record peer).failures + (controller.record peer).verifying

/-- Each queued waiter waits for a verification that is in progress. -/
def Blocked (config : Config Time) (controller : AuthAdmissionController Time) : Prop :=
  ∀ waiter ∈ controller.waiters,
    controller.active = config.maxActive ∨ AttemptsTaken config controller waiter.peer

variable {peer : Peer}

theorem Upkept.attemptsTaken {now : Time} (balanced : Balanced config self)
    (kept : Upkept config now (self.record peer) (next.record peer))
    (taken : AttemptsTaken config self peer) : AttemptsTaken config next peer := by
  have verifying := balanced.verifying peer
  have owed := balanced.owed peer
  have attempts_le := balanced.attempts_le peer
  have working := kept.verifying
  obtain ⟨busy, full⟩ := taken
  unfold AttemptsTaken
  cases kept.failures with
  | inl same => omega
  | inr forgotten =>
    obtain ⟨_, idle | cooled⟩ := forgotten <;> omega

variable {state : PeerAuthState Time}

theorem AttemptsTaken.start {lease : AuthAttemptLease}
    {now : Time} (taken : AttemptsTaken config self peer) (here : self.record lease.peer = state) :
    AttemptsTaken config (self.start lease state now) peer := by
  unfold AttemptsTaken at taken ⊢
  rw [record_start]
  split
  · case isTrue same =>
    rw [same, here] at taken
    change 1 ≤ state.verifying + 1 ∧ config.maxFailures ≤ state.failures + (state.verifying + 1)
    omega
  · exact taken

theorem AttemptsTaken.move (taken : AttemptsTaken config self peer)
    (balanced : Balanced config self) (moved : Move config self next) :
    AttemptsTaken config next peer := by
  cases moved with
  | upkeep peers lastPrune kept bounded =>
    have here : Upkept config self.clock (self.record peer)
        ({ self with peers := peers, lastPrune := lastPrune }.record peer) := kept peer
    exact here.attemptsTaken balanced taken
  | @begin lease state found empty room pending free allowed =>
    have here := record_of_lookup found
    apply AttemptsTaken.start
    · unfold AttemptsTaken at taken ⊢
      rw [record_reserve]
      split
      · case isTrue same =>
        rw [same, here] at taken
        exact taken
      · exact taken
    · rw [record_reserve, if_pos rfl]
  | @grant granted front rest state found queue free allowed =>
    have still : AttemptsTaken config
        (self.settle { granted with granted := true } (front ++ rest)) peer := taken
    exact still.start (record_of_lookup found)
  | @withdraw denied front rest state found queue denial =>
    have here := record_of_lookup found
    unfold AttemptsTaken at taken ⊢
    rw [record_settle, record_setPeer]
    split
    · case isTrue same =>
      rw [same, here] at taken
      exact taken
    · exact taken

namespace Move

section

variable (moved : Move config self next)
include moved

theorem clock : next.clock = self.clock := by
  cases moved with
  | upkeep | begin | grant | withdraw => rfl

theorem closed : next.closed = self.closed := by
  cases moved with
  | upkeep | begin | grant | withdraw => rfl

theorem active_le : self.active ≤ next.active := by
  cases moved with
  | upkeep | withdraw => exact le_rfl
  | begin | grant => exact Int.le_add_of_nonneg_right Int.one_nonneg

theorem waiters_subset : next.waiters ⊆ self.waiters := by
  have fewer {waiter : AuthWaiter Time} {front rest : List (AuthWaiter Time)}
      (queue : self.waiters = front ++ waiter :: rest) : front ++ rest ⊆ self.waiters := by
    rw [queue]
    exact ((sublist_cons_self waiter rest).append_left front).subset
  cases moved with
  | upkeep | begin => exact List.Subset.refl _
  | grant _ queue | withdraw _ queue => exact fewer queue

end

theorem setPeer (balanced : Balanced config self) {old new : PeerAuthState Time}
    (found : self.peers.lookup peer = some old) (kept : Upkept config self.clock old new) :
    Move config self (self.setPeer peer new) := by
  apply Move.upkeep (self.peers.assign peer new) self.lastPrune
  · intro other
    change Upkept config self.clock (self.record other) ((self.setPeer peer new).record other)
    rw [record_setPeer]
    split
    · case isTrue same =>
      rw [same, record_of_lookup found]
      exact kept
    · exact Upkept.refl config self.clock _
  · rw [size_setPeer_of_lookup found]
    exact balanced.tracked_le

theorem dropIdlePeer (balanced : Balanced config self)
    (here : self.record peer = state) : Move config self (self.dropIdlePeer peer state) := by
  have verifying := balanced.verifying peer
  have owed := balanced.owed peer
  rw [here] at verifying owed
  apply Move.upkeep _ self.lastPrune
  · exact upkept_dropIdlePeer config self.clock here (by omega)
  · exact (size_dropIdlePeer_le peer state).trans balanced.tracked_le

end Move

theorem Blocked.of_empty (empty : self.waiters = []) : Blocked config self := by
  intro waiter queued
  rw [empty] at queued
  cases queued

theorem Blocked.move (blocked : Blocked config self) (balanced : Balanced config self)
    (moved : Move config self next) : Blocked config next := by
  intro waiter queued
  cases blocked waiter (moved.waiters_subset queued) with
  | inl full =>
    have more := moved.active_le
    have bounded := (balanced.move moved).active_le
    exact .inl (by omega)
  | inr taken => exact .inr (taken.move balanced moved)

namespace Moves

section

variable (moved : Moves config self next)
include moved

theorem clock : next.clock = self.clock := by
  induction moved with
  | refl => rfl
  | tail _ last ih => exact last.clock.trans ih

theorem closed : next.closed = self.closed := by
  induction moved with
  | refl => rfl
  | tail _ last ih => exact last.closed.trans ih

theorem waiters_subset : next.waiters ⊆ self.waiters := by
  induction moved with
  | refl => exact List.Subset.refl _
  | tail _ last ih => exact List.Subset.trans last.waiters_subset ih

theorem attemptsTaken (balanced : Balanced config self) (taken : AttemptsTaken config self peer) :
    AttemptsTaken config next peer := by
  induction moved with
  | refl => exact taken
  | tail before last ih => exact ih.move (balanced.moves before) last

theorem blocked (balanced : Balanced config self)
    (blocked : Blocked config self) : Blocked config next := by
  induction moved with
  | refl => exact blocked
  | tail before last ih => exact ih.move (balanced.moves before) last

end

end Moves

/-! ### Promotion -/

variable [FloorRing Time]

theorem cooldownDenial_cases (config : Config Time) (state : PeerAuthState Time) (now : Time) :
    (∃ denial, cooldownDenial config state now = (some denial, state)) ∨
      ∃ kept, cooldownDenial config state now = (none, kept) ∧
        kept.failures < config.maxFailures ∧ Upkept config now state kept := by
  unfold cooldownDenial
  split
  · case isTrue few => exact .inr ⟨state, rfl, few, Upkept.refl config now state⟩
  rename_i many
  split
  · case isTrue cooled =>
    refine .inr ⟨_, rfl, config.maxFailuresPositive, rfl, rfl, ?_⟩
    exact .inr ⟨rfl, .inr ⟨Nat.le_of_not_lt many, cooled⟩⟩
  · exact .inl ⟨_, rfl⟩

theorem cooldownDenial_of_lt (now : Time) (few : state.failures < config.maxFailures) :
    cooldownDenial config state now = (none, state) := by
  rw [cooldownDenial, if_pos few]

theorem canStart_of_lt (now : Time) (few : state.failures < config.maxFailures) :
    self.canStart config state now = (decide (self.active < config.maxActive ∧
        state.failures + state.verifying < config.maxFailures), state) := by
  unfold canStart
  split
  · case isTrue free =>
    rw [cooldownDenial_of_lt now few]
    simp only [free, true_and]
  · case isFalse full => simp only [full, false_and, decide_false]

theorem startsAtOnce_of_lt (now : Time) (few : state.failures < config.maxFailures) :
    self.startsAtOnce config state now =
      (decide (self.waiters = [] ∧ self.active < config.maxActive ∧
        state.failures + state.verifying < config.maxFailures), state) := by
  unfold startsAtOnce
  split
  · case isTrue empty =>
    rw [List.isEmpty_iff] at empty
    rw [canStart_of_lt now few]
    simp only [empty, true_and]
  rename_i waiting
  rw [List.isEmpty_iff] at waiting
  simp only [waiting, false_and, decide_false]

variable {waiter : AuthWaiter Time}

omit [FloorRing Time] in
theorem releaseWaiterReservation_moves (balanced : Balanced config self)
    {front rest : List (AuthWaiter Time)}
    (found : self.peers.lookup waiter.peer = some state)
    (queue : self.waiters = front ++ waiter :: rest) (denial : AuthAdmissionDenied) :
    ∃ released, self.releaseWaiterReservation waiter.peer state = .ok released ∧
      released.settled = self.settled ∧
      Moves config self
        (released.settle { waiter with denied := some denial } (front ++ rest)) := by
  have queued : waiter ∈ self.waiters := by
    rw [queue]
    exact mem_append_right _ (mem_cons_self ..)
  obtain ⟨other, again, owed, total⟩ := balanced.reserved queued
  have same : other = state := Option.some.inj (again.symm.trans found)
  rw [same] at owed
  have possible : ¬ (state.outstanding < 1 ∨ self.outstanding < 1) := by omega
  have withdrawn : Move config self _ := Move.withdraw found queue denial
  refine ⟨_, if_neg possible, rfl, ?_⟩
  apply (ReflTransGen.single withdrawn).tail
  apply Move.dropIdlePeer (balanced.move withdrawn)
  rw [record_settle, record_setPeer, if_pos rfl]

/-- Promotion never meets an inconsistent reservation, and it stops only where
every waiter it leaves in the queue is blocked.  `front` are the waiters it has
passed over. -/
theorem promoteFrom_spec (readings : PromotionReadings Time) (rest : List (AuthWaiter Time)) :
    ∀ (front : List (AuthWaiter Time)) (self : AuthAdmissionController Time),
      Balanced config self → self.clock = readings.now → self.waiters = front ++ rest →
      (∀ waiter ∈ front, AttemptsTaken config self waiter.peer) →
      ∃ next, promoteFrom config readings front rest self = .ok next ∧
        Moves config self next ∧ Blocked config next := by
  induction rest with
  | nil =>
    intro front self balanced observed queue passed
    refine ⟨self, rfl, ReflTransGen.refl, ?_⟩
    intro waiter queued
    rw [queue, append_nil] at queued
    exact .inr (passed waiter queued)
  | cons waiter rest ih =>
    intro front self balanced observed queue passed
    rw [promoteFrom]
    by_cases full : (config.maxActive : Int) ≤ self.active
    · rw [if_pos full]
      refine ⟨self, rfl, ReflTransGen.refl, ?_⟩
      intro other queued
      exact .inl (le_antisymm balanced.active_le full)
    · rw [if_neg full]
      have queued : waiter ∈ self.waiters := by
        rw [queue]
        exact mem_append_right _ (mem_cons_self ..)
      obtain ⟨state, found, _, _⟩ := balanced.reserved queued
      -- What is left to do after a change, for the waiters behind this one.
      have resume {middle : AuthAdmissionController Time} {kept : List (AuthWaiter Time)}
          (moved : Moves config self middle) (remaining : middle.waiters = kept ++ rest)
          (blocked : ∀ other ∈ kept, AttemptsTaken config middle other.peer) :
          ∃ next, promoteFrom config readings kept rest middle = .ok next ∧
            Moves config self next ∧ Blocked config next := by
        obtain ⟨next, done, later, settled⟩ := ih kept middle (balanced.moves moved)
          (moved.clock.trans observed) remaining blocked
        exact ⟨next, done, moved.trans later, settled⟩
      have still {middle : AuthAdmissionController Time} (moved : Moves config self middle) :
          ∀ other ∈ front, AttemptsTaken config middle other.peer :=
        fun other member => moved.attemptsTaken balanced (passed other member)
      simp only [found]
      cases cooldownDenial_cases config state readings.now with
      | inl cooling =>
        obtain ⟨denial, checked⟩ := cooling
        have touched := Move.setPeer balanced found (Upkept.refl config self.clock state)
        obtain ⟨released, done, _, moved⟩ := releaseWaiterReservation_moves
          (balanced.move touched) (lookup_setPeer_self self waiter.peer state) queue denial
        have moved := ReflTransGen.head touched moved
        simp only [checked, done]
        exact resume moved rfl (still moved)
      | inr ready =>
        obtain ⟨kept, checked, few, upkept⟩ := ready
        rw [← observed] at upkept
        have touched := Move.setPeer balanced found upkept
        have present := lookup_setPeer_self self waiter.peer kept
        simp only [checked]
        by_cases late : waiter.deadline ≤ readings.now ∨
            waiter.waitDeadline ≤ readings.monotonic waiter.ticket
        · obtain ⟨released, done, _, moved⟩ := releaseWaiterReservation_moves
            (balanced.move touched) present queue (deny .timeout 1)
          have moved := ReflTransGen.head touched moved
          rw [if_pos late]
          simp only [done]
          exact resume moved rfl (still moved)
        · have free : (self.setPeer waiter.peer kept).active < config.maxActive :=
            Int.lt_of_not_ge full
          rw [if_neg late, canStart_of_lt readings.now few]
          by_cases allowed : kept.failures + kept.verifying < config.maxFailures
          · rw [decide_eq_true ⟨free, allowed⟩]
            have granted := Move.grant present queue free allowed
            rw [touched.clock, observed] at granted
            have moved := ReflTransGen.head touched (ReflTransGen.single granted)
            exact resume moved rfl (still moved)
          · rw [decide_eq_false fun both => allowed both.2]
            have again := Move.setPeer (balanced.move touched) present (Upkept.refl config _ kept)
            have moved := ReflTransGen.head touched (ReflTransGen.single again)
            apply resume moved
            · rw [append_assoc]
              exact queue
            · intro other member
              rw [mem_append, mem_singleton] at member
              cases member with
              | inl earlier => exact still moved other earlier
              | inr same =>
                rw [same, AttemptsTaken, record_setPeer, if_pos rfl]
                omega

theorem promoteWaiters_spec (balanced : Balanced config self)
    {readings : PromotionReadings Time} (observed : self.clock = readings.now) :
    ∃ next, self.promoteWaiters config readings = .ok next ∧
      Moves config self next ∧ Blocked config next :=
  promoteFrom_spec readings self.waiters [] self balanced observed rfl fun _ member => by
    cases member

omit [LinearOrder Time] [FloorRing Time] in
theorem releaseWaiterReservation_settle (peer : Peer) (state : PeerAuthState Time)
    (waiter : AuthWaiter Time) (queue : List (AuthWaiter Time)) :
    (self.settle waiter queue).releaseWaiterReservation peer state =
      (self.releaseWaiterReservation peer state).map fun released =>
        released.settle waiter queue := by
  unfold releaseWaiterReservation
  by_cases impossible : state.outstanding < 1 ∨ self.outstanding < 1
  · rw [if_pos impossible]
    exact if_pos impossible
  · rw [if_neg impossible]
    exact if_neg impossible

omit [FloorRing Time] in
theorem removeWaiter_moves (balanced : Balanced config self) {ticket : Nat}
    (found : self.waiters.find? (fun queued => queued.ticket = ticket) = some waiter)
    (denial : AuthAdmissionDenied) :
    ∃ next, self.removeWaiter waiter denial = .ok next ∧ Moves config self next ∧
      next.waiters = self.waiters.eraseP (fun queued => queued.ticket = ticket) ∧
      next.settled = self.settled ++ [{ waiter with denied := some denial }] := by
  have named : waiter.ticket = ticket := by simpa using find?_some found
  subst named
  obtain ⟨front, rest, queue, erased⟩ := exists_split_of_find found
  have queued := mem_of_find?_eq_some found
  obtain ⟨state, present, _, _⟩ := balanced.reserved queued
  obtain ⟨released, done, settled, moved⟩ :=
    releaseWaiterReservation_moves balanced present queue denial
  refine ⟨released.settle { waiter with denied := some denial } (front ++ rest), ?_, moved,
    erased.symm, ?_⟩
  · have lookup : (self.settle { waiter with denied := some denial }
        (front ++ rest)).peers.lookup waiter.peer = some state := present
    rw [removeWaiter, erased]
    simp only [lookup, releaseWaiterReservation_settle, done]
    rfl
  · rw [settle, settled]

/-! ### The critical sections -/

/-- What a critical section does between two states: the changes it makes under
the clock readings it uses, in their order. -/
inductive Path (config : Config Time) : AuthAdmissionController Time → List Time →
    AuthAdmissionController Time → Prop where
  | done {self : AuthAdmissionController Time} : Path config self [] self
  | moves {self middle next : AuthAdmissionController Time} {readings : List Time}
      (moved : Moves config self middle) (later : Path config middle readings next) :
      Path config self readings next
  | observe {self next : AuthAdmissionController Time} {readings : List Time} (now : Time)
      (later : Path config (self.observe now) readings next) :
      Path config self (now :: readings) next
  | close {self middle next : AuthAdmissionController Time} {readings : List Time}
      (moved : Moves config { self with closed := true } middle) (empty : middle.waiters = [])
      (later : Path config middle readings next) :
      Path config self readings next
  | queue {self next : AuthAdmissionController Time} {readings : List Time}
      {waiter : AuthWaiter Time} {state : PeerAuthState Time}
      (accepting : self.closed = false)
      (found : self.peers.lookup waiter.peer = some state)
      (room : state.outstanding < config.perPeerPending)
      (pending : self.outstanding < config.maxPending)
      (later : Path config
        ((self.reserve waiter.peer { state with
          outstanding := state.outstanding + 1
          lastSeen := self.clock }).enqueue waiter) readings next) :
      Path config self readings next
  | finish {self next : AuthAdmissionController Time} {readings : List Time}
      {lease : AuthAttemptLease} {state : PeerAuthState Time}
      {before after : List AuthAttemptLease} {outcome : AuthAttemptOutcome}
      (held : self.leases = before ++ lease :: after)
      (given : self.leases.eraseP (fun other => other.ticket = lease.ticket) = before ++ after)
      (found : self.peers.lookup lease.peer = some state)
      (later : Path config
        (self.endVerification lease (recordOutcome config state outcome self.clock) outcome)
        readings next) :
      Path config self readings next

namespace Path

omit [FloorRing Time]

variable {middle : AuthAdmissionController Time} {first second : List Time}

theorem trans (path : Path config self first middle) (later : Path config middle second next) :
    Path config self (first ++ second) next := by
  induction path with
  | done => exact later
  | moves moved _ ih => exact .moves moved (ih later)
  | observe now _ ih => exact .observe now (ih later)
  | close moved empty _ ih => exact .close moved empty (ih later)
  | queue accepting found room pending _ ih =>
    exact .queue accepting found room pending (ih later)
  | finish held given found _ ih => exact .finish held given found (ih later)

variable {readings : List Time}

theorem balanced (path : Path config self readings next)
    (balanced : Balanced config self) : Balanced config next := by
  induction path with
  | done => exact balanced
  | moves moved _ ih => exact ih (balanced.moves moved)
  | observe now _ ih => exact ih (balanced.observe now)
  | close moved empty _ ih => exact ih (balanced.close.moves moved)
  | queue accepting found room pending _ ih => exact ih (balanced.queue _ found room pending)
  | finish held given found _ ih => exact ih (balanced.endVerification held given found _)

theorem drained (path : Path config self readings next)
    (drained : self.closed = true → self.waiters = []) :
    next.closed = true → next.waiters = [] := by
  induction path with
  | done => exact drained
  | moves moved _ ih =>
    apply ih
    intro shut
    have nothing := moved.waiters_subset
    rw [drained (moved.closed.symm.trans shut)] at nothing
    exact subset_nil.mp nothing
  | observe now _ ih => exact ih drained
  | close moved empty _ ih => exact ih fun _ => empty
  | queue accepting found room pending _ ih =>
    apply ih
    intro shut
    exact absurd (accepting.symm.trans shut) Bool.false_ne_true
  | finish held given found _ ih => exact ih drained

theorem closed (path : Path config self readings next) (shut : self.closed = true) :
    next.closed = true := by
  induction path with
  | done => exact shut
  | moves moved _ ih => exact ih (moved.closed.trans shut)
  | observe now _ ih => exact ih shut
  | close moved empty _ ih => exact ih moved.closed
  | queue accepting found room pending _ ih => exact ih shut
  | finish held given found _ ih => exact ih shut

end Path

/-- The effect of a section that may read the clock at `readings`: a path under
those it does read, after which no waiter is stuck if none was before. -/
structure Effect (config : Config Time) (controller : AuthAdmissionController Time)
    (readings : List Time) (next : AuthAdmissionController Time) : Prop where
  path : ∃ used, used.Sublist readings ∧ Path config controller used next
  blocked : Blocked config controller → Blocked config next

namespace Effect

omit [FloorRing Time]

theorem refl (config : Config Time) (self : AuthAdmissionController Time)
    (readings : List Time) : Effect config self readings self where
  path := ⟨[], nil_sublist _, .done⟩
  blocked := id

theorem of_moves (balanced : Balanced config self) (moved : Moves config self next) :
    Effect config self [] next where
  path := ⟨[], nil_sublist _, .moves moved .done⟩
  blocked := moved.blocked balanced

theorem trans
    (effect : Effect config self first middle) (later : Effect config middle second next) :
    Effect config self (first ++ second) next where
  path := by
    obtain ⟨used, within, path⟩ := effect.path
    obtain ⟨more, withinSecond, laterPath⟩ := later.path
    exact ⟨used ++ more, within.append withinSecond, path.trans laterPath⟩
  blocked blocked := later.blocked (effect.blocked blocked)

theorem widen {readings more : List Time} (effect : Effect config self readings next)
    (within : readings.Sublist more) : Effect config self more next where
  path := by
    obtain ⟨used, few, path⟩ := effect.path
    exact ⟨used, few.trans within, path⟩
  blocked := effect.blocked

theorem observe (now : Time) : Effect config self [now] (self.observe now) where
  path := ⟨[now], List.Sublist.refl _, .observe now .done⟩
  blocked := id

theorem balanced (effect : Effect config self readings next)
    (balanced : Balanced config self) : Balanced config next := by
  obtain ⟨used, _, path⟩ := effect.path
  exact path.balanced balanced

theorem promoted (path : Path config self readings middle) (moved : Moves config middle next)
    (blocked : Blocked config next) : Effect config self readings next where
  path := ⟨readings, List.Sublist.refl _, by
    have joined := path.trans (.moves moved .done)
    rw [append_nil] at joined
    exact joined⟩
  blocked := fun _ => blocked

end Effect

section

variable (balanced : Balanced config self)
include balanced

omit [FloorRing Time] in
theorem endPass_moves (ticket : Nat) (readings : PassReadings Time) :
    ∃ next result, self.endPass ticket readings = .ok (next, result) ∧ Moves config self next := by
  unfold endPass
  cases self.verdict ticket with
  | some result => exact ⟨self, result, rfl, ReflTransGen.refl⟩
  | none =>
    cases found : self.waiters.find? fun waiter => waiter.ticket = ticket with
    | none => exact ⟨self, _, rfl, ReflTransGen.refl⟩
    | some waiter =>
      obtain ⟨next, done, moved, _⟩ := removeWaiter_moves balanced found (deny .timeout 1)
      by_cases late : min (waiter.deadline - readings.promotion.now)
          (waiter.waitDeadline - readings.remaining) ≤ 0
      · simp only [if_pos late, done]
        exact ⟨next, _, rfl, moved⟩
      · simp only [if_neg late]
        exact ⟨self, _, rfl, ReflTransGen.refl⟩

theorem waitPass_effect (ticket : Nat) (readings : PassReadings Time) :
    ∃ next result, self.waitPass config ticket readings = .ok (next, result) ∧
      Effect config self [readings.promotion.now] next := by
  unfold waitPass
  cases self.verdict ticket with
  | some result => exact ⟨self, result, rfl, Effect.refl config self _⟩
  | none =>
    have observed := balanced.observe readings.promotion.now
    obtain ⟨promoted, done, moved, blocked⟩ := promoteWaiters_spec observed
      (show (self.observe readings.promotion.now).clock = readings.promotion.now from rfl)
    obtain ⟨next, result, ended, later⟩ := endPass_moves (observed.moves moved) ticket readings
    simp only [done]
    refine ⟨next, result, ended, ?_⟩
    have effect := Effect.promoted (.observe readings.promotion.now .done) moved blocked
    exact effect.trans (Effect.of_moves (observed.moves moved) later)

/-- From a reservation either the verification starts at once, or the attempt is
queued and the queue is promoted. -/
theorem startOrQueue_effect {state reserved : PeerAuthState Time} (arrival : Arrival Time)
    (observed : self.clock = arrival.now) (accepting : self.closed = false)
    (found : self.peers.lookup peer = some state) (few : state.failures < config.maxFailures)
    (room : state.outstanding < config.perPeerPending)
    (pending : self.outstanding < config.maxPending) (reservedEq : reserved =
      { state with outstanding := state.outstanding + 1, lastSeen := arrival.now }) :
    ∃ next result,
      (self.reserve peer reserved).startOrQueue config self.nextTicket peer reserved arrival =
        .ok (next, result) ∧
      Effect config self [arrival.pass.promotion.now] next := by
  have fewReserved : reserved.failures < config.maxFailures := by
    rw [reservedEq]
    exact few
  have decision : (self.reserve peer reserved).startsAtOnce config reserved arrival.now =
      (decide (self.waiters = [] ∧ self.active < config.maxActive ∧
        state.failures + state.verifying < config.maxFailures), reserved) := by
    rw [startsAtOnce_of_lt arrival.now fewReserved, reservedEq]
    rfl
  unfold startOrQueue
  rw [decision]
  by_cases immediate : self.waiters = [] ∧ self.active < config.maxActive ∧
      state.failures + state.verifying < config.maxFailures
  · obtain ⟨empty, free, allowed⟩ := immediate
    let lease : AuthAttemptLease := { ticket := self.nextTicket, peer := peer }
    have foundFor : self.peers.lookup lease.peer = some state := found
    have begun : Move config self
        ((self.reserve peer reserved).start lease reserved arrival.now) := by
      have moved := Move.begin foundFor empty room pending free allowed
      rw [observed] at moved
      rw [reservedEq]
      exact moved
    have effect := Effect.of_moves balanced (ReflTransGen.single begun)
    rw [decide_eq_true ⟨empty, free, allowed⟩]
    exact ⟨_, _, rfl, effect.widen (nil_sublist _)⟩
  · let waiter : AuthWaiter Time :=
      { ticket := self.nextTicket
        peer := peer
        deadline := arrival.now + config.waitTimeout
        waitDeadline := arrival.created + config.waitTimeout }
    have foundFor : self.peers.lookup waiter.peer = some state := found
    let queued := (self.reserve peer reserved).enqueue waiter
    have balancedQueue : Balanced config queued := by
      have joined := balanced.queue arrival.now foundFor room pending
      rw [← reservedEq] at joined
      exact joined
    have present :
    queued.peers.lookup peer = some reserved := lookup_setPeer_self self peer reserved
    have touched : Move config queued (queued.setPeer peer reserved) :=
      Move.setPeer balancedQueue present (Upkept.refl config queued.clock reserved)
    have balancedTouched := balancedQueue.move touched
    obtain ⟨promoted, done, moved, blocked⟩ := promoteWaiters_spec balancedTouched
      (show (queued.setPeer peer reserved).clock = arrival.promotion.now from observed)
    obtain ⟨next, result, passed, later⟩ :=
      waitPass_effect (balancedTouched.moves moved) self.nextTicket arrival.pass
    have entered : Path config self [] (queued.setPeer peer reserved) := by
      apply Path.queue accepting foundFor room pending
      rw [observed, ← reservedEq]
      exact .moves (ReflTransGen.single touched) .done
    rw [decide_eq_false immediate]
    refine ⟨next, result, ?_, (Effect.promoted entered moved blocked).trans later⟩
    exact (Ensures.bind_of_ok done _).trans passed

theorem acquireTracked_effect (arrival : Arrival Time) (observed : self.clock = arrival.now)
    (accepting : self.closed = false) (found : self.peers.lookup peer = some state) :
    ∃ next result, self.acquireTracked config peer state arrival = .ok (next, result) ∧
      Effect config self [arrival.pass.promotion.now] next := by
  unfold acquireTracked
  cases cooldownDenial_cases config state arrival.now with
  | inl cooling =>
    obtain ⟨denial, checked⟩ := cooling
    have touched := Move.setPeer balanced found (Upkept.refl config self.clock state)
    have dropped := Move.dropIdlePeer (balanced.move touched)
      (record_of_lookup (lookup_setPeer_self self peer state))
    have effect := Effect.of_moves balanced ((ReflTransGen.single touched).tail dropped)
    simp only [checked]
    exact ⟨_, _, rfl, effect.widen (nil_sublist _)⟩
  | inr ready =>
    obtain ⟨kept, checked, few, upkept⟩ := ready
    rw [← observed] at upkept
    have touched := Move.setPeer balanced found upkept
    have effect := Effect.of_moves balanced (ReflTransGen.single touched)
    have denied := effect.widen (nil_sublist [arrival.pass.promotion.now])
    simp only [checked]
    by_cases crowded : config.perPeerPending ≤ kept.outstanding
    · rw [if_pos crowded]
      exact ⟨_, _, rfl, denied⟩
    rw [if_neg crowded]
    by_cases loaded : (config.maxPending : Int) ≤ (self.setPeer peer kept).outstanding
    · rw [if_pos loaded]
      exact ⟨_, _, rfl, denied⟩
    rw [if_neg loaded]
    obtain ⟨next, result, done, later⟩ := startOrQueue_effect (balanced.move touched)
      arrival (touched.clock.trans observed) accepting (lookup_setPeer_self self peer kept) few
      (Nat.lt_of_not_ge crowded) (Int.lt_of_not_ge loaded) rfl
    exact ⟨next, result, done, effect.trans later⟩

omit [FloorRing Time] in
theorem pruneIfNeeded_moves (force : Bool) :
    Moves config self (self.pruneIfNeeded config self.clock force) := by
  unfold pruneIfNeeded
  split
  · exact ReflTransGen.refl
  apply ReflTransGen.single
  apply Move.upkeep _ self.clock
  · intro peer
    have verifying := balanced.verifying peer
    have owed := balanced.owed peer
    rw [OrderedDict.lookup_filter]
    cases found : self.peers.lookup peer with
    | none =>
      rw [record, found]
      exact Upkept.refl config self.clock _
    | some state =>
      rw [record_of_lookup found] at verifying owed ⊢
      cases keeps : keepsPeer config self.clock state with
      | true =>
        rw [Option.filter_some_pos keeps]
        exact Upkept.refl config self.clock _
      | false =>
        rw [Option.filter_some_neg (by simp [keeps])]
        simp only [keepsPeer, Bool.or_eq_false_iff, decide_eq_false_iff_not, not_not,
          Bool.and_eq_false_iff, not_lt] at keeps
        obtain ⟨idle, clean | cooled⟩ := keeps
        · refine ⟨by change 0 = state.verifying; omega, by change 0 = _; omega, ?_⟩
          exact .inl ⟨clean.symm, fun failed => by omega⟩
        · refine ⟨by change 0 = state.verifying; omega, by change 0 = _; omega, ?_⟩
          exact .inr ⟨rfl, .inl ⟨idle, cooled⟩⟩
  · exact (OrderedDict.size_filter_le _ _).trans balanced.tracked_le

omit [FloorRing Time] in
theorem stateForPeer_moves (absent : self.peers.lookup peer = none) :
    (∃ next, self.stateForPeer config peer self.clock = (next, none) ∧ Moves config self next) ∨
      ∃ next state, self.stateForPeer config peer self.clock = (next, some state) ∧
        Moves config self next ∧ next.peers.lookup peer = some state := by
  let pruned := if config.maxPeers ≤ self.peers.size then
    self.pruneIfNeeded config self.clock true else self
  have moved : Moves config self pruned := by
    by_cases full : config.maxPeers ≤ self.peers.size
    · simp only [pruned, if_pos full]
      exact pruneIfNeeded_moves balanced true
    · simp only [pruned, if_neg full]
      exact ReflTransGen.refl
  have still : pruned.peers.lookup peer = none := by
    by_cases full : config.maxPeers ≤ self.peers.size
    · simp only [pruned, if_pos full]
      change (self.peers.filter _).lookup peer = none
      rw [OrderedDict.lookup_filter, absent, Option.filter_none]
    · simp only [pruned, if_neg full]
      exact absent
  unfold stateForPeer
  simp only [absent]
  by_cases full : config.maxPeers ≤ pruned.peers.size
  · exact .inl ⟨pruned, if_pos full, moved⟩
  let state : PeerAuthState Time := { lastSeen := self.clock }
  refine .inr ⟨pruned.setPeer peer state, state, if_neg full, moved.tail ?_,
    lookup_setPeer_self pruned peer state⟩
  apply Move.upkeep _ pruned.lastPrune
  · intro other
    change Upkept config pruned.clock (pruned.record other)
      ((pruned.setPeer peer state).record other)
    rw [record_setPeer]
    split
    · case isTrue same =>
      rw [same, record, still]
      exact ⟨rfl, rfl, .inl ⟨rfl, fun failed => absurd failed (Nat.not_succ_le_zero 0)⟩⟩
    · exact Upkept.refl config _ _
  · rw [OrderedDict.size_assign, if_pos still]
    exact Nat.lt_of_not_ge full

theorem acquireOpen_effect (peer : Peer)
    (arrival : Arrival Time) (observed : self.clock = arrival.now)
    (accepting : self.closed = false) :
    ∃ next result, self.acquireOpen config peer arrival = .ok (next, result) ∧
      Effect config self [arrival.pass.promotion.now] next := by
  -- What the section does once the peer has a record.
  have tracked {middle : AuthAdmissionController Time} {state : PeerAuthState Time}
      (moved : Moves config self middle) (found : middle.peers.lookup peer = some state) :
      ∃ next result, middle.acquireTracked config peer state arrival = .ok (next, result) ∧
        Effect config self [arrival.pass.promotion.now] next := by
    obtain ⟨next, result, done, later⟩ := acquireTracked_effect (balanced.moves moved) arrival
      (moved.clock.trans observed) (moved.closed.trans accepting) found
    exact ⟨next, result, done, (Effect.of_moves balanced moved).trans later⟩
  unfold acquireOpen
  cases found : self.peers.lookup peer with
  | none =>
    by_cases loaded : (config.maxPending : Int) ≤ self.outstanding
    · rw [if_pos loaded]
      exact ⟨self, _, rfl, Effect.refl config self _⟩
    rw [if_neg loaded, ← observed]
    cases stateForPeer_moves balanced found with
    | inl full =>
      obtain ⟨next, refused, moved⟩ := full
      rw [refused]
      exact ⟨next, _, rfl, (Effect.of_moves balanced moved).widen (nil_sublist _)⟩
    | inr added =>
      obtain ⟨middle, state, given, moved, present⟩ := added
      rw [given]
      exact tracked moved present
  | some state =>
    have kept : Upkept config self.clock state { state with lastSeen := arrival.now } :=
      ⟨rfl, rfl, FailuresKept.of_same config self.clock rfl rfl rfl⟩
    exact tracked (ReflTransGen.single (Move.setPeer balanced found kept))
      (lookup_setPeer_self self peer _)

theorem acquire_effect (peer : Peer) (arrival : Arrival Time) :
    ∃ next result, self.acquire config peer arrival = .ok (next, result) ∧
      Effect config self [arrival.now, arrival.pass.promotion.now] next := by
  have observe : Effect config self [arrival.now] (self.observe arrival.now) :=
    Effect.observe arrival.now
  unfold acquire
  by_cases unnamed : peer = ""
  · rw [if_pos unnamed]
    exact ⟨self, _, rfl, Effect.refl config self _⟩
  rw [if_neg unnamed]
  by_cases closed : self.closed = true
  · rw [if_pos closed]
    exact ⟨_, _, rfl, observe.widen ((nil_sublist _).cons_cons _)⟩
  rw [if_neg closed]
  have pruned := pruneIfNeeded_moves (balanced.observe arrival.now) false
  have entered := observe.trans (Effect.of_moves (balanced.observe arrival.now) pruned)
  obtain ⟨next, result, done, later⟩ := acquireOpen_effect (entered.balanced balanced) peer
    arrival pruned.clock (pruned.closed.trans (Bool.eq_false_of_not_eq_true closed))
  exact ⟨next, result, done, entered.trans later⟩

end

omit [FloorRing Time] in
/-- The loop of `close` empties the queue it was given and denies each waiter. -/
theorem cancelAll_moves (waiters : List (AuthWaiter Time)) :
    ∀ self : AuthAdmissionController Time, Balanced config self → self.waiters = waiters →
      ∃ next, cancelAll waiters self = .ok next ∧ Moves config self next ∧ next.waiters = [] ∧
        next.settled = self.settled ++
          waiters.map fun waiter => { waiter with denied := some (deny .capacity 1) } := by
  induction waiters with
  | nil =>
    intro self _balanced queue
    exact ⟨self, rfl, ReflTransGen.refl, queue, (append_nil _).symm⟩
  | cons waiter rest ih =>
    intro self balanced queue
    have found : self.waiters.find? (fun queued => queued.ticket = waiter.ticket) =
        some waiter := by
      rw [queue]
      exact find?_cons_of_pos (decide_eq_true rfl)
    obtain ⟨middle, done, moved, remaining, settled⟩ :=
      removeWaiter_moves balanced found (deny .capacity 1)
    have popped : (waiter :: rest).eraseP (fun queued => queued.ticket = waiter.ticket) = rest :=
      eraseP_cons_of_pos (decide_eq_true rfl)
    rw [queue, popped] at remaining
    obtain ⟨next, rested, later, empty, all⟩ := ih middle (balanced.moves moved) remaining
    refine ⟨next, ?_, moved.trans later, empty, ?_⟩
    · exact (Ensures.bind_of_ok done _).trans rested
    · rw [all, settled, append_assoc, singleton_append, map_cons]

section

variable (balanced : Balanced config self)
include balanced

omit [FloorRing Time] in
theorem close_effect :
    ∃ next, self.close = .ok next ∧ Effect config self [] next ∧ next.closed = true ∧
      next.waiters = [] ∧ next.settled = self.settled ++
        self.waiters.map fun waiter => { waiter with denied := some (deny .capacity 1) } := by
  obtain ⟨next, done, moved, empty, settled⟩ :=
    cancelAll_moves self.waiters { self with closed := true } balanced.close rfl
  refine ⟨next, done, ?_, moved.closed, empty, settled⟩
  constructor
  · exact ⟨[], nil_sublist _, .close moved empty .done⟩
  · exact fun _ => Blocked.of_empty empty

theorem finish_effect (ticket : Nat)
    (outcome : AuthAttemptOutcome) (readings : PromotionReadings Time) :
    ∃ next, self.finish config ticket outcome readings = .ok next ∧
      Effect config self [readings.now] next := by
  unfold finish
  cases found : self.leases.find? fun lease => lease.ticket = ticket with
  | none => exact ⟨_, rfl, Effect.observe readings.now⟩
  | some lease =>
    have named : lease.ticket = ticket := by simpa using find?_some found
    subst named
    obtain ⟨before, after, held, given⟩ := exists_split_of_find found
    obtain ⟨state, present, verifying, outstanding⟩ := balanced.leased (mem_of_find?_eq_some found)
    have possible : ¬ (state.verifying < 1 ∨ state.outstanding < 1) := by omega
    let recorded := recordOutcome config state outcome readings.now
    let ended := (self.observe readings.now).endVerification lease recorded outcome
    have balancedEnded : Balanced config ended :=
      (balanced.observe readings.now).endVerification held given present outcome
    have here : ended.record lease.peer = recorded := by
      rw [record_endVerification, if_pos rfl]
    have dropped := Move.dropIdlePeer balancedEnded here
    obtain ⟨next, done, moved, blocked⟩ := promoteWaiters_spec (balancedEnded.move dropped)
      (show (ended.dropIdlePeer lease.peer recorded).clock = readings.now from rfl)
    have heldNow : (self.observe readings.now).leases = before ++ lease :: after := held
    have ending : Path config ended [] (ended.dropIdlePeer lease.peer recorded) :=
      .moves (ReflTransGen.single dropped) .done
    have path : Path config self [readings.now] (ended.dropIdlePeer lease.peer recorded) :=
      .observe readings.now (.finish heldNow given present ending)
    simp only [present, if_neg possible]
    exact ⟨next, done, Effect.promoted path moved blocked⟩

/-! ### Runs -/

theorem perform_effect (event : Event Time) :
    ∃ next, perform config self event = .ok next ∧ Effect config self event.readings next := by
  cases event with
  | acquire peer arrival =>
    obtain ⟨next, result, done, effect⟩ := acquire_effect balanced peer arrival
    refine ⟨next, ?_, effect⟩
    rw [perform, done]
    rfl
  | wake ticket readings =>
    obtain ⟨next, result, done, effect⟩ := waitPass_effect balanced ticket readings
    by_cases waits : self.awaits ticket = true
    · refine ⟨next, ?_, effect⟩
      rw [perform, if_pos waits, done]
      rfl
    · refine ⟨self, ?_, Effect.refl config self _⟩
      rw [perform, if_neg waits]
  | finish ticket outcome readings => exact finish_effect balanced ticket outcome readings
  | close =>
    obtain ⟨next, done, effect, _⟩ := close_effect balanced
    exact ⟨next, done, effect⟩

theorem step_effect (event : Event Time) :
    ∃ next, step config self event = some next ∧ Effect config self event.readings next := by
  obtain ⟨next, done, effect⟩ := perform_effect balanced event
  refine ⟨next, ?_, effect⟩
  rw [step, done]
  rfl

end

end XFerry.AuthAdmission
