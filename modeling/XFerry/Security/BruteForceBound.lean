/-
How many guesses the admission controller lets a peer make.

With clock readings in the order of the lock, failures are forgotten only after
a success or after a full cooldown.  The history relates each record to the
failures that a window of that length can hold.
-/

import XFerry.Security.AuthSections

namespace XFerry.AuthAdmission

open EventMachine AuthAdmissionController List

variable {Time : Type} [Ring Time] [LinearOrder Time] [FloorRing Time]
variable {config : Config Time} {self next : AuthAdmissionController Time}

/-! ### What the history says -/

def Verification.time : Verification Time → Time
  | .started _ time => time
  | .ended _ time _ _ => time

/-- A verification of the peer ended in failure or error within the cooldown's
length from `opening`. -/
def Verification.failedWithin (config : Config Time) (peer : Peer) (opening : Time) :
    Verification Time → Bool
  | .started .. => false
  | .ended other time outcome _ =>
    other = peer && outcome ≠ .succeeded && opening ≤ time && time < opening + config.cooldown

def Verification.succeededWithin (config : Config Time) (peer : Peer) (opening : Time) :
    Verification Time → Bool
  | .started .. => false
  | .ended other time outcome _ =>
    other = peer && outcome = .succeeded && opening ≤ time && time < opening + config.cooldown

def failuresWithin (config : Config Time) (peer : Peer) (opening : Time)
    (history : List (Verification Time)) : Nat :=
  history.countP (Verification.failedWithin config peer opening)

/-- The later verification does not start in the cooldown that the earlier one
opened: its end brought the peer's failures to the bound. -/
def KeepsCooldown (config : Config Time) : Verification Time → Verification Time → Prop
  | .ended peer time _ failures, .started other start =>
    peer = other → config.maxFailures ≤ failures → time + config.cooldown ≤ start
  | _, _ => True

/-! ### The invariant -/

structure Throttled (config : Config Time) (controller : AuthAdmissionController Time) : Prop where
  past : ∀ event ∈ controller.history, event.time ≤ controller.clock
  latest : ∀ peer, 1 ≤ (controller.record peer).failures →
    ∀ time outcome failures, Verification.ended peer time outcome failures ∈ controller.history →
      outcome ≠ .succeeded → time ≤ (controller.record peer).lastFailure
  cooling : ∀ peer, config.maxFailures ≤ (controller.record peer).failures →
    (controller.record peer).cooldownUntil =
      (controller.record peer).lastFailure + config.cooldown
  bounded : ∀ peer opening,
    (∀ event ∈ controller.history, event.succeededWithin config peer opening = false) →
      failuresWithin config peer opening controller.history ≤ config.maxFailures
  counted : ∀ peer opening,
    (∀ event ∈ controller.history, event.succeededWithin config peer opening = false) →
      controller.clock < opening + config.cooldown →
        failuresWithin config peer opening controller.history ≤ (controller.record peer).failures
  shut : ∀ peer time outcome failures,
    Verification.ended peer time outcome failures ∈ controller.history →
      config.maxFailures ≤ failures →
        time + config.cooldown ≤ controller.clock ∨
          config.maxFailures ≤ (controller.record peer).failures ∧
            time + config.cooldown ≤ (controller.record peer).cooldownUntil
  kept : controller.history.Pairwise (KeepsCooldown config)

variable {peer : Peer}

omit [FloorRing Time] in
theorem failuresWithin_eq_zero {opening : Time} {history : List (Verification Time)}
    (early : ∀ time outcome failures, Verification.ended peer time outcome failures ∈ history →
      outcome ≠ .succeeded → time < opening) :
    failuresWithin config peer opening history = 0 := by
  rw [failuresWithin, countP_eq_zero]
  intro event member
  cases event with
  | started other time => exact Bool.false_ne_true
  | ended other time outcome failures =>
    simp only [Verification.failedWithin, Bool.and_eq_true, decide_eq_true_eq, not_and, not_lt]
    rintro ⟨⟨rfl, failed⟩, late⟩
    exact absurd (early time outcome failures member failed) (not_lt.mpr late)

variable {outcome : AuthAttemptOutcome}

section

omit [FloorRing Time]

theorem recordOutcome_succeeded (config : Config Time) (state : PeerAuthState Time) (now : Time)
    (succeeded : outcome = .succeeded) :
    (recordOutcome config state outcome now).failures = 0 := by
  rw [succeeded]
  rfl

theorem recordOutcome_failed (config : Config Time) (state : PeerAuthState Time) (now : Time)
    (failed : outcome ≠ .succeeded) :
    (recordOutcome config state outcome now).failures = state.failures + 1 ∧
      (recordOutcome config state outcome now).lastFailure = now ∧
      (config.maxFailures ≤ state.failures + 1 →
        (recordOutcome config state outcome now).cooldownUntil = now + config.cooldown) := by
  cases outcome with
  | succeeded => exact absurd rfl failed
  | failed | error => exact ⟨rfl, rfl, fun many => if_pos many⟩

end

variable [IsOrderedAddMonoid Time]

namespace Throttled

omit [FloorRing Time] [IsOrderedAddMonoid Time] in
theorem initial (config : Config Time) (clock : Time) :
    Throttled config (AuthAdmissionController.initial clock) where
  past _ member := by cases member
  latest _ _ _ _ _ member := by cases member
  cooling peer many := by
    have positive := config.maxFailuresPositive
    change config.maxFailures ≤ 0 at many
    omega
  bounded _ _ _ := Nat.zero_le _
  counted _ _ _ _ := Nat.zero_le _
  shut _ _ _ _ member := by cases member
  kept := List.Pairwise.nil

section

variable (throttled : Throttled config self)
include throttled

section

omit [FloorRing Time]

theorem forgotten (forgets : config.cooldown ≤ self.clock - (self.record peer).lastFailure ∨
      config.maxFailures ≤ (self.record peer).failures ∧
        (self.record peer).cooldownUntil ≤ self.clock) :
    (self.record peer).lastFailure + config.cooldown ≤ self.clock := by
  cases forgets with
  | inl old => exact le_sub_iff_add_le'.mp old
  | inr cooled =>
    rw [← throttled.cooling peer cooled.1]
    exact cooled.2

theorem of_failuresKept
    (kept : ∀ peer, FailuresKept config self.clock (self.record peer) (next.record peer))
    (history : next.history = self.history) (clock : next.clock = self.clock) :
    Throttled config next where
  past event member := by
    rw [history] at member
    rw [clock]
    exact throttled.past event member
  latest peer failed time outcome failures member unsuccessful := by
    rw [history] at member
    cases kept peer with
    | inl live =>
      obtain ⟨same, times⟩ := live
      rw [same] at failed
      rw [(times failed).2]
      exact throttled.latest peer failed time outcome failures member unsuccessful
    | inr forgot =>
      omega
  cooling peer many := by
    have positive := config.maxFailuresPositive
    cases kept peer with
    | inl live =>
      obtain ⟨same, times⟩ := live
      rw [same] at many
      obtain ⟨deadline, last⟩ := times (by omega)
      rw [deadline, last]
      exact throttled.cooling peer many
    | inr forgot =>
      omega
  bounded peer opening clean := by
    rw [history] at clean ⊢
    exact throttled.bounded peer opening clean
  counted peer opening clean within := by
    rw [history] at clean ⊢
    rw [clock] at within
    have before := throttled.counted peer opening clean within
    cases kept peer with
    | inl live =>
      rw [live.1]
      exact before
    | inr forgot =>
      obtain ⟨_, forgets⟩ := forgot
      by_cases failed : 1 ≤ (self.record peer).failures
      · have old := throttled.forgotten (forgets.imp_left And.right)
        have earlier := lt_of_add_lt_add_right (old.trans_lt within)
        rw [failuresWithin_eq_zero fun time outcome failures member unsuccessful =>
          (throttled.latest peer failed time outcome failures member unsuccessful).trans_lt
            earlier]
        exact Nat.zero_le _
      · omega
  shut peer time outcome failures member many := by
    rw [history] at member
    rw [clock]
    have positive := config.maxFailuresPositive
    cases throttled.shut peer time outcome failures member many with
    | inl isOver => exact .inl isOver
    | inr cooling =>
      obtain ⟨full, deadline⟩ := cooling
      cases kept peer with
      | inl live =>
        obtain ⟨same, times⟩ := live
        rw [same, (times (by omega)).1]
        exact .inr ⟨full, deadline⟩
      | inr forgot =>
        obtain ⟨_, forgets⟩ := forgot
        have old := throttled.forgotten (forgets.imp_left And.right)
        rw [← throttled.cooling peer full] at old
        exact .inl (deadline.trans old)
  kept := by
    rw [history]
    exact throttled.kept

end

section

omit [FloorRing Time] [IsOrderedAddMonoid Time]

theorem of_started (few : (self.record peer).failures < config.maxFailures)
    (records : ∀ other, next.record other = self.record other)
    (history : next.history = self.history ++ [.started peer self.clock])
    (clock : next.clock = self.clock) : Throttled config next where
  past event member := by
    rw [history, mem_append, mem_singleton] at member
    rw [clock]
    cases member with
    | inl earlier => exact throttled.past event earlier
    | inr same =>
      rw [same]
      exact le_rfl
  latest other failed time outcome failures member unsuccessful := by
    rw [history, mem_append, mem_singleton] at member
    rw [records] at failed ⊢
    cases member with
    | inl earlier =>
      exact throttled.latest other failed time outcome failures earlier unsuccessful
    | inr same => cases same
  cooling other many := by
    rw [records] at many ⊢
    exact throttled.cooling other many
  bounded other opening clean := by
    rw [history] at clean ⊢
    rw [failuresWithin, countP_append]
    exact throttled.bounded other opening fun event member =>
      clean event (mem_append_left _ member)
  counted other opening clean within := by
    rw [history] at clean ⊢
    rw [clock] at within
    rw [records, failuresWithin, countP_append]
    exact throttled.counted other opening
      (fun event member => clean event (mem_append_left _ member)) within
  shut other time outcome failures member many := by
    rw [history, mem_append, mem_singleton] at member
    rw [clock, records]
    cases member with
    | inl earlier => exact throttled.shut other time outcome failures earlier many
    | inr same => cases same
  kept := by
    rw [history, pairwise_append]
    refine ⟨throttled.kept, pairwise_singleton _ _, ?_⟩
    intro earlier member later last
    rw [mem_singleton] at last
    rw [last]
    cases earlier with
    | started other time => trivial
    | ended other time outcome failures =>
      rintro rfl many
      cases throttled.shut other time outcome failures member many with
      | inl isOver => exact isOver
      | inr cooling => omega

theorem observe {now : Time} (later : self.clock ≤ now) : Throttled config (self.observe now) where
  past event member := (throttled.past event member).trans later
  __ := throttled
  counted peer opening clean within := throttled.counted peer opening clean (later.trans_lt within)
  shut peer time outcome failures member many :=
    (throttled.shut peer time outcome failures member many).imp_left fun isOver =>
      isOver.trans later

end

end

omit [FloorRing Time] [IsOrderedAddMonoid Time] in
theorem failuresWithin_endVerification (lease : AuthAttemptLease) (recorded : PeerAuthState Time)
    (outcome : AuthAttemptOutcome) (peer : Peer) (opening : Time) :
    failuresWithin config peer opening (self.endVerification lease recorded outcome).history =
      failuresWithin config peer opening self.history +
        if lease.peer = peer ∧ outcome ≠ .succeeded ∧ opening ≤ self.clock ∧
            self.clock < opening + config.cooldown then 1 else 0 := by
  simp only [failuresWithin, endVerification, countP_append, countP_singleton,
    Verification.failedWithin, Bool.and_eq_true, decide_eq_true_eq, and_assoc]

variable {lease : AuthAttemptLease} {recorded : PeerAuthState Time}

section

omit [LinearOrder Time] [FloorRing Time] [IsOrderedAddMonoid Time]

theorem record_endVerification_of_ne (different : peer ≠ lease.peer) :
    (self.endVerification lease recorded outcome).record peer = self.record peer := by
  rw [record_endVerification, if_neg different]

theorem mem_endVerification {event : Verification Time} :
    event ∈ (self.endVerification lease recorded outcome).history ↔
      event ∈ self.history ∨ event = .ended lease.peer self.clock outcome recorded.failures := by
  rw [endVerification, mem_append, mem_singleton]

end

omit [FloorRing Time] [IsOrderedAddMonoid Time] in
theorem endVerification (throttled : Throttled config self)
    {state : PeerAuthState Time} (here : self.record lease.peer = state)
    (few : state.failures < config.maxFailures) (outcome : AuthAttemptOutcome) :
    Throttled config
      (self.endVerification lease (recordOutcome config state outcome self.clock) outcome) := by
  let recorded := recordOutcome config state outcome self.clock
  have own : (self.endVerification lease recorded outcome).record lease.peer = recorded := by
    rw [record_endVerification, if_pos rfl]
  have past (event : Verification Time)
      (member : event ∈ (self.endVerification lease recorded outcome).history) :
      event.time ≤ self.clock := by
    cases mem_endVerification.mp member with
    | inl earlier => exact throttled.past event earlier
    | inr same =>
      rw [same]
      exact le_rfl
  have cleanBefore {peer : Peer} {opening : Time}
      (clean : ∀ event ∈ (self.endVerification lease recorded outcome).history,
        event.succeededWithin config peer opening = false) :
      ∀ event ∈ self.history, event.succeededWithin config peer opening = false :=
    fun event earlier => clean event (mem_endVerification.mpr (.inl earlier))
  have counted (peer : Peer) (opening : Time)
      (clean : ∀ event ∈ (self.endVerification lease recorded outcome).history,
        event.succeededWithin config peer opening = false)
      (within : self.clock < opening + config.cooldown) :
      failuresWithin config peer opening (self.endVerification lease recorded outcome).history ≤
        ((self.endVerification lease recorded outcome).record peer).failures := by
    have before := throttled.counted peer opening (cleanBefore clean) within
    rw [failuresWithin_endVerification]
    by_cases same : peer = lease.peer
    · subst same
      rw [own]
      rw [here] at before
      by_cases reached : opening ≤ self.clock
      · by_cases succeeded : outcome = .succeeded
        · have ended := clean _ (mem_endVerification.mpr (.inr rfl))
          simp [Verification.succeededWithin, succeeded, reached, within] at ended
        obtain ⟨failed, _⟩ := recordOutcome_failed config state self.clock succeeded
        rw [if_pos ⟨rfl, succeeded, reached, within⟩, failed]
        omega
      · rw [if_neg fun all => reached all.2.2.1,
          failuresWithin_eq_zero fun time result failures member _ =>
            (throttled.past _ member).trans_lt (not_le.mp reached)]
        exact Nat.zero_le _
    · rw [record_endVerification_of_ne same, if_neg fun all => same all.1.symm]
      exact before
  constructor
  case past => exact past
  case latest =>
    intro peer failed time result failures member unsuccessful
    by_cases same : peer = lease.peer
    · subst same
      rw [own] at failed ⊢
      by_cases succeeded : outcome = .succeeded
      · rw [recordOutcome_succeeded config state self.clock succeeded] at failed
        omega
      obtain ⟨_, last, _⟩ := recordOutcome_failed config state self.clock succeeded
      rw [last]
      exact past _ member
    · rw [record_endVerification_of_ne same] at failed ⊢
      cases mem_endVerification.mp member with
      | inl earlier => exact throttled.latest peer failed time result failures earlier unsuccessful
      | inr equal =>
        cases equal
        exact absurd rfl same
  case cooling =>
    intro peer many
    by_cases same : peer = lease.peer
    · subst same
      rw [own] at many ⊢
      by_cases succeeded : outcome = .succeeded
      · rw [recordOutcome_succeeded config state self.clock succeeded] at many
        omega
      obtain ⟨failures, last, deadline⟩ := recordOutcome_failed config state self.clock succeeded
      rw [failures] at many
      rw [last, deadline many]
    · rw [record_endVerification_of_ne same] at many ⊢
      exact throttled.cooling peer many
  case bounded =>
    intro peer opening clean
    rw [failuresWithin_endVerification]
    split
    · case isTrue all =>
      obtain ⟨rfl, failed, reached, within⟩ := all
      have before := throttled.counted lease.peer opening (cleanBefore clean) within
      rw [here] at before
      omega
    · exact throttled.bounded peer opening (cleanBefore clean)
  case counted => exact counted
  case shut =>
    intro peer time result failures member many
    cases mem_endVerification.mp member with
    | inl earlier =>
      have before := throttled.shut peer time result failures earlier many
      by_cases same : peer = lease.peer
      · subst same
        rw [here] at before
        exact before.imp_right fun full => absurd full.1 (Nat.not_le_of_lt few)
      · rw [record_endVerification_of_ne same]
        exact before
    | inr equal =>
      cases equal
      apply Or.inr
      rw [own]
      by_cases succeeded : outcome = .succeeded
      · rw [recordOutcome_succeeded config state self.clock succeeded] at many
        omega
      obtain ⟨failed, _, deadline⟩ := recordOutcome_failed config state self.clock succeeded
      have reached := many
      rw [failed] at reached
      exact ⟨many, (deadline reached).ge⟩
  case kept =>
    rw [AuthAdmissionController.endVerification, pairwise_append]
    refine ⟨throttled.kept, pairwise_singleton _ _, ?_⟩
    intro earlier _ later last
    rw [mem_singleton] at last
    rw [last]
    cases earlier with
    | started | ended => trivial

section

omit [FloorRing Time]

section

variable (throttled : Throttled config self)
include throttled

theorem move (moved : Move config self next) : Throttled config next := by
  cases moved with
  | upkeep peers lastPrune kept bounded =>
    exact throttled.of_failuresKept (fun peer => (kept peer).failures) rfl rfl
  | @begin lease state found empty room pending free allowed =>
    have here := record_of_lookup found
    let reserved : PeerAuthState Time :=
      { state with outstanding := state.outstanding + 1, lastSeen := self.clock }
    let started : PeerAuthState Time :=
      { reserved with verifying := reserved.verifying + 1, lastSeen := self.clock }
    have prepared : Throttled config
        ((self.reserve lease.peer reserved).setPeer lease.peer started) := by
      apply throttled.of_failuresKept
      · intro peer
        rw [record_setPeer]
        split
        · case isTrue same =>
          rw [same, here]
          exact FailuresKept.of_same config _ rfl rfl rfl
        rename_i different
        rw [record_reserve, if_neg different]
        exact FailuresKept.of_same config _ rfl rfl rfl
      · rfl
      · rfl
    apply prepared.of_started
    · rw [record_setPeer, if_pos rfl]
      exact Nat.lt_of_le_of_lt (Nat.le_add_right _ _) allowed
    · intro other
      rfl
    · rfl
    · rfl
  | @grant waiter front rest state found queue free allowed =>
    have here := record_of_lookup found
    let started : PeerAuthState Time :=
      { state with verifying := state.verifying + 1, lastSeen := self.clock }
    have prepared : Throttled config (self.setPeer waiter.peer started) := by
      apply throttled.of_failuresKept
      · intro peer
        rw [record_setPeer]
        split
        · case isTrue same =>
          rw [same, here]
          exact FailuresKept.of_same config _ rfl rfl rfl
        · exact FailuresKept.of_same config _ rfl rfl rfl
      · rfl
      · rfl
    apply prepared.of_started
    · rw [record_setPeer, if_pos rfl]
      exact Nat.lt_of_le_of_lt (Nat.le_add_right _ _) allowed
    · intro other
      rfl
    · rfl
    · rfl
  | @withdraw waiter front rest state found queue denial =>
    have here := record_of_lookup found
    apply throttled.of_failuresKept
    · intro peer
      rw [record_settle, record_setPeer]
      split
      · case isTrue same =>
        rw [same, here]
        exact FailuresKept.of_same config _ rfl rfl rfl
      · exact FailuresKept.of_same config _ rfl rfl rfl
    · rfl
    · rfl

theorem moves (moved : Moves config self next) : Throttled config next := by
  induction moved with
  | refl => exact throttled
  | tail _ last ih => exact ih.move last

theorem queue {waiter : AuthWaiter Time}
    {state reserved : PeerAuthState Time} (found : self.peers.lookup waiter.peer = some state)
    (reservedEq : reserved =
      { state with outstanding := state.outstanding + 1, lastSeen := self.clock }) :
    Throttled config ((self.reserve waiter.peer reserved).enqueue waiter) := by
  have here := record_of_lookup found
  apply throttled.of_failuresKept
  · intro peer
    rw [record_enqueue, record_reserve]
    split
    · case isTrue same =>
      rw [same, here, reservedEq]
      exact FailuresKept.of_same config _ rfl rfl rfl
    · exact FailuresKept.of_same config _ rfl rfl rfl
  · rfl
  · rfl

end

theorem path {readings : List Time} (path : Path config self readings next) (more : List Time)
    (balanced : Balanced config self) (throttled : Throttled config self)
    (ordered : (self.clock :: (readings ++ more)).Pairwise (· ≤ ·)) :
    Throttled config next ∧ (next.clock :: more).Pairwise (· ≤ ·) := by
  induction path with
  | done => exact ⟨throttled, ordered⟩
  | moves moved _ ih =>
    rw [← moved.clock] at ordered
    exact ih (balanced.moves moved) (throttled.moves moved) ordered
  | observe now _ ih =>
    obtain ⟨first, rest⟩ := pairwise_cons.mp ordered
    exact ih (balanced.observe now) (throttled.observe (first now (mem_cons_self ..))) rest
  | @close self _ _ _ moved empty _ ih =>
    have shut : Throttled config { self with closed := true } := { throttled with }
    have clock : _ = self.clock := moved.clock
    rw [← clock] at ordered
    exact ih (balanced.close.moves moved) (shut.moves moved) ordered
  | queue accepting found room pending _ ih =>
    exact ih (balanced.queue _ found room pending) (throttled.queue found rfl) ordered
  | @finish self _ _ lease state before after _ held given found _ ih =>
    have here := record_of_lookup found
    have member : lease ∈ self.leases := by
      rw [held]
      exact mem_append_right _ (mem_cons_self ..)
    obtain ⟨other, again, verifying, _⟩ := balanced.leased member
    have same : other = state := Option.some.inj (again.symm.trans found)
    have attempts := balanced.attempts_le lease.peer
    rw [here] at attempts
    rw [same] at verifying
    have few : state.failures < config.maxFailures := by omega
    exact ih (balanced.endVerification held given found _) (throttled.endVerification here few _)
      ordered

end

end Throttled

/-! ### The bound -/

structure BruteForceBounded (config : Config Time) (controller : AuthAdmissionController Time) :
    Prop where
  attempts_le : ∀ entry ∈ controller.peers.entries,
    entry.2.failures + entry.2.verifying ≤ config.maxFailures
  cooldown : controller.history.Pairwise (KeepsCooldown config)
  window : ∀ peer opening,
    (∀ event ∈ controller.history, event.succeededWithin config peer opening = false) →
      failuresWithin config peer opening controller.history ≤ config.maxFailures

omit [FloorRing Time] [IsOrderedAddMonoid Time] in
theorem Throttled.bruteForceBounded (throttled : Throttled config self)
    (balanced : Balanced config self) : BruteForceBounded config self where
  attempts_le entry member := by
    rw [← record_of_lookup (OrderedDict.lookup_eq_some.mpr member)]
    exact balanced.attempts_le entry.1
  cooldown := throttled.kept
  window := throttled.bounded

theorem Throttled.run (events : List (Event Time)) (balanced : Balanced config self)
    (throttled : Throttled config self)
    (ordered : (self.clock :: events.flatMap Event.readings).Pairwise (· ≤ ·)) :
    ∃ final, run (step config) self events = some final ∧ Balanced config final ∧
      Throttled config final := by
  induction events generalizing self with
  | nil => exact ⟨self, rfl, balanced, throttled⟩
  | cons event rest ih =>
    obtain ⟨next, taken, effect⟩ := step_effect balanced event
    obtain ⟨used, within, path⟩ := effect.path
    have fewer := ordered.sublist ((within.append_right _).cons_cons self.clock)
    obtain ⟨kept, later⟩ := throttled.path path (rest.flatMap Event.readings) balanced fewer
    obtain ⟨final, reached, ended⟩ := ih (effect.balanced balanced) kept later
    refine ⟨final, ?_, ended⟩
    rw [run_cons, taken]
    exact reached

def defaultConfig : Config ℚ :=
  { maxFailures := 5
    cooldown := 30
    maxPeers := 4096
    pruneInterval := 5
    waitTimeout := 5
    maxPending := 16
    maxActive := 2
    perPeerPending := 16
    maxFailuresPositive := by decide
    cooldownPositive := by norm_num
    maxPeersPositive := by decide
    pruneIntervalNonnegative := by norm_num
    waitTimeoutNonnegative := by norm_num
    maxActivePositive := by decide
    perPeerPendingPositive := by decide
    activeWithinPending := by decide
    perPeerWithinPending := by decide }

def readingsAt (now : ℚ) : PromotionReadings ℚ := { now := now, monotonic := fun _ => now }

def arrivalAt (now : ℚ) : Arrival ℚ :=
  { now := now
    created := now
    monotonic := fun _ => now
    pass := { promotion := readingsAt now, remaining := now } }

def twoGuesses : List (Event ℚ) :=
  [.acquire "192.0.2.7" (arrivalAt 1), .finish 0 .failed (readingsAt 2),
    .acquire "192.0.2.7" (arrivalAt 3), .finish 1 .failed (readingsAt 4)]

end XFerry.AuthAdmission
