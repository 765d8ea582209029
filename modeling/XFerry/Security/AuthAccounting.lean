/-
What holds of the admission controller after every interleaving.

No section raises an internal error, every counter equals what it counts, and a
waiter is queued only while a verification is in progress whose end promotes it.
The clocks may read anything.
-/

import XFerry.Security.AuthSections

namespace XFerry.AuthAdmission

open EventMachine AuthAdmissionController

variable {Time : Type} [Ring Time] [LinearOrder Time] [FloorRing Time]
variable {config : Config Time}

/-- Balanced counters, no stuck waiter, and no queue once the controller is closed. -/
structure Sound (config : Config Time) (controller : AuthAdmissionController Time) : Prop where
  balanced : Balanced config controller
  blocked : Blocked config controller
  drained : controller.closed = true → controller.waiters = []

omit [FloorRing Time] in
theorem Sound.initial (config : Config Time) (clock : Time) :
    Sound config (AuthAdmissionController.initial clock) where
  balanced := Balanced.initial config clock
  blocked := Blocked.of_empty rfl
  drained _ := rfl

variable {self : AuthAdmissionController Time}

theorem Sound.step (sound : Sound config self) (event : Event Time) :
    ∃ next, step config self event = some next ∧ Sound config next := by
  obtain ⟨next, done, effect⟩ := step_effect sound.balanced event
  obtain ⟨used, _, path⟩ := effect.path
  exact ⟨next, done, path.balanced sound.balanced, effect.blocked sound.blocked,
    path.drained sound.drained⟩

theorem Sound.run (config : Config Time) (start : Time) (events : List (Event Time)) :
    ∃ final, run (AuthAdmission.step config) (AuthAdmissionController.initial start) events =
      some final ∧ Sound config final :=
  run_total (Sound config) (fun _ event sound => sound.step event) (Sound.initial config start)
    events

/-- Every counter of the controller against what it counts, and its bound. -/
structure Accounted (config : Config Time) (controller : AuthAdmissionController Time) : Prop where
  active : controller.active = (controller.peers.entries.map fun entry => entry.2.verifying).sum
  active_le : controller.active ≤ config.maxActive
  outstanding : controller.outstanding =
    (controller.peers.entries.map fun entry => entry.2.outstanding).sum
  outstanding_le : controller.outstanding ≤ config.maxPending
  verifying : ∀ entry ∈ controller.peers.entries, entry.2.verifying = controller.leasesOf entry.1
  queued : ∀ entry ∈ controller.peers.entries,
    entry.2.outstanding = entry.2.verifying + controller.queuedOf entry.1
  owed_le : ∀ entry ∈ controller.peers.entries, entry.2.outstanding ≤ config.perPeerPending
  leases : controller.active = controller.leases.length
  tracked_le : controller.peers.size ≤ config.maxPeers

omit [FloorRing Time] in
theorem Balanced.accounted (balanced : Balanced config self) : Accounted config self := by
  have here (entry : Peer × PeerAuthState Time) (member : entry ∈ self.peers.entries) :
      self.record entry.1 = entry.2 :=
    record_of_lookup (OrderedDict.lookup_eq_some.mpr member)
  have verifying (entry : Peer × PeerAuthState Time) (member : entry ∈ self.peers.entries) :
      entry.2.verifying = self.leasesOf entry.1 := by
    rw [← here entry member]
    exact balanced.verifying entry.1
  have owed (entry : Peer × PeerAuthState Time) (member : entry ∈ self.peers.entries) :
      entry.2.outstanding = self.leasesOf entry.1 + self.queuedOf entry.1 := by
    rw [← here entry member]
    exact balanced.owed entry.1
  have leased : (self.peers.entries.map fun entry => self.leasesOf entry.1).sum =
      self.leases.length := by
    apply OrderedDict.sum_countP_keys self.peers AuthAttemptLease.peer
    intro lease held
    obtain ⟨state, found, _⟩ := balanced.leased held
    rw [found]
    exact Option.some_ne_none _
  have queued : (self.peers.entries.map fun entry => self.queuedOf entry.1).sum =
      self.waiters.length := by
    apply OrderedDict.sum_countP_keys self.peers AuthWaiter.peer
    intro waiter waits
    obtain ⟨state, found, _⟩ := balanced.reserved waits
    rw [found]
    exact Option.some_ne_none _
  constructor
  case active =>
    rw [List.map_congr_left verifying, leased]
    exact balanced.active
  case active_le => exact balanced.active_le
  case outstanding =>
    rw [List.map_congr_left owed, List.sum_map_add, leased, queued, Nat.cast_add]
    exact balanced.outstanding
  case outstanding_le => exact balanced.outstanding_le
  case verifying => exact verifying
  case queued =>
    intro entry member
    rw [verifying entry member]
    exact owed entry member
  case owed_le =>
    intro entry member
    rw [← here entry member]
    exact balanced.owed_le entry.1
  case leases => exact balanced.active
  case tracked_le => exact balanced.tracked_le

/-- Whatever the interleaving, no section raises and every counter is right. -/
theorem run_accounted (config : Config Time) (start : Time) (events : List (Event Time)) :
    ∃ final, run (step config) (AuthAdmissionController.initial start) events = some final ∧
      Accounted config final := by
  obtain ⟨final, reached, sound⟩ := Sound.run config start events
  exact ⟨final, reached, sound.balanced.accounted⟩

/-- The waiter is held back by a verification in progress: every slot is in use,
or every attempt its own peer may still make is. -/
def AwaitsFinish (config : Config Time) (controller : AuthAdmissionController Time)
    (waiter : AuthWaiter Time) : Prop :=
  controller.active = config.maxActive ∨
    ∃ state, controller.peers.lookup waiter.peer = some state ∧ 1 ≤ state.verifying ∧
      config.maxFailures ≤ state.failures + state.verifying

structure NoLostWakeUp (config : Config Time) (controller : AuthAdmissionController Time) :
    Prop where
  awaits : ∀ waiter ∈ controller.waiters, AwaitsFinish config controller waiter
  idle : controller.active = 0 → controller.waiters = []
  drained : controller.closed = true →
    controller.waiters = [] ∧ controller.outstanding = controller.active
  shut : controller.closed = true → ∀ event next,
    perform config controller event = .ok next → next.closed = true
  denies : controller.closed = true → ∀ peer arrival, peer ≠ "" → controller.acquire config peer
    arrival = .ok (controller.observe arrival.now, .denied (deny .capacity 1))
  close : ∃ closed, perform config controller .close = .ok closed ∧ closed.closed = true ∧
    closed.waiters = [] ∧ closed.outstanding = closed.active ∧
    ∀ waiter ∈ controller.waiters,
      { waiter with denied := some (deny .capacity 1) } ∈ closed.settled

section

omit [FloorRing Time]

theorem Balanced.outstanding_of_empty
    (balanced : Balanced config self) (empty : self.waiters = []) :
    self.outstanding = self.active := by
  have outstanding := balanced.outstanding
  rw [empty, List.length_nil] at outstanding
  rw [outstanding, balanced.active, Nat.cast_zero, add_zero]

theorem Sound.awaitsFinish (sound : Sound config self)
    {waiter : AuthWaiter Time} (queued : waiter ∈ self.waiters) :
    AwaitsFinish config self waiter := by
  cases sound.blocked waiter queued with
  | inl full => exact .inl full
  | inr taken =>
    obtain ⟨state, found, _⟩ := sound.balanced.reserved queued
    rw [AttemptsTaken, record_of_lookup found] at taken
    exact .inr ⟨state, found, taken⟩

end

theorem Sound.closed_of_run {events : List (Event Time)} {final : AuthAdmissionController Time}
    (sound : Sound config self) (shut : self.closed = true ∨ Event.close ∈ events)
    (reached : EventMachine.run (AuthAdmission.step config) self events = some final) :
    final.closed = true := by
  induction events generalizing self with
  | nil =>
    cases reached
    rcases shut with shut | ⟨⟨⟩⟩
    exact shut
  | cons event rest ih =>
    obtain ⟨next, taken, later⟩ := Option.bind_eq_some_iff.mp reached
    obtain ⟨other, done, kept⟩ := sound.step event
    rw [taken] at done
    cases done
    refine ih kept ?_ later
    rcases shut with shut | member
    · obtain ⟨other, done, effect⟩ := step_effect sound.balanced event
      rw [taken] at done
      cases done
      obtain ⟨used, _, path⟩ := effect.path
      exact .inl (path.closed shut)
    rcases List.mem_cons.mp member with rfl | inRest
    · obtain ⟨closed, done, _, shut, _⟩ := close_effect sound.balanced
      rw [AuthAdmission.step, perform, done] at taken
      cases taken
      exact .inl shut
    · exact .inr inRest

theorem Sound.noLostWakeUp (sound : Sound config self) : NoLostWakeUp config self := by
  constructor
  case awaits => exact fun waiter queued => sound.awaitsFinish queued
  case idle =>
    intro nothing
    rw [List.eq_nil_iff_forall_not_mem]
    intro waiter queued
    have slots := config.maxActivePositive
    cases sound.blocked waiter queued with
    | inl full => omega
    | inr taken =>
      have verifying := sound.balanced.verifying waiter.peer
      have active := sound.balanced.active
      have counted : self.leasesOf waiter.peer ≤ self.leases.length := List.countP_le_length
      have busy := taken.1
      omega
  case drained =>
    intro shut
    have empty := sound.drained shut
    exact ⟨empty, sound.balanced.outstanding_of_empty empty⟩
  case shut =>
    intro shut event next done
    obtain ⟨other, again, effect⟩ := perform_effect sound.balanced event
    rw [done] at again
    cases again
    obtain ⟨used, _, path⟩ := effect.path
    exact path.closed shut
  case denies =>
    intro shut peer arrival named
    rw [AuthAdmissionController.acquire, if_neg named, if_pos shut]
  case close =>
    obtain ⟨closed, done, effect, shut, empty, settled⟩ := close_effect sound.balanced
    refine ⟨closed, done, shut, empty,
      (effect.balanced sound.balanced).outstanding_of_empty empty, ?_⟩
    intro waiter queued
    rw [settled]
    exact List.mem_append_right _ (List.mem_map.mpr ⟨waiter, queued, rfl⟩)

/-- Whatever the interleaving, no waiter is left in the queue without a pending
finish; closing denies all of them, and the controller stays closed. -/
theorem run_noLostWakeUp (config : Config Time) (start : Time) (events : List (Event Time)) :
    ∃ final, run (step config) (AuthAdmissionController.initial start) events = some final ∧
      NoLostWakeUp config final ∧ (Event.close ∈ events → final.closed = true) := by
  obtain ⟨final, reached, sound⟩ := Sound.run config start events
  refine ⟨final, reached, sound.noLostWakeUp, fun member => ?_⟩
  exact (Sound.initial config start).closed_of_run (.inr member) reached

end XFerry.AuthAdmission
