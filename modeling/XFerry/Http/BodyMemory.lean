/-
The reservations of the body memory budget.

`release` is two critical sections: the first sets the flag of the reservation, the
second gives its bytes back to the budget.  Other threads may come between them.
-/

import XFerry.Accounts
import XFerry.Http.ReceiveCompleteness

namespace XFerry.Http

namespace BodyMemoryBudget

def reserve (budget : BodyMemoryBudget) (byteCount : Nat) : BodyMemoryBudget :=
  { budget with currentBytes := budget.currentBytes + byteCount }

def release (budget : BodyMemoryBudget) (byteCount : Nat) : BodyMemoryBudget :=
  { budget with currentBytes := budget.currentBytes - byteCount }

theorem tryReserve_eq_some {budget : BodyMemoryBudget} {asked byteCount : Nat}
    (reserved : budget.tryReserve asked = some byteCount) :
    byteCount = asked ∧ budget.currentBytes + byteCount ≤ budget.maxBytes := by
  unfold tryReserve at reserved
  split at reserved
  · cases reserved
  split at reserved
  · cases reserved
  rename_i room
  cases reserved
  exact ⟨rfl, Nat.le_of_not_lt room⟩

end BodyMemoryBudget

/-- A reservation is being released from the moment that its flag is set until its bytes
are given back. -/
inductive ReservationStage where
  | unmade
  | live (byteCount : Nat)
  | releasing (byteCount : Nat)
  | released
deriving DecidableEq

namespace ReservationStage

def bytes : ReservationStage → Nat
  | .live byteCount => byteCount
  | .releasing byteCount => byteCount
  | .unmade => 0
  | .released => 0

def isSettled : ReservationStage → Bool
  | .unmade => true
  | .released => true
  | .live _ => false
  | .releasing _ => false

def made : Option Nat → ReservationStage
  | none => .unmade
  | some byteCount => .live byteCount

variable {stage : ReservationStage}

theorem bytes_eq_zero_of_isSettled (settled : stage.isSettled = true) : stage.bytes = 0 := by
  cases stage with
  | unmade | released => rfl
  | live | releasing => cases settled

end ReservationStage

/-- `givenBack` counts how often the bytes of a reservation have been given back; the
budget has no need of it. -/
structure BodyMemory (ι : Type) where
  budget : BodyMemoryBudget
  reservations : ι → ReservationStage
  givenBack : ι → Nat

namespace BodyMemory

variable {ι : Type} [DecidableEq ι]

def initial (maxBytes : Nat) (positive : 0 < maxBytes) : BodyMemory ι :=
  { budget := { maxBytes := maxBytes, currentBytes := 0, maxBytes_pos := positive }
    reservations := fun _ => .unmade
    givenBack := fun _ => 0 }

def enter (memory : BodyMemory ι) (budget : BodyMemoryBudget) (key : ι)
    (stage : ReservationStage) : BodyMemory ι :=
  { memory with budget := budget, reservations := Function.update memory.reservations key stage }

def countBack (memory : BodyMemory ι) (key : ι) : BodyMemory ι :=
  { memory with givenBack := Function.update memory.givenBack key (memory.givenBack key + 1) }

def reserve (memory : BodyMemory ι) (key : ι) : Option Nat → BodyMemory ι
  | none => memory
  | some byteCount => memory.enter (memory.budget.reserve byteCount) key (.live byteCount)

def release (memory : BodyMemory ι) (key : ι) : Option (BodyMemory ι) :=
  match memory.reservations key with
  | .live byteCount => some (memory.enter memory.budget key (.releasing byteCount))
  | .releasing byteCount =>
    some ((memory.enter (memory.budget.release byteCount) key .released).countBack key)
  | .unmade => none
  | .released => none

section

variable (memory : BodyMemory ι) (budget : BodyMemoryBudget) (stage : ReservationStage)

@[simp] theorem enter_givenBack (key : ι) :
    (memory.enter budget key stage).givenBack = memory.givenBack := rfl

@[simp] theorem enter_same (key : ι) : (memory.enter budget key stage).reservations key = stage :=
  Function.update_self ..

theorem enter_other {key other : ι} (different : other ≠ key) :
    (memory.enter budget key stage).reservations other = memory.reservations other :=
  Function.update_of_ne different ..

@[simp] theorem countBack_reservations (key : ι) :
    (memory.countBack key).reservations = memory.reservations := rfl

@[simp] theorem countBack_same (key : ι) :
    (memory.countBack key).givenBack key = memory.givenBack key + 1 :=
  Function.update_self ..

theorem countBack_other {key other : ι} (different : other ≠ key) :
    (memory.countBack key).givenBack other = memory.givenBack other :=
  Function.update_of_ne different ..

end

variable {memory next : BodyMemory ι} {key other : ι}

theorem release_eq_some (released : memory.release key = some next) :
    (∃ byteCount, memory.reservations key = .live byteCount ∧
      next = memory.enter memory.budget key (.releasing byteCount)) ∨
    ∃ byteCount, memory.reservations key = .releasing byteCount ∧
      next = (memory.enter (memory.budget.release byteCount) key .released).countBack key := by
  unfold release at released
  split at released
  · case h_1 byteCount stage =>
    cases released
    exact .inl ⟨byteCount, stage, rfl⟩
  · case h_2 byteCount stage =>
    cases released
    exact .inr ⟨byteCount, stage, rfl⟩
  · cases released
  · cases released

theorem exists_release (unsettled : (memory.reservations key).isSettled = false) :
    ∃ next, memory.release key = some next := by
  unfold release
  cases stage : memory.reservations key with
  | live | releasing => exact ⟨_, rfl⟩
  | unmade | released =>
    rw [stage] at unsettled
    cases unsettled

theorem reserve_same (unmade : memory.reservations key = .unmade) (reserved : Option Nat) :
    (memory.reserve key reserved).reservations key = .made reserved := by
  cases reserved with
  | none => exact unmade
  | some byteCount => exact enter_same ..

theorem reserve_other (reserved : Option Nat) (different : other ≠ key) :
    (memory.reserve key reserved).reservations other = memory.reservations other := by
  cases reserved with
  | none => rfl
  | some byteCount => exact enter_other _ _ _ different

theorem release_other (released : memory.release key = some next) (different : other ≠ key) :
    next.reservations other = memory.reservations other := by
  rcases release_eq_some released with ⟨byteCount, _, rfl⟩ | ⟨byteCount, _, rfl⟩
  · exact enter_other _ _ _ different
  · rw [countBack_reservations]
    exact enter_other _ _ _ different

/-- The bytes in use are those of the reservations that are not released, and a
reservation has given its bytes back once or not at all. -/
structure Accounted (maxBytes : Nat) (memory : BodyMemory ι) : Prop where
  counted : Totals (fun key => (memory.reservations key).bytes) memory.budget.currentBytes
  within : memory.budget.currentBytes ≤ maxBytes
  sameMax : memory.budget.maxBytes = maxBytes
  once : ∀ key, memory.givenBack key = if memory.reservations key = .released then 1 else 0

variable {maxBytes : Nat}

omit [DecidableEq ι] in
theorem initial_accounted (positive : 0 < maxBytes) :
    (initial maxBytes positive : BodyMemory ι).Accounted maxBytes :=
  { counted := Totals.zero
    within := Nat.zero_le _
    sameMax := rfl
    once := fun _ => rfl }

section

variable (accounted : memory.Accounted maxBytes)
include accounted

theorem Accounted.enter {budget : BodyMemoryBudget}
    (notBefore : memory.reservations key ≠ .released)
    (notAfter : stage ≠ .released) (moved : budget.currentBytes =
      memory.budget.currentBytes - (memory.reservations key).bytes + stage.bytes)
    (within : budget.currentBytes ≤ maxBytes) (sameMax : budget.maxBytes = maxBytes) :
    (memory.enter budget key stage).Accounted maxBytes := by
  have kept := accounted.counted.updateState key stage
  rw [← moved] at kept
  constructor
  case counted => exact kept
  case within => exact within
  case sameMax => exact sameMax
  case once =>
    intro other
    have before := accounted.once other
    by_cases same : other = key
    · rw [same, if_neg notBefore] at before
      rw [same, enter_same, if_neg notAfter]
      exact before
    · rw [enter_other _ _ _ same]
      exact before

theorem Accounted.reserve (unmade : memory.reservations key = .unmade) {reserved : Option Nat}
    (room : ∀ byteCount, reserved = some byteCount →
      memory.budget.currentBytes + byteCount ≤ memory.budget.maxBytes) :
    (memory.reserve key reserved).Accounted maxBytes := by
  cases reserved with
  | none => exact accounted
  | some byteCount =>
    have fits := room byteCount rfl
    rw [accounted.sameMax] at fits
    refine accounted.enter ?_ ?_ ?_ fits accounted.sameMax
    · rw [unmade]
      exact ReservationStage.noConfusion
    · exact ReservationStage.noConfusion
    · rw [unmade]
      rfl

theorem Accounted.release (released : memory.release key = some next) :
    next.Accounted maxBytes := by
  rcases release_eq_some released with ⟨byteCount, stage, rfl⟩ | ⟨byteCount, stage, rfl⟩
  · have enough := accounted.counted.le key
    refine accounted.enter ?_ ?_ ?_ accounted.within accounted.sameMax
    · rw [stage]
      exact ReservationStage.noConfusion
    · exact ReservationStage.noConfusion
    · rw [stage] at enough ⊢
      exact (Nat.sub_add_cancel enough).symm
  · have kept := accounted.counted.updateState key .released
    rw [stage] at kept
    constructor
    case counted => exact kept
    case within => exact Nat.le_trans (Nat.sub_le _ _) accounted.within
    case sameMax => exact accounted.sameMax
    case once =>
      intro other
      have before := accounted.once other
      rw [countBack_reservations]
      by_cases same : other = key
      · rw [same, stage, if_neg ReservationStage.noConfusion] at before
        rw [same, enter_same, countBack_same, enter_givenBack, before, if_pos rfl]
      · rw [enter_other _ _ _ same, countBack_other _ same, enter_givenBack]
        exact before

section

omit [DecidableEq ι]

theorem Accounted.givenBack_le (key : ι) : memory.givenBack key ≤ 1 := by
  rw [accounted.once key]
  split
  · exact Nat.le_refl 1
  · exact Nat.zero_le 1

theorem Accounted.givenBack_of_isSettled (settled : (memory.reservations key).isSettled = true)
    (made : memory.reservations key ≠ .unmade) : memory.givenBack key = 1 := by
  rw [accounted.once key]
  cases stage : memory.reservations key with
  | unmade => exact absurd stage made
  | released => exact if_pos rfl
  | live | releasing =>
    rw [stage] at settled
    cases settled

theorem Accounted.drained (settled : ∀ key, (memory.reservations key).isSettled = true) :
    memory.budget.currentBytes = 0 :=
  accounted.counted.eq_zero fun key => ReservationStage.bytes_eq_zero_of_isSettled (settled key)

end

end

end BodyMemory

def ReceiveConfig.sharing (config : ReceiveConfig) (budget : BodyMemoryBudget) : ReceiveConfig :=
  { config with bodyMemoryBudget := some budget }

def Receiver.bodyReservation (receiver : Receiver) : Option Nat :=
  receiver.body.bind fun body => body.framing.bodyReservation

def acceptedReservation (unicode : Python.Unicode) (config : ReceiveConfig)
    (data : Python.Bytes) : Option Nat :=
  match FirstOccurrence.find headerTerminator data with
  | none => none
  | some headerEnd =>
    match examineHeaders unicode config (data.take headerEnd) with
    | .error _ => none
    | .ok framing => framing.bodyReservation

/-- The reservation that a turn makes.  It is made before the turn looks at the body, so
it is made also where that look ends in a rejection. -/
def Receiver.reserves (unicode : Python.Unicode) (config : ReceiveConfig) (receiver : Receiver)
    (turn : Turn) : Option Nat :=
  if receiver.body.isSome = true ∨ headerTimeout < turn.now - receiver.startTime then none
  else
    match turn.arrival with
    | .closed => none
    | .timedOut => none
    | .data chunk => acceptedReservation unicode config (receiver.received ++ chunk)

def Phase.Holds (held : Option Nat) : Phase → Prop
  | .waiting receiver => receiver.bodyReservation = held
  | .finished (.returned result) => result.rejectionReason = none → result.bodyReservation = held
  | .finished (.raised _) => True

variable {unicode : Python.Unicode} {config : ReceiveConfig} {receiver : Receiver}

theorem holds_reject (held : Option Nat) (reason : ReceiveRejectionReason) :
    (Phase.finished (reject reason)).Holds held := by
  intro noReason
  cases noReason

theorem Receiver.holds_result (receiver : Receiver) :
    (Phase.finished receiver.result).Holds receiver.bodyReservation := by
  unfold result bodyReservation
  cases receiver.body with
  | none | some => exact fun _ => rfl

theorem Receiver.checkBody_holds (receiver : Receiver) (body : Body) :
    (receiver.checkBody body).Holds receiver.bodyReservation := by
  unfold checkBody
  split
  · exact holds_reject _ _
  split
  · exact receiver.holds_result
  · rfl

theorem ReceiveOutcome.Refused.holds {outcome : ReceiveOutcome} (refused : outcome.Refused)
    (held : Option Nat) : (Phase.finished outcome).Holds held := by
  cases refused with
  | rejected reason => exact holds_reject _ _
  | raised message => trivial

theorem Receiver.addHeaderChunk_holds (receiver : Receiver) (noBody : receiver.body = none)
    (chunk : Python.Bytes) (later : Seconds) :
    (receiver.addHeaderChunk unicode config chunk later).Holds
      (acceptedReservation unicode config (receiver.received ++ chunk)) := by
  unfold addHeaderChunk acceptedReservation
  simp only
  cases found : FirstOccurrence.find headerTerminator (receiver.received ++ chunk) with
  | none =>
    simp only
    split
    · exact holds_reject _ _
    · simp [Phase.Holds, bodyReservation, noBody]
  | some headerEnd =>
    simp only
    cases examined : examineHeaders unicode config
        ((receiver.received ++ chunk).take headerEnd) with
    | ok framing => exact checkBody_holds _ _
    | error fault =>
      cases fault with
      | some outcome => exact (refused_of_examineHeaders examined).holds _
      | none => simp [Phase.Holds, result, noBody]

variable {turn : Turn} {phase : Phase}

theorem Receiver.headerTurn_holds (noBody : receiver.body = none)
    (taken : receiver.headerTurn unicode config turn = some phase) :
    phase.Holds (receiver.reserves unicode config turn) := by
  have nothing : receiver.bodyReservation = none := by rw [bodyReservation, noBody]; rfl
  have result := receiver.holds_result
  rw [nothing] at result
  unfold headerTurn at taken
  unfold reserves
  rw [noBody]
  split at taken
  · cases taken
    exact holds_reject _ _
  rename_i inTime
  simp only [Option.isSome_none, Bool.false_eq_true, inTime, or_self, if_false]
  cases arrived : turn.arrival with
  | closed | timedOut =>
    rw [arrived] at taken
    cases taken
    exact result
  | data chunk =>
    rw [arrived] at taken
    dsimp only at taken
    split at taken
    · cases taken
    · cases taken
      exact receiver.addHeaderChunk_holds noBody chunk turn.later

theorem Receiver.bodyTurn_holds {body : Body}
    (taken : receiver.bodyTurn config body turn = some phase) :
    phase.Holds receiver.bodyReservation := by
  unfold bodyTurn at taken
  split at taken
  · cases taken
    exact holds_reject _ _
  split at taken
  · cases taken
    exact receiver.holds_result
  split at taken
  · cases taken
    exact holds_reject _ _
  · split at taken
    · cases taken
      exact holds_reject _ _
    split at taken
    · cases taken
      rfl
    · cases taken
      exact holds_reject _ _
  · split at taken
    · cases taken
    · cases taken
      exact checkBody_holds _ _

theorem Receiver.turn_holds (taken : receiver.turn unicode config turn = some phase) :
    phase.Holds (receiver.bodyReservation.or (receiver.reserves unicode config turn)) := by
  unfold Receiver.turn at taken
  cases isBody : receiver.body with
  | none =>
    rw [isBody] at taken
    have nothing : receiver.bodyReservation = none := by rw [bodyReservation, isBody]; rfl
    rw [nothing, Option.none_or]
    exact headerTurn_holds isBody taken
  | some body =>
    rw [isBody] at taken
    have nothing : receiver.reserves unicode config turn = none := by
      simp [reserves, isBody]
    rw [nothing, Option.or_none]
    exact bodyTurn_holds taken

theorem Framing.Fits.room {header : Python.Bytes} {framing : Framing}
    {budget : BodyMemoryBudget} {byteCount : Nat}
    (fits : framing.Fits unicode (config.sharing budget) header)
    (reserved : framing.bodyReservation = some byteCount) :
    budget.currentBytes + byteCount ≤ budget.maxBytes := by
  have room := fits.reserved
  rw [reserved] at room
  unfold reserveBody at room
  split at room
  · cases room
  obtain ⟨asked, found, same⟩ := Option.map_eq_some_iff.mp room
  cases same
  exact (BodyMemoryBudget.tryReserve_eq_some found).2

theorem Receiver.reserves_eq_some {budget : BodyMemoryBudget} {byteCount : Nat}
    (reserved : receiver.reserves unicode (config.sharing budget) turn = some byteCount) :
    receiver.bodyReservation = none ∧ budget.currentBytes + byteCount ≤ budget.maxBytes := by
  unfold reserves at reserved
  split at reserved
  · cases reserved
  rename_i here
  have noBody : receiver.body = none := by
    rw [not_or, Option.not_isSome_iff_eq_none] at here
    exact here.1
  have nothing : receiver.bodyReservation = none := by rw [bodyReservation, noBody]; rfl
  refine ⟨nothing, ?_⟩
  split at reserved
  · cases reserved
  · cases reserved
  · unfold acceptedReservation at reserved
    split at reserved
    · cases reserved
    split at reserved
    · cases reserved
    · case h_2 accepted => exact (fits_of_examineHeaders accepted).room reserved

end XFerry.Http
