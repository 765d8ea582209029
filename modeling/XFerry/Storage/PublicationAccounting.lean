/-
What plain uploads leave behind, in any interleaving and whatever fails.

The counters are the sums over the reservations in flight.  The directory is what it
was at the start, one file for each upload that succeeded, and the temp files of those
on their way; nothing has two owners, so no file is ever replaced.
-/

import XFerry.Storage.PlainPublication

namespace XFerry.Storage

open EventMachine Python Function Option Operation

/-! ### Reservations -/

def PublishStage.reserves : PublishStage → Bool
  | .reserved _ | .opened _ _ | .written _ | .unpublished | .locked _ => true
  | _ => false

namespace Operation

def reservation : Operation → Option Nat
  | .idle => none
  | .publishing call stage => if stage.reserves then some call.data.length else none
  | .holding size => some size

def heldBytes (operation : Operation) : Nat := operation.reservation.getD 0

def heldFiles (operation : Operation) : Nat := if operation.reservation.isSome then 1 else 0

end Operation

/-! ### Files -/

def PublishStage.temp (data : Bytes) : PublishStage → Option (Text × Bytes)
  | .opened token length => some (tempName token, data.take length)
  | .written token | .locked token | .released token => some (tempName token, data)
  | .linking token _ _ | .leaving token _ | .cleaning token _ => some (tempName token, data)
  | _ => none

def PublishStage.result : PublishStage → Option Text
  | .leaving _ result | .cleaning _ result | .finished result => result
  | _ => none

def Operation.owned (operation : Operation) (name : Text) : Option DirectoryEntry :=
  match operation with
  | .publishing call stage =>
    if stage.result = some name then some (.file call.data)
    else
      match stage.temp call.data with
      | some (temp, content) => if temp = name then some (.file content) else none
      | none => none
  | _ => none

/-- The temp file of a thread is not the file that it published. -/
def Operation.Apart : Operation → Prop
  | .publishing call stage => ∀ temp, stage.temp call.data = some temp → stage.result ≠ some temp.1
  | _ => True

/-- The account of a state that began with the files `initial`. -/
structure Accounted (initial : Text → Option DirectoryEntry) (state : PublicationState) : Prop where
  bytes : ∃ total, Totals (fun id => (state.operations id).heldBytes) total ∧
    state.reservedBytes = total
  files : ∃ total, Totals (fun id => (state.operations id).heldFiles) total ∧
    state.reservedFiles = total
  directory : ∀ name entry, state.files name = some entry ↔
    initial name = some entry ∨ ∃ id, (state.operations id).owned name = some entry
  exclusive : ∀ id other name, (state.operations id).owned name ≠ none →
    (state.operations other).owned name ≠ none → id = other
  foreign : ∀ id name, (state.operations id).owned name ≠ none → initial name = none
  apart : ∀ id, (state.operations id).Apart

variable {id : Nat} {operation : Operation} {call : PublishCall} {stage : PublishStage}
  {policy : UploadStoragePolicy} {name : Text} {action : PublishAction} {event : PublicationEvent}

section Steps

variable {initial : Text → Option DirectoryEntry} {state next : PublicationState}

/-- The counters follow what one operation reserves. -/
structure Booked (state next : PublicationState) (before after : Operation) : Prop where
  bytes : next.reservedBytes + before.heldBytes = state.reservedBytes + after.heldBytes
  files : next.reservedFiles + before.heldFiles = state.reservedFiles + after.heldFiles

/-- What a step of one thread does to the counters and to the directory. -/
structure Changes (state next : PublicationState) (id : Nat) (operation : Operation) : Prop where
  operations : next.operations = update state.operations id operation
  booked : Booked state next (state.operations id) operation
  kept : ∀ name, (state.operations id).owned name = none → operation.owned name = none →
    next.files name = state.files name
  present : ∀ name entry, operation.owned name = some entry → next.files name = some entry
  gone : ∀ name, (state.operations id).owned name ≠ none → operation.owned name = none →
    next.files name = none
  fresh : ∀ name, operation.owned name ≠ none → (state.operations id).owned name = none →
    state.files name = none
  apart : operation.Apart

theorem Accounted.absent (accounted : Accounted initial state) (free : state.files name = none) :
    initial name = none ∧ ∀ id, (state.operations id).owned name = none := by
  constructor
  · cases found : initial name with
    | none => rfl
    | some entry =>
      have present := (accounted.directory name entry).mpr (.inl found)
      rw [free] at present
      cases present
  · intro id
    cases found : (state.operations id).owned name with
    | none => rfl
    | some entry =>
      have present := (accounted.directory name entry).mpr (.inr ⟨id, found⟩)
      rw [free] at present
      cases present

theorem Accounted.change (accounted : Accounted initial state)
    (changes : Changes state next id operation) : Accounted initial next := by
  have ownedBy : ∀ other name, (next.operations other).owned name =
      if other = id then operation.owned name else (state.operations other).owned name := by
    intro other name
    rw [changes.operations, update_apply]
    split <;> rfl
  have foreign : ∀ name, operation.owned name ≠ none → initial name = none := by
    intro name owned
    by_cases before : (state.operations id).owned name = none
    · exact (accounted.absent (changes.fresh name owned before)).1
    · exact accounted.foreign id name before
  have alone : ∀ name, operation.owned name ≠ none → ∀ other, other ≠ id →
      (state.operations other).owned name = none := by
    intro name owned other differs
    by_cases before : (state.operations id).owned name = none
    · exact (accounted.absent (changes.fresh name owned before)).2 other
    · by_contra twice
      exact differs (accounted.exclusive other id name twice before)
  constructor
  · obtain ⟨total, totals, counted⟩ := accounted.bytes
    refine ⟨_, changes.operations ▸ totals.updateState id operation, ?_⟩
    have atMost := totals.le id
    have balance := changes.booked.bytes
    push_cast [Nat.cast_sub atMost]
    omega
  · obtain ⟨total, totals, counted⟩ := accounted.files
    refine ⟨_, changes.operations ▸ totals.updateState id operation, ?_⟩
    have atMost := totals.le id
    have balance := changes.booked.files
    push_cast [Nat.cast_sub atMost]
    omega
  · intro name entry
    cases owned : operation.owned name with
    | some mine =>
      rw [changes.present name mine owned]
      have notInitial := foreign name (by rw [owned]; exact some_ne_none mine)
      constructor
      · rintro ⟨⟩
        exact .inr ⟨id, by rw [ownedBy, if_pos rfl, owned]⟩
      · rintro (found | ⟨other, found⟩)
        · rw [notInitial] at found
          cases found
        rw [ownedBy] at found
        split at found
        · rw [← owned, found]
        rename_i differs
        rw [alone name (by rw [owned]; exact some_ne_none mine) other differs] at found
        cases found
    | none =>
      by_cases before : (state.operations id).owned name = none
      · rw [changes.kept name before owned, accounted.directory]
        refine or_congr Iff.rfl ⟨?_, ?_⟩
        · rintro ⟨other, found⟩
          refine ⟨other, ?_⟩
          rw [ownedBy]
          split
          · case _ same =>
              rw [same, before] at found
              cases found
          · exact found
        · rintro ⟨other, found⟩
          rw [ownedBy] at found
          split at found
          · rw [owned] at found
            cases found
          · exact ⟨other, found⟩
      · rw [changes.gone name before owned]
        constructor
        · rintro ⟨⟩
        · rintro (found | ⟨other, found⟩)
          · rw [accounted.foreign id name before] at found
            cases found
          rw [ownedBy] at found
          split at found
          · rw [owned] at found
            cases found
          rename_i differs
          have same := accounted.exclusive other id name
            (by rw [found]; exact some_ne_none entry) before
          exact absurd same differs
  · intro left right name isLeft isRight
    rw [ownedBy] at isLeft isRight
    by_cases sameLeft : left = id
    · by_cases sameRight : right = id
      · rw [sameLeft, sameRight]
      rw [if_pos sameLeft] at isLeft
      rw [if_neg sameRight] at isRight
      exact absurd (alone name isLeft right sameRight) isRight
    · rw [if_neg sameLeft] at isLeft
      by_cases sameRight : right = id
      · rw [if_pos sameRight] at isRight
        exact absurd (alone name isRight left sameLeft) isLeft
      · rw [if_neg sameRight] at isRight
        exact accounted.exclusive left right name isLeft isRight
  · intro other name owned
    rw [ownedBy] at owned
    split at owned
    · exact foreign name owned
    · exact accounted.foreign other name owned
  · intro other
    rw [changes.operations, update_apply]
    split
    · exact changes.apart
    · exact accounted.apart other

theorem owned_publishing (call : PublishCall) (stage : PublishStage) (name : Text) :
    (publishing call stage).owned name =
      if stage.result = some name then some (.file call.data)
      else
        match stage.temp call.data with
        | some (temp, content) => if temp = name then some (.file content) else none
        | none => none := rfl

theorem apart_publishing (call : PublishCall) (stage : PublishStage) :
    (publishing call stage).Apart ↔
      ∀ temp, stage.temp call.data = some temp → stage.result ≠ some temp.1 := Iff.rfl

theorem owned_of_nothing
    (noTemp : stage.temp call.data = none) (noResult : stage.result = none) (name : Text) :
    (publishing call stage).owned name = none := by
  rw [owned_publishing, noTemp, noResult, if_neg (some_ne_none name).symm]

variable {temp : Text} {content : Bytes}

theorem owned_of_temp
    (isTemp : stage.temp call.data = some (temp, content)) (noResult : stage.result = none)
    (name : Text) : (publishing call stage).owned name =
      if temp = name then some (.file content) else none := by
  rw [owned_publishing, isTemp, noResult, if_neg (some_ne_none name).symm]

theorem Changes.silent (operations : next.operations = update state.operations id operation)
    (booked : Booked state next (state.operations id) operation)
    (sameFiles : next.files = state.files)
    (present : ∀ name entry, operation.owned name = some entry → state.files name = some entry)
    (sameOwned : operation.owned = (state.operations id).owned) (apart : operation.Apart) :
    Changes state next id operation := by
  constructor
  · exact operations
  · exact booked
  · intro name _ _
    rw [sameFiles]
  · intro name entry owned
    rw [sameFiles]
    exact present name entry owned
  · intro name before after
    rw [sameOwned] at after
    exact absurd after before
  · intro name after before
    rw [sameOwned] at after
    exact absurd before after
  · exact apart

variable {stage later : PublishStage}

section

variable (accounted : Accounted initial state)
include accounted

section

variable (current : state.operations id = .publishing call stage)
  (operations : next.operations = update state.operations id (.publishing call later))
  (booked : Booked state next (.publishing call stage) (.publishing call later))
include current operations booked

theorem Accounted.goOn (sameFiles : next.files = state.files)
    (sameTemp : later.temp call.data = stage.temp call.data)
    (sameResult : later.result = stage.result) : Accounted initial next := by
  have sameOwned : (publishing call later).owned = (state.operations id).owned := by
    funext name
    rw [current, owned_publishing, owned_publishing, sameTemp, sameResult]
  have apart := accounted.apart id
  rw [current] at apart
  apply accounted.change (Changes.silent operations _ sameFiles _ sameOwned _)
  · rw [current]
    exact booked
  · intro name entry owned
    rw [sameOwned] at owned
    exact (accounted.directory name entry).mpr (.inr ⟨id, owned⟩)
  · rw [apart_publishing] at apart ⊢
    rw [sameTemp, sameResult]
    exact apart

theorem Accounted.writeTemp (written : next.files = update state.files temp (some (.file content)))
    (mine : (stage.temp call.data = none ∧ state.files temp = none) ∨
      ∃ before, stage.temp call.data = some (temp, before))
    (noResult : stage.result = none) (isTemp : later.temp call.data = some (temp, content))
    (stillNone : later.result = none) : Accounted initial next := by
  have ownedNow := owned_of_temp isTemp stillNone
  have ownedBefore : ∀ name, name ≠ temp → (publishing call stage).owned name = none := by
    intro name differs
    rcases mine with ⟨noTemp, _⟩ | ⟨before, wasTemp⟩
    · exact owned_of_nothing noTemp noResult name
    · rw [owned_of_temp wasTemp noResult, if_neg (Ne.symm differs)]
  refine accounted.change (?_ : Changes state next id (.publishing call later))
  constructor
  · exact operations
  · rw [current]
    exact booked
  · intro name _ notMine
    rw [ownedNow] at notMine
    split at notMine
    · cases notMine
    · case _ differs => rw [written, update_of_ne (Ne.symm differs)]
  · intro name entry owned
    rw [ownedNow] at owned
    split at owned
    · case _ same =>
        cases owned
        rw [written, same, update_self]
    · cases owned
  · intro name before after
    rw [ownedNow] at after
    rw [current] at before
    split at after
    · cases after
    · case _ differs => exact absurd (ownedBefore name (Ne.symm differs)) before
  · intro name owned before
    rw [ownedNow] at owned
    rw [current] at before
    split at owned
    · case _ same =>
        rcases mine with ⟨_, free⟩ | ⟨content, wasTemp⟩
        · rw [← same]
          exact free
        · rw [owned_of_temp wasTemp noResult, if_pos same] at before
          cases before
    · exact absurd rfl owned
  · rw [apart_publishing, stillNone]
    exact fun found _ absent => (some_ne_none found.1).symm absent

theorem Accounted.dropTemp (removed : next.files = update state.files temp none)
    (wasTemp : stage.temp call.data = some (temp, content))
    (noTemp : later.temp call.data = none) (sameResult : later.result = stage.result) :
    Accounted initial next := by
  have apart := accounted.apart id
  rw [current, apart_publishing] at apart
  have different : stage.result ≠ some temp := apart (temp, content) wasTemp
  have ownedNow : ∀ name, (publishing call later).owned name =
      if stage.result = some name then some (.file call.data) else none := by
    intro name
    rw [owned_publishing, noTemp, sameResult]
  have ownedBefore : ∀ name, name ≠ temp → (publishing call stage).owned name =
      (publishing call later).owned name := by
    intro name differs
    rw [ownedNow, owned_publishing, wasTemp]
    simp only [if_neg (Ne.symm differs)]
  have notNow : (publishing call later).owned temp = none := by
    rw [ownedNow, if_neg different]
  refine accounted.change (?_ : Changes state next id (.publishing call later))
  constructor
  · exact operations
  · rw [current]
    exact booked
  · intro name before _
    rw [removed]
    by_cases same : name = temp
    · rw [current, owned_publishing, wasTemp, same, if_neg different] at before
      simp at before
    · rw [update_of_ne same]
  · intro name entry owned
    have differs : name ≠ temp := by
      rintro rfl
      rw [notNow] at owned
      cases owned
    rw [removed, update_of_ne differs]
    refine (accounted.directory name entry).mpr (.inr ⟨id, ?_⟩)
    rw [current, ownedBefore name differs]
    exact owned
  · intro name before after
    rw [removed]
    by_cases same : name = temp
    · rw [same, update_self]
    · rw [current, ownedBefore name same] at before
      exact absurd after before
  · intro name owned before
    have differs : name ≠ temp := by
      rintro rfl
      exact owned notNow
    rw [current, ownedBefore name differs] at before
    exact absurd before owned
  · rw [apart_publishing, noTemp]
    exact fun found absent => (nomatch absent)

theorem Accounted.link {temp candidate : Text}
    (linked : next.files = update state.files candidate (some (.file call.data)))
    (isTemp : stage.temp call.data = some (temp, call.data)) (noResult : stage.result = none)
    (sameTemp : later.temp call.data = stage.temp call.data)
    (isResult : later.result = some candidate) (free : state.files candidate = none) :
    Accounted initial next := by
  have ownedBefore := owned_of_temp isTemp noResult
  have ownedNow : ∀ name, (publishing call later).owned name =
      if candidate = name then some (.file call.data)
      else (publishing call stage).owned name := by
    intro name
    rw [ownedBefore, owned_publishing, isResult, sameTemp, isTemp]
    simp only [Option.some.injEq]
  refine accounted.change (?_ : Changes state next id (.publishing call later))
  constructor
  · exact operations
  · rw [current]
    exact booked
  · intro name _ notMine
    rw [ownedNow] at notMine
    split at notMine
    · cases notMine
    · case _ differs => rw [linked, update_of_ne (Ne.symm differs)]
  · intro name entry owned
    rw [linked]
    rw [ownedNow] at owned
    split at owned
    · case _ same =>
        cases owned
        rw [← same, update_self]
    rename_i differs
    rw [update_of_ne (Ne.symm differs)]
    refine (accounted.directory name entry).mpr (.inr ⟨id, ?_⟩)
    rw [current]
    exact owned
  · intro name before after
    rw [ownedNow] at after
    split at after
    · cases after
    · rw [current] at before
      exact absurd after before
  · intro name owned before
    rw [ownedNow] at owned
    rw [current] at before
    split at owned
    · case _ same =>
        rw [← same]
        exact free
    · exact absurd before owned
  · rw [apart_publishing, isResult, sameTemp, isTemp]
    rintro _ ⟨⟩ same
    have present : state.files temp = some (.file call.data) := by
      refine (accounted.directory temp _).mpr (.inr ⟨id, ?_⟩)
      rw [current, ownedBefore, if_pos rfl]
    have isCandidate : candidate = temp := Option.some.inj same
    rw [← isCandidate, free] at present
    cases present

end

end

/-! ### The steps keep the account -/

theorem booked_same (reserves : later.reserves = stage.reserves)
    (bytes : next.reservedBytes = state.reservedBytes)
    (files : next.reservedFiles = state.reservedFiles) :
    Booked state next (.publishing call stage) (.publishing call later) := by
  constructor
  · simp only [heldBytes, reservation, reserves, bytes]
  · simp [heldFiles, reservation, reserves, files]

theorem booked_reserve (before : stage.reserves = false) (after : later.reserves = true)
    (bytes : next.reservedBytes = state.reservedBytes + call.data.length)
    (files : next.reservedFiles = state.reservedFiles + 1) :
    Booked state next (.publishing call stage) (.publishing call later) := by
  constructor
  · simp [heldBytes, reservation, before, after, bytes]
  · simp [heldFiles, reservation, before, after, files]

theorem booked_release (before : stage.reserves = true) (after : later.reserves = false)
    (bytes : next.reservedBytes = state.reservedBytes - call.data.length)
    (files : next.reservedFiles = state.reservedFiles - 1) :
    Booked state next (.publishing call stage) (.publishing call later) := by
  constructor
  · simp [heldBytes, reservation, before, after, bytes]
  · simp [heldFiles, reservation, before, after, files]

section

variable (accounted : Accounted initial state)
include accounted

theorem publishStep_accounted (current : state.operations id = .publishing call stage)
    (taken : publishStep policy state id call stage action = some next) :
    Accounted initial next := by
  unfold publishStep at taken
  split at taken
  case h_1 fails =>
    cases taken
    cases fails with
    | true | false => exact accounted.goOn current rfl (booked_same rfl rfl rfl) rfl rfl rfl
  case h_2 scan =>
    split at taken
    · cases taken
    split at taken
    · cases taken
      exact accounted.goOn current rfl (booked_reserve rfl rfl rfl rfl) rfl rfl rfl
    · cases taken
      exact accounted.goOn current rfl (booked_same rfl rfl rfl) rfl rfl rfl
  case h_3 tries token fails =>
    split at taken
    · cases taken
      split <;> exact accounted.goOn current rfl (booked_same rfl rfl rfl) rfl rfl rfl
    rename_i absent
    split at taken
    · cases taken
      exact accounted.goOn current rfl (booked_same rfl rfl rfl) rfl rfl rfl
    · cases taken
      exact accounted.writeTemp current rfl (booked_same rfl rfl rfl) rfl
        (.inl ⟨rfl, not_not.mp absent⟩) rfl (by rw [PublishStage.temp, List.take_zero]) rfl
  case h_4 token length count =>
    cases taken
    exact accounted.writeTemp current rfl (booked_same rfl rfl rfl) rfl (.inr ⟨_, rfl⟩) rfl rfl rfl
  case h_5 token length =>
    cases taken
    exact accounted.writeTemp current rfl (booked_same rfl rfl rfl) rfl (.inr ⟨_, rfl⟩) rfl rfl rfl
  case h_6 token length =>
    cases taken
    exact accounted.dropTemp current rfl (booked_same rfl rfl rfl) rfl rfl rfl rfl
  case h_7 =>
    split at taken
    · cases taken
    · cases taken
      exact accounted.goOn current rfl (booked_release rfl rfl rfl rfl) rfl rfl rfl
  case h_8 token =>
    split at taken
    · cases taken
    · cases taken
      exact accounted.goOn current rfl (booked_same rfl rfl rfl) rfl rfl rfl
  case h_9 token =>
    cases taken
    exact accounted.goOn current rfl (booked_release rfl rfl rfl rfl) rfl rfl rfl
  case h_10 token scan =>
    split at taken
    all_goals
      cases taken
      exact accounted.goOn current rfl (booked_same rfl rfl rfl) rfl rfl rfl
  case h_11 token candidate left suffix fails =>
    have present : state.files (tempName token) = some (.file call.data) := by
      refine (accounted.directory _ _).mpr (.inr ⟨id, ?_⟩)
      rw [current, owned_of_temp rfl rfl, if_pos rfl]
    split at taken
    · cases taken
      exact accounted.goOn current rfl (booked_same rfl rfl rfl) rfl rfl rfl
    split at taken
    · split at taken
      all_goals
        cases taken
        exact accounted.goOn current rfl (booked_same rfl rfl rfl) rfl rfl rfl
    rename_i free
    rw [present] at taken
    cases taken
    exact accounted.link current rfl (booked_same rfl rfl rfl) rfl rfl rfl rfl rfl (not_not.mp free)
  case h_12 token result =>
    cases taken
    exact accounted.goOn current rfl (booked_same rfl rfl rfl) rfl rfl rfl
  case h_13 token result =>
    cases taken
    exact accounted.dropTemp current rfl (booked_same rfl rfl rfl) rfl rfl rfl rfl
  case h_14 => cases taken

theorem Accounted.goOnEmpty (operations : next.operations = update state.operations id operation)
    (booked : Booked state next (state.operations id) operation)
    (sameFiles : next.files = state.files)
    (before : ∀ name, (state.operations id).owned name = none)
    (after : ∀ name, operation.owned name = none) (apart : operation.Apart) :
    Accounted initial next := by
  refine accounted.change (Changes.silent operations booked sameFiles ?_ ?_ apart)
  · intro name entry owned
    rw [after] at owned
    cases owned
  · funext name
    rw [before, after]

theorem publicationStep_accounted
    (taken : publicationStep policy state event = some next) : Accounted initial next := by
  unfold publicationStep at taken
  cases event with
  | call id call inside =>
    simp only at taken
    split at taken
    · case _ current =>
        cases taken
        refine accounted.goOnEmpty rfl ?_ rfl ?_ ?_ ?_
        · rw [current]
          cases inside with
          | true | false => exact ⟨rfl, rfl⟩
        · intro name
          rw [current]
          rfl
        · intro name
          cases inside with
          | true | false => exact owned_of_nothing rfl rfl name
        · rw [apart_publishing]
          cases inside with
          | true | false => exact fun temp absent => nomatch absent
    · cases taken
  | publish id action =>
    simp only at taken
    split at taken
    · case _ current => exact publishStep_accounted accounted current taken
    · cases taken
  | enterReservation id size scan =>
    simp only at taken
    split at taken
    · case _ current =>
        split at taken
        · cases taken
        split at taken
        · cases taken
          exact accounted
        · cases taken
          refine accounted.goOnEmpty rfl ?_ rfl ?_ (fun name => rfl) trivial
          · rw [current]
            exact ⟨by simp [heldBytes, reservation,
              PublicationState.become, PublicationState.addReservation],
              by simp [heldFiles, reservation,
              PublicationState.become, PublicationState.addReservation]⟩
          · intro name
            rw [current]
            rfl
    · cases taken
  | leaveReservation id =>
    simp only at taken
    split at taken
    · case _ size current =>
        split at taken
        · cases taken
        · cases taken
          refine accounted.goOnEmpty rfl ?_ rfl ?_ (fun name => rfl) trivial
          · rw [current]
            exact ⟨by simp [heldBytes, reservation,
              PublicationState.become, PublicationState.giveBack],
              by simp [heldFiles, reservation,
              PublicationState.become, PublicationState.giveBack]⟩
          · intro name
            rw [current]
            rfl
    · cases taken

end

theorem accounted_start (initial : Text → Option DirectoryEntry) :
    Accounted initial (.start initial) := by
  constructor
  · exact ⟨0, .zero, rfl⟩
  · exact ⟨0, .zero, rfl⟩
  · intro name entry
    constructor
    · exact .inl
    · rintro (found | ⟨id, owned⟩)
      · exact found
      · cases owned
  · exact fun id other name owned => absurd rfl owned
  · exact fun id name owned => absurd rfl owned
  · exact fun id => trivial

end Steps

/-! ### Runs -/

def PublicationState.Published (state : PublicationState) (id : Nat) (name : Text)
    (data : Bytes) : Prop :=
  ∃ call stage, state.operations id = .publishing call stage ∧ stage.result = some name ∧
    call.data = data

def PublicationState.HasTemp (state : PublicationState) (id : Nat) (name : Text)
    (content : Bytes) : Prop :=
  ∃ call stage, state.operations id = .publishing call stage ∧
    stage.temp call.data = some (name, content)

def PublicationState.Reserves (state : PublicationState) (id size : Nat) : Prop :=
  (state.operations id).reservation = some size

/-- What holds of the counters and of the directory in every state reached. -/
structure PublishedSafely (initial : Text → Option DirectoryEntry) (state : PublicationState) :
    Prop where
  reservedBytes : ∃ total, Totals (fun id => (state.operations id).heldBytes) total ∧
    state.reservedBytes = total
  reservedFiles : ∃ total, Totals (fun id => (state.operations id).heldFiles) total ∧
    state.reservedFiles = total
  settled : (∀ id size, ¬ state.Reserves id size) →
    state.reservedBytes = 0 ∧ state.reservedFiles = 0
  directory : ∀ name entry, state.files name = some entry ↔
    initial name = some entry ∨ (∃ id data, state.Published id name data ∧ entry = .file data) ∨
      ∃ id content, state.HasTemp id name content ∧ entry = .file content
  ownName : ∀ id name data, state.Published id name data → initial name = none ∧
    ∀ other content, (state.Published other name content → other = id) ∧
      ¬ state.HasTemp other name content

theorem owned_iff (apart : operation.Apart) {entry : DirectoryEntry} :
    operation.owned name = some entry ↔ ∃ call stage, operation = .publishing call stage ∧
      (stage.result = some name ∧ entry = .file call.data ∨
        ∃ content, stage.temp call.data = some (name, content) ∧ entry = .file content) := by
  cases operation with
  | idle | holding =>
    constructor
    · rintro ⟨⟩
    · rintro ⟨_, _, ⟨⟩, _⟩
  | publishing call stage =>
    rw [owned_publishing]
    constructor
    · intro owned
      refine ⟨call, stage, rfl, ?_⟩
      split at owned
      · case _ isResult =>
          cases owned
          exact .inl ⟨isResult, rfl⟩
      split at owned
      · case _ temp content isTemp =>
          split at owned
          · case _ same =>
              cases owned
              exact .inr ⟨content, same ▸ isTemp, rfl⟩
          · cases owned
      · cases owned
    · rintro ⟨_, _, ⟨⟩, ⟨isResult, rfl⟩ | ⟨content, isTemp, rfl⟩⟩
      · rw [if_pos isResult]
      · rw [if_neg (apart _ isTemp), isTemp]
        simp only [if_true]

theorem Accounted.publishedSafely {initial : Text → Option DirectoryEntry}
    {state : PublicationState} (accounted : Accounted initial state) :
    PublishedSafely initial state := by
  have nothing : (∀ id size, ¬ state.Reserves id size) →
      ∀ id, (state.operations id).reservation = none := by
    intro idle id
    cases found : (state.operations id).reservation with
    | none => rfl
    | some size => exact absurd found (idle id size)
  have ownedPublished : ∀ id name data, state.Published id name data →
      (state.operations id).owned name = some (.file data) := by
    rintro id name data ⟨call, stage, current, isResult, rfl⟩
    exact (owned_iff (accounted.apart id)).mpr ⟨call, stage, current, .inl ⟨isResult, rfl⟩⟩
  have ownedTemp : ∀ id name content, state.HasTemp id name content →
      (state.operations id).owned name = some (.file content) := by
    rintro id name content ⟨call, stage, current, isTemp⟩
    exact (owned_iff (accounted.apart id)).mpr ⟨call, stage, current, .inr ⟨content, isTemp, rfl⟩⟩
  constructor
  · exact accounted.bytes
  · exact accounted.files
  · intro idle
    obtain ⟨bytes, byteTotals, sameBytes⟩ := accounted.bytes
    obtain ⟨files, fileTotals, sameFiles⟩ := accounted.files
    have noBytes := byteTotals.eq_zero fun id => by
      rw [heldBytes, nothing idle id, getD_none]
    have noFiles := fileTotals.eq_zero fun id => by
      rw [heldFiles, nothing idle id, isSome_none, if_neg Bool.false_ne_true]
    rw [sameBytes, sameFiles, noBytes, noFiles]
    exact ⟨rfl, rfl⟩
  · intro name entry
    rw [accounted.directory]
    refine or_congr_right ⟨?_, ?_⟩
    · rintro ⟨id, owned⟩
      obtain ⟨call, stage, current, found⟩ := (owned_iff (accounted.apart id)).mp owned
      rcases found with ⟨isResult, rfl⟩ | ⟨content, isTemp, rfl⟩
      · exact .inl ⟨id, call.data, ⟨call, stage, current, isResult, rfl⟩, rfl⟩
      · exact .inr ⟨id, content, ⟨call, stage, current, isTemp⟩, rfl⟩
    · rintro (⟨id, data, published, rfl⟩ | ⟨id, content, temp, rfl⟩)
      · exact ⟨id, ownedPublished id name data published⟩
      · exact ⟨id, ownedTemp id name content temp⟩
  · intro id name data published
    have owned := ownedPublished id name data published
    have mine : (state.operations id).owned name ≠ none := by
      rw [owned]
      exact some_ne_none _
    refine ⟨accounted.foreign id name mine, fun other content => ⟨fun again => ?_, fun temp => ?_⟩⟩
    · refine accounted.exclusive other id name ?_ mine
      rw [ownedPublished other name content again]
      exact some_ne_none _
    · have same := accounted.exclusive other id name
        (by rw [ownedTemp other name content temp]; exact some_ne_none _) mine
      obtain ⟨call, stage, current, isResult, rfl⟩ := published
      obtain ⟨_, _, sameCurrent, isTemp⟩ := temp
      rw [same, current] at sameCurrent
      cases sameCurrent
      have apart := accounted.apart id
      rw [current, apart_publishing] at apart
      exact apart (name, content) isTemp isResult

variable {state next : PublicationState}

theorem publishStep_result (taken : publishStep policy state id call stage action = some next) :
    ∃ later, next.operations = update state.operations id (.publishing call later) ∧
      ∀ name, stage.result = some name → later.result = some name := by
  unfold publishStep at taken
  split at taken
  case h_12 token result =>
    cases taken
    exact ⟨_, rfl, fun name same => same⟩
  case h_13 token result =>
    cases taken
    exact ⟨_, rfl, fun name same => same⟩
  case h_14 => cases taken
  all_goals
    repeat' split at taken
    all_goals
      cases taken
      try exact ⟨_, rfl, fun name absent => nomatch absent⟩

theorem publicationStep_published (taken : publicationStep policy state event = some next)
    {data : Bytes} (published : state.Published id name data) :
    next.Published id name data := by
  obtain ⟨call, stage, current, isResult, rfl⟩ := published
  have others : ∀ other operation, state.operations other = .idle ∨
      (∃ size, state.operations other = .holding size) →
      next.operations = update state.operations other operation →
      next.Published id name call.data := by
    intro other operation idle updated
    have differs : id ≠ other := by
      rintro rfl
      rw [current] at idle
      rcases idle with idle | ⟨size, holding⟩
      · cases idle
      · cases holding
    exact ⟨call, stage, by rw [updated, update_of_ne differs, current], isResult, rfl⟩
  unfold publicationStep at taken
  cases event with
  | call other otherCall inside =>
    simp only at taken
    split at taken
    · case _ idle =>
        cases taken
        exact others other _ (.inl idle) rfl
    · cases taken
  | publish other action =>
    simp only at taken
    split at taken
    · case _ otherCall otherStage otherCurrent =>
        obtain ⟨later, updated, keeps⟩ := publishStep_result taken
        by_cases same : id = other
        · rw [← same, current] at otherCurrent
          cases otherCurrent
          refine ⟨call, later, ?_, keeps name isResult, rfl⟩
          rw [updated, same, update_self]
        · exact ⟨call, stage, by rw [updated, update_of_ne same, current], isResult, rfl⟩
    · cases taken
  | enterReservation other size scan =>
    simp only at taken
    split at taken
    · case _ idle =>
        split at taken
        · cases taken
        split at taken
        · cases taken
          exact ⟨call, stage, current, isResult, rfl⟩
        · cases taken
          exact others other _ (.inl idle) rfl
    · cases taken
  | leaveReservation other =>
    simp only at taken
    split at taken
    · case _ size holding =>
        split at taken
        · cases taken
        · cases taken
          exact others other _ (.inr ⟨size, holding⟩) rfl
    · cases taken

/-- In every run the counters are the reservations in flight, the directory holds
nothing but what was there, what was published and temp files on their way, and what
was published before stays as it is. -/
theorem run_publishedSafely (policy : UploadStoragePolicy)
    (initial : Text → Option DirectoryEntry) (first rest : List PublicationEvent)
    (middle final : PublicationState)
    (reached : run (publicationStep policy) (.start initial) first = some middle)
    (goesOn : run (publicationStep policy) middle rest = some final) :
    PublishedSafely initial final ∧
      ∀ id name data, middle.Published id name data →
        final.Published id name data ∧ final.files name = some (.file data) := by
  have atMiddle : Accounted initial middle :=
    run_invariant_of_step (Accounted initial)
      (fun _ _ _ accounted taken => publicationStep_accounted accounted taken)
      (accounted_start initial) reached
  have accounted : Accounted initial final :=
    run_invariant_of_step (Accounted initial)
      (fun _ _ _ accounted taken => publicationStep_accounted accounted taken) atMiddle goesOn
  refine ⟨accounted.publishedSafely, fun id name data published => ?_⟩
  have still : final.Published id name data :=
    run_invariant_of_step (fun state => state.Published id name data)
      (fun _ _ _ published taken => publicationStep_published taken published) published goesOn
  refine ⟨still, (accounted.publishedSafely.directory name (.file data)).mpr ?_⟩
  exact .inr (.inl ⟨id, data, still, rfl⟩)

def racingUploads : List PublicationEvent :=
  let call : PublishCall := { name := ['a'], data := [1, 2], maxAttempts := 64 }
  let scan : Scan := some
    ({ totalBytes := 0, fileCount := 0 }, { freeBytes := 100, unallocatedEncryptedBytes := 0 })
  let prepared (id : Nat) (token : Text) : List PublicationEvent :=
    [ .call id call true, .publish id (.makeDirectory false), .publish id (.reserve scan),
      .publish id (.openTemp token false), .publish id (.writeTemp 1), .publish id .closeTemp ]
  let linked (id : Nat) : List PublicationEvent :=
    [ .publish id .enterLock, .publish id .releaseReservation, .publish id (.checkAgain scan),
      .publish id (.linkTemp ['x'] false) ]
  prepared 0 ['p'] ++ prepared 1 ['q'] ++ linked 0 ++ [.publish 0 .leaveLock] ++ linked 1

def racingEnd : List PublicationEvent :=
  [ .publish 1 (.linkTemp [] false), .publish 1 .leaveLock, .publish 1 .unlinkTemp,
    .publish 0 .unlinkTemp ]

def unlimited : UploadStoragePolicy :=
  { maxTotalBytes := none, maxFileCount := none, reservedFreeBytes := 0 }

theorem racingUploads_publishedSafely :
    ∃ middle final,
      run (publicationStep unlimited) (.start fun _ => none) racingUploads = some middle ∧
      run (publicationStep unlimited) middle racingEnd = some final ∧
      PublishedSafely (fun _ => none) final ∧
      ∀ id name data, middle.Published id name data →
        final.Published id name data ∧ final.files name = some (.file data) := by
  have finishes : ((run (publicationStep unlimited) (.start fun _ => none) racingUploads).bind
      fun middle => run (publicationStep unlimited) middle racingEnd).isSome = true := by
    decide +kernel
  obtain ⟨final, whole⟩ := Option.isSome_iff_exists.mp finishes
  obtain ⟨middle, reached, goesOn⟩ := Option.bind_eq_some_iff.mp whole
  exact ⟨middle, final, reached, goesOn,
    run_publishedSafely unlimited
      (fun _ => none) racingUploads racingEnd middle final reached goesOn⟩

end XFerry.Storage
