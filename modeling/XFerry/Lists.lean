/-
Lists and tables: deciding what holds of the members of a list, the first place where a
pattern occurs, lists that are woven together, the ranges of a list, and what is in a table
after a change.

A statement about the members is decided by going through the list.  It could also be
decided by going through every character there is, and that comes to no end.
-/

import Mathlib

namespace XFerry

instance (priority := 2000) decidableForallMem {α : Type} (P : α → Prop) [DecidablePred P]
    (items : List α) : Decidable (∀ item ∈ items, P item) := List.decidableBAll P items

instance (priority := 2000) decidableExistsMem {α : Type} (P : α → Prop) [DecidablePred P]
    (items : List α) : Decidable (∃ item ∈ items, P item) := List.decidableBEx P items

instance (priority := 2000) decidableMem {α : Type} [DecidableEq α] (item : α) (items : List α) :
    Decidable (item ∈ items) := inferInstance

theorem update_eq_some {Key Value : Type} [DecidableEq Key] {table : Key → Option Value}
    {key other : Key} {entry : Option Value} {value : Value}
    (found : Function.update table key entry other = some value) :
    other = key ∧ entry = some value ∨ other ≠ key ∧ table other = some value := by
  rcases eq_or_ne other key with rfl | different
  · rw [Function.update_self] at found
    exact .inl ⟨rfl, found⟩
  · rw [Function.update_of_ne different] at found
    exact .inr ⟨different, found⟩

end XFerry

namespace XFerry.FirstOccurrence

open List

variable {α : Type} [DecidableEq α]

def find (pattern : List α) : List α → Option Nat
  | [] => if pattern = [] then some 0 else none
  | item :: rest =>
    if pattern <+: item :: rest then some 0 else (find pattern rest).map (· + 1)

variable {pattern data more : List α} {position : Nat}

section

variable (found : find pattern data = some position)
include found

theorem find_le : position + pattern.length ≤ data.length := by
  induction data generalizing position with
  | nil =>
    by_cases empty : pattern = []
    · simp only [find, if_pos empty, Option.some.injEq] at found
      simp [empty, ← found]
    · simp [find, empty] at found
  | cons item rest ih =>
    by_cases here : pattern <+: item :: rest
    · simp only [find, if_pos here, Option.some.injEq] at found
      have fits := here.length_le
      omega
    simp only [find, if_neg here, Option.map_eq_some_iff] at found
    obtain ⟨earlier, located, rfl⟩ := found
    have fits := ih located
    simp only [length_cons]
    omega

theorem prefix_of_find : pattern <+: data.drop position := by
  induction data generalizing position with
  | nil =>
    by_cases empty : pattern = []
    · simp [empty]
    · simp [find, empty] at found
  | cons item rest ih =>
    by_cases here : pattern <+: item :: rest
    · simp only [find, if_pos here, Option.some.injEq] at found
      rw [← found]
      exact here
    simp only [find, if_neg here, Option.map_eq_some_iff] at found
    obtain ⟨earlier, located, rfl⟩ := found
    exact ih located

theorem split_of_find :
    data = data.take position ++ pattern ++ data.drop (position + pattern.length) := by
  obtain ⟨after, joined⟩ := prefix_of_find found
  have rest : data.drop (position + pattern.length) = after := by
    rw [← drop_drop, ← joined, drop_left]
  rw [rest, append_assoc, joined, take_append_drop]

end

omit [DecidableEq α] in
/-- Where the pattern starts an extension, it starts the list or reaches past it. -/
theorem prefix_append_iff (fits : pattern.length ≤ data.length) :
    pattern <+: data ++ more ↔ pattern <+: data := by
  constructor
  · intro extended
    exact prefix_of_prefix_length_le extended (prefix_append data more) fits
  · intro here
    exact here.trans (prefix_append data more)

theorem find_append (found : find pattern data = some position) :
    find pattern (data ++ more) = some position := by
  induction data generalizing position with
  | nil =>
    by_cases empty : pattern = []
    · rw [← found, nil_append]
      cases more with
      | nil | cons => simp [find, empty]
    · simp [find, empty] at found
  | cons item rest ih =>
    have fits := find_le found
    by_cases here : pattern <+: item :: rest
    · simp only [find, if_pos here, Option.some.injEq] at found
      have extended : pattern <+: item :: (rest ++ more) :=
        here.trans (prefix_append (item :: rest) more)
      simp only [cons_append, find, if_pos extended, found]
    · have absent : ¬ pattern <+: item :: (rest ++ more) := by
        intro extended
        exact here ((prefix_append_iff (by omega)).mp extended)
      simp only [find, if_neg here, Option.map_eq_some_iff] at found
      obtain ⟨earlier, located, rfl⟩ := found
      simp only [cons_append, find, if_neg absent, ih located, Option.map_some]

theorem find_eq_none_of_append (missing : find pattern (data ++ more) = none) :
    find pattern data = none := by
  cases earlier : find pattern data with
  | none => rfl
  | some position =>
    rw [find_append earlier] at missing
    cases missing

/-- An occurrence that appears with an extension reaches into it. -/
theorem length_lt_of_find_append (missing : find pattern data = none)
    (found : find pattern (data ++ more) = some position) :
    data.length < position + pattern.length := by
  induction data generalizing position with
  | nil =>
    by_cases empty : pattern = []
    · simp [find, empty] at missing
    have positive := length_pos_iff.mpr empty
    simp only [length_nil]
    omega
  | cons item rest ih =>
    by_cases here : pattern <+: item :: rest
    · simp [find, here] at missing
    simp only [find, if_neg here, Option.map_eq_none_iff] at missing
    rw [cons_append, find] at found
    split at found
    · case isTrue extended =>
      by_contra short
      have fits : pattern.length ≤ (item :: rest).length := by
        omega
      exact here ((prefix_append_iff fits).mp extended)
    · obtain ⟨earlier, located, rfl⟩ := Option.map_eq_some_iff.mp found
      have reaches := ih missing located
      simp only [length_cons]
      omega

theorem find_of_find_append (found : find pattern (data ++ more) = some position)
    (fits : position + pattern.length ≤ data.length) : find pattern data = some position := by
  cases earlier : find pattern data with
  | none =>
    have reaches := length_lt_of_find_append earlier found
    omega
  | some other =>
    rw [find_append earlier] at found
    exact found

/-- A pattern is first found where it is put, if its first item does not occur before. -/
theorem find_of_not_mem {first : α} {rest : List α} (absent : first ∉ data) (more : List α) :
    find (first :: rest) (data ++ (first :: rest) ++ more) = some data.length := by
  induction data with
  | nil =>
    have here : first :: rest <+: first :: (rest ++ more) := ⟨more, rfl⟩
    simp only [nil_append, cons_append, find, if_pos here, length_nil]
  | cons item data ih =>
    have later : first ∉ data := fun member => absent (mem_cons_of_mem _ member)
    have elsewhere : ¬ first :: rest <+: item :: (data ++ (first :: rest) ++ more) := by
      intro here
      rw [cons_prefix_cons] at here
      exact absent (here.1 ▸ mem_cons_self ..)
    rw [cons_append, cons_append, find, if_neg elsewhere, ih later]
    rfl

/-- A pattern is found where it stands, if it begins nowhere before. -/
theorem find_eq_of_first {before : List α} (here : pattern <+: more)
    (nowhere : ∀ start < before.length, ¬ pattern <+: (before ++ more).drop start) :
    find pattern (before ++ more) = some before.length := by
  induction before with
  | nil =>
    rw [nil_append]
    cases more with
    | nil => rw [find, if_pos (prefix_nil.mp here), length_nil]
    | cons item rest => rw [find, if_pos here, length_nil]
  | cons item rest ih =>
    have elsewhere : ¬ pattern <+: item :: (rest ++ more) := nowhere 0 (Nat.succ_pos rest.length)
    have later := ih fun start inside => nowhere (start + 1) (Nat.succ_lt_succ inside)
    rw [cons_append, find, if_neg elsewhere, later]
    rfl

end XFerry.FirstOccurrence

namespace XFerry

open List

inductive Weave {α : Type} : List α → List α → List α → Prop where
  | nil : Weave [] [] []
  | left {item : α} {left right whole : List α} (rest : Weave left right whole) :
      Weave (item :: left) right (item :: whole)
  | right {item : α} {left right whole : List α} (rest : Weave left right whole) :
      Weave left (item :: right) (item :: whole)

namespace Weave

variable {α β : Type} {left right whole : List α}

section

variable (woven : Weave left right whole)
include woven

theorem mem_iff {item : α} : item ∈ whole ↔ item ∈ left ∨ item ∈ right := by
  induction woven with
  | nil => simp
  | left rest ih => rw [mem_cons, mem_cons, ih, or_assoc]
  | right rest ih => rw [mem_cons, mem_cons, ih, or_left_comm]

theorem filterMap (change : α → Option β) :
    Weave (left.filterMap change) (right.filterMap change) (whole.filterMap change) := by
  induction woven with
  | nil => exact .nil
  | @left item _ _ _ rest ih =>
    cases changed : change item with
    | none =>
      rw [filterMap_cons_none changed, filterMap_cons_none changed]
      exact ih
    | some other =>
      rw [filterMap_cons_some changed, filterMap_cons_some changed]
      exact .left ih
  | @right item _ _ _ rest ih =>
    cases changed : change item with
    | none =>
      rw [filterMap_cons_none changed, filterMap_cons_none changed]
      exact ih
    | some other =>
      rw [filterMap_cons_some changed, filterMap_cons_some changed]
      exact .right ih

theorem map (change : α → β) : Weave (left.map change) (right.map change) (whole.map change) := by
  have changed := woven.filterMap fun item => some (change item)
  rw [filterMap_eq_map'] at changed
  exact changed

end

theorem eq_left (woven : Weave left [] whole) : whole = left := by
  generalize same : ([] : List α) = right at woven
  induction woven with
  | nil => rfl
  | left rest ih => rw [ih same]
  | right rest ih => cases same

/-- A property that the items on the right do not have picks those of the left. -/
theorem filter_left (woven : Weave left right whole) {kept : α → Bool}
    (dropped : ∀ item ∈ right, kept item = false) : whole.filter kept = left.filter kept := by
  induction woven with
  | nil => rfl
  | left rest ih => rw [filter_cons, filter_cons, ih dropped]
  | @right item _ _ _ rest ih =>
    have isDropped : ¬ kept item = true := by
      rw [dropped item mem_cons_self]
      exact Bool.false_ne_true
    rw [filter_cons_of_neg isDropped]
    exact ih fun other member => dropped other (mem_cons_of_mem item member)

theorem any_eq (woven : Weave left right whole) (holds : α → Bool) :
    whole.any holds = (left.any holds || right.any holds) := by
  induction woven with
  | nil => rfl
  | left rest ih => rw [any_cons, any_cons, ih, Bool.or_assoc]
  | right rest ih => rw [any_cons, any_cons, ih, Bool.or_left_comm]

/-- A fold over a state in two parts, where the items on the left change the one part and
those on the right the other. -/
theorem foldlM_eq {ε σ τ ρ : Type} {step : σ → α → Except ε σ} {stepLeft : τ → α → Except ε τ}
    {stepRight : ρ → α → Except ε ρ} (join : τ → ρ → σ) (woven : Weave left right whole)
    (leftSteps : ∀ item ∈ left, ∀ first second,
      step (join first second) item = (stepLeft first item).map fun next => join next second)
    (rightSteps : ∀ item ∈ right, ∀ first second next,
      stepRight second item = .ok next → step (join first second) item = .ok (join first next))
    {first : τ} {second final : ρ} (folded : right.foldlM stepRight second = .ok final) :
    whole.foldlM step (join first second) =
      (left.foldlM stepLeft first).map fun last => join last final := by
  induction woven generalizing first second with
  | nil =>
    cases folded
    rfl
  | @left item _ _ _ rest ih =>
    rw [foldlM_cons, foldlM_cons, leftSteps item mem_cons_self]
    cases stepped : stepLeft first item with
    | error failure => rfl
    | ok next =>
      exact ih (fun other member => leftSteps other (mem_cons_of_mem item member)) rightSteps folded
  | @right item _ _ _ rest ih =>
    rw [foldlM_cons] at folded
    cases stepped : stepRight second item with
    | error failure =>
      rw [stepped] at folded
      cases folded
    | ok next =>
      rw [stepped] at folded
      rw [foldlM_cons, rightSteps item mem_cons_self first second next stepped]
      refine ih leftSteps (fun other member => ?_) folded
      exact rightSteps other (mem_cons_of_mem item member)

end Weave

end XFerry

namespace XFerry.Region

open List

variable {α : Type}

def slice (data : List α) (offset length : Nat) : List α := (data.drop offset).take length

/-- The range that starts at `offset` is replaced by `bytes`. -/
def overlay (data : List α) (offset : Nat) (bytes : List α) : List α :=
  data.take offset ++ bytes ++ data.drop (offset + bytes.length)

variable {data : List α} {bytes : List α}

theorem length_overlay {offset : Nat} (inside : offset + bytes.length ≤ data.length) :
    (overlay data offset bytes).length = data.length := by
  simp only [overlay, length_append, length_take, length_drop]
  omega

theorem length_slice {offset length : Nat}
    (inside : offset + length ≤ data.length) : (slice data offset length).length = length := by
  simp only [slice, length_take, length_drop]
  omega

theorem slice_overlay_same {offset : Nat} (inside : offset + bytes.length ≤ data.length) :
    slice (overlay data offset bytes) offset bytes.length = bytes := by
  have prefixLength : (data.take offset).length = offset := by
    rw [length_take]
    omega
  unfold slice overlay
  rw [append_assoc, drop_append_of_le_length (by omega),
    drop_of_length_le (by omega),
    nil_append, take_left]

variable {offset start length : Nat}

theorem slice_overlay_before
    (inside : offset + bytes.length ≤ data.length) (before : start + length ≤ offset) :
    slice (overlay data offset bytes) start length = slice data start length := by
  have prefixLength : (data.take offset).length = offset := by
    rw [length_take]
    omega
  unfold slice overlay
  rw [append_assoc, drop_append_of_le_length (by omega),
    take_append_of_le_length (by rw [length_drop]; omega), drop_take,
    take_take, Nat.min_eq_left (by omega)]

theorem slice_overlay_after
    (inside : offset + bytes.length ≤ data.length) (after : offset + bytes.length ≤ start) :
    slice (overlay data offset bytes) start length = slice data start length := by
  have prefixLength : (data.take offset ++ bytes).length = offset + bytes.length := by
    rw [length_append, length_take]
    omega
  unfold slice overlay
  rw [drop_append, prefixLength, drop_of_length_le (by omega), nil_append,
    drop_drop, Nat.add_sub_cancel' after]

end XFerry.Region
