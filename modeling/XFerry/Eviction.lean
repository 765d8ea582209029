/-
Eviction from a list: while what is left exceeds its bounds, the first item that is not
pinned is taken.

What is taken is a prefix of the items that are not pinned, and each item is taken for want
of room without the earlier ones only.
-/

import Mathlib

namespace XFerry.Eviction

open List

variable {α : Type} (pinned : α → Bool) (exceeds : Nat → Nat → Bool) (size : α → Nat)

def total (items : List α) : Nat := (items.map size).sum

def evict : Nat → List α → List α
  | 0, _ => []
  | rounds + 1, items =>
    if items ≠ [] ∧ exceeds items.length (total size items) = true then
      match items.findIdx? fun item => !pinned item with
      | none => []
      | some index =>
        match items[index]? with
        | none => []
        | some first => first :: evict rounds (items.eraseIdx index)
    else []

variable {pinned exceeds size}

theorem total_append (first second : List α) :
    total size (first ++ second) = total size first + total size second := by
  unfold total
  rw [map_append, sum_append]

theorem total_cons (item : α) (items : List α) :
    total size (item :: items) = size item + total size items := by
  unfold total
  rw [map_cons, sum_cons]

/-- The items before the first that is not pinned are pinned. -/
structure Splits (pinned : α → Bool) (items : List α) (index : Nat) (before : List α) (first : α)
    (after : List α) : Prop where
  isItems : items = before ++ first :: after
  isIndex : index = before.length
  free : pinned first = false
  allPinned : ∀ item ∈ before, pinned item = true

variable {index : Nat}

theorem splits_of_findIdx? {items : List α}
    (found : (items.findIdx? fun item => !pinned item) = some index) :
    ∃ before first after, Splits pinned items index before first after := by
  induction items generalizing index with
  | nil => cases found
  | cons item rest ih =>
    rw [findIdx?_cons] at found
    split at found
    · case _ free =>
        cases found
        refine ⟨[], item, rest, rfl, rfl, ?_, nofun⟩
        rw [← Bool.not_eq_true']
        exact free
    rename_i held
    obtain ⟨later, isLater, rfl⟩ := Option.map_eq_some_iff.mp found
    obtain ⟨before, first, after, splits⟩ := ih isLater
    refine ⟨item :: before, first, after, ?_, ?_, splits.free, ?_⟩
    · rw [splits.isItems, cons_append]
    · rw [splits.isIndex, length_cons]
    · intro other member
      rcases mem_cons.mp member with rfl | earlier
      · rw [Bool.not_eq_true', Bool.not_eq_false] at held
        exact held
      · exact splits.allPinned other earlier

variable {items before after : List α}

theorem Splits.getElem? {first : α}
    (splits : Splits pinned items index before first after) : items[index]? = some first := by
  rw [splits.isItems, splits.isIndex, getElem?_append_right (Nat.le_refl _), Nat.sub_self]
  rfl

theorem Splits.eraseIdx {first : α} (splits : Splits pinned items index before first after) :
    items.eraseIdx index = before ++ after := by
  rw [splits.isItems, splits.isIndex, eraseIdx_append_of_length_le (Nat.le_refl _),
    Nat.sub_self, eraseIdx_cons_zero]

theorem Splits.filter {first : α} (splits : Splits pinned items index before first after) :
    items.filter (fun item => !pinned item) =
      first :: (before ++ after).filter fun item => !pinned item := by
  have none : before.filter (fun item => !pinned item) = [] := by
    rw [filter_eq_nil_iff]
    intro item member
    rw [splits.allPinned item member]
    exact Bool.false_ne_true
  rw [splits.isItems, filter_append, filter_append, none, nil_append,
    nil_append, filter_cons_of_pos]
  rw [splits.free]
  rfl

/-- What one round does: it takes the first item that is not pinned, if there is one and what
is left exceeds the bounds. -/
theorem evict_succ (rounds : Nat) (items : List α) :
    (∃ index before first after, Splits pinned items index before first after ∧
      exceeds items.length (total size items) = true ∧
      evict pinned exceeds size (rounds + 1) items =
        first :: evict pinned exceeds size rounds (before ++ after)) ∨
    evict pinned exceeds size (rounds + 1) items = [] ∧
      (exceeds items.length (total size items) = false ∨
        items.filter (fun item => !pinned item) = []) := by
  rw [evict]
  split
  · case _ more =>
      split
      · case _ none =>
          refine .inr ⟨rfl, .inr ?_⟩
          rw [filter_eq_nil_iff]
          intro item member free
          rw [findIdx?_eq_none_iff] at none
          rw [none item member] at free
          cases free
      · case _ index found =>
          obtain ⟨before, first, after, splits⟩ := splits_of_findIdx? found
          rw [splits.getElem?, splits.eraseIdx]
          exact .inl ⟨index, before, first, after, splits, more.2, rfl⟩
  · case _ fits =>
      refine .inr ⟨rfl, ?_⟩
      by_cases empty : items = []
      · rw [empty]
        exact .inr rfl
      · exact .inl (Bool.eq_false_iff.mpr fun isOver => fits ⟨empty, isOver⟩)

theorem evict_prefix (rounds : Nat) (items : List α) :
    evict pinned exceeds size rounds items <+: items.filter fun item => !pinned item := by
  induction rounds generalizing items with
  | zero => exact nil_prefix
  | succ rounds ih =>
    rcases evict_succ rounds items with
      ⟨index, before, first, after, splits, _, taken⟩ | ⟨none, _⟩
    · rw [taken, splits.filter]
      exact cons_prefix_cons.mpr ⟨rfl, ih (before ++ after)⟩
    · rw [none]
      exact nil_prefix

/-- Each item is taken because the bounds are exceeded without the earlier ones. -/
theorem evict_needed (rounds : Nat) (items : List α) {earlier : Nat}
    (taken : earlier < (evict pinned exceeds size rounds items).length) :
    exceeds (items.length - earlier)
      (total size items - total size ((evict pinned exceeds size rounds items).take earlier)) =
      true := by
  induction rounds generalizing items earlier with
  | zero => cases taken
  | succ rounds ih =>
    rcases evict_succ rounds items with
      ⟨index, before, first, after, splits, isOver, isTaken⟩ | ⟨none, _⟩
    · rw [isTaken] at taken ⊢
      cases earlier with
      | zero => exact isOver
      | succ earlier =>
        have rest := ih (before ++ after) (Nat.lt_of_succ_lt_succ taken)
        rw [take_succ_cons, total_cons, splits.isItems, total_append, total_cons,
          length_append, length_cons]
        rw [total_append, length_append] at rest
        have count : before.length + (after.length + 1) - (earlier + 1) =
            before.length + after.length - earlier := by omega
        have bytes (left right : Nat) : left + (size first + right) -
            (size first + total size
              ((evict pinned exceeds size rounds (before ++ after)).take earlier)) =
            left + right - total size
              ((evict pinned exceeds size rounds (before ++ after)).take earlier) := by omega
        rw [count, bytes]
        exact rest
    · rw [none] at taken
      cases taken

/-- With a round for each item, eviction ends when there is room or all are pinned. -/
theorem evict_enough (rounds : Nat) (items : List α) (enough : items.length ≤ rounds) :
    exceeds (items.length - (evict pinned exceeds size rounds items).length)
        (total size items - total size (evict pinned exceeds size rounds items)) = false ∨
      items.filter (fun item => !pinned item) = evict pinned exceeds size rounds items := by
  induction rounds generalizing items with
  | zero =>
    rw [length_eq_zero_iff.mp (Nat.le_zero.mp enough)]
    exact .inr rfl
  | succ rounds ih =>
    rcases @evict_succ α pinned exceeds size rounds items with
      ⟨index, before, first, after, splits, _, isTaken⟩ | ⟨none, why⟩
    · have shorter : (before ++ after).length ≤ rounds := by
        rw [splits.isItems, length_append, length_cons] at enough
        rw [length_append]
        omega
      rw [isTaken, splits.filter]
      refine (ih (before ++ after) shorter).imp (fun fits => ?_) fun all => by rw [all]
      rw [splits.isItems, total_append, total_cons, total_cons, length_append,
        length_cons, length_cons]
      rw [total_append, length_append] at fits
      have count (gone : Nat) : before.length + (after.length + 1) - (gone + 1) =
          before.length + after.length - gone := by omega
      have bytes (left right gone : Nat) :
          left + (size first + right) - (size first + gone) = left + right - gone := by omega
      rw [count, bytes]
      exact fits
    · rw [none]
      refine why.imp (fun fits => ?_) fun all => all
      exact fits

end XFerry.Eviction
