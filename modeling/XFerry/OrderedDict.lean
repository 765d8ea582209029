/-
Insertion-ordered dictionaries.

The order of the entries is part of the value: a new key goes to the back, a
key that is present keeps its place when it is assigned, and entries leave from
the front.  Key uniqueness is carried by the structure.
-/

import XFerry.Lists

namespace XFerry

open List Option

variable {Key Value : Type} [DecidableEq Key]

structure OrderedDict (Key Value : Type) where
  entries : List (Key × Value)
  distinct : (entries.map Prod.fst).Nodup

namespace OrderedDict

def empty : OrderedDict Key Value := ⟨[], nodup_nil⟩

def size (dict : OrderedDict Key Value) : Nat := dict.entries.length

def keys (dict : OrderedDict Key Value) : List Key := dict.entries.map Prod.fst

def lookup (dict : OrderedDict Key Value) (key : Key) : Option Value :=
  (dict.entries.find? fun entry => entry.1 = key).map Prod.snd

@[simp] theorem lookup_empty (key : Key) : (empty : OrderedDict Key Value).lookup key = none := rfl

variable {key : Key}

omit [DecidableEq Key] in
theorem value_unique (dict : OrderedDict Key Value) {left right : Value}
    (hLeft : (key, left) ∈ dict.entries) (hRight : (key, right) ∈ dict.entries) :
    left = right := by
  have same := inj_on_of_nodup_map dict.distinct hLeft hRight rfl
  exact congrArg Prod.snd same

variable {dict : OrderedDict Key Value}

theorem lookup_eq_some {value : Value} :
    dict.lookup key = some value ↔ (key, value) ∈ dict.entries := by
  constructor
  · intro found
    obtain ⟨entry, present, rfl⟩ := Option.map_eq_some_iff.mp found
    have sameKey : entry.1 = key := by simpa using find?_some present
    have member := mem_of_find?_eq_some present
    rw [← sameKey]
    exact member
  · intro member
    cases found : dict.entries.find? fun entry => entry.1 = key with
    | none =>
      have absent := find?_eq_none.mp found (key, value) member
      simp at absent
    | some entry =>
      have sameKey : entry.1 = key := by simpa using find?_some found
      have present := mem_of_find?_eq_some found
      have same : entry = (key, entry.2) := by rw [← sameKey]
      rw [same] at present
      have valueEq := dict.value_unique present member
      simp only [lookup, found, map_some, valueEq]

theorem lookup_eq_none : dict.lookup key = none ↔ ∀ value, (key, value) ∉ dict.entries := by
  rw [eq_none_iff_forall_ne_some]
  exact forall_congr' fun value => not_congr lookup_eq_some

/-- `del d[key]`, or nothing when the key is absent. -/
def erase (dict : OrderedDict Key Value) (key : Key) : OrderedDict Key Value :=
  { entries := dict.entries.filter fun entry => entry.1 ≠ key
    distinct := (filter_sublist.map Prod.fst).nodup dict.distinct }

theorem mem_erase {entry : Key × Value} :
    entry ∈ (dict.erase key).entries ↔ entry ∈ dict.entries ∧ entry.1 ≠ key := by
  simp [erase]

theorem size_erase_le (dict : OrderedDict Key Value) (key : Key) :
    (dict.erase key).size ≤ dict.size :=
  length_filter_le _ _

theorem lookup_erase (dict : OrderedDict Key Value) (key other : Key) :
    (dict.erase key).lookup other = if other = key then none else dict.lookup other := by
  by_cases same : other = key
  · rw [if_pos same, lookup_eq_none]
    intro value member
    exact (mem_erase.mp member).2 same
  rw [if_neg same]
  apply ext
  intro value
  rw [lookup_eq_some, lookup_eq_some, mem_erase]
  exact ⟨fun both => both.1, fun member => ⟨member, same⟩⟩

def filter (dict : OrderedDict Key Value) (keeps : Key × Value → Bool) : OrderedDict Key Value :=
  { entries := dict.entries.filter keeps
    distinct := (filter_sublist.map Prod.fst).nodup dict.distinct }

theorem lookup_filter (dict : OrderedDict Key Value) (keeps : Key × Value → Bool) (key : Key) :
    (dict.filter keeps).lookup key =
      (dict.lookup key).filter fun value => keeps (key, value) := by
  apply ext
  intro value
  rw [lookup_eq_some, filter_eq_some_iff, lookup_eq_some]
  exact mem_filter

omit [DecidableEq Key] in
theorem size_filter_le (dict : OrderedDict Key Value) (keeps : Key × Value → Bool) :
    (dict.filter keeps).size ≤ dict.size :=
  length_filter_le _ _

omit [DecidableEq Key] in
def snoc (dict : OrderedDict Key Value) (key : Key) (value : Value)
    (fresh : ∀ other, (key, other) ∉ dict.entries) : OrderedDict Key Value :=
  { entries := dict.entries ++ [(key, value)]
    distinct := by
      rw [map_append, nodup_append]
      refine ⟨dict.distinct, nodup_singleton _, ?_⟩
      intro left present right last same
      obtain ⟨entry, member, rfl⟩ := mem_map.mp present
      have rightEq : right = key := by simpa using last
      apply fresh entry.2
      rw [← rightEq, ← same]
      exact member }

/-- `d[key] = value`: in place for a present key, at the back for a new one. -/
def assign (dict : OrderedDict Key Value) (key : Key) (value : Value) : OrderedDict Key Value :=
  if absent : dict.lookup key = none then
    dict.snoc key value (lookup_eq_none.mp absent)
  else
    { entries := dict.entries.map fun entry => if entry.1 = key then (key, value) else entry
      distinct := by
        have sameKeys : (dict.entries.map fun entry =>
            if entry.1 = key then (key, value) else entry).map Prod.fst =
              dict.entries.map Prod.fst := by
          rw [List.map_map]
          apply map_congr_left
          intro entry _present
          by_cases same : entry.1 = key <;> simp [same]
        rw [sameKeys]
        exact dict.distinct }

theorem assign_of_absent (absent : dict.lookup key = none) (value : Value) :
    dict.assign key value = dict.snoc key value (lookup_eq_none.mp absent) := by
  simp only [assign, dif_pos absent]

theorem size_assign (dict : OrderedDict Key Value) (key : Key) (value : Value) :
    (dict.assign key value).size =
      if dict.lookup key = none then dict.size + 1 else dict.size := by
  by_cases absent : dict.lookup key = none
  · rw [assign_of_absent absent, if_pos absent]
    exact length_append
  · rw [if_neg absent]
    simp only [assign, dif_neg absent, size, length_map]

theorem lookup_assign (dict : OrderedDict Key Value) (key : Key) (value : Value) (other : Key) :
    (dict.assign key value).lookup other =
      if other = key then some value else dict.lookup other := by
  by_cases absent : dict.lookup key = none
  · rw [assign_of_absent absent]
    by_cases same : other = key
    · rw [if_pos same, same]
      exact lookup_eq_some.mpr (mem_append_right _ (mem_singleton_self _))
    · rw [if_neg same, lookup, snoc, find?_append,
        find?_singleton, if_neg (by simpa using Ne.symm same), or_none, lookup]
  · have present : ∃ old, (key, old) ∈ dict.entries := by
      obtain ⟨old, found⟩ := Option.ne_none_iff_exists'.mp absent
      exact ⟨old, lookup_eq_some.mp found⟩
    by_cases same : other = key
    · rw [if_pos same, same]
      apply lookup_eq_some.mpr
      obtain ⟨old, member⟩ := present
      simp only [assign, dif_neg absent, List.mem_map]
      exact ⟨(key, old), member, if_pos rfl⟩
    · rw [if_neg same]
      apply ext
      intro found
      rw [lookup_eq_some, lookup_eq_some]
      simp only [assign, dif_neg absent, List.mem_map]
      constructor
      · rintro ⟨entry, member, assigned⟩
        by_cases here : entry.1 = key
        · rw [if_pos here, Prod.mk.injEq] at assigned
          exact absurd assigned.1.symm same
        rw [if_neg here] at assigned
        rw [← assigned]
        exact member
      · intro member
        exact ⟨(other, found), member, if_neg same⟩

/-! ### Sums over the entries -/

def total (weigh : Key × Value → Nat) (dict : OrderedDict Key Value) : Nat :=
  (dict.entries.map weigh).sum

def weightAt (weigh : Key × Value → Nat) (dict : OrderedDict Key Value) (key : Key) : Nat :=
  ((dict.lookup key).map fun value => weigh (key, value)).getD 0

theorem weightAt_eq (weigh : Key × Value → Nat) (dict : OrderedDict Key Value) (key : Key) :
    dict.weightAt weigh key = ((dict.entries.filter fun entry => entry.1 = key).map weigh).sum := by
  obtain ⟨entries, distinct⟩ := dict
  rw [weightAt, lookup]
  induction entries with
  | nil => rfl
  | cons entry rest ih =>
    obtain ⟨fresh, others⟩ := nodup_cons.mp distinct
    by_cases here : entry.1 = key
    · have none : (rest.filter fun other => other.1 = key) = [] := by
        rw [filter_eq_nil_iff]
        intro other member same
        apply fresh
        rw [here, ← of_decide_eq_true same]
        exact mem_map_of_mem member
      rw [find?_cons_of_pos (by simpa using here),
        filter_cons_of_pos (by simpa using here), none, ← here]
      rfl
    · rw [find?_cons_of_neg (by simpa using here), filter_cons_of_neg (by simpa using here)]
      exact ih others

theorem total_erase_add (weigh : Key × Value → Nat) (dict : OrderedDict Key Value) (key : Key) :
    (dict.erase key).total weigh + dict.weightAt weigh key = dict.total weigh := by
  rw [weightAt_eq, total, total, erase, ← sum_append, ← map_append]
  apply List.Perm.sum_eq
  apply List.Perm.map
  have split := filter_append_perm (fun entry : Key × Value => entry.1 ≠ key) dict.entries
  simpa using split

theorem erase_assign_entries (dict : OrderedDict Key Value) (key : Key) (value : Value) :
    ((dict.assign key value).erase key).entries = (dict.erase key).entries := by
  by_cases absent : dict.lookup key = none
  · rw [assign_of_absent absent]
    change (dict.entries ++ [(key, value)]).filter (fun entry => decide (entry.1 ≠ key)) =
      dict.entries.filter fun entry => decide (entry.1 ≠ key)
    simp
  · simp only [assign, dif_neg absent, erase]
    induction dict.entries with
    | nil => rfl
    | cons entry rest ih =>
      rw [map_cons]
      by_cases here : entry.1 = key
      · rw [if_pos here, filter_cons_of_neg (by simp), filter_cons_of_neg (by simpa using here), ih]
      · rw [if_neg here, filter_cons_of_pos (by simpa using here),
          filter_cons_of_pos (by simpa using here), ih]

theorem total_assign_add (weigh : Key × Value → Nat) (dict : OrderedDict Key Value) (key : Key)
    (value : Value) :
    (dict.assign key value).total weigh + dict.weightAt weigh key =
      dict.total weigh + weigh (key, value) := by
  have kept : ((dict.assign key value).erase key).total weigh = (dict.erase key).total weigh := by
    rw [total, total, erase_assign_entries]
  rw [← total_erase_add weigh (dict.assign key value) key, kept, ← total_erase_add weigh dict key]
  have here : (dict.assign key value).weightAt weigh key = weigh (key, value) := by
    rw [weightAt, lookup_assign, if_pos rfl]
    rfl
  omega

/-- Items counted key by key are all counted, once, when every key is present. -/
theorem sum_countP_keys {Item : Type} (dict : OrderedDict Key Value) (key : Item → Key)
    (items : List Item) (known : ∀ item ∈ items, dict.lookup (key item) ≠ none) :
    (dict.entries.map fun entry => items.countP fun item => key item = entry.1).sum =
      items.length := by
  have indicators (wanted : Key) (entries : List (Key × Value)) :
      (entries.map fun entry => if wanted = entry.1 then 1 else 0).sum =
        (entries.map Prod.fst).count wanted := by
    induction entries with
    | nil => rfl
    | cons entry entries ih =>
      rw [map_cons, sum_cons, ih, map_cons, count_cons, Nat.add_comm]
      by_cases same : wanted = entry.1
      · simp [same]
      · simp [same, Ne.symm same]
  induction items with
  | nil => simp
  | cons item rest ih =>
    obtain ⟨value, found⟩ := Option.ne_none_iff_exists'.mp (known item (mem_cons_self ..))
    have once : (dict.entries.map Prod.fst).count (key item) = 1 :=
      count_eq_one_of_mem dict.distinct
        (mem_map.mpr ⟨(key item, value), lookup_eq_some.mp found, rfl⟩)
    simp only [countP_cons, decide_eq_true_eq, sum_map_add, length_cons]
    rw [indicators, once, ih fun other member => known other (mem_cons_of_mem _ member)]

def moveToEnd (dict : OrderedDict Key Value) (key : Key) : OrderedDict Key Value :=
  match dict.lookup key with
  | none => dict
  | some value =>
    (dict.erase key).snoc key value fun _ present => (mem_erase.mp present).2 rfl

/-- Assigning a present key and moving it to the end leaves the other entries
in their order and puts the new value at the back. -/
theorem assign_moveToEnd_entries {old : Value}
    (present : dict.lookup key = some old) (value : Value) :
    ((dict.assign key value).moveToEnd key).entries = (dict.erase key).entries ++
    [(key, value)] := by
  have notAbsent : ¬ dict.lookup key = none := by simp [present]
  have member : (key, value) ∈ (dict.assign key value).entries := by
    simp only [assign, dif_neg notAbsent, List.mem_map]
    exact ⟨(key, old), lookup_eq_some.mp present, by simp⟩
  have found : (dict.assign key value).lookup key = some value := lookup_eq_some.mpr member
  have others : ((dict.assign key value).erase key).entries = (dict.erase key).entries := by
    simp only [assign, dif_neg notAbsent, erase]
    have general (items : List (Key × Value)) :
        (items.map fun entry => if entry.1 = key then (key, value) else entry).filter
            (fun entry => entry.1 ≠ key) =
          items.filter fun entry => entry.1 ≠ key := by
      induction items with
      | nil => rfl
      | cons entry rest ih =>
        by_cases same : entry.1 = key <;> simpa [same] using ih
    exact general dict.entries
  simp only [moveToEnd, found, snoc, others]

theorem size_assign_moveToEnd {old : Value} (present : dict.lookup key = some old) (value : Value) :
    ((dict.assign key value).moveToEnd key).size = dict.size := by
  unfold size
  rw [assign_moveToEnd_entries present, length_append, length_singleton]
  have split := length_eq_countP_add_countP (fun entry : Key × Value => entry.1 ≠ key)
    (l := dict.entries)
  have once : dict.entries.countP (fun entry => ¬ (decide (entry.1 ≠ key)) = true) = 1 := by
    have counted : (dict.entries.map Prod.fst).count key = 1 :=
      count_eq_one_of_mem dict.distinct (mem_map.mpr ⟨(key, old), lookup_eq_some.mp present, rfl⟩)
    rw [count, countP_map] at counted
    rw [← counted]
    apply countP_congr
    simp [Function.comp]
  rw [once, countP_eq_length_filter] at split
  exact split.symm

/-- The suffix left after `popitem(last=False)` on every leading entry that
satisfies `expired`. -/
def popWhile (dict : OrderedDict Key Value) (expired : Key × Value → Bool) :
    OrderedDict Key Value :=
  { entries := dict.entries.dropWhile expired
    distinct := ((dropWhile_sublist expired).map Prod.fst).nodup dict.distinct }

/-- The suffix left after `count` times `popitem(last=False)`. -/
def popFirst (dict : OrderedDict Key Value) (count : Nat) : OrderedDict Key Value :=
  { entries := dict.entries.drop count
    distinct := ((drop_sublist count dict.entries).map Prod.fst).nodup dict.distinct }

omit [DecidableEq Key] in
/-- A scan that stops at the first entry it keeps drops every expired one
exactly when no expired entry stands behind a kept one. -/
theorem popWhile_not_expired_iff {expired : Key × Value → Bool} :
    (∀ entry ∈ (dict.popWhile expired).entries, expired entry = false) ↔
      dict.entries.Pairwise fun left right => expired right = true → expired left = true := by
  have general (items : List (Key × Value)) :
      (∀ entry ∈ items.dropWhile expired, expired entry = false) ↔
        items.Pairwise fun left right => expired right = true → expired left = true := by
    induction items with
    | nil => simp
    | cons first rest ih =>
      cases kept : expired first with
      | true =>
        rw [dropWhile_cons_of_pos kept, ih, pairwise_cons]
        exact ⟨fun sorted => ⟨fun _ _ _ => kept, sorted⟩, fun sorted => sorted.2⟩
      | false =>
        have notExpired : ¬ expired first = true := by simp [kept]
        rw [dropWhile_cons_of_neg notExpired, pairwise_cons, forall_mem_cons]
        constructor
        · rintro ⟨_, fresh⟩
          have sorted : rest.Pairwise fun left right =>
              expired right = true → expired left = true := by
            apply pairwise_of_forall_mem_list
            intro left _ right present late
            simp [fresh right present] at late
          refine ⟨fun entry later late => ?_, sorted⟩
          simp [fresh entry later] at late
        · rintro ⟨ahead, _⟩
          refine ⟨kept, fun entry later => ?_⟩
          cases late : expired entry with
          | false => rfl
          | true => exact absurd (ahead entry later late) notExpired
  exact general dict.entries

end OrderedDict

end XFerry
