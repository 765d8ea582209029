/-
What holds of every value that the scanner returns, however deep its parts stand: the
names of the members of an object are distinct, and an integer can be printed.
-/

import XFerry.Json.Rendering

namespace XFerry.Json

open Python

variable {scan : Text → Scan Value} {text rest : Text} {value : Value}
  {members : List (Str × Value)} {good : Value → Prop}

/-- The scan returns nothing but values that `good` holds of. -/
def Returns (good : Value → Prop) (scan : Text → Scan Value) : Prop :=
  ∀ text value rest, scan text = .ok (value, rest) → good value

/-- What the scanner can build is good if its parts are. -/
structure Covers (good : Value → Prop) : Prop where
  null : good .null
  boolean : ∀ value, good (.boolean value)
  int : ∀ negative digits value, IsWhole digits → intNumber negative digits = .ok value → good value
  float : ∀ value, good (.float value)
  string : ∀ value, good (.string value)
  array : ∀ items : List Value, (∀ item ∈ items, good item) → good (.array items)
  object : ∀ members : List (Str × Value), (members.map Prod.fst).Nodup →
    (∀ member ∈ members, good member.2) → good (.object members)

theorem closeObject_good (covers : Covers good) (inside : ∀ member ∈ members, good member.2)
    (closed : closeObject members = .ok value) : good value := by
  unfold closeObject at closed
  split at closed
  · case isTrue distinct =>
    cases closed
    exact covers.object members distinct inside
  · cases closed

theorem map_eq_ok {ε α β : Type} {computation : Except ε α} {change : α → β} {result : β}
    (mapped : computation.map change = .ok result) :
    ∃ value, computation = .ok value ∧ result = change value := by
  cases computation with
  | error failure => cases mapped
  | ok value =>
    cases mapped
    exact ⟨value, rfl, rfl⟩

theorem scanMember_good (inner : Returns good scan) {member : Str × Value}
    (scanned : scanMember scan text = .ok (member, rest)) : good member.2 := by
  unfold scanMember at scanned
  split at scanned
  · split at scanned
    · cases scanned
    split at scanned
    · obtain ⟨result, value, same⟩ := map_eq_ok scanned
      cases same
      exact inner _ _ _ value
    · cases scanned
  · cases scanned

theorem scanMembers_good (inner : Returns good scan) {fuel : Nat}
    (scanned : scanMembers scan fuel text = .ok (members, rest)) :
    ∀ member ∈ members, good member.2 := by
  induction fuel generalizing text members rest with
  | zero => cases scanned
  | succ fuel ih =>
    unfold scanMembers at scanned
    split at scanned
    · cases scanned
    · case h_2 member tail first =>
      cases scanned
      exact List.forall_mem_singleton.mpr (scanMember_good inner first)
    · case h_3 member tail first =>
      obtain ⟨result, others, same⟩ := map_eq_ok scanned
      cases same
      exact List.forall_mem_cons.mpr ⟨scanMember_good inner first, ih others⟩
    · cases scanned

theorem scanItems_good (inner : Returns good scan) {fuel : Nat} {items : List Value}
    (scanned : scanItems scan fuel text = .ok (items, rest)) : ∀ item ∈ items, good item := by
  induction fuel generalizing text items rest with
  | zero => cases scanned
  | succ fuel ih =>
    unfold scanItems at scanned
    split at scanned
    · cases scanned
    rename_i item afterItem first
    split at scanned
    · cases scanned
      exact List.forall_mem_singleton.mpr (inner _ _ _ first)
    · obtain ⟨result, others, same⟩ := map_eq_ok scanned
      cases same
      exact List.forall_mem_cons.mpr ⟨inner _ _ _ first, ih others⟩
    · cases scanned

theorem scanObject_returns (covers : Covers good) (inner : Returns good scan) :
    Returns good (scanObject scan) := by
  intro text value rest scanned
  unfold scanObject at scanned
  split at scanned
  · obtain ⟨object, closed, same⟩ := map_eq_ok scanned
    cases same
    exact closeObject_good covers (List.forall_mem_nil _) closed
  split at scanned
  · cases scanned
  rename_i members tail found
  obtain ⟨object, closed, same⟩ := map_eq_ok scanned
  cases same
  exact closeObject_good covers (scanMembers_good inner found) closed

theorem scanArray_returns (covers : Covers good) (inner : Returns good scan) :
    Returns good (scanArray scan) := by
  intro text value rest scanned
  unfold scanArray at scanned
  split at scanned
  · cases scanned
    exact covers.array [] (List.forall_mem_nil _)
  obtain ⟨result, items, same⟩ := map_eq_ok scanned
  cases same
  exact covers.array _ (scanItems_good inner items)

theorem isWhole_of_scanWhole {whole : Text} (scanned : scanWhole text = some (whole, rest)) :
    IsWhole whole := by
  unfold scanWhole at scanned
  split at scanned
  · cases scanned
    exact ⟨by decide, List.cons_ne_nil _ _, .inl rfl⟩
  rename_i other
  dsimp only at scanned
  split at scanned
  · cases scanned
  rename_i nonempty
  cases scanned
  refine ⟨fun char member => List.mem_takeWhile_imp member, nonempty, .inr ?_⟩
  intro leading
  cases text with
  | nil => exact nonempty rfl
  | cons first tail =>
    rw [List.takeWhile_cons] at leading
    split at leading
    · exact other tail (by rw [Option.some.inj leading])
    · cases leading

section

variable (covers : Covers good)
include covers

theorem scanNumber_returns : Returns good scanNumber := by
  have unsigned : ∀ negative, Returns good (scanUnsigned negative) := by
    intro negative text value rest scanned
    unfold scanUnsigned at scanned
    split at scanned
    · cases scanned
    rename_i found
    dsimp only at scanned
    split at scanned
    · obtain ⟨number, read, same⟩ := map_eq_ok scanned
      cases same
      exact covers.int _ _ _ (isWhole_of_scanWhole found) read
    · cases scanned
      exact covers.float _
  intro text value rest scanned
  unfold scanNumber at scanned
  split at scanned
  · exact unsigned true _ _ _ scanned
  · exact unsigned false _ _ _ scanned

theorem scanString_returns :
    Returns good fun text => (scanString text).map fun result => (.string result.1, result.2) := by
  intro text value rest scanned
  obtain ⟨result, _, same⟩ := map_eq_ok scanned
  cases same
  exact covers.string _

theorem scanConstant_good (found : scanConstant text = some (value, rest)) : good value := by
  obtain ⟨constant, member, taken⟩ := List.exists_of_findSome?_eq_some found
  split at taken
  · cases taken
    simp only [List.mem_cons, List.not_mem_nil, or_false] at member
    rcases member with rfl | rfl | rfl | rfl | rfl | rfl
    · exact covers.null
    · exact covers.boolean true
    · exact covers.boolean false
    · exact covers.float _
    · exact covers.float _
    · exact covers.float _
  · cases taken

theorem scanOnce_returns (levels : Nat) : Returns good (scanOnce levels) := by
  induction levels with
  | zero =>
    intro text value rest scanned
    unfold scanOnce at scanned
    split at scanned
    · exact scanString_returns covers _ _ _ scanned
    · cases scanned
    · cases scanned
    split at scanned
    · case h_1 found =>
      cases scanned
      exact scanConstant_good covers found
    · exact scanNumber_returns covers _ _ _ scanned
  | succ levels ih =>
    intro text value rest scanned
    unfold scanOnce at scanned
    split at scanned
    · exact scanString_returns covers _ _ _ scanned
    · exact scanObject_returns covers ih _ _ _ scanned
    · exact scanArray_returns covers ih _ _ _ scanned
    split at scanned
    · case h_1 found =>
      cases scanned
      exact scanConstant_good covers found
    · exact scanNumber_returns covers _ _ _ scanned

end

inductive Value.Unambiguous : Value → Prop where
  | null : Unambiguous .null
  | boolean (value : Bool) : Unambiguous (.boolean value)
  | int (value : Int) : Unambiguous (.int value)
  | float (value : PyFloat) : Unambiguous (.float value)
  | string (value : Str) : Unambiguous (.string value)
  | array {items : List Value} (inside : ∀ item ∈ items, item.Unambiguous) :
      Unambiguous (.array items)
  | object {members : List (Str × Value)} (distinct : (members.map Prod.fst).Nodup)
      (inside : ∀ member ∈ members, member.2.Unambiguous) : Unambiguous (.object members)

theorem intNumber_eq_ok {negative : Bool} {digits : Text}
    (read : intNumber negative digits = .ok value) :
    ∃ number : Int, value = .int number ∧ number.natAbs = digitsValue digits ∧
      digits.length ≤ maxStrDigits := by
  unfold intNumber at read
  split at read
  · cases read
  rename_i short
  cases read
  refine ⟨_, rfl, ?_, Nat.le_of_not_lt short⟩
  cases negative with
  | false => exact Int.natAbs_natCast _
  | true => exact (Int.natAbs_neg _).trans (Int.natAbs_natCast _)

theorem covers_unambiguous : Covers Value.Unambiguous where
  null := .null
  boolean := .boolean
  int negative digits value _ read := by
    obtain ⟨number, rfl, _⟩ := intNumber_eq_ok read
    exact .int number
  float := .float
  string := .string
  array _ inside := .array inside
  object _ distinct inside := .object distinct inside

theorem loads_unambiguous {levels : Nat} (loaded : loads levels text = .ok value) :
    value.Unambiguous := by
  unfold loads at loaded
  split at loaded
  · cases loaded
  rename_i scanned
  split at loaded
  · cases loaded
    exact scanOnce_returns covers_unambiguous levels _ _ _ scanned
  · cases loaded

theorem Value.Unambiguous.member {name : Str} (unambiguous : (Value.object members).Unambiguous)
    (found : members.lookup name = some value) : value.Unambiguous := by
  cases unambiguous with
  | object distinct inside =>
    obtain ⟨before, after, same, _⟩ := List.lookup_eq_some_iff.mp found
    exact inside (name, value) (by rw [same]; simp)

/-- The `ValueError` of `parse_constant` counts as a malformed text. -/
def scanFinite : Text → Scan Value := fun text =>
  match scanConstant text with
  | some (.float _, _) => .error .malformed
  | some result => .ok result
  | none => scanNumber text

def scanStrict (levels : Nat) : Text → Scan Value
  | '"' :: rest => (scanString rest).map fun result => (.string result.1, result.2)
  | '{' :: rest =>
    match levels with
    | 0 => .error .tooDeep
    | inner + 1 => scanObject (scanStrict inner) rest
  | '[' :: rest =>
    match levels with
    | 0 => .error .tooDeep
    | inner + 1 => scanArray (scanStrict inner) rest
  | text => scanFinite text

def loadsStrict (levels : Nat) (text : Text) : Except LoadsError Value :=
  match scanStrict levels (skipWhitespace text) with
  | .error error => .error error
  | .ok (value, rest) => if skipWhitespace rest = [] then .ok value else .error .malformed

variable {good : Value → Prop} {value : Value}

theorem scanFinite_returns (covers : Covers good) : Returns good scanFinite := by
  intro text value rest scanned
  unfold scanFinite at scanned
  split at scanned
  · cases scanned
  · case h_2 found =>
    cases scanned
    exact scanConstant_good covers found
  · exact scanNumber_returns covers _ _ _ scanned

theorem scanStrict_returns (covers : Covers good) (levels : Nat) :
    Returns good (scanStrict levels) := by
  induction levels with
  | zero =>
    intro text value rest scanned
    unfold scanStrict at scanned
    split at scanned
    · exact scanString_returns covers _ _ _ scanned
    · cases scanned
    · cases scanned
    · exact scanFinite_returns covers _ _ _ scanned
  | succ levels ih =>
    intro text value rest scanned
    unfold scanStrict at scanned
    split at scanned
    · exact scanString_returns covers _ _ _ scanned
    · exact scanObject_returns covers ih _ _ _ scanned
    · exact scanArray_returns covers ih _ _ _ scanned
    · exact scanFinite_returns covers _ _ _ scanned

theorem loadsStrict_good (covers : Covers good) {levels : Nat} {text : Text}
    (loaded : loadsStrict levels text = .ok value) : good value := by
  unfold loadsStrict at loaded
  split at loaded
  · cases loaded
  rename_i scanned
  split at loaded
  · cases loaded
    exact scanStrict_returns covers levels _ _ _ scanned
  · cases loaded

/-- `int.__repr__` gives a text: the integers inside have no more digits than it allows. -/
inductive Value.Printable : Value → Prop where
  | null : Printable .null
  | boolean (value : Bool) : Printable (.boolean value)
  | int {value : Int} (short : (Nat.toDigits 10 value.natAbs).length ≤ maxStrDigits) :
      Printable (.int value)
  | float (value : PyFloat) : Printable (.float value)
  | string (value : Str) : Printable (.string value)
  | array {items : List Value} (inside : ∀ item ∈ items, item.Printable) : Printable (.array items)
  | object {members : List (Str × Value)} (inside : ∀ member ∈ members, member.2.Printable) :
      Printable (.object members)

theorem covers_printable : Covers Value.Printable where
  null := .null
  boolean := .boolean
  int negative digits value isWhole read := by
    obtain ⟨number, rfl, same, short⟩ := intNumber_eq_ok read
    refine .int ?_
    rw [same, digitsValue, toDigits_ofDigitChars isWhole]
    exact short
  float := .float
  string := .string
  array _ inside := .array inside
  object _ _ inside := .object inside

end XFerry.Json
