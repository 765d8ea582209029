/-
What the scanner makes of rendered numbers and strings.

A rendered value is scanned to its end wherever the text goes on as it does after a
value: with a comma, or the bracket of a container.
-/

import XFerry.Json.Scanner
import XFerry.Python.TextLemmas

namespace XFerry.Json

open Python List

def Delimited (rest : Text) : Prop :=
  ∀ char ∈ rest.head?, char = ',' ∨ char = '}' ∨ char = ']'

theorem delimited_cons {char : Char} (delimiter : char = ',' ∨ char = '}' ∨ char = ']')
    (rest : Text) : Delimited (char :: rest) := by
  intro head isHead
  cases isHead
  exact delimiter

theorem delimited_nil : Delimited [] := fun _ isHead => nomatch isHead

theorem Delimited.ends {rest : Text} (delimited : Delimited rest) :
    ∀ char ∈ rest.head?, isDigit char = false ∧ char ≠ '.' ∧ char ≠ 'e' ∧ char ≠ 'E' := by
  intro char isHead
  rcases delimited char isHead with rfl | rfl | rfl <;> decide

/-- The text starts with a character of its own. -/
def Solid (text : Text) : Prop := ∃ char rest, text = char :: rest ∧ isWhitespace char = false

theorem Solid.skipWhitespace {text : Text} (solid : Solid text) (rest : Text) :
    skipWhitespace (text ++ rest) = text ++ rest := by
  obtain ⟨char, tail, rfl, notSpace⟩ := solid
  rw [cons_append, Json.skipWhitespace, dropWhile_cons_of_neg]
  rw [notSpace]
  exact Bool.false_ne_true

structure Scans (levels : Nat) (text : Text) (value : Value) : Prop where
  solid : Solid text
  scan : ∀ rest, Delimited rest → scanOnce levels (text ++ rest) = .ok (value, rest)

def AllDigits (text : Text) : Prop := ∀ char ∈ text, isDigit char = true

instance (text : Text) : Decidable (AllDigits text) := by
  unfold AllDigits
  infer_instance

theorem takeWhile_digits {digits rest : Text} (all : AllDigits digits)
    (ends : ∀ char ∈ rest.head?, isDigit char = false) :
    (digits ++ rest).takeWhile isDigit = digits := by
  rw [takeWhile_append_of_pos all]
  cases rest with
  | nil => simp
  | cons char tail =>
    have notDigit := ends char rfl
    rw [takeWhile_cons_of_neg (by simp [notDigit]), append_nil]

theorem dropWhile_digits {digits rest : Text} (all : AllDigits digits)
    (ends : ∀ char ∈ rest.head?, isDigit char = false) :
    (digits ++ rest).dropWhile isDigit = rest := by
  rw [dropWhile_append_of_pos all]
  cases rest with
  | nil => rfl
  | cons char tail =>
    have notDigit := ends char rfl
    rw [dropWhile_cons_of_neg (by simp [notDigit])]

/-- A whole number without leading zeros. -/
structure IsWhole (text : Text) : Prop where
  digits : AllDigits text
  nonempty : text ≠ []
  canonical : text = ['0'] ∨ text.head? ≠ some '0'

theorem scanWhole_append {whole rest : Text} (isWhole : IsWhole whole)
    (ends : ∀ char ∈ rest.head?, isDigit char = false) :
    scanWhole (whole ++ rest) = some (whole, rest) := by
  cases whole with
  | nil => exact absurd rfl isWhole.nonempty
  | cons char tail =>
    have digits := takeWhile_digits isWhole.digits ends
    have left := dropWhile_digits isWhole.digits ends
    rcases isWhole.canonical with zero | other
    · cases zero
      rfl
    have notZero : char ≠ '0' := fun same => other (congrArg some same)
    rw [scanWhole]
    · simp only [digits, left, cons_ne_nil, if_false]
    · intro rest same
      exact notZero (cons.inj same).1

theorem isDigit_iff {char : Char} : isDigit char = true ↔ char.isDigit = true := by
  simp only [isDigit, decide_eq_true_eq, Char.isDigit, Bool.and_eq_true, ge_iff_le,
    UInt32.le_iff_toNat_le]
  exact Iff.rfl

theorem head?_toDigits_of_pos {value : Nat} (positive : 0 < value) :
    (Nat.toDigits 10 value).head? ≠ some '0' := by
  induction value using Nat.strongRecOn with
  | ind value ih =>
    by_cases small : value < 10
    · rw [Nat.toDigits_of_lt_base small, head?_cons]
      have table : ∀ digit, digit < 10 → 0 < digit → some digit.digitChar ≠ some '0' := by decide
      exact table value small positive
    have large : 10 ≤ value := Nat.le_of_not_lt small
    rw [Nat.toDigits_of_base_le (by decide) large, head?_append_of_ne_nil]
    · exact ih (value / 10) (Nat.div_lt_self positive (by decide)) (Nat.div_pos large (by decide))
    · exact Nat.toDigits_ne_nil

theorem isWhole_toDigits (value : Nat) : IsWhole (Nat.toDigits 10 value) := by
  constructor
  case digits =>
    intro char member
    exact isDigit_iff.mpr (Nat.isDigit_of_mem_toDigits (by decide) (by decide) member)
  case nonempty => exact Nat.toDigits_ne_nil
  case canonical =>
    rcases Nat.eq_zero_or_pos value with zero | positive
    · left
      rw [zero, Nat.toDigits_zero]
    · exact .inr (head?_toDigits_of_pos positive)

theorem toDigits_of_isDigit {char : Char} (digit : isDigit char = true) :
    Nat.toDigits 10 (char.toNat - '0'.toNat) = [char] := by
  have range : 48 ≤ char.toNat ∧ char.toNat ≤ 57 := of_decide_eq_true digit
  have zero : '0'.toNat = 48 := rfl
  have table : ∀ code, code < 10 → Nat.digitChar code = Char.ofNat (code + 48) := by decide
  rw [zero, Nat.toDigits_of_lt_base (by omega), table _ (by omega),
    Nat.sub_add_cancel range.1, Char.ofNat_toNat]

theorem toDigits_ofDigitChars {text : Text} (isWhole : IsWhole text) :
    Nat.toDigits 10 (Nat.ofDigitChars 10 text 0) = text := by
  induction text using reverseRecOn with
  | nil => exact absurd rfl isWhole.nonempty
  | append_singleton front char ih =>
    have digit := isWhole.digits char (by simp)
    cases front with
    | nil =>
      rw [nil_append, Nat.ofDigitChars_cons, Nat.ofDigitChars_nil, Nat.mul_zero, Nat.zero_add]
      exact toDigits_of_isDigit digit
    | cons first rest =>
      have range : 48 ≤ char.toNat ∧ char.toNat ≤ 57 := of_decide_eq_true digit
      have zero : '0'.toNat = 48 := rfl
      have leading : (first :: rest).head? ≠ some '0' := by
        rcases isWhole.canonical with single | other
        · simp at single
        · exact other
      have whole : IsWhole (first :: rest) :=
        { digits := fun other member => isWhole.digits other (mem_append_left _ member)
          nonempty := cons_ne_nil _ _
          canonical := Or.inr leading }
      have same := ih whole
      have positive : 0 < Nat.ofDigitChars 10 (first :: rest) 0 := by
        by_contra none
        rw [Nat.eq_zero_of_not_pos none, Nat.toDigits_zero] at same
        cases same
        exact leading rfl
      rw [Nat.ofDigitChars_append, Nat.ofDigitChars_cons, Nat.ofDigitChars_nil,
        ← Nat.toDigits_append_toDigits (by decide) positive (by omega), same,
        toDigits_of_isDigit digit]

theorem scanOnce_of_isDigit {char : Char} (digit : isDigit char = true) (levels : Nat)
    (rest : Text) : scanOnce levels (char :: rest) = scanUnsigned false (char :: rest) := by
  have other : ∀ mark ∈ ['"', '{', '[', 'n', 't', 'f', 'N', 'I', '-'], char ≠ mark := by
    intro mark member same
    rw [same] at digit
    have none : ∀ mark ∈ ['"', '{', '[', 'n', 't', 'f', 'N', 'I', '-'], isDigit mark = false := by
      decide
    rw [none mark member] at digit
    cases digit
  simp only [mem_cons, not_mem_nil, or_false, forall_eq_or_imp, forall_eq] at other
  obtain ⟨quote, brace, bracket, n, t, f, nan, infinity, minus⟩ := other
  have noConstant : scanConstant (char :: rest) = none := by
    simp [scanConstant, Ne.symm n, Ne.symm t, Ne.symm f, Ne.symm nan, Ne.symm infinity,
      Ne.symm minus]
  rw [scanOnce]
  · rw [noConstant]
    rw [scanNumber]
    intro tail same
    exact minus (cons.inj same).1
  · intro tail same
    exact quote (cons.inj same).1
  · intro tail same
    exact brace (cons.inj same).1
  · intro tail same
    exact bracket (cons.inj same).1

theorem isWhitespace_of_isDigit {char : Char} (digit : isDigit char = true) :
    isWhitespace char = false := by
  by_contra space
  have spaces : ∀ mark ∈ [' ', '\t', '\n', '\r'], isDigit mark = false := by decide
  have member : char ∈ [' ', '\t', '\n', '\r'] := by
    rw [Bool.not_eq_false] at space
    simpa [isWhitespace, or_assoc] using space
  rw [spaces char member] at digit
  cases digit

theorem IsWhole.scanOnce_append {whole : Text} (isWhole : IsWhole whole) (levels : Nat)
    (rest : Text) : scanOnce levels (whole ++ rest) = scanUnsigned false (whole ++ rest) := by
  cases whole with
  | nil => exact absurd rfl isWhole.nonempty
  | cons char tail =>
    exact scanOnce_of_isDigit (isWhole.digits char (mem_cons_self ..)) levels (tail ++ rest)

theorem IsWhole.solid {whole : Text} (isWhole : IsWhole whole) (rest : Text) :
    Solid (whole ++ rest) := by
  cases whole with
  | nil => exact absurd rfl isWhole.nonempty
  | cons char tail =>
    exact ⟨char, tail ++ rest, rfl,
      isWhitespace_of_isDigit (isWhole.digits char (mem_cons_self ..))⟩

theorem scanFraction_of_delimited {rest : Text}
    (ends : ∀ char ∈ rest.head?, char ≠ '.') : scanFraction rest = ([], rest) := by
  cases rest with
  | nil => rfl
  | cons char tail =>
    rw [scanFraction]
    intro other same
    exact ends char rfl (cons.inj same).1

theorem scanExponent_of_delimited {rest : Text}
    (ends : ∀ char ∈ rest.head?, char ≠ 'e' ∧ char ≠ 'E') : scanExponent rest = (none, rest) := by
  cases rest with
  | nil => rfl
  | cons char tail =>
    have neither : ¬ (char = 'e' ∨ char = 'E') := by
      rw [not_or]
      exact ends char rfl
    rw [scanExponent, if_neg neither]

theorem scans_nat (levels : Nat) {value : Nat}
    (short : (Nat.toDigits 10 value).length ≤ maxStrDigits) :
    Scans levels (Nat.toDigits 10 value) (.int value) := by
  have isWhole := isWhole_toDigits value
  constructor
  case solid =>
    have solid := isWhole.solid []
    rwa [append_nil] at solid
  case scan =>
    intro rest delimited
    have ends := delimited.ends
    have whole := scanWhole_append isWhole fun char isHead => (ends char isHead).1
    have fraction := scanFraction_of_delimited fun char isHead => (ends char isHead).2.1
    have exponent := scanExponent_of_delimited fun char isHead => (ends char isHead).2.2
    have number : intNumber false (Nat.toDigits 10 value) = .ok (.int value) := by
      rw [intNumber, if_neg (Nat.not_lt.mpr short), digitsValue, Nat.ofDigitChars_ten_toDigits]
      rfl
    rw [isWhole.scanOnce_append, scanUnsigned, whole]
    simp only [fraction, exponent, and_self, if_true, number]
    rfl

/-- The text of a float that is not negative, as `repr` writes it. -/
structure FloatNumeral where
  whole : Text
  fraction : Text
  exponent : Option (Bool × Text)
  isWhole : IsWhole whole
  isFraction : AllDigits fraction
  isExponent : ∀ signed ∈ exponent, AllDigits signed.2 ∧ signed.2 ≠ []
  isFloat : fraction ≠ [] ∨ exponent ≠ none

namespace FloatNumeral

def exponentText : Option (Bool × Text) → Text
  | none => []
  | some (negative, digits) => 'e' :: (if negative = true then '-' else '+') :: digits

def exponentValue : Option (Bool × Text) → Int
  | none => 0
  | some (negative, digits) =>
    let size : Int := digitsValue digits
    if negative = true then -size else size

def text (numeral : FloatNumeral) : Text :=
  numeral.whole ++
    ((if numeral.fraction = [] then [] else '.' :: numeral.fraction) ++
      exponentText numeral.exponent)

def float (numeral : FloatNumeral) : PyFloat :=
  .ofRat (decimalNumber false numeral.whole numeral.fraction (exponentValue numeral.exponent))

variable (numeral : FloatNumeral)

theorem head?_exponentText {rest : Text} (delimited : Delimited rest) :
    ∀ char ∈ (exponentText numeral.exponent ++ rest).head?, isDigit char = false ∧ char ≠ '.' := by
  intro char isHead
  cases found : numeral.exponent with
  | none =>
    rw [found] at isHead
    exact ⟨(delimited.ends char isHead).1, (delimited.ends char isHead).2.1⟩
  | some signed =>
    rw [found] at isHead
    cases isHead
    decide

theorem scanExponent_append {rest : Text} (delimited : Delimited rest) :
    scanExponent (exponentText numeral.exponent ++ rest) =
      (numeral.exponent.map fun signed => exponentValue (some signed), rest) := by
  cases found : numeral.exponent with
  | none => exact scanExponent_of_delimited fun char isHead => (delimited.ends char isHead).2.2
  | some signed =>
    obtain ⟨negative, digits⟩ := signed
    obtain ⟨all, nonempty⟩ := numeral.isExponent _ found
    have taken := takeWhile_digits all fun char isHead => (delimited.ends char isHead).1
    have left := dropWhile_digits all fun char isHead => (delimited.ends char isHead).1
    cases negative with
    | true =>
      simp only [exponentText, if_true, cons_append, scanExponent, true_or, splitSign,
        taken, left, if_neg nonempty]
      rfl
    | false =>
      simp only [exponentText, Bool.false_eq_true, if_false, if_true, cons_append,
        scanExponent, true_or, splitSign, taken, left, if_neg nonempty]
      rfl

theorem scanFraction_append {rest : Text} (delimited : Delimited rest) :
    scanFraction ((if numeral.fraction = [] then [] else '.' :: numeral.fraction) ++
      (exponentText numeral.exponent ++ rest)) =
        (numeral.fraction, exponentText numeral.exponent ++ rest) := by
  have ends := numeral.head?_exponentText delimited
  by_cases none : numeral.fraction = []
  · rw [if_pos none, nil_append, none]
    exact scanFraction_of_delimited fun char isHead => (ends char isHead).2
  have taken := takeWhile_digits numeral.isFraction fun char isHead => (ends char isHead).1
  have left := dropWhile_digits numeral.isFraction fun char isHead => (ends char isHead).1
  simp only [if_neg none, cons_append, scanFraction, taken, left]

theorem head?_fraction {rest : Text} (delimited : Delimited rest) :
    ∀ char ∈ ((if numeral.fraction = [] then [] else '.' :: numeral.fraction) ++
      (exponentText numeral.exponent ++ rest)).head?, isDigit char = false := by
  intro char isHead
  by_cases none : numeral.fraction = []
  · rw [if_pos none, nil_append] at isHead
    exact (numeral.head?_exponentText delimited char isHead).1
  rw [if_neg none] at isHead
  cases isHead
  decide

end FloatNumeral

theorem scans_float (levels : Nat) (numeral : FloatNumeral) :
    Scans levels numeral.text (.float numeral.float) := by
  constructor
  case solid => exact numeral.isWhole.solid _
  case scan =>
    intro rest delimited
    have whole := scanWhole_append numeral.isWhole (numeral.head?_fraction delimited)
    have fraction := numeral.scanFraction_append delimited
    have exponent := numeral.scanExponent_append delimited
    have isFloat : ¬ (numeral.fraction = [] ∧
        numeral.exponent.map (fun signed => FloatNumeral.exponentValue (some signed)) = none) := by
      rw [Option.map_eq_none_iff]
      rcases numeral.isFloat with nonempty | present
      · exact fun both => nonempty both.1
      · exact fun both => present both.2
    have value : (numeral.exponent.map fun signed =>
        FloatNumeral.exponentValue (some signed)).getD 0 =
          FloatNumeral.exponentValue numeral.exponent := by
      cases numeral.exponent with
      | none | some => rfl
    rw [FloatNumeral.text, append_assoc, append_assoc, numeral.isWhole.scanOnce_append,
      scanUnsigned, whole]
    simp only [fraction, exponent, if_neg isFloat, value, FloatNumeral.float]

/-- A character that `json.dumps` writes as it stands. -/
def IsPlain (char : Char) : Prop :=
  IsAscii char ∧ 0x20 ≤ char.toNat ∧ char ≠ '"' ∧ char ≠ '\\'

instance (char : Char) : Decidable (IsPlain char) := by
  unfold IsPlain
  infer_instance

theorem scanUnits_append {text : Text} (plain : ∀ char ∈ text, IsPlain char) (rest : Text) :
    scanUnits (text ++ '"' :: rest) = .ok (str text, rest) := by
  induction text with
  | nil => rfl
  | cons char tail ih =>
    obtain ⟨_, printable, notQuote, notBackslash⟩ := plain char (mem_cons_self ..)
    have inner := ih fun other member => plain other (mem_cons_of_mem _ member)
    have allowed : ¬ (char.toNat < 0x20 ∨ char = '\\') := by
      rw [not_or, Nat.not_lt]
      exact ⟨printable, notBackslash⟩
    rw [cons_append, scanUnits, if_neg allowed, inner]
    · rfl
    · exact fun same => notQuote same
    · intro first second third fourth other same
      exact absurd same notBackslash
    · intro other more same
      exact absurd same notBackslash

theorem joinSurrogates_of_ascii {units : Str} (ascii : ∀ unit ∈ units, unit < 128) :
    joinSurrogates units = units := by
  fun_induction joinSurrogates units with
  | case1 high low rest surrogates ih =>
    have small := ascii high (mem_cons_self ..)
    have notHigh : isHighSurrogate high = false := by
      simp only [isHighSurrogate, Bool.and_eq_false_iff, decide_eq_false_iff_not]
      omega
    rw [notHigh] at surrogates
    exact absurd surrogates.1 Bool.false_ne_true
  | case2 high low rest surrogates ih =>
    rw [ih fun unit member => ascii unit (mem_cons_of_mem _ member)]
  | case3 short _ => rfl

theorem scanString_append {text : Text} (plain : ∀ char ∈ text, IsPlain char) (rest : Text) :
    scanString (text ++ '"' :: rest) = .ok (str text, rest) := by
  have ascii : ∀ unit ∈ str text, unit < 128 := by
    intro unit member
    obtain ⟨char, inText, rfl⟩ := mem_map.mp member
    exact (plain char inText).1
  rw [scanString, scanUnits_append plain]
  simp only [Except.map, joinSurrogates_of_ascii ascii]

end XFerry.Json
