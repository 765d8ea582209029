/-
Strings in the inline scripts of SMUGGLE pages.

The literal of a string stands in a script element or in an attribute.  Nothing in it ends
either of them, and it evaluates to the UTF-16 units of the string, lone surrogates included.
-/

import XFerry.JavaScript.Text

namespace XFerry.SmuggleScript

open List

open JavaScript (CodePoint fourDigits readUnits stringValue unitsOf utf16)

/-- `f"\\u{value:04X}"`. -/
def unicodeEscape (value : Nat) : List Char := '\\' :: 'u' :: fourDigits value

/-- What is written for one character. -/
def inlineCharacter (char : CodePoint) : List Char :=
  let codepoint := char.val
  if codepoint = '\\'.toNat then "\\\\".toList
  else if codepoint = '\''.toNat then "\\u0027".toList
  else if codepoint = '"'.toNat then "\\u0022".toList
  else if codepoint = '<'.toNat then "\\u003C".toList
  else if codepoint = '>'.toNat then "\\u003E".toList
  else if codepoint = '&'.toNat then "\\u0026".toList
  else if codepoint < 32 ∨ codepoint = 127 then unicodeEscape codepoint
  else if codepoint = 0x2028 ∨ codepoint = 0x2029 then unicodeEscape codepoint
  else if codepoint ≤ 0x7F then [Char.ofNat codepoint]
  else if codepoint ≤ 0xFFFF then unicodeEscape codepoint
  else
    let surrogate := codepoint - 0x10000
    let high := 0xD800 + (surrogate >>> 10)
    let low := 0xDC00 + (surrogate &&& 0x3FF)
    unicodeEscape high ++ unicodeEscape low

def safeInlineJavascriptString (value : List CodePoint) : List Char :=
  '\'' :: value.flatMap inlineCharacter ++ ['\'']

/-- A character that ends neither a literal nor a line, an element or an attribute. -/
def IsInert (char : Char) : Prop :=
  32 ≤ char.toNat ∧ char.toNat < 127 ∧ char ∉ ['<', '>', '&', '\'', '"']

instance (char : Char) : Decidable (IsInert char) := by
  unfold IsInert
  infer_instance

theorem inlineCharacter_cases (char : CodePoint) :
    char.val = '\\'.toNat ∧ inlineCharacter char = "\\\\".toList ∨
      (IsInert (Char.ofNat char.val) ∧ char.val < 128 ∧ char.val ≠ '\\'.toNat) ∧
        inlineCharacter char = [Char.ofNat char.val] ∨
      char.val < 0x10000 ∧ inlineCharacter char = unicodeEscape char.val ∨
      0x10000 ≤ char.val ∧ inlineCharacter char =
        unicodeEscape (0xD800 + (char.val - 0x10000) / 0x400) ++
          unicodeEscape (0xDC00 + (char.val - 0x10000) % 0x400) := by
  have ascii : ∀ code < 128, ∀ inside : code < 0x110000,
      code = '\\'.toNat ∧ inlineCharacter ⟨code, inside⟩ = "\\\\".toList ∨
        (IsInert (Char.ofNat code) ∧ code ≠ '\\'.toNat) ∧
          inlineCharacter ⟨code, inside⟩ = [Char.ofNat code] ∨
        inlineCharacter ⟨code, inside⟩ = unicodeEscape code := by
    intro code small
    have table : ∀ code : Fin 128,
        code.val = '\\'.toNat ∧ inlineCharacter (code.castLE (by decide)) = "\\\\".toList ∨
          (IsInert (Char.ofNat code.val) ∧ code.val ≠ '\\'.toNat) ∧
            inlineCharacter (code.castLE (by decide)) = [Char.ofNat code.val] ∨
          inlineCharacter (code.castLE (by decide)) = unicodeEscape code.val := by
      decide +kernel
    exact fun _ => table ⟨code, small⟩
  by_cases small : char.val < 128
  · rcases ascii char.val small char.isLt with slash | plain | escaped
    · exact .inl slash
    · exact .inr (.inl ⟨⟨plain.1.1, small, plain.1.2⟩, plain.2⟩)
    · exact .inr (.inr (.inl ⟨by omega, escaped⟩))
  · right
    right
    have other : ∀ known : Nat, known < 128 → char.val ≠ known := fun known isSmall same =>
      small (same ▸ isSmall)
    unfold inlineCharacter
    dsimp only
    rw [if_neg (other _ (by decide)), if_neg (other _ (by decide)), if_neg (other _ (by decide)),
      if_neg (other _ (by decide)), if_neg (other _ (by decide)), if_neg (other _ (by decide)),
      if_neg (by omega)]
    by_cases separator : char.val = 0x2028 ∨ char.val = 0x2029
    · rw [if_pos separator]
      exact .inl ⟨by omega, rfl⟩
    rw [if_neg separator, if_neg (by omega)]
    by_cases basic : char.val ≤ 0xFFFF
    · rw [if_pos basic]
      exact .inl ⟨by omega, rfl⟩
    have mask : (0x3FF : Nat) = 2 ^ 10 - 1 := rfl
    rw [if_neg basic, Nat.shiftRight_eq_div_pow, mask, Nat.and_two_pow_sub_one_eq_mod]
    exact .inr ⟨by omega, rfl⟩

theorem unicodeEscape_inert (value : Nat) : ∀ char ∈ unicodeEscape value, IsInert char := by
  have digits : ∀ digit, IsInert (JavaScript.upperHexDigits.getD digit '0') := by
    intro digit
    by_cases inside : digit < JavaScript.upperHexDigits.length
    · have table : ∀ char ∈ JavaScript.upperHexDigits, IsInert char := by decide
      rw [getD_eq_getElem _ _ inside]
      exact table _ (getElem_mem inside)
    · rw [getD_eq_default _ _ (by omega)]
      decide
  simp only [unicodeEscape, fourDigits, forall_mem_cons, not_mem_nil, false_imp_iff,
    implies_true, and_true, digits]
  decide

theorem inlineCharacter_inert (char : CodePoint) :
    ∀ written ∈ inlineCharacter char, IsInert written := by
  rcases inlineCharacter_cases char with ⟨_, same⟩ | ⟨⟨inert, _⟩, same⟩ | ⟨_, same⟩ | ⟨_, same⟩
  · rw [same]
    decide
  · rw [same]
    exact forall_mem_singleton.mpr inert
  · rw [same]
    exact unicodeEscape_inert _
  · rw [same, forall_mem_append]
    exact ⟨unicodeEscape_inert _, unicodeEscape_inert _⟩

theorem readUnits_inlineCharacter (char : CodePoint) (rest : List Char) :
    readUnits (inlineCharacter char ++ rest) = (readUnits rest).map (unitsOf char ++ ·) := by
  have bounded := char.isLt
  rcases inlineCharacter_cases char with
    ⟨slash, same⟩ | ⟨⟨inert, small, noEscape⟩, same⟩ | ⟨basic, same⟩ | ⟨astral, same⟩
  · obtain rfl : char = ⟨'\\'.toNat, by decide⟩ := Fin.ext slash
    rw [same]
    rfl
  · have code : (Char.ofNat char.val).toNat = char.val := by
      have table : ∀ code < 128, (Char.ofNat code).toNat = code := by decide
      exact table _ small
    have inLine : JavaScript.isLineTerminator (Char.ofNat char.val) = false := by
      unfold IsInert at inert
      rw [JavaScript.isLineTerminator, code]
      simp only [contains_cons, contains_nil, Bool.or_false, Bool.or_eq_false_iff,
        beq_eq_false_iff_ne]
      omega
    have points : utf16 (JavaScript.pointsOf [Char.ofNat char.val]) = unitsOf char := by
      have point : (⟨(Char.ofNat char.val).toNat, JavaScript.toNat_lt_points _⟩ : CodePoint) =
          char := Fin.ext code
      rw [JavaScript.pointsOf, map_cons, map_nil, point, utf16, flatMap_singleton]
    rw [same, singleton_append, JavaScript.readUnits_plain _ _ inLine, points]
    · rintro quote
      rw [quote] at inert
      exact absurd inert (by decide)
    · rintro slash
      rw [slash] at code
      exact noEscape code.symm
  · rw [same, unicodeEscape, JavaScript.readUnits_escape basic, unitsOf, if_pos basic]
    rfl
  · rw [same, append_assoc, unicodeEscape, JavaScript.readUnits_escape (by omega),
      unicodeEscape, JavaScript.readUnits_escape (by omega), unitsOf, if_neg (by omega),
      Option.map_map]
    rfl

theorem readUnits_flatMap (value : List CodePoint) :
    readUnits (value.flatMap inlineCharacter ++ ['\'']) = some (utf16 value) := by
  induction value with
  | nil => rfl
  | cons char rest ih =>
    rw [flatMap_cons, append_assoc, readUnits_inlineCharacter, ih]
    rfl

/-- A literal is its quotes and inert characters, and evaluates to the string. -/
theorem inlineString_exact (value : List CodePoint) :
    stringValue (safeInlineJavascriptString value) = some (utf16 value) ∧
      ∃ body, safeInlineJavascriptString value = '\'' :: body ++ ['\''] ∧
        ∀ char ∈ body, IsInert char := by
  refine ⟨readUnits_flatMap value, value.flatMap inlineCharacter, rfl, ?_⟩
  intro written member
  obtain ⟨char, _, isWritten⟩ := mem_flatMap.mp member
  exact inlineCharacter_inert char written isWritten

end XFerry.SmuggleScript
