/-
Strings of JavaScript and the base64 functions of the browser.

A string is a list of UTF-16 units.  A Python `str` is written in them as any text is,
a lone surrogate as itself.
-/

import XFerry.Encoding.Base64Url

namespace XFerry.JavaScript

open List

abbrev Text := List UInt16

/-- A character of a `str`, which may be a lone surrogate. -/
abbrev CodePoint := Fin 0x110000

def unitsOf (code : CodePoint) : Text :=
  if code.val < 0x10000 then [UInt16.ofNat code.val]
  else
    [UInt16.ofNat (0xD800 + (code.val - 0x10000) / 0x400),
      UInt16.ofNat (0xDC00 + (code.val - 0x10000) % 0x400)]

def utf16 (text : List CodePoint) : Text := text.flatMap unitsOf

/-- The codes of the characters of a `str`. -/
def codesOf (text : List CodePoint) : List Nat := text.map Fin.val

theorem toNat_lt_points (char : Char) : char.toNat < 0x110000 := by
  rcases char.valid with below | ⟨_, above⟩
  · exact Nat.lt_trans below (by decide)
  · exact above

def pointsOf (text : List Char) : List CodePoint :=
  text.map fun char => ⟨char.toNat, toNat_lt_points char⟩

def unitCodes (text : Text) : List Nat := text.map UInt16.toNat

def literal (text : List Char) : Text := text.map fun char => UInt16.ofNat char.toNat

def btoa (data : List UInt8) : Text := literal (Base64.encode data)

def isAsciiWhitespace (unit : UInt16) : Bool :=
  [0x09, 0x0A, 0x0C, 0x0D, 0x20].contains unit.toNat

def withoutPadding (text : List Nat) : List Nat :=
  if text.length % 4 = 0 then
    if text.drop (text.length - 2) = ['='.toNat, '='.toNat] then text.take (text.length - 2)
    else if text.drop (text.length - 1) = ['='.toNat] then text.take (text.length - 1)
    else text
  else text

/-- `atob`, with `none` for `InvalidCharacterError`.  The bits that are left of the last
digit are dropped. -/
def atob (text : Text) : Option (List UInt8) :=
  let digits := withoutPadding (unitCodes (text.filter fun unit => !isAsciiWhitespace unit))
  if digits.length % 4 = 1 then none
  else (digits.mapM fun code => Base64Url.digitValue (Base64.toUrl code)).map Base64Url.join

theorem unitCodes_unitsOf {code : CodePoint} (small : code.val < 0x10000) :
    unitCodes (unitsOf code) = [code.val] := by
  rw [unitsOf, if_pos small, unitCodes, map_cons, map_nil, UInt16.toNat_ofNat',
    Nat.mod_eq_of_lt small]

theorem all_unitsOf {accepts : Nat → Bool} (ascii : ∀ code, accepts code = true → code < 128)
    (code : CodePoint) :
    (unitCodes (unitsOf code)).all accepts = true ↔ accepts code.val = true := by
  by_cases small : code.val < 0x10000
  · rw [unitCodes_unitsOf small, all_cons, all_nil, Bool.and_true]
  have high : ¬ accepts code.val = true := fun accepted => by
    have below := ascii _ accepted
    omega
  have lead : ¬ accepts (UInt16.ofNat (0xD800 + (code.val - 0x10000) / 0x400)).toNat = true :=
    fun accepted => by
      have below := ascii _ accepted
      rw [UInt16.toNat_ofNat'] at below
      omega
  rw [unitsOf, if_neg small, unitCodes, map_cons, all_cons, Bool.and_eq_true]
  exact iff_of_false (fun both => lead both.1) high

theorem all_utf16 {accepts : Nat → Bool} (ascii : ∀ code, accepts code = true → code < 128)
    (text : List CodePoint) :
    (unitCodes (utf16 text)).all accepts = true ↔ (codesOf text).all accepts = true := by
  induction text with
  | nil => exact Iff.rfl
  | cons code rest ih =>
    rw [utf16, flatMap_cons, unitCodes, map_append, all_append, codesOf,
      map_cons, all_cons, Bool.and_eq_true, Bool.and_eq_true]
    exact and_congr (all_unitsOf ascii code) ih

theorem unitCodes_utf16 {text : List CodePoint} (small : ∀ code ∈ codesOf text, code < 0x10000) :
    unitCodes (utf16 text) = codesOf text := by
  induction text with
  | nil => rfl
  | cons code rest ih =>
    rw [codesOf, map_cons, forall_mem_cons] at small
    rw [utf16, flatMap_cons, unitCodes, map_append, codesOf, map_cons]
    exact congrArg₂ (· ++ ·) (unitCodes_unitsOf small.1) (ih small.2)

theorem codesOf_pointsOf (text : List Char) : codesOf (pointsOf text) = text.map Char.toNat := by
  rw [codesOf, pointsOf, map_map]
  rfl

theorem unitCodes_literal {text : List Char} (ascii : ∀ char ∈ text, char.toNat < 128) :
    unitCodes (literal text) = text.map Char.toNat := by
  rw [unitCodes, literal, map_map]
  refine map_congr_left ?_
  intro char among
  have small := ascii char among
  rw [Function.comp_apply, UInt16.toNat_ofNat']
  omega

def upperHexDigits : List Char := "0123456789ABCDEF".toList

def hexDigitValue (code : Nat) : Option Nat :=
  let position := ("0123456789abcdefABCDEF".toList.map Char.toNat).idxOf code
  if position < 16 then some position else if position < 22 then some (position - 6) else none

theorem upperHexDigits_read : ∀ value < 16,
    (upperHexDigits.map Char.toNat).contains (upperHexDigits.getD value '0').toNat = true ∧
      (upperHexDigits.getD value '0').toNat < 128 ∧
      hexDigitValue (upperHexDigits.getD value '0').toNat = some value := by
  decide +kernel

/-- `f"{value:04X}"`, of a value below 65536. -/
def fourDigits (value : Nat) : List Char :=
  [upperHexDigits.getD (value / 4096) '0', upperHexDigits.getD (value / 256 % 16) '0',
    upperHexDigits.getD (value / 16 % 16) '0', upperHexDigits.getD (value % 16) '0']

def readDigits (digits : List Char) : Option Nat :=
  (digits.mapM fun digit => hexDigitValue digit.toNat).map
    (List.foldl (fun value digit => value * 16 + digit) 0)

theorem readDigits_fourDigits {value : Nat} (small : value < 65536) :
    readDigits (fourDigits value) = some value := by
  have first := (upperHexDigits_read (value / 4096) (by omega)).2.2
  have second := (upperHexDigits_read (value / 256 % 16) (by omega)).2.2
  have third := (upperHexDigits_read (value / 16 % 16) (by omega)).2.2
  have fourth := (upperHexDigits_read (value % 16) (by omega)).2.2
  have whole : ((value / 4096 * 16 + value / 256 % 16) * 16 + value / 16 % 16) * 16 +
      value % 16 = value := by omega
  simp only [readDigits, fourDigits, List.mapM_cons, List.mapM_nil, first, second, third, fourth]
  change some ((((0 * 16 + value / 4096) * 16 + value / 256 % 16) * 16 + value / 16 % 16) * 16 +
    value % 16) = some value
  rw [Nat.zero_mul, Nat.zero_add, whole]

def isLineTerminator (char : Char) : Bool := [0x0A, 0x0D, 0x2028, 0x2029].contains char.toNat

/-- What a backslash and one more character stand for. -/
def singleEscape (char : Char) : Option Text :=
  if char.isDigit = true ∨ char = 'x' ∨ char = 'u' ∨ isLineTerminator char = true then none
  else
    match [('b', 8), ('t', 9), ('n', 10), ('v', 11), ('f', 12), ('r', 13)].lookup char with
    | some code => some [UInt16.ofNat code]
    | none => some (utf16 (pointsOf [char]))

/-- The units that follow the opening quote, up to a closing quote at the end. -/
def readUnits : List Char → Option Text
  | [] => none
  | char :: rest =>
    if char = '\'' then if rest = [] then some [] else none
    else if char = '\\' then
      match rest with
      | 'u' :: first :: second :: third :: fourth :: tail =>
        match readDigits [first, second, third, fourth] with
        | some unit => (readUnits tail).map (UInt16.ofNat unit :: ·)
        | none => none
      | escape :: tail =>
        match singleEscape escape with
        | some units => (readUnits tail).map (units ++ ·)
        | none => none
      | [] => none
    else if isLineTerminator char = true then none
    else (readUnits rest).map (utf16 (pointsOf [char]) ++ ·)

/-- The value of a text that is one literal in single quotes. -/
def stringValue : List Char → Option Text
  | '\'' :: rest => readUnits rest
  | _ => none

theorem readUnits_escape {value : Nat} (small : value < 65536) (rest : List Char) :
    readUnits ('\\' :: 'u' :: fourDigits value ++ rest) =
      (readUnits rest).map (UInt16.ofNat value :: ·) := by
  have read := readDigits_fourDigits small
  simp only [fourDigits] at read
  simp only [fourDigits, List.cons_append, List.nil_append]
  rw [readUnits, if_neg (by decide), if_pos rfl, read]

theorem readUnits_plain {char : Char} (noQuote : char ≠ '\'') (noEscape : char ≠ '\\')
    (inLine : isLineTerminator char = false) (rest : List Char) :
    readUnits (char :: rest) = (readUnits rest).map (utf16 (pointsOf [char]) ++ ·) := by
  rw [readUnits.eq_def]
  dsimp only
  rw [if_neg noQuote, if_neg noEscape, inLine, if_neg Bool.false_ne_true]

end XFerry.JavaScript
