/-
The operations on Python's `str` and `bytes` that the server parses requests with.

A `str` is a list of characters.  What depends on the Unicode tables of the
interpreter (lower case, white space, decimal digits) is a parameter, of which only
what the tables say of the ASCII range is laid down.
-/

import XFerry.Lists

namespace XFerry.Python

abbrev Bytes := List UInt8

abbrev Text := List Char

/-- The characters from `first` to `last`. -/
def Between (first last : Char) (char : Char) : Prop :=
  first.toNat ≤ char.toNat ∧ char.toNat ≤ last.toNat

instance (first last char : Char) : Decidable (Between first last char) := by
  unfold Between
  infer_instance

def IsAscii (char : Char) : Prop := char.toNat < 128

instance (char : Char) : Decidable (IsAscii char) := by
  unfold IsAscii
  infer_instance

theorem toLower_of_not_isAscii {char : Char} (other : ¬ IsAscii char) : char.toLower = char := by
  have upper : ¬ (char.val ≥ 'A'.val ∧ char.val ≤ 'Z'.val) := by
    intro both
    have below : char.toNat ≤ 90 := both.2
    exact other (by unfold IsAscii; omega)
  rw [Char.toLower, dif_neg upper]

/-- `lowerAt before char after` is the lower case of a character, which can depend
on the text around it.  Only U+212A and U+0130 outside ASCII have a lower case that
starts inside it, with `k` and `i`. -/
structure Unicode where
  lowerAt : Text → Char → Text → Text
  isSpace : Char → Bool
  decimal : Char → Option Nat
  lowerAt_ascii : ∀ before char after, IsAscii char → lowerAt before char after = [char.toLower]
  lowerAt_other : ∀ before char after, ¬ IsAscii char → ∃ head tail,
    lowerAt before char after = head :: tail ∧ (head = 'k' ∨ head = 'i' ∨ ¬ IsAscii head)
  isSpace_ascii : ∀ char, IsAscii char →
    (isSpace char = true ↔ Between '\t' '\r' char ∨ Between '\x1c' ' ' char)
  decimal_ascii : ∀ char, IsAscii char →
    decimal char = if Between '0' '9' char then some (char.toNat - '0'.toNat) else none

def Unicode.ascii : Unicode :=
  { lowerAt := fun _ char _ => [char.toLower]
    isSpace := fun char => decide (Between '\t' '\r' char ∨ Between '\x1c' ' ' char)
    decimal := fun char =>
      if Between '0' '9' char then some (char.toNat - '0'.toNat) else none
    lowerAt_ascii := fun _ _ _ _ => rfl
    lowerAt_other := by
      intro before char after other
      refine ⟨char.toLower, [], rfl, .inr (.inr ?_)⟩
      rw [toLower_of_not_isAscii other]
      exact other
    isSpace_ascii := by simp
    decimal_ascii := fun _ _ => rfl }

/-- `str.strip(chars)`, with the characters as a predicate. -/
def trim (drops : Char → Bool) (text : Text) : Text :=
  ((text.dropWhile drops).reverse.dropWhile drops).reverse

namespace Unicode

variable (unicode : Unicode)

def lowerFrom (before : Text) : Text → Text
  | [] => []
  | char :: rest =>
    unicode.lowerAt before char rest ++ lowerFrom (before ++ [char]) rest

def lower (text : Text) : Text := unicode.lowerFrom [] text

def strip (text : Text) : Text := trim unicode.isSpace text

def digitRun (afterDigit : Bool) : Text → Option (List Nat)
  | [] => if afterDigit then some [] else none
  | char :: rest =>
    match unicode.decimal char with
    | some digit => (digitRun true rest).map (digit :: ·)
    | none => if char = '_' ∧ afterDigit then digitRun false rest else none

end Unicode

def ofDigits (digits : List Nat) : Nat := digits.foldl (fun value digit => 10 * value + digit) 0

/-- `sys.int_info.default_max_str_digits`. -/
def maxStrDigits : Nat := 4300

namespace Unicode

variable (unicode : Unicode)

def unsignedInt (text : Text) : Option Nat :=
  match unicode.digitRun false text with
  | none => none
  | some digits => if maxStrDigits < digits.length then none else some (ofDigits digits)

/-- `int(str)`, with `none` for `ValueError`. -/
def int (text : Text) : Option Int :=
  match unicode.strip text with
  | '+' :: digits => (unicode.unsignedInt digits).map Int.ofNat
  | '-' :: digits => (unicode.unsignedInt digits).map fun value => -Int.ofNat value
  | digits => (unicode.unsignedInt digits).map Int.ofNat

end Unicode

/-- `str.split("\r\n")`. -/
def splitCrlf : Text → List Text
  | [] => [[]]
  | '\r' :: '\n' :: rest => [] :: splitCrlf rest
  | char :: rest =>
    match splitCrlf rest with
    | [] => [[char]]
    | line :: lines => (char :: line) :: lines

/-- `str.split(":", 1)` where there is a colon. -/
def splitColon (line : Text) : Option (Text × Text) :=
  match line.dropWhile (· ≠ ':') with
  | [] => none
  | _ :: value => some (line.takeWhile (· ≠ ':'), value)

/-- `str.split(" ")`. -/
def splitSpace : Text → List Text
  | [] => [[]]
  | char :: rest =>
    match splitSpace rest with
    | [] => [[char]]
    | part :: parts => if char = ' ' then [] :: part :: parts else (char :: part) :: parts

/-- A character whose first bytes have been read: how many are owed, the bounds of
the next one, and the bits so far. -/
structure Utf8.Pending where
  owed : Nat
  low : Nat
  high : Nat
  bits : Nat

namespace Utf8

/-- What a byte gives at the start of a character, where `none` stands for a byte
that is not decoded. -/
def enter (byte : Nat) : List (Option Char) × Option Pending :=
  if byte < 0x80 then ([some (Char.ofNat byte)], none)
  else if byte < 0xC2 then ([none], none)
  else if byte < 0xE0 then ([], some { owed := 1, low := 0x80, high := 0xBF, bits := byte - 0xC0 })
  else if byte < 0xF0 then
    ([], some
      { owed := 2
        low := if byte = 0xE0 then 0xA0 else 0x80
        high := if byte = 0xED then 0x9F else 0xBF
        bits := byte - 0xE0 })
  else if byte < 0xF5 then
    ([], some
      { owed := 3
        low := if byte = 0xF0 then 0x90 else 0x80
        high := if byte = 0xF4 then 0x8F else 0xBF
        bits := byte - 0xF0 })
  else ([none], none)

/-- Each `none` is one maximal part that no character starts with. -/
def decodeFrom : Option Pending → Bytes → List (Option Char)
  | none, [] => []
  | some _, [] => [none]
  | none, byte :: rest =>
    let entered := enter byte.toNat
    entered.1 ++ decodeFrom entered.2 rest
  | some pending, byte :: rest =>
    if pending.low ≤ byte.toNat ∧ byte.toNat ≤ pending.high then
      let bits := pending.bits * 64 + (byte.toNat - 0x80)
      if pending.owed = 1 then
        some (Char.ofNat bits) :: decodeFrom none rest
      else
        decodeFrom (some { owed := pending.owed - 1, low := 0x80, high := 0xBF, bits := bits }) rest
    else
      let entered := enter byte.toNat
      none :: (entered.1 ++ decodeFrom entered.2 rest)

end Utf8

def decodeChars (data : Bytes) : List (Option Char) := Utf8.decodeFrom none data

/-- `bytes.decode("utf-8")`, with `none` for `UnicodeDecodeError`. -/
def decode (data : Bytes) : Option Text := (decodeChars data).mapM id

/-- `bytes.decode("utf-8", errors="replace")`. -/
def decodeReplacing (data : Bytes) : Text := (decodeChars data).map fun char => char.getD '\uFFFD'

theorem map_getD_of_mapM {chars : List (Option Char)} {text : Text} {fallback : Char}
    (read : chars.mapM id = some text) : chars.map (fun char => char.getD fallback) = text := by
  induction chars generalizing text with
  | nil =>
    simp only [List.mapM_nil, pure, Option.some.injEq] at read
    simp [← read]
  | cons char rest ih =>
    cases char with
    | none => simp [List.mapM_cons] at read
    | some char =>
      simp only [List.mapM_cons, id, bind, Option.bind_some, Option.bind_eq_some_iff] at read
      obtain ⟨tail, readTail, whole⟩ := read
      cases whole
      simp [ih readTail]

theorem decodeReplacing_of_decode {data : Bytes} {text : Text}
    (read : decode data = some text) : decodeReplacing data = text :=
  map_getD_of_mapM read

def isSurrogate (code : Nat) : Bool := 0xD800 ≤ code && code ≤ 0xDFFF

def encodePoint (code : Nat) : Option Bytes :=
  if code < 0x80 then some [UInt8.ofNat code]
  else if code < 0x800 then
    some [UInt8.ofNat (0xC0 + code / 64), UInt8.ofNat (0x80 + code % 64)]
  else if isSurrogate code = true then none
  else if code < 0x10000 then
    some
      [UInt8.ofNat (0xE0 + code / 4096), UInt8.ofNat (0x80 + code / 64 % 64),
        UInt8.ofNat (0x80 + code % 64)]
  else
    some
      [UInt8.ofNat (0xF0 + code / 262144), UInt8.ofNat (0x80 + code / 4096 % 64),
        UInt8.ofNat (0x80 + code / 64 % 64), UInt8.ofNat (0x80 + code % 64)]

/-- `none` stands for `UnicodeEncodeError`. -/
def encode (codes : List Nat) : Option Bytes := (codes.mapM encodePoint).map List.flatten

theorem encodePoint_isSome {code : Nat} :
    (encodePoint code).isSome = true ↔ isSurrogate code = false := by
  unfold encodePoint
  split
  · have small : isSurrogate code = false := by simp [isSurrogate]; omega
    simp [small]
  split
  · have small : isSurrogate code = false := by simp [isSurrogate]; omega
    simp [small]
  split
  · case _ lone => simp [lone]
  rename_i paired
  split <;> simpa using paired

theorem encode_isSome {codes : List Nat} :
    (encode codes).isSome = true ↔ ∀ code ∈ codes, isSurrogate code = false := by
  unfold encode
  induction codes with
  | nil => simp
  | cons code rest ih =>
    rw [List.forall_mem_cons, ← ih, ← encodePoint_isSome, List.mapM_cons]
    cases encodePoint code with
    | none => simp
    | some first =>
      cases rest.mapM encodePoint with
      | none | some => simp

theorem isSurrogate_toNat (char : Char) : isSurrogate char.toNat = false := by
  have valid := char.valid
  simp only [isSurrogate, Bool.and_eq_false_iff, decide_eq_false_iff_not]
  change char.toNat < 0xd800 ∨ 0xdfff < char.toNat ∧ _ at valid
  omega

theorem encode_text (text : Text) : (encode (text.map Char.toNat)).isSome = true := by
  rw [encode_isSome]
  intro code member
  obtain ⟨char, _, rfl⟩ := List.mem_map.mp member
  exact isSurrogate_toNat char

end XFerry.Python
