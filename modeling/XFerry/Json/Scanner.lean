/-
`json.loads` of a text, with a hook that refuses an object with two members of one name.

The scanner goes on from what is left of the text.  It descends into an object or an
array only while the interpreter allows another level; a loop over members or items
takes at least one character each time, so the length of the text is fuel enough.
-/

import XFerry.Python.Binary64
import XFerry.Python.Text

namespace XFerry.Json

open Python

/-- A `str` that can hold lone surrogates, by its code points. -/
abbrev Str := List Nat

def str (text : Text) : Str := text.map Char.toNat

inductive Value where
  | null
  | boolean (value : Bool)
  | int (value : Int)
  | float (value : PyFloat)
  | string (value : Str)
  | array (items : List Value)
  | object (members : List (Str × Value))

/-- Why nothing is returned: `JSONDecodeError`, the `ValueError` of `int()`,
`RecursionError`, and the exception of the hook, for the name it has seen before. -/
inductive LoadsError where
  | malformed
  | tooManyDigits
  | tooDeep
  | duplicateMember (name : Str)
deriving DecidableEq, Repr

abbrev Scan (α : Type) := Except LoadsError (α × Text)

def isWhitespace (char : Char) : Bool :=
  char = ' ' || char = '\t' || char = '\n' || char = '\r'

def skipWhitespace (text : Text) : Text := text.dropWhile isWhitespace

def hexValue (char : Char) : Option Nat :=
  if Between '0' '9' char then some (char.toNat - '0'.toNat)
  else if Between 'a' 'f' char then some (char.toNat - 'a'.toNat + 10)
  else if Between 'A' 'F' char then some (char.toNat - 'A'.toNat + 10)
  else none

def escapedUnit (first second third fourth : Char) : Option Nat := do
  let first ← hexValue first
  let second ← hexValue second
  let third ← hexValue third
  let fourth ← hexValue fourth
  return ((first * 16 + second) * 16 + third) * 16 + fourth

def simpleEscape (char : Char) : Option Nat :=
  match char with
  | '"' => some 34
  | '\\' => some 92
  | '/' => some 47
  | 'b' => some 8
  | 'f' => some 12
  | 'n' => some 10
  | 'r' => some 13
  | 't' => some 9
  | _ => none

def withUnit (unit : Nat) (scanned : Scan Str) : Scan Str :=
  scanned.map fun result => (unit :: result.1, result.2)

def scanUnits : Text → Scan Str
  | [] => .error .malformed
  | '"' :: rest => .ok ([], rest)
  | '\\' :: 'u' :: first :: second :: third :: fourth :: rest =>
    match escapedUnit first second third fourth with
    | none => .error .malformed
    | some unit => withUnit unit (scanUnits rest)
  | '\\' :: char :: rest =>
    match simpleEscape char with
    | none => .error .malformed
    | some unit => withUnit unit (scanUnits rest)
  | char :: rest =>
    if char.toNat < 0x20 ∨ char = '\\' then .error .malformed
    else withUnit char.toNat (scanUnits rest)

def isHighSurrogate (unit : Nat) : Bool := 0xD800 ≤ unit && unit ≤ 0xDBFF

def isLowSurrogate (unit : Nat) : Bool := 0xDC00 ≤ unit && unit ≤ 0xDFFF

def joinSurrogates : Str → Str
  | high :: low :: rest =>
    if isHighSurrogate high = true ∧ isLowSurrogate low = true then
      (0x10000 + (high - 0xD800) * 1024 + (low - 0xDC00)) :: joinSurrogates rest
    else high :: joinSurrogates (low :: rest)
  | short => short

def scanString (text : Text) : Scan Str :=
  (scanUnits text).map fun result => (joinSurrogates result.1, result.2)

def isDigit (char : Char) : Bool := decide (Between '0' '9' char)

def digitsValue (digits : Text) : Nat := Nat.ofDigitChars 10 digits 0

/-- `(0|[1-9]\d*)`. -/
def scanWhole : Text → Option (Text × Text)
  | '0' :: rest => some (['0'], rest)
  | text =>
    let digits := text.takeWhile isDigit
    if digits = [] then none else some (digits, text.dropWhile isDigit)

/-- `(\.\d+)?`, with the digits alone. -/
def scanFraction : Text → Text × Text
  | '.' :: rest =>
    let digits := rest.takeWhile isDigit
    if digits = [] then ([], '.' :: rest) else (digits, rest.dropWhile isDigit)
  | text => ([], text)

def splitSign : Text → Bool × Text
  | '-' :: rest => (true, rest)
  | '+' :: rest => (false, rest)
  | text => (false, text)

/-- `([eE][-+]?\d+)?`. -/
def scanExponent : Text → Option Int × Text
  | [] => (none, [])
  | char :: rest =>
    if char = 'e' ∨ char = 'E' then
      let signed := splitSign rest
      let digits := signed.2.takeWhile isDigit
      if digits = [] then (none, char :: rest)
      else
        let size : Int := digitsValue digits
        (some (if signed.1 = true then -size else size), signed.2.dropWhile isDigit)
    else (none, char :: rest)

/-- The number of `whole.fraction` times a power of ten. -/
def decimalNumber (negative : Bool) (whole fraction : Text) (exponent : Int) : ℚ :=
  let size : ℚ := digitsValue (whole ++ fraction) * (10 : ℚ) ^ (exponent - fraction.length)
  if negative = true then -size else size

def intNumber (negative : Bool) (digits : Text) : Except LoadsError Value :=
  if maxStrDigits < digits.length then .error .tooManyDigits
  else
    let size : Int := digitsValue digits
    .ok (.int (if negative = true then -size else size))

def scanUnsigned (negative : Bool) (text : Text) : Scan Value :=
  match scanWhole text with
  | none => .error .malformed
  | some (whole, afterWhole) =>
    let (fraction, afterFraction) := scanFraction afterWhole
    let (exponent, rest) := scanExponent afterFraction
    if fraction = [] ∧ exponent = none then
      (intNumber negative whole).map fun value => (value, rest)
    else
      .ok (.float (.ofRat (decimalNumber negative whole fraction (exponent.getD 0))), rest)

def scanNumber : Text → Scan Value
  | '-' :: rest => scanUnsigned true rest
  | text => scanUnsigned false text

def firstRepeated (seen : List Str) : List Str → Str
  | [] => []
  | name :: rest => if name ∈ seen then name else firstRepeated (name :: seen) rest

def closeObject (members : List (Str × Value)) : Except LoadsError Value :=
  if (members.map Prod.fst).Nodup then .ok (.object members)
  else .error (.duplicateMember (firstRepeated [] (members.map Prod.fst)))

def scanMember (scan : Text → Scan Value) : Text → Scan (Str × Value)
  | '"' :: rest =>
    match scanString rest with
    | .error error => .error error
    | .ok (name, afterName) =>
      match skipWhitespace afterName with
      | ':' :: afterColon =>
        (scan (skipWhitespace afterColon)).map fun result =>
          ((name, result.1), skipWhitespace result.2)
      | _ => .error .malformed
  | _ => .error .malformed

def scanMembers (scan : Text → Scan Value) : Nat → Text → Scan (List (Str × Value))
  | 0, _ => .error .malformed
  | fuel + 1, text =>
    match scanMember scan text with
    | .error error => .error error
    | .ok (member, '}' :: rest) => .ok ([member], rest)
    | .ok (member, ',' :: rest) =>
      (scanMembers scan fuel (skipWhitespace rest)).map fun result =>
        (member :: result.1, result.2)
    | .ok _ => .error .malformed

def scanObject (scan : Text → Scan Value) (text : Text) : Scan Value :=
  match skipWhitespace text with
  | '}' :: rest => (closeObject []).map fun value => (value, rest)
  | inner =>
    match scanMembers scan (inner.length + 1) inner with
    | .error error => .error error
    | .ok (members, rest) => (closeObject members).map fun value => (value, rest)

def scanItems (scan : Text → Scan Value) : Nat → Text → Scan (List Value)
  | 0, _ => .error .malformed
  | fuel + 1, text =>
    match scan text with
    | .error error => .error error
    | .ok (item, afterItem) =>
      match skipWhitespace afterItem with
      | ']' :: rest => .ok ([item], rest)
      | ',' :: rest =>
        (scanItems scan fuel (skipWhitespace rest)).map fun result =>
          (item :: result.1, result.2)
      | _ => .error .malformed

def scanArray (scan : Text → Scan Value) (text : Text) : Scan Value :=
  match skipWhitespace text with
  | ']' :: rest => .ok (.array [], rest)
  | inner => (scanItems scan (inner.length + 1) inner).map fun result => (.array result.1, result.2)

def scanConstant (text : Text) : Option (Value × Text) :=
  let constants : List (String × Value) :=
    [("null", .null), ("true", .boolean true), ("false", .boolean false), ("NaN", .float .nan),
      ("Infinity", .float (.infinite false)), ("-Infinity", .float (.infinite true))]
  constants.findSome? fun constant =>
    if constant.1.toList.isPrefixOf text = true then
      some (constant.2, text.drop constant.1.length)
    else none

/-- `levels` is how many more containers the interpreter descends into. -/
def scanOnce (levels : Nat) : Text → Scan Value
  | '"' :: rest => (scanString rest).map fun result => (.string result.1, result.2)
  | '{' :: rest =>
    match levels with
    | 0 => .error .tooDeep
    | inner + 1 => scanObject (scanOnce inner) rest
  | '[' :: rest =>
    match levels with
    | 0 => .error .tooDeep
    | inner + 1 => scanArray (scanOnce inner) rest
  | text =>
    match scanConstant text with
    | some result => .ok result
    | none => scanNumber text

def loads (levels : Nat) (text : Text) : Except LoadsError Value :=
  match scanOnce levels (skipWhitespace text) with
  | .error error => .error error
  | .ok (value, rest) => if skipWhitespace rest = [] then .ok value else .error .malformed

end XFerry.Json
