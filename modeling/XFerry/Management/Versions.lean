/-
Canonical release versions and their precedence.
-/

import XFerry.Python.Text

namespace XFerry.Management

open Python

def isDigit (char : Char) : Bool := decide (Between '0' '9' char)

def isAlphanumeric (char : Char) : Bool :=
  decide (Between '0' '9' char ∨ Between 'A' 'Z' char ∨ Between 'a' 'z' char)

/-- `(?:0|[1-9][0-9]*)` and what follows it.  Only a character that is not a digit
can follow the group in the pattern, so the group takes the whole run of digits. -/
def takeNumeral (text : Text) : Option (Text × Text) :=
  match text.takeWhile isDigit with
  | [] => none
  | '0' :: _ :: _ => none
  | digits => some (digits, text.dropWhile isDigit)

def dropDot : Text → Option Text
  | '.' :: rest => some rest
  | _ => none

/-- `(?:[-+][0-9A-Za-z][0-9A-Za-z.-]*)?\Z`. -/
def isVersionSuffix : Text → Bool
  | [] => true
  | mark :: first :: rest =>
    (mark == '-' || mark == '+') && isAlphanumeric first &&
      rest.all fun char => isAlphanumeric char || char == '.' || char == '-'
  | [_] => false

/-- `_CANONICAL_RELEASE_VERSION_RE`: the three numerals and the suffix. -/
def splitRelease (value : Text) : Option ((Text × Text × Text) × Text) := do
  let (major, rest) ← takeNumeral value
  let (minor, rest) ← takeNumeral (← dropDot rest)
  let (patch, rest) ← takeNumeral (← dropDot rest)
  return ((major, minor, patch), rest)

def isCanonicalReleaseVersion (value : Text) : Bool :=
  match splitRelease value with
  | none => false
  | some (_, suffix) => isVersionSuffix suffix

/-- `xferry.config.__version__`. -/
def packageVersion : Text := "0.5.0".toList

def minDeploymentRelease : Text := "0.5.0".toList

/-- `version.split(".", 1)[0]`. -/
def releaseMajor (version : Text) : Text := version.takeWhile (· ≠ '.')

def isSupportedReleaseVersion (value : Text) : Bool :=
  isCanonicalReleaseVersion value && releaseMajor value == releaseMajor packageVersion

/-- `int` of a run of ASCII digits, with `none` for `ValueError`. -/
def decimalNumeral (digits : Text) : Option Nat :=
  if maxStrDigits < digits.length then none
  else some (ofDigits (digits.map fun digit => digit.toNat - '0'.toNat))

structure ReleaseParts where
  core : Nat × Nat × Nat
  prerelease : Option (List Text)

def releaseParts (value : Text) : Option ReleaseParts := do
  let withoutBuild := value.takeWhile (· ≠ '+')
  let core := withoutBuild.takeWhile (· ≠ '-')
  let prerelease :=
    match withoutBuild.dropWhile (· ≠ '-') with
    | [] => none
    | _ :: identifiers => some (identifiers.splitOn '.')
  match core.splitOn '.' with
  | [major, minor, patch] =>
    return { core := (← decimalNumeral major, ← decimalNumeral minor, ← decimalNumeral patch)
             prerelease := prerelease }
  | _ => none

def coreLess (left right : Nat × Nat × Nat) : Bool :=
  decide (left.1 < right.1 ∨ left.1 = right.1 ∧
    (left.2.1 < right.2.1 ∨ left.2.1 = right.2.1 ∧ left.2.2 < right.2.2))

/-- `str.isdigit` of an identifier, which is ASCII and may be empty. -/
def isNumericIdentifier (identifier : Text) : Bool := !identifier.isEmpty && identifier.all isDigit

def compareIdentifiers (left right : Text) : Option Int :=
  match isNumericIdentifier left, isNumericIdentifier right with
  | true, true => do
      return if (← decimalNumeral left) < (← decimalNumeral right) then -1 else 1
  | true, false => some (-1)
  | false, true => some 1
  | false, false => some (if left < right then -1 else 1)

def comparePrereleases : List Text → List Text → Option Int
  | [], [] => some 0
  | [], _ :: _ => some (-1)
  | _ :: _, [] => some 1
  | left :: lefts, right :: rights =>
    if left = right then comparePrereleases lefts rights else compareIdentifiers left right

/-- `compare_release_versions`, with `none` for `ValueError`. -/
def compareReleaseVersions (left right : Text) : Option Int := do
  if !isCanonicalReleaseVersion left || !isCanonicalReleaseVersion right then none
  else do
    let leftParts ← releaseParts left
    let rightParts ← releaseParts right
    if leftParts.core ≠ rightParts.core then
      return if coreLess leftParts.core rightParts.core then -1 else 1
    else
      match leftParts.prerelease, rightParts.prerelease with
      | none, none => return 0
      | none, some _ => return 1
      | some _, none => return -1
      | some lefts, some rights => comparePrereleases lefts rights

theorem takeNumeral_head {text digits rest : Text}
    (taken : takeNumeral text = some (digits, rest)) :
    ∃ digit more, text = digit :: more ∧ isDigit digit = true := by
  cases text with
  | nil => cases taken
  | cons first more =>
    refine ⟨first, more, rfl, ?_⟩
    by_cases digit : isDigit first = true
    · exact digit
    · simp [takeNumeral, digit] at taken

theorem canonical_head {version : Text} (canonical : isCanonicalReleaseVersion version = true) :
    ∃ digit more, version = digit :: more ∧ isDigit digit = true := by
  unfold isCanonicalReleaseVersion at canonical
  cases split : splitRelease version with
  | none =>
    rw [split] at canonical
    cases canonical
  | some parts =>
    unfold splitRelease at split
    cases taken : takeNumeral version with
    | none =>
      rw [taken] at split
      cases split
    | some numeral => exact takeNumeral_head taken

theorem compare_canonical {left right : Text} {order : Int}
    (compared : compareReleaseVersions left right = some order) :
    isCanonicalReleaseVersion left = true := by
  unfold compareReleaseVersions at compared
  split at compared
  · cases compared
  rename_i canonical
  cases answer : isCanonicalReleaseVersion left with
  | true => rfl
  | false => simp [answer] at canonical

end XFerry.Management
