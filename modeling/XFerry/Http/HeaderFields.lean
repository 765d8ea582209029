/-
What the receiver's scan and the parser make of the same header lines.

The scan and the parser agree on which lines are fields of a name.  They disagree on
continuation lines, which only the parser adds to a value.
-/

import XFerry.Http.Request
import XFerry.Python.Text
import XFerry.Python.TextLemmas

namespace XFerry.Http

open Python List Option

variable (unicode : Unicode)

/-- `line.lower().startswith(name)`. -/
def startsWithName (name : String) (line : Text) : Bool :=
  name.toList.isPrefixOf (unicode.lower line)

/-- `line.split(":", 1)[1].strip()`. -/
def valueAfterColon (line : Text) : Text :=
  match splitColon line with
  | none => []
  | some (_, value) => unicode.strip value

def contentLengthLines (headersPart : Text) : List Text :=
  (splitCrlf headersPart).filter (startsWithName unicode "content-length:")

/-- The values in order, or `none` where one is not an integer. -/
def contentLengthValues (headersPart : Text) : Option (List Int) :=
  (contentLengthLines unicode headersPart).mapM fun line =>
    unicode.int (valueAfterColon unicode line)

def parseContentLength (headersPart : Text) : Option Nat :=
  match contentLengthValues unicode headersPart with
  | none => none
  | some [] => some 0
  | some (first :: rest) =>
    if (∃ other ∈ rest, other ≠ first) ∨ first < 0 then none else some first.toNat

def hasTransferEncoding (headersPart : Text) : Bool :=
  (splitCrlf headersPart).any (startsWithName unicode "transfer-encoding:")

def fieldName (line : Text) : Option Text :=
  (splitColon line).map fun parts => parts.1.map Char.toLower

def contentLengthName : Text := "content-length".toList

theorem contentLengthName_resolved : Resolved contentLengthName := by decide

theorem eq_colon_of_toLower {char : Char} (ascii : IsAscii char) (lowered : char.toLower = ':') :
    char = ':' := by
  have all : ∀ code < 128, (Char.ofNat code).toLower = ':' → Char.ofNat code = ':' := by decide
  have here := all char.toNat ascii
  rw [Char.ofNat_toNat] at here
  exact here lowered

theorem isAscii_of_map_toLower {name key : Text} (resolved : Resolved name)
    (mapped : key.map Char.toLower = name) {char : Char} (member : char ∈ key) :
    IsAscii char := by
  by_contra other
  have lowered := mem_map_of_mem (f := Char.toLower) member
  rw [mapped, toLower_of_not_isAscii other] at lowered
  exact other (resolved char lowered).1

variable (unicode : Unicode)

theorem lower_colon_prefix_iff {name line : Text} (resolved : Resolved name)
    (noColon : ':' ∉ name) :
    name ++ [':'] <+: unicode.lower line ↔ fieldName line = some name := by
  have resolvedColon : Resolved (name ++ [':']) := by
    intro char member
    rcases mem_append.mp member with inName | isColon
    · exact resolved char inName
    · rw [mem_singleton.mp isColon]
      decide
  rw [Unicode.lower, lowerFrom_prefix_iff unicode resolvedColon]
  constructor
  · rintro ⟨head, tail, rfl, mapped, ascii⟩
    obtain ⟨key, colon, rfl, mappedKey, mappedColon⟩ := map_eq_append_iff.mp mapped
    obtain ⟨char, rfl, isColon⟩ := map_eq_singleton_iff.mp mappedColon
    have charAscii : IsAscii char := ascii char (by simp)
    have same := eq_colon_of_toLower charAscii isColon
    have absent : ':' ∉ key := by
      intro member
      have lowered := mem_map_of_mem (f := Char.toLower) member
      rw [mappedKey] at lowered
      exact noColon lowered
    have split : splitColon (key ++ [char] ++ tail) = some (key, tail) :=
      splitColon_eq_some.mpr ⟨by rw [same]; simp, absent⟩
    rw [fieldName, split, map_some, mappedKey]
  · intro named
    simp only [fieldName, map_eq_some_iff, Prod.exists] at named
    obtain ⟨key, value, split, mappedKey⟩ := named
    obtain ⟨rfl, absent⟩ := splitColon_eq_some.mp split
    refine ⟨key ++ [':'], value, by simp, by rw [map_append, mappedKey]; rfl, ?_⟩
    intro char member
    rcases mem_append.mp member with inKey | isColon
    · exact isAscii_of_map_toLower resolved mappedKey inKey
    · rw [mem_singleton.mp isColon]
      decide

variable {line : Text}

theorem startsWithName_contentLength_iff :
    startsWithName unicode "content-length:" line = true ↔
      fieldName line = some contentLengthName := by
  have split : "content-length:".toList = contentLengthName ++ [':'] := by decide
  rw [startsWithName, isPrefixOf_iff_prefix, split]
  exact lower_colon_prefix_iff unicode contentLengthName_resolved (by decide)

theorem lower_key_iff {line key value : Text} (split : splitColon line = some (key, value)) :
    unicode.lower key = contentLengthName ↔ fieldName line = some contentLengthName := by
  rw [lower_eq_iff unicode contentLengthName_resolved, fieldName, split, map_some,
    Option.some.injEq]
  constructor
  · exact fun lowered => lowered.1
  · intro mapped
    exact ⟨mapped, fun char member =>
      isAscii_of_map_toLower contentLengthName_resolved mapped member⟩

variable {unicode}

theorem isContinuation_of_contentLength
    (named : fieldName line = some contentLengthName) : isContinuation line = false := by
  simp only [fieldName, map_eq_some_iff, Prod.exists] at named
  obtain ⟨key, value, split, mapped⟩ := named
  obtain ⟨rfl, _⟩ := splitColon_eq_some.mp split
  cases key with
  | nil => exact absurd mapped (by decide)
  | cons char rest =>
    have letters : contentLengthName = 'c' :: "ontent-length".toList := by decide
    rw [map_cons, letters, cons.injEq] at mapped
    have first := mapped.1
    rw [cons_append, isContinuation]
    by_contra blank
    rw [Bool.not_eq_false, Bool.or_eq_true] at blank
    rcases blank with isSpace | isTab
    · rw [of_decide_eq_true isSpace] at first
      revert first
      decide
    rw [of_decide_eq_true isTab] at first
    revert first
    decide

def continuationsOf (lines : List Text) : List Text :=
  (lines.takeWhile fun line => isContinuation line || (splitColon line).isNone).filter
    isContinuation

def HeaderField.foldAll (unicode : Unicode) (field : HeaderField) (lines : List Text) :
    HeaderField :=
  lines.foldl (fun field line => field.fold unicode line) field

theorem foldAll_name (field : HeaderField) (lines : List Text) :
    (field.foldAll unicode lines).name = field.name := by
  induction lines generalizing field with
  | nil => rfl
  | cons line rest ih => exact ih (field.fold unicode line)

def HeaderField.FromLines (unicode : Unicode) (field : HeaderField) (lines : List Text) : Prop :=
  ∃ line ∈ lines, ∃ key value, splitColon line = some (key, value) ∧ field.name = unicode.lower key

variable {field : HeaderField} {lines : List Text}

theorem HeaderField.FromLines.cons (fromLines : field.FromLines unicode lines) (line : Text) :
    field.FromLines unicode (line :: lines) := by
  obtain ⟨other, inLines, parts⟩ := fromLines
  exact ⟨other, mem_cons_of_mem _ inLines, parts⟩

theorem HeaderField.FromLines.name_ne (fromLines : field.FromLines unicode lines)
    (others : ∀ line ∈ lines, fieldName line ≠ some contentLengthName) :
    field.name ≠ contentLengthName := by
  obtain ⟨line, member, key, value, split, named⟩ := fromLines
  rw [named]
  intro lowered
  exact others line member ((lower_key_iff unicode split).mp lowered)

theorem exists_foldl_addHeaderLine (unicode : Unicode) (lines : List Text) (current : HeaderField)
    (earlier : List HeaderField) :
    ∃ newer, lines.foldl (addHeaderLine unicode) (current :: earlier) =
        newer ++ current.foldAll unicode (continuationsOf lines) :: earlier ∧
      ∀ field ∈ newer, field.FromLines unicode lines := by
  induction lines generalizing current earlier with
  | nil => exact ⟨[], rfl, by simp⟩
  | cons line rest ih =>
    rw [foldl_cons, addHeaderLine]
    by_cases continues : isContinuation line = true
    · obtain ⟨newer, parsed, fromLines⟩ := ih (current.fold unicode line) earlier
      rw [if_pos continues, parsed]
      refine ⟨newer, ?_, fun field member => (fromLines field member).cons line⟩
      simp [continuationsOf, continues, HeaderField.foldAll]
    · rw [if_neg continues, addField]
      cases split : splitColon line with
      | none =>
        obtain ⟨newer, parsed, fromLines⟩ := ih current earlier
        rw [parsed]
        refine ⟨newer, ?_, fun field member => (fromLines field member).cons line⟩
        simp [continuationsOf, continues, split]
      | some parts =>
        let added : HeaderField :=
          { key := parts.1
            name := unicode.lower parts.1
            value := unicode.strip parts.2
            rawLines := [parts.2] }
        have noContinuations : continuationsOf (line :: rest) = [] := by
          simp [continuationsOf, continues, split]
        obtain ⟨newer, parsed, fromLines⟩ := ih added (current :: earlier)
        rw [parsed, noContinuations]
        refine ⟨newer ++ [added.foldAll unicode (continuationsOf rest)],
          by simp [HeaderField.foldAll], ?_⟩
        intro field member
        rcases mem_append.mp member with inNewer | isAdded
        · exact (fromLines field inNewer).cons line
        · rw [mem_singleton.mp isAdded]
          exact ⟨line, mem_cons_self .., parts.1, parts.2, split, foldAll_name ..⟩

theorem fromLines_of_mem_parse (lines : List Text) :
    ∀ field ∈ parseHeaderLines unicode lines, field.FromLines unicode lines := by
  induction lines with
  | nil =>
    intro field member
    cases member
  | cons line rest ih =>
    rw [parseHeaderLines, foldl_cons, addHeaderLine, addField]
    cases split : splitColon line with
    | none =>
      intro field member
      exact (ih field member).cons line
    | some parts =>
      intro field member
      obtain ⟨newer, parsed, fromLines⟩ := exists_foldl_addHeaderLine unicode rest
        { key := parts.1
          name := unicode.lower parts.1
          value := unicode.strip parts.2
          rawLines := [parts.2] } []
      rw [parsed] at member
      rcases mem_append.mp member with inNewer | isFirst
      · exact (fromLines field inNewer).cons line
      · rw [mem_singleton.mp isFirst]
        exact ⟨line, mem_cons_self .., parts.1, parts.2, split, foldAll_name ..⟩

theorem find_contentLength_eq_none
    (others : ∀ line ∈ lines, fieldName line ≠ some contentLengthName) :
    (parseHeaderLines unicode lines).find? (fun field => field.name = contentLengthName) =
      none := by
  rw [find?_eq_none]
  intro field member
  simpa using (fromLines_of_mem_parse lines field member).name_ne others

theorem find_contentLength_eq_some (unicode : Unicode) (before : List Text) {after : List Text}
    (named : fieldName line = some contentLengthName)
    (last : ∀ later ∈ after, fieldName later ≠ some contentLengthName) :
    ∃ field : HeaderField, field.value = valueAfterColon unicode line ∧
      (parseHeaderLines unicode (before ++ line :: after)).find?
          (fun field => field.name = contentLengthName) =
        some (field.foldAll unicode (continuationsOf after)) := by
  have notContinuation := isContinuation_of_contentLength named
  have isField := named
  simp only [fieldName, map_eq_some_iff, Prod.exists] at isField
  obtain ⟨key, value, split, _⟩ := isField
  let field : HeaderField :=
    { key := key
      name := unicode.lower key
      value := unicode.strip value
      rawLines := [value] }
  have added : ∀ fields, addHeaderLine unicode fields line = field :: fields := by
    intro fields
    cases fields with
    | nil => simp [addHeaderLine, addField, split, field]
    | cons current earlier => simp [addHeaderLine, addField, split, field, notContinuation]
  obtain ⟨newer, parsed, fromLines⟩ := exists_foldl_addHeaderLine unicode after field
    (parseHeaderLines unicode before)
  have found : field.name = contentLengthName := (lower_key_iff unicode split).mpr named
  refine ⟨field, by simp [field, valueAfterColon, split], ?_⟩
  rw [parseHeaderLines, foldl_append, foldl_cons, added, ← parseHeaderLines, parsed, find?_append]
  have noneNewer : newer.find? (fun field => field.name = contentLengthName) = none := by
    rw [find?_eq_none]
    intro newerField member
    simpa using (fromLines newerField member).name_ne last
  rw [noneNewer, none_or, find?_cons_of_pos]
  simpa [foldAll_name] using found

theorem fold_value_of_blank (blank : unicode.strip line = [])
    (field : HeaderField) : (field.fold unicode line).value = field.value := by
  simp [HeaderField.fold, blank]

theorem foldAll_value_of_blank
    (blank : ∀ line ∈ lines, unicode.strip line = []) (field : HeaderField) :
    (field.foldAll unicode lines).value = field.value := by
  induction lines generalizing field with
  | nil => rfl
  | cons line rest ih =>
    have later := ih (fun other member => blank other (mem_cons_of_mem _ member))
      (field.fold unicode line)
    rw [fold_value_of_blank (blank line (mem_cons_self ..))] at later
    exact later

/-- A stripped value with something to show. -/
structure Shown (unicode : Unicode) (value : Text) : Prop where
  stripped : unicode.strip value = value
  shown : ∃ char ∈ value, unicode.isSpace char = false

section

variable (shown : Shown unicode field.value)
include shown

theorem Shown.fold (line : Text) : Shown unicode (field.fold unicode line).value := by
  by_cases blank : unicode.strip line = []
  · rw [fold_value_of_blank blank]
    exact shown
  obtain ⟨char, member, kept⟩ := shown.shown
  simp only [HeaderField.fold, if_neg blank]
  exact
    { stripped := strip_strip unicode _
      shown := ⟨char, mem_trim (mem_append_left _ member) kept, kept⟩ }

theorem Shown.foldAll (folded : ' ' ∈ field.value ∨ ∃ line ∈ lines, unicode.strip line ≠ []) :
    Shown unicode (field.foldAll unicode lines).value ∧
      ' ' ∈ (field.foldAll unicode lines).value := by
  induction lines generalizing field with
  | nil =>
    have inside : ' ' ∈ field.value := by simpa using folded
    exact ⟨shown, inside⟩
  | cons line rest ih =>
    apply ih (shown.fold line)
    by_cases blank : unicode.strip line = []
    · rcases folded with inside | ⟨other, member, text⟩
      · left
        rw [fold_value_of_blank blank]
        exact inside
      rcases mem_cons.mp member with rfl | inRest
      · exact absurd blank text
      · exact .inr ⟨other, inRest, text⟩
    · left
      obtain ⟨char, member, kept⟩ := shown.shown
      obtain ⟨other, otherMember, otherKept⟩ := trim_ne_nil_iff.mp blank
      have inStripped : other ∈ unicode.strip line := mem_trim otherMember otherKept
      simp only [HeaderField.fold, if_neg blank]
      exact mem_trim_of_between member kept inStripped otherKept

theorem int_foldAll_eq_none (folded : ∃ line ∈ lines, unicode.strip line ≠ []) :
    unicode.int (field.foldAll unicode lines).value = none := by
  obtain ⟨⟨stripped, _⟩, inside⟩ := shown.foldAll (.inr folded)
  apply int_eq_none
  rw [stripped]
  exact inside

end

end XFerry.Http
