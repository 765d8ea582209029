/-
How the receiver, the request parser and the payload check read the length of a body.

All three read it from the same header block.  The receiver checks a length with
`int`, which reads more than decimal digits, and it does not see the continuation
lines that the parser adds to a value.
-/

import XFerry.Http.HeaderFields
import XFerry.Http.ReceiveCompleteness

namespace XFerry.Http

open Python List HTTPRequest

variable {unicode : Unicode}

structure HeaderBlock where
  bytes : Bytes
  ends : FirstOccurrence.find headerTerminator (bytes ++ headerTerminator) = some bytes.length

def isOptionalSpace (char : Char) : Bool := char = ' ' || char = '\t'

def fieldValue (line : Text) : Text :=
  match splitColon line with
  | none => []
  | some (_, value) => trim isOptionalSpace value

def HeaderBlock.text (block : HeaderBlock) : Text := decodeReplacing block.bytes

def HeaderBlock.lines (block : HeaderBlock) : List Text := splitCrlf block.text

def HeaderBlock.contentLengths (block : HeaderBlock) : List Text :=
  (block.lines.filter fun line => fieldName line = some contentLengthName).map fieldValue

/-- Plain decimal digits, the same everywhere. -/
def HeaderBlock.WellFramed (block : HeaderBlock) : Prop :=
  (∀ value ∈ block.contentLengths, IsDecimal value) ∧
    ∀ value ∈ block.contentLengths, ∀ other ∈ block.contentLengths, other = value

instance (block : HeaderBlock) : Decidable block.WellFramed := by
  unfold HeaderBlock.WellFramed
  infer_instance

theorem contentLengthLines_eq (block : HeaderBlock) :
    contentLengthLines unicode block.text =
      block.lines.filter fun line => fieldName line = some contentLengthName := by
  apply filter_congr
  intro line _
  rw [Bool.eq_iff_iff, decide_eq_true_iff]
  exact startsWithName_contentLength_iff unicode

/-- Surrounding spaces and tabs make no difference to `int`. -/
theorem int_fieldValue (line : Text) :
    unicode.int (fieldValue line) = unicode.int (valueAfterColon unicode line) := by
  unfold fieldValue valueAfterColon
  cases splitColon line with
  | none => rfl
  | some parts =>
    have included : ∀ char, isOptionalSpace char = true → unicode.isSpace char = true := by
      intro char optional
      rw [isOptionalSpace, Bool.or_eq_true] at optional
      rcases optional with isSpace | isTab
      · rw [of_decide_eq_true isSpace]
        exact isSpace_space unicode
      · rw [of_decide_eq_true isTab]
        exact (unicode.isSpace_ascii '\t' (by decide)).mpr (by decide)
    have stripped : unicode.strip (trim isOptionalSpace parts.2) = unicode.strip parts.2 :=
      trim_trim included parts.2
    rw [int_strip, ← int_strip, stripped, int_strip]

theorem strip_valueAfterColon (unicode : Unicode) (line : Text) :
    unicode.strip (valueAfterColon unicode line) = valueAfterColon unicode line := by
  unfold valueAfterColon
  cases splitColon line with
  | none => rfl
  | some parts => exact strip_strip unicode parts.2

theorem contentLengthValues_eq (block : HeaderBlock) :
    contentLengthValues unicode block.text = block.contentLengths.mapM unicode.int := by
  rw [contentLengthValues, contentLengthLines_eq, HeaderBlock.contentLengths, mapM_map]
  congr 1
  funext line
  exact (int_fieldValue line).symm

theorem exists_mem_of_mapM {α β : Type} {read : α → Option β} {values : List α}
    {results : List β} (mapped : values.mapM read = some results) {value : α}
    (member : value ∈ values) : ∃ result ∈ results, read value = some result := by
  induction values generalizing results with
  | nil => cases member
  | cons first rest ih =>
    simp only [mapM_cons, bind, Option.bind_eq_some_iff, pure, Option.some.injEq] at mapped
    obtain ⟨result, here, others, later, rfl⟩ := mapped
    rcases mem_cons.mp member with rfl | inRest
    · exact ⟨result, mem_cons_self .., here⟩
    · obtain ⟨other, inOthers, reads⟩ := ih later inRest
      exact ⟨other, mem_cons_of_mem _ inOthers, reads⟩

theorem mapM_eq_replicate {α β : Type} {read : α → Option β} {values : List α} {result : β}
    (all : ∀ value ∈ values, read value = some result) :
    values.mapM read = some (replicate values.length result) := by
  induction values with
  | nil => rfl
  | cons value rest ih =>
    rw [mapM_cons, all value (mem_cons_self ..),
      ih fun other member => all other (mem_cons_of_mem _ member)]
    rfl

variable {block : HeaderBlock}

theorem int_of_parseContentLength {contentLength : Nat}
    (accepted : parseContentLength unicode block.text = some contentLength) :
    ∀ value ∈ block.contentLengths, unicode.int value = some (contentLength : Int) := by
  rw [parseContentLength, contentLengthValues_eq] at accepted
  intro value member
  split at accepted
  · cases accepted
  · case h_2 mapped =>
    obtain ⟨result, inResults, _⟩ := exists_mem_of_mapM mapped member
    cases inResults
  rename_i first rest mapped
  split at accepted
  · cases accepted
  rename_i regular
  obtain ⟨same, nonneg⟩ := not_or.mp regular
  obtain ⟨result, inResults, reads⟩ := exists_mem_of_mapM mapped member
  have isFirst : result = first := by
    rcases mem_cons.mp inResults with isFirst | inRest
    · exact isFirst
    · by_contra other
      exact same ⟨result, inRest, other⟩
  cases accepted
  rw [reads, isFirst]
  congr 1
  omega

theorem exists_parseContentLength_iff :
    (∃ contentLength, parseContentLength unicode block.text = some contentLength) ↔
      ∃ length : Nat, ∀ value ∈ block.contentLengths, unicode.int value = some (length : Int) := by
  constructor
  · rintro ⟨contentLength, accepted⟩
    exact ⟨contentLength, int_of_parseContentLength accepted⟩
  · rintro ⟨length, all⟩
    rw [parseContentLength, contentLengthValues_eq, mapM_eq_replicate all]
    cases block.contentLengths.length with
    | zero => exact ⟨0, rfl⟩
    | succ count =>
      refine ⟨length, ?_⟩
      have regular : ¬ ((∃ other ∈ replicate count (length : Int), other ≠ length) ∨
          (length : Int) < 0) := by
        rintro (⟨other, member, different⟩ | negative)
        · exact different (eq_of_mem_replicate member)
        · omega
      simp only [replicate_succ, if_neg regular]
      rfl

/-- No sign, underscore, digit of another script, or white space. -/
def Undecorated (unicode : Unicode) (value : Text) : Prop :=
  ∀ char ∈ value, IsAscii char ∧ char ≠ '+' ∧ char ≠ '-' ∧ char ≠ '_' ∧ unicode.isSpace char = false

theorem undecorated_of_isDecimal {value : Text} (decimal : IsDecimal value) :
    Undecorated unicode value := by
  intro char member
  have digit := decimal.2 char member
  have other {symbol : Char} (noDigit : ¬ Between '0' '9' symbol) : char ≠ symbol := by
    rintro rfl
    exact noDigit digit
  refine ⟨?_, other (by decide), other (by decide), other (by decide),
    isSpace_of_digit unicode digit⟩
  have upper : char.toNat ≤ 57 := digit.2
  unfold IsAscii
  omega

theorem isDecimal_of_undecorated {value : Text} {number : Nat}
    (numeral : IsNumeral unicode value number) (plain : Undecorated unicode value) :
    IsDecimal value := by
  obtain ⟨sign, text, digits, written, spelled, _, _, signed⟩ := numeral.written
  have whole : unicode.strip value = value :=
    trim_eq_self fun char member => (plain char member).2.2.2.2
  rw [whole] at written
  have unsigned : sign = [] := by
    rcases signed with empty | rfl | ⟨rfl, _⟩
    · exact empty
    · exact absurd rfl (plain '+' (by simp [written])).2.1
    · exact absurd rfl (plain '-' (by simp [written])).2.2.1
  rw [unsigned, nil_append] at written
  subst written
  refine ⟨spelled.ne_nil, fun char member => ?_⟩
  obtain ⟨ascii, _, _, notUnderscore, _⟩ := plain char member
  rcases spelled.of_mem member with underscore | ⟨digit, decimal⟩
  · exact absurd underscore notUnderscore
  · by_contra other
    rw [decimal_eq_none unicode ascii other] at decimal
    cases decimal

/-- Numerals of one number are plain equal digits exactly where they are undecorated and of
one length. -/
theorem wellFramed_iff {number : Nat}
    (numerals : ∀ value ∈ block.contentLengths, IsNumeral unicode value number) :
    block.WellFramed ↔ (∀ value ∈ block.contentLengths, Undecorated unicode value) ∧
      ∀ value ∈ block.contentLengths, ∀ other ∈ block.contentLengths,
        other.length = value.length := by
  constructor
  · rintro ⟨decimal, same⟩
    refine ⟨fun value member => undecorated_of_isDecimal (decimal value member), ?_⟩
    intro value member other inOthers
    rw [same value member other inOthers]
  · rintro ⟨plain, sameLength⟩
    have decimal : ∀ value ∈ block.contentLengths, IsDecimal value := fun value member =>
      isDecimal_of_undecorated (numerals value member) (plain value member)
    have spells : ∀ value ∈ block.contentLengths, ofDigits (digitsOf value) = number := by
      intro value member
      have read := int_eq_some_iff.mpr (numerals value member)
      rw [int_of_isDecimal unicode (decimal value member)] at read
      split at read
      · cases read
      · exact Int.ofNat_inj.mp (Option.some.inj read)
    refine ⟨decimal, fun value member other inOthers => ?_⟩
    exact eq_of_ofDigits_eq (decimal other inOthers) (decimal value member)
      (sameLength value member other inOthers)
      ((spells other inOthers).trans (spells value member).symm)

theorem exists_int_of_wellFramed (wellFramed : block.WellFramed)
    (short : ∀ value ∈ block.contentLengths, value.length ≤ maxStrDigits) :
    ∃ length : Nat, ∀ value ∈ block.contentLengths, unicode.int value = some (length : Int) := by
  cases values : block.contentLengths with
  | nil => exact ⟨0, by simp⟩
  | cons first rest =>
    have member : first ∈ block.contentLengths := by
      rw [values]
      exact mem_cons_self ..
    refine ⟨ofDigits (digitsOf first), ?_⟩
    intro value inValues
    rw [← values] at inValues
    rw [wellFramed.2 first member value inValues,
      int_of_isDecimal unicode (wellFramed.1 first member), if_neg]
    · rfl
    · have fits := short first member
      omega

variable {line : Text}

theorem fieldName_requestLine {url : UrlParse} {requestLine : RequestLine}
    (parsed : parseRequestLine unicode url line = .ok requestLine) :
    fieldName line ≠ some contentLengthName := by
  intro named
  simp only [fieldName, Option.map_eq_some_iff, Prod.exists] at named
  obtain ⟨key, value, split, mapped⟩ := named
  obtain ⟨rfl, _⟩ := splitColon_eq_some.mp split
  have noSpace : ' ' ∉ key ++ [':'] := by
    intro member
    rcases mem_append.mp member with inKey | isColon
    · have lowered := mem_map_of_mem (f := Char.toLower) inKey
      rw [mapped] at lowered
      revert lowered
      decide
    · revert isColon
      decide
  obtain ⟨part, parts, spaced⟩ := exists_splitSpace_append noSpace value
  rw [append_assoc, singleton_append] at spaced
  have notMethod : isMethod ((key ++ [':']) ++ part) = false := by
    have colon : isMethodChar ':' = false := by decide
    simp [isMethod, colon]
  rw [parseRequestLine, spaced] at parsed
  split at parsed
  · case h_1 shape =>
    cases shape
    rw [if_pos notMethod] at parsed
    cases parsed
  · cases parsed

theorem exists_lines_of_isValid {url : UrlParse} {header : Bytes}
    (valid : (parseHead unicode url header).isValid = true) :
    ∃ line lines, splitCrlf (decodeReplacing header) = line :: lines ∧
      fieldName line ≠ some contentLengthName ∧
      (parseHead unicode url header).fields = parseHeaderLines unicode lines := by
  unfold parseHead at valid ⊢
  split at valid
  · cases valid
  · cases valid
  rename_i line lines decoded
  obtain ⟨text, read, split⟩ := Option.map_eq_some_iff.mp decoded
  rw [decodeReplacing_of_decode read, split]
  cases parsed : parseRequestLine unicode url line with
  | ok requestLine => exact ⟨line, lines, rfl, fieldName_requestLine parsed, rfl⟩
  | error fault =>
    rw [parsed] at valid
    cases fault with
    | noted | raised => cases valid

theorem parse_block (unicode : Unicode) (url : UrlParse) (block : HeaderBlock) (body : Bytes) :
    parse unicode url (block.bytes ++ headerTerminator ++ body) =
      { parseHead unicode url block.bytes with body := body } := by
  have found : FirstOccurrence.find [13, 10, 13, 10] (block.bytes ++ headerTerminator ++ body) =
      some block.bytes.length := FirstOccurrence.find_append block.ends
  have before : (block.bytes ++ headerTerminator ++ body).take block.bytes.length =
      block.bytes := by
    rw [append_assoc, take_left]
  have after : (block.bytes ++ headerTerminator ++ body).drop (block.bytes.length + 4) = body := by
    have length : block.bytes.length + 4 = (block.bytes ++ headerTerminator).length := by
      rw [length_append, length_headerTerminator]
    rw [length, drop_left]
  rw [parse, found]
  simp only [before, after]

theorem declaredLength_with_body (request : HTTPRequest) (body : Bytes) :
    declaredLength unicode { request with body := body } = request.declaredLength unicode := rfl

/-- No text is folded to the last field of the name. -/
def HeaderBlock.Unfolded (unicode : Unicode) (block : HeaderBlock) : Prop :=
  ∀ before line after, block.lines = before ++ line :: after →
    fieldName line = some contentLengthName →
    (∀ later ∈ after, fieldName later ≠ some contentLengthName) →
    ∀ continuation ∈ continuationsOf after, unicode.strip continuation = []

theorem exists_last {lines : List Text}
    (present : ∃ line ∈ lines, fieldName line = some contentLengthName) :
    ∃ before line after, lines = before ++ line :: after ∧
      fieldName line = some contentLengthName ∧
      ∀ later ∈ after, fieldName later ≠ some contentLengthName := by
  induction lines with
  | nil => simp at present
  | cons first rest ih =>
    by_cases later : ∃ line ∈ rest, fieldName line = some contentLengthName
    · obtain ⟨before, line, after, joined, named, last⟩ := ih later
      exact ⟨first :: before, line, after, by rw [joined]; rfl, named, last⟩
    obtain ⟨line, member, named⟩ := present
    rcases mem_cons.mp member with rfl | inRest
    · exact ⟨[], line, rest, rfl, named,
        fun other inRest found => later ⟨other, inRest, found⟩⟩
    · exact absurd ⟨line, inRest, named⟩ later

theorem mem_contentLengths (member : line ∈ block.lines)
    (named : fieldName line = some contentLengthName) :
    fieldValue line ∈ block.contentLengths := by
  apply mem_map_of_mem
  rw [mem_filter]
  exact ⟨member, by simpa using named⟩

theorem parseContentLength_of_absent
    (absent : ¬ ∃ line ∈ block.lines, fieldName line = some contentLengthName) :
    parseContentLength unicode block.text = some 0 := by
  have empty : block.contentLengths = [] := by
    rw [HeaderBlock.contentLengths, map_eq_nil_iff, filter_eq_nil_iff]
    intro line member named
    exact absent ⟨line, member, of_decide_eq_true named⟩
  rw [parseContentLength, contentLengthValues_eq, empty]
  rfl

theorem header_contentLength (request : HTTPRequest) :
    request.header "content-length" =
      (request.fields.find? fun field => field.name = contentLengthName).map
        HeaderField.value := rfl

section Views

variable {url : UrlParse} {contentLength : Nat}

section

variable (valid : (parseHead unicode url block.bytes).isValid = true)
include valid

theorem header_of_last {before after : List Text} (split : block.lines = before ++ line :: after)
    (named : fieldName line = some contentLengthName)
    (last : ∀ later ∈ after, fieldName later ≠ some contentLengthName) :
    ∃ field : HeaderField, field.value = valueAfterColon unicode line ∧
      (parseHead unicode url block.bytes).declaredLength unicode =
        unicode.int (field.foldAll unicode (continuationsOf after)).value := by
  obtain ⟨requestLine, lines, splitLines, notField, parsed⟩ := exists_lines_of_isValid valid
  have sameLines : requestLine :: lines = before ++ line :: after := by
    rw [← splitLines, ← split]
    rfl
  cases before with
  | nil =>
    cases sameLines
    exact absurd named notField
  | cons first before =>
    rw [cons_append, cons.injEq] at sameLines
    obtain ⟨field, value, found⟩ := find_contentLength_eq_some unicode before named last
    refine ⟨field, value, ?_⟩
    rw [declaredLength, header_contentLength, parsed, sameLines.2, found]
    rfl

section

variable (accepted : parseContentLength unicode block.text = some contentLength)
include accepted

theorem declaredLength_of_unfolded (unfolded : block.Unfolded unicode) :
    (parseHead unicode url block.bytes).declaredLength unicode =
      some (contentLength : Int) := by
  have reads := int_of_parseContentLength accepted
  by_cases present : ∃ line ∈ block.lines, fieldName line = some contentLengthName
  · obtain ⟨before, line, after, split, named, last⟩ := exists_last present
    obtain ⟨field, value, declared⟩ := header_of_last valid split named last
    have member : line ∈ block.lines := by
      rw [split]
      simp
    rw [declared, foldAll_value_of_blank (unfolded before line after split named last), value,
      ← int_fieldValue]
    exact reads _ (mem_contentLengths member named)
  · obtain ⟨requestLine, lines, splitLines, _, parsed⟩ := exists_lines_of_isValid valid
    have others : ∀ line ∈ lines, fieldName line ≠ some contentLengthName := by
      intro line member named
      have inBlock : line ∈ block.lines := by
        rw [HeaderBlock.lines, HeaderBlock.text, splitLines]
        exact mem_cons_of_mem _ member
      exact present ⟨line, inBlock, named⟩
    rw [declaredLength, header_contentLength, parsed, find_contentLength_eq_none others]
    rw [parseContentLength_of_absent present] at accepted
    cases accepted
    rfl

theorem declaredLength_of_folded (folded : ¬ block.Unfolded unicode) :
    (parseHead unicode url block.bytes).declaredLength unicode = none := by
  simp only [HeaderBlock.Unfolded, not_forall] at folded
  obtain ⟨before, line, after, split, named, last, continuation, member, text⟩ := folded
  obtain ⟨field, value, declared⟩ := header_of_last valid split named last
  have inBlock : line ∈ block.lines := by
    rw [split]
    simp
  have reads := int_of_parseContentLength accepted _ (mem_contentLengths inBlock named)
  rw [int_fieldValue] at reads
  have nonempty : valueAfterColon unicode line ≠ [] := by
    intro empty
    rw [empty, int_nil] at reads
    cases reads
  have stripped := strip_valueAfterColon unicode line
  have shown : Shown unicode field.value := by
    rw [value]
    rw [← stripped] at nonempty
    exact { stripped := stripped, shown := trim_ne_nil_iff.mp nonempty }
  rw [declared]
  exact int_foldAll_eq_none shown ⟨continuation, member, text⟩

end

end

end Views

/-- The receiver takes plain equal lengths and no others, and the three readings of an
accepted block are one number and one body. -/
structure FramingAgrees (unicode : Unicode) (url : UrlParse) (settings : PayloadSettings)
    (block : HeaderBlock) : Prop where
  accepts_iff : (∃ contentLength, parseContentLength unicode block.text = some contentLength) ↔
    block.WellFramed
  views_agree : ∀ contentLength, parseContentLength unicode block.text = some contentLength →
    ∀ body : Bytes, body.length = contentLength →
      let request := parse unicode url (block.bytes ++ headerTerminator ++ body)
      request.body = body ∧
        (request.isValid = true → settings.Checks request →
          request.declaredLength unicode = some (contentLength : Int))

/-- The blocks on which nothing goes wrong: lengths that are numerals of one number have
nothing but digits, as many in each; no value is too long for `int`; and no text is folded
to a length that is checked. -/
structure PlainlyFramed (unicode : Unicode) (url : UrlParse) (settings : PayloadSettings)
    (block : HeaderBlock) : Prop where
  undecorated : ∀ number : Nat,
    (∀ value ∈ block.contentLengths, IsNumeral unicode value number) →
      ∀ value ∈ block.contentLengths, Undecorated unicode value
  sameLength : ∀ number : Nat,
    (∀ value ∈ block.contentLengths, IsNumeral unicode value number) →
      ∀ value ∈ block.contentLengths, ∀ other ∈ block.contentLengths, other.length = value.length
  short : block.WellFramed → ∀ value ∈ block.contentLengths, value.length ≤ maxStrDigits
  unfolded : block.WellFramed →
    (parseHead unicode url block.bytes).isValid = true →
    settings.Checks (parseHead unicode url block.bytes) → block.Unfolded unicode

theorem framingAgrees_iff (unicode : Unicode) (url : UrlParse) (settings : PayloadSettings)
    (block : HeaderBlock) :
    FramingAgrees unicode url settings block ↔ PlainlyFramed unicode url settings block := by
  constructor
  · intro agrees
    have plain {number : Nat}
        (numerals : ∀ value ∈ block.contentLengths, IsNumeral unicode value number) :=
      (wellFramed_iff numerals).mp (agrees.accepts_iff.mp (exists_parseContentLength_iff.mpr
        ⟨number, fun value member => int_eq_some_iff.mpr (numerals value member)⟩))
    exact
      { undecorated := fun number numerals => (plain numerals).1
        sameLength := fun number numerals => (plain numerals).2
        short := by
          intro wellFramed value member
          obtain ⟨length, reads⟩ :=
            exists_parseContentLength_iff.mp (agrees.accepts_iff.mpr wellFramed)
          have read := reads value member
          rw [int_of_isDecimal unicode (wellFramed.1 value member)] at read
          by_contra long
          rw [if_pos (by omega)] at read
          cases read
        unfolded := by
          intro wellFramed valid checked
          obtain ⟨contentLength, accepted⟩ := agrees.accepts_iff.mpr wellFramed
          by_contra folded
          have views := agrees.views_agree contentLength accepted
            (replicate contentLength 0) (length_replicate ..)
          rw [parse_block] at views
          have declared := views.2 valid checked
          have none_ := declaredLength_of_folded valid accepted folded
          rw [← declaredLength_with_body _ (replicate contentLength 0), declared] at none_
          cases none_ }
  · intro plainly
    have accepts : (∃ contentLength, parseContentLength unicode block.text = some contentLength) ↔
        block.WellFramed := by
      rw [exists_parseContentLength_iff]
      constructor
      · rintro ⟨number, reads⟩
        have numerals : ∀ value ∈ block.contentLengths, IsNumeral unicode value number :=
          fun value member => int_eq_some_iff.mp (reads value member)
        exact (wellFramed_iff numerals).mpr
          ⟨plainly.undecorated number numerals, plainly.sameLength number numerals⟩
      · intro wellFramed
        exact exists_int_of_wellFramed wellFramed (plainly.short wellFramed)
    refine { accepts_iff := accepts, views_agree := ?_ }
    intro contentLength accepted body _
    rw [parse_block]
    refine ⟨rfl, ?_⟩
    intro valid checked
    have unfolded := plainly.unfolded (accepts.mp ⟨contentLength, accepted⟩) valid checked
    exact declaredLength_of_unfolded valid accepted unfolded

def asciiUrlParse : UrlParse := { urlparse := fun target => some (target, []), unquote := id }

def samplePayloadSettings : PayloadSettings := { maxUploadSize := 1024, encryptedUploads := false }

def signedLength : HeaderBlock :=
  { bytes := asciiBytes "POST / HTTP/1.1\r\nContent-Length: +5"
    ends := by decide +kernel }

/-- The receiver takes `+5` for a length of five. -/
theorem signedLength_disagrees :
    ¬ FramingAgrees Unicode.ascii asciiUrlParse samplePayloadSettings signedLength := by
  intro agrees
  have accepted : parseContentLength Unicode.ascii signedLength.text = some 5 := by
    decide +kernel
  have malformed : ¬ signedLength.WellFramed := by
    decide +kernel
  exact malformed (agrees.accepts_iff.mp ⟨5, accepted⟩)

end XFerry.Http
