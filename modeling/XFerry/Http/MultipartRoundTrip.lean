/-
The multipart parser inverts the serialisation of parts.

The marker of a boundary begins with a carriage return and has no other, so that no
marker overlaps another, and none reaches over the end of a payload.
-/

import XFerry.Http.Multipart

namespace XFerry.Http

open Python List

/-! ### Delimiters in a text -/

/-- The text begins with a marker that ends its line, or closes the body. -/
def EndsPart (marker text : Bytes) : Prop := marker ++ crlf <+: text ∨ marker ++ hyphens <+: text

/-- Somewhere in the text stands such a marker. -/
def Delimits (marker text : Bytes) : Prop :=
  marker ++ crlf <:+: text ∨ marker ++ hyphens <:+: text

instance (marker text : Bytes) : Decidable (Delimits marker text) := by
  unfold Delimits
  infer_instance

theorem prefix_append_iff_drop {front mark text : Bytes} :
    front ++ mark <+: text ↔ front <+: text ∧ mark <+: text.drop front.length := by
  constructor
  · rintro ⟨rest, rfl⟩
    rw [append_assoc]
    refine ⟨prefix_append front _, ?_⟩
    rw [drop_left]
    exact prefix_append mark rest
  · rintro ⟨⟨rest, rfl⟩, ⟨more, same⟩⟩
    rw [drop_left] at same
    refine ⟨more, ?_⟩
    rw [append_assoc, same]

theorem endsPart_iff {marker text : Bytes} :
    EndsPart marker text ↔ marker <+: text ∧
      ((text.drop marker.length).take 2 = crlf ∨ (text.drop marker.length).take 2 = hyphens) := by
  have pair (mark : Bytes) (two : mark.length = 2) (rest : Bytes) :
      mark <+: rest ↔ rest.take 2 = mark := by
    rw [prefix_iff_eq_take, two, eq_comm]
  unfold EndsPart
  rw [prefix_append_iff_drop, prefix_append_iff_drop, pair crlf rfl, pair hyphens rfl, and_or_left]

variable {start : Nat}

theorem delimits_of_endsPart_drop {marker text : Bytes}
    (ends : EndsPart marker (text.drop start)) : Delimits marker text :=
  ends.imp (fun here => here.isInfix.trans (drop_suffix start text).isInfix)
    fun here => here.isInfix.trans (drop_suffix start text).isInfix

/-- A marker whose first byte, a carriage return, stands nowhere else in it. -/
structure IsMarker (marker : Bytes) : Prop where
  begins : marker.head? = some 13
  single : 13 ∉ marker.tail

theorem IsMarker.exists_cons {marker : Bytes} (isMarker : IsMarker marker) :
    ∃ tail, marker = 13 :: tail ∧ 13 ∉ tail := by
  cases marker with
  | nil => cases isMarker.begins
  | cons first tail =>
    cases Option.some.inj isMarker.begins
    exact ⟨tail, rfl, isMarker.single⟩

variable {marker before after : Bytes}

theorem IsMarker.length_le (isMarker : IsMarker marker)
    (nonempty : before ≠ []) (here : marker <+: before ++ 13 :: after) :
    marker.length ≤ before.length := by
  obtain ⟨tail, rfl, absent⟩ := isMarker.exists_cons
  cases before with
  | nil => exact absurd rfl nonempty
  | cons first rest =>
    rw [cons_append, cons_prefix_cons] at here
    obtain ⟨_, inTail⟩ := here
    refine Nat.succ_le_succ ?_
    by_contra longer
    refine absent ?_
    have extended : rest ++ [13] <+: tail := by
      have upToReturn : rest ++ [13] <+: rest ++ 13 :: after := ⟨after, by rw [append_assoc]; rfl⟩
      refine prefix_of_prefix_length_le upToReturn inTail ?_
      rw [length_append, length_singleton]
      omega
    exact extended.subset (mem_append_right rest (mem_singleton_self 13))

theorem IsMarker.delimits_line (isMarker : IsMarker marker) (inside : start < before.length)
    (ends : EndsPart marker ((before ++ crlf ++ after).drop start)) :
    Delimits marker (before ++ crlf) := by
  have rest : (before ++ crlf ++ after).drop start = before.drop start ++ 13 :: 10 :: after := by
    rw [append_assoc, drop_append_of_le_length (Nat.le_of_lt inside)]
    rfl
  rw [rest, endsPart_iff] at ends
  obtain ⟨here, closes⟩ := ends
  have nonempty : before.drop start ≠ [] := by
    rw [ne_eq, drop_eq_nil_iff]
    omega
  have fits := isMarker.length_le nonempty here
  rw [drop_append_of_le_length fits] at closes
  have inLine : EndsPart marker ((before ++ crlf).drop start) := by
    rw [drop_append_of_le_length (Nat.le_of_lt inside), endsPart_iff, drop_append_of_le_length fits]
    have alone : marker <+: before.drop start :=
      prefix_of_prefix_length_le here (prefix_append _ _) fits
    refine ⟨alone.trans (prefix_append _ _), ?_⟩
    match (before.drop start).drop marker.length, closes with
    | [], _ => exact .inl rfl
    | [only], closes =>
      rcases closes with lineEnd | close
      · cases lineEnd
      · cases close
    | first :: second :: _, closes => exact closes
  exact delimits_of_endsPart_drop inLine

/-! ### The search for the next delimiter -/

theorem nextDelimiter_eq {marker : Bytes} (isMarker : IsMarker marker) {before after : Bytes}
    {skip : Nat} (skips : skip ≤ before.length) (ends : EndsPart marker after)
    (first : ∀ start < before.length, ¬ EndsPart marker ((before ++ after).drop start)) :
    nextDelimiter marker skip (before ++ after) = some before.length := by
  obtain ⟨tail, isTail, _⟩ := isMarker.exists_cons
  have afterBegins : ∃ rest, after = 13 :: rest := by
    obtain ⟨⟨rest, rfl⟩, _⟩ := endsPart_iff.mp ends
    rw [isTail]
    exact ⟨tail ++ rest, rfl⟩
  obtain ⟨afterRest, isAfter⟩ := afterBegins
  induction before generalizing skip with
  | nil =>
    cases Nat.le_zero.mp skips
    obtain ⟨here, closes⟩ := endsPart_iff.mp ends
    rw [nil_append, isAfter] at *
    unfold nextDelimiter
    rw [if_pos (List.isPrefixOf_iff_prefix.mpr here), if_pos closes, length_nil]
  | cons byte rest ih =>
    have later : ∀ start < rest.length, ¬ EndsPart marker ((rest ++ after).drop start) :=
      fun start inside => first (start + 1) (Nat.succ_lt_succ inside)
    rw [cons_append]
    cases skip with
    | succ skip =>
      rw [nextDelimiter, ih (Nat.le_of_succ_le_succ skips) later]
      rfl
    | zero =>
      unfold nextDelimiter
      split
      · case _ isHere =>
          have here := isPrefixOf_iff_prefix.mp isHere
          rw [← cons_append, isAfter] at here
          have fits := isMarker.length_le (cons_ne_nil byte rest) here
          have open_ : ¬ EndsPart marker (byte :: rest ++ after) :=
            first 0 (Nat.succ_pos rest.length)
          rw [← cons_append] at isHere ⊢
          rw [endsPart_iff, and_iff_right (List.isPrefixOf_iff_prefix.mp isHere)] at open_
          rw [if_neg open_, ih (by rw [length_cons] at fits; omega) later]
          rfl
      · rw [ih (Nat.zero_le _) later]
        rfl

/-! ### The headers of a part -/

def headerBlock (lines : List Bytes) : Bytes := crlf.intercalate lines

/-- A header line that stays one line, and is not taken for malformed. -/
structure IsHeaderLine (line : Bytes) : Prop where
  oneLine : ¬ crlf <:+: line
  wellFormed : isMalformedLine line = false

variable {line : Bytes}

theorem IsHeaderLine.ne_nil (isLine : IsHeaderLine line) : line ≠ [] := by
  rintro rfl
  exact absurd isLine.wellFormed nofun

theorem not_crlf_prefix {line after : Bytes} (oneLine : ¬ crlf <:+: line)
    (inside : start < line.length) : ¬ crlf <+: (line ++ crlf ++ after).drop start := by
  intro breaks
  have rest : (line ++ crlf ++ after).drop start = line.drop start ++ 13 :: 10 :: after := by
    rw [append_assoc, drop_append_of_le_length (Nat.le_of_lt inside)]
    rfl
  rw [rest] at breaks
  have nonempty : line.drop start ≠ [] := by
    rw [ne_eq, drop_eq_nil_iff]
    omega
  have fits : crlf.length ≤ (line.drop start).length := by
    have isMarker : IsMarker crlf := ⟨rfl, by decide⟩
    exact isMarker.length_le nonempty breaks
  have inLine : crlf <+: line.drop start :=
    prefix_of_prefix_length_le breaks (prefix_append _ _) fits
  exact oneLine (inLine.isInfix.trans (drop_suffix start line).isInfix)

theorem splitLines_append (oneLine : ¬ crlf <:+: line) (after : Bytes) :
    splitLines (line ++ crlf ++ after) = line :: splitLines after := by
  induction line with
  | nil => rfl
  | cons byte rest ih =>
    have restOneLine : ¬ crlf <:+: rest := fun breaks =>
      oneLine (breaks.trans (suffix_cons byte rest).isInfix)
    have noBreak : ∀ tail, byte = 13 → rest ++ crlf ++ after = 10 :: tail → False := by
      intro tail isReturn isFeed
      have breaks : crlf <+: ((byte :: rest) ++ crlf ++ after).drop 0 := by
        rw [isReturn, drop_zero, cons_append, cons_append, isFeed]
        exact ⟨tail, rfl⟩
      exact not_crlf_prefix oneLine (Nat.succ_pos rest.length) breaks
    rw [cons_append, cons_append, splitLines]
    · rw [ih restOneLine]
    · exact noBreak

theorem splitLines_line (oneLine : ¬ crlf <:+: line) : splitLines line = [line] := by
  induction line with
  | nil => rfl
  | cons byte rest ih =>
    have restOneLine : ¬ crlf <:+: rest := fun breaks =>
      oneLine (breaks.trans (suffix_cons byte rest).isInfix)
    have noBreak : ∀ tail, byte = 13 → rest = 10 :: tail → False := by
      rintro tail rfl rfl
      exact oneLine (List.IsPrefix.isInfix ⟨tail, rfl⟩)
    rw [splitLines]
    · rw [ih restOneLine]
    · exact noBreak

theorem headerBlock_singleton (line : Bytes) : headerBlock [line] = line := by
  unfold headerBlock
  rw [intercalate_singleton]

theorem headerBlock_cons (line : Bytes) {others : List Bytes} (more : others ≠ []) :
    headerBlock (line :: others) = line ++ crlf ++ headerBlock others := by
  cases others with
  | nil => exact absurd rfl more
  | cons other rest =>
    unfold headerBlock
    rw [intercalate_cons_cons, append_assoc]

variable {lines : List Bytes}

section

variable (some_ : lines ≠ [])
include some_

section

variable (areLines : ∀ line ∈ lines, IsHeaderLine line)
include areLines

theorem splitLines_headerBlock : splitLines (headerBlock lines) = lines := by
  induction lines with
  | nil => exact absurd rfl some_
  | cons line rest ih =>
    obtain ⟨isLine, others⟩ := forall_mem_cons.mp areLines
    by_cases last : rest = []
    · rw [last, headerBlock_singleton]
      exact splitLines_line isLine.oneLine
    · rw [headerBlock_cons line last, splitLines_append isLine.oneLine, ih last others]

theorem headerBlock_begins (after : Bytes) : ¬ crlf <+: headerBlock lines ++ crlf ++ after := by
  cases lines with
  | nil => exact absurd rfl some_
  | cons line rest =>
    have isLine := areLines line mem_cons_self
    have inside : 0 < line.length := length_pos_iff.mpr isLine.ne_nil
    by_cases last : rest = []
    · rw [last, headerBlock_singleton]
      exact not_crlf_prefix isLine.oneLine inside
    · rw [headerBlock_cons line last, append_assoc, append_assoc]
      exact not_crlf_prefix isLine.oneLine inside

theorem not_emptyLine (after : Bytes) (inside : start < (headerBlock lines).length) :
    ¬ crlf ++ crlf <+: (headerBlock lines ++ crlf ++ after).drop start := by
  induction lines generalizing start with
  | nil => exact absurd rfl some_
  | cons line rest ih =>
    obtain ⟨isLine, others⟩ := forall_mem_cons.mp areLines
    intro breaks
    have oneBreak : crlf <+: (headerBlock (line :: rest) ++ crlf ++ after).drop start :=
      (prefix_append crlf crlf).trans breaks
    by_cases last : rest = []
    · rw [last, headerBlock_singleton] at oneBreak inside
      exact not_crlf_prefix isLine.oneLine inside oneBreak
    rw [headerBlock_cons line last, append_assoc, append_assoc] at breaks oneBreak
    rw [headerBlock_cons line last, length_append, length_append] at inside
    by_cases inLine : start < line.length
    · exact not_crlf_prefix isLine.oneLine inLine oneBreak
    have beyond : ((line ++ crlf) ++ (headerBlock rest ++ (crlf ++ after))).drop start =
        (crlf ++ (headerBlock rest ++ (crlf ++ after))).drop (start - line.length) := by
      rw [append_assoc, drop_append, drop_eq_nil_of_le (Nat.not_lt.mp inLine), nil_append]
    rw [beyond] at breaks
    match isStart : start - line.length, breaks with
    | 0, breaks =>
      rw [drop_zero, prefix_append_right_inj] at breaks
      rw [← append_assoc] at breaks
      exact headerBlock_begins last others after breaks
    | 1, breaks => cases (cons_prefix_cons.mp breaks).1
    | further + 2, breaks =>
      have insideRest : further < (headerBlock rest).length := by
        have two : crlf.length = 2 := rfl
        omega
      rw [← append_assoc (headerBlock rest)] at breaks
      exact ih last others insideRest breaks

theorem find_headerEnd (payload : Bytes) :
    FirstOccurrence.find (crlf ++ crlf) (headerBlock lines ++ crlf ++ crlf ++ payload) =
      some (headerBlock lines).length := by
  have grouped : headerBlock lines ++ crlf ++ crlf ++ payload =
      headerBlock lines ++ (crlf ++ crlf ++ payload) := by
    simp only [append_assoc]
  rw [grouped]
  refine FirstOccurrence.find_eq_of_first (prefix_append _ _) fun start inside => ?_
  have lined : headerBlock lines ++ (crlf ++ crlf ++ payload) =
      headerBlock lines ++ crlf ++ (crlf ++ payload) := by
    simp only [append_assoc]
  rw [lined]
  exact not_emptyLine some_ areLines (crlf ++ payload) inside

end

end

/-! ### Parts -/

structure SentPart where
  headerLines : List Bytes
  content : MultipartPart

def SentPart.blob (sent : SentPart) : Bytes :=
  headerBlock sent.headerLines ++ crlf ++ crlf ++ sent.content.payload

def filenameParam : Option Text → HeaderParam
  | none => .missing
  | some filename => .text filename

/-- What the header parser tells of headers that are those of the part. -/
structure Describes (headers : PartHeaders) (content : MultipartPart) : Prop where
  sound : headers.defects = false
  oneDisposition : headers.contentDispositions = 1
  formData : headers.disposition = some "form-data".toList
  oneType : headers.contentTypes ≤ 1
  notNested : "multipart/".toList.isPrefixOf headers.mediaType = false
  oneEncoding : headers.transferEncodings.length ≤ 1
  encodings : ∀ encoding ∈ headers.transferEncodings,
    encoding = "binary".toList ∨ encoding = "8bit".toList
  fieldName : headers.fieldName = .text content.fieldName
  named : content.fieldName ≠ []
  filename : headers.filename = filenameParam content.filename
  contentType : content.contentType =
    if headers.declaresType = true then headers.mediaType else "application/octet-stream".toList

/-- Headers that the parser reads as the part's, and that no boundary stands in. -/
structure HeadersAdmissible (parser : HeaderParser) (marker : Bytes) (sent : SentPart) : Prop where
  nonempty : sent.headerLines ≠ []
  areLines : ∀ line ∈ sent.headerLines, IsHeaderLine line
  read : ∃ headers,
    parser.partHeaders (headerBlock sent.headerLines ++ crlf ++ crlf) = .ok headers ∧
      Describes headers sent.content
  noBoundary : ¬ Delimits marker (headerBlock sent.headerLines ++ crlf)

section Part

variable {parser : HeaderParser} {marker : Bytes} {sent : SentPart} {content : MultipartPart}

theorem validateMultipartPartHeaders_ok {headers : PartHeaders}
    (describes : Describes headers content) : validateMultipartPartHeaders headers = .ok () := by
  have all : headers.transferEncodings.all
      (fun encoding => encoding = "binary".toList || encoding = "8bit".toList) = true := by
    rw [all_eq_true]
    intro encoding member
    rw [Bool.or_eq_true, decide_eq_true_eq, decide_eq_true_eq]
    exact describes.encodings encoding member
  unfold validateMultipartPartHeaders
  rw [if_neg (not_not.mpr describes.oneDisposition), if_neg (Nat.not_lt.mpr describes.oneType),
    if_neg (Nat.not_lt.mpr describes.oneEncoding), all]
  rfl

theorem namedPart_ok {headers : PartHeaders} (describes : Describes headers content) :
    namedPart headers content.payload = .ok content := by
  obtain ⟨fieldName, filename, contentType, payload⟩ := content
  have isType := describes.contentType
  have isFilename := describes.filename
  unfold namedPart
  rw [describes.notNested, describes.formData, if_neg Bool.false_ne_true,
    if_neg (not_not.mpr rfl), describes.fieldName]
  cases fieldName with
  | nil => exact absurd rfl describes.named
  | cons first name =>
    dsimp only at isType isFilename ⊢
    cases filename with
    | none | some =>
      rw [isFilename, isType]
      rfl

theorem parsePart_blob (admissible : HeadersAdmissible parser marker sent) :
    parsePart parser sent.blob = .ok sent.content := by
  have headerEnd := find_headerEnd admissible.nonempty admissible.areLines sent.content.payload
  have grouped : sent.blob =
      headerBlock sent.headerLines ++ (crlf ++ crlf ++ sent.content.payload) := by
    unfold SentPart.blob
    simp only [append_assoc]
  have headers : sent.blob.take (headerBlock sent.headerLines).length =
      headerBlock sent.headerLines := by
    rw [grouped, take_left]
  have payload : sent.blob.drop ((headerBlock sent.headerLines).length + 4) =
      sent.content.payload := by
    rw [grouped, drop_append, drop_eq_nil_of_le (Nat.le_add_right _ 4), nil_append,
      Nat.add_sub_cancel_left]
    rfl
  have wellFormed : ¬ (splitLines (headerBlock sent.headerLines)).any isMalformedLine = true := by
    rw [splitLines_headerBlock admissible.nonempty admissible.areLines, Bool.not_eq_true,
      any_eq_false]
    intro line member
    rw [(admissible.areLines line member).wellFormed]
    exact Bool.false_ne_true
  obtain ⟨info, isRead, describes⟩ := admissible.read
  have read : readPartHeaders parser (headerBlock sent.headerLines) = .ok info := by
    unfold readPartHeaders
    rw [isRead]
    dsimp only
    rw [describes.sound, if_neg Bool.false_ne_true]
  unfold parsePart
  rw [show FirstOccurrence.find (crlf ++ crlf) sent.blob =
    some (headerBlock sent.headerLines).length from headerEnd]
  dsimp only
  rw [headers, if_neg wellFormed, payload, read]
  change (do
    validateMultipartPartHeaders info
    namedPart info sent.content.payload) = _
  rw [validateMultipartPartHeaders_ok describes]
  exact namedPart_ok describes

/-- No part ends within a blob, where none does in its headers, and none in its payload
with the line breaks around it. -/
theorem blob_open (isMarker : IsMarker marker) (long : 2 < marker.length)
    (admissible : HeadersAdmissible parser marker sent)
    (payloadOpen : ¬ Delimits marker (crlf ++ sent.content.payload ++ crlf)) (after : Bytes)
    (inside : start < sent.blob.length) :
    ¬ EndsPart marker ((sent.blob ++ crlf ++ after).drop start) := by
  intro ends
  have grouped : sent.blob ++ crlf ++ after = headerBlock sent.headerLines ++ crlf ++
      (crlf ++ sent.content.payload ++ crlf ++ after) := by
    unfold SentPart.blob
    simp only [append_assoc]
  rw [grouped] at ends
  by_cases inHeaders : start < (headerBlock sent.headerLines).length
  · exact admissible.noBoundary (isMarker.delimits_line inHeaders ends)
  have beyond : (headerBlock sent.headerLines ++ crlf ++
      (crlf ++ sent.content.payload ++ crlf ++ after)).drop start =
        (crlf ++ (crlf ++ sent.content.payload ++ crlf ++ after)).drop
          (start - (headerBlock sent.headerLines).length) := by
    rw [append_assoc, drop_append, drop_eq_nil_of_le (Nat.not_lt.mp inHeaders), nil_append]
  rw [beyond] at ends
  match isStart : start - (headerBlock sent.headerLines).length, ends with
  | 0, ends =>
    -- the empty line is too short for a marker
    have short := isMarker.length_le (cons_ne_nil 13 [10]) (endsPart_iff.mp ends).1
    exact absurd short (Nat.not_le.mpr long)
  | 1, ends =>
    obtain ⟨tail, rfl, _⟩ := isMarker.exists_cons
    cases (cons_prefix_cons.mp (endsPart_iff.mp ends).1).1
  | further + 2, ends =>
    have insidePayload : further < (crlf ++ sent.content.payload).length := by
      have two : crlf.length = 2 := rfl
      unfold SentPart.blob at inside
      simp only [length_append, two] at inside ⊢
      omega
    exact payloadOpen (isMarker.delimits_line insidePayload ends)

end Part

/-! ### Bodies -/

def afterDelimiter (delimiter trailer : Bytes) : List SentPart → Bytes
  | [] => hyphens ++ trailer
  | sent :: rest =>
    crlf ++ sent.blob ++ crlf ++ delimiter ++ afterDelimiter delimiter trailer rest

def delimiterOf (boundary : Text) : Bytes := hyphens ++ boundaryBytes boundary

def markerOf (boundary : Text) : Bytes := crlf ++ delimiterOf boundary

def serialise (boundary : Text) (trailer : Bytes) (parts : List SentPart) : Bytes :=
  delimiterOf boundary ++ afterDelimiter (delimiterOf boundary) trailer parts

theorem isBoundaryChar_byte {char : Char} (isChar : isBoundaryChar char = true) :
    UInt8.ofNat char.toNat ≠ 13 := by
  intro isReturn
  have listed : ∀ other ∈ "'()+_,./:=?- ".toList, UInt8.ofNat other.toNat ≠ 13 := by decide
  have small : 48 ≤ char.toNat ∧ char.toNat ≤ 122 ∨ char ∈ "'()+_,./:=?- ".toList := by
    unfold isBoundaryChar at isChar
    rw [Bool.or_eq_true, Bool.or_eq_true, Bool.or_eq_true, decide_eq_true_eq, decide_eq_true_eq,
      decide_eq_true_eq, contains_iff_mem] at isChar
    rcases isChar with ((digit | upper) | lower) | other
    · have range : 48 ≤ char.toNat ∧ char.toNat ≤ 57 := digit
      exact .inl (by omega)
    · have range : 65 ≤ char.toNat ∧ char.toNat ≤ 90 := upper
      exact .inl (by omega)
    · have range : 97 ≤ char.toNat ∧ char.toNat ≤ 122 := lower
      exact .inl (by omega)
    · exact .inr other
  rcases small with range | other
  · have value := congrArg UInt8.toNat isReturn
    change char.toNat % 256 = 13 at value
    omega
  · exact listed char other isReturn

theorem isMarker_markerOf {boundary : Text} (isAllowed : isBoundary boundary = true) :
    IsMarker (markerOf boundary) := by
  refine ⟨rfl, ?_⟩
  intro member
  unfold isBoundary at isAllowed
  rw [Bool.and_eq_true, Bool.and_eq_true] at isAllowed
  have inBoundary : (13 : UInt8) ∈ boundaryBytes boundary := by
    have others : (13 : UInt8) ∈ [10, 45, 45] ++ boundaryBytes boundary := member
    rcases mem_append.mp others with front | back
    · exact absurd front (by decide)
    · exact back
  obtain ⟨char, isChar, isReturn⟩ := mem_map.mp inBoundary
  exact isBoundaryChar_byte (all_eq_true.mp isAllowed.1.1 char isChar) isReturn

theorem markerOf_long (boundary : Text) : 2 < (markerOf boundary).length := by
  unfold markerOf delimiterOf
  rw [length_append, length_append]
  have crlfLength : crlf.length = 2 := rfl
  have hyphensLength : hyphens.length = 2 := rfl
  omega

section Bodies

variable {parser : HeaderParser} {boundary : Text} {trailer : Bytes}

theorem afterDelimiter_begins (delimiter trailer : Bytes) (parts : List SentPart) :
    (afterDelimiter delimiter trailer parts).take 2 = crlf ∨
      (afterDelimiter delimiter trailer parts).take 2 = hyphens := by
  cases parts with
  | nil => exact .inr rfl
  | cons sent rest => exact .inl rfl

theorem parseParts_afterDelimiter (isAllowed : isBoundary boundary = true)
    (isTrailer : trailer = [] ∨ trailer = crlf) {parts : List SentPart}
    (admissible : ∀ sent ∈ parts, HeadersAdmissible parser (markerOf boundary) sent)
    (payloadsOpen : ∀ sent ∈ parts,
      ¬ Delimits (markerOf boundary) (crlf ++ sent.content.payload ++ crlf)) :
    parseParts parser (delimiterOf boundary) (afterDelimiter (delimiterOf boundary) trailer parts) =
      .ok (parts.map SentPart.content) := by
  induction parts with
  | nil =>
    rw [parseParts]
    have closing : (afterDelimiter (delimiterOf boundary) trailer []).take 2 = hyphens := rfl
    have trailing : (afterDelimiter (delimiterOf boundary) trailer []).drop 2 = trailer := rfl
    rw [if_pos closing, trailing, if_pos isTrailer, map_nil]
  | cons sent rest ih =>
    obtain ⟨sentAdmissible, restAdmissible⟩ := forall_mem_cons.mp admissible
    obtain ⟨sentOpen, restOpen⟩ := forall_mem_cons.mp payloadsOpen
    have isMarker := isMarker_markerOf isAllowed
    obtain ⟨further, isFurther⟩ : ∃ further,
        afterDelimiter (delimiterOf boundary) trailer rest = further := ⟨_, rfl⟩
    have begins := afterDelimiter_begins (delimiterOf boundary) trailer rest
    have parsed := ih restAdmissible restOpen
    rw [isFurther] at begins parsed
    have body : afterDelimiter (delimiterOf boundary) trailer (sent :: rest) =
        crlf ++ (sent.blob ++ (markerOf boundary ++ further)) := by
      unfold markerOf
      rw [afterDelimiter, isFurther]
      simp only [append_assoc]
    have atEnd : nextDelimiter (markerOf boundary) 0
        (sent.blob ++ (markerOf boundary ++ further)) = some sent.blob.length := by
      refine nextDelimiter_eq isMarker (Nat.zero_le _) ?_ fun start inside => ?_
      · rw [endsPart_iff, drop_left]
        exact ⟨prefix_append _ _, begins⟩
      · have lined : sent.blob ++ (markerOf boundary ++ further) =
            sent.blob ++ crlf ++ (delimiterOf boundary ++ further) := by
          unfold markerOf
          simp only [append_assoc]
        rw [lined]
        exact blob_open isMarker (markerOf_long boundary) sentAdmissible sentOpen _ inside
    have afterPart : (crlf ++ (sent.blob ++ (markerOf boundary ++ further))).drop
        (2 + sent.blob.length + 2 + (delimiterOf boundary).length) = further := by
      have whole : crlf ++ (sent.blob ++ (markerOf boundary ++ further)) =
          (crlf ++ sent.blob ++ markerOf boundary) ++ further := by
        simp only [append_assoc]
      rw [whole]
      refine drop_left' ?_
      unfold markerOf
      simp only [length_append]
      have two : crlf.length = 2 := rfl
      omega
    have starts : (crlf ++ (sent.blob ++ (markerOf boundary ++ further))).take 2 = crlf := rfl
    have rest_ : (crlf ++ (sent.blob ++ (markerOf boundary ++ further))).drop 2 =
        sent.blob ++ (markerOf boundary ++ further) := rfl
    rw [body, parseParts, if_neg (by rw [starts]; decide), dif_pos starts, rest_]
    have marks : crlf ++ delimiterOf boundary = markerOf boundary := rfl
    rw [marks, atEnd]
    dsimp only
    rw [take_left, parsePart_blob sentAdmissible, afterPart, parsed]
    rfl

end Bodies

/-- A header of the body's type that names the boundary. -/
structure NamesBoundary (parser : HeaderParser) (contentType boundary : Text) : Prop where
  latin : ∀ char ∈ contentType, char.toNat ≤ 255
  read : parser.contentType contentType =
    .ok
      { isSound := true
        mediaType := "multipart/form-data".toList
        boundary := some boundary }
  nonempty : boundary ≠ []
  allowed : isBoundary boundary = true

variable {parser : HeaderParser}

theorem parseMultipartFormData_of_boundary {contentType boundary : Text}
    (names : NamesBoundary parser contentType boundary) (body : Bytes) :
    parseMultipartFormData parser contentType body =
      if (delimiterOf boundary).isPrefixOf body = false then
        multipartError "Malformed multipart body"
      else parseParts parser (delimiterOf boundary) (body.drop (delimiterOf boundary).length) := by
  have latin : ¬ contentType.any (fun char => 255 < char.toNat) = true := by
    rw [Bool.not_eq_true, any_eq_false]
    intro char member
    rw [decide_eq_true_eq]
    exact Nat.not_lt.mpr (names.latin char member)
  have message : contentTypeMessage parser contentType =
      .ok
        { isSound := true
          mediaType := "multipart/form-data".toList
          boundary := some boundary } := by
    unfold contentTypeMessage
    rw [if_neg latin, names.read]
    rfl
  unfold parseMultipartFormData
  rw [message]
  cases isCons : boundary with
  | nil => exact absurd isCons names.nonempty
  | cons first rest =>
    have allowed : ¬ isBoundary (first :: rest) = false := by
      rw [← isCons, names.allowed]
      exact Bool.true_eq_false.mp
    change (if isBoundary (first :: rest) = false then _ else _) = _
    rw [if_neg allowed]
    rfl

/-! ### The loop over the body -/

/-- One pass of the loop: the end of the body, or a part and what follows its delimiter. -/
def parsePass (parser : HeaderParser) (delimiter body : Bytes) :
    Multipart (Option (MultipartPart × Bytes)) :=
  if body.take 2 = hyphens then
    if body.drop 2 = [] ∨ body.drop 2 = crlf then .ok none
    else multipartError "Malformed multipart closing boundary"
  else if body.take 2 = crlf then
    match nextDelimiter (crlf ++ delimiter) 0 (body.drop 2) with
    | none => multipartError "Multipart closing boundary is required"
    | some partEnd => do
        let part ← parsePart parser ((body.drop 2).take partEnd)
        .ok (some (part, body.drop (2 + partEnd + 2 + delimiter.length)))
  else multipartError "Malformed multipart boundary"

def runPasses (parser : HeaderParser) (delimiter : Bytes) :
    Nat → List MultipartPart → Bytes → Option (Multipart (List MultipartPart))
  | 0, _, _ => none
  | passes + 1, parts, body =>
    match parsePass parser delimiter body with
    | .error fault => some (.error fault)
    | .ok none => some (.ok parts)
    | .ok (some (part, rest)) => runPasses parser delimiter passes (parts ++ [part]) rest

theorem parsePass_shorter {delimiter body rest : Bytes}
    {part : MultipartPart} (passed : parsePass parser delimiter body = .ok (some (part, rest))) :
    rest.length < body.length := by
  unfold parsePass at passed
  split at passed
  · split at passed
    · cases passed
    · cases passed
  split at passed
  · case _ starts =>
      split at passed
      · cases passed
      rename_i partEnd _
      cases parsed : parsePart parser ((body.drop 2).take partEnd) with
      | error fault =>
        rw [parsed] at passed
        cases passed
      | ok found =>
        rw [parsed] at passed
        cases passed
        have taken := congrArg length starts
        rw [length_take] at taken
        have two : crlf.length = 2 := rfl
        rw [length_drop]
        omega
  · cases passed

theorem parseParts_eq (parser : HeaderParser) (delimiter body : Bytes) :
    parseParts parser delimiter body =
      match parsePass parser delimiter body with
      | .error fault => .error fault
      | .ok none => .ok []
      | .ok (some (part, rest)) =>
        (parseParts parser delimiter rest).map fun parts => part :: parts := by
  rw [parseParts, parsePass]
  split
  · split <;> rfl
  split
  · case _ starts =>
      cases nextDelimiter (crlf ++ delimiter) 0 (body.drop 2) with
      | none => rfl
      | some partEnd =>
        dsimp only
        cases parsePart parser ((body.drop 2).take partEnd) with
        | error | ok => rfl
  · rfl

theorem runPasses_eq {delimiter : Bytes} {passes : Nat} {body : Bytes}
    (enough : body.length < passes) (parts : List MultipartPart) :
    runPasses parser delimiter passes parts body =
      some ((parseParts parser delimiter body).map fun rest => parts ++ rest) := by
  induction passes generalizing parts body with
  | zero => exact absurd enough (Nat.not_lt_zero _)
  | succ passes ih =>
    rw [runPasses, parseParts_eq]
    cases passed : parsePass parser delimiter body with
    | error fault => rfl
    | ok next =>
      cases next with
      | none =>
        change some (Except.ok parts) = some (Except.ok (parts ++ []))
        rw [append_nil]
      | some next =>
        obtain ⟨part, rest⟩ := next
        have shorter := parsePass_shorter passed
        dsimp only
        rw [ih (by omega)]
        cases parseParts parser delimiter rest with
        | error fault => rfl
        | ok others =>
          change some (Except.ok (parts ++ [part] ++ others)) =
            some (Except.ok (parts ++ part :: others))
          rw [append_assoc, singleton_append]

/-- The parser inverts the serialisation of parts whose payloads, with the line breaks
before and after, hold no boundary; and its loop ends on every body. -/
theorem parseMultipartFormData_serialise (parser : HeaderParser) :
    (∀ contentType boundary trailer parts, NamesBoundary parser contentType boundary →
      trailer = [] ∨ trailer = crlf →
      (∀ sent ∈ parts, HeadersAdmissible parser (markerOf boundary) sent) →
      (∀ sent ∈ parts, ¬ Delimits (markerOf boundary) (crlf ++ sent.content.payload ++ crlf)) →
      parseMultipartFormData parser contentType (serialise boundary trailer parts) =
        .ok (parts.map SentPart.content)) ∧
    (∀ delimiter body, runPasses parser delimiter (body.length + 1) [] body =
      some (parseParts parser delimiter body)) := by
  constructor
  · intro contentType boundary trailer parts names isTrailer admissible payloadsOpen
    have begins : (delimiterOf boundary).isPrefixOf (serialise boundary trailer parts) = true :=
      isPrefixOf_iff_prefix.mpr (prefix_append _ _)
    rw [parseMultipartFormData_of_boundary names, begins, if_neg Bool.true_eq_false.mp]
    unfold serialise
    rw [drop_left]
    exact parseParts_afterDelimiter names.allowed isTrailer admissible payloadsOpen
  · intro delimiter body
    rw [runPasses_eq (Nat.lt_succ_self body.length)]
    cases parseParts parser delimiter body with
    | error | ok => rfl

def octets (text : String) : Bytes := text.toList.map fun char => UInt8.ofNat char.toNat

/-- A header parser that knows the boundary `B` and the headers of a field `f`. -/
def sampleHeaderParser : HeaderParser :=
  { contentType := fun _ =>
      .ok
        { isSound := true
          mediaType := "multipart/form-data".toList
          boundary := some ['B'] }
    partHeaders := fun _ =>
      .ok
        { defects := false
          contentDispositions := 1
          contentTypes := 0
          declaresType := false
          transferEncodings := []
          mediaType := "text/plain".toList
          disposition := some "form-data".toList
          fieldName := .text ['f']
          filename := .missing } }

def sampleContentType : Text := "multipart/form-data; boundary=B".toList

def sampleSent (payload : Bytes) : SentPart :=
  { headerLines := [octets "Content-Disposition: form-data; name=f"]
    content :=
      { fieldName := ['f']
        filename := none
        contentType := "application/octet-stream".toList
        payload := payload } }

theorem sample_namesBoundary : NamesBoundary sampleHeaderParser sampleContentType ['B'] :=
  ⟨by decide, rfl, by decide, by decide⟩

theorem sampleSent_admissible (payload : Bytes) :
    HeadersAdmissible sampleHeaderParser (markerOf ['B']) (sampleSent payload) := by
  constructor
  case nonempty => exact cons_ne_nil _ _
  case areLines =>
    intro line member
    rw [mem_singleton.mp member]
    exact ⟨by decide, by decide⟩
  case read =>
    refine ⟨_, rfl, ?_⟩
    constructor
    case sound => rfl
    case oneDisposition => rfl
    case formData => rfl
    case oneType => decide
    case notNested => rfl
    case oneEncoding => decide
    case encodings => decide
    case fieldName => rfl
    case named => exact cons_ne_nil _ _
    case filename => rfl
    case contentType => rfl
  case noBoundary =>
    change ¬ Delimits (markerOf ['B'])
      (headerBlock [octets "Content-Disposition: form-data; name=f"] ++ crlf)
    decide

def samplePayloads : List Bytes := [[], octets "\r\n--", octets "--Bx\r", octets "a\r\n"]

theorem samplePayloads_parsed :
    parseMultipartFormData sampleHeaderParser sampleContentType
        (serialise ['B'] crlf (samplePayloads.map sampleSent)) =
      .ok ((samplePayloads.map sampleSent).map SentPart.content) := by
  refine (parseMultipartFormData_serialise sampleHeaderParser).1 sampleContentType ['B'] crlf _
    sample_namesBoundary (.inr rfl) ?_ ?_
  · rw [forall_mem_map]
    exact fun payload _ => sampleSent_admissible payload
  · decide

/-- A payload that begins with the boundary's line holds no line break before it, and yet
ends the part: the break before it is that of the headers. -/
theorem boundaryFirst_not_parsed :
    NamesBoundary sampleHeaderParser sampleContentType ['B'] ∧
    HeadersAdmissible sampleHeaderParser (markerOf ['B']) (sampleSent (octets "--B\r\n")) ∧
    ¬ Delimits (markerOf ['B']) (octets "--B\r\n") ∧
    parseMultipartFormData sampleHeaderParser sampleContentType
        (serialise ['B'] crlf [sampleSent (octets "--B\r\n")]) ≠
      .ok [(sampleSent (octets "--B\r\n")).content] := by
  refine ⟨sample_namesBoundary, sampleSent_admissible _, by decide, ?_⟩
  intro parsed
  have rejected : parseMultipartFormData sampleHeaderParser sampleContentType
      (serialise ['B'] crlf [sampleSent (octets "--B\r\n")]) =
        multipartError "Malformed multipart part" := by
    decide +kernel
  rw [rejected] at parsed
  cases parsed

end XFerry.Http
