/-
Requests that send their encoded data in chunks.

A request whose data stand in pieces is parsed as the one whose data stand whole, in
every carrier that takes chunks, and any other family of chunks is rejected.
-/

import XFerry.Advanced.ChunkFamilies

namespace XFerry.AdvancedPayload

open Python Http Json List Ensures

def fieldsOf (occurrences : List FieldOccurrence) : List (Str × Value) :=
  occurrences.map fun occurrence => (occurrence.name, occurrence.value)

theorem map_plain (occurrences : List FieldOccurrence) :
    occurrences.map FieldOccurrence.plain = (fieldsOf occurrences).map bareOccurrence := by
  unfold fieldsOf
  rw [map_map]
  rfl

theorem fieldsOf_bare (fields : List (Str × Value)) :
    fieldsOf (fields.map bareOccurrence) = fields := by
  unfold fieldsOf
  rw [map_map]
  exact map_id fields

section

variable (occurrences : List FieldOccurrence)
include occurrences

theorem names_fieldsOf : (fieldsOf occurrences).map Prod.fst =
    occurrences.map FieldOccurrence.name := by
  unfold fieldsOf
  rw [map_map]
  rfl

theorem hasPayload_eq :
    hasPayload occurrences = (fieldsOf occurrences).any fun field => isDataName field.1 := by
  unfold hasPayload fieldsOf
  rw [any_map]
  rfl

theorem hasMetadata_eq :
    hasMetadata occurrences = (fieldsOf occurrences).any fun field => isMetadataName field.1 := by
  unfold hasMetadata fieldsOf
  rw [any_map]
  rfl

end

theorem fieldsOf_members (members : List (Str × Value)) :
    fieldsOf (memberOccurrences members) = members := by
  unfold fieldsOf memberOccurrences
  rw [map_map]
  exact zipIdx_map_fst 0 members

theorem zipIdx_map_inOrder {α : Type} (items : List α) (first : Nat)
    (occurrenceOf : α × Nat → FieldOccurrence)
    (ordered : ∀ item, (occurrenceOf item).wireOrder = item.2) :
    InWireOrder ((items.zipIdx first).map occurrenceOf) := by
  refine pairwise_map.mpr ?_
  have increasing : ((items.zipIdx first).map Prod.snd).Pairwise (· ≤ ·) := by
    rw [zipIdx_map_snd]
    exact pairwise_le_range'
  refine (pairwise_map.mp increasing).imp fun {left right} before => ?_
  rw [ordered, ordered]
  exact before

theorem memberOccurrences_inOrder (members : List (Str × Value)) :
    InWireOrder (memberOccurrences members) :=
  zipIdx_map_inOrder members 0 _ fun _ => rfl

variable {collected next : CollectedFields}

theorem collectField_of_plain {allowChunks : Bool} {occurrence : FieldOccurrence}
    (taken : collectField allowChunks collected.plain occurrence.plain = .ok next) :
    ∃ full, collectField allowChunks collected occurrence = .ok full ∧ next = full.plain := by
  cases known : collectField allowChunks collected occurrence with
  | ok full =>
    have same := collectField_plain known
    exact ⟨full, rfl, Except.ok.inj (taken.symm.trans same)⟩
  | error fault =>
    unfold collectField at taken known
    rw [FieldOccurrence.plain_name] at taken
    cases named : fieldNamed occurrence.name with
    | some field =>
      simp only [named, values_plain, Option.isSome_map] at taken known
      split at known
      · case _ present =>
          rw [if_pos present] at taken
          cases taken
      · cases known
    | none =>
      simp only [named] at taken known
      obtain ⟨index, isChunk, taken⟩ := bind_eq_ok.mp taken
      rw [bind_of_ok isChunk] at known
      cases index with
      | none => cases taken
      | some index =>
        simp only at taken known
        split at known
        · case _ refused =>
            rw [if_pos refused] at taken
            cases taken
        · cases known

variable {occurrences : List FieldOccurrence}

theorem foldlM_collectField_of_plain {allowChunks : Bool}
    (taken : (occurrences.map FieldOccurrence.plain).foldlM (collectField allowChunks)
      collected.plain = .ok next) :
    ∃ full, occurrences.foldlM (collectField allowChunks) collected = .ok full ∧
      next = full.plain := by
  induction occurrences generalizing collected with
  | nil =>
    cases taken
    exact ⟨collected, rfl, rfl⟩
  | cons occurrence rest ih =>
    obtain ⟨middle, first, others⟩ := bind_eq_ok.mp taken
    obtain ⟨full, isFull, rfl⟩ := collectField_of_plain first
    rw [foldlM_cons, bind_of_ok isFull]
    exact ih others

variable {payload : CanonicalAdvancedPayload}

theorem buildPayload_iff_fields {source : PayloadSource} (inOrder : InWireOrder occurrences) :
    buildPayload source occurrences = .ok payload ↔
      buildPayload source ((fieldsOf occurrences).map bareOccurrence) = .ok payload := by
  rw [← map_plain]
  refine ⟨buildPayload_plain inOrder, fun built => ?_⟩
  unfold buildPayload at built ⊢
  obtain ⟨collected, taken, built⟩ := bind_eq_ok.mp built
  have fromPlain : (occurrences.map FieldOccurrence.plain).foldlM (collectField source.allowChunks)
      CollectedFields.empty.plain = .ok collected := taken
  obtain ⟨full, isFull, rfl⟩ := foldlM_collectField_of_plain fromPlain
  have chunksInOrder : ChunksInOrder full :=
    List.Pairwise.sublist (foldlM_collectField_inOrder isFull) inOrder
  rw [settleFields_plain source chunksInOrder, declaredName_plain] at built
  rw [bind_of_ok isFull]
  exact built

section Scans

variable {α : Type} {classify : α → Classified} {items : List α}

theorem mapM_zipIdx_succeeds (first : Nat)
    (classified : ∀ item ∈ items, ∃ content, classify item = .ok content) :
    Succeeds ((items.zipIdx first).mapM fun item => (classify item.1).map fun classified =>
      classified.map fun (name, value, displayName) =>
        ({ name := name, value := value, wireOrder := item.2, displayName := displayName } :
          FieldOccurrence)) := by
  induction items generalizing first with
  | nil => exact .ok []
  | cons item rest ih =>
    obtain ⟨content, isContent⟩ := classified item mem_cons_self
    obtain ⟨others, isOthers⟩ := ih (first + 1) fun other member =>
      classified other (mem_cons_of_mem item member)
    rw [zipIdx_cons, mapM_cons]
    rw [isContent, isOthers]
    exact .ok _

theorem scanOccurrences_succeeds :
    Succeeds (scanOccurrences classify items) ↔
      ∀ item ∈ items, ∃ content, classify item = .ok content := by
  constructor
  · rintro ⟨occurrences, isScan⟩
    exact (scanOccurrences_scanned isScan).classified
  · intro classified
    obtain ⟨scanned, isScan⟩ := mapM_zipIdx_succeeds 0 classified
    unfold scanOccurrences
    rw [isScan]
    exact .ok _

theorem fieldsOf_scan (isScan : scanOccurrences classify items = .ok occurrences) :
    fieldsOf occurrences = items.filterMap (contentOf classify) := by
  have contents := (scanOccurrences_scanned isScan).contents
  rw [map_plain] at contents
  rw [← fieldsOf_bare (fieldsOf occurrences), contents, fieldsOf_bare]

end Scans

variable {request : HTTPRequest}

theorem headerScan_inOrder (isScan : headerScan request = .ok occurrences) :
    InWireOrder occurrences :=
  (scanOccurrences_scanned isScan).inOrder

theorem queryScan_inOrder (isScan : queryScan request = .ok occurrences) :
    InWireOrder occurrences := by
  obtain ⟨pairs, _, isScan⟩ := bind_eq_ok.mp isScan
  exact (scanOccurrences_scanned isScan).inOrder

/-- Two scanned requests that select the same carrier, and make the same payload of it. -/
structure ParsedAlike (readers : PayloadReaders) (route : AdvancedRoute)
    (carrier : AdvancedCarrier) (encodedData : Str) (left right : ScannedRequest) : Prop where
  present : ∀ any, left.isPresent route any = right.isPresent route any
  headers : hasMetadata left.headers = hasMetadata right.headers
  query : hasMetadata left.query = hasMetadata right.query
  cookies : hasMetadata left.cookies = hasMetadata right.cookies
  carries : left.isPresent route carrier = true
  parsed : ∀ payload, parseSelected readers route left carrier = .ok payload ↔
    parseSelected readers route right carrier = .ok payload
  encoded : ∀ payload, parseSelected readers route left carrier = .ok payload →
    payload.encodedData = some encodedData

namespace ParsedAlike

variable {readers : PayloadReaders} {route : AdvancedRoute} {carrier : AdvancedCarrier}
  {encodedData : Str} {left right : ScannedRequest}

section

variable (alike : ParsedAlike readers route carrier encodedData left right)
include alike

theorem symm : ParsedAlike readers route carrier encodedData right left where
  present any := (alike.present any).symm
  headers := alike.headers.symm
  query := alike.query.symm
  cookies := alike.cookies.symm
  carries := (alike.present carrier).symm.trans alike.carries
  parsed payload := (alike.parsed payload).symm
  encoded payload parsed := alike.encoded payload ((alike.parsed payload).mpr parsed)

theorem select_eq : left.select route = right.select route := by
  have same : left.isPresent route = right.isPresent route := funext alike.present
  unfold ScannedRequest.select ScannedRequest.present ScannedRequest.sortedPresent
  rw [same]

theorem checkMetadata_eq
    (selected : AdvancedCarrier) : left.checkMetadata selected = right.checkMetadata selected := by
  unfold ScannedRequest.checkMetadata
  rw [alike.headers, alike.query, alike.cookies]

end

end ParsedAlike

section Alike

variable {readers : PayloadReaders} {route : AdvancedRoute} {limits : AdvancedLimits}
  {carrier : AdvancedCarrier} {encodedData : Str} {request other : HTTPRequest}

theorem parse_of_alike
    (scans : Succeeds (scanRequest readers request) → Succeeds (scanRequest readers other))
    (alike : ∀ left right, scanRequest readers request = .ok left →
      scanRequest readers other = .ok right →
      ParsedAlike readers route carrier encodedData left right)
    (accepted : parseAdvancedPayload readers route limits request = .ok payload) :
    parseAdvancedPayload readers route limits other = .ok payload ∧
      payload.encodedData = some encodedData := by
  unfold parseAdvancedPayload at accepted ⊢
  obtain ⟨left, isLeft, accepted⟩ := bind_eq_ok.mp accepted
  obtain ⟨right, isRight⟩ := scans ⟨left, isLeft⟩
  have same := alike left right isLeft isRight
  rw [same.select_eq] at accepted
  obtain ⟨selected, isSelected, accepted⟩ := bind_eq_ok.mp accepted
  rw [same.checkMetadata_eq] at accepted
  obtain ⟨_, checked, accepted⟩ := bind_eq_ok.mp accepted
  obtain ⟨found, parsed, accepted⟩ := bind_eq_ok.mp accepted
  obtain ⟨_, limited, isFound⟩ := bind_eq_ok.mp accepted
  cases isFound
  have isCarrier : carrier = selected :=
    (select_only isSelected carrier).mp ((same.present carrier).symm.trans same.carries)
  rw [← isCarrier] at parsed isSelected checked
  refine ⟨?_, same.encoded payload parsed⟩
  rw [bind_of_ok isRight, bind_of_ok isSelected, bind_of_ok checked,
    bind_of_ok ((same.parsed payload).mp parsed)]
  exact accepted

theorem parse_iff_of_alike (carrier : AdvancedCarrier)
    (scans : Succeeds (scanRequest readers request) ↔ Succeeds (scanRequest readers other))
    (alike : ∀ left right, scanRequest readers request = .ok left →
      scanRequest readers other = .ok right →
      ParsedAlike readers route carrier encodedData left right)
    (payload : CanonicalAdvancedPayload) :
    (parseAdvancedPayload readers route limits other = .ok payload ↔
      parseAdvancedPayload readers route limits request = .ok payload) ∧
    (parseAdvancedPayload readers route limits other = .ok payload →
      payload.encodedData = some encodedData) := by
  have back (accepted : parseAdvancedPayload readers route limits other = .ok payload) :=
    parse_of_alike scans.mpr
      (fun right left isRight isLeft => (alike left right isLeft isRight).symm) accepted
  have forth (accepted : parseAdvancedPayload readers route limits request = .ok payload) :=
    parse_of_alike scans.mp alike accepted
  exact ⟨⟨fun accepted => (back accepted).1, fun accepted => (forth accepted).1⟩,
    fun accepted => (back accepted).2⟩

end Alike

inductive ChunkCarrier where
  | headers
  | query
  | json
  | form
  | multipart

def ChunkCarrier.profile : ChunkCarrier → Option AdvancedBodyProfile
  | .headers => none
  | .query => none
  | .json => some .json
  | .form => some .form
  | .multipart => some .multipartEncoded

def fieldsIn (readers : PayloadReaders) (request : HTTPRequest) :
    ChunkCarrier → Parsed (List (Str × Value))
  | .headers => (headerScan request).map fieldsOf
  | .query => (queryScan request).map fieldsOf
  | .json => do
      match ← loadJson readers.levels request.body with
      | .object members => .ok members
      | _ =>
        reject
          { status := 400
            code := "invalid_json_type"
            message := "Advanced JSON body must be an object"
            details := .expected "object" }
  | .form =>
    match decode request.body with
    | none => invalidField FieldName.data.code
    | some raw =>
      (parseFormPairs raw).map fun pairs =>
        pairs.map fun pair => (str pair.1, .string (str pair.2))
  | .multipart =>
    match parseMultipartFormData readers.headers
        ((request.headerValues "content-type").headD []) request.body with
    | .error (.multipartError _) => invalidField (literal "file")
    | .error .raised => .error (.uncaught .reader)
    | .ok parts => (parts.filter fun part => part.filename.isNone).mapM scalarMember

def ChunkCarrier.source : ChunkCarrier → PayloadSource
  | .headers => headerSource
  | .query => querySource
  | .json => jsonSource
  | .form => formSource
  | .multipart => multipartEncodedSource

def holdsFiles (readers : PayloadReaders) (request : HTTPRequest) : ChunkCarrier → Bool
  | .multipart =>
    match parseMultipartFormData readers.headers
        ((request.headerValues "content-type").headD []) request.body with
    | .error _ => false
    | .ok parts => parts.any fun part => part.filename.isSome
  | _ => false

/-- A carrier in the body is read as its profile says. -/
def InUse (readers : PayloadReaders) (route : AdvancedRoute) (request : HTTPRequest)
    (place : ChunkCarrier) : Prop :=
  ∀ profile ∈ place.profile, request.body ≠ [] ∧ ∃ contentType,
    bodyProfile readers.unicode route.decoder (request.headerValues "content-type") =
      .ok (profile, contentType)

/-- A value that a header can hold beside others: no comma, and no blank at an end. -/
structure Admissible (value : Text) : Prop where
  noComma : ',' ∉ value
  first : ∀ char, value.head? = some char → isBlank char = false
  last : ∀ char, value.getLast? = some char → isBlank char = false

/-- A header of one line that carries the piece, with or without a blank before it. -/
structure CarriedBy (lower : Text) (piece : Str) (field : HeaderField) : Prop where
  name : field.name = lower
  value : str field.value = piece
  raw : field.rawLines = [field.value] ∨ field.rawLines = [' ' :: field.value]

def dataHeader : Text := FieldName.data.header.toList

def chunkHeader (index : Nat) : Text := "x-xferry-data-".toList ++ Nat.toDigits 10 index

def isDataHeader (field : HeaderField) : Bool :=
  match advancedHeaderName field.name with
  | none => false
  | some name => isDataName name

/-- The chunks of a family, as headers numbered from the given one on. -/
def CarriesPieces (first : Nat) (chunks : List HeaderField) (pieces : List Str) : Prop :=
  List.Forall₂ (fun field piece =>
    CarriedBy (chunkHeader piece.2) piece.1 field ∧ Admissible field.value)
    chunks (pieces.zipIdx first)

/-- The length of the body, in one line. -/
structure IsLengthHeader (field : HeaderField) : Prop where
  name : field.name = "content-length".toList
  oneLine : field.rawLines.length ≤ 1

/-- The second request has the pieces in headers where the first has the whole in one. -/
structure SplitHeaders (request chunked : HTTPRequest) (whole : Str) (pieces : List Str)
    (others chunks : List HeaderField) (data : HeaderField) : Prop where
  sameLine : chunked.requestLine = request.requestLine
  sameBody : chunked.body = request.body
  noData : ∀ field ∈ others, isDataHeader field = false
  sentWhole : Weave others [data] request.fields.reverse
  sentPieces : Weave others chunks chunked.fields.reverse
  isWhole : CarriedBy dataHeader whole data
  arePieces : CarriesPieces 0 chunks pieces

/-- The fields that the parser reads in the carrier differ in the form of the data only. -/
structure SplitFields (readers : PayloadReaders) (request chunked : HTTPRequest)
    (place : ChunkCarrier) (whole : Str) (pieces : List Str)
    (others fields chunkFields : List (Str × Value)) : Prop where
  noData : ∀ field ∈ others, isDataName field.1 = false
  isRead : fieldsIn readers request place = .ok fields
  chunkedIsRead : fieldsIn readers chunked place = .ok chunkFields
  sentWhole : Weave others [wholeField whole] fields
  sentPieces : Weave others (pieceFields pieces) chunkFields

structure SplitQuery (readers : PayloadReaders) (request chunked : HTTPRequest) (whole : Str)
    (pieces : List Str) (others fields chunkFields : List (Str × Value)) : Prop
    extends SplitFields readers request chunked .query whole pieces others fields chunkFields where
  sameLine : chunked.requestLine =
    { request.requestLine with queryString := chunked.requestLine.queryString }
  sameFields : chunked.fields = request.fields
  sameBody : chunked.body = request.body

/-- The headers are the same, but for the length of the body. -/
structure SplitBody (readers : PayloadReaders) (route : AdvancedRoute)
    (request chunked : HTTPRequest) (place : ChunkCarrier) (whole : Str) (pieces : List Str)
    (others fields chunkFields : List (Str × Value))
    (headers lengths chunkedLengths : List HeaderField) : Prop
    extends SplitFields readers request chunked place whole pieces others fields chunkFields where
  isBody : place.profile.isSome = true
  inUse : InUse readers route request place
  chunkedBody : chunked.body ≠ []
  sameFiles : holdsFiles readers chunked place = holdsFiles readers request place
  sameLine : chunked.requestLine = request.requestLine
  sentHeaders : Weave headers lengths request.fields.reverse
  sentChunkedHeaders : Weave headers chunkedLengths chunked.fields.reverse
  areLengths : ∀ field ∈ lengths, IsLengthHeader field
  areChunkedLengths : ∀ field ∈ chunkedLengths, IsLengthHeader field

/-- The second request sends in pieces the data that the first sends whole, among the
same other fields of the carrier, and is the same besides. -/
def SplitInto (readers : PayloadReaders) (route : AdvancedRoute) (request chunked : HTTPRequest)
    (whole : Str) (pieces : List Str) : ChunkCarrier → Prop
  | .headers => ∃ others chunks data, SplitHeaders request chunked whole pieces others chunks data
  | .query => ∃ others fields chunkFields,
      SplitQuery readers request chunked whole pieces others fields chunkFields
  | place => ∃ others fields chunkFields headers lengths chunkedLengths,
      SplitBody readers route request chunked place whole pieces others fields chunkFields
        headers lengths chunkedLengths

def Misfit : Parsed (List (Str × Value)) → Prop
  | .error _ => True
  | .ok fields =>
    dataNames (fields.map Prod.fst) ≠ [] ∧ ¬ IsFamily (dataNames (fields.map Prod.fst))

theorem admissible_nil : Admissible [] :=
  ⟨not_mem_nil, fun _ none => absurd none nofun, fun _ none => absurd none nofun⟩

theorem Admissible.append {left right : Text} (isLeft : Admissible left)
    (isRight : Admissible right) : Admissible (left ++ right) := by
  constructor
  case noComma =>
    intro comma
    rcases mem_append.mp comma with inLeft | inRight
    · exact isLeft.noComma inLeft
    · exact isRight.noComma inRight
  case first =>
    intro char isFirst
    rw [head?_append] at isFirst
    rcases Option.or_eq_some_iff.mp isFirst with inLeft | ⟨_, inRight⟩
    · exact isLeft.first char inLeft
    · exact isRight.first char inRight
  case last =>
    intro char isLast
    rw [getLast?_append] at isLast
    rcases Option.or_eq_some_iff.mp isLast with inRight | ⟨_, inLeft⟩
    · exact isRight.last char inRight
    · exact isLeft.last char inLeft

theorem Admissible.flatten {values : List Text} (all : ∀ value ∈ values, Admissible value) :
    Admissible values.flatten := by
  induction values with
  | nil => exact admissible_nil
  | cons value rest ih =>
    exact (all value mem_cons_self).append
      (ih fun other member => all other (mem_cons_of_mem value member))

theorem dropWhile_of_head {text : Text} {drops : Char → Bool}
    (kept : ∀ char, text.head? = some char → drops char = false) : text.dropWhile drops = text := by
  cases text with
  | nil => rfl
  | cons char rest =>
    rw [dropWhile_cons_of_neg (by rw [kept char rfl]; exact Bool.false_ne_true)]

theorem Admissible.trim_eq {value : Text} (admissible : Admissible value) :
    trim isBlank value = value := by
  unfold trim
  rw [dropWhile_of_head admissible.first, dropWhile_of_head, reverse_reverse]
  intro char isFirst
  rw [head?_reverse] at isFirst
  exact admissible.last char isFirst

variable {field : HeaderField}

theorem canonicalAdvancedHeaderValue_of_carried {lower : Text} {piece : Str}
    (carried : CarriedBy lower piece field) (admissible : Admissible field.value) :
    canonicalAdvancedHeaderValue field = .ok field.value := by
  have separated : headerValueAfterSeparator field.rawLines.flatten (str field.key) =
      .ok field.value := by
    rcases carried.raw with alone | spaced
    · rw [alone, flatten_singleton]
      unfold headerValueAfterSeparator
      split
      · case _ rest isTab => exact absurd (admissible.first '\t' (by rw [isTab]; rfl)) nofun
      · case _ rest isSpace => exact absurd (admissible.first ' ' (by rw [isSpace]; rfl)) nofun
      · rfl
    · rw [spaced, flatten_singleton]
      rfl
  unfold canonicalAdvancedHeaderValue
  rw [separated]
  change (if field.value ≠ field.value ∨ field.value ≠ trim isBlank field.value then _ else _) = _
  rw [if_neg]
  rintro (differs | untrimmed)
  · exact differs rfl
  · exact untrimmed admissible.trim_eq.symm

theorem legacyHeaderField_of_dataHeader
    (begins : (str field.name).take 4 = literal "x-xf") : legacyHeaderField field = none := by
  unfold legacyHeaderField
  have notChunk : digitsAfter (literal "x-d-") (str field.name) = none := by
    cases found : digitsAfter (literal "x-d-") (str field.name) with
    | none => rfl
    | some digits =>
      rw [(digitsAfter_eq_some.mp found).1, take_left'] at begins
      · exact absurd begins (by decide)
      · decide
  have notListed : rejectionOf headerLegacyRejections (str field.name) = none := by
    unfold rejectionOf
    rw [Option.map_eq_none_iff, find?_eq_none]
    intro entry member same
    have table : ∀ entry ∈ headerLegacyRejections, (literal entry.1).take 4 ≠ literal "x-xf" := by
      decide
    refine table entry member ?_
    rw [of_decide_eq_true same]
    exact begins
  rw [notChunk, notListed]
  rfl

theorem classifyHeader_of_carried {lower : Text} {name piece : Str}
    (carried : CarriedBy lower piece field) (admissible : Admissible field.value)
    (begins : (str lower).take 4 = literal "x-xf") (named : advancedHeaderName lower = some name) :
    classifyHeader field = .ok (some (name, .string piece, str field.key)) := by
  have oneLine : ¬ 1 < field.rawLines.length := by
    rcases carried.raw with alone | spaced
    · rw [alone]
      exact Nat.lt_irrefl 1
    · rw [spaced]
      exact Nat.lt_irrefl 1
  have noComma : ¬ field.value.contains ',' = true := by
    rw [contains_iff_mem]
    exact admissible.noComma
  have notLegacy : legacyHeaderField field = none := by
    refine legacyHeaderField_of_dataHeader ?_
    rw [carried.name]
    exact begins
  unfold classifyHeader
  rw [if_neg oneLine, notLegacy]
  simp only [carried.name, named]
  rw [bind_of_ok (canonicalAdvancedHeaderValue_of_carried carried admissible),
    if_neg noComma, carried.value]

theorem advancedHeaderName_dataHeader :
    advancedHeaderName dataHeader = some FieldName.data.code := by decide

theorem advancedHeaderName_chunkHeader (index : Nat) :
    advancedHeaderName (chunkHeader index) = some (chunkName index) := by
  have digits : digitsAfter (literal "x-xferry-data-") (str (chunkHeader index)) =
      some (str (Nat.toDigits 10 index)) := by
    obtain ⟨_, nonempty, all⟩ := digitsAfter_eq_some.mp (chunkDigits_chunkName index)
    refine digitsAfter_eq_some.mpr ⟨?_, nonempty, all⟩
    unfold chunkHeader
    rfl
  have noField : fieldNames.find? (fun field => field.header.toList = chunkHeader index) =
      none := by
    rw [find?_eq_none]
    intro field member same
    have table : ∀ field ∈ fieldNames,
        (field.header.toList).take 14 ≠ "x-xferry-data-".toList := by decide
    refine table field member ?_
    rw [of_decide_eq_true same]
    exact take_left' (by decide)
  unfold advancedHeaderName
  simp only [digits]
  rfl

theorem take_dataHeader : (str dataHeader).take 4 = literal "x-xf" := by decide

theorem take_chunkHeader (index : Nat) : (str (chunkHeader index)).take 4 = literal "x-xf" := by
  unfold chunkHeader
  rw [str_append, take_append_of_le_length (by decide)]
  decide

theorem classifyHeader_data {whole : Str}
    (carried : CarriedBy dataHeader whole field) (admissible : Admissible field.value) :
    classifyHeader field = .ok (some (FieldName.data.code, .string whole, str field.key)) :=
  classifyHeader_of_carried carried admissible take_dataHeader advancedHeaderName_dataHeader

theorem classifyHeader_chunk {index : Nat} {piece : Str}
    (carried : CarriedBy (chunkHeader index) piece field) (admissible : Admissible field.value) :
    classifyHeader field = .ok (some (chunkName index, .string piece, str field.key)) :=
  classifyHeader_of_carried carried admissible (take_chunkHeader index)
    (advancedHeaderName_chunkHeader index)

theorem classifyHeader_length (isLength : IsLengthHeader field) :
    classifyHeader field = .ok none := by
  have notLegacy : legacyHeaderField field = none := by
    unfold legacyHeaderField
    rw [isLength.name, if_neg (by decide)]
    decide
  have noName : advancedHeaderName "content-length".toList = none := by decide
  have notControl : ¬ isAdvancedControlHeader "content-length".toList = true := by decide
  have notFamily : ¬ "x-xferry-".toList.isPrefixOf "content-length".toList = true := by decide
  unfold classifyHeader
  rw [if_neg (Nat.not_lt.mpr isLength.oneLine), notLegacy]
  simp only [isLength.name, noName]
  rw [if_neg notControl, if_neg notFamily]

namespace CarriesPieces

variable {first : Nat} {chunks : List HeaderField} {pieces : List Str}

section

variable (carries : CarriesPieces first chunks pieces)
include carries

theorem classified : (∀ field ∈ chunks, ∃ content, classifyHeader field = .ok content) ∧
      chunks.filterMap (contentOf classifyHeader) = pieceFieldsFrom first pieces := by
  induction pieces generalizing first chunks with
  | nil =>
    cases carries
    exact ⟨fun field member => absurd member not_mem_nil, rfl⟩
  | cons piece rest ih =>
    unfold CarriesPieces at carries
    cases carries with
    | @cons field _ others _ here there =>
      have isChunk := classifyHeader_chunk here.1 here.2
      obtain ⟨all, contents⟩ := ih there
      refine ⟨forall_mem_cons.mpr ⟨⟨_, isChunk⟩, all⟩, ?_⟩
      have content : contentOf classifyHeader field = some (chunkName first, .string piece) := by
        unfold contentOf
        rw [isChunk]
      unfold pieceFieldsFrom at contents ⊢
      rw [filterMap_cons_some content, contents, zipIdx_cons, map_cons]

theorem named : ∀ field ∈ chunks, ∃ index, field.name = chunkHeader index := by
  induction pieces generalizing first chunks with
  | nil =>
    cases carries
    exact fun field member => absurd member not_mem_nil
  | cons piece rest ih =>
    unfold CarriesPieces at carries
    cases carries with
    | cons here there =>
      exact forall_mem_cons.mpr ⟨⟨first, here.1.name⟩, ih there⟩

theorem values : (∀ field ∈ chunks, Admissible field.value) ∧
      chunks.map (fun field => str field.value) = pieces := by
  induction pieces generalizing first chunks with
  | nil =>
    cases carries
    exact ⟨fun field member => absurd member not_mem_nil, rfl⟩
  | cons piece rest ih =>
    unfold CarriesPieces at carries
    cases carries with
    | cons here there =>
      obtain ⟨all, same⟩ := ih there
      refine ⟨forall_mem_cons.mpr ⟨here.2, all⟩, ?_⟩
      rw [map_cons, same, here.1.value]

end

end CarriesPieces

theorem str_flatten (values : List Text) : str values.flatten = (values.map str).flatten := by
  unfold str
  rw [map_flatten]

theorem admissible_of_pieces {first : Nat} {chunks : List HeaderField} {pieces : List Str}
    (carries : CarriesPieces first chunks pieces) {value : Text}
    (together : str value = pieces.flatten) : Admissible value := by
  obtain ⟨all, same⟩ := carries.values
  have isFlatten : value = (chunks.map HeaderField.value).flatten := by
    apply str_injective
    rw [together, ← same, str_flatten, map_map]
    rfl
  rw [isFlatten]
  exact Admissible.flatten (forall_mem_map.mpr all)

section Woven

variable {request : HTTPRequest} {others extra : List HeaderField}

section

variable (woven : Weave others extra request.fields.reverse)
include woven

theorem fieldsNamed_of_woven {name : String} (unnamed : ∀ field ∈ extra, field.name ≠ name.toList) :
    request.fieldsNamed name = others.filter fun field => field.name = name.toList := by
  unfold HTTPRequest.fieldsNamed
  rw [← filter_reverse, woven.filter_left]
  intro field member
  rw [decide_eq_false_iff_not]
  exact unnamed field member

theorem headerScan_succeeds_of_woven
    (classified : ∀ field ∈ extra, ∃ content, classifyHeader field = .ok content) :
    Succeeds (headerScan request) ↔
      ∀ field ∈ others, ∃ content, classifyHeader field = .ok content := by
  unfold headerScan
  rw [scanOccurrences_succeeds]
  constructor
  · exact fun all field member => all field (woven.mem_iff.mpr (.inl member))
  · intro all field member
    rcases woven.mem_iff.mp member with inOthers | inExtra
    · exact all field inOthers
    · exact classified field inExtra

theorem fieldsOf_headerScan (isScan : headerScan request = .ok occurrences) :
    Weave (others.filterMap (contentOf classifyHeader)) (extra.filterMap (contentOf classifyHeader))
      (fieldsOf occurrences) := by
  rw [fieldsOf_scan isScan]
  exact woven.filterMap (contentOf classifyHeader)

end

end Woven

variable {request other : HTTPRequest}

theorem cookieScan_congr {unicode : Unicode}
    (same : other.fieldsNamed "cookie" = request.fieldsNamed "cookie") :
    cookieScan unicode other = cookieScan unicode request := by
  unfold cookieScan cookiePairs
  rw [same]

theorem queryScan_congr (same : other.requestLine.queryString = request.requestLine.queryString) :
    queryScan other = queryScan request := by
  unfold queryScan
  rw [same]

theorem headerScan_congr (same : other.fields = request.fields) :
    headerScan other = headerScan request := by
  unfold headerScan
  rw [same]

variable {readers : PayloadReaders}

theorem scanRequest_succeeds :
    Succeeds (scanRequest readers request) ↔ Succeeds (headerScan request) ∧
      Succeeds (queryScan request) ∧ Succeeds (cookieScan readers.unicode request) := by
  unfold scanRequest
  simp only [Succeeds.bind_iff]
  constructor
  · rintro ⟨headers, isHeaders, query, isQuery, cookies, isCookies, _⟩
    exact ⟨⟨headers, isHeaders⟩, ⟨query, isQuery⟩, ⟨cookies, isCookies⟩⟩
  · rintro ⟨⟨headers, isHeaders⟩, ⟨query, isQuery⟩, ⟨cookies, isCookies⟩⟩
    exact ⟨headers, isHeaders, query, isQuery, cookies, isCookies, .ok _⟩

structure ScansOf (readers : PayloadReaders) (request : HTTPRequest) (scanned : ScannedRequest) :
    Prop where
  ofRequest : scanned.request = request
  headers : headerScan request = .ok scanned.headers
  query : queryScan request = .ok scanned.query
  cookies : cookieScan readers.unicode request = .ok scanned.cookies

variable {scanned : ScannedRequest}

theorem scansOf
    (isScan : scanRequest readers request = .ok scanned) : ScansOf readers request scanned := by
  obtain ⟨headers, isHeaders, isScan⟩ := bind_eq_ok.mp isScan
  obtain ⟨query, isQuery, isScan⟩ := bind_eq_ok.mp isScan
  obtain ⟨cookies, isCookies, isScan⟩ := bind_eq_ok.mp isScan
  cases isScan
  exact ⟨rfl, isHeaders, isQuery, isCookies⟩

theorem isMetadataName_of_isDataName {name : Str} (isData : isDataName name = true) :
    isMetadataName name = false := by
  unfold isMetadataName
  rcases Bool.or_eq_true_iff.mp isData with isWhole | isChunk
  · rw [of_decide_eq_true isWhole]
    decide
  · obtain ⟨digits, found⟩ := Option.isSome_iff_exists.mp isChunk
    rw [fieldNamed_of_chunkDigits found]

theorem source_takesChunks (place : ChunkCarrier) : TakesChunks place.source := by
  cases place <;> exact ⟨rfl, rfl, rfl⟩

/-- Occurrences of the same fields, of which one has the data whole and one in pieces. -/
structure FormsOfData (others : List (Str × Value)) (pieces : List Str)
    (left right : List FieldOccurrence) : Prop where
  noData : ∀ field ∈ others, isDataName field.1 = false
  sentWhole : Weave others [wholeField pieces.flatten] (fieldsOf left)
  sentPieces : Weave others (pieceFields pieces) (fieldsOf right)
  leftInOrder : InWireOrder left
  rightInOrder : InWireOrder right

namespace FormsOfData

variable {others : List (Str × Value)} {pieces : List Str} {left right : List FieldOccurrence}

theorem pieces_isData (pieces : List Str) :
    ∀ field ∈ pieceFields pieces, isDataName field.1 = true := by
  intro field member
  obtain ⟨index, same⟩ := mem_pieceFields member
  rw [same]
  exact isDataName_chunkName index

theorem pieceFields_ne_nil (nonempty : pieces ≠ []) : pieceFields pieces ≠ [] := by
  intro empty
  exact nonempty (zipIdx_eq_nil_iff.mp (map_eq_nil_iff.mp empty))

section

variable (forms : FormsOfData others pieces left right)
include forms

theorem left_hasPayload : hasPayload left = true := by
  rw [hasPayload_eq, forms.sentWhole.any_eq, Bool.or_eq_true]
  exact .inr rfl

theorem right_hasPayload (nonempty : pieces ≠ []) : hasPayload right = true := by
  rw [hasPayload_eq, forms.sentPieces.any_eq, Bool.or_eq_true]
  obtain ⟨field, member⟩ := exists_mem_of_ne_nil _ (pieceFields_ne_nil nonempty)
  exact .inr (any_eq_true.mpr ⟨field, member, pieces_isData pieces field member⟩)

theorem metadata_eq : hasMetadata left = hasMetadata right := by
  have noMetadata : (pieceFields pieces).any (fun field => isMetadataName field.1) = false := by
    rw [any_eq_false]
    intro field member
    rw [isMetadataName_of_isDataName (pieces_isData pieces field member)]
    exact Bool.false_ne_true
  rw [hasMetadata_eq, hasMetadata_eq, forms.sentWhole.any_eq, forms.sentPieces.any_eq, noMetadata]
  rfl

theorem built_iff {source : PayloadSource}
    (takes : TakesChunks source) (nonempty : pieces ≠ []) (few : pieces.length ≤ 256)
    (payload : CanonicalAdvancedPayload) :
    buildPayload source left = .ok payload ↔ buildPayload source right = .ok payload := by
  rw [buildPayload_iff_fields forms.leftInOrder, buildPayload_iff_fields forms.rightInOrder,
    buildPayload_whole takes forms.sentWhole forms.noData,
    buildPayload_pieces takes nonempty few forms.sentPieces forms.noData]

theorem built_encoded {source : PayloadSource}
    (takes : TakesChunks source) (built : buildPayload source left = .ok payload) :
    payload.encodedData = some pieces.flatten := by
  rw [buildPayload_iff_fields forms.leftInOrder,
    buildPayload_whole takes forms.sentWhole forms.noData] at built
  exact payloadOf_encodedData payload built

end

end FormsOfData

/-- What `parse_advanced_payload` makes of a body of a profile that takes chunks. -/
def parseStructured (readers : PayloadReaders) (request : HTTPRequest) :
    ChunkCarrier → Parsed CanonicalAdvancedPayload
  | .json => parseJsonBody readers request.body
  | .form => parseFormBody request.body
  | _ => parseMultipartBody readers (request.headerValues "content-type") request.body

section Bodies

variable {readers : PayloadReaders} {route : AdvancedRoute} {request : HTTPRequest}
  {place : ChunkCarrier} {profile : AdvancedBodyProfile} {contentType : Text}
  {payload : CanonicalAdvancedPayload}

theorem parseBody_structured (ofRequest : scanned.request = request)
    (isProfile : place.profile = some profile)
    (chosenProfile : bodyProfile readers.unicode route.decoder
      (request.headerValues "content-type") = .ok (profile, contentType)) :
    parseBody readers route scanned = .ok payload ↔
      hasMetadata scanned.headers = false ∧
        parseStructured readers request place = .ok payload := by
  have structured : ¬ (profile = .raw ∨ profile = .text) := by
    cases place <;> cases isProfile <;> decide
  unfold parseBody
  rw [ofRequest, bind_of_ok chosenProfile]
  simp only [if_neg structured]
  cases hasMetadata scanned.headers with
  | true =>
    simp only [if_true, Bool.true_eq_false, false_and, iff_false]
    exact nofun
  | false =>
    simp only [Bool.false_eq_true, if_false, true_and]
    cases place <;> cases isProfile <;> exact Iff.rfl

theorem parseStructured_reads (isBody : place.profile.isSome = true)
    (parsed : parseStructured readers request place = .ok payload) :
    ∃ fields, fieldsIn readers request place = .ok fields := by
  cases place with
  | headers | query => cases isBody
  | json =>
    obtain ⟨value, loaded, parsed⟩ := bind_eq_ok.mp parsed
    unfold fieldsIn
    rw [bind_of_ok loaded]
    cases value with
    | object members => exact ⟨members, rfl⟩
    | _ => cases parsed
  | form =>
    unfold parseStructured parseFormBody at parsed
    unfold fieldsIn
    cases decoded : decode request.body with
    | none =>
      rw [decoded] at parsed
      cases parsed
    | some raw =>
      rw [decoded] at parsed
      obtain ⟨pairs, isPairs, _⟩ := bind_eq_ok.mp parsed
      dsimp only
      rw [isPairs]
      exact ⟨_, rfl⟩
  | multipart =>
    unfold parseStructured parseMultipartBody at parsed
    dsimp only at parsed
    split at parsed
    · cases parsed
    · cases parsed
    rename_i parts isParts
    obtain ⟨members, isMembers, _⟩ := bind_eq_ok.mp parsed
    unfold fieldsIn
    rw [isParts]
    exact ⟨members, isMembers⟩

theorem parseStructured_iff (isBody : place.profile.isSome = true) {fields : List (Str × Value)}
    (isRead : fieldsIn readers request place = .ok fields)
    (isData : hasPayload (memberOccurrences fields) = true) :
    parseStructured readers request place = .ok payload ↔
      holdsFiles readers request place = false ∧
        buildPayload place.source (memberOccurrences fields) = .ok payload := by
  cases place with
  | headers | query => cases isBody
  | json =>
    obtain ⟨value, loaded, isRead⟩ := bind_eq_ok.mp isRead
    unfold parseStructured parseJsonBody holdsFiles
    rw [bind_of_ok loaded]
    cases value with
    | object members =>
      cases isRead
      exact (and_iff_right rfl).symm
    | _ => cases isRead
  | form =>
    unfold fieldsIn at isRead
    unfold parseStructured parseFormBody holdsFiles
    cases decoded : decode request.body with
    | none =>
      rw [decoded] at isRead
      cases isRead
    | some raw =>
      rw [decoded] at isRead
      obtain ⟨pairs, isPairs, rfl⟩ := exists_of_map_eq_ok isRead
      dsimp only
      rw [bind_of_ok isPairs]
      exact (and_iff_right rfl).symm
  | multipart =>
    unfold fieldsIn at isRead
    dsimp only at isRead
    unfold parseStructured parseMultipartBody holdsFiles
    split at isRead
    · cases isRead
    · cases isRead
    rename_i parts isParts
    rw [isParts]
    dsimp only
    rw [bind_of_ok isRead]
    unfold buildMultipart
    split
    · case _ noFiles =>
        have none_ : parts.any (fun part => part.filename.isSome) = false := by
          rw [any_eq_false]
          exact filter_eq_nil_iff.mp noFiles
        rw [none_, and_iff_right rfl]
        rfl
    · case _ file oneFile =>
        have some_ : parts.any (fun part => part.filename.isSome) = true := by
          rw [any_eq_true]
          have member : file ∈ parts.filter fun part => part.filename.isSome := by
            rw [oneFile]
            exact mem_singleton_self file
          exact ⟨file, mem_filter.mp member⟩
        rw [some_, if_pos isData]
        exact ⟨nofun, fun both => absurd both.1 nofun⟩
    · case _ file other more files =>
        have some_ : parts.any (fun part => part.filename.isSome) = true := by
          rw [any_eq_true]
          have member : file ∈ parts.filter fun part => part.filename.isSome := by
            rw [files]
            exact mem_cons_self
          exact ⟨file, mem_filter.mp member⟩
        rw [some_]
        exact ⟨nofun, fun both => absurd both.1 nofun⟩

end Bodies

end XFerry.AdvancedPayload
