/-
The payload of a request comes from one carrier.

What the scans make of a request is known by the names and values of its fields alone,
and so is the payload: the numbers and the spellings of the occurrences tell only where
a fault is.
-/

import XFerry.Advanced.PayloadParser
import XFerry.Ensures

namespace XFerry.AdvancedPayload

open Python Http Json List FieldOccurrence Ensures

/-! ### Occurrences by name and value -/

namespace FieldOccurrence

def plain (occurrence : FieldOccurrence) : FieldOccurrence :=
  { occurrence with wireOrder := 0, displayName := [] }

@[simp] theorem plain_name (occurrence : FieldOccurrence) :
    occurrence.plain.name = occurrence.name := rfl

end FieldOccurrence

def bareOccurrence (content : Str × Value) : FieldOccurrence :=
  { name := content.1, value := content.2, wireOrder := 0, displayName := [] }

def contentOf {α : Type} (classify : α → Classified) (item : α) : Option (Str × Value) :=
  match classify item with
  | .ok (some (name, value, _)) => some (name, value)
  | _ => none

def InWireOrder (occurrences : List FieldOccurrence) : Prop :=
  occurrences.Pairwise fun left right => left.wireOrder ≤ right.wireOrder

/-- A scan that succeeds has classified every item and kept the order. -/
structure Scanned {α : Type} (classify : α → Classified) (items : List α)
    (occurrences : List FieldOccurrence) : Prop where
  contents : occurrences.map plain = (items.filterMap (contentOf classify)).map bareOccurrence
  inOrder : InWireOrder occurrences
  classified : ∀ item ∈ items, ∃ content, classify item = .ok content

theorem mapM_zipIdx_scanned {α : Type} {classify : α → Classified} {items : List α} {first : Nat}
    {scanned : List (Option FieldOccurrence)}
    (isScan : ((items.zipIdx first).mapM fun item => (classify item.1).map fun classified =>
      classified.map fun (name, value, displayName) =>
        ({ name := name, value := value, wireOrder := item.2, displayName := displayName } :
          FieldOccurrence)) = .ok scanned) :
    Scanned classify items scanned.reduceOption ∧
      ∀ occurrence ∈ scanned.reduceOption, first ≤ occurrence.wireOrder := by
  induction items generalizing first scanned with
  | nil =>
    cases isScan
    refine ⟨⟨rfl, List.Pairwise.nil, ?_⟩, ?_⟩
    · exact fun item member => absurd member not_mem_nil
    · exact fun occurrence member => absurd member not_mem_nil
  | cons item rest ih =>
    rw [zipIdx_cons, mapM_cons] at isScan
    cases head : classify item with
    | error fault =>
      rw [head] at isScan
      cases isScan
    | ok content =>
      rw [head] at isScan
      cases tail : (rest.zipIdx (first + 1)).mapM fun item =>
          (classify item.1).map fun classified =>
            classified.map fun (name, value, displayName) =>
              ({ name := name, value := value, wireOrder := item.2
                 displayName := displayName } : FieldOccurrence) with
      | error fault =>
        simp only [tail] at isScan
        cases isScan
      | ok others =>
        simp only [tail] at isScan
        obtain ⟨⟨contents, inOrder, classified⟩, later⟩ := ih tail
        have every : ∀ other ∈ item :: rest, ∃ content, classify other = .ok content :=
          forall_mem_cons.mpr ⟨⟨content, head⟩, classified⟩
        cases content with
        | none =>
          cases isScan
          have skipped : contentOf classify item = none := by
            unfold contentOf
            rw [head]
          refine ⟨⟨?_, inOrder, every⟩, ?_⟩
          · rw [filterMap_cons_none skipped]
            exact contents
          · intro occurrence member
            have behind := later occurrence member
            omega
        | some found =>
          obtain ⟨name, value, displayName⟩ := found
          cases isScan
          have taken : contentOf classify item = some (name, value) := by
            unfold contentOf
            rw [head]
          refine ⟨⟨?_, ?_, every⟩, ?_⟩
          · rw [filterMap_cons_some taken, map_cons, ← contents]
            rfl
          · refine List.Pairwise.cons ?_ inOrder
            intro occurrence member
            have behind := later occurrence member
            change first ≤ occurrence.wireOrder
            omega
          · intro occurrence member
            rcases mem_cons.mp member with rfl | rest
            · exact Nat.le_refl _
            · have behind := later occurrence rest
              omega

variable {occurrences : List FieldOccurrence}

theorem scanOccurrences_scanned {α : Type} {classify : α → Classified} {items : List α}
    (scanned : scanOccurrences classify items = .ok occurrences) :
    Scanned classify items occurrences := by
  obtain ⟨found, isScan, same⟩ := bind_eq_ok.mp scanned
  cases same
  exact (mapM_zipIdx_scanned isScan).1

/-! ### Payloads by names and values -/

namespace CollectedFields

def plain (collected : CollectedFields) : CollectedFields :=
  { values := fun field => (collected.values field).map FieldOccurrence.plain
    chunks := collected.chunks.map fun chunk => (chunk.1, chunk.2.plain) }

end CollectedFields

variable {allowChunks : Bool} {collected next : CollectedFields} {occurrence : FieldOccurrence}

theorem collectField_plain (taken : collectField allowChunks collected occurrence = .ok next) :
    collectField allowChunks collected.plain occurrence.plain = .ok next.plain := by
  unfold collectField at taken ⊢
  rw [plain_name]
  cases named : fieldNamed occurrence.name with
  | some field =>
    simp only [named] at taken ⊢
    change (if ((collected.values field).map FieldOccurrence.plain).isSome = true then _ else _) = _
    rw [Option.isSome_map]
    split at taken
    · cases taken
    rename_i absent
    cases taken
    rw [if_neg absent]
    simp only [CollectedFields.plain, Except.ok.injEq, CollectedFields.mk.injEq, and_true]
    funext other
    split <;> rfl
  | none =>
    simp only [named] at taken ⊢
    rw [bind_eq_ok] at taken ⊢
    obtain ⟨index, isChunk, taken⟩ := taken
    refine ⟨index, isChunk, ?_⟩
    cases index with
    | none => cases taken
    | some index =>
      simp only at taken ⊢
      split at taken
      · cases taken
      rename_i allowed
      cases taken
      rw [if_neg allowed]
      simp [CollectedFields.plain]

theorem foldlM_collectField_plain
    (taken : occurrences.foldlM (collectField allowChunks) collected = .ok next) :
    (occurrences.map plain).foldlM (collectField allowChunks) collected.plain =
      .ok next.plain := by
  induction occurrences generalizing collected with
  | nil =>
    cases taken
    rfl
  | cons occurrence rest ih =>
    rw [foldlM_cons, bind_eq_ok] at taken
    obtain ⟨middle, first, others⟩ := taken
    rw [map_cons, foldlM_cons, bind_of_ok (collectField_plain first)]
    exact ih others

theorem collectField_inOrder (taken : collectField allowChunks collected occurrence = .ok next) :
    List.Sublist (next.chunks.map Prod.snd) (collected.chunks.map Prod.snd ++ [occurrence]) := by
  unfold collectField at taken
  split at taken
  · split at taken
    · cases taken
    · cases taken
      exact sublist_append_left _ _
  · obtain ⟨index, _, taken⟩ := bind_eq_ok.mp taken
    cases index with
    | none => cases taken
    | some index =>
      simp only at taken
      split at taken
      · cases taken
      · cases taken
        rw [map_append]
        exact List.Sublist.refl _

theorem foldlM_collectField_inOrder
    (taken : occurrences.foldlM (collectField allowChunks) collected = .ok next) :
    List.Sublist (next.chunks.map Prod.snd) (collected.chunks.map Prod.snd ++ occurrences) := by
  induction occurrences generalizing collected with
  | nil =>
    cases taken
    rw [append_nil]
  | cons occurrence rest ih =>
    rw [foldlM_cons, bind_eq_ok] at taken
    obtain ⟨middle, first, others⟩ := taken
    refine (ih others).trans ?_
    rw [append_cons]
    exact (collectField_inOrder first).append_right rest

def ChunksInOrder (collected : CollectedFields) : Prop :=
  InWireOrder (collected.chunks.map Prod.snd)

theorem sortedChunks_of_inOrder {chunks : List (Nat × FieldOccurrence)}
    (inOrder : InWireOrder (chunks.map Prod.snd)) : sortedChunks chunks = chunks := by
  refine mergeSort_of_pairwise ?_
  have pairs := pairwise_map.mp inOrder
  exact pairs.imp fun before => decide_eq_true before

theorem plain_inOrder (collected : CollectedFields) : ChunksInOrder collected.plain := by
  unfold ChunksInOrder InWireOrder CollectedFields.plain
  rw [map_map]
  refine pairwise_map.mpr ?_
  exact pairwise_of_forall fun _ _ => Nat.le_refl 0

theorem fieldAsString_plain (occurrence : FieldOccurrence) :
    fieldAsString occurrence.plain = fieldAsString occurrence := rfl

theorem checkChunks_plain (expected : Nat) (chunks : List (Nat × FieldOccurrence)) :
    checkChunks expected (chunks.map fun chunk => (chunk.1, chunk.2.plain)) =
      checkChunks expected chunks := by
  induction chunks generalizing expected with
  | nil => rfl
  | cons chunk rest ih =>
    simp only [map_cons, checkChunks, fieldAsString_plain, ih]

/-! ### Fields that are read by name and value -/

section PlainFields

variable {collected : CollectedFields}

theorem values_plain (field : FieldName) :
    collected.plain.values field = (collected.values field).map FieldOccurrence.plain := rfl

theorem chunks_plain :
    collected.plain.chunks = collected.chunks.map fun chunk => (chunk.1, chunk.2.plain) := rfl

theorem optionalField_plain (field : FieldName) :
    optionalField collected.plain field = optionalField collected field := by
  unfold optionalField
  rw [values_plain]
  cases collected.values field with
  | none | some => rfl

theorem encodedDataOf_plain (source : PayloadSource) (chunks : List (Nat × FieldOccurrence)) :
    encodedDataOf source collected.plain (chunks.map fun chunk => (chunk.1, chunk.2.plain)) =
      encodedDataOf source collected chunks := by
  unfold encodedDataOf
  rw [values_plain]
  cases source.encodedOverride with
  | some encoded => rfl
  | none =>
    cases collected.values .data with
    | some occurrence => rfl
    | none =>
      simp only [Option.map_none, map_eq_nil_iff, mapM_map]
      rfl

theorem encodingOf_plain (source : PayloadSource) :
    encodingOf source collected.plain = encodingOf source collected := by
  unfold encodingOf
  rw [values_plain]
  cases source.rawData with
  | some | none =>
    cases collected.values .encoding with
    | none | some => rfl

theorem encryptionOf_plain : encryptionOf collected.plain = encryptionOf collected := by
  unfold encryptionOf
  rw [values_plain]
  cases collected.values .encryption with
  | none | some => rfl

theorem keyIsBase64Of_plain (jsonTypes : Bool) (key : Option Str) :
    keyIsBase64Of collected.plain jsonTypes key = keyIsBase64Of collected jsonTypes key := by
  unfold keyIsBase64Of
  rw [values_plain]
  cases collected.values .keyIsBase64 with
  | none | some => rfl

theorem settleFields_plain (source : PayloadSource) (inOrder : ChunksInOrder collected) :
    settleFields source collected.plain = settleFields source collected := by
  have isData : (collected.plain.values .data).isSome = (collected.values .data).isSome :=
    Option.isSome_map
  have sorted := sortedChunks_of_inOrder (plain_inOrder collected)
  rw [chunks_plain] at sorted
  unfold settleFields settleMetadata keyOf hmacOf methodOverrideOf
  simp only [isData, ne_eq, chunks_plain, map_eq_nil_iff, sortedChunks_of_inOrder inOrder,
    sorted, checkChunks_plain, encodedDataOf_plain, encodingOf_plain, encryptionOf_plain,
    optionalField_plain, keyIsBase64Of_plain]

theorem declaredName_plain (source : PayloadSource) :
    declaredName source collected.plain = declaredName source collected := by
  unfold declaredName
  rw [optionalField_plain]

end PlainFields

variable {source : PayloadSource} {payload : CanonicalAdvancedPayload}

theorem buildPayload_plain (inOrder : InWireOrder occurrences)
    (built : buildPayload source occurrences = .ok payload) :
    buildPayload source (occurrences.map plain) = .ok payload := by
  unfold buildPayload at built ⊢
  obtain ⟨collected, taken, built⟩ := bind_eq_ok.mp built
  have chunksInOrder : ChunksInOrder collected := by
    have chunks := foldlM_collectField_inOrder taken
    exact List.Pairwise.sublist chunks inOrder
  have plainTaken : (occurrences.map FieldOccurrence.plain).foldlM
      (collectField source.allowChunks) .empty = .ok collected.plain :=
    foldlM_collectField_plain taken
  rw [bind_of_ok plainTaken, settleFields_plain source chunksInOrder, declaredName_plain]
  exact built

theorem buildPayload_carrier :
    Ensures (buildPayload source occurrences) fun payload => payload.carrier = source.carrier := by
  refine .andThen fun collected => .andThen fun settled => .andThen fun name => .andThen fun _ => ?_
  exact .ok rfl

def isRecognised (name : Str) : Bool := (fieldNamed name).isSome || (chunkDigits name).isSome

theorem validateChunkName_recognised {name : Str} {index : Nat}
    (isChunk : validateChunkName name = .ok (some index)) : (chunkDigits name).isSome = true := by
  unfold validateChunkName at isChunk
  cases digits : chunkDigits name with
  | none =>
    rw [digits] at isChunk
    cases isChunk
  | some digits => rfl

theorem collectField_recognised (taken : collectField allowChunks collected occurrence = .ok next) :
    isRecognised occurrence.name = true := by
  unfold collectField at taken
  unfold isRecognised
  cases named : fieldNamed occurrence.name with
  | some field => rfl
  | none =>
    simp only [named] at taken
    obtain ⟨index, isChunk, taken⟩ := bind_eq_ok.mp taken
    cases index with
    | none => cases taken
    | some index => exact validateChunkName_recognised isChunk

theorem foldlM_collectField_recognised
    (taken : occurrences.foldlM (collectField allowChunks) collected = .ok next) :
    ∀ occurrence ∈ occurrences, isRecognised occurrence.name = true := by
  induction occurrences generalizing collected with
  | nil => exact fun occurrence member => absurd member not_mem_nil
  | cons occurrence rest ih =>
    obtain ⟨middle, first, others⟩ := bind_eq_ok.mp taken
    exact forall_mem_cons.mpr ⟨collectField_recognised first, ih others⟩

theorem buildPayload_recognised (built : buildPayload source occurrences = .ok payload) :
    ∀ occurrence ∈ occurrences, isRecognised occurrence.name = true := by
  obtain ⟨collected, taken, _⟩ := bind_eq_ok.mp built
  exact foldlM_collectField_recognised taken

/-! ### What each carrier holds -/

def headerFieldsOf (request : HTTPRequest) : List (Str × Str) :=
  request.fields.reverse.filterMap fun field =>
    (advancedHeaderName field.name).map fun name => (name, str field.value)

def queryFieldsOf (request : HTTPRequest) : List (Str × Str) :=
  match parseQueryPairs request.requestLine.queryString with
  | .ok pairs =>
    (pairs.map fun pair => (str pair.1, str pair.2)).filter fun pair => isRecognised pair.1
  | .error _ => []

def cookieFieldsOf (unicode : Unicode) (request : HTTPRequest) : List (Str × Str) :=
  match cookiePairs unicode request with
  | .ok pairs =>
    pairs.filterMap fun pair => (cookieField pair.1).map fun field => (field.code, str pair.2)
  | .error _ => []

def carries (fields : List (Str × Str)) (isOfKind : Str → Bool) : Prop :=
  ∃ field ∈ fields, isOfKind field.1 = true

def Present (readers : PayloadReaders) (route : AdvancedRoute) (request : HTTPRequest) :
    AdvancedCarrier → Prop
  | .body => request.body ≠ []
  | .headers => carries (headerFieldsOf request) isDataName
  | .query => carries (queryFieldsOf request) isDataName
  | .cookies => carries (cookieFieldsOf readers.unicode request) isDataName
  | .path => isPathCandidate route.routePrefix request.requestLine.rawPath = true

def HasMetadataIn (readers : PayloadReaders) (request : HTTPRequest) : AdvancedCarrier → Prop
  | .headers => carries (headerFieldsOf request) isMetadataName
  | .query => carries (queryFieldsOf request) isMetadataName
  | .cookies => carries (cookieFieldsOf readers.unicode request) isMetadataName
  | .body | .path => False

/-- Bodies of the raw and the text profile, whose metadata stand in the headers. -/
def TakesHeaders (readers : PayloadReaders) (route : AdvancedRoute)
  (request : HTTPRequest) : Prop :=
  ∃ profile contentType,
    bodyProfile readers.unicode route.decoder (request.headerValues "content-type") =
      .ok (profile, contentType) ∧
    (profile = .raw ∨ profile = .text)

def OwnMetadata (readers : PayloadReaders) (route : AdvancedRoute) (request : HTTPRequest)
    (selected : AdvancedCarrier) : AdvancedCarrier → Prop
  | .headers => selected = .headers ∨ selected = .body ∧ TakesHeaders readers route request
  | .query => selected = .query ∨ selected = .path
  | .cookies => selected = .cookies
  | .body => selected = .body
  | .path => selected = .path

def AgreeOn (readers : PayloadReaders) (route : AdvancedRoute) (request other : HTTPRequest) :
    AdvancedCarrier → Prop
  | .headers => headerFieldsOf request = headerFieldsOf other
  | .query => queryFieldsOf request = queryFieldsOf other
  | .cookies => cookieFieldsOf readers.unicode request = cookieFieldsOf readers.unicode other
  | .path =>
    request.requestLine.rawPath = other.requestLine.rawPath ∧
      queryFieldsOf request = queryFieldsOf other
  | .body =>
    request.body = other.body ∧
      request.headerValues "content-type" = other.headerValues "content-type" ∧
      (TakesHeaders readers route request → headerFieldsOf request = headerFieldsOf other)

/-! ### The scans of a request -/

def bareOccurrences (fields : List (Str × Str)) : List FieldOccurrence :=
  fields.map fun field => bareOccurrence (field.1, .string field.2)

/-- A scan that found the fields, with nothing else that an upload would recognise. -/
structure Found (occurrences : List FieldOccurrence) (fields : List (Str × Str)) : Prop where
  contents : (occurrences.filter fun occurrence => isRecognised occurrence.name).map
    plain = bareOccurrences fields
  inOrder : InWireOrder occurrences

theorem scanned_plain {α : Type} {classify : α → Classified} {items : List α}
    (scanned : Scanned classify items occurrences)
    {content : α → Option (Str × Str)} (known : ∀ item found, classify item = .ok found →
      contentOf classify item = (content item).map fun field => (field.1, .string field.2)) :
    occurrences.map plain = bareOccurrences (items.filterMap content) := by
  rw [scanned.contents]
  have same : items.filterMap (contentOf classify) =
      items.filterMap fun item => (content item).map fun field => (field.1, .string field.2) := by
    refine filterMap_congr fun item member => ?_
    obtain ⟨found, isFound⟩ := scanned.classified item member
    exact known item found isFound
  rw [same, ← map_filterMap]
  rw [map_map]
  rfl

variable {fields : List (Str × Str)}

theorem found_of_plain (contents : occurrences.map plain = bareOccurrences fields)
    (inOrder : InWireOrder occurrences) :
    Found occurrences (fields.filter fun field => isRecognised field.1) := by
  refine ⟨?_, inOrder⟩
  have names : (occurrences.map plain).filter
      (fun occurrence => isRecognised occurrence.name) =
        (bareOccurrences fields).filter fun occurrence => isRecognised occurrence.name := by
    rw [contents]
  rw [filter_map] at names
  unfold bareOccurrences at names ⊢
  rw [filter_map] at names
  exact names

theorem fieldNamed_code (field : FieldName) : fieldNamed field.code = some field := by
  cases field <;> decide

theorem digitsAfter_append {beginning name digits : Str}
    (found : digitsAfter beginning name = some digits) (other : Str) :
    digitsAfter other (other ++ digits) = some digits := by
  unfold digitsAfter at found ⊢
  simp only at found ⊢
  split at found
  · case _ isDigits =>
      cases found
      rw [drop_left, if_pos ⟨List.isPrefixOf_iff_prefix.mpr (prefix_append _ _), isDigits.2⟩]
  · cases found

theorem advancedHeaderName_recognised {lower : Text} {name : Str}
    (isHeader : advancedHeaderName lower = some name) : isRecognised name = true := by
  unfold advancedHeaderName at isHeader
  unfold isRecognised
  split at isHeader
  · cases isHeader
    rw [fieldNamed_code]
    rfl
  obtain ⟨digits, found, rfl⟩ := Option.map_eq_some_iff.mp isHeader
  have isChunk : chunkDigits (literal "data_" ++ digits) = some digits :=
    digitsAfter_append found (literal "data_")
  rw [isChunk, Option.isSome_some, Bool.or_true]

variable {found : Option (Str × Value × Str)}

theorem contentOf_classifyHeader {field : HeaderField}
    (classified : classifyHeader field = .ok found) :
    contentOf classifyHeader field =
      ((advancedHeaderName field.name).map fun name => (name, str field.value)).map
        fun field => (field.1, .string field.2) := by
  unfold contentOf
  rw [classified]
  unfold classifyHeader at classified
  split at classified
  · cases classified
  split at classified
  · cases classified
  · cases named : advancedHeaderName field.name with
    | none =>
      simp only [named] at classified
      split at classified
      · cases classified
        rfl
      split at classified
      · cases classified
      · cases classified
        rfl
    | some name =>
      simp only [named] at classified
      obtain ⟨value, canonical, classified⟩ := bind_eq_ok.mp classified
      have same : value = field.value := by
        obtain ⟨separated, _, canonical⟩ := bind_eq_ok.mp canonical
        split at canonical
        · cases canonical
        rename_i agrees
        cases canonical
        by_contra differs
        exact agrees (.inl differs)
      split at classified
      · cases classified
      · cases classified
        rw [same]
        rfl

theorem contentOf_classifyQuery {pair : Text × Text} (classified : classifyQuery pair = .ok found) :
    contentOf classifyQuery pair = some (str pair.1, .string (str pair.2)) := by
  unfold contentOf
  rw [classified]
  unfold classifyQuery at classified
  split at classified
  · cases classified
  · cases classified
    rfl

theorem contentOf_classifyCookie {pair : Text × Text}
    (classified : classifyCookie pair = .ok found) :
    contentOf classifyCookie pair =
      ((cookieField pair.1).map fun field => (field.code, str pair.2)).map
        fun field => (field.1, .string field.2) := by
  unfold contentOf
  rw [classified]
  unfold classifyCookie at classified
  split at classified
  · cases classified
  · cases named : cookieField pair.1 with
    | some field =>
      simp only [named] at classified
      cases classified
      rfl
    | none =>
      simp only [named] at classified
      split at classified
      · cases classified
      · cases classified
        rfl

theorem cookieField_recognised (field : FieldName) : isRecognised field.code = true := by
  unfold isRecognised
  rw [fieldNamed_code]
  rfl

structure ScannedRequest.FoundAll (scanned : ScannedRequest) (unicode : Unicode)
    (request : HTTPRequest) : Prop where
  ofRequest : scanned.request = request
  headers : Found scanned.headers (headerFieldsOf request)
  query : Found scanned.query (queryFieldsOf request)
  cookies : Found scanned.cookies (cookieFieldsOf unicode request)

theorem filter_recognised (known : ∀ field ∈ fields, isRecognised field.1 = true) :
    (fields.filter fun field => isRecognised field.1) = fields :=
  filter_eq_self.mpr known

variable {request : HTTPRequest}

theorem headerScan_found (scanned : headerScan request = .ok occurrences) :
    Found occurrences (headerFieldsOf request) := by
  have isScan := scanOccurrences_scanned scanned
  have contents := scanned_plain isScan fun field found => contentOf_classifyHeader
  have known : ∀ field ∈ headerFieldsOf request, isRecognised field.1 = true := by
    intro field member
    obtain ⟨header, _, isField⟩ := mem_filterMap.mp member
    obtain ⟨name, named, rfl⟩ := Option.map_eq_some_iff.mp isField
    exact advancedHeaderName_recognised named
  have found := found_of_plain contents isScan.inOrder
  rw [← filter_recognised known]
  exact found

theorem queryScan_found (scanned : queryScan request = .ok occurrences) :
    Found occurrences (queryFieldsOf request) := by
  obtain ⟨pairs, parsed, scanned⟩ := bind_eq_ok.mp scanned
  have isScan := scanOccurrences_scanned scanned
  have contents : occurrences.map plain =
      bareOccurrences (pairs.filterMap fun pair => some (str pair.1, str pair.2)) :=
    scanned_plain isScan fun pair found => contentOf_classifyQuery
  rw [filterMap_eq_map'] at contents
  unfold queryFieldsOf
  rw [parsed]
  exact found_of_plain contents isScan.inOrder

theorem cookieScan_found {unicode : Unicode}
    (scanned : cookieScan unicode request = .ok occurrences) :
    Found occurrences (cookieFieldsOf unicode request) := by
  obtain ⟨pairs, parsed, scanned⟩ := bind_eq_ok.mp scanned
  have isScan := scanOccurrences_scanned scanned
  have contents := scanned_plain isScan fun pair found => contentOf_classifyCookie
  have same : cookieFieldsOf unicode request =
      pairs.filterMap fun pair => (cookieField pair.1).map fun field =>
        (field.code, str pair.2) := by
    unfold cookieFieldsOf
    rw [parsed]
  have known : ∀ field ∈ cookieFieldsOf unicode request, isRecognised field.1 = true := by
    rw [same]
    intro field member
    obtain ⟨pair, _, isField⟩ := mem_filterMap.mp member
    obtain ⟨cookie, named, rfl⟩ := Option.map_eq_some_iff.mp isField
    exact cookieField_recognised cookie
  have found := found_of_plain contents isScan.inOrder
  rw [← same, filter_recognised known] at found
  exact found

variable {readers : PayloadReaders} {scanned : ScannedRequest}

theorem scanRequest_found (isScan : scanRequest readers request = .ok scanned) :
    scanned.FoundAll readers.unicode request := by
  obtain ⟨headers, isHeaders, isScan⟩ := bind_eq_ok.mp isScan
  obtain ⟨query, isQuery, isScan⟩ := bind_eq_ok.mp isScan
  obtain ⟨cookies, isCookies, isScan⟩ := bind_eq_ok.mp isScan
  cases isScan
  constructor
  · rfl
  · exact headerScan_found isHeaders
  · exact queryScan_found isQuery
  · exact cookieScan_found isCookies

/-! ### Presence and metadata -/

namespace Found

variable {occurrences : List FieldOccurrence} {fields : List (Str × Str)}

theorem any_iff (found : Found occurrences fields) {kind : Str → Bool}
    (known : ∀ name, kind name = true → isRecognised name = true) :
    (occurrences.any fun occurrence => kind occurrence.name) = true ↔ carries fields kind := by
  have names : (occurrences.filter fun occurrence => isRecognised occurrence.name).map
      name = fields.map Prod.fst := by
    have contents := congrArg (map name) found.contents
    unfold bareOccurrences at contents
    rw [map_map, map_map] at contents
    exact contents
  rw [any_eq_true]
  constructor
  · rintro ⟨occurrence, member, isKind⟩
    have kept : occurrence.name ∈ fields.map Prod.fst := by
      rw [← names]
      exact mem_map_of_mem (mem_filter.mpr ⟨member, known _ isKind⟩)
    obtain ⟨field, isField, same⟩ := mem_map.mp kept
    exact ⟨field, isField, same ▸ isKind⟩
  · rintro ⟨field, member, isKind⟩
    have kept : field.1 ∈ (occurrences.filter fun occurrence =>
        isRecognised occurrence.name).map name := by
      rw [names]
      exact mem_map_of_mem member
    obtain ⟨occurrence, isOccurrence, same⟩ := mem_map.mp kept
    exact ⟨occurrence, (mem_filter.mp isOccurrence).1, same ▸ isKind⟩

theorem hasPayload_iff (found : Found occurrences fields) :
    hasPayload occurrences = true ↔ carries fields isDataName := by
  refine found.any_iff fun name isData => ?_
  rcases Bool.or_eq_true_iff.mp isData with isField | isChunk
  · rw [of_decide_eq_true isField]
    exact cookieField_recognised .data
  · exact Bool.or_eq_true_iff.mpr (.inr isChunk)

theorem hasMetadata_iff (found : Found occurrences fields) :
    hasMetadata occurrences = true ↔ carries fields isMetadataName := by
  refine found.any_iff fun name isMetadata => ?_
  unfold isMetadataName at isMetadata
  unfold isRecognised
  cases named : fieldNamed name with
  | none =>
    rw [named] at isMetadata
    cases isMetadata
  | some field => rfl

theorem built (found : Found occurrences fields)
    (isBuilt : buildPayload source occurrences = .ok payload) :
    buildPayload source (bareOccurrences fields) = .ok payload := by
  have all := filter_eq_self.mpr (buildPayload_recognised isBuilt)
  rw [← found.contents, all]
  exact buildPayload_plain found.inOrder isBuilt

end Found

/-! ### The payload of the selected carrier -/

theorem metadataHeaders_plain (occurrences : List FieldOccurrence) :
    (metadataHeaders occurrences).map plain =
      metadataHeaders (occurrences.map plain) := by
  unfold metadataHeaders
  rw [filter_map]
  rfl

theorem Found.metadataBuilt (found : Found occurrences fields)
    (isBuilt : buildPayload source (metadataHeaders occurrences) = .ok payload) :
    buildPayload source (metadataHeaders (bareOccurrences fields)) = .ok payload := by
  have all := filter_eq_self.mpr (buildPayload_recognised isBuilt)
  have swapped : (metadataHeaders occurrences).filter
      (fun occurrence => isRecognised occurrence.name) =
        metadataHeaders (occurrences.filter fun occurrence => isRecognised occurrence.name) :=
    filter_comm _ _ _
  rw [← found.contents, ← metadataHeaders_plain, ← swapped, all]
  exact buildPayload_plain (found.inOrder.sublist filter_sublist) isBuilt

theorem pathMetadata_same {occurrences metadata : List FieldOccurrence}
    (taken : pathMetadata occurrences = .ok metadata) : metadata = occurrences := by
  unfold pathMetadata at taken
  induction occurrences generalizing metadata with
  | nil =>
    cases taken
    rfl
  | cons occurrence rest ih =>
    rw [mapM_cons] at taken
    obtain ⟨first, isFirst, taken⟩ := bind_eq_ok.mp taken
    obtain ⟨others, isRest, taken⟩ := bind_eq_ok.mp taken
    cases taken
    rw [ih isRest]
    split at isFirst
    · cases isFirst
    split at isFirst
    · cases isFirst
    · cases isFirst
      rfl

variable {routePrefix : Option Text}

theorem parseReservedPathCarrier_ok {rawPath : Text}
    (parsed : parseReservedPathCarrier routePrefix rawPath occurrences = .ok payload) :
    ∃ reserved rawName encodedData name, payloadPath routePrefix = some reserved ∧
      (rawPath.drop reserved.length).splitOn '/' = [[], rawName, encodedData] ∧
      strictPercentDecodeText rawName false = .ok name ∧
      buildPayload (pathSource name encodedData) occurrences = .ok payload := by
  unfold parseReservedPathCarrier at parsed
  split at parsed
  · cases parsed
  rename_i reserved isReserved
  split at parsed
  · case _ rawName encodedData parts =>
      split at parsed
      · cases parsed
      obtain ⟨name, decoded, parsed⟩ := bind_eq_ok.mp parsed
      split at parsed
      · cases parsed
      split at parsed
      · cases parsed
      obtain ⟨metadata, taken, parsed⟩ := bind_eq_ok.mp parsed
      rw [pathMetadata_same taken] at parsed
      exact ⟨reserved, rawName, encodedData, name, isReserved, parts, decoded, parsed⟩
  · cases parsed

theorem parseReservedPathCarrier_agrees {rawPath : Text}
    {left right : List FieldOccurrence} (isLeft : Found left fields) (isRight : Found right fields)
    {payload other : CanonicalAdvancedPayload}
    (parsed : parseReservedPathCarrier routePrefix rawPath left = .ok payload)
    (otherParsed : parseReservedPathCarrier routePrefix rawPath right = .ok other) :
    other = payload := by
  obtain ⟨reserved, rawName, data, name, isReserved, parts, decoded, built⟩ :=
    parseReservedPathCarrier_ok parsed
  obtain ⟨_, _, _, _, sameReserved, sameParts, sameDecoded, otherBuilt⟩ :=
    parseReservedPathCarrier_ok otherParsed
  cases isReserved.symm.trans sameReserved
  cases parts.symm.trans sameParts
  cases decoded.symm.trans sameDecoded
  exact Except.ok.inj ((isRight.built otherBuilt).symm.trans (isLeft.built built))

variable {route : AdvancedRoute}

theorem parseBody_metadata (parsed : parseBody readers route scanned = .ok payload)
    (isMetadata : hasMetadata scanned.headers = true) :
    TakesHeaders readers route scanned.request := by
  obtain ⟨⟨profile, contentType⟩, isProfile, parsed⟩ := bind_eq_ok.mp parsed
  refine ⟨profile, contentType, isProfile, ?_⟩
  by_contra structured
  simp only [if_neg structured, if_pos isMetadata] at parsed
  cases parsed

theorem wholeBody_built {headers : List FieldOccurrence}
    (found : Found headers fields) {contentType : Text} {body : Bytes}
    {profile : AdvancedBodyProfile} (whole : profile = .raw ∨ profile = .text)
    (parsed : (if hasMetadata scanned.query = true then invalidField (literal "query")
      else if hasMetadata scanned.cookies = true then invalidField (literal "cookie")
      else if profile = .raw then parseRawBody contentType headers body
      else parseTextBody contentType headers body) = .ok payload) :
    buildPayload (wholeBodySource profile contentType body)
      (metadataHeaders (bareOccurrences fields)) = .ok payload := by
  split at parsed
  · cases parsed
  split at parsed
  · cases parsed
  split at parsed
  · case _ isRaw =>
      rw [isRaw]
      exact found.metadataBuilt parsed
  rename_i notRaw
  rw [whole.resolve_left notRaw]
  unfold parseTextBody at parsed
  split at parsed
  · cases parsed
  · exact found.metadataBuilt parsed

variable {request other : HTTPRequest} {left right : ScannedRequest}
  {payload otherPayload : CanonicalAdvancedPayload}

theorem parseBody_agrees (isLeft : left.FoundAll readers.unicode request)
    (isRight : right.FoundAll readers.unicode other)
    (agrees : AgreeOn readers route request other .body)
    (parsed : parseBody readers route left = .ok payload)
    (otherParsed : parseBody readers route right = .ok otherPayload) :
    otherPayload = payload := by
  obtain ⟨sameBody, sameType, sameHeaders⟩ := agrees
  unfold parseBody at parsed otherParsed
  rw [isLeft.ofRequest] at parsed
  rw [isRight.ofRequest, ← sameType, ← sameBody] at otherParsed
  obtain ⟨⟨profile, contentType⟩, isProfile, parsed⟩ := bind_eq_ok.mp parsed
  rw [bind_of_ok isProfile] at otherParsed
  by_cases whole : profile = .raw ∨ profile = .text
  · simp only [if_pos whole] at parsed otherParsed
    have found := isRight.headers
    rw [← sameHeaders ⟨profile, contentType, isProfile, whole⟩] at found
    have built := wholeBody_built isLeft.headers whole parsed
    have otherBuilt := wholeBody_built found whole otherParsed
    exact Except.ok.inj (otherBuilt.symm.trans built)
  · simp only [if_neg whole] at parsed otherParsed
    split at parsed
    · cases parsed
    split at otherParsed
    · cases otherParsed
    · exact Except.ok.inj (otherParsed.symm.trans parsed)

variable {selected : AdvancedCarrier}

theorem parseSelected_agrees (isLeft : left.FoundAll readers.unicode request)
    (isRight : right.FoundAll readers.unicode other)
    (agrees : AgreeOn readers route request other selected)
    (parsed : parseSelected readers route left selected = .ok payload)
    (otherParsed : parseSelected readers route right selected = .ok otherPayload) :
    otherPayload = payload := by
  cases selected with
  | headers =>
    have found := isRight.headers
    rw [← show headerFieldsOf request = headerFieldsOf other from agrees] at found
    exact Except.ok.inj ((found.built otherParsed).symm.trans (isLeft.headers.built parsed))
  | query =>
    have found := isRight.query
    rw [← show queryFieldsOf request = queryFieldsOf other from agrees] at found
    exact Except.ok.inj ((found.built otherParsed).symm.trans (isLeft.query.built parsed))
  | cookies =>
    have found := isRight.cookies
    rw [← show cookieFieldsOf readers.unicode request = cookieFieldsOf readers.unicode other from
      agrees] at found
    exact Except.ok.inj ((found.built otherParsed).symm.trans (isLeft.cookies.built parsed))
  | path =>
    obtain ⟨samePath, sameQuery⟩ := agrees
    have found := isRight.query
    rw [← sameQuery] at found
    unfold parseSelected at parsed otherParsed
    rw [isLeft.ofRequest] at parsed
    rw [isRight.ofRequest, ← samePath] at otherParsed
    exact parseReservedPathCarrier_agrees isLeft.query found parsed otherParsed
  | body => exact parseBody_agrees isLeft isRight agrees parsed otherParsed

theorem parseBody_built {post : CanonicalAdvancedPayload → Prop}
    (built : ∀ source occurrences, source.carrier = .body →
      Ensures (buildPayload source occurrences) post) :
    Ensures (parseBody readers route scanned) post := by
  unfold parseBody parseRawBody parseTextBody
  refine .andThen fun (profile, contentType) => ?_
  refine .ite (fun whole => .ite (fun _ => .error _) fun _ => .ite (fun _ => .error _) fun _ =>
    .ite (fun _ => built _ _ rfl) fun _ => ?_) fun structured => .ite (fun _ => .error _)
    fun _ => ?_
  · split
    · exact .error _
    · exact built _ _ rfl
  · split
    · refine .andThen fun value => ?_
      split
      · exact built _ _ rfl
      · exact .error _
    · unfold parseFormBody
      split
      · exact .error _
      · exact .andThen fun pairs => built _ _ rfl
    · unfold parseXmlBody
      split
      · exact .error _
      · exact .error _
      · exact .ite (fun _ => .error _) fun _ => .andThen fun members => built _ _ rfl
    · unfold parseMultipartBody
      split
      · exact .error _
      · exact .error _
      · refine .andThen fun members => ?_
        unfold buildMultipart
        split
        · exact built _ _ rfl
        · exact .ite (fun _ => .error _) fun _ => .ite (fun _ => .error _) fun _ =>
            .ite (fun _ => .error _) fun _ => built _ _ rfl
        · exact .error _

theorem parseSelected_carrier (selected : AdvancedCarrier) :
    Ensures (parseSelected readers route scanned selected) fun payload =>
      payload.carrier = selected := by
  cases selected with
  | headers | query | cookies => exact buildPayload_carrier
  | path =>
    intro payload parsed
    obtain ⟨reserved, rawName, data, name, isReserved, parts, decoded, built⟩ :=
      parseReservedPathCarrier_ok parsed
    exact buildPayload_carrier payload built
  | body =>
    refine parseBody_built fun source occurrences isBody => ?_
    rw [← isBody]
    exact buildPayload_carrier

structure Acceptance (readers : PayloadReaders) (route : AdvancedRoute) (request : HTTPRequest)
    (payload : CanonicalAdvancedPayload) (scanned : ScannedRequest) : Prop where
  found : scanned.FoundAll readers.unicode request
  selected : scanned.select route = .ok payload.carrier
  metadata : scanned.checkMetadata payload.carrier = .ok ()
  parsed : parseSelected readers route scanned payload.carrier = .ok payload

theorem acceptance {limits : AdvancedLimits}
    (accepted : parseAdvancedPayload readers route limits request = .ok payload) :
    ∃ scanned, Acceptance readers route request payload scanned := by
  obtain ⟨scanned, isScan, accepted⟩ := bind_eq_ok.mp accepted
  obtain ⟨selected, isSelected, accepted⟩ := bind_eq_ok.mp accepted
  obtain ⟨_, metadata, accepted⟩ := bind_eq_ok.mp accepted
  obtain ⟨found, parsed, accepted⟩ := bind_eq_ok.mp accepted
  obtain ⟨_, _, accepted⟩ := bind_eq_ok.mp accepted
  cases accepted
  cases parseSelected_carrier selected payload parsed
  exact ⟨scanned, scanRequest_found isScan, isSelected, metadata, parsed⟩

theorem ScannedRequest.FoundAll.isPresent_iff (found : scanned.FoundAll readers.unicode request)
    (route : AdvancedRoute) (carrier : AdvancedCarrier) :
    scanned.isPresent route carrier = true ↔ Present readers route request carrier := by
  cases carrier with
  | body =>
    unfold ScannedRequest.isPresent Present
    rw [found.ofRequest, Bool.not_eq_true', isEmpty_eq_false_iff]
  | headers => exact found.headers.hasPayload_iff
  | query => exact found.query.hasPayload_iff
  | cookies => exact found.cookies.hasPayload_iff
  | path =>
    unfold ScannedRequest.isPresent Present
    rw [found.ofRequest]

theorem select_only (isSelected : scanned.select route = .ok selected) (carrier : AdvancedCarrier) :
    scanned.isPresent route carrier = true ↔ carrier = selected := by
  have only : scanned.present route = [selected] := by
    unfold ScannedRequest.select at isSelected
    split at isSelected
    · cases isSelected
    · case _ other isOther =>
        cases isSelected
        exact isOther
    · cases isSelected
  have listed : carrier ∈ [AdvancedCarrier.body, .headers, .query, .cookies, .path] := by
    cases carrier <;> decide
  rw [← mem_singleton (a := carrier), ← only]
  unfold ScannedRequest.present
  rw [mem_filter, and_iff_right listed]

theorem Acceptance.only
    (accepted : Acceptance readers route request payload scanned) (carrier : AdvancedCarrier) :
    Present readers route request carrier ↔ carrier = payload.carrier := by
  rw [← accepted.found.isPresent_iff]
  exact select_only accepted.selected carrier

variable {carrier : AdvancedCarrier}

theorem Acceptance.ownMetadata (accepted : Acceptance readers route request payload scanned)
    (isMetadata : HasMetadataIn readers request carrier) :
    OwnMetadata readers route request payload.carrier carrier := by
  have checked := accepted.metadata
  unfold ScannedRequest.checkMetadata at checked
  by_contra foreign
  cases carrier with
  | headers =>
    have present := accepted.found.headers.hasMetadata_iff.mpr isMetadata
    have notHeaders : payload.carrier ≠ .headers := fun same => foreign (.inl same)
    have notBody : payload.carrier ≠ .body := by
      intro isBody
      have parsed := accepted.parsed
      rw [isBody] at parsed
      have takes := parseBody_metadata parsed present
      rw [accepted.found.ofRequest] at takes
      exact foreign (.inr ⟨isBody, takes⟩)
    rw [if_pos (⟨⟨notHeaders, notBody⟩, present⟩ : (_ ∧ _) ∧ _)] at checked
    split at checked
    · cases checked
    split at checked
    · cases checked
    · cases checked
  | query =>
    have present := accepted.found.query.hasMetadata_iff.mpr isMetadata
    have notQuery : payload.carrier ≠ .query := fun same => foreign (.inl same)
    have notPath : payload.carrier ≠ .path := fun same => foreign (.inr same)
    rw [if_pos (⟨⟨notQuery, notPath⟩, present⟩ : (_ ∧ _) ∧ _)] at checked
    cases checked
  | cookies =>
    have present := accepted.found.cookies.hasMetadata_iff.mpr isMetadata
    have notCookies : payload.carrier ≠ .cookies := foreign
    rw [if_pos (⟨notCookies, present⟩ : _ ∧ _)] at checked
    split at checked
    · cases checked
    · cases checked
  | body | path => exact isMetadata

theorem Present.of_agreeOn (present : Present readers route request carrier)
    (agrees : AgreeOn readers route request other carrier) :
    Present readers route other carrier := by
  cases carrier with
  | body | path =>
    unfold Present at present ⊢
    rw [← agrees.1]
    exact present
  | headers =>
    unfold Present at present ⊢
    rw [← show headerFieldsOf request = headerFieldsOf other from agrees]
    exact present
  | query =>
    unfold Present at present ⊢
    rw [← show queryFieldsOf request = queryFieldsOf other from agrees]
    exact present
  | cookies =>
    unfold Present at present ⊢
    rw [← show cookieFieldsOf readers.unicode request = cookieFieldsOf readers.unicode other from
      agrees]
    exact present

/-- An accepted request has one carrier, metadata nowhere else, and a payload that any
accepted request has which agrees with it on that carrier. -/
theorem payload_isolated {readers : PayloadReaders} {route : AdvancedRoute}
    {limits : AdvancedLimits} {request : HTTPRequest} {payload : CanonicalAdvancedPayload}
    (accepted : parseAdvancedPayload readers route limits request = .ok payload) :
    (∀ carrier, Present readers route request carrier ↔ carrier = payload.carrier) ∧
    (∀ carrier, HasMetadataIn readers request carrier →
      OwnMetadata readers route request payload.carrier carrier) ∧
    (∀ otherLimits other otherPayload,
      parseAdvancedPayload readers route otherLimits other = .ok otherPayload →
      AgreeOn readers route request other payload.carrier → otherPayload = payload) := by
  obtain ⟨scanned, isAccepted⟩ := acceptance accepted
  refine ⟨isAccepted.only, fun carrier => isAccepted.ownMetadata, ?_⟩
  intro otherLimits other otherPayload otherAccepted agrees
  obtain ⟨otherScanned, isOther⟩ := acceptance otherAccepted
  have present := (isAccepted.only payload.carrier).mpr rfl
  have sameCarrier := (isOther.only payload.carrier).mp (present.of_agreeOn agrees)
  have otherParsed := isOther.parsed
  rw [← sameCarrier] at otherParsed
  exact parseSelected_agrees isAccepted.found isOther.found agrees isAccepted.parsed otherParsed

def sampleReaders : PayloadReaders :=
  { unicode := Unicode.ascii
    levels := 100
    headers :=
      { contentType := fun _ => .error .valueError
        partHeaders := fun _ => .error .valueError }
    xml := fun _ => .error .rejected }

def sampleRoute : AdvancedRoute := { decoder := "auto".toList, routePrefix := none }

def sampleLimits : AdvancedLimits := { headerDataLimit := 4096, urlDataLimit := 4096 }

/-- `POST /u?data=aGk&encoding=base64url&encryption=none&name=hi`. -/
def queryUpload : HTTPRequest :=
  { requestLine :=
      { RequestLine.empty with
        method := "POST".toList
        rawPath := "/u".toList
        queryString := "data=aGk&encoding=base64url&encryption=none&name=hi".toList }
    fields := []
    body := []
    parseError := none }

def queryUploadPayload : CanonicalAdvancedPayload :=
  { carrier := .query
    bodyProfile := .query
    encodedData := some (literal "aGk")
    rawData := none
    encryption := .none
    key := none
    keyIsBase64 := false
    name := some (literal "hi")
    hmac := none
    encoding := some .base64url
    methodOverride := none
    contentType := octetStream
    filenameSource := .query }

theorem queryUpload_accepted :
    parseAdvancedPayload sampleReaders sampleRoute sampleLimits queryUpload =
      .ok queryUploadPayload := by
  decide +kernel

theorem queryUpload_isolated :
    (∀ carrier, Present sampleReaders sampleRoute queryUpload carrier ↔ carrier = .query) ∧
    (∀ carrier, HasMetadataIn sampleReaders queryUpload carrier →
      OwnMetadata sampleReaders sampleRoute queryUpload .query carrier) ∧
    (∀ otherLimits other otherPayload,
      parseAdvancedPayload sampleReaders sampleRoute otherLimits other = .ok otherPayload →
      AgreeOn sampleReaders sampleRoute queryUpload other .query →
      otherPayload = queryUploadPayload) :=
  payload_isolated queryUpload_accepted

end XFerry.AdvancedPayload
