/-
The law of chunked payloads, for every carrier that takes chunks.
-/

import XFerry.Advanced.ChunkReassembly

namespace XFerry.AdvancedPayload

open Python Http Json List

theorem same_result {ε α : Type} {scan other : Except ε α} {result before : α} (same : scan = other)
    (isBefore : other = .ok before) (isResult : scan = .ok result) : result = before :=
  Except.ok.inj (isResult.symm.trans (same.trans isBefore))

theorem noData_of_headers {others : List HeaderField}
    (noData : ∀ field ∈ others, isDataHeader field = false) :
    ∀ field ∈ others.filterMap (contentOf classifyHeader), isDataName field.1 = false := by
  intro field member
  obtain ⟨header, isHeader, content⟩ := mem_filterMap.mp member
  cases classified : classifyHeader header with
  | error fault =>
    unfold contentOf at content
    rw [classified] at content
    cases content
  | ok found =>
    rw [contentOf_classifyHeader classified, Option.map_map] at content
    obtain ⟨name, named, rfl⟩ := Option.map_eq_some_iff.mp content
    have notData := noData header isHeader
    unfold isDataHeader at notData
    rw [named] at notData
    exact notData

variable {name : String}

theorem dataHeader_ne (begins : (literal name).take 4 ≠ literal "x-xf")
    {field : HeaderField} (takes : (str field.name).take 4 = literal "x-xf") :
    field.name ≠ name.toList := by
  intro same
  rw [same] at takes
  exact begins takes

namespace SplitHeaders

variable {readers : PayloadReaders} {route : AdvancedRoute} {request chunked : HTTPRequest}
  {pieces : List Str} {others chunks : List HeaderField} {data : HeaderField}

section

variable (split : SplitHeaders request chunked pieces.flatten pieces others chunks data)
include split

theorem classified :
    classifyHeader data = .ok (some (FieldName.data.code, .string pieces.flatten, str data.key)) :=
  classifyHeader_data split.isWhole (admissible_of_pieces split.arePieces split.isWhole.value)

theorem content : [data].filterMap (contentOf classifyHeader) = [wholeField pieces.flatten] := by
  have isContent : contentOf classifyHeader data = some (wholeField pieces.flatten) := by
    unfold contentOf
    rw [split.classified]
    rfl
  rw [filterMap_cons_some isContent, filterMap_nil]

theorem cookies_eq : cookieScan readers.unicode chunked = cookieScan readers.unicode request := by
  refine cookieScan_congr ?_
  rw [fieldsNamed_of_woven split.sentPieces, fieldsNamed_of_woven split.sentWhole]
  · intro field member
    rw [mem_singleton.mp member]
    refine dataHeader_ne (by decide) ?_
    rw [split.isWhole.name]
    exact take_dataHeader
  · intro field member
    obtain ⟨index, named⟩ := split.arePieces.named field member
    refine dataHeader_ne (by decide) ?_
    rw [named]
    exact take_chunkHeader index

theorem query_eq : queryScan chunked = queryScan request :=
  queryScan_congr (congrArg RequestLine.queryString split.sameLine)

theorem scans :
    Succeeds (scanRequest readers request) ↔ Succeeds (scanRequest readers chunked) := by
  have isWhole : ∀ field ∈ [data], ∃ content, classifyHeader field = .ok content := by
    intro field member
    rw [mem_singleton.mp member]
    exact ⟨_, split.classified⟩
  rw [scanRequest_succeeds, scanRequest_succeeds, split.cookies_eq, split.query_eq,
    headerScan_succeeds_of_woven split.sentWhole isWhole,
    headerScan_succeeds_of_woven split.sentPieces split.arePieces.classified.1]

end

variable {left right : ScannedRequest}

section

variable (split : SplitHeaders request chunked pieces.flatten pieces others chunks data)
include split

theorem forms (isLeft : ScansOf readers request left) (isRight : ScansOf readers chunked right) :
    FormsOfData (others.filterMap (contentOf classifyHeader)) pieces left.headers
      right.headers := by
  have sentWhole := fieldsOf_headerScan split.sentWhole isLeft.headers
  have sentPieces := fieldsOf_headerScan split.sentPieces isRight.headers
  rw [split.content] at sentWhole
  rw [split.arePieces.classified.2] at sentPieces
  constructor
  · exact noData_of_headers split.noData
  · exact sentWhole
  · exact sentPieces
  · exact headerScan_inOrder isLeft.headers
  · exact headerScan_inOrder isRight.headers

theorem alike (nonempty : pieces ≠ []) (few : pieces.length ≤ 256)
    (isLeft : ScansOf readers request left) (isRight : ScansOf readers chunked right) :
    ParsedAlike readers route .headers pieces.flatten left right := by
  have forms := split.forms isLeft isRight
  have sameQuery : right.query = left.query := same_result split.query_eq isLeft.query isRight.query
  have sameCookies : right.cookies = left.cookies :=
    same_result split.cookies_eq isLeft.cookies isRight.cookies
  constructor
  case present =>
    intro any
    unfold ScannedRequest.isPresent
    rw [isLeft.ofRequest, isRight.ofRequest, split.sameBody, split.sameLine, sameQuery, sameCookies,
      forms.left_hasPayload, forms.right_hasPayload nonempty]
  case headers => exact forms.metadata_eq
  case query => rw [sameQuery]
  case cookies => rw [sameCookies]
  case carries => exact forms.left_hasPayload
  case parsed => exact forms.built_iff (source_takesChunks .headers) nonempty few
  case encoded => exact fun payload built => forms.built_encoded (source_takesChunks .headers) built

end

end SplitHeaders

namespace SplitQuery

variable {readers : PayloadReaders} {route : AdvancedRoute} {request chunked : HTTPRequest}
  {pieces : List Str} {others fields chunkFields : List (Str × Value)}

section

variable (split : SplitQuery readers request chunked pieces.flatten pieces others fields
  chunkFields)
include split

theorem forms (isLeft : ScansOf readers request left) (isRight : ScansOf readers chunked right) :
    FormsOfData others pieces left.query right.query := by
  obtain ⟨query, isQuery, sameFields⟩ := Ensures.exists_of_map_eq_ok split.isRead
  obtain ⟨chunkedQuery, isChunked, sameChunked⟩ := Ensures.exists_of_map_eq_ok split.chunkedIsRead
  cases Except.ok.inj (isQuery.symm.trans isLeft.query)
  cases Except.ok.inj (isChunked.symm.trans isRight.query)
  constructor
  · exact split.noData
  · rw [sameFields]
    exact split.sentWhole
  · rw [sameChunked]
    exact split.sentPieces
  · exact queryScan_inOrder isLeft.query
  · exact queryScan_inOrder isRight.query

theorem cookies_eq : cookieScan readers.unicode chunked = cookieScan readers.unicode request := by
  refine cookieScan_congr ?_
  unfold HTTPRequest.fieldsNamed
  rw [split.sameFields]

theorem scans :
    Succeeds (scanRequest readers request) ↔ Succeeds (scanRequest readers chunked) := by
  obtain ⟨query, isQuery, _⟩ := Ensures.exists_of_map_eq_ok split.isRead
  obtain ⟨chunkedQuery, isChunked, _⟩ := Ensures.exists_of_map_eq_ok split.chunkedIsRead
  have both : Succeeds (queryScan request) ↔ Succeeds (queryScan chunked) :=
    iff_of_true ⟨query, isQuery⟩ ⟨chunkedQuery, isChunked⟩
  rw [scanRequest_succeeds, scanRequest_succeeds, split.cookies_eq,
    headerScan_congr split.sameFields, both]

theorem alike (nonempty : pieces ≠ []) (few : pieces.length ≤ 256)
    (isLeft : ScansOf readers request left) (isRight : ScansOf readers chunked right) :
    ParsedAlike readers route .query pieces.flatten left right := by
  have forms := split.forms isLeft isRight
  have sameHeaders : right.headers = left.headers :=
    same_result (headerScan_congr split.sameFields) isLeft.headers isRight.headers
  have sameCookies : right.cookies = left.cookies :=
    same_result split.cookies_eq isLeft.cookies isRight.cookies
  have samePath : chunked.requestLine.rawPath = request.requestLine.rawPath := by
    rw [split.sameLine]
  constructor
  case present =>
    intro any
    unfold ScannedRequest.isPresent
    rw [isLeft.ofRequest, isRight.ofRequest, split.sameBody, samePath, sameHeaders, sameCookies,
      forms.left_hasPayload, forms.right_hasPayload nonempty]
  case headers => rw [sameHeaders]
  case query => exact forms.metadata_eq
  case cookies => rw [sameCookies]
  case carries => exact forms.left_hasPayload
  case parsed => exact forms.built_iff (source_takesChunks .query) nonempty few
  case encoded => exact fun payload built => forms.built_encoded (source_takesChunks .query) built

end

end SplitQuery

namespace SplitBody

variable {readers : PayloadReaders} {route : AdvancedRoute} {request chunked : HTTPRequest}
  {place : ChunkCarrier} {pieces : List Str} {others fields chunkFields : List (Str × Value)}
  {headers lengths chunkedLengths : List HeaderField}

theorem length_ne (other : "content-length" ≠ name) {field : HeaderField}
    (isLength : IsLengthHeader field) : field.name ≠ name.toList := by
  intro same
  rw [isLength.name] at same
  exact other (String.toList_injective same)

theorem lengths_classified {lengths : List HeaderField}
    (areLengths : ∀ field ∈ lengths, IsLengthHeader field) :
    (∀ field ∈ lengths, ∃ content, classifyHeader field = .ok content) ∧
      lengths.filterMap (contentOf classifyHeader) = [] := by
  constructor
  · exact fun field member => ⟨none, classifyHeader_length (areLengths field member)⟩
  · rw [filterMap_eq_nil_iff]
    intro field member
    unfold contentOf
    rw [classifyHeader_length (areLengths field member)]

section

variable (split : SplitBody readers route request chunked place pieces.flatten pieces others fields
  chunkFields headers lengths chunkedLengths)
include split

theorem fieldsNamed_eq (other : "content-length" ≠ name) :
    chunked.fieldsNamed name = request.fieldsNamed name := by
  rw [fieldsNamed_of_woven split.sentChunkedHeaders, fieldsNamed_of_woven split.sentHeaders]
  · exact fun field member => length_ne other (split.areLengths field member)
  · exact fun field member => length_ne other (split.areChunkedLengths field member)

theorem query_eq : queryScan chunked = queryScan request :=
  queryScan_congr (congrArg RequestLine.queryString split.sameLine)

theorem scans :
    Succeeds (scanRequest readers request) ↔ Succeeds (scanRequest readers chunked) := by
  rw [scanRequest_succeeds, scanRequest_succeeds, split.query_eq,
    cookieScan_congr (split.fieldsNamed_eq (by decide)),
    headerScan_succeeds_of_woven split.sentHeaders (lengths_classified split.areLengths).1,
    headerScan_succeeds_of_woven split.sentChunkedHeaders
      (lengths_classified split.areChunkedLengths).1]

theorem forms :
    FormsOfData others pieces (memberOccurrences fields) (memberOccurrences chunkFields) := by
  constructor
  · exact split.noData
  · rw [fieldsOf_members]
    exact split.sentWhole
  · rw [fieldsOf_members]
    exact split.sentPieces
  · exact memberOccurrences_inOrder fields
  · exact memberOccurrences_inOrder chunkFields

theorem headers_alike (isLeft : ScansOf readers request left)
    (isRight : ScansOf readers chunked right) :
    fieldsOf left.headers = fieldsOf right.headers := by
  have leftFields := fieldsOf_headerScan split.sentHeaders isLeft.headers
  have rightFields := fieldsOf_headerScan split.sentChunkedHeaders isRight.headers
  rw [(lengths_classified split.areLengths).2] at leftFields
  rw [(lengths_classified split.areChunkedLengths).2] at rightFields
  rw [leftFields.eq_left, rightFields.eq_left]

theorem parsed_iff (nonempty : pieces ≠ []) (few : pieces.length ≤ 256)
    (isLeft : ScansOf readers request left) (isRight : ScansOf readers chunked right)
    (payload : CanonicalAdvancedPayload) :
    parseSelected readers route left .body = .ok payload ↔
      parseSelected readers route right .body = .ok payload := by
  obtain ⟨profile, isProfile⟩ := Option.isSome_iff_exists.mp split.isBody
  obtain ⟨_, contentType, isChosen⟩ := split.inUse profile isProfile
  have sameType : chunked.headerValues "content-type" = request.headerValues "content-type" :=
    congrArg (map HeaderField.value) (split.fieldsNamed_eq (by decide))
  have chunkedChosen := isChosen
  rw [← sameType] at chunkedChosen
  have forms := split.forms
  have sameHeaders : hasMetadata left.headers = hasMetadata right.headers := by
    rw [hasMetadata_eq, hasMetadata_eq, split.headers_alike isLeft isRight]
  change parseBody readers route left = .ok payload ↔ parseBody readers route right = .ok payload
  rw [parseBody_structured isLeft.ofRequest isProfile isChosen,
    parseBody_structured isRight.ofRequest isProfile chunkedChosen,
    parseStructured_iff split.isBody split.isRead forms.left_hasPayload,
    parseStructured_iff split.isBody split.chunkedIsRead (forms.right_hasPayload nonempty),
    sameHeaders, split.sameFiles,
    forms.built_iff (source_takesChunks place) nonempty few payload]

theorem parsed_encoded {left : ScannedRequest}
    (isLeft : ScansOf readers request left) {payload : CanonicalAdvancedPayload}
    (parsed : parseSelected readers route left .body = .ok payload) :
    payload.encodedData = some pieces.flatten := by
  obtain ⟨profile, isProfile⟩ := Option.isSome_iff_exists.mp split.isBody
  obtain ⟨_, contentType, isChosen⟩ := split.inUse profile isProfile
  obtain ⟨_, structured⟩ := (parseBody_structured isLeft.ofRequest isProfile isChosen).mp parsed
  obtain ⟨_, built⟩ :=
    (parseStructured_iff split.isBody split.isRead split.forms.left_hasPayload).mp structured
  exact split.forms.built_encoded (source_takesChunks place) built

theorem alike (nonempty : pieces ≠ []) (few : pieces.length ≤ 256)
    (isLeft : ScansOf readers request left) (isRight : ScansOf readers chunked right) :
    ParsedAlike readers route .body pieces.flatten left right := by
  have sameFields := split.headers_alike isLeft isRight
  obtain ⟨profile, isProfile⟩ := Option.isSome_iff_exists.mp split.isBody
  obtain ⟨body, _⟩ := split.inUse profile isProfile
  have isPresent : request.body.isEmpty = false := isEmpty_eq_false_iff.mpr body
  have chunkedPresent : chunked.body.isEmpty = false := isEmpty_eq_false_iff.mpr split.chunkedBody
  have sameQuery : right.query = left.query := same_result split.query_eq isLeft.query isRight.query
  have sameCookies : right.cookies = left.cookies :=
    same_result (cookieScan_congr (split.fieldsNamed_eq (by decide))) isLeft.cookies isRight.cookies
  constructor
  case present =>
    intro any
    unfold ScannedRequest.isPresent
    rw [isLeft.ofRequest, isRight.ofRequest, split.sameLine, sameQuery, sameCookies,
      hasPayload_eq left.headers, hasPayload_eq right.headers, sameFields, isPresent,
      chunkedPresent]
  case headers => rw [hasMetadata_eq, hasMetadata_eq, sameFields]
  case query => rw [sameQuery]
  case cookies => rw [sameCookies]
  case carries =>
    unfold ScannedRequest.isPresent
    rw [isLeft.ofRequest, isPresent]
    rfl
  case parsed => exact split.parsed_iff nonempty few isLeft isRight
  case encoded => exact fun payload => split.parsed_encoded isLeft

end

end SplitBody

variable {place : ChunkCarrier}

theorem splitInto_parse {readers : PayloadReaders} {route : AdvancedRoute}
    {limits : AdvancedLimits} {request chunked : HTTPRequest} {pieces : List Str}
    (split : SplitInto readers route request chunked pieces.flatten pieces place)
    (nonempty : pieces ≠ []) (few : pieces.length ≤ 256) (payload : CanonicalAdvancedPayload) :
    (parseAdvancedPayload readers route limits chunked = .ok payload ↔
      parseAdvancedPayload readers route limits request = .ok payload) ∧
    (parseAdvancedPayload readers route limits chunked = .ok payload →
      payload.encodedData = some pieces.flatten) := by
  have inBody (isBody : ∃ others fields chunkFields headers lengths chunkedLengths,
      SplitBody readers route request chunked place pieces.flatten pieces others fields chunkFields
        headers lengths chunkedLengths) :
      (parseAdvancedPayload readers route limits chunked = .ok payload ↔
        parseAdvancedPayload readers route limits request = .ok payload) ∧
      (parseAdvancedPayload readers route limits chunked = .ok payload →
        payload.encodedData = some pieces.flatten) := by
    obtain ⟨_, _, _, _, _, _, split⟩ := isBody
    refine parse_iff_of_alike .body split.scans (fun left right isLeft isRight => ?_) payload
    exact split.alike nonempty few (scansOf isLeft) (scansOf isRight)
  cases place with
  | headers =>
    obtain ⟨_, _, _, split⟩ := split
    refine parse_iff_of_alike .headers split.scans (fun left right isLeft isRight => ?_) payload
    exact split.alike nonempty few (scansOf isLeft) (scansOf isRight)
  | query =>
    obtain ⟨_, _, _, split⟩ := split
    refine parse_iff_of_alike .query split.scans (fun left right isLeft isRight => ?_) payload
    exact split.alike nonempty few (scansOf isLeft) (scansOf isRight)
  | json | form | multipart => exact inBody split

section Accepted

variable {readers : PayloadReaders} {route : AdvancedRoute} {limits : AdvancedLimits}
  {request : HTTPRequest} {payload : CanonicalAdvancedPayload}

theorem parse_eq_ok (accepted : parseAdvancedPayload readers route limits request = .ok payload) :
    ∃ scanned selected, ScansOf readers request scanned ∧ scanned.select route = .ok selected ∧
      parseSelected readers route scanned selected = .ok payload := by
  obtain ⟨scanned, isScan, accepted⟩ := Ensures.bind_eq_ok.mp accepted
  obtain ⟨selected, isSelected, accepted⟩ := Ensures.bind_eq_ok.mp accepted
  obtain ⟨_, _, accepted⟩ := Ensures.bind_eq_ok.mp accepted
  obtain ⟨found, parsed, accepted⟩ := Ensures.bind_eq_ok.mp accepted
  obtain ⟨_, _, same⟩ := Ensures.bind_eq_ok.mp accepted
  cases same
  exact ⟨scanned, selected, scansOf isScan, isSelected, parsed⟩

variable {occurrences : List FieldOccurrence}

theorem dataNames_eq_nil_iff :
    dataNames (occurrences.map FieldOccurrence.name) = [] ↔ hasPayload occurrences = false := by
  unfold dataNames hasPayload
  rw [filter_map, map_eq_nil_iff, filter_eq_nil_iff, any_eq_false]
  rfl

variable {scanned : ScannedRequest}

theorem family_of_selected (place : AdvancedCarrier) {source : PayloadSource}
    {selected : AdvancedCarrier}
    (parsed : parseSelected readers route scanned selected = .ok payload)
    (isSelected : scanned.select route = .ok selected)
    (present : scanned.isPresent route place = hasPayload occurrences)
    (takes : TakesChunks source) (inOrder : InWireOrder occurrences)
    (built : parseSelected readers route scanned place = buildPayload source occurrences) :
    dataNames (occurrences.map FieldOccurrence.name) = [] ∨
      IsFamily (dataNames (occurrences.map FieldOccurrence.name)) := by
  cases isData : hasPayload occurrences with
  | false => exact .inl (dataNames_eq_nil_iff.mpr isData)
  | true =>
    rw [isData] at present
    rw [← (select_only isSelected place).mp present, built] at parsed
    exact .inr (buildPayload_family takes inOrder payload parsed)

theorem family_of_body {profile : AdvancedBodyProfile} (isScan : ScansOf readers request scanned)
    (isProfile : place.profile = some profile) (inUse : InUse readers route request place)
    (parsed : parseBody readers route scanned = .ok payload) :
    ∃ fields, fieldsIn readers request place = .ok fields ∧
      (dataNames (fields.map Prod.fst) = [] ∨ IsFamily (dataNames (fields.map Prod.fst))) := by
  have isBody : place.profile.isSome = true := by rw [isProfile]; rfl
  obtain ⟨_, contentType, isChosen⟩ := inUse profile isProfile
  have structured := ((parseBody_structured isScan.ofRequest isProfile isChosen).mp parsed).2
  obtain ⟨fields, isRead⟩ := parseStructured_reads isBody structured
  refine ⟨fields, isRead, ?_⟩
  have names : fields.map Prod.fst = (memberOccurrences fields).map FieldOccurrence.name := by
    rw [← names_fieldsOf, fieldsOf_members]
  rw [names]
  cases isData : hasPayload (memberOccurrences fields) with
  | false => exact .inl (dataNames_eq_nil_iff.mpr isData)
  | true =>
    obtain ⟨_, built⟩ := (parseStructured_iff isBody isRead isData).mp structured
    exact .inr (buildPayload_family (source_takesChunks place) (memberOccurrences_inOrder fields)
      payload built)

theorem not_misfit_of_accepted (inUse : InUse readers route request place)
    (accepted : parseAdvancedPayload readers route limits request = .ok payload) :
    ¬ Misfit (fieldsIn readers request place) := by
  obtain ⟨scanned, selected, isScan, isSelected, parsed⟩ := parse_eq_ok accepted
  have ofFields {fields : List (Str × Value)} (isRead : fieldsIn readers request place = .ok fields)
      (family : dataNames (fields.map Prod.fst) = [] ∨ IsFamily (dataNames (fields.map Prod.fst))) :
      ¬ Misfit (fieldsIn readers request place) := by
    rw [isRead]
    rintro ⟨some_, notFamily⟩
    exact family.elim some_ notFamily
  have ofBody {profile : AdvancedBodyProfile} (isProfile : place.profile = some profile) :
      ¬ Misfit (fieldsIn readers request place) := by
    obtain ⟨body, _⟩ := inUse profile isProfile
    have present : scanned.isPresent route .body = true := by
      unfold ScannedRequest.isPresent
      rw [isScan.ofRequest, isEmpty_eq_false_iff.mpr body]
      rfl
    rw [← (select_only isSelected .body).mp present] at parsed
    obtain ⟨fields, isRead, family⟩ := family_of_body isScan isProfile inUse parsed
    exact ofFields isRead family
  cases place with
  | headers =>
    refine ofFields (by unfold fieldsIn; rw [isScan.headers]; rfl) ?_
    rw [names_fieldsOf]
    exact family_of_selected .headers parsed isSelected rfl (source_takesChunks .headers)
      (headerScan_inOrder isScan.headers) rfl
  | query =>
    refine ofFields (by unfold fieldsIn; rw [isScan.query]; rfl) ?_
    rw [names_fieldsOf]
    exact family_of_selected .query parsed isSelected rfl (source_takesChunks .query)
      (queryScan_inOrder isScan.query) rfl
  | json | form | multipart => exact ofBody rfl

end Accepted

/-- Data in pieces are parsed as the whole, and a carrier whose data are no family, or
cannot be read, is rejected. -/
theorem chunk_families (readers : PayloadReaders) (route : AdvancedRoute)
    (limits : AdvancedLimits) :
    (∀ place request chunked whole pieces,
      SplitInto readers route request chunked whole pieces place →
      pieces.flatten = whole → 1 ≤ pieces.length → pieces.length ≤ 256 →
      ∀ payload,
        (parseAdvancedPayload readers route limits chunked = .ok payload ↔
          parseAdvancedPayload readers route limits request = .ok payload) ∧
        (parseAdvancedPayload readers route limits chunked = .ok payload →
          payload.encodedData = some whole)) ∧
    (∀ place request, InUse readers route request place →
      Misfit (fieldsIn readers request place) →
      ∃ fault, parseAdvancedPayload readers route limits request = .error fault) := by
  constructor
  · rintro place request chunked whole pieces split rfl some_ few
    exact splitInto_parse split (length_pos_iff.mp some_) few
  · intro place request inUse misfit
    cases parsed : parseAdvancedPayload readers route limits request with
    | error fault => exact ⟨fault, rfl⟩
    | ok payload => exact absurd misfit (not_misfit_of_accepted inUse parsed)

/-- `POST /u?data_0=aG&encoding=base64url&data_1=k&encryption=none&name=hi`. -/
def chunkedQueryUpload : HTTPRequest :=
  { queryUpload with
    requestLine :=
      { queryUpload.requestLine with
        queryString := "data_0=aG&encoding=base64url&data_1=k&encryption=none&name=hi".toList } }

def sampleMetadata : List (Str × Value) :=
  [(literal "encoding", .string (literal "base64url")),
    (literal "encryption", .string (literal "none")), (literal "name", .string (literal "hi"))]

theorem queryUpload_split :
    SplitInto sampleReaders sampleRoute queryUpload chunkedQueryUpload (literal "aGk")
      [literal "aG", literal "k"] .query := by
  refine ⟨sampleMetadata, wholeField (literal "aGk") :: sampleMetadata,
    [(chunkName 0, .string (literal "aG")), (literal "encoding", .string (literal "base64url")),
      (chunkName 1, .string (literal "k")), (literal "encryption", .string (literal "none")),
      (literal "name", .string (literal "hi"))], ?_⟩
  constructor
  case toSplitFields =>
    constructor
    case noData => decide
    case isRead => rfl
    case chunkedIsRead => rfl
    case sentWhole => exact .right (.left (.left (.left .nil)))
    case sentPieces => exact .right (.left (.right (.left (.left .nil))))
  case sameLine => rfl
  case sameFields => rfl
  case sameBody => rfl

theorem chunkedQueryUpload_parsed :
    parseAdvancedPayload sampleReaders sampleRoute sampleLimits chunkedQueryUpload =
      .ok queryUploadPayload := by
  have families := (chunk_families sampleReaders sampleRoute sampleLimits).1 .query queryUpload
    chunkedQueryUpload (literal "aGk") [literal "aG", literal "k"] queryUpload_split (by decide)
    (by decide) (by decide) queryUploadPayload
  exact families.1.mpr queryUpload_accepted

end XFerry.AdvancedPayload
