/-
The body profiles of Advanced uploads, and the choice of the one carrier of a request.

Of an XML document the reader tells what the source asks for.
-/

import XFerry.Advanced.PayloadCarriers

namespace XFerry.AdvancedPayload

open Python Http Json

def contentTypeBase (unicode : Unicode) (value : Text) : Text :=
  unicode.lower (unicode.strip (value.takeWhile (· ≠ ';')))

def unquoted (value : Text) : Text :=
  if 2 ≤ value.length ∧ value.head? = some '"' ∧ value.getLast? = some '"' then
    (value.drop 1).dropLast
  else value

def contentTypeParam (unicode : Unicode) (item : Text) : Parsed (Text × Text) :=
  if item.contains '=' = false then unsupportedMedia
  else
    let (rawKey, rawValue) := partition '=' item
    let key := unicode.lower (unicode.strip rawKey)
    let value := unicode.strip rawValue
    if key = [] ∨ value = [] then unsupportedMedia else .ok (key, unquoted value)

/-- `_content_type_params`, in the order of the items. -/
def contentTypeParams (unicode : Unicode) (value : Text) : Parsed (List (Text × Text)) :=
  ((value.splitOn ';').drop 1).mapM (contentTypeParam unicode)

def paramOf (params : List (Text × Text)) (name : Text) : Option Text :=
  (params.reverse.find? fun param => param.1 = name).map Prod.snd

def isXmlMedia (base : Text) : Bool :=
  ["application/xml", "text/xml", "application/soap+xml"].any (fun media => media.toList = base) ||
    "+xml".toList.isSuffixOf base

/-- The profile that a decoder other than `xml` stands for, with its media type. -/
def decoderProfiles : List (String × String × AdvancedBodyProfile) :=
  [("json", "application/json", .json), ("form", "application/x-www-form-urlencoded", .form),
    ("multipart", "multipart/form-data", .multipartEncoded), ("text", "text/plain", .text),
    ("raw", "application/octet-stream", .raw)]

def autoProfile (base : Text) : Parsed AdvancedBodyProfile :=
  match decoderProfiles.find? fun entry => entry.2.1.toList = base with
  | some entry => .ok entry.2.2
  | none => if isXmlMedia base = true then .ok .xml else unsupportedMedia

def declaredProfile (decoder base : Text) : Parsed AdvancedBodyProfile :=
  if decoder = "auto".toList then autoProfile base
  else if decoder = "xml".toList then if isXmlMedia base = true then .ok .xml else unsupportedMedia
  else
    match decoderProfiles.find? fun entry => entry.1.toList = decoder with
    | some entry => if entry.2.1.toList = base then .ok entry.2.2 else unsupportedMedia
    | none => unsupportedMedia

def bodyProfile (unicode : Unicode) (decoder : Text) (declared : List Text) :
    Parsed (AdvancedBodyProfile × Text) :=
  match declared with
  | [value] => do
      let base := contentTypeBase unicode value
      let params ← contentTypeParams unicode value
      if base = "text/plain".toList ∧
          unicode.lower ((paramOf params "charset".toList).getD "utf-8".toList) ≠
            "utf-8".toList then unsupportedMedia
      else
        let profile ← declaredProfile decoder base
        .ok (profile, base)
  | _ => unsupportedMedia

inductive XmlFault where
  | rejected
  | raised

structure XmlChild where
  tag : Option Str
  hasAttributes : Bool
  hasChildren : Bool
  text : Str
  tail : Str

/-- `closed` means a document without comments and processing instructions. -/
structure XmlDocument where
  closed : Bool
  tag : Option Str
  hasAttributes : Bool
  text : Str
  children : List XmlChild

structure PayloadReaders where
  unicode : Unicode
  levels : Nat
  headers : HeaderParser
  xml : Bytes → Except XmlFault XmlDocument

def octetStream : Text := "application/octet-stream".toList

def malformedJson {α : Type} : Parsed α :=
  reject { status := 400, code := "malformed_json", message := "Malformed JSON body" }

def memberOccurrences (members : List (Str × Value)) : List FieldOccurrence :=
  members.zipIdx.map fun ((name, value), wireOrder) =>
    { name := name, value := value, wireOrder := wireOrder, displayName := name }

def jsonSource : PayloadSource :=
  { carrier := .body
    profile := .json
    contentType := octetStream
    filenameSource := .body
    allowChunks := true
    jsonTypes := true }

def loadJson (levels : Nat) (body : Bytes) : Parsed Value :=
  match decode body with
  | none => malformedJson
  | some text =>
    match loads levels text with
    | .ok value => .ok value
    | .error (.duplicateMember name) => invalidField (jsonFieldForInvalid name)
    | .error .malformed => malformedJson
    | .error .tooManyDigits => .error (.uncaught .jsonValueError)
    | .error .tooDeep => .error (.uncaught .recursionError)

def parseJsonBody (readers : PayloadReaders) (body : Bytes) : Parsed CanonicalAdvancedPayload := do
  match ← loadJson readers.levels body with
  | .object members => buildPayload jsonSource (memberOccurrences members)
  | _ =>
    reject
      { status := 400
        code := "invalid_json_type"
        message := "Advanced JSON body must be an object"
        details := .expected "object" }

def textOccurrences (pairs : List (Text × Text)) : List FieldOccurrence :=
  memberOccurrences (pairs.map fun pair => (str pair.1, .string (str pair.2)))

def formSource : PayloadSource :=
  { carrier := .body
    profile := .form
    contentType := octetStream
    filenameSource := .body
    allowChunks := true }

/-- `_parse_form_pairs`, which does what `_parse_query_pairs` does. -/
def parseFormPairs (raw : Text) : Parsed (List (Text × Text)) := parseQueryPairs raw

def parseFormBody (body : Bytes) : Parsed CanonicalAdvancedPayload :=
  match decode body with
  | none => invalidField FieldName.data.code
  | some raw => do
      let pairs ← parseFormPairs raw
      buildPayload formSource (textOccurrences pairs)

def xmlSource : PayloadSource :=
  { carrier := .body
    profile := .xml
    contentType := octetStream
    filenameSource := .body
    allowChunks := false }

def xmlMember (child : XmlChild) : Parsed (Str × Value) :=
  match child.tag with
  | none => invalidField FieldName.data.code
  | some tag =>
    if (fieldNamed tag).isSome = false then invalidField (jsonFieldForInvalid tag)
    else if (literal "data_").isPrefixOf tag = true then invalidField FieldName.data.code
    else if child.hasAttributes = true ∨ child.hasChildren = true ∨ child.tail ≠ [] then
      invalidField tag
    else .ok (tag, .string child.text)

def parseXmlBody (readers : PayloadReaders) (body : Bytes) : Parsed CanonicalAdvancedPayload :=
  match readers.xml body with
  | .error .rejected => invalidField FieldName.data.code
  | .error .raised => .error (.uncaught .reader)
  | .ok document =>
    if document.closed = false ∨ document.tag ≠ some (literal "upload") ∨
        document.hasAttributes = true ∨ document.text ≠ [] then
      invalidField FieldName.data.code
    else do
      let members ← document.children.mapM xmlMember
      buildPayload xmlSource (memberOccurrences members)

def scalarMember (part : MultipartPart) : Parsed (Str × Value) :=
  match decode part.payload with
  | none => invalidField (str part.fieldName)
  | some text => .ok (str part.fieldName, .string (str text))

def multipartEncodedSource : PayloadSource :=
  { carrier := .body
    profile := .multipartEncoded
    contentType := octetStream
    filenameSource := .body
    allowChunks := true }

def multipartBinarySource (part : MultipartPart) (filename : Text) : PayloadSource :=
  { carrier := .body
    profile := .multipartBinary
    contentType := part.contentType
    filenameSource := .part
    allowChunks := false
    rawData := some part.payload
    partFilename := some (str filename) }

def buildMultipart (fileParts : List MultipartPart) (occurrences : List FieldOccurrence) :
    Parsed CanonicalAdvancedPayload :=
  match fileParts with
  | [] => buildPayload multipartEncodedSource occurrences
  | [part] =>
    if hasPayload occurrences = true then invalidField FieldName.data.code
    else
      let filename := part.filename.getD []
      if part.fieldName ≠ "file".toList ∨ filename = [] then invalidField (literal "file")
      else if part.payload = [] then emptyPayload .multipartBinary
      else buildPayload (multipartBinarySource part filename) occurrences
  | _ :: _ :: _ => invalidField (literal "file")

def parseMultipartBody (readers : PayloadReaders) (declared : List Text) (body : Bytes) :
    Parsed CanonicalAdvancedPayload :=
  match parseMultipartFormData readers.headers (declared.headD []) body with
  | .error (.multipartError _) => invalidField (literal "file")
  | .error .raised => .error (.uncaught .reader)
  | .ok parts => do
      let members ← (parts.filter fun part => part.filename.isNone).mapM scalarMember
      buildMultipart (parts.filter fun part => part.filename.isSome) (memberOccurrences members)

def wholeBodySource (profile : AdvancedBodyProfile) (contentType : Text) (body : Bytes) :
    PayloadSource :=
  { carrier := .body
    profile := profile
    contentType := contentType
    filenameSource := .header
    allowChunks := false
    rawData := some body }

def metadataHeaders (occurrences : List FieldOccurrence) : List FieldOccurrence :=
  occurrences.filter fun occurrence =>
    !(occurrence.name = FieldName.data.code || (literal "data_").isPrefixOf occurrence.name)

def parseTextBody (contentType : Text) (headers : List FieldOccurrence) (body : Bytes) :
    Parsed CanonicalAdvancedPayload :=
  match decode body with
  | none => invalidField FieldName.data.code
  | some _ => buildPayload (wholeBodySource .text contentType body) (metadataHeaders headers)

def parseRawBody (contentType : Text) (headers : List FieldOccurrence) (body : Bytes) :
    Parsed CanonicalAdvancedPayload :=
  buildPayload (wholeBodySource .raw contentType body) (metadataHeaders headers)

/-- `_payload_path_prefix` of the session that the request was dispatched to. -/
def payloadPath (routePrefix : Option Text) : Option Text :=
  routePrefix.map fun route =>
    if route = "/".toList then "/_payload".toList
    else (route.reverse.dropWhile (· = '/')).reverse ++ "/_payload".toList

def isPathCandidate (routePrefix : Option Text) (rawPath : Text) : Bool :=
  match payloadPath routePrefix with
  | none => false
  | some reserved => rawPath = reserved || (reserved ++ ['/']).isPrefixOf rawPath

/-- `_PERCENT_TRIPLET_RE.search`. -/
def hasPercentTriplet : Text → Bool
  | '%' :: high :: low :: rest =>
    ((hexOf high.toNat).isSome && (hexOf low.toNat).isSome) ||
      hasPercentTriplet (high :: low :: rest)
  | _ :: rest => hasPercentTriplet rest
  | [] => false

def isPathName (name : Text) : Bool :=
  name ≠ [] && name ≠ ['.'] && name ≠ ['.', '.'] && !name.contains '/' && !name.contains '\\' &&
    name.all (fun char => 0x20 ≤ char.toNat && char.toNat ≠ 0x7F) && !hasPercentTriplet name

def isBase64UrlChar (char : Char) : Bool := Base64Url.alphabet.contains char

def pathMetadata (occurrences : List FieldOccurrence) : Parsed (List FieldOccurrence) :=
  occurrences.mapM fun occurrence =>
    if [FieldName.data, .name, .encoding].any (fun field => field.code = occurrence.name) = true ∨
        (chunkDigits occurrence.name).isSome = true then invalidField occurrence.name
    else if (fieldNamed occurrence.name).isSome = false then invalidField occurrence.displayName
    else .ok occurrence

def pathSource (name encodedData : Text) : PayloadSource :=
  { carrier := .path
    profile := .path
    contentType := octetStream
    filenameSource := .path
    allowChunks := false
    encodedOverride := some (str encodedData)
    encodingOverride := some .base64url
    nameOverride := some (str name) }

def parseReservedPathCarrier (routePrefix : Option Text) (rawPath : Text)
    (queryOccurrences : List FieldOccurrence) : Parsed CanonicalAdvancedPayload :=
  match payloadPath routePrefix with
  | none => missingField .data
  | some reserved =>
    match (rawPath.drop reserved.length).splitOn '/' with
    | [[], rawName, encodedData] =>
      if rawName = [] ∨ encodedData = [] then invalidField FieldName.data.code
      else do
        let name ← strictPercentDecodeText rawName false
        if isPathName name = false then invalidField FieldName.name.code
        else if encodedData.all isBase64UrlChar = false then
          invalidField FieldName.data.code
        else
          let metadata ← pathMetadata queryOccurrences
          buildPayload (pathSource name encodedData) metadata
    | _ => invalidField FieldName.data.code

structure AdvancedLimits where
  headerDataLimit : Nat
  urlDataLimit : Nat

/-- The session that a request was dispatched to, as far as the parser reads it. -/
structure AdvancedRoute where
  decoder : Text
  routePrefix : Option Text

structure ScannedRequest where
  request : HTTPRequest
  headers : List FieldOccurrence
  query : List FieldOccurrence
  cookies : List FieldOccurrence

def scanRequest (readers : PayloadReaders) (request : HTTPRequest) : Parsed ScannedRequest := do
  let headers ← headerScan request
  let query ← queryScan request
  let cookies ← cookieScan readers.unicode request
  .ok { request := request, headers := headers, query := query, cookies := cookies }

namespace ScannedRequest

variable (scanned : ScannedRequest)

def isPresent (route : AdvancedRoute) : AdvancedCarrier → Bool
  | .body => !scanned.request.body.isEmpty
  | .headers => hasPayload scanned.headers
  | .query => hasPayload scanned.query
  | .cookies => hasPayload scanned.cookies
  | .path => isPathCandidate route.routePrefix scanned.request.requestLine.rawPath

def present (route : AdvancedRoute) : List AdvancedCarrier :=
  [AdvancedCarrier.body, .headers, .query, .cookies, .path].filter (scanned.isPresent route)

def sortedPresent (route : AdvancedRoute) : List AdvancedCarrier :=
  [AdvancedCarrier.body, .cookies, .headers, .path, .query].filter (scanned.isPresent route)

def select (route : AdvancedRoute) : Parsed AdvancedCarrier :=
  match scanned.present route with
  | [] => missingField .data
  | [selected] => .ok selected
  | _ :: _ :: _ =>
    reject
      { status := 400
        code := "ambiguous_payload"
        message := "Advanced upload payload carrier is ambiguous"
        field := some FieldName.data.code
        details := .carriers (scanned.sortedPresent route) }

def checkMetadata (selected : AdvancedCarrier) : Parsed Unit :=
  if (selected ≠ .query ∧ selected ≠ .path) ∧ hasMetadata scanned.query = true then
    invalidField (literal "query")
  else if selected ≠ .cookies ∧ hasMetadata scanned.cookies = true then
    invalidField (literal "cookie")
  else if (selected ≠ .headers ∧ selected ≠ .body) ∧ hasMetadata scanned.headers = true then
    invalidField (literal "headers")
  else .ok ()

end ScannedRequest

def headerSource : PayloadSource :=
  { carrier := .headers
    profile := .header
    contentType := octetStream
    filenameSource := .header
    allowChunks := true }

def querySource : PayloadSource :=
  { carrier := .query
    profile := .query
    contentType := octetStream
    filenameSource := .query
    allowChunks := true }

def cookieSource : PayloadSource :=
  { carrier := .cookies
    profile := .cookies
    contentType := octetStream
    filenameSource := .cookie
    allowChunks := false }

def firstMetadataHeader (headers : List FieldOccurrence) : Str :=
  ((metadataHeaders headers).head?.map FieldOccurrence.displayName).getD []

def parseBody (readers : PayloadReaders) (route : AdvancedRoute) (scanned : ScannedRequest) :
    Parsed CanonicalAdvancedPayload := do
  let declared := scanned.request.headerValues "content-type"
  let (profile, contentType) ← bodyProfile readers.unicode route.decoder declared
  let body := scanned.request.body
  if profile = .raw ∨ profile = .text then
    if hasMetadata scanned.query = true then invalidField (literal "query")
    else if hasMetadata scanned.cookies = true then invalidField (literal "cookie")
    else if profile = .raw then parseRawBody contentType scanned.headers body
    else parseTextBody contentType scanned.headers body
  else if hasMetadata scanned.headers = true then
    invalidField (firstMetadataHeader scanned.headers)
  else
    match profile with
    | .json => parseJsonBody readers body
    | .form => parseFormBody body
    | .xml => parseXmlBody readers body
    | _ => parseMultipartBody readers declared body

def parseSelected (readers : PayloadReaders) (route : AdvancedRoute) (scanned : ScannedRequest) :
    AdvancedCarrier → Parsed CanonicalAdvancedPayload
  | .headers => buildPayload headerSource scanned.headers
  | .query => buildPayload querySource scanned.query
  | .cookies => buildPayload cookieSource scanned.cookies
  | .path =>
    parseReservedPathCarrier route.routePrefix scanned.request.requestLine.rawPath scanned.query
  | .body => parseBody readers route scanned

def encodedLimitForCarrier (limits : AdvancedLimits) : AdvancedCarrier → Option Nat
  | .headers => some limits.headerDataLimit
  | .cookies => some limits.headerDataLimit
  | .query => some limits.urlDataLimit
  | .path => some limits.urlDataLimit
  | .body => none

def checkEncodedLimit (limits : AdvancedLimits) (payload : CanonicalAdvancedPayload) :
    Parsed Unit :=
  match payload.encodedData, encodedLimitForCarrier limits payload.carrier with
  | some encodedData, some limit =>
    match encode encodedData with
    | none => .error (.uncaught .unicodeEncodeError)
    | some bytes => if limit < bytes.length then payloadTooLarge limit "encoded" else .ok ()
  | _, _ => .ok ()

def parseAdvancedPayload (readers : PayloadReaders) (route : AdvancedRoute)
    (limits : AdvancedLimits) (request : HTTPRequest) : Parsed CanonicalAdvancedPayload := do
  let scanned ← scanRequest readers request
  let selected ← scanned.select route
  scanned.checkMetadata selected
  let payload ← parseSelected readers route scanned selected
  checkEncodedLimit limits payload
  .ok payload

end XFerry.AdvancedPayload
