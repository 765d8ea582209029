/-
The fields of an Advanced upload payload where a request can carry them: in its
headers, its query and its cookies.

Names and values are texts by their code points, since those of a JSON body can hold
lone surrogates.
-/

import XFerry.Http.Request
import XFerry.Json.Scanner
import XFerry.Python.Text

namespace XFerry.AdvancedPayload

open Python Http Json

def literal (text : String) : Str := str text.toList

inductive AdvancedCarrier where
  | body
  | headers
  | query
  | cookies
  | path
deriving DecidableEq

inductive AdvancedBodyProfile where
  | json
  | form
  | xml
  | multipartEncoded
  | multipartBinary
  | text
  | raw
  | header
  | query
  | cookies
  | path
deriving DecidableEq

inductive AdvancedEncoding where
  | raw
  | base64
  | base64url
  | hex
  | percent
  | gzipBase64
  | gzipBase64url
deriving DecidableEq

inductive AdvancedEncryption where
  | none
  | xor
  | aes
deriving DecidableEq

inductive FilenameSource where
  | body
  | part
  | header
  | query
  | cookie
  | path
  | generated
deriving DecidableEq

structure CanonicalAdvancedPayload where
  carrier : AdvancedCarrier
  bodyProfile : AdvancedBodyProfile
  encodedData : Option Str
  rawData : Option Bytes
  encryption : AdvancedEncryption
  key : Option Str
  keyIsBase64 : Bool
  name : Option Str
  hmac : Option Str
  encoding : Option AdvancedEncoding
  methodOverride : Option Str
  contentType : Text
  filenameSource : FilenameSource
deriving DecidableEq

/-- `_FIELD_NAMES`. -/
inductive FieldName where
  | data
  | encryption
  | key
  | keyIsBase64
  | name
  | hmac
  | encoding
  | methodOverride
deriving DecidableEq

def FieldName.text : FieldName → String
  | .data => "data"
  | .encryption => "encryption"
  | .key => "key"
  | .keyIsBase64 => "key_is_base64"
  | .name => "name"
  | .hmac => "hmac"
  | .encoding => "encoding"
  | .methodOverride => "method_override"

/-- `_HEADER_FIELDS`. -/
def FieldName.header : FieldName → String
  | .data => "x-xferry-data"
  | .encryption => "x-xferry-encryption"
  | .key => "x-xferry-key"
  | .keyIsBase64 => "x-xferry-key-is-base64"
  | .name => "x-xferry-name"
  | .hmac => "x-xferry-hmac"
  | .encoding => "x-xferry-encoding"
  | .methodOverride => "x-xferry-method-override"

def FieldName.cookie (field : FieldName) : String := "xferry_" ++ field.text

def fieldNames : List FieldName :=
  [.data, .encryption, .key, .keyIsBase64, .name, .hmac, .encoding, .methodOverride]

def FieldName.code (field : FieldName) : Str := literal field.text

def fieldNamed (name : Str) : Option FieldName := fieldNames.find? fun field => field.code = name

structure FieldOccurrence where
  name : Str
  value : Value
  wireOrder : Nat
  displayName : Str

inductive ErrorDetails where
  | none
  | supported (media : List String)
  | limit (scope : String) (limitBytes : Nat)
  | carriers (present : List AdvancedCarrier)
  | expected (type : String)
  | uploadKind
deriving DecidableEq

def supportedMedia : List String :=
  ["application/json", "application/x-www-form-urlencoded", "multipart/form-data",
    "application/xml", "text/xml", "application/soap+xml", "application/*+xml", "text/plain",
    "application/octet-stream"]

structure AdvancedPayloadError where
  status : Nat
  code : String
  message : String
  field : Option Str := none
  details : ErrorDetails := .none
  metricReason : Option String := none
deriving DecidableEq

/-- The exceptions that no clause of the parser names: the `ValueError` of `int()`, those
of `json.loads`, `UnicodeEncodeError`, and whatever a reader of headers or XML lets
through. -/
inductive Uncaught where
  | tooManyDigits
  | jsonValueError
  | recursionError
  | unicodeEncodeError
  | reader
deriving DecidableEq

inductive PayloadFault where
  | rejected (error : AdvancedPayloadError)
  | uncaught (exception : Uncaught)
deriving DecidableEq

abbrev Parsed (α : Type) := Except PayloadFault α

/-- `raise _error(...)`. -/
def reject {α : Type} (error : AdvancedPayloadError) : Parsed α := .error (.rejected error)

def invalidField {α : Type} (field : Str) : Parsed α :=
  reject
    { status := 400
      code := "invalid_field"
      message := "Advanced upload field is invalid"
      field := some field }

def missingField {α : Type} (field : FieldName) : Parsed α :=
  reject
    { status := 400
      code := "missing_field"
      message :=
        if field = .data then "Advanced upload payload is required"
        else "Advanced upload field is required"
      field := some field.code }

def unsupportedMedia {α : Type} : Parsed α :=
  reject
    { status := 415
      code := "unsupported_media_type"
      message := "Unsupported advanced upload media type"
      field := some (literal "Content-Type")
      details := .supported supportedMedia }

def payloadTooLarge {α : Type} (limit : Nat) (scope : String) : Parsed α :=
  reject
    { status := 413
      code := "payload_too_large"
      message := "Advanced upload payload is too large"
      field := some FieldName.data.code
      details := .limit scope limit
      metricReason := some (scope ++ "_too_large") }

def emptyPayloadError (profile : AdvancedBodyProfile) : AdvancedPayloadError :=
  { status := 400
    code := "empty_payload"
    message := "Advanced upload payload is empty"
    field := some (if profile = .multipartBinary then literal "file" else FieldName.data.code)
    details := .uploadKind }

def emptyPayload {α : Type} (profile : AdvancedBodyProfile) : Parsed α :=
  reject (emptyPayloadError profile)

def hexOf (code : Nat) : Option Nat := if code < 128 then hexValue (Char.ofNat code) else none

inductive PercentFault where
  | badEscape
  | notEncodable

def prepend (first : Bytes) (rest : Except PercentFault Bytes) : Except PercentFault Bytes :=
  rest.map fun bytes => first ++ bytes

def percentDecode (plusToSpace : Bool) : Str → Except PercentFault Bytes
  | [] => .ok []
  | 37 :: high :: low :: rest =>
    match hexOf high, hexOf low with
    | some high, some low =>
      prepend [UInt8.ofNat (high * 16 + low)] (percentDecode plusToSpace rest)
    | _, _ => .error .badEscape
  | code :: rest =>
    if code = 37 then .error .badEscape
    else if code = 43 ∧ plusToSpace = true then prepend [0x20] (percentDecode plusToSpace rest)
    else
      match encodePoint code with
      | none => .error .notEncodable
      | some bytes => prepend bytes (percentDecode plusToSpace rest)

def strictPercentDecodeBytes (raw : Str) (plusToSpace : Bool) : Parsed Bytes :=
  match percentDecode plusToSpace raw with
  | .ok bytes => .ok bytes
  | .error .badEscape => invalidField FieldName.data.code
  | .error .notEncodable => .error (.uncaught .unicodeEncodeError)

def strictPercentDecodeText (raw : Text) (plusToSpace : Bool) : Parsed Text := do
  let bytes ← strictPercentDecodeBytes (str raw) plusToSpace
  match decode bytes with
  | none => invalidField FieldName.data.code
  | some text => .ok text

/-- `str.partition(separator)`, without the separator. -/
def partition (separator : Char) (text : Text) : Text × Text :=
  (text.takeWhile (· ≠ separator), (text.dropWhile (· ≠ separator)).drop 1)

def isDigitCode (code : Nat) : Bool := 48 ≤ code && code ≤ 57

def digitsAfter (beginning name : Str) : Option Str :=
  let digits := name.drop beginning.length
  if beginning.isPrefixOf name = true ∧ digits ≠ [] ∧ digits.all isDigitCode = true then
    some digits
  else none

/-- `_QUERY_CHUNK_RE`. -/
def chunkDigits (name : Str) : Option Str := digitsAfter (literal "data_") name

def isDataName (name : Str) : Bool := name = FieldName.data.code || (chunkDigits name).isSome

def isMetadataName (name : Str) : Bool :=
  match fieldNamed name with
  | none => false
  | some field => field ≠ .data

def fieldLegacyRejections : List (String × String) :=
  [("d", "data"), ("d0", "data"), ("d-0", "data"), ("d_0", "data"), ("data0", "data"),
    ("data-0", "data"), ("e", "encryption"), ("k", "key"), ("kb64", "key_is_base64"),
    ("n", "name"), ("h", "hmac"), ("enc", "encoding"), ("_method", "method_override"),
    ("path_payload", "path_payload"), ("path_filename", "path_filename")]

/-- `_HEADER_LEGACY_REJECTIONS`, by names in lower case. -/
def headerLegacyRejections : List (String × String) :=
  [("x-d", "X-D"), ("x-d-0", "X-D-0"), ("x-e", "X-E"), ("x-k", "X-K"), ("x-kb64", "X-Kb64"),
    ("x-n", "X-N"), ("x-h", "X-H"), ("x-encoding", "X-Encoding"),
    ("x-http-method-override", "X-HTTP-Method-Override"),
    ("x-payload-in-path", "X-Payload-In-Path")]

/-- `_COOKIE_LEGACY_REJECTIONS`, which maps each name to itself. -/
def cookieLegacyRejections : List String :=
  ["xf_d", "xf_data", "xf_e", "xf_k", "xf_kb64", "xf_n", "xf_name", "xf_h", "xf_hmac",
    "xf_encoding", "xf_enc", "xf_method"]

def rejectionOf (rejections : List (String × String)) (name : Str) : Option Str :=
  (rejections.find? fun entry => literal entry.1 = name).map fun entry => literal entry.2

/-- `_LEGACY_DATA_FIELD_RE`. -/
def isLegacyDataField (name : Str) : Bool :=
  ["d", "d-", "d_", "data", "data-"].any fun beginning =>
    (digitsAfter (literal beginning) name).isSome

def legacyFieldRejection (name : Str) : Option Str :=
  match rejectionOf fieldLegacyRejections name with
  | some mapped => some mapped
  | none => if isLegacyDataField name = true then some FieldName.data.code else none

def jsonFieldForInvalid (name : Str) : Str := (legacyFieldRejection name).getD name

def legacyHeaderField (field : HeaderField) : Option Str :=
  if (digitsAfter (literal "x-d-") (str field.name)).isSome = true then some (str field.key)
  else rejectionOf headerLegacyRejections (str field.name)

abbrev Classified := Parsed (Option (Str × Value × Str))

def scanOccurrences {α : Type} (classify : α → Classified) (items : List α) :
    Parsed (List FieldOccurrence) := do
  let scanned ← items.zipIdx.mapM fun item => (classify item.1).map fun classified =>
    classified.map fun (name, value, displayName) =>
      { name := name, value := value, wireOrder := item.2, displayName := displayName }
  .ok scanned.reduceOption

def hasPayload (occurrences : List FieldOccurrence) : Bool :=
  occurrences.any fun occurrence => isDataName occurrence.name

def hasMetadata (occurrences : List FieldOccurrence) : Bool :=
  occurrences.any fun occurrence => isMetadataName occurrence.name

def advancedHeaderName (lower : Text) : Option Str :=
  match fieldNames.find? fun field => field.header.toList = lower with
  | some field => some field.code
  | none =>
    (digitsAfter (literal "x-xferry-data-") (str lower)).map fun digits =>
      literal "data_" ++ digits

def isAdvancedControlHeader (lower : Text) : Bool :=
  lower = "x-xferry-advanced-session".toList || lower = "x-xferry-no-gzip".toList

def headerValueAfterSeparator (rawValue : Text) (field : Str) : Parsed Text :=
  match rawValue with
  | '\t' :: _ => invalidField field
  | ' ' :: rest => .ok rest
  | other => .ok other

def isBlank (char : Char) : Bool := char = ' ' || char = '\t'

def canonicalAdvancedHeaderValue (field : HeaderField) : Parsed Text := do
  let value ← headerValueAfterSeparator field.rawLines.flatten (str field.key)
  if value ≠ field.value ∨ value ≠ trim isBlank value then invalidField (str field.key)
  else .ok value

def classifyHeader (field : HeaderField) : Classified :=
  if 1 < field.rawLines.length then invalidField (str field.key)
  else
    match legacyHeaderField field with
    | some legacy => invalidField legacy
    | none =>
      match advancedHeaderName field.name with
      | none =>
        if isAdvancedControlHeader field.name = true then .ok none
        else if "x-xferry-".toList.isPrefixOf field.name = true then
          invalidField (str field.key)
        else .ok none
      | some name => do
          let value ← canonicalAdvancedHeaderValue field
          if value.contains ',' = true then invalidField (str field.key)
          else .ok (some (name, .string (str value), str field.key))

def headerScan (request : HTTPRequest) : Parsed (List FieldOccurrence) :=
  scanOccurrences classifyHeader request.fields.reverse

def parsePair (rawPart : Text) : Parsed (Text × Text) := do
  let (rawKey, rawValue) := partition '=' rawPart
  let key ← strictPercentDecodeText rawKey true
  let value ← strictPercentDecodeText rawValue true
  .ok (key, value)

def parseQueryPairs (rawQuery : Text) : Parsed (List (Text × Text)) :=
  if rawQuery = [] then .ok [] else (rawQuery.splitOn '&').mapM parsePair

def classifyQuery (pair : Text × Text) : Classified :=
  match legacyFieldRejection (str pair.1) with
  | some legacy => invalidField legacy
  | none => .ok (some (str pair.1, .string (str pair.2), str pair.1))

def queryScan (request : HTTPRequest) : Parsed (List FieldOccurrence) := do
  let pairs ← parseQueryPairs request.requestLine.queryString
  scanOccurrences classifyQuery pairs

def cookiePair (unicode : Unicode) (item : Text) : Parsed (Option (Text × Text)) :=
  if item.contains '=' = false then .ok none
  else
    let (rawKey, rawValue) := partition '=' item
    let key := unicode.strip rawKey
    match strictPercentDecodeText rawValue false with
    | .error (.rejected _) => invalidField (if key = [] then literal "cookie" else str key)
    | .error (.uncaught exception) => .error (.uncaught exception)
    | .ok value =>
      if ("xferry_".toList.isPrefixOf key = true ∨ "xf_".toList.isPrefixOf key = true) ∧
          value ≠ trim isBlank value then invalidField (str key)
      else .ok (some (key, value))

def cookieHeaderPairs (unicode : Unicode) (field : HeaderField) : Parsed (List (Text × Text)) := do
  let headerValue ← headerValueAfterSeparator
    (['\r', '\n'].intercalate field.rawLines) (literal "Cookie")
  let pairs ← (headerValue.splitOn ';').mapM (cookiePair unicode)
  .ok pairs.reduceOption

def cookiePairs (unicode : Unicode) (request : HTTPRequest) : Parsed (List (Text × Text)) := do
  let pairs ← (request.fieldsNamed "cookie").mapM (cookieHeaderPairs unicode)
  .ok pairs.flatten

def cookieField (key : Text) : Option FieldName :=
  fieldNames.find? fun field => field.cookie.toList = key

def classifyCookie (pair : Text × Text) : Classified :=
  if cookieLegacyRejections.any (fun legacy => legacy.toList = pair.1) = true ∨
      "xf_".toList.isPrefixOf pair.1 = true then invalidField (str pair.1)
  else
    match cookieField pair.1 with
    | some field => .ok (some (field.code, .string (str pair.2), str pair.1))
    | none =>
      if "xferry_".toList.isPrefixOf pair.1 = true then invalidField (str pair.1) else .ok none

def cookieScan (unicode : Unicode) (request : HTTPRequest) : Parsed (List FieldOccurrence) := do
  let pairs ← cookiePairs unicode request
  scanOccurrences classifyCookie pairs

end XFerry.AdvancedPayload
