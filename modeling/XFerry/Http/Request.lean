/-
The parser of a received request.

The parser keeps its header fields in one list, the latest first, of which the four
tables of the source are views.  Splitting and decoding a request target is left to
`urllib.parse`.
-/

import XFerry.Lists
import XFerry.Python.Text

namespace XFerry.Http

open Python

/-- `urlparse`, as far as the path and the query, with `none` for `ValueError`; and
`unquote`. -/
structure UrlParse where
  urlparse : Text → Option (Text × Text)
  unquote : Text → Text

structure RequestLine where
  method : Text
  rawTarget : Text
  rawPath : Text
  path : Text
  queryString : Text
  httpVersion : Text
deriving DecidableEq

def RequestLine.empty : RequestLine :=
  { method := [], rawTarget := [], rawPath := [], path := [], queryString := []
    httpVersion := [] }

def isMethodChar (char : Char) : Bool :=
  "!#$%&'*+-.^_`|~".toList.contains char || decide (Between '0' '9' char) ||
    decide (Between 'A' 'Z' char) || decide (Between 'a' 'z' char)

/-- `_HTTP_METHOD_RE`. -/
def isMethod (text : Text) : Bool := !text.isEmpty && text.all isMethodChar

/-- `_REQUEST_TARGET_INVALID_RE`. -/
def isTargetInvalidChar (char : Char) : Bool :=
  decide (char.toNat ≤ 0x20) || decide (char.toNat = 0x7F)

def isDigits (unicode : Unicode) (text : Text) : Bool :=
  !text.isEmpty && text.all fun char => (unicode.decimal char).isSome

/-- `_HTTP_VERSION_RE`. -/
def isHttpVersion (unicode : Unicode) (text : Text) : Bool :=
  if "HTTP/".toList.isPrefixOf text then
    let number := text.drop 5
    isDigits unicode (number.takeWhile (· ≠ '.')) &&
      (match number.dropWhile (· ≠ '.') with
        | [] => false
        | _ :: minor => isDigits unicode minor)
  else false

/-- What goes wrong with a request line: the source notes it, or lets an exception
end the parse. -/
inductive RequestLineFault where
  | noted (parseError : String)
  | raised

def parseRequestLine (unicode : Unicode) (url : UrlParse) (line : Text) :
    Except RequestLineFault RequestLine :=
  match splitSpace line with
  | [method, rawUrl, httpVersion] =>
    if isMethod method = false then .error (.noted "Invalid HTTP method")
    else if rawUrl = [] ∨ rawUrl.any isTargetInvalidChar = true then
      .error (.noted "Invalid request target")
    else if isHttpVersion unicode httpVersion = false then
      .error (.noted "Invalid HTTP version")
    else
      match url.urlparse rawUrl with
      | none => .error .raised
      | some (path, query) =>
        .ok
          { method := method
            rawTarget := rawUrl
            rawPath := path
            path := url.unquote path
            queryString := query
            httpVersion := httpVersion }
  | _ => .error (.noted "Malformed request line")

/-- `rawLines` is the raw value, which the source joins with CRLF: what follows the
colon, and the continuation lines. -/
structure HeaderField where
  key : Text
  name : Text
  value : Text
  rawLines : List Text
deriving DecidableEq

def isContinuation (line : Text) : Bool :=
  match line with
  | [] => false
  | char :: _ => char = ' ' || char = '\t'

def HeaderField.fold (unicode : Unicode) (line : Text) (field : HeaderField) : HeaderField :=
  let continuation := unicode.strip line
  { field with
    value :=
      if continuation = [] then field.value
      else unicode.strip (field.value ++ ' ' :: continuation)
    rawLines := field.rawLines ++ [line] }

def addField (unicode : Unicode) (fields : List HeaderField) (line : Text) : List HeaderField :=
  match splitColon line with
  | none => fields
  | some (key, value) =>
    { key := key
      name := unicode.lower key
      value := unicode.strip value
      rawLines := [value] } :: fields

/-- `"\r" in raw or "\n" in raw`. -/
def HeaderField.hasLineBreak (field : HeaderField) : Bool :=
  decide (1 < field.rawLines.length) ||
    field.rawLines.any fun line => line.contains '\r' || line.contains '\n'

/-- A continuation line goes to the header before it, which stays the current one over
lines that are no headers. -/
def addHeaderLine (unicode : Unicode) (fields : List HeaderField) (line : Text) :
    List HeaderField :=
  match fields with
  | [] => addField unicode [] line
  | current :: earlier =>
    if isContinuation line = true then current.fold unicode line :: earlier
    else addField unicode (current :: earlier) line

def parseHeaderLines (unicode : Unicode) (lines : List Text) : List HeaderField :=
  lines.foldl (addHeaderLine unicode) []

structure HTTPRequest where
  requestLine : RequestLine
  fields : List HeaderField
  body : Bytes
  parseError : Option String
deriving DecidableEq

namespace HTTPRequest

def isValid (request : HTTPRequest) : Bool := request.parseError.isNone

/-- `headers.get(name)`: the last field of the name. -/
def header (request : HTTPRequest) (name : String) : Option Text :=
  (request.fields.find? fun field => field.name = name.toList).map HeaderField.value

def parseHead (unicode : Unicode) (url : UrlParse) (headerPart : Bytes) : HTTPRequest :=
  match (decode headerPart).map splitCrlf with
  | none | some [] =>
    { requestLine := .empty
      fields := []
      body := []
      parseError := some "Request parse error" }
  | some (line :: lines) =>
    match parseRequestLine unicode url line with
    | .ok requestLine =>
      { requestLine := requestLine
        fields := parseHeaderLines unicode lines
        body := []
        parseError := none }
    | .error (.noted parseError) =>
      { requestLine := .empty
        fields := parseHeaderLines unicode lines
        body := []
        parseError := some parseError }
    | .error .raised =>
      { requestLine := .empty
        fields := []
        body := []
        parseError := some "Request parse error" }

def parse (unicode : Unicode) (url : UrlParse) (rawData : Bytes) : HTTPRequest :=
  match FirstOccurrence.find [13, 10, 13, 10] rawData with
  | some headerEnd =>
    { parseHead unicode url (rawData.take headerEnd) with body := rawData.drop (headerEnd + 4) }
  | none => parseHead unicode url rawData

/-- `get_header_values` and `get_raw_header_values` read these fields, in wire order. -/
def fieldsNamed (request : HTTPRequest) (name : String) : List HeaderField :=
  (request.fields.filter fun field => field.name = name.toList).reverse

def headerValues (request : HTTPRequest) (name : String) : List Text :=
  (request.fieldsNamed name).map HeaderField.value

/-- `int(request.headers.get("content-length", 0))`, with `none` for `ValueError`. -/
def declaredLength (unicode : Unicode) (request : HTTPRequest) : Option Int :=
  match request.header "content-length" with
  | none => some 0
  | some value => unicode.int value

def isEncryptedTransferTarget (request : HTTPRequest) : Bool :=
  "/_xferry/encrypted-".toList.isPrefixOf request.requestLine.path

end HTTPRequest

structure PayloadSettings where
  maxUploadSize : Nat
  encryptedUploads : Bool

structure ErrorResponse where
  status : Nat
  message : String
  code : Option String
  field : Option String := none
deriving DecidableEq

/-- The encrypted routes have limits of their own. -/
def PayloadSettings.Checks (settings : PayloadSettings) (request : HTTPRequest) : Prop :=
  ¬ (settings.encryptedUploads = true ∧ request.isEncryptedTransferTarget = true)

instance (settings : PayloadSettings) (request : HTTPRequest) :
    Decidable (settings.Checks request) := by
  unfold PayloadSettings.Checks
  infer_instance

def checkPayloadSize (unicode : Unicode) (settings : PayloadSettings) (request : HTTPRequest) :
    Option ErrorResponse :=
  if settings.Checks request then
    match request.declaredLength unicode with
    | none => none
    | some contentLength =>
      if contentLength ≤ settings.maxUploadSize then none
      else
        some
          { status := 413
            message := "Payload too large. Max size: " ++
              toString (settings.maxUploadSize / (1024 * 1024)) ++ " MB"
            code := some "payload_too_large" }
  else none

end XFerry.Http
