/-
Strict multipart/form-data bodies.

How the headers of a part read is left to the standard library's parser.
-/

import XFerry.Lists
import XFerry.Python.Text

namespace XFerry.Http

open Python

/-- A `ValueError` where the source expects one, or an exception where it expects none. -/
inductive HeaderFault where
  | valueError
  | raised

/-- `isSound` means a structured header without defects. -/
structure ContentTypeHeader where
  isSound : Bool
  mediaType : Text
  boundary : Option Text

/-- `get_param`: nothing, text, or the triple of an extended parameter. -/
inductive HeaderParam where
  | missing
  | text (value : Text)
  | extended

/-- `declaresType` means a Content-Type that is not empty. -/
structure PartHeaders where
  defects : Bool
  contentDispositions : Nat
  contentTypes : Nat
  declaresType : Bool
  transferEncodings : List Text
  mediaType : Text
  disposition : Option Text
  fieldName : HeaderParam
  filename : HeaderParam

structure HeaderParser where
  contentType : Text → Except HeaderFault ContentTypeHeader
  partHeaders : Bytes → Except HeaderFault PartHeaders

structure MultipartPart where
  fieldName : Text
  filename : Option Text
  contentType : Text
  payload : Bytes
deriving DecidableEq

inductive MultipartFault where
  | multipartError (message : String)
  | raised
deriving DecidableEq

abbrev Multipart (α : Type) := Except MultipartFault α

def multipartError {α : Type} (message : String) : Multipart α := .error (.multipartError message)

def crlf : Bytes := [13, 10]

def hyphens : Bytes := [45, 45]

/-- `validate_multipart_part_headers`, with the encodings stripped and in lower case. -/
def validateMultipartPartHeaders (part : PartHeaders) : Multipart Unit :=
  if part.contentDispositions ≠ 1 then
    if part.contentDispositions ≠ 0 then multipartError "Duplicate multipart Content-Disposition"
    else multipartError "Multipart part is missing Content-Disposition"
  else if 1 < part.contentTypes then multipartError "Duplicate multipart Content-Type"
  else if 1 < part.transferEncodings.length then
    multipartError "Duplicate multipart Content-Transfer-Encoding"
  else if part.transferEncodings.all
      (fun encoding => encoding = "binary".toList || encoding = "8bit".toList) = false then
    multipartError "Unsupported Content-Transfer-Encoding"
  else .ok ()

def hasColon (line : Bytes) : Bool := line.contains 58

def isAsciiSpace (byte : UInt8) : Bool := byte = 32 || (9 ≤ byte && byte ≤ 13)

def isMalformedLine (line : Bytes) : Bool :=
  match line with
  | [] => true
  | first :: _ =>
    first = 32 || first = 9 || !hasColon line || (line.takeWhile (· ≠ 58)).all isAsciiSpace

/-- `split(b"\r\n")`. -/
def splitLines : Bytes → List Bytes
  | [] => [[]]
  | 13 :: 10 :: rest => [] :: splitLines rest
  | byte :: rest =>
    match splitLines rest with
    | [] => [[byte]]
    | line :: lines => (byte :: line) :: lines

def readPartHeaders (parser : HeaderParser) (rawHeaders : Bytes) : Multipart PartHeaders :=
  match parser.partHeaders (rawHeaders ++ crlf ++ crlf) with
  | .error .valueError => multipartError "Malformed multipart headers"
  | .error .raised => .error .raised
  | .ok part =>
    if part.defects = true then multipartError "Malformed multipart headers" else .ok part

def namedPart (part : PartHeaders) (payload : Bytes) : Multipart MultipartPart :=
  if "multipart/".toList.isPrefixOf part.mediaType = true then
    multipartError "Nested multipart parts are not supported"
  else if part.disposition ≠ some "form-data".toList then
    multipartError "Invalid multipart Content-Disposition"
  else
    match part.fieldName, part.filename with
    | .text (first :: name), .missing =>
      .ok
        { fieldName := first :: name
          filename := none
          contentType :=
            if part.declaresType = true then part.mediaType
            else "application/octet-stream".toList
          payload := payload }
    | .text (first :: name), .text filename =>
      .ok
        { fieldName := first :: name
          filename := some filename
          contentType :=
            if part.declaresType = true then part.mediaType
            else "application/octet-stream".toList
          payload := payload }
    | .text (_ :: _), .extended => multipartError "Invalid multipart filename"
    | _, _ => multipartError "Multipart part is missing a field name"

def parsePart (parser : HeaderParser) (partBlob : Bytes) : Multipart MultipartPart :=
  match FirstOccurrence.find (crlf ++ crlf) partBlob with
  | none => multipartError "Malformed multipart part"
  | some headerEnd =>
    if (splitLines (partBlob.take headerEnd)).any isMalformedLine = true then
      multipartError "Malformed multipart headers"
    else do
      let part ← readPartHeaders parser (partBlob.take headerEnd)
      validateMultipartPartHeaders part
      namedPart part (partBlob.drop (headerEnd + 4))

/-- `_next_delimiter`: the search goes on behind a marker that does not end its line;
`skip` is how much of that marker is left. -/
def nextDelimiter (marker : Bytes) : Nat → Bytes → Option Nat
  | _, [] => none
  | skip + 1, _ :: rest => (nextDelimiter marker skip rest).map (· + 1)
  | 0, byte :: rest =>
    if marker.isPrefixOf (byte :: rest) = true then
      let suffix := ((byte :: rest).drop marker.length).take 2
      if suffix = crlf ∨ suffix = hyphens then some 0
      else (nextDelimiter marker (marker.length - 1) rest).map (· + 1)
    else (nextDelimiter marker 0 rest).map (· + 1)

def parseParts (parser : HeaderParser) (delimiter : Bytes) (body : Bytes) :
    Multipart (List MultipartPart) :=
  if body.take 2 = hyphens then
    if body.drop 2 = [] ∨ body.drop 2 = crlf then .ok []
    else multipartError "Malformed multipart closing boundary"
  else if _starts : body.take 2 = crlf then
    match nextDelimiter (crlf ++ delimiter) 0 (body.drop 2) with
    | none => multipartError "Multipart closing boundary is required"
    | some partEnd => do
        let part ← parsePart parser ((body.drop 2).take partEnd)
        let parts ← parseParts parser delimiter (body.drop (2 + partEnd + 2 + delimiter.length))
        .ok (part :: parts)
  else multipartError "Malformed multipart boundary"
termination_by body.length
decreasing_by
  have taken := congrArg List.length _starts
  rw [List.length_take] at taken
  rw [List.length_drop]
  simp only [crlf, List.length_cons, List.length_nil] at taken
  omega

def isBoundaryChar (char : Char) : Bool :=
  decide (Between '0' '9' char) || decide (Between 'A' 'Z' char) || decide (Between 'a' 'z' char) ||
    "'()+_,./:=?- ".toList.contains char

/-- `_BOUNDARY_RE`, and no space at the end. -/
def isBoundary (boundary : Text) : Bool :=
  boundary.all isBoundaryChar && boundary.length ≤ 70 && boundary.getLast? ≠ some ' '

def contentTypeMessage (parser : HeaderParser) (contentType : Text) : Multipart ContentTypeHeader :=
  if contentType.any (fun char => 255 < char.toNat) = true then
    multipartError "Invalid multipart Content-Type"
  else
    match parser.contentType contentType with
    | .error .valueError => multipartError "Invalid multipart Content-Type"
    | .error .raised => .error .raised
    | .ok header =>
      if header.isSound = false ∨ header.mediaType ≠ "multipart/form-data".toList then
        multipartError "Invalid multipart Content-Type"
      else .ok header

def boundaryBytes (text : Text) : Bytes := text.map fun char => UInt8.ofNat char.toNat

def parseMultipartFormData (parser : HeaderParser) (contentType : Text) (body : Bytes) :
    Multipart (List MultipartPart) := do
  let header ← contentTypeMessage parser contentType
  match header.boundary with
  | none | some [] => multipartError "Multipart boundary is required"
  | some boundary =>
    if isBoundary boundary = false then multipartError "Invalid multipart boundary"
    else
      let delimiter := hyphens ++ boundaryBytes boundary
      if delimiter.isPrefixOf body = false then multipartError "Malformed multipart body"
      else parseParts parser delimiter (body.drop delimiter.length)

end XFerry.Http
