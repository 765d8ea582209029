/-
Responses as the handlers build them.

What a response streams after its headers is a parameter.
-/

import XFerry.Ensures
import XFerry.Json.Dumps

namespace XFerry.Http

open Python Json

inductive PythonException where
  | valueError
  | recursionError
  | unicodeEncodeError
  | overflowError
deriving DecidableEq, Repr

structure HTTPResponse (Stream : Type) where
  statusCode : Nat
  headers : List (Text × Str)
  body : Bytes
  stream : Option Stream

variable {Stream : Type}

namespace HTTPResponse

def ofStatus (statusCode : Nat) : HTTPResponse Stream :=
  { statusCode := statusCode, headers := [], body := [], stream := none }

/-- `headers[key] = value`. -/
def assign (key : Text) (value : Str) : List (Text × Str) → List (Text × Str)
  | [] => [(key, value)]
  | entry :: rest =>
    if entry.1 = key then (key, value) :: rest else entry :: assign key value rest

def setHeader (response : HTTPResponse Stream) (key : String) (value : Str) : HTTPResponse Stream :=
  { response with headers := assign key.toList value response.headers }

def setBody (response : HTTPResponse Stream) (body : Bytes) (contentType : Str) :
    HTTPResponse Stream :=
  ({ response with body := body, stream := none }.setHeader "Content-Type" contentType).setHeader
    "Content-Length" (str (Nat.toDigits 10 body.length))

/-- What `set_file` and `set_iterator` have in common. -/
def setStream (response : HTTPResponse Stream) (stream : Stream) (contentType : Str)
    (contentLength : Nat) : HTTPResponse Stream :=
  ({ response with body := [], stream := some stream }.setHeader "Content-Type"
    contentType).setHeader "Content-Length" (str (Nat.toDigits 10 contentLength))

def setIterator (response : HTTPResponse Stream) (stream : Stream) (contentType : Str)
    (contentLength : Int) : Except PythonException (HTTPResponse Stream) :=
  if contentLength < 0 then .error .valueError
  else .ok (response.setStream stream contentType contentLength.toNat)

end HTTPResponse

def jsonResponse (payload : Payload) (status : Nat) (noStore : Bool) :
    Except PythonException (HTTPResponse Stream) :=
  match encode (dumps payload) with
  | none => .error .unicodeEncodeError
  | some body =>
    let response := (HTTPResponse.ofStatus status).setBody body (str "application/json".toList)
    .ok (if noStore = true then response.setHeader "Cache-Control" (str "no-store".toList)
      else response)

/-- The characters of an error code, after one that is no underscore or after one that is. -/
def isErrorCodeFrom (afterUnderscore : Bool) : Text → Bool
  | [] => !afterUnderscore
  | char :: rest =>
    if char = '_' then !afterUnderscore && isErrorCodeFrom true rest
    else decide (Between 'a' 'z' char ∨ Between '0' '9' char) && isErrorCodeFrom false rest

/-- `_ERROR_CODE_RE`. -/
def isErrorCode : Text → Bool
  | [] => false
  | first :: rest => decide (Between 'a' 'z' first) && isErrorCodeFrom false rest

def errorPayload (code : String) (message : Str) (field : Option Str)
    (details : List (String × Payload)) : Payload :=
  .ofMembers
    [("error", .ofMembers
      [("code", .ofText code.toList), ("message", .string message),
        ("field", field.elim .null .string), ("details", .ofMembers details)])]

def errorResponse (status : Nat) (code : String) (message : Str) (field : Option Str)
    (details : List (String × Payload)) (noStore : Bool) :
    Except PythonException (HTTPResponse Stream) :=
  if isErrorCode code.toList = false then .error .valueError
  else if message = [] then .error .valueError
  else jsonResponse (errorPayload code message field details) status noStore

theorem jsonResponse_succeeds {payload : Payload} {status : Nat} {noStore : Bool} :
    Succeeds (jsonResponse payload status noStore :
      Except PythonException (HTTPResponse Stream)) ↔ payload.HasEncoding := by
  rw [← dumps_hasEncoding, hasEncoding_iff]
  unfold jsonResponse
  cases encode (dumps payload) with
  | none => exact iff_of_false (Succeeds.not_error _) Bool.false_ne_true
  | some body => exact iff_of_true (Succeeds.ok _) rfl

structure IsErrorText (code : String) (message : Str) : Prop where
  code : isErrorCode code.toList = true
  message : message ≠ []

theorem errorResponse_eq {code : String} {message : Str} (text : IsErrorText code message)
    (status : Nat) (field : Option Str) (details : List (String × Payload)) (noStore : Bool) :
    (errorResponse status code message field details noStore :
      Except PythonException (HTTPResponse Stream)) =
        jsonResponse (errorPayload code message field details) status noStore := by
  rw [errorResponse, if_neg (by simp [text.code]), if_neg text.message]

theorem errorPayload_hasEncoding {code : String} {message : Str} {field : Option Str}
    {details : List (String × Payload)} :
    (errorPayload code message field details).HasEncoding ↔
      HasEncoding message ∧ (∀ name ∈ field, HasEncoding name) ∧
        ∀ detail ∈ details, detail.2.HasEncoding := by
  simp only [errorPayload, hasEncoding_ofMembers, List.forall_mem_singleton, List.forall_mem_cons]
  cases field with
  | none | some => simp [Payload.HasEncoding, Payload.ofText, hasEncoding_str]

end XFerry.Http
