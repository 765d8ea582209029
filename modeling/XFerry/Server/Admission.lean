/-
Admission of a request: one value for each field that is trusted later, and a host
the server answers for.

Reading an authority is left to `ipaddress`, `idna` and `urllib.parse`.
-/

import XFerry.Http.Request

namespace XFerry.Server

open Python Http

structure RequestAuthority where
  host : Text
  port : Option Nat
deriving DecidableEq

/-- `_parse_request_authority` and `parse_http_origin`, with `none` for `ValueError`;
and `_is_loopback_ip`. -/
structure Authorities where
  parseRequestAuthority : Text → Option RequestAuthority
  parseHttpOrigin : Text → Option (Text × RequestAuthority)
  isLoopbackIp : Text → Bool

def RequestAuthority.effectivePort (authority : RequestAuthority) (scheme : Text) : Nat :=
  match authority.port with
  | some port => port
  | none => if scheme = "https".toList then 443 else 80

structure RequestAdmissionContext where
  authority : Option RequestAuthority
  authorization : Option Text
  origin : Option Text
  secFetchSite : Option Text
  connection : Option Text
  upgrade : Option Text
  websocketKey : Option Text
  websocketVersion : Option Text
deriving DecidableEq

structure RequestAdmissionPolicy where
  scheme : Text
  allowedHosts : List Text
  allowLoopback : Bool

def protectedFields : List (String × String) :=
  [ ("Host", "host"),
    ("Authorization", "authorization"),
    ("Origin", "origin"),
    ("Sec-Fetch-Site", "sec-fetch-site"),
    ("Connection", "connection"),
    ("Upgrade", "upgrade"),
    ("Sec-WebSocket-Key", "sec-websocket-key"),
    ("Sec-WebSocket-Version", "sec-websocket-version"),
    ("Access-Control-Request-Method", "access-control-request-method"),
    ("Access-Control-Request-Headers", "access-control-request-headers") ]

def invalidHeader (field : String) : ErrorResponse :=
  { status := 400
    message := "Invalid " ++ field ++ " header"
    code := some "invalid_header"
    field := some field }

def misdirectedRequest : ErrorResponse :=
  { status := 421
    message := "Misdirected Request"
    code := some "misdirected_request"
    field := some "Host" }

def paddedProtectedField (unicode : Unicode) (field : HeaderField) : Option String :=
  let normalized := unicode.lower (unicode.strip field.key)
  if unicode.lower field.key = normalized then none
  else
    (protectedFields.find? fun protectedField => protectedField.2.toList = normalized).map Prod.fst

def isAmbiguous (request : HTTPRequest) (name : String) : Bool :=
  decide (1 < (request.headerValues name).length) ||
    (request.fieldsNamed name).any HeaderField.hasLineBreak

namespace RequestAdmissionPolicy

variable (unicode : Unicode) (authorities : Authorities) (policy : RequestAdmissionPolicy)

def hostIsAllowed (host : Text) : Bool :=
  policy.allowedHosts.contains host ||
    (policy.allowLoopback && (host = "localhost".toList || authorities.isLoopbackIp host))

def admitAuthority (request : HTTPRequest) : Except ErrorResponse (Option RequestAuthority) :=
  match request.headerValues "host" with
  | [] =>
    if request.requestLine.httpVersion ≠ "HTTP/1.0".toList then .error (invalidHeader "Host")
    else .ok none
  | host :: _ =>
    match authorities.parseRequestAuthority host with
    | none => .error (invalidHeader "Host")
    | some authority =>
      if policy.hostIsAllowed authorities authority.host = true then .ok (some authority)
      else .error misdirectedRequest

/-- `admit`.  The two fields of a preflight request are checked and not kept. -/
def admitRequest (request : HTTPRequest) : Except ErrorResponse RequestAdmissionContext :=
  match request.fields.reverse.findSome? (paddedProtectedField unicode) with
  | some field => .error (invalidHeader field)
  | none =>
    match protectedFields.find? fun protectedField =>
        isAmbiguous request protectedField.2 with
    | some protectedField => .error (invalidHeader protectedField.1)
    | none =>
      match policy.admitAuthority authorities request with
      | .error failure => .error failure
      | .ok authority =>
        let single name := (request.headerValues name).head?
        .ok
          { authority := authority
            authorization := single "authorization"
            origin := single "origin"
            secFetchSite := single "sec-fetch-site"
            connection := single "connection"
            upgrade := single "upgrade"
            websocketKey := single "sec-websocket-key"
            websocketVersion := single "sec-websocket-version" }

def isSameOrigin (admission : RequestAdmissionContext) (origin : Text) : Bool :=
  match admission.authority, authorities.parseHttpOrigin origin with
  | some authority, some (scheme, originAuthority) =>
    scheme = policy.scheme && originAuthority.host = authority.host &&
      originAuthority.effectivePort scheme = authority.effectivePort policy.scheme
  | _, _ => false

end RequestAdmissionPolicy

end XFerry.Server
