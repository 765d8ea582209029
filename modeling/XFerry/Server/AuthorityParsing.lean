/-
Hosts and authorities: the forms that configuration, Host headers and Origin headers
are compared in.

What `ipaddress`, the IDNA codec, `urlsplit` and the Unicode tables answer is a
parameter.
-/

import XFerry.Server.Admission

namespace XFerry.Server

open Python Http

inductive IpVersion where
  | v4
  | v6
deriving DecidableEq

structure IpAddress where
  version : IpVersion
  compressed : Text
  isUnspecified : Bool
  isLoopback : Bool
deriving DecidableEq

/-- `urlsplit`, as far as the source reads it; the netloc tells of a user. -/
structure SplitUrl where
  scheme : Text
  netloc : Text
  path : Text
  query : Text
  fragment : Text

/-- Answers of the standard library, with `none` for `ValueError`, of which
`UnicodeError` is one. -/
structure HostLibrary where
  unicode : Unicode
  isDigit : Char → Bool
  nfc : Text → Text
  idnaEncode : Text → Option Text
  idnaDecode : Text → Option Text
  ipAddress : Text → Option IpAddress
  urlsplit : Text → Option SplitUrl

def isAsciiText (text : Text) : Bool := text.all fun char => decide (IsAscii char)

/-- `_INVALID_AUTHORITY_CHAR_RE`. -/
def isInvalidAuthorityChar (char : Char) : Bool :=
  char.toNat ≤ 0x20 || char.toNat = 0x7F || ",@/\\?#*".toList.contains char

/-- `_DNS_HOST_RE`. -/
def isDnsChar (char : Char) : Bool :=
  decide (Between 'a' 'z' char) || decide (Between '0' '9' char) || char = '.' || char = '-'

namespace HostLibrary

variable (library : HostLibrary)

/-- `text.replace(".", "").isdigit()`. -/
def isDigitsAndDots (text : Text) : Bool :=
  let digits := text.filter (· ≠ '.')
  digits ≠ [] && digits.all library.isDigit

def isDnsLabel (label : Text) : Bool :=
  label ≠ [] && label.length ≤ 63 && label.head? ≠ some '-' && label.getLast? ≠ some '-'

def isDnsName (name : Text) : Bool :=
  name ≠ [] && name.length ≤ 253 && name.all isDnsChar && (name.splitOn '.').all isDnsLabel

def roundTrips (source normalized : Text) : Bool :=
  isAsciiText source ||
    (library.idnaDecode normalized).map
      (fun decoded => library.nfc (library.unicode.lower decoded)) = some source

def normalizeDnsHost (value : Text) : Option Text :=
  let candidate := if value.getLast? = some '.' then value.dropLast else value
  if candidate = [] ∨ candidate.getLast? = some '.' then none
  else
    let source := library.nfc (library.unicode.lower candidate)
    if isAsciiText candidate = false ∧ isAsciiText source = true then none
    else
      match library.idnaEncode source with
      | none => none
      | some encoded =>
        let normalized := library.unicode.lower encoded
        if library.roundTrips source normalized = true ∧ isDnsName normalized = true then
          some normalized
        else none

/-- The message `invalid {field}: {value!r}`. -/
structure InvalidHost where
  field : String
  value : Text

def countOf (char : Char) (text : Text) : Nat := text.count char

def unbracketed (candidate : Text) : Option Text :=
  if candidate.head? = some '[' then
    if candidate.getLast? ≠ some ']' ∨ countOf '[' candidate ≠ 1 ∨ countOf ']' candidate ≠ 1 then
      none
    else some (candidate.drop 1).dropLast
  else some candidate

def canonicalConfigHost (value : Text) (field : String) (allowWildcard : Bool) :
    Except InvalidHost Text :=
  let invalid := Except.error { field := field, value := value }
  let stripped := library.unicode.strip value
  if stripped = [] ∨ stripped.any isInvalidAuthorityChar = true then invalid
  else
    match unbracketed stripped with
    | none => invalid
    | some candidate =>
      match library.ipAddress candidate with
      | some address =>
        if allowWildcard = false ∧ address.isUnspecified = true then invalid
        else .ok address.compressed
      | none =>
        if candidate.contains ':' = true ∨ "..".toList.isSuffixOf candidate = true then invalid
        else if library.isDigitsAndDots candidate = true then invalid
        else
          match library.normalizeDnsHost candidate with
          | none => invalid
          | some host => .ok host

/-- `_normalize_allowed_hosts`, with the hosts that are new so far. -/
def normalizeAllowedHostsFrom (normalized : List Text) : List Text → Except InvalidHost (List Text)
  | [] => .ok normalized
  | value :: rest =>
    if library.unicode.strip value = [] then normalizeAllowedHostsFrom normalized rest
    else do
      let host ← library.canonicalConfigHost value "allowed host" false
      normalizeAllowedHostsFrom
        (if normalized.contains host = true then normalized else normalized ++ [host]) rest

def normalizeAllowedHosts (values : List Text) : Except InvalidHost (List Text) :=
  library.normalizeAllowedHostsFrom [] values

def portOf (portText : Text) : Option Nat :=
  if portText ≠ [] ∧ portText.all (fun char => decide (Between '0' '9' char)) = true ∧
      portText.length ≤ maxStrDigits then
    let port := ofDigits (portText.map fun char => char.toNat - '0'.toNat)
    if 1 ≤ port ∧ port ≤ 65535 then some port else none
  else none

def withPort (host : Text) : Option Text → Option RequestAuthority
  | none => some { host := host, port := none }
  | some portText => (portOf portText).map fun port => { host := host, port := some port }

def parseBracketed (value : Text) : Option RequestAuthority :=
  if value.contains ']' = false ∨ countOf '[' value ≠ 1 ∨ countOf ']' value ≠ 1 then none
  else
    let literal := (value.drop 1).takeWhile (· ≠ ']')
    let suffix := (value.dropWhile (· ≠ ']')).drop 1
    if suffix ≠ [] ∧ suffix.head? ≠ some ':' then none
    else
      match library.ipAddress literal with
      | none => none
      | some address =>
        if address.version ≠ .v6 then none
        else withPort address.compressed (if suffix = [] then none else some (suffix.drop 1))

def parseNamed (value : Text) : Option RequestAuthority :=
  if value.contains '[' = true ∨ value.contains ']' = true ∨ 1 < countOf ':' value then none
  else
    let hostText := value.takeWhile (· ≠ ':')
    let portText :=
      if value.contains ':' = true then some ((value.dropWhile (· ≠ ':')).drop 1) else none
    if hostText = [] then none
    else
      match library.ipAddress hostText with
      | some address =>
        if address.version ≠ .v4 then none else withPort address.compressed portText
      | none =>
        if library.isDigitsAndDots hostText = true ∨ "..".toList.isSuffixOf hostText = true then
          none
        else
          match library.normalizeDnsHost hostText with
          | none => none
          | some host => withPort host portText

def parseRequestAuthority (value : Text) : Option RequestAuthority :=
  if value = [] ∨ value ≠ library.unicode.strip value ∨
      value.any isInvalidAuthorityChar = true then none
  else if value.head? = some '[' then library.parseBracketed value
  else library.parseNamed value

def isLossyOriginChar (char : Char) : Bool :=
  char = '?' || char = '#' || char.toNat < 0x20 || char.toNat = 0x7F || library.unicode.isSpace char

def parseHttpOrigin (value : Text) : Option (Text × RequestAuthority) :=
  if value = [] ∨ value.any library.isLossyOriginChar = true then none
  else
    match library.urlsplit value with
    | none => none
    | some parsed =>
      if (parsed.scheme ≠ "http".toList ∧ parsed.scheme ≠ "https".toList) ∨
          parsed.netloc = [] ∨ parsed.netloc.contains '@' = true ∨
          (parsed.path ≠ [] ∧ parsed.path ≠ ['/']) ∨ parsed.query ≠ [] ∨
          parsed.fragment ≠ [] then none
      else
        (library.parseRequestAuthority parsed.netloc).map fun authority =>
          (parsed.scheme, authority)

def isLoopbackIp (host : Text) : Bool :=
  match library.ipAddress host with
  | none => false
  | some address => address.isLoopback

def isUnspecifiedHost (value : Text) : Bool :=
  let stripped := library.unicode.strip value
  let candidate :=
    if stripped.head? = some '[' ∧ stripped.getLast? = some ']' then (stripped.drop 1).dropLast
    else stripped
  match library.ipAddress candidate with
  | none => false
  | some address => address.isUnspecified

def authorities : Authorities :=
  { parseRequestAuthority := library.parseRequestAuthority
    parseHttpOrigin := library.parseHttpOrigin
    isLoopbackIp := library.isLoopbackIp }

end HostLibrary

structure RequestAdmissionConfig where
  bindHost : Text
  serverPort : Int
  tlsEnabled : Bool
  allowedHosts : List Text
  certificateDomain : Option Text

inductive AdmissionConfigError where
  | invalidPort
  | invalidHost (error : HostLibrary.InvalidHost)
  | certificateNotAllowed

namespace HostLibrary

variable (library : HostLibrary)

def configured {α : Type} (host : Except InvalidHost α) : Except AdmissionConfigError α :=
  host.mapError .invalidHost

/-- Whether requests that name the machine itself are taken, for want of configured hosts. -/
def bindsLoopback (bindHost : Text) : Bool :=
  library.isUnspecifiedHost bindHost || bindHost = "localhost".toList ||
    library.isLoopbackIp bindHost

def withCertificate (configuredHosts hosts : List Text) :
    Option Text → Except AdmissionConfigError (List Text)
  | none | some [] => .ok hosts
  | some domain => do
      let certificateHost ←
        configured (library.canonicalConfigHost domain "certificate domain" false)
      if configuredHosts ≠ [] then
        if hosts.contains certificateHost = true then .ok hosts else .error .certificateNotAllowed
      else .ok (hosts ++ [certificateHost])

/-- `RequestAdmissionPolicy.from_config`. -/
def policyOf (config : RequestAdmissionConfig) :
    Except AdmissionConfigError RequestAdmissionPolicy :=
  if config.serverPort < 1 ∨ 65535 < config.serverPort then .error .invalidPort
  else do
    let configuredHosts ← configured (library.normalizeAllowedHosts config.allowedHosts)
    let bindHost ← configured (library.canonicalConfigHost config.bindHost "bind host" true)
    let allowLoopback := decide (configuredHosts = []) && library.bindsLoopback bindHost
    let hosts :=
      if configuredHosts = [] ∧ library.bindsLoopback bindHost = false then [bindHost]
      else configuredHosts
    let allowedHosts ← library.withCertificate configuredHosts hosts config.certificateDomain
    .ok
      { scheme := if config.tlsEnabled = true then "https".toList else "http".toList
        allowedHosts := allowedHosts
        allowLoopback := allowLoopback }

end HostLibrary

end XFerry.Server
