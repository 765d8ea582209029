/-
The request pipeline: what is decided about a request before a handler gets it.

A request is prepared while it is received, when its header block is complete, or the
pipeline does everything itself.  What a request has been through is kept with it.
-/

import XFerry.Server.Admission
import XFerry.Server.MethodPolicy

namespace XFerry.Server

open Python Http

structure XFerryServer where
  unicode : Unicode
  url : UrlParse
  authorities : Authorities
  admissionPolicy : RequestAdmissionPolicy
  corsOrigins : List Text
  payload : PayloadSettings
  registered : RegisteredMethods

inductive AuthenticationMode where
  | unchecked
  | disabled
  | basic (principal : Text)
deriving DecidableEq

inductive Verification where
  | verified (principal : Text)
  | failed
  | rateLimited

/-- A request and what has been found out about it.  `dispatch` is the prefix of the
Advanced session the request goes to.  `authentications` counts the successful ones, and
`originPolicyPassed` says that the browser-origin policy of mutations has been evaluated
and passed; the server has no need of them. -/
structure RequestState where
  request : HTTPRequest
  admission : Option RequestAdmissionContext
  authentication : AuthenticationMode
  authentications : Nat
  dispatch : Option Text
  dispatchPrepared : Bool
  originPolicyPassed : Bool
deriving DecidableEq

def RequestState.initial (request : HTTPRequest) : RequestState :=
  { request := request
    admission := none
    authentication := .unchecked
    authentications := 0
    dispatch := none
    dispatchPrepared := false
    originPolicyPassed := false }

/-- The peer of the connection, and what the rest of the server answers while the
request is handled.  `refusalTimesOut` says whether the send of a refusal times out while
the request is still being received. -/
structure Surroundings where
  peer : Text
  authenticator : Option (Option Text → Verification)
  resolveSession : Text → AuthenticationMode → Option Text
  isBulk : RequestState → Bool
  transferCapacity : Bool
  dispatchCapacity : Bool
  refusalTimesOut : Bool

inductive Refusal where
  | responded (response : ErrorResponse)
  | raised (message : String)
deriving DecidableEq

def refuse {α : Type} (status : Nat) (message : String) (code : String)
    (field : Option String := none) : Except Refusal α :=
  .error (.responded { status := status, message := message, code := some code, field := field })

def stageIf (condition : Bool) (stage : RequestState → Except Refusal RequestState)
    (state : RequestState) : Except Refusal RequestState :=
  if condition = true then stage state else .ok state

def RequestState.admissionContext (state : RequestState) : Except Refusal RequestAdmissionContext :=
  match state.admission with
  | none => .error (.raised "request has not passed trusted admission")
  | some admission => .ok admission

def sessionHeader : String := "x-xferry-advanced-session"

def sessionHeaderName : String := "X-XFerry-Advanced-Session"

def isSessionControlRoute (request : HTTPRequest) : Bool :=
  request.requestLine.rawTarget = "/_xferry/advanced-sessions".toList ||
    request.requestLine.rawTarget = "/_xferry/advanced-sessions/current".toList

def hasSessionHeader (request : HTTPRequest) : Bool := !(request.headerValues sessionHeader).isEmpty

def isWebsocketTarget (request : HTTPRequest) : Bool :=
  request.requestLine.method = "GET".toList && request.requestLine.rawTarget = "/notes/ws".toList &&
    request.requestLine.rawPath = "/notes/ws".toList

def isNoteTransport (request : HTTPRequest) : Bool :=
  request.requestLine.method = "NOTE".toList || isWebsocketTarget request

def isRequestId (text : Text) : Bool :=
  decide (1 ≤ text.length ∧ text.length ≤ 128) &&
    text.all fun char =>
      decide (Between 'A' 'Z' char) || decide (Between 'a' 'z' char) ||
        decide (Between '0' '9' char) || "._:-".toList.contains char

/-- What `_resolve_note_request_id` says of the client's identifier. -/
def hasInvalidRequestId (request : HTTPRequest) : Bool :=
  match request.headerValues "x-request-id" with
  | [] => false
  | [value] => !isRequestId value
  | _ => true

def isPresent (value : Option Text) : Bool := value.any fun text => !text.isEmpty

def isWebsocketUpgradeAttempt (state : RequestState) : Except Refusal Bool :=
  if isWebsocketTarget state.request = false then .ok false
  else do
    let admission ← state.admissionContext
    .ok (isPresent admission.upgrade || isPresent admission.connection ||
      isPresent admission.websocketKey || isPresent admission.websocketVersion ||
      isPresent admission.origin)

def upgradesToWebsocket (state : RequestState) : Except Refusal Bool :=
  if state.request.isEncryptedTransferTarget = true then .ok false
  else isWebsocketUpgradeAttempt state

namespace XFerryServer

variable (server : XFerryServer)

def isSameOriginFetchSite (fetchSite : Text) : Bool :=
  fetchSite = "same-origin".toList || fetchSite = "none".toList

def fetchSite (admission : RequestAdmissionContext) : Text :=
  server.unicode.lower (server.unicode.strip (admission.secFetchSite.getD []))

def isExplicitCorsOrigin (origin : Text) : Bool :=
  origin ≠ "*".toList && server.corsOrigins.contains origin

def isSameOrigin (admission : RequestAdmissionContext) (origin : Text) : Bool :=
  server.admissionPolicy.isSameOrigin server.authorities admission origin

/-- What `_is_browser_mutation_allowed` makes of a request that is protected. -/
def originAllowsMutation (admission : RequestAdmissionContext) : Bool :=
  let fetchSite := server.fetchSite admission
  if isPresent admission.origin = true then
    let origin := admission.origin.getD []
    if fetchSite ≠ [] ∧ isSameOriginFetchSite fetchSite = false then
      server.isExplicitCorsOrigin origin
    else server.isExplicitCorsOrigin origin || server.isSameOrigin admission origin
  else if fetchSite = [] then true
  else isSameOriginFetchSite fetchSite

def isBrowserProtectedMutation (state : RequestState) : Bool :=
  state.dispatch.isSome ||
    server.registered.tables.isProtected server.unicode state.request.requestLine.method

/-- `_is_browser_mutation_allowed`, and the refusal of what it does not allow. -/
def checkBrowserMutation (state : RequestState) : Except Refusal RequestState :=
  if server.isBrowserProtectedMutation state = false then .ok state
  else do
    let admission ← state.admissionContext
    if server.originAllowsMutation admission = true then
      .ok { state with originPolicyPassed := true }
    else refuse 403 "Forbidden cross-origin browser mutation" "forbidden"

def checkSameOriginOnly (admission : RequestAdmissionContext) : Except Refusal Unit :=
  if admission.origin.any (fun origin => !server.isSameOrigin admission origin) = true then
    refuse 403 "Forbidden origin" "forbidden_origin" (some "Origin")
  else if admission.secFetchSite.isSome = true ∧
      isSameOriginFetchSite (server.fetchSite admission) = false then
    refuse 403 "Forbidden origin" "forbidden_origin" (some "Sec-Fetch-Site")
  else .ok ()

def checkSessionPeer (env : Surroundings) (state : RequestState) (route : String) :
    Except Refusal Unit :=
  match state.authentication with
  | .unchecked => .error (.raised (route ++ " reached before authentication"))
  | .disabled =>
    if server.authorities.isLoopbackIp env.peer = true then .ok ()
    else refuse 403 "Forbidden peer" "forbidden_peer"
  | .basic _ => .ok ()

def authorizeEncryptedTransfer (state : RequestState) : Except Refusal Unit :=
  if server.payload.encryptedUploads = false ∨
      state.request.isEncryptedTransferTarget = false then .ok ()
  else do
    let admission ← state.admissionContext
    server.checkSameOriginOnly admission

def authorizeSessionControl (env : Surroundings) (state : RequestState) : Except Refusal Unit :=
  if isSessionControlRoute state.request = false then .ok ()
  else do
    server.checkSessionPeer env state "advanced session control"
    let admission ← state.admissionContext
    server.checkSameOriginOnly admission

def authorizeSessionData (env : Surroundings) (state : RequestState) : Except Refusal Unit := do
  server.checkSessionPeer env state "advanced session data"
  let admission ← state.admissionContext
  let fetchSite := server.fetchSite admission
  let crossSite := fetchSite ≠ [] ∧ isSameOriginFetchSite fetchSite = false
  match admission.origin with
  | some origin =>
    if crossSite then
      if server.isExplicitCorsOrigin origin = true then .ok ()
      else refuse 403 "Forbidden origin" "forbidden_origin" (some "Sec-Fetch-Site")
    else if server.isSameOrigin admission origin = true ∨
        server.isExplicitCorsOrigin origin = true then .ok ()
    else refuse 403 "Forbidden origin" "forbidden_origin" (some "Origin")
  | none =>
    if crossSite then refuse 403 "Forbidden origin" "forbidden_origin" (some "Sec-Fetch-Site")
    else .ok ()

def advancedUploadMethods : List Text := ["POST", "PUT", "PATCH", "NONE"].map String.toList

def isSessionToken (text : Text) : Bool :=
  decide (text.length = 43) &&
    text.all fun char =>
      decide (Between 'A' 'Z' char) || decide (Between 'a' 'z' char) ||
        decide (Between '0' '9' char) || char = '_' || char = '-'

/-- `_is_exact_session_header_value`: at most one space before the value. -/
def isExactSessionValue (field : HeaderField) : Bool :=
  !field.hasLineBreak &&
    (match field.rawLines with
      | [' ' :: raw] => raw = field.value
      | [raw] => raw = field.value
      | _ => false)

/-- `_advanced_session_header_token` of a request that has the header. -/
def sessionToken (request : HTTPRequest) : Except Refusal Text :=
  match request.fieldsNamed sessionHeader with
  | [] => refuse 400 "Missing field" "missing_field" (some sessionHeaderName)
  | [field] =>
    if isExactSessionValue field = true ∧ isSessionToken field.value = true then .ok field.value
    else refuse 400 "Invalid field" "invalid_field" (some sessionHeaderName)
  | _ => refuse 400 "Invalid field" "invalid_field" (some sessionHeaderName)

def isReserved (path : Text) : Bool :=
  path = "/_xferry".toList || "/_xferry/".toList.isPrefixOf path

def sessionPrefixMatches (base : Text) (request : HTTPRequest) : Bool :=
  let rawPath := request.requestLine.rawPath
  let path := request.requestLine.path
  "/".toList.isPrefixOf rawPath && "/".toList.isPrefixOf path && !isReserved rawPath &&
    !isReserved path &&
    (base = "/".toList || rawPath = base || (base ++ "/".toList).isPrefixOf rawPath)

def conflictsWithSession (method : Text) : Bool :=
  (server.registered.tables.policies.lookup (upper method)).isSome ||
    ((server.registered.tables.getHandler (upper method)).isSome &&
      !advancedUploadMethods.contains (upper method))

def prepareSessionDispatch (env : Surroundings) (state : RequestState) :
    Except Refusal RequestState :=
  if isSessionControlRoute state.request = true then .ok { state with dispatchPrepared := true }
  else if hasSessionHeader state.request = false then
    .ok { state with dispatch := none, dispatchPrepared := true }
  else do
    server.authorizeSessionData env state
    let token ← sessionToken state.request
    match env.resolveSession token state.authentication with
    | none =>
      refuse 404 "Advanced session not found" "advanced_session_not_found" (some sessionHeaderName)
    | some base =>
      if sessionPrefixMatches base state.request = false then
        refuse 409 "Advanced route mismatch" "advanced_route_mismatch" (some "prefix")
      else if server.conflictsWithSession state.request.requestLine.method = true then
        refuse 409 "Advanced method conflict" "advanced_method_conflict"
      else .ok { state with dispatch := some base, dispatchPrepared := true }

end XFerryServer

inductive SelectedHandler where
  | encryptedTransfer
  | sessionControl
  | advancedUpload
  | method (handler : MethodHandler)

def SelectedHandler.mutating : SelectedHandler → Bool
  | .encryptedTransfer => false
  | .sessionControl => false
  | .advancedUpload => true
  | .method handler => handler.mutating

inductive Served where
  | invoked (handler : SelectedHandler) (state : RequestState)
  | methodNotAllowed (state : RequestState)
  | upgraded (state : RequestState)

namespace XFerryServer

variable (server : XFerryServer) (env : Surroundings)

def selectHandler (state : RequestState) : Served :=
  if state.dispatch.isSome = true then .invoked .advancedUpload state
  else
    match server.registered.tables.getHandler state.request.requestLine.method with
    | some handler => .invoked (.method handler) state
    | none => .methodNotAllowed state

def dispatchHandler (state : RequestState) : Except Refusal Served :=
  if state.request.isValid = false then refuse 400 "Bad Request" "bad_request"
  else if state.request.isEncryptedTransferTarget = true then
    .ok (.invoked .encryptedTransfer state)
  else if isSessionControlRoute state.request = true then .ok (.invoked .sessionControl state)
  else do
    let unprepared := hasSessionHeader state.request && !state.dispatchPrepared
    let state ← stageIf unprepared (server.prepareSessionDispatch env) state
    .ok (server.selectHandler state)

def computeResponse (transferAdmitted : Bool) (state : RequestState) : Except Refusal Served :=
  if transferAdmitted = false ∧ env.dispatchCapacity = false then
    refuse 503 "Server busy" "server_busy"
  else server.dispatchHandler env state

def readRequest (data : Bytes) : Except Refusal RequestState :=
  let request := HTTPRequest.parse server.unicode server.url data
  if request.isValid = false then refuse 400 "Bad Request" "malformed_request"
  else .ok (.initial request)

def admitRequest (state : RequestState) : Except Refusal RequestState :=
  match server.admissionPolicy.admitRequest server.unicode server.authorities state.request with
  | .error failure => .error (.responded failure)
  | .ok admission => .ok { state with admission := some admission }

def authenticateRequest (state : RequestState) : Except Refusal RequestState :=
  match env.authenticator with
  | none =>
    .ok
      { state with
        authentication := .disabled
        authentications := state.authentications + 1 }
  | some verify => do
      let admission ← state.admissionContext
      match verify admission.authorization with
      | .rateLimited => refuse 429 "Too Many Requests" "rate_limited" (some "Authorization")
      | .failed => refuse 401 "Unauthorized" "authentication_required" (some "Authorization")
      | .verified principal =>
        .ok
          { state with
            authentication := .basic principal
            authentications := state.authentications + 1 }

/-- The checks of the request, its host and its credentials, which preparation and the
pipeline make in the same order. -/
def clearRequest (data : Bytes) : Except Refusal RequestState := do
  let state ← server.readRequest data
  let state ← server.admitRequest state
  authenticateRequest env state

def prepareRequestHeaders (headers : Bytes) : Except Refusal RequestState := do
  let state ← server.clearRequest env headers
  if state.request.isEncryptedTransferTarget = true then
    server.authorizeEncryptedTransfer state
    .ok state
  else if isSessionControlRoute state.request = true then
    server.authorizeSessionControl env state
    .ok state
  else server.prepareSessionDispatch env state

/-- The request as its preparation leaves it, whatever that answers. -/
def stateLeft (headers : Bytes) : RequestState :=
  match server.readRequest headers with
  | .error _ => .initial (HTTPRequest.parse server.unicode server.url headers)
  | .ok start =>
    match server.admitRequest start with
    | .error _ => start
    | .ok admitted =>
      match authenticateRequest env admitted with
      | .error _ => admitted
      | .ok authenticated =>
        if authenticated.request.isEncryptedTransferTarget = true then authenticated
        else if isSessionControlRoute authenticated.request = true then authenticated
        else
          match server.prepareSessionDispatch env authenticated with
          | .error _ => { authenticated with dispatchPrepared := true }
          | .ok prepared => prepared

/-- What follows authentication.  The encrypted routes skip the checks of the others, and
the session routes go to their handler at once. -/
def processAuthenticated (transferAdmitted : Bool) (state : RequestState) :
    Except Refusal Served := do
  let encrypted := state.request.isEncryptedTransferTarget
  let control := isSessionControlRoute state.request
  server.authorizeEncryptedTransfer state
  if control = true ∧ encrypted = false then
    server.authorizeSessionControl env state
    server.computeResponse env transferAdmitted state
  else
    let state ← stageIf (!encrypted && !state.dispatchPrepared)
      (server.prepareSessionDispatch env) state
    if control = false ∧ isNoteTransport state.request = true ∧
        hasInvalidRequestId state.request = true then
      refuse 400 "Invalid field" "invalid_field" (some "X-Request-Id")
    else
      let upgrades ← upgradesToWebsocket state
      if upgrades = true then .ok (.upgraded state)
      else
        let state ← stageIf (!encrypted) server.checkBrowserMutation state
        match checkPayloadSize server.unicode server.payload state.request with
        | some response => .error (.responded response)
        | none => server.computeResponse env transferAdmitted state

def bodyOf (data : Bytes) : Bytes :=
  match FirstOccurrence.find [13, 10, 13, 10] data with
  | some headerEnd => data.drop (headerEnd + 4)
  | none => []

/-- `process`. -/
def processRequest (prepared : Option RequestState) (transferAdmitted : Bool) (data : Bytes) :
    Except Refusal Served :=
  match prepared with
  | some state => do
      let state := { state with request := { state.request with body := bodyOf data } }
      if state.request.isValid = false then refuse 400 "Bad Request" "malformed_request"
      else
        let _ ← state.admissionContext
        server.processAuthenticated env transferAdmitted state
  | none => do
      let state ← server.clearRequest env data
      server.processAuthenticated env transferAdmitted state

end XFerryServer

/-- What the receiver has: the header block and what it has read behind it, or a header
block that was never completed, of which nothing has been prepared. -/
inductive Received where
  | complete (headers body : Bytes)
  | unprepared (data : Bytes)

namespace XFerryServer

variable (server : XFerryServer) (env : Surroundings)

/-- What `admit_headers` makes of a request before it sends a refusal: the prepared request
and whether it has a lease. -/
def prepareLeased (headers : Bytes) : Except Refusal (RequestState × Bool) := do
  let state ← server.prepareRequestHeaders env headers
  if env.isBulk state = true then
    if env.transferCapacity = true then .ok (state, true)
    else refuse 503 "Transfer capacity exhausted" "server_busy"
  else .ok (state, false)

/-- One request of `_handle_client`.  The receiver takes a refusal whose send times out for
a timeout of its own, and what it has read is processed with the refused request. -/
def handleRequest : Received → Except Refusal Served
  | .complete headers body =>
    match server.prepareLeased env headers with
    | .ok (state, leased) =>
      server.processRequest env (some state) leased (headers ++ body)
    | .error (.raised message) => .error (.raised message)
    | .error (.responded response) =>
      if env.refusalTimesOut = true then
        let state := server.stateLeft env headers
        server.processRequest env (some state) false (headers ++ body)
      else .error (.responded response)
  | .unprepared data => server.processRequest env none false data

end XFerryServer

end XFerry.Server
