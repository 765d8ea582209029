/-
What a request has been through when a handler gets it.

Every handler is behind the checks of the request, the host and the credentials, unless
the send of a refusal times out while the request is received.  The check of browser
origins is behind a lookup of the method, and stands in front of every mutating handler
only where that lookup and the dispatch agree.
-/

import XFerry.Ensures
import XFerry.Server.Pipeline

namespace XFerry.Server

open Python Http XFerryServer HTTPRequest

structure RequestState.Cleared (server : XFerryServer) (state : RequestState) : Prop where
  valid : state.request.isValid = true
  admitted : ∃ admission, state.admission = some admission ∧
    server.admissionPolicy.admitRequest server.unicode server.authorities state.request =
      .ok admission
  authenticatedOnce : state.authentications = 1

/-- A handler gets cleared requests only, and a mutating one those that passed the
browser-origin policy. -/
def Served.Gated (server : XFerryServer) : Served → Prop
  | .invoked handler state =>
    state.Cleared server ∧ (handler.mutating = true → state.originPolicyPassed = true)
  | .methodNotAllowed _ => True
  | .upgraded _ => True

variable {server : XFerryServer} {env : Surroundings} {state : RequestState}

theorem readRequest_ensures (data : Bytes) :
    Ensures (server.readRequest data) fun next =>
      next = .initial (parse server.unicode server.url data) ∧ next.request.isValid = true := by
  apply Ensures.ite
  · intro _
    exact .error _
  · intro valid
    exact .ok ⟨rfl, (Bool.not_eq_false _).mp valid⟩

theorem admitRequest_ensures :
    Ensures (server.admitRequest state) fun next => ∃ admission,
      server.admissionPolicy.admitRequest server.unicode server.authorities state.request =
          .ok admission ∧
        next = { state with admission := some admission } := by
  intro next admitted
  unfold admitRequest at admitted
  split at admitted
  · cases admitted
  rename_i admission accepted
  cases admitted
  exact ⟨admission, accepted, rfl⟩

theorem authenticateRequest_ensures :
    Ensures (authenticateRequest env state) fun next => ∃ mode,
      next =
        { state with authentication := mode, authentications := state.authentications + 1 } := by
  unfold authenticateRequest
  cases env.authenticator with
  | none => exact .ok ⟨_, rfl⟩
  | some verify =>
    apply Ensures.andThen
    intro admission
    cases verify admission.authorization with
    | verified principal => exact .ok ⟨_, rfl⟩
    | failed | rateLimited => exact .error _

theorem prepareSessionDispatch_ensures :
    Ensures (server.prepareSessionDispatch env state) fun next => ∃ dispatch,
      next = { state with dispatch := dispatch, dispatchPrepared := true } := by
  apply Ensures.ite
  · intro _
    exact .ok ⟨state.dispatch, rfl⟩
  · intro _
    apply Ensures.ite
    · intro _
      exact .ok ⟨none, rfl⟩
    · intro _
      apply Ensures.andThen
      intro _
      apply Ensures.andThen
      intro token
      cases env.resolveSession token state.authentication with
      | none => exact .error _
      | some base =>
        apply Ensures.ite
        · intro _
          exact .error _
        · intro _
          apply Ensures.ite
          · intro _
            exact .error _
          · intro _
            exact .ok ⟨some base, rfl⟩

theorem checkBrowserMutation_ensures :
    Ensures (server.checkBrowserMutation state) fun next =>
      (∃ passed, next = { state with originPolicyPassed := passed }) ∧
        (server.isBrowserProtectedMutation state = true → next.originPolicyPassed = true) := by
  apply Ensures.ite
  · intro open_
    apply Ensures.ok
    refine ⟨⟨state.originPolicyPassed, rfl⟩, ?_⟩
    intro closed
    rw [open_] at closed
    cases closed
  · intro _
    apply Ensures.andThen
    intro admission
    apply Ensures.ite
    · intro _
      exact .ok ⟨⟨true, rfl⟩, fun _ => rfl⟩
    · intro _
      exact .error _

theorem stageIf_ensures {condition : Bool}
    {stage : RequestState → Except Refusal RequestState} {post : RequestState → Prop}
    (ifTaken : condition = true → Ensures (stage state) post)
    (ifSkipped : condition = false → post state) : Ensures
    (stageIf condition stage state) post := by
  cases condition with
  | false => exact .ok (ifSkipped rfl)
  | true => exact ifTaken rfl

structure RequestState.Ready (server : XFerryServer) (state : RequestState) : Prop where
  cleared : state.Cleared server
  token : isMethod state.request.requestLine.method = true
  covers : server.registered.tables.PolicyCovers state.request.requestLine.method
  checked : state.request.isEncryptedTransferTarget = false →
    isSessionControlRoute state.request = false →
      state.dispatchPrepared = true ∧
        (server.isBrowserProtectedMutation state = true → state.originPolicyPassed = true)

section

variable (ready : state.Ready server)
include ready

theorem selectHandler_gated
    (checked : server.isBrowserProtectedMutation state = true → state.originPolicyPassed = true) :
    (server.selectHandler state).Gated server := by
  unfold selectHandler
  split
  · case isTrue dispatched =>
    refine ⟨ready.cleared, fun _ => checked ?_⟩
    rw [isBrowserProtectedMutation, dispatched, Bool.true_or]
  split
  · case h_1 handler found =>
    refine ⟨ready.cleared, fun mutating => checked ?_⟩
    have isProtected : server.registered.tables.isProtected server.unicode
        state.request.requestLine.method = true :=
      isProtected_of_covers server.registered.consistent ready.token ready.covers found mutating
    rw [isBrowserProtectedMutation, isProtected, Bool.or_true]
  · trivial

theorem dispatchHandler_gated :
    Ensures (server.dispatchHandler env state) (Served.Gated server) := by
  apply Ensures.ite
  · intro _
    exact .error _
  · intro _
    apply Ensures.ite
    · intro _
      exact .ok ⟨ready.cleared, fun mutating => absurd mutating (by decide)⟩
    · intro ordinary
      apply Ensures.ite
      · intro _
        exact .ok ⟨ready.cleared, fun mutating => absurd mutating (by decide)⟩
      · intro uncontrolled
        have checked := ready.checked (by simpa using ordinary) (by simpa using uncontrolled)
        have skipped : (hasSessionHeader state.request && !state.dispatchPrepared) = false := by
          rw [checked.1]
          exact Bool.and_false _
        simp only [skipped]
        exact .ok (selectHandler_gated ready checked.2)

theorem computeResponse_gated (transferAdmitted : Bool) :
    Ensures (server.computeResponse env transferAdmitted state) (Served.Gated server) := by
  apply Ensures.ite
  · intro _
    exact .error _
  · intro _
    exact dispatchHandler_gated ready

end

structure RequestState.Authenticated (server : XFerryServer) (state : RequestState) : Prop where
  cleared : state.Cleared server
  token : isMethod state.request.requestLine.method = true
  covers : server.registered.tables.PolicyCovers state.request.requestLine.method

theorem RequestState.Authenticated.withDispatch (authenticated : state.Authenticated server)
    (dispatch : Option Text) (dispatchPrepared : Bool) :
    RequestState.Authenticated server
      { state with dispatch := dispatch, dispatchPrepared := dispatchPrepared } :=
  { cleared :=
      { valid := authenticated.cleared.valid
        admitted := authenticated.cleared.admitted
        authenticatedOnce := authenticated.cleared.authenticatedOnce }
    __ := authenticated }

theorem checkedStage_ensures (server : XFerryServer) (state : RequestState) :
    Ensures (stageIf (!state.request.isEncryptedTransferTarget) server.checkBrowserMutation state)
      fun next => (∃ passed, next = { state with originPolicyPassed := passed }) ∧
        (state.request.isEncryptedTransferTarget = false →
          server.isBrowserProtectedMutation state = true → next.originPolicyPassed = true) := by
  apply stageIf_ensures
  · intro _
    exact checkBrowserMutation_ensures.imp fun next kept => ⟨kept.1, fun _ => kept.2⟩
  · intro encrypted
    refine ⟨⟨state.originPolicyPassed, rfl⟩, ?_⟩
    intro ordinary
    rw [ordinary] at encrypted
    cases encrypted

theorem checkedStage_gated {next : RequestState} (authenticated : state.Authenticated server)
    (isPrepared : state.request.isEncryptedTransferTarget = false → state.dispatchPrepared = true)
    (transferAdmitted : Bool)
    (kept : (∃ passed, next = { state with originPolicyPassed := passed }) ∧
      (state.request.isEncryptedTransferTarget = false →
        server.isBrowserProtectedMutation state = true → next.originPolicyPassed = true)) :
    Ensures
      (match checkPayloadSize server.unicode server.payload next.request with
        | some response => .error (.responded response)
        | none => server.computeResponse env transferAdmitted next)
      (Served.Gated server) := by
  obtain ⟨⟨passed, rfl⟩, policy⟩ := kept
  cases checkPayloadSize server.unicode server.payload state.request with
  | some response => exact .error _
  | none =>
    apply computeResponse_gated
    exact
      { cleared :=
          { valid := authenticated.cleared.valid
            admitted := authenticated.cleared.admitted
            authenticatedOnce := authenticated.cleared.authenticatedOnce }
        __ := authenticated
        checked := fun ordinary _ => ⟨isPrepared ordinary, policy ordinary⟩ }

theorem processAuthenticated_gated (authenticated : state.Authenticated server)
    (transferAdmitted : Bool) :
    Ensures (server.processAuthenticated env transferAdmitted state) (Served.Gated server) := by
  unfold processAuthenticated
  apply Ensures.andThen
  intro _
  apply Ensures.ite
  · rintro ⟨control, _⟩
    apply Ensures.andThen
    intro _
    apply computeResponse_gated
    exact
      { __ := authenticated
        checked := fun _ uncontrolled => absurd control (by simp [uncontrolled]) }
  · intro _
    have prepared : Ensures
        (stageIf (!state.request.isEncryptedTransferTarget && !state.dispatchPrepared)
          (server.prepareSessionDispatch env) state) fun next =>
        (∃ dispatch dispatchPrepared, next =
            { state with dispatch := dispatch, dispatchPrepared := dispatchPrepared }) ∧
          (state.request.isEncryptedTransferTarget = false → next.dispatchPrepared = true) := by
      apply stageIf_ensures
      · intro _
        refine prepareSessionDispatch_ensures.imp ?_
        rintro next ⟨dispatch, rfl⟩
        exact ⟨⟨dispatch, true, rfl⟩, fun _ => rfl⟩
      · intro skipped
        refine ⟨⟨state.dispatch, state.dispatchPrepared, rfl⟩, ?_⟩
        intro ordinary
        simpa [ordinary] using skipped
    refine .bind prepared ?_
    rintro next ⟨⟨dispatch, dispatchPrepared, rfl⟩, isPrepared⟩
    apply Ensures.ite
    · intro _
      exact .error _
    · intro _
      apply Ensures.andThen
      intro upgrades
      apply Ensures.ite
      · intro _
        exact .ok trivial
      · intro _
        exact (checkedStage_ensures server _).bind fun checked kept =>
          checkedStage_gated (authenticated.withDispatch dispatch dispatchPrepared) isPrepared
            transferAdmitted kept

theorem isMethod_of_isValid {unicode : Unicode} {url : UrlParse} {header : Bytes}
    (valid : (parseHead unicode url header).isValid = true) :
    isMethod (parseHead unicode url header).requestLine.method = true := by
  unfold parseHead at valid ⊢
  split at valid
  · cases valid
  · cases valid
  rename_i line lines decoded
  cases parsed : parseRequestLine unicode url line with
  | error fault =>
    rw [parsed] at valid
    cases fault with
    | noted | raised => cases valid
  | ok requestLine =>
    unfold parseRequestLine at parsed
    split at parsed
    · case h_1 method rawUrl httpVersion parts =>
      by_cases token : isMethod method = false
      · rw [if_pos token] at parsed
        cases parsed
      rw [if_neg token] at parsed
      split at parsed
      · cases parsed
      split at parsed
      · cases parsed
      split at parsed
      · cases parsed
      · cases parsed
        exact (Bool.not_eq_false _).mp token
    · cases parsed

theorem isMethod_of_parse {unicode : Unicode} {url : UrlParse} {data : Bytes}
    (valid : (parse unicode url data).isValid = true) :
    isMethod (parse unicode url data).requestLine.method = true := by
  unfold parse at valid ⊢
  split at valid <;> exact isMethod_of_isValid valid

def Received.head : Received → Bytes
  | .complete headers _ => headers
  | .unprepared data => data

def Received.method (server : XFerryServer) (received : Received) : Text :=
  (parse server.unicode server.url received.head).requestLine.method

theorem clearRequest_ensures {data : Bytes}
    (covers : server.registered.tables.PolicyCovers
      (parse server.unicode server.url data).requestLine.method) :
    Ensures (server.clearRequest env data) (RequestState.Authenticated server) := by
  refine .bind (readRequest_ensures data) ?_
  rintro start ⟨rfl, valid⟩
  refine .bind admitRequest_ensures ?_
  rintro admitted ⟨admission, accepted, rfl⟩
  refine authenticateRequest_ensures.imp ?_
  rintro next ⟨mode, rfl⟩
  exact
    { cleared :=
        { valid := valid
          admitted := ⟨admission, rfl, accepted⟩
          authenticatedOnce := rfl }
      token := isMethod_of_parse valid
      covers := covers }

theorem prepareRequestHeaders_ensures {headers : Bytes}
    (covers : server.registered.tables.PolicyCovers
      (parse server.unicode server.url headers).requestLine.method) :
    Ensures (server.prepareRequestHeaders env headers) (RequestState.Authenticated server) := by
  refine .bind (clearRequest_ensures covers) ?_
  intro state authenticated
  apply Ensures.ite
  · intro _
    apply Ensures.andThen
    intro _
    exact .ok authenticated
  · intro _
    apply Ensures.ite
    · intro _
      apply Ensures.andThen
      intro _
      exact .ok authenticated
    · intro _
      refine prepareSessionDispatch_ensures.imp ?_
      rintro next ⟨dispatch, rfl⟩
      exact authenticated.withDispatch dispatch true

theorem processPrepared_gated (authenticated : state.Authenticated server)
    (transferAdmitted : Bool) (data : Bytes) :
    Ensures (server.processRequest env (some state) transferAdmitted data)
      (Served.Gated server) := by
  apply Ensures.ite
  · intro _
    exact .error _
  · intro _
    apply Ensures.andThen
    intro _
    apply processAuthenticated_gated
    exact
      { cleared :=
          { valid := authenticated.cleared.valid
            admitted := authenticated.cleared.admitted
            authenticatedOnce := authenticated.cleared.authenticatedOnce }
        __ := authenticated }

theorem handleRequest_gated {received : Received} (sent : env.refusalTimesOut = false)
    (covers : server.registered.tables.PolicyCovers (received.method server)) :
    Ensures (server.handleRequest env received) (Served.Gated server) := by
  cases received with
  | complete headers body =>
    have prepared : Ensures (server.prepareLeased env headers) fun leased =>
        leased.1.Authenticated server := by
      refine .bind (prepareRequestHeaders_ensures covers) ?_
      intro state authenticated
      apply Ensures.ite
      · intro _
        apply Ensures.ite
        · intro _
          exact .ok authenticated
        · intro _
          exact .error _
      · intro _
        exact .ok authenticated
    simp only [handleRequest]
    split
    · case h_1 state leased found => exact processPrepared_gated (prepared _ found) leased _
    · exact .error _
    · rw [sent, if_neg Bool.false_ne_true]
      exact .error _
  | unprepared data =>
    refine .bind (clearRequest_ensures covers) ?_
    intro state authenticated
    exact processAuthenticated_gated authenticated false

def plainServer (registered : RegisteredMethods) : XFerryServer :=
  { unicode := .ascii
    url := { urlparse := fun target => some (target, []), unquote := id }
    authorities :=
      { parseRequestAuthority := fun host => some { host := host, port := none }
        parseHttpOrigin := fun _ => none
        isLoopbackIp := fun _ => true }
    admissionPolicy := { scheme := "http".toList, allowedHosts := [], allowLoopback := true }
    corsOrigins := []
    payload := { maxUploadSize := 1024, encryptedUploads := false }
    registered := registered }

def openSurroundings : Surroundings :=
  { peer := []
    authenticator := none
    resolveSession := fun _ _ => none
    isBulk := fun _ => false
    transferCapacity := true
    dispatchCapacity := true
    refusalTimesOut := false }

def refusingSurroundings : Surroundings :=
  { openSurroundings with authenticator := some fun _ => .failed, refusalTimesOut := true }

def requestLineOf (method target : Text) : Text :=
  method ++ ' ' :: (target ++ ' ' :: "HTTP/1.0".toList)

def receivedOf (method target : Text) : Received :=
  .complete (encodeAscii (requestLineOf method target) ++ [13, 10, 13, 10]) []

def parsedOf (method target : Text) (body : Bytes) : HTTPRequest :=
  { requestLine :=
      { method := method
        rawTarget := target
        rawPath := target
        path := target
        queryString := []
        httpVersion := "HTTP/1.0".toList }
    fields := []
    body := body
    parseError := none }

/-- A request target that is its own path. -/
structure IsPlainTarget (target : Text) : Prop where
  nonempty : target ≠ []
  ascii : ∀ char ∈ target, IsAscii char
  visible : ∀ char ∈ target, isTargetInvalidChar char = false

def rootTarget : Text := ['/']

def encryptedTarget : Text := "/_xferry/encrypted-files".toList

theorem rootTarget_isPlain : IsPlainTarget rootTarget := ⟨by decide, by decide, by decide⟩

theorem encryptedTarget_isPlain : IsPlainTarget encryptedTarget := ⟨by decide, by decide, by decide⟩

variable {method target : Text}

section

variable (token : isMethod method = true) (plain : IsPlainTarget target)
include token plain

theorem isAscii_requestLineOf : ∀ char ∈ requestLineOf method target, IsAscii char := by
  rw [isMethod, Bool.and_eq_true, List.all_eq_true] at token
  intro char member
  rcases List.mem_append.mp member with inMethod | after
  · exact isAscii_of_isMethodChar (token.2 char inMethod)
  rcases List.mem_cons.mp after with rfl | after
  · decide
  rcases List.mem_append.mp after with inTarget | after
  · exact plain.ascii char inTarget
  · have all : ∀ other ∈ ' ' :: "HTTP/1.0".toList, IsAscii other := by decide
    exact all char after

theorem not_mem_requestLineOf : '\r' ∉ requestLineOf method target := by
  rw [isMethod, Bool.and_eq_true, List.all_eq_true] at token
  intro member
  rcases List.mem_append.mp member with inMethod | after
  · exact absurd (token.2 '\r' inMethod) (by decide)
  rcases List.mem_cons.mp after with other | after
  · exact absurd other (by decide)
  rcases List.mem_append.mp after with inTarget | after
  · exact absurd (plain.visible '\r' inTarget) (by decide)
  · revert after
    decide

theorem parse_receivedOf (registered : RegisteredMethods) :
    parse (plainServer registered).unicode (plainServer registered).url
      (receivedOf method target).head = parsedOf method target [] := by
  have ascii := isAscii_requestLineOf token plain
  have noReturn := not_mem_requestLineOf token plain
  have noReturnByte := not_mem_encodeAscii ascii (by decide : IsAscii '\r') noReturn
  have found : FirstOccurrence.find [13, 10, 13, 10]
      (encodeAscii (requestLineOf method target) ++ [13, 10, 13, 10] ++ []) =
        some (encodeAscii (requestLineOf method target)).length :=
    FirstOccurrence.find_of_not_mem noReturnByte []
  rw [List.append_nil] at found
  have parts : splitSpace (requestLineOf method target) = [method, target, "HTTP/1.0".toList] := by
    have noSpace : ' ' ∉ method := by
      intro member
      rw [isMethod, Bool.and_eq_true, List.all_eq_true] at token
      exact absurd (token.2 ' ' member) (by decide)
    have noSpaceAfter : ' ' ∉ target := fun member =>
      absurd (plain.visible ' ' member) (by decide)
    have version : splitSpace "HTTP/1.0".toList = ["HTTP/1.0".toList] := by decide
    rw [requestLineOf, splitSpace_append noSpace, splitSpace_append noSpaceAfter, version]
  have line : parseRequestLine (plainServer registered).unicode (plainServer registered).url
      (requestLineOf method target) = .ok (parsedOf method target []).requestLine := by
    have version : isHttpVersion (plainServer registered).unicode "HTTP/1.0".toList = true := by
      change isHttpVersion .ascii "HTTP/1.0".toList = true
      decide +kernel
    have visible : ¬ (target = [] ∨ target.any isTargetInvalidChar = true) := by
      rw [List.any_eq_true]
      rintro (empty | ⟨char, member, invalid⟩)
      · exact plain.nonempty empty
      · rw [plain.visible char member] at invalid
        cases invalid
    rw [parseRequestLine, parts]
    simp only [token, version, if_neg visible]
    rfl
  have head : parseHead (plainServer registered).unicode
      (plainServer registered).url (encodeAscii (requestLineOf method target)) =
        parsedOf method target [] := by
    rw [parseHead, decode_encodeAscii ascii, Option.map_some, splitCrlf_of_not_mem noReturn]
    simp only [line]
    rfl
  change parse _ _ (encodeAscii (requestLineOf method target) ++ [13, 10, 13, 10]) = _
  rw [parse, found]
  simp only [List.take_left, head]
  have after : (encodeAscii (requestLineOf method target) ++ [13, 10, 13, 10]).drop
      ((encodeAscii (requestLineOf method target)).length + 4) = [] := by
    apply List.drop_eq_nil_of_le
    simp
  rw [after]
  rfl

theorem method_receivedOf (registered : RegisteredMethods) :
    (receivedOf method target).method (plainServer registered) = method := by
  rw [Received.method, parse_receivedOf token plain registered]
  rfl

theorem readRequest_receivedOf (registered : RegisteredMethods) :
    (plainServer registered).readRequest (receivedOf method target).head =
      .ok (.initial (parsedOf method target [])) := by
  rw [readRequest, parse_receivedOf token plain registered]
  rfl

end

def admittedOf (method target : Text) (body : Bytes) : RequestState :=
  { RequestState.initial (parsedOf method target body) with
    admission := some
      { authority := none
        authorization := none
        origin := none
        secFetchSite := none
        connection := none
        upgrade := none
        websocketKey := none
        websocketVersion := none } }

def dispatchedOf (method : Text) (body : Bytes) : RequestState :=
  { admittedOf method rootTarget body with
    authentication := .disabled
    authentications := 1
    dispatchPrepared := true }

section

variable (registered : RegisteredMethods)
include registered

theorem prepareRequestHeaders_receivedOf (token : isMethod method = true) :
    (plainServer registered).prepareRequestHeaders openSurroundings
      (receivedOf method rootTarget).head = .ok (dispatchedOf method []) := by
  rw [prepareRequestHeaders, clearRequest,
    readRequest_receivedOf token rootTarget_isPlain registered]
  rfl

theorem processAuthenticated_dispatchedOf
    {handler : MethodHandler} (found : registered.tables.getHandler method = some handler)
    (unprotected : registered.tables.isProtected .ascii method = false) (body : Bytes) :
    (plainServer registered).processAuthenticated openSurroundings false
        (dispatchedOf method body) =
      .ok (.invoked (.method handler) (dispatchedOf method body)) := by
  have noRequestId : hasInvalidRequestId (dispatchedOf method body).request = false := rfl
  have notWebsocket : isWebsocketTarget (dispatchedOf method body).request = false := by
    have other : (dispatchedOf method body).request.requestLine.rawTarget ≠ "/notes/ws".toList := by
      change rootTarget ≠ "/notes/ws".toList
      decide
    simp only [isWebsocketTarget, other, decide_false, Bool.and_false, Bool.false_and]
  have noUpgrade : upgradesToWebsocket (dispatchedOf method body) = .ok false := by
    rw [upgradesToWebsocket, isWebsocketUpgradeAttempt, if_pos notWebsocket]
    rfl
  have unchecked : (plainServer registered).checkBrowserMutation (dispatchedOf method body) =
      .ok (dispatchedOf method body) := by
    rw [checkBrowserMutation, if_pos]
    exact unprotected
  have small : checkPayloadSize (plainServer registered).unicode (plainServer registered).payload
      (dispatchedOf method body).request = none := rfl
  have selected : (plainServer registered).selectHandler (dispatchedOf method body) =
      .invoked (.method handler) (dispatchedOf method body) := by
    have lookup : (plainServer registered).registered.tables.getHandler
        (dispatchedOf method body).request.requestLine.method = some handler := found
    rw [selectHandler, lookup]
    rfl
  have computed : (plainServer registered).computeResponse openSurroundings false
      (dispatchedOf method body) = .ok (.invoked (.method handler) (dispatchedOf method body)) := by
    rw [← selected]
    rfl
  have encrypted : (dispatchedOf method body).request.isEncryptedTransferTarget = false := rfl
  have control : isSessionControlRoute (dispatchedOf method body).request = false := rfl
  have prepared : (dispatchedOf method body).dispatchPrepared = true := rfl
  have authorized : (plainServer registered).authorizeEncryptedTransfer
      (dispatchedOf method body) = .ok () := rfl
  simp [processAuthenticated, authorized, encrypted, control, prepared, stageIf,
    noRequestId, noUpgrade, unchecked, small, computed, bind, Except.bind]

theorem handleRequest_receivedOf (token : isMethod method = true)
    (uncovered : ¬ registered.tables.PolicyCovers method) :
    ∃ served, (plainServer registered).handleRequest openSurroundings
        (receivedOf method rootTarget) = .ok served ∧ ¬ served.Gated (plainServer registered) := by
  obtain ⟨spec, found, mutating, unprotected⟩ :
      ∃ spec, registered.tables.getHandler method = some (.plugin spec) ∧
        spec.mutating = true ∧ registered.tables.isProtected .ascii method = false :=
    not_isProtected_of_not_covers registered.consistent token uncovered
  have processed := processAuthenticated_dispatchedOf registered found unprotected
    (bodyOf ((receivedOf method rootTarget).head ++ []))
  refine ⟨.invoked (.method (.plugin spec))
    (dispatchedOf method (bodyOf ((receivedOf method rootTarget).head ++ []))),
    ?_, ?_⟩
  · have prepared : (plainServer registered).prepareLeased openSurroundings
        (encodeAscii (requestLineOf method rootTarget) ++ [13, 10, 13, 10]) =
          .ok (dispatchedOf method [], false) :=
      Ensures.bind_eq (prepareRequestHeaders_receivedOf registered token) rfl
    rw [receivedOf, handleRequest, prepared]
    exact processed
  · intro gated
    have passed := gated.2 mutating
    cases passed

theorem processRequest_admittedOf (data : Bytes) :
    (plainServer registered).processRequest refusingSurroundings
        (some (admittedOf method encryptedTarget [])) false data =
      .ok (.invoked .encryptedTransfer (admittedOf method encryptedTarget (bodyOf data))) := by
  let state := admittedOf method encryptedTarget (bodyOf data)
  have encrypted : state.request.isEncryptedTransferTarget = true := by
    change "/_xferry/encrypted-".toList.isPrefixOf encryptedTarget = true
    decide
  have control : isSessionControlRoute state.request = false := rfl
  have authorized : (plainServer registered).authorizeEncryptedTransfer state = .ok () := rfl
  have noRequestId : hasInvalidRequestId state.request = false := rfl
  have noUpgrade : upgradesToWebsocket state = .ok false := by
    rw [upgradesToWebsocket, if_pos encrypted]
  have small : checkPayloadSize (plainServer registered).unicode (plainServer registered).payload
      state.request = none := rfl
  have computed : (plainServer registered).computeResponse refusingSurroundings false state =
      .ok (.invoked .encryptedTransfer state) := by
    have valid : ¬ state.request.isValid = false := by
      change ¬ true = false
      decide
    have room : ¬ ((false : Bool) = false ∧ refusingSurroundings.dispatchCapacity = false) := by
      decide
    rw [computeResponse, if_neg room, dispatchHandler, if_neg valid, if_pos encrypted]
  have processed : (plainServer registered).processAuthenticated refusingSurroundings false state =
      .ok (.invoked .encryptedTransfer state) := by
    simp [processAuthenticated, authorized, encrypted, control, stageIf, noRequestId,
      noUpgrade, small, computed, bind, Except.bind]
  exact processed

/-- Whatever the method, a request for the encrypted transfers whose credentials are refused
gets to its handler where the refusal cannot be sent. -/
theorem handleRequest_refused (token : isMethod method = true) :
    ∃ served, (plainServer registered).handleRequest refusingSurroundings
        (receivedOf method encryptedTarget) = .ok served ∧
      ¬ served.Gated (plainServer registered) := by
  have start : (plainServer registered).readRequest
      (encodeAscii (requestLineOf method encryptedTarget) ++ [13, 10, 13, 10]) =
        .ok (.initial (parsedOf method encryptedTarget [])) :=
    readRequest_receivedOf token encryptedTarget_isPlain registered
  have refused : (plainServer registered).prepareLeased refusingSurroundings
      (encodeAscii (requestLineOf method encryptedTarget) ++ [13, 10, 13, 10]) =
        refuse 401 "Unauthorized" "authentication_required" (some "Authorization") := by
    rw [prepareLeased, prepareRequestHeaders, clearRequest, start]
    rfl
  have left : (plainServer registered).stateLeft refusingSurroundings
      (encodeAscii (requestLineOf method encryptedTarget) ++ [13, 10, 13, 10]) =
        admittedOf method encryptedTarget [] := by
    rw [stateLeft, start]
    rfl
  refine ⟨.invoked .encryptedTransfer (admittedOf method encryptedTarget
    (bodyOf ((receivedOf method encryptedTarget).head ++ []))), ?_, ?_⟩
  · rw [receivedOf, handleRequest, refused]
    simp only [refuse, left]
    exact processRequest_admittedOf registered _
  · intro gated
    have once := gated.1.authenticatedOnce
    cases once

end

/-- Whatever the server, its surroundings and the rest of the request, a request of the
method is gated.  `timesOut` says whether the send of a refusal times out. -/
def GatesRequests (registered : RegisteredMethods) (timesOut : Bool) (method : Text) : Prop :=
  ∀ server : XFerryServer, server.registered = registered → ∀ env received,
    env.refusalTimesOut = timesOut → received.method server = method → ∀ served,
      server.handleRequest env received = .ok served → served.Gated server

theorem gatesRequests_iff (registered : RegisteredMethods) (timesOut : Bool) {method : Text}
    (token : isMethod method = true) :
    GatesRequests registered timesOut method ↔
      timesOut = false ∧ registered.tables.PolicyCovers method := by
  constructor
  · intro gates
    have sent : timesOut = false := by
      cases timesOut with
      | false => rfl
      | true =>
        obtain ⟨served, handled, ungated⟩ := handleRequest_refused registered token
        have sameMethod := method_receivedOf token encryptedTarget_isPlain registered
        exact absurd (gates _ rfl refusingSurroundings _ rfl sameMethod served handled) ungated
    refine ⟨sent, ?_⟩
    by_contra uncovered
    obtain ⟨served, handled, ungated⟩ := handleRequest_receivedOf registered token uncovered
    have sameMethod := method_receivedOf token rootTarget_isPlain registered
    exact ungated (gates _ rfl openSurroundings _ sent.symm sameMethod served handled)
  · rintro ⟨rfl, covers⟩ server rfl env received sent rfl served handled
    exact handleRequest_gated sent covers served handled

def lockMethod : PluginMethodSpec :=
  { method := "LOCK".toList, mutating := true, isName := by decide }

def lockRegistered : RegisteredMethods :=
  { overrideCore := false
    plugins := [lockMethod]
    tables := MethodTables.core.addPlugin lockMethod
    built := by
      have isNew : ¬ ((coreMethodNamed lockMethod.method).isSome ∧ (false : Bool) = false) := by
        decide +kernel
      rw [MethodTables.build, List.foldlM_cons, MethodTables.registerPlugin, if_neg isNew]
      rfl }

theorem lock_gatesRequests : GatesRequests lockRegistered false "LOCK".toList :=
  (gatesRequests_iff lockRegistered false (by decide)).mpr ⟨rfl, by decide +kernel⟩

/-- The same method in lower case reaches the plugin past the browser-origin policy. -/
theorem lowerCaseLock_not_gated : ¬ GatesRequests lockRegistered false "lock".toList := by
  intro gates
  have uncovered : ¬ lockRegistered.tables.PolicyCovers "lock".toList := by
    decide +kernel
  have token : isMethod "lock".toList = true := by decide
  obtain ⟨served, handled, ungated⟩ := handleRequest_receivedOf lockRegistered token uncovered
  have sameMethod := method_receivedOf token rootTarget_isPlain lockRegistered
  exact ungated (gates _ rfl openSurroundings _ rfl sameMethod served handled)

end XFerry.Server
