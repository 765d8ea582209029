/-
Which requests carry file data: what the server takes for a bulk request before the body
is received, and what the handler of the request does when it is dispatched.

The classifier reads the method as the request spells it.  The dispatch reads its upper
case, and resolves the path anew.
-/

import XFerry.Server.PipelineGate
import XFerry.Server.StoredFiles

namespace XFerry.Server

open Python Http XFerryServer

inductive EncryptedRoute where
  | uploads
  | uploadItem (fileId : Text)
  | uploadChunk (fileId index : Text)
  | uploadComplete (fileId : Text)
  | files
  | fileItem (fileId : Text)
  | fileData (fileId : Text)
  | fileChunk (fileId index : Text)
  | fileDecrypt (fileId : Text)

def encryptedUploadsPath : Text := "/_xferry/encrypted-uploads".toList

def encryptedFilesPath : Text := "/_xferry/encrypted-files".toList

/-- `_FILE_ID_PATTERN`. -/
def isFileId (text : Text) : Bool :=
  decide (text.length = 32) &&
    text.all fun char => decide (Between '0' '9' char) || decide (Between 'a' 'f' char)

/-- `0|[1-9][0-9]*`. -/
def isChunkIndex (text : Text) : Bool :=
  match text with
  | [] => false
  | ['0'] => true
  | first :: rest =>
    decide (Between '1' '9' first) && rest.all fun char => decide (Between '0' '9' char)

def uploadRoute (parts : List Text) : Option EncryptedRoute :=
  match parts with
  | [fileId] => if isFileId fileId = true then some (.uploadItem fileId) else none
  | [fileId, last] =>
    if isFileId fileId = true ∧ last = "complete".toList then some (.uploadComplete fileId)
    else none
  | [fileId, middle, index] =>
    if isFileId fileId = true ∧ middle = "chunks".toList ∧ isChunkIndex index = true then
      some (.uploadChunk fileId index)
    else none
  | _ => none

def fileRoute (parts : List Text) : Option EncryptedRoute :=
  match parts with
  | [fileId] => if isFileId fileId = true then some (.fileItem fileId) else none
  | [fileId, last] =>
    if isFileId fileId = true ∧ last = "data".toList then some (.fileData fileId)
    else if isFileId fileId = true ∧ last = "decrypt".toList then some (.fileDecrypt fileId)
    else none
  | [fileId, middle, index] =>
    if isFileId fileId = true ∧ middle = "chunks".toList ∧ isChunkIndex index = true then
      some (.fileChunk fileId index)
    else none
  | _ => none

def routeBelow (collection path : Text) : Option (List Text) :=
  if (collection ++ ['/']).isPrefixOf path = true then
    some ((path.drop (collection.length + 1)).splitOn '/')
  else none

def encryptedRoute (path : Text) : Option EncryptedRoute :=
  if path = encryptedUploadsPath then some .uploads
  else if path = encryptedFilesPath then some .files
  else
    match routeBelow encryptedUploadsPath path, routeBelow encryptedFilesPath path with
    | some parts, _ => uploadRoute parts
    | none, some parts => fileRoute parts
    | none, none => none

def isCanonicalTarget (request : HTTPRequest) : Bool :=
  request.requestLine.rawTarget = request.requestLine.rawPath &&
    request.requestLine.rawPath = request.requestLine.path

def isEncryptedBulkTarget (request : HTTPRequest) : Bool :=
  isCanonicalTarget request &&
    match encryptedRoute request.requestLine.rawPath with
    | some (.uploadChunk _ _) => request.requestLine.method = "PUT".toList
    | some (.fileData _) => request.requestLine.method = "GET".toList
    | some (.fileChunk _ _) => request.requestLine.method = "GET".toList
    | some (.fileDecrypt _) => request.requestLine.method = "POST".toList
    | _ => false

inductive CoreMethodUiGroup where
  | request
  | upload
  | files
  | notepad
deriving DecidableEq

/-- The column `ui_group` of `CORE_METHOD_SPECS`. -/
def CoreMethodSpec.uiGroup (spec : CoreMethodSpec) : CoreMethodUiGroup :=
  if (["POST", "PUT", "PATCH", "NONE"].map String.toList).contains spec.method then .upload
  else if (["DELETE", "FETCH", "SMUGGLE"].map String.toList).contains spec.method then .files
  else if spec.method = "NOTE".toList then .notepad
  else .request

variable (uploadDir : FilePath)

def asksForUpload (files : Files) (method path : Text) : Except PathFault Bool :=
  let resolved :=
    if method = "GET".toList then resolveGetPath uploadDir files path
    else if method = "FETCH".toList then getFilePath uploadDir files path
    else .error .absent
  match resolved with
  | .error .absent => .ok false
  | .error fault => .error fault
  | .ok found => isUploadDescendant uploadDir files found

def isBulkRequest (unicode : Unicode) (files : Files) (state : RequestState) :
    Except PathFault Bool :=
  let request := state.request
  if request.isEncryptedTransferTarget = true then .ok (isEncryptedBulkTarget request)
  else if isSessionControlRoute request = true then .ok false
  else if state.dispatch.isSome = true then .ok true
  else if (coreMethodSpec unicode request.requestLine.method).any
      (fun spec => spec.uiGroup = .upload) = true then .ok true
  else asksForUpload uploadDir files request.requestLine.method request.requestLine.path

inductive BulkTransfer where
  | publishesUpload
  | streamsStoredFile

/-- What the stores, the parsers of bodies and the plugins make of a request: whether an
upload is published, whether an encrypted route is served, and what the handler of a
plugin transfers. -/
structure HandlerAnswers where
  files : Files
  publishes : Bool
  servesEncrypted : Bool
  pluginTransfer : PluginMethodSpec → HTTPRequest → Option BulkTransfer

def transferIf (condition : Bool) (transfer : BulkTransfer) : Option BulkTransfer :=
  if condition = true then some transfer else none

def handleEncryptedTransfer (answers : HandlerAnswers)
  (request : HTTPRequest) : Option BulkTransfer :=
  let method := request.requestLine.method
  let served := answers.servesEncrypted && isCanonicalTarget request
  match encryptedRoute request.requestLine.rawPath with
  | some (.uploadChunk _ _) => transferIf (served && method = "PUT".toList) .publishesUpload
  | some (.uploadComplete _) =>
    transferIf (served && method = "POST".toList && request.body.isEmpty) .publishesUpload
  | some (.fileData _) =>
    transferIf (served && method = "GET".toList && request.body.isEmpty) .streamsStoredFile
  | some (.fileChunk _ _) =>
    transferIf (served && method = "GET".toList && request.body.isEmpty) .streamsStoredFile
  | some (.fileDecrypt _) => transferIf (served && method = "POST".toList) .streamsStoredFile
  | _ => none

/-- The handlers of built-in methods.  A basic upload of nothing is refused, and HEAD
drops the stream of the GET it makes. -/
def coreTransfer (answers : HandlerAnswers) (handlerName : String) (request : HTTPRequest) :
    Option BulkTransfer :=
  if handlerName = "handle_get" then
    transferIf (storedStream uploadDir answers.files
      (streamOfGet uploadDir answers.files request)).isSome .streamsStoredFile
  else if handlerName = "handle_fetch" then
    transferIf (storedStream uploadDir answers.files
      (streamOfFetch uploadDir answers.files request)).isSome .streamsStoredFile
  else if handlerName = "handle_post" ∨ handlerName = "handle_patch" ∨
      handlerName = "handle_none" then
    transferIf (!request.body.isEmpty && answers.publishes) .publishesUpload
  else none

def SelectedHandler.transfer (answers : HandlerAnswers) (request : HTTPRequest) :
    SelectedHandler → Option BulkTransfer
  | .encryptedTransfer => handleEncryptedTransfer answers request
  | .sessionControl => none
  | .advancedUpload => transferIf answers.publishes .publishesUpload
  | .method (.core spec) => coreTransfer uploadDir answers spec.handlerName request
  | .method (.plugin spec) => answers.pluginTransfer spec request

inductive SelectedBy (server : XFerryServer) (state : RequestState) : SelectedHandler → Prop where
  | encryptedTransfer : state.request.isEncryptedTransferTarget = true →
      SelectedBy server state .encryptedTransfer
  | sessionControl : SelectedBy server state .sessionControl
  | advancedUpload : state.request.isEncryptedTransferTarget = false →
      isSessionControlRoute state.request = false → state.dispatch.isSome = true →
      SelectedBy server state .advancedUpload
  | method {handler : MethodHandler} : state.request.isEncryptedTransferTarget = false →
      isSessionControlRoute state.request = false → state.dispatch = none →
      server.registered.tables.getHandler state.request.requestLine.method = some handler →
      SelectedBy server state (.method handler)

/-- A handler gets the request that was prepared, and is the one that is selected by it. -/
def Served.DispatchedFrom (server : XFerryServer) (prepared : RequestState) : Served → Prop
  | .invoked handler state => state.request = prepared.request ∧ SelectedBy server prepared handler
  | .methodNotAllowed _ => True
  | .upgraded _ => True

/-- The routes that need no preparation have none, and the others have it. -/
structure RequestState.Prepared (state : RequestState) : Prop where
  token : isMethod state.request.requestLine.method = true
  settled : state.request.isEncryptedTransferTarget = false →
    isSessionControlRoute state.request = false → state.dispatchPrepared = true

variable {server : XFerryServer} {env : Surroundings} {state prepared : RequestState}

theorem dispatchHandler_dispatches (ready : prepared.Prepared)
    (sameRequest : state.request = prepared.request)
    (sameDispatch : state.dispatch = prepared.dispatch)
    (samePrepared : state.dispatchPrepared = prepared.dispatchPrepared) :
    Ensures (server.dispatchHandler env state) (Served.DispatchedFrom server prepared) := by
  unfold dispatchHandler
  rw [sameRequest, samePrepared]
  apply Ensures.ite
  · intro _
    exact .error _
  · intro _
    apply Ensures.ite
    · intro encrypted
      exact .ok ⟨sameRequest, .encryptedTransfer encrypted⟩
    · intro notEncrypted
      rw [Bool.not_eq_true] at notEncrypted
      apply Ensures.ite
      · intro _
        exact .ok ⟨sameRequest, .sessionControl⟩
      · intro notControl
        rw [Bool.not_eq_true] at notControl
        have done := ready.settled notEncrypted notControl
        have skipped :
          (hasSessionHeader prepared.request && !prepared.dispatchPrepared) = false := by
          rw [done, Bool.not_true, Bool.and_false]
        dsimp only
        rw [skipped, stageIf, if_neg Bool.false_ne_true]
        apply Ensures.ok
        unfold selectHandler
        rw [sameRequest, sameDispatch]
        split
        · case isTrue some => exact ⟨sameRequest, .advancedUpload notEncrypted notControl some⟩
        rename_i none
        rw [Bool.not_eq_true, Option.isSome_eq_false_iff, Option.isNone_iff_eq_none] at none
        split
        · case h_1 handler found =>
          exact ⟨sameRequest, .method notEncrypted notControl none found⟩
        · trivial

theorem computeResponse_dispatches (ready : prepared.Prepared)
    (sameRequest : state.request = prepared.request)
    (sameDispatch : state.dispatch = prepared.dispatch)
    (samePrepared : state.dispatchPrepared = prepared.dispatchPrepared) (transferAdmitted : Bool) :
    Ensures (server.computeResponse env transferAdmitted state)
      (Served.DispatchedFrom server prepared) := by
  apply Ensures.ite
  · intro _
    exact .error _
  · intro _
    exact dispatchHandler_dispatches ready sameRequest sameDispatch samePrepared

theorem processAuthenticated_dispatches (ready : state.Prepared) (transferAdmitted : Bool) :
    Ensures (server.processAuthenticated env transferAdmitted state)
      (Served.DispatchedFrom server state) := by
  apply Ensures.andThen
  intro _
  apply Ensures.ite
  · intro _
    apply Ensures.andThen
    intro _
    exact computeResponse_dispatches ready rfl rfl rfl transferAdmitted
  · intro notControlOnly
    have unchanged : stageIf (!state.request.isEncryptedTransferTarget && !state.dispatchPrepared)
        (server.prepareSessionDispatch env) state = .ok state := by
      rw [stageIf, if_neg]
      rw [Bool.and_eq_true, Bool.not_eq_true', Bool.not_eq_true']
      rintro ⟨notEncrypted, unprepared⟩
      have notControl : isSessionControlRoute state.request = false := by
        by_contra control
        exact notControlOnly ⟨(Bool.not_eq_false _).mp control, notEncrypted⟩
      rw [ready.settled notEncrypted notControl] at unprepared
      cases unprepared
    rw [Ensures.bind_of_ok unchanged]
    apply Ensures.ite
    · intro _
      exact .error _
    · intro _
      apply Ensures.andThen
      intro upgrades
      apply Ensures.ite
      · intro _
        exact .ok trivial
      · intro _
        refine (checkedStage_ensures server state).bind ?_
        rintro checked ⟨⟨passed, rfl⟩, _⟩
        cases checkPayloadSize server.unicode server.payload state.request with
        | some response => exact .error _
        | none =>
          apply computeResponse_dispatches ready
          case sameRequest => rfl
          case sameDispatch => rfl
          case samePrepared => rfl

theorem processAuthenticated_of_unprepared (unprepared : state.dispatchPrepared = false)
    (notEncrypted : state.request.isEncryptedTransferTarget = false)
    (notControl : isSessionControlRoute state.request = false) (transferAdmitted : Bool) :
    server.processAuthenticated env transferAdmitted state =
      (server.prepareSessionDispatch env state >>= fun next =>
        server.processAuthenticated env transferAdmitted next) := by
  have authorized : ∀ other : RequestState, other.request = state.request →
      server.authorizeEncryptedTransfer other = .ok () := by
    intro other same
    rw [authorizeEncryptedTransfer, same, if_pos (Or.inr notEncrypted)]
  cases prepared : server.prepareSessionDispatch env state with
  | error failure =>
    rw [processAuthenticated, authorized state rfl]
    simp [notEncrypted, notControl, unprepared, stageIf, prepared, bind, Except.bind]
  | ok next =>
    obtain ⟨dispatch, rfl⟩ := prepareSessionDispatch_ensures next prepared
    rw [processAuthenticated, authorized state rfl]
    simp only [bind, Except.bind]
    rw [processAuthenticated]
    simp [notEncrypted, notControl, unprepared, stageIf, prepared, authorized, bind, Except.bind]

theorem clearRequest_unprepared {data : Bytes} :
    Ensures (server.clearRequest env data) fun state =>
      isMethod state.request.requestLine.method = true ∧ state.dispatchPrepared = false := by
  refine .bind (readRequest_ensures data) ?_
  rintro start ⟨rfl, valid⟩
  refine .bind admitRequest_ensures ?_
  rintro admitted ⟨admission, accepted, rfl⟩
  refine authenticateRequest_ensures.imp ?_
  rintro next ⟨mode, rfl⟩
  exact ⟨isMethod_of_parse valid, rfl⟩

theorem prepareRequestHeaders_prepared {headers : Bytes} :
    Ensures (server.prepareRequestHeaders env headers) RequestState.Prepared := by
  refine .bind clearRequest_unprepared ?_
  rintro state ⟨token, _⟩
  apply Ensures.ite
  · intro encrypted
    apply Ensures.andThen
    intro _
    apply Ensures.ok
    constructor
    case token => exact token
    case settled =>
      intro notEncrypted
      rw [encrypted] at notEncrypted
      cases notEncrypted
  · intro _
    apply Ensures.ite
    · intro control
      apply Ensures.andThen
      intro _
      apply Ensures.ok
      constructor
      case token => exact token
      case settled =>
        intro _ notControl
        rw [control] at notControl
        cases notControl
    · intro _
      refine prepareSessionDispatch_ensures.imp ?_
      rintro next ⟨dispatch, rfl⟩
      exact { token := token, settled := fun _ _ => rfl }

theorem processPrepared_dispatches (ready : prepared.Prepared) (transferAdmitted : Bool)
    (data : Bytes) :
    Ensures (server.processRequest env (some prepared) transferAdmitted data)
      (Served.DispatchedFrom server
        { prepared with
          request := { prepared.request with body := bodyOf data } }) := by
  apply Ensures.ite
  · intro _
    exact .error _
  · intro _
    apply Ensures.andThen
    intro _
    apply processAuthenticated_dispatches
    exact { token := ready.token, settled := ready.settled }

variable {transferAdmitted : Bool}

theorem authorizes_of_processAuthenticated {served : Served}
    (processed : server.processAuthenticated env transferAdmitted state = .ok served) :
    server.authorizeEncryptedTransfer state = .ok () := by
  unfold processAuthenticated at processed
  cases authorized : server.authorizeEncryptedTransfer state with
  | error failure =>
    rw [authorized] at processed
    cases processed
  | ok _ => rfl

theorem authorizes_of_control {served : Served}
    (processed : server.processAuthenticated env transferAdmitted state = .ok served)
    (notEncrypted : state.request.isEncryptedTransferTarget = false)
    (control : isSessionControlRoute state.request = true) :
    server.authorizeSessionControl env state = .ok () := by
  unfold processAuthenticated at processed
  rw [authorizes_of_processAuthenticated processed] at processed
  cases authorized : server.authorizeSessionControl env state with
  | error failure =>
    simp [authorized, notEncrypted, control, bind, Except.bind] at processed
  | ok _ => rfl

theorem processUnprepared_dispatches (data : Bytes) :
    Ensures (server.processRequest env none false data) fun served => ∃ prepared,
      server.prepareRequestHeaders env data = .ok prepared ∧
        served.DispatchedFrom server prepared := by
  intro served processed
  unfold processRequest at processed
  unfold prepareRequestHeaders
  cases cleared : server.clearRequest env data with
  | error failure =>
    rw [cleared] at processed
    cases processed
  | ok state =>
    obtain ⟨token, unprepared⟩ := clearRequest_unprepared state cleared
    simp only [cleared] at processed
    rw [Ensures.bind_of_ok rfl] at processed
    rw [Ensures.bind_of_ok rfl]
    by_cases encrypted : state.request.isEncryptedTransferTarget = true
    · have ready : state.Prepared :=
        { token := token, settled := fun other => absurd encrypted (by simp [other]) }
      refine ⟨state, ?_, processAuthenticated_dispatches ready false _ processed⟩
      rw [if_pos encrypted, authorizes_of_processAuthenticated processed]
      rfl
    · rw [if_neg encrypted]
      rw [Bool.not_eq_true] at encrypted
      by_cases control : isSessionControlRoute state.request = true
      · have ready : state.Prepared :=
          { token := token, settled := fun _ other => absurd control (by simp [other]) }
        refine ⟨state, ?_, processAuthenticated_dispatches ready false _ processed⟩
        rw [if_pos control, authorizes_of_control processed encrypted control]
        rfl
      · rw [if_neg control]
        rw [Bool.not_eq_true] at control
        rw [processAuthenticated_of_unprepared unprepared encrypted control] at processed
        cases prepared : server.prepareSessionDispatch env state with
        | error failure =>
          rw [prepared] at processed
          cases processed
        | ok next =>
          rw [prepared] at processed
          obtain ⟨dispatch, rfl⟩ := prepareSessionDispatch_ensures next prepared
          have ready : RequestState.Prepared
              { state with dispatch := dispatch, dispatchPrepared := true } :=
            { token := token, settled := fun _ _ => rfl }
          exact ⟨_, rfl, processAuthenticated_dispatches ready false _ processed⟩

/-- What makes the classifier agree with the dispatch of the request.  A request that the
built-in GET or FETCH is to serve from the upload directory spells its method in upper
case, and asked for a file in there when it was classified; it does not complete an
encrypted upload; and the handler of a plugin transfers nothing that the classifier does
not take for a bulk request. -/
structure Settled (server : XFerryServer) (uploadDir : FilePath) (classified : Files)
    (answers : HandlerAnswers) (prepared : RequestState) (request : HTTPRequest) : Prop where
  spelled : ∀ spec, SelectedBy server prepared (.method (.core spec)) →
    asksForUpload uploadDir answers.files spec.method request.requestLine.path = .ok true →
      request.requestLine.method = spec.method
  resolved : ∀ spec, SelectedBy server prepared (.method (.core spec)) →
    asksForUpload uploadDir answers.files spec.method request.requestLine.path = .ok true →
      asksForUpload uploadDir classified spec.method request.requestLine.path = .ok true
  incomplete : SelectedBy server prepared .encryptedTransfer →
    request.requestLine.method = "POST".toList → isCanonicalTarget request = true →
      ∀ fileId, encryptedRoute request.requestLine.rawPath ≠ some (.uploadComplete fileId)
  plugins : ∀ spec, SelectedBy server prepared (.method (.plugin spec)) →
    (answers.pluginTransfer spec request).isSome = true →
      isBulkRequest uploadDir server.unicode classified prepared = .ok true

variable {uploadDir : FilePath} {classified : Files} {answers : HandlerAnswers}
  {request : HTTPRequest} {transfer : BulkTransfer}

theorem transferIf_eq_some {condition : Bool} {kind : BulkTransfer}
    (transferred : transferIf condition kind = some transfer) : condition = true := by
  unfold transferIf at transferred
  split at transferred
  · assumption
  · cases transferred

theorem isEncryptedBulkTarget_of_transfer
    (transferred : handleEncryptedTransfer answers request = some transfer)
    (incomplete : request.requestLine.method = "POST".toList → isCanonicalTarget request = true →
      ∀ fileId, encryptedRoute request.requestLine.rawPath ≠ some (.uploadComplete fileId)) :
    isEncryptedBulkTarget request = true := by
  unfold handleEncryptedTransfer at transferred
  unfold isEncryptedBulkTarget
  cases route : encryptedRoute request.requestLine.rawPath with
  | none =>
    rw [route] at transferred
    cases transferred
  | some found =>
    rw [route] at transferred
    cases found with
    | uploadComplete fileId =>
      have served := transferIf_eq_some transferred
      simp only [Bool.and_eq_true, decide_eq_true_iff] at served
      exact absurd route (incomplete served.1.2 served.1.1.2 fileId)
    | uploadChunk | fileDecrypt =>
      have served := transferIf_eq_some transferred
      simp only [Bool.and_eq_true] at served ⊢
      exact ⟨served.1.2, served.2⟩
    | fileData | fileChunk =>
      have served := transferIf_eq_some transferred
      simp only [Bool.and_eq_true] at served ⊢
      exact ⟨served.1.1.2, served.1.2⟩
    | uploads | files | uploadItem | fileItem => cases transferred

theorem coreMethods_transfer : ∀ spec ∈ coreMethodSpecs,
    (spec.handlerName = "handle_get" → spec.method = "GET".toList) ∧
    (spec.handlerName = "handle_fetch" → spec.method = "FETCH".toList) ∧
    (spec.handlerName = "handle_post" ∨ spec.handlerName = "handle_patch" ∨
      spec.handlerName = "handle_none" → spec.uiGroup = .upload) := by
  decide +kernel

theorem asksForUpload_get {files : Files} {path : FilePath}
    (streamed : storedStream uploadDir files (streamOfGet uploadDir files request) = some path) :
    asksForUpload uploadDir files "GET".toList request.requestLine.path = .ok true := by
  obtain ⟨stream, descendant⟩ := storedStream_eq_some streamed
  rw [asksForUpload, if_pos rfl, resolveGetPath_of_stream stream]
  exact descendant

theorem asksForUpload_fetch {files : Files} {path : FilePath}
    (streamed : storedStream uploadDir files (streamOfFetch uploadDir files request) = some path) :
    asksForUpload uploadDir files "FETCH".toList request.requestLine.path = .ok true := by
  obtain ⟨stream, descendant⟩ := storedStream_eq_some streamed
  have other : "FETCH".toList ≠ "GET".toList := by decide
  rw [asksForUpload, if_neg other, if_pos rfl, getFilePath_of_stream stream]
  exact descendant

theorem asksForUpload_of_coreTransfer {spec : CoreMethodSpec} (member : spec ∈ coreMethodSpecs)
    (transferred : coreTransfer uploadDir answers spec.handlerName request = some transfer) :
    spec.uiGroup = .upload ∨
      (spec.method = "GET".toList ∨ spec.method = "FETCH".toList) ∧
        asksForUpload uploadDir answers.files spec.method request.requestLine.path = .ok true := by
  obtain ⟨isGet, isFetch, isUpload⟩ := coreMethods_transfer spec member
  unfold coreTransfer at transferred
  split at transferred
  · case isTrue get =>
    obtain ⟨path, stored⟩ := Option.isSome_iff_exists.mp (transferIf_eq_some transferred)
    rw [isGet get]
    exact .inr ⟨.inl rfl, asksForUpload_get stored⟩
  · split at transferred
    · case isTrue fetch =>
      obtain ⟨path, stored⟩ := Option.isSome_iff_exists.mp (transferIf_eq_some transferred)
      rw [isFetch fetch]
      exact .inr ⟨.inr rfl, asksForUpload_fetch stored⟩
    · split at transferred
      · case isTrue upload => exact .inl (isUpload upload)
      · cases transferred

theorem isBulkRequest_of_transfer {handler : SelectedHandler} (ready : prepared.Prepared)
    (sameLine : request.requestLine = prepared.request.requestLine)
    (settled : Settled server uploadDir classified answers prepared request)
    (selected : SelectedBy server prepared handler)
    (transferred : handler.transfer uploadDir answers request = some transfer) :
    isBulkRequest uploadDir server.unicode classified prepared = .ok true := by
  cases selected with
  | encryptedTransfer encrypted =>
    have bulk := isEncryptedBulkTarget_of_transfer transferred
      (settled.incomplete (.encryptedTransfer encrypted))
    rw [isBulkRequest, if_pos encrypted]
    rw [isEncryptedBulkTarget, isCanonicalTarget, sameLine] at bulk
    exact congrArg Except.ok bulk
  | sessionControl => cases transferred
  | advancedUpload notEncrypted notControl dispatched =>
    rw [isBulkRequest, if_neg (by simp [notEncrypted]), if_neg (by simp [notControl]),
      if_pos dispatched]
  | method notEncrypted notControl undispatched found =>
    case method handler =>
    have here : SelectedBy server prepared (.method handler) :=
      .method notEncrypted notControl undispatched found
    cases handler with
    | plugin spec =>
      have some : (answers.pluginTransfer spec request).isSome = true :=
        Option.isSome_of_eq_some transferred
      exact settled.plugins spec here some
    | core spec =>
      have named := server.registered.consistent.core_named _ spec found
      have looked : coreMethodSpec server.unicode prepared.request.requestLine.method =
          some spec := by
        rw [coreMethodSpec, strip_of_isMethod ready.token, named]
      rw [isBulkRequest, if_neg (by simp [notEncrypted]), if_neg (by simp [notControl]),
        if_neg (by simp [undispatched]), looked, Option.any_some]
      rcases asksForUpload_of_coreTransfer (List.mem_of_find?_eq_some named) transferred with
        upload | ⟨_, asks⟩
      · rw [if_pos (by simp [upload])]
      split
      · rfl
      have spelled := settled.spelled spec here asks
      have asked := settled.resolved spec here asks
      rw [← spelled, sameLine] at asked
      exact asked

end XFerry.Server
