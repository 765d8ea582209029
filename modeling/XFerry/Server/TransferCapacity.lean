/-
The lease of a bulk transfer, over the turns of all connections.

A turn begins when the header block of a request is complete.  The request is classified,
and waits for capacity if it is a bulk request.  Its body is received while it is
admitted, and the lease is given back at the end of the turn, when the response has been
sent.  A header block that is never completed is handed to the pipeline as it is, and so is
a refused request where the send of the refusal times out.
-/

import XFerry.Server.BulkTransfers
import XFerry.Server.CapacityGate

namespace XFerry.Server

open Python Http EventMachine XFerryServer

/-! ### The machine -/

/-- `classified` is the file system as the classifier saw it. -/
inductive TurnStage where
  | receiving
  | admitted (headers : Bytes) (prepared : RequestState) (classified : Files) (leased : Bool)
  | serving (transfer : Option BulkTransfer) (leased : Bool)

def TurnStage.leased : TurnStage → Bool
  | .receiving => false
  | .admitted _ _ _ leased => leased
  | .serving _ leased => leased

def TurnStage.transfers : TurnStage → Bool
  | .receiving => false
  | .admitted _ _ _ _ => false
  | .serving transfer _ => transfer.isSome

structure TransferState where
  gate : CapacityGate
  connections : Nat → TurnStage

/-- The surroundings of a request leave two answers to the machine: whether it is a bulk
request, and whether there is capacity for it. -/
inductive TransferEvent where
  | admitHeaders (connection : Nat) (headers : Bytes) (env : Surroundings) (files : Files)
  | dispatch (connection : Nat) (body : Bytes) (env : Surroundings) (answers : HandlerAnswers)
  | dispatchUnprepared (connection : Nat) (data : Bytes) (env : Surroundings)
      (answers : HandlerAnswers)
  | finish (connection : Nat)
  | stopAdmission

namespace TransferState

def initial (limit : Nat) : TransferState :=
  { gate := .initial limit, connections := fun _ => .receiving }

def enter (state : TransferState) (gate : CapacityGate) (connection : Nat) (stage : TurnStage) :
    TransferState :=
  { gate := gate, connections := Function.update state.connections connection stage }

variable (state : TransferState) (gate : CapacityGate) (stage : TurnStage)

@[simp] theorem enter_same (connection : Nat) :
    (state.enter gate connection stage).connections connection = stage :=
  Function.update_self ..

@[simp] theorem enter_other {connection other : Nat} (different : other ≠ connection) :
    (state.enter gate connection stage).connections other = state.connections other :=
  Function.update_of_ne different ..

end TransferState

def transferOf (uploadDir : FilePath) (answers : HandlerAnswers) :
    Except Refusal Served → Option BulkTransfer
  | .ok (.invoked handler state) => handler.transfer uploadDir answers state.request
  | .ok (.methodNotAllowed _) => none
  | .ok (.upgraded _) => none
  | .error _ => none

namespace XFerryServer

variable (server : XFerryServer) (uploadDir : FilePath)

/-- `admit_headers`.  A request that is refused, or whose classification raises, ends its
connection; but where the refusal cannot be sent in time the request goes on. -/
def admitHeaders (state : TransferState) (connection : Nat) (headers : Bytes)
    (env : Surroundings) (files : Files) : TransferState :=
  let refused (left : RequestState) : TransferState :=
    if env.refusalTimesOut = true then
      state.enter state.gate connection (.admitted headers left files false)
    else state
  match server.prepareRequestHeaders env headers with
  | .error (.raised _) => state
  | .error (.responded _) => refused (server.stateLeft env headers)
  | .ok prepared =>
    match isBulkRequest uploadDir server.unicode files prepared with
    | .error _ => state
    | .ok false => state.enter state.gate connection (.admitted headers prepared files false)
    | .ok true =>
      match state.gate.acquire with
      | none => refused prepared
      | some gate => state.enter gate connection (.admitted headers prepared files true)

/-- The turns of `_handle_client`. -/
def transferStep : Machine TransferState TransferEvent
  | state, .admitHeaders connection headers env files =>
    match state.connections connection with
    | .receiving => some (server.admitHeaders uploadDir state connection headers env files)
    | .admitted _ _ _ _ => none
    | .serving _ _ => none
  | state, .dispatch connection body env answers =>
    match state.connections connection with
    | .receiving => none
    | .admitted headers prepared _ leased =>
      let served := server.processRequest env (some prepared) leased (headers ++ body)
      some (state.enter state.gate connection
        (.serving (transferOf uploadDir answers served) leased))
    | .serving _ _ => none
  | state, .dispatchUnprepared connection data env answers =>
    match state.connections connection, FirstOccurrence.find [13, 10, 13, 10] data with
    | .receiving, none =>
      let served := server.processRequest env none false data
      some (state.enter state.gate connection
        (.serving (transferOf uploadDir answers served) false))
    | _, _ => none
  | state, .finish connection =>
    match state.connections connection with
    | .receiving => none
    | stage =>
      let gate := if stage.leased = true then state.gate.release else state.gate
      some (state.enter gate connection .receiving)
  | state, .stopAdmission => some { state with gate := state.gate.close }

end XFerryServer

/-! ### What the steps keep -/

variable (server : XFerryServer) (uploadDir : FilePath)

/-- A request is settled when it is dispatched.  One whose header block was never
completed, which is dispatched as it is, is none that the classifier would take for a
bulk request; and no refusal fails to be sent in time. -/
def SettledStep (state : TransferState) : TransferEvent → Prop
  | .dispatch connection body _ answers =>
    match state.connections connection with
    | .admitted headers prepared classified _ =>
      let request := { prepared.request with body := bodyOf (headers ++ body) }
      Settled server uploadDir classified answers { prepared with request := request } request
    | .receiving => True
    | .serving _ _ => True
  | .dispatchUnprepared _ data env answers =>
    match server.prepareRequestHeaders env data with
    | .ok prepared =>
      Settled server uploadDir answers.files answers prepared prepared.request ∧
        isBulkRequest uploadDir server.unicode answers.files prepared ≠ .ok true
    | .error _ => True
  | .admitHeaders _ _ env _ => env.refusalTimesOut = false
  | .finish _ => True
  | .stopAdmission => True

def TurnStage.Sound : TurnStage → Prop
  | .receiving => True
  | .admitted _ prepared classified leased =>
    prepared.Prepared ∧ isBulkRequest uploadDir server.unicode classified prepared = .ok leased
  | .serving transfer leased => transfer.isSome = true → leased = true

def TurnStage.held (stage : TurnStage) : Nat := if stage.leased = true then 1 else 0

structure TransferState.Sound (state : TransferState) : Prop where
  stages : ∀ connection, (state.connections connection).Sound server uploadDir
  counted : Totals (fun connection => (state.connections connection).held) state.gate.active
  within : state.gate.active ≤ state.gate.limit

variable {server : XFerryServer} {uploadDir : FilePath} {state : TransferState} {connection : Nat}

section

variable (sound : state.Sound server uploadDir)
include sound

theorem TransferState.Sound.enter
    {stage : TurnStage} {gate : CapacityGate} (stageSound : stage.Sound server uploadDir)
    (accounted : gate.active =
      state.gate.active - (state.connections connection).held + stage.held)
    (within : gate.active ≤ gate.limit) :
    (state.enter gate connection stage).Sound server uploadDir := by
  have kept := sound.counted.updateState connection stage
  rw [← accounted] at kept
  constructor
  case stages =>
    intro other
    by_cases same : other = connection
    · rw [same, TransferState.enter_same]
      exact stageSound
    · rw [TransferState.enter_other _ _ _ same]
      exact sound.stages other
  case counted => exact kept
  case within => exact within

theorem TransferState.Sound.advance {stage : TurnStage} (stageSound : stage.Sound server uploadDir)
    (sameLease : stage.leased = (state.connections connection).leased) :
    (state.enter state.gate connection stage).Sound server uploadDir := by
  have sameHeld : stage.held = (state.connections connection).held := by
    rw [TurnStage.held, TurnStage.held, sameLease]
  have enough : (state.connections connection).held ≤ state.gate.active :=
    sound.counted.le connection
  refine sound.enter stageSound ?_ sound.within
  omega

theorem TransferState.Sound.admitHeaders (receiving : state.connections connection = .receiving)
    (headers : Bytes) {env : Surroundings} (files : Files)
    (sent : env.refusalTimesOut = false) :
    (server.admitHeaders uploadDir state connection headers env files).Sound
      server uploadDir := by
  unfold XFerryServer.admitHeaders
  simp only [sent, Bool.false_eq_true, if_false]
  cases found : server.prepareRequestHeaders env headers with
  | error refusal =>
    cases refusal with
    | raised | responded => exact sound
  | ok prepared =>
    have ready := prepareRequestHeaders_prepared prepared found
    dsimp only
    cases bulk : isBulkRequest uploadDir server.unicode files prepared with
    | error _ => exact sound
    | ok isBulk =>
      cases isBulk with
      | false =>
        have admitted : TurnStage.Sound server uploadDir
            (.admitted headers prepared files false) := ⟨ready, bulk⟩
        refine sound.advance admitted ?_
        rw [receiving]
        rfl
      | true =>
        cases acquired : state.gate.acquire with
        | none => exact sound
        | some gate =>
          obtain ⟨room, _, rfl⟩ := CapacityGate.acquire_eq_some acquired
          have admitted : TurnStage.Sound server uploadDir
              (.admitted headers prepared files true) := ⟨ready, bulk⟩
          refine sound.enter admitted ?_ room
          rw [receiving]
          rfl

end

variable {prepared : RequestState}

theorem isBulkRequest_of_transferOf {served : Except Refusal Served}
    {classified : Files} {answers : HandlerAnswers} (ready : prepared.Prepared)
    (dispatched : Ensures served (Served.DispatchedFrom server prepared))
    (settled : Settled server uploadDir classified answers prepared prepared.request)
    (transferred : (transferOf uploadDir answers served).isSome = true) :
    isBulkRequest uploadDir server.unicode classified prepared = .ok true := by
  obtain ⟨transfer, here⟩ := Option.isSome_iff_exists.mp transferred
  cases served with
  | error _ => cases here
  | ok outcome =>
    cases outcome with
    | methodNotAllowed | upgraded => cases here
    | invoked handler final =>
      obtain ⟨sameRequest, selected⟩ := dispatched _ rfl
      rw [transferOf, sameRequest] at here
      exact isBulkRequest_of_transfer ready rfl settled selected here

theorem TransferState.Sound.finish (sound : state.Sound server uploadDir) (connection : Nat) :
    (state.enter
      (if (state.connections connection).leased = true then state.gate.release else state.gate)
      connection .receiving).Sound server uploadDir := by
  have idle : TurnStage.Sound server uploadDir .receiving := trivial
  have within := sound.within
  by_cases leased : (state.connections connection).leased = true
  · have held : (state.connections connection).held = 1 := by
      rw [TurnStage.held, if_pos leased]
    rw [if_pos leased]
    refine sound.enter idle ?_ ?_
    · rw [held]
      rfl
    · rw [CapacityGate.release_active, CapacityGate.release_limit]
      omega
  · have held : (state.connections connection).held = 0 := by
      rw [TurnStage.held, if_neg leased]
    rw [if_neg leased]
    refine sound.enter idle ?_ within
    rw [held]
    rfl

theorem TransferState.Sound.step (sound : state.Sound server uploadDir) {event : TransferEvent}
    (settled : SettledStep server uploadDir state event) {next : TransferState}
    (taken : server.transferStep uploadDir state event = some next) :
    next.Sound server uploadDir := by
  cases event with
  | admitHeaders connection headers env files =>
    cases stage : state.connections connection with
    | receiving =>
      simp only [transferStep, stage, Option.some.injEq] at taken
      rw [← taken]
      exact sound.admitHeaders stage headers files settled
    | admitted | serving => simp [transferStep, stage] at taken
  | dispatch connection body env answers =>
    cases stage : state.connections connection with
    | receiving | serving => simp [transferStep, stage] at taken
    | admitted headers prepared classified leased =>
      simp only [transferStep, stage, Option.some.injEq] at taken
      rw [SettledStep, stage] at settled
      have admitted := sound.stages connection
      rw [stage] at admitted
      obtain ⟨ready, bulk⟩ := admitted
      rw [← taken]
      refine sound.advance ?_ (by rw [stage]; rfl)
      intro transferred
      let dispatched : RequestState :=
        { prepared with
          request :=
            { prepared.request with body := bodyOf (headers ++ body) } }
      have dispatchedReady : dispatched.Prepared :=
        { token := ready.token, settled := ready.settled }
      have isBulk : isBulkRequest uploadDir server.unicode classified dispatched = .ok true :=
        isBulkRequest_of_transferOf dispatchedReady
          (processPrepared_dispatches ready leased (headers ++ body)) settled transferred
      have same := bulk.symm.trans isBulk
      cases same
      rfl
  | dispatchUnprepared connection data env answers =>
    cases stage : state.connections connection with
    | admitted | serving => simp [transferStep, stage] at taken
    | receiving =>
      cases terminator : FirstOccurrence.find [13, 10, 13, 10] data with
      | some _ => simp [transferStep, stage, terminator] at taken
      | none =>
        simp only [transferStep, stage, terminator, Option.some.injEq] at taken
        rw [← taken]
        refine sound.advance ?_ (by rw [stage]; rfl)
        intro transferred
        cases processed : server.processRequest env none false data with
        | error _ =>
          rw [processed] at transferred
          cases transferred
        | ok served =>
          obtain ⟨prepared, found, dispatched⟩ := processUnprepared_dispatches data served processed
          rw [SettledStep, found] at settled
          rw [processed] at transferred
          have isBulk := isBulkRequest_of_transferOf
            (prepareRequestHeaders_prepared prepared found) (.ok dispatched)
            settled.1 transferred
          exact absurd isBulk settled.2
  | finish connection =>
    cases stage : state.connections connection with
    | receiving => simp [transferStep, stage] at taken
    | admitted | serving =>
      simp only [transferStep, stage, Option.some.injEq] at taken
      rw [← taken, ← stage]
      exact sound.finish connection
  | stopAdmission =>
    cases taken
    exact { stages := sound.stages, counted := sound.counted, within := sound.within }

/-! ### Whole runs -/

theorem TransferState.initial_sound (limit : Nat) :
    (TransferState.initial limit).Sound server uploadDir :=
  { stages := fun _ => trivial
    counted := Totals.zero
    within := Nat.zero_le _ }

theorem transferStep_limit {event : TransferEvent} {next : TransferState}
    (taken : server.transferStep uploadDir state event = some next) :
    next.gate.limit = state.gate.limit := by
  cases event with
  | admitHeaders connection headers env files =>
    cases stage : state.connections connection with
    | admitted | serving => simp [transferStep, stage] at taken
    | receiving =>
      simp only [transferStep, stage, Option.some.injEq] at taken
      rw [← taken, admitHeaders]
      split
      · rfl
      · dsimp only
        split <;> rfl
      split
      · rfl
      · rfl
      · split
        · dsimp only
          split <;> rfl
        rename_i acquired
        obtain ⟨_, _, rfl⟩ := CapacityGate.acquire_eq_some acquired
        rfl
  | dispatch connection body env answers =>
    cases stage : state.connections connection with
    | receiving | serving => simp [transferStep, stage] at taken
    | admitted _ _ _ _ =>
      simp only [transferStep, stage, Option.some.injEq] at taken
      rw [← taken]
      rfl
  | dispatchUnprepared connection data env answers =>
    simp only [transferStep] at taken
    split at taken
    · cases taken
      rfl
    · cases taken
  | finish connection =>
    simp only [transferStep] at taken
    split at taken
    · cases taken
    · cases taken
      split <;> rfl
  | stopAdmission =>
    cases taken
    rfl

structure TransferState.Admitted (limit : Nat) (state : TransferState) : Prop where
  leased : ∀ connection, (state.connections connection).transfers = true →
    (state.connections connection).leased = true
  within : ∀ transferring : Finset Nat,
    (∀ connection ∈ transferring, (state.connections connection).transfers = true) →
      transferring.card ≤ limit

theorem TransferState.Sound.admitted (sound : state.Sound server uploadDir) :
    state.Admitted state.gate.limit := by
  have leased : ∀ connection, (state.connections connection).transfers = true →
      (state.connections connection).leased = true := by
    intro connection transferring
    have here := sound.stages connection
    cases stage : state.connections connection with
    | receiving | admitted =>
      rw [stage] at transferring
      cases transferring
    | serving transfer leased =>
      rw [stage] at transferring here
      exact here transferring
  constructor
  case leased => exact leased
  case within =>
    intro transferring all
    refine Nat.le_trans (sound.counted.card_le ?_) sound.within
    intro connection member
    rw [TurnStage.held, if_pos (leased connection (all connection member))]
    exact Nat.one_pos

/-- While every request is settled when it is dispatched, bulk transfers stay within
their limit, each with its lease. -/
theorem run_transfersAdmitted (server : XFerryServer) (uploadDir : FilePath) (limit : Nat)
    {events : List TransferEvent} {final : TransferState}
    (settled : Along (server.transferStep uploadDir) (SettledStep server uploadDir)
      (.initial limit) events)
    (reached : run (server.transferStep uploadDir) (.initial limit) events = some final) :
    final.Admitted limit := by
  have both : final.Sound server uploadDir ∧ final.gate.limit = limit := by
    apply run_invariant (fun state => state.Sound server uploadDir ∧ state.gate.limit = limit) ?_
      ⟨TransferState.initial_sound limit, rfl⟩ settled reached
    intro state event next kept here taken
    exact ⟨kept.1.step here taken, (transferStep_limit taken).trans kept.2⟩
  have admitted := both.1.admitted
  rwa [both.2] at admitted

/-! ### Downloads past the limit -/

def coreRegistered : RegisteredMethods :=
  { overrideCore := false, plugins := [], tables := .core, built := rfl }

def sampleUploadDir : FilePath := { root := "/".toList, parts := ["srv".toList] }

def sampleFiles : Files :=
  { resolve := fun path => .ok path
    kind := fun path => if path = sampleUploadDir.join "a.txt".toList then some .file else none
    packageResource := fun _ => none
    etag := fun _ => "1".toList
    artifact := fun _ => none }

def sampleAnswers : HandlerAnswers :=
  { files := sampleFiles
    publishes := true
    servesEncrypted := true
    pluginTransfer := fun _ _ => none }

def sampleHeaders (line : String) : Bytes := encodeAscii line.toList ++ [13, 10, 13, 10]

def sampleDownload (connection : Nat) (line : String) : List TransferEvent :=
  [ .admitHeaders connection (sampleHeaders line) openSurroundings sampleFiles,
    .dispatch connection [] openSurroundings sampleAnswers ]

def sampleServer : XFerryServer := plainServer coreRegistered

theorem settled_of_get {request : HTTPRequest}
    (same : prepared.request.requestLine = request.requestLine)
    (get : request.requestLine.method = "GET".toList) :
    Settled sampleServer sampleUploadDir sampleFiles sampleAnswers prepared request := by
  have core : ∀ handler, SelectedBy sampleServer prepared (.method handler) →
      handler = .core (coreMethod "GET" "handle_get" false) := by
    intro handler selected
    cases selected with
    | method _ _ _ found =>
      rw [same, get] at found
      have here : sampleServer.registered.tables.getHandler "GET".toList =
          some (.core (coreMethod "GET" "handle_get" false)) := by
        decide +kernel
      exact Option.some.inj (found.symm.trans here)
  constructor
  case spelled =>
    intro spec selected _
    cases core _ selected
    exact get
  case resolved =>
    intro spec _ asks
    exact asks
  case incomplete =>
    intro _ post
    have other : "GET".toList ≠ "POST".toList := by decide
    exact absurd (get.symm.trans post) other
  case plugins =>
    intro spec selected
    cases core _ selected

def preparedDownload : RequestState :=
  { request :=
      { requestLine :=
          { method := "GET".toList
            rawTarget := "/uploads/a.txt".toList
            rawPath := "/uploads/a.txt".toList
            path := "/uploads/a.txt".toList
            queryString := []
            httpVersion := "HTTP/1.0".toList }
        fields := []
        body := []
        parseError := none }
    admission := some
      { authority := none
        authorization := none
        origin := none
        secFetchSite := none
        connection := none
        upgrade := none
        websocketKey := none
        websocketVersion := none }
    authentication := .disabled
    authentications := 1
    dispatch := none
    dispatchPrepared := true
    originPolicyPassed := false }

theorem sampleDownload_settled : Along (sampleServer.transferStep sampleUploadDir)
    (SettledStep sampleServer sampleUploadDir) (.initial 1)
    (sampleDownload 0 "GET /uploads/a.txt HTTP/1.0") := by
  have prepared : sampleServer.prepareRequestHeaders openSurroundings
      (sampleHeaders "GET /uploads/a.txt HTTP/1.0") = .ok preparedDownload := by
    decide +kernel
  have bulk : isBulkRequest sampleUploadDir sampleServer.unicode sampleFiles preparedDownload =
      .ok true := by
    decide +kernel
  have admitted : sampleServer.transferStep sampleUploadDir (.initial 1)
      (.admitHeaders 0 (sampleHeaders "GET /uploads/a.txt HTTP/1.0") openSurroundings sampleFiles) =
        some ((TransferState.initial 1).enter { limit := 1, active := 1, closed := false } 0
          (.admitted (sampleHeaders "GET /uploads/a.txt HTTP/1.0") preparedDownload sampleFiles
            true)) := by
    simp only [transferStep, TransferState.initial, admitHeaders, prepared, bulk]
    rfl
  refine (along_cons_some admitted).mpr ⟨rfl, ?_, ?_⟩
  · rw [SettledStep, TransferState.enter_same]
    exact settled_of_get rfl rfl
  · split <;> trivial

theorem sampleDownload_admitted : ∃ final,
    run (sampleServer.transferStep sampleUploadDir) (.initial 1)
        (sampleDownload 0 "GET /uploads/a.txt HTTP/1.0") = some final ∧
      (final.connections 0).transfers = true ∧ final.Admitted 1 := by
  have transferring : ((run (sampleServer.transferStep sampleUploadDir) (.initial 1)
      (sampleDownload 0 "GET /uploads/a.txt HTTP/1.0")).map fun final =>
        (final.connections 0).transfers) = some true := by
    decide +kernel
  obtain ⟨final, reached, transfers⟩ := Option.map_eq_some_iff.mp transferring
  exact ⟨final, reached, transfers,
    run_transfersAdmitted sampleServer sampleUploadDir 1 sampleDownload_settled reached⟩

/-- With a limit of one transfer, two requests that spell GET in lower case stream the file
at once, and neither has a lease. -/
theorem lowerCaseDownloads_not_admitted :
    ¬ ∀ (server : XFerryServer) (uploadDir : FilePath) (limit : Nat)
      (events : List TransferEvent) (final : TransferState),
        run (server.transferStep uploadDir) (.initial limit) events = some final →
          final.Admitted limit := by
  intro all
  have streams : ((run (sampleServer.transferStep sampleUploadDir) (.initial 1)
      (sampleDownload 0 "get /uploads/a.txt HTTP/1.0" ++
        sampleDownload 1 "get /uploads/a.txt HTTP/1.0")).map fun final =>
      ((final.connections 0).transfers && (final.connections 1).transfers,
        (final.connections 0).leased || (final.connections 1).leased)) = some (true, false) := by
    decide +kernel
  obtain ⟨final, reached, both⟩ := Option.map_eq_some_iff.mp streams
  have admitted := all _ _ _ _ final reached
  rw [Prod.mk.injEq, Bool.and_eq_true, Bool.or_eq_false_iff] at both
  have leased := admitted.leased 0 both.1.1
  rw [both.2.1] at leased
  cases leased

end XFerry.Server
