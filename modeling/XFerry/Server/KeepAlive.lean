/-
Several requests on one connection.

The server receives a request, hands it to the request pipeline, and receives the
next one if the pipeline keeps the connection open.  The receiver starts afresh each
time, so bytes it has read past the end of a request are gone.
-/

import XFerry.Http.ReceiveCompleteness

namespace XFerry.Server

open Python EventMachine Http List Receiver

def keepAliveMax : Nat := 100

/-- `taken` is what the receiver has read from the socket for the request. -/
inductive Stage where
  | receiving (receiver : Receiver)
  | processing (taken : Bytes)
  | closed
deriving DecidableEq

/-- `unread` is what the peer has sent or will send and the server has not read;
`processed` is what the request pipeline has been given, in order. -/
structure Connection where
  unread : Bytes
  processed : List Bytes
  stage : Stage
deriving DecidableEq

open Connection

inductive Event where
  | turn (turn : Turn)
  | answered (keepAlive : Bool) (now : Seconds)

def Connection.initial (stream : Bytes) (now : Seconds) : Connection :=
  { unread := stream, processed := [], stage := .receiving (.initial now) }

/-- The loop of `_handle_client`.  The settings of a call can differ from request to
request, in the memory that is left and in the callbacks. -/
def Connection.step (unicode : Unicode) (config : Nat → ReceiveConfig) : Machine Connection Event
  | connection, .turn turn =>
    match connection.stage with
    | .receiving receiver =>
      if turn.arrival.Possible connection.unread then
        let unread := connection.unread.drop turn.arrival.bytes.length
        match receiver.turn unicode (config connection.processed.length) turn with
        | none => none
        | some (.waiting receiver) =>
          some { connection with unread := unread, stage := .receiving receiver }
        | some (.finished outcome) =>
          match outcome.handedOver with
          | none => some { connection with unread := unread, stage := .closed }
          | some data =>
            some
              { unread := unread
                processed := connection.processed ++ [data]
                stage := .processing (receiver.received ++ turn.arrival.bytes) }
      else none
    | .processing _ => none
    | .closed => none
  | connection, .answered keepAlive now =>
    match connection.stage with
    | .processing _ =>
      if keepAlive = true then
        if connection.processed.length < keepAliveMax then
          some { connection with stage := .receiving (.initial now) }
        else none
      else some { connection with stage := .closed }
    | .receiving _ => none
    | .closed => none

/-- The processed requests are the first of the sent ones, each as it was sent, and
while the server waits for a request everything it has read since is still there. -/
structure Connection.InStep (requests : List Bytes) (connection : Connection) : Prop where
  inOrder : connection.processed <+: requests
  undropped : ∀ receiver, connection.stage = .receiving receiver →
    connection.processed.flatten ++ receiver.received ++ connection.unread = requests.flatten

/-- No header block is broken off, by the peer or by a callback that times out, and the
connection is kept open only after a request with which nothing was read past its end. -/
def KeepsFraming (unicode : Unicode) (config : Nat → ReceiveConfig) (connection : Connection) :
    Event → Prop
  | .turn turn => ∀ receiver, connection.stage = .receiving receiver →
      KeepsHeaderWhole unicode (config connection.processed.length) (.waiting receiver) turn
  | .answered keepAlive _ => ∀ taken, connection.stage = .processing taken → keepAlive = true →
      ∀ request ∈ connection.processed.getLast?, taken.length ≤ request.length

def decidableKeepsFraming (unicode : Unicode) (config : Nat → ReceiveConfig)
    (connection : Connection) : ∀ event : Event,
    Decidable (KeepsFraming unicode config connection event)
  | .turn turn =>
    match stage : connection.stage with
    | .receiving receiver =>
      decidable_of_iff
        (KeepsHeaderWhole unicode (config connection.processed.length) (.waiting receiver) turn)
        (by simp [KeepsFraming, stage])
    | .processing _ => isTrue (by simp [KeepsFraming, stage])
    | .closed => isTrue (by simp [KeepsFraming, stage])
  | .answered keepAlive _ =>
    match stage : connection.stage with
    | .processing taken =>
      decidable_of_iff (keepAlive = true →
          (connection.processed.getLast?.all fun request =>
            decide (taken.length ≤ request.length)) = true)
        (by cases last : connection.processed.getLast? <;> simp [KeepsFraming, stage, last])
    | .receiving _ => isTrue (by simp [KeepsFraming, stage])
    | .closed => isTrue (by simp [KeepsFraming, stage])

variable {unicode : Unicode} {config : Nat → ReceiveConfig}

instance (connection : Connection) (event : Event) :
    Decidable (KeepsFraming unicode config connection event) :=
  decidableKeepsFraming unicode config connection event

theorem result_handedOver {receiver : Receiver} {data : Bytes}
    (handed : receiver.result.handedOver = some data) : data <+: receiver.received := by
  cases inHeaders : receiver.body with
  | none =>
    simp only [result, inHeaders, ReceiveOutcome.handedOver] at handed
    split at handed
    · cases handed
    · cases handed
      exact prefix_rfl
  | some body =>
    simp only [result, inHeaders, ReceiveOutcome.handedOver] at handed
    split at handed
    · cases handed
    · cases handed
      exact take_prefix _ _

def Holds (read : Bytes) : Phase → Prop
  | .waiting receiver => receiver.received = read
  | .finished outcome => ∀ data, outcome.handedOver = some data → data <+: read

theorem holds_of_refused {read : Bytes} {outcome : ReceiveOutcome} (refused : outcome.Refused) :
    Holds read (.finished outcome) := by
  intro data handed
  rw [refused.handedOver_eq] at handed
  cases handed

theorem checkBody_holds (receiver : Receiver) (body : Body) :
    Holds receiver.received (receiver.checkBody body) := by
  unfold checkBody
  split
  · exact holds_of_refused (.rejected _)
  split
  · exact fun data handed => result_handedOver handed
  · exact rfl

theorem addHeaderChunk_holds (receiver : Receiver) (config : ReceiveConfig) (chunk : Bytes)
    (later : Seconds) :
    Holds (receiver.received ++ chunk) (receiver.addHeaderChunk unicode config chunk later) := by
  unfold addHeaderChunk
  dsimp only
  split
  · split
    · case h_1 outcome refused => exact holds_of_refused (refused_of_examineHeaders refused)
    · exact fun data handed => result_handedOver handed
    · exact checkBody_holds _ _
  split
  · exact holds_of_refused (.rejected _)
  · exact rfl

theorem turn_holds {receiver : Receiver} {config : ReceiveConfig} {turn : Turn} {next : Phase}
    (taken : receiver.turn unicode config turn = some next) :
    Holds (receiver.received ++ turn.arrival.bytes) next := by
  have earlier : Holds (receiver.received ++ turn.arrival.bytes) (.finished receiver.result) :=
    fun data handed => (result_handedOver handed).trans (prefix_append _ _)
  cases inHeaders : receiver.body with
  | none =>
    simp only [Receiver.turn, inHeaders, Receiver.headerTurn] at taken
    split at taken
    · cases taken
      exact holds_of_refused (.rejected _)
    split at taken
    · cases taken
      exact earlier
    · cases taken
      exact earlier
    rename_i chunk arrived
    split at taken
    · cases taken
    · cases taken
      rw [arrived]
      exact addHeaderChunk_holds receiver config chunk turn.later
  | some body =>
    simp only [Receiver.turn, inHeaders, Receiver.bodyTurn] at taken
    split at taken
    · cases taken
      exact holds_of_refused (.rejected _)
    split at taken
    · cases taken
      exact earlier
    split at taken
    · cases taken
      exact holds_of_refused (.rejected _)
    · case h_2 arrived =>
      split at taken
      · cases taken
        exact holds_of_refused (.rejected _)
      split at taken
      · cases taken
        simp [Holds, arrived, Arrival.bytes]
      · cases taken
        exact holds_of_refused (.rejected _)
    · case h_3 chunk arrived =>
      split at taken
      · cases taken
      · cases taken
        rw [arrived]
        exact checkBody_holds _ body

theorem whole_unique {first second stream : Bytes} (whole : IsWholeRequest unicode first)
    (whole' : IsWholeRequest unicode second) (starts : first <+: stream)
    (starts' : second <+: stream) : first = second := by
  obtain ⟨header, body, joined, located, announced⟩ := whole
  obtain ⟨header', body', joined', located', announced'⟩ := whole'
  obtain ⟨more, extended⟩ := starts
  obtain ⟨more', extended'⟩ := starts'
  have inStream : FirstOccurrence.find headerTerminator stream = some header.length := by
    rw [← extended]
    exact FirstOccurrence.find_append located
  have inStream' : FirstOccurrence.find headerTerminator stream = some header'.length := by
    rw [← extended']
    exact FirstOccurrence.find_append located'
  have sameLength : header.length = header'.length := by
    rw [inStream] at inStream'
    exact Option.some.inj inStream'
  have both : header ++ (headerTerminator ++ (body ++ more)) =
      header' ++ (headerTerminator ++ (body' ++ more')) := by
    rw [joined] at extended
    rw [joined'] at extended'
    simp only [append_assoc] at extended extended'
    rw [extended, extended']
  have sameHeader := append_inj_left both sameLength
  rw [sameHeader] at announced
  rw [announced] at announced'
  have sameBody : body.length = body'.length := Option.some.inj announced'
  apply List.IsPrefix.eq_of_length
  · apply prefix_of_prefix_length_le ⟨more, extended⟩ ⟨more', extended'⟩
    simp only [joined, joined', length_append, sameLength, sameBody]
    exact le_refl _
  · simp only [joined, joined', length_append, sameLength, sameBody]

def StageValid (unicode : Unicode) (config : ReceiveConfig) (processed remaining : List Bytes)
    (unread : Bytes) : Stage → Prop
  | .receiving receiver => receiver.Valid unicode config ∧
      receiver.received ++ unread = remaining.flatten
  | .processing taken => ∃ request ∈ processed.getLast?, request <+: taken ∧
      taken ++ unread = request ++ remaining.flatten
  | .closed => True

def Connection.Valid (unicode : Unicode) (config : Nat → ReceiveConfig) (requests : List Bytes)
    (connection : Connection) : Prop :=
  ∃ remaining, connection.processed ++ remaining = requests ∧
    StageValid unicode (config connection.processed.length) connection.processed remaining
      connection.unread connection.stage

theorem bytes_append_drop {unread : Bytes} {arrival : Arrival}
    (possible : arrival.Possible unread) :
    arrival.bytes ++ unread.drop arrival.bytes.length = unread := by
  cases arrival with
  | data chunk =>
    obtain ⟨more, rfl⟩ := possible
    simp [Arrival.bytes]
  | closed | timedOut => rfl

variable {requests : List Bytes} {connection next : Connection}

theorem Connection.Valid.turn
    {turn : Turn} (whole : ∀ request ∈ requests, IsWholeRequest unicode request)
    (valid : connection.Valid unicode config requests)
    (kept : KeepsFraming unicode config connection (.turn turn))
    (taken : step unicode config connection (.turn turn) = some next) :
    next.Valid unicode config requests := by
  obtain ⟨remaining, inOrder, stageValid⟩ := valid
  cases stage : connection.stage with
  | processing | closed => simp [step, stage] at taken
  | receiving receiver =>
    rw [stage] at stageValid
    obtain ⟨receiverValid, joined⟩ := stageValid
    simp only [step, stage] at taken
    split at taken
    · case isTrue possible =>
      have read : receiver.received ++ turn.arrival.bytes ++
          connection.unread.drop turn.arrival.bytes.length = remaining.flatten := by
        rw [append_assoc, bytes_append_drop possible]
        exact joined
      split at taken
      · cases taken
      · case h_2 later moved =>
        have follows := turn_follows receiverValid moved
        have held : later.received = receiver.received ++ turn.arrival.bytes := turn_holds moved
        cases taken
        refine ⟨remaining, inOrder, follows.2, ?_⟩
        rw [held]
        exact read
      · case h_3 outcome moved =>
        have complete := (turn_follows receiverValid moved).mpr (kept receiver stage)
        split at taken
        · cases taken
          exact ⟨remaining, inOrder, trivial⟩
        rename_i data handed
        have first : data <+: receiver.received ++ turn.arrival.bytes :=
          turn_holds moved data handed
        have starts : data <+: remaining.flatten := by
          rw [← read]
          exact first.trans (prefix_append _ _)
        cases remaining with
        | nil =>
          exact absurd (prefix_nil.mp starts) (ReceiveOutcome.handedOver_ne_nil handed)
        | cons request rest =>
          have same : data = request := by
            apply whole_unique (complete data handed) (whole request _) starts
            · exact prefix_append _ _
            · rw [← inOrder]
              simp
          cases taken
          refine ⟨rest, ?_, data, ?_, first, ?_⟩
          · rw [← inOrder, same]
            simp
          · simp
          · rw [read, same]
            rfl
    · cases taken

theorem Connection.Valid.answered
    {keepAlive : Bool} {now : Seconds} (valid : connection.Valid unicode config requests)
    (kept : KeepsFraming unicode config connection (.answered keepAlive now))
    (taken : step unicode config connection (.answered keepAlive now) = some next) :
    next.Valid unicode config requests := by
  obtain ⟨remaining, inOrder, stageValid⟩ := valid
  cases stage : connection.stage with
  | receiving | closed => simp [step, stage] at taken
  | processing read =>
    rw [stage] at stageValid
    obtain ⟨request, last, starts, joined⟩ := stageValid
    simp only [step, stage] at taken
    split at taken
    · case isTrue open_ =>
      split at taken
      · cases taken
        -- Nothing was read past the request, so the rest of the stream is unread.
        have exactly := starts.eq_of_length_le (kept read stage open_ request last)
        rw [← exactly] at joined
        refine ⟨remaining, inOrder, initial_valid now, ?_⟩
        exact append_cancel_left joined
      · cases taken
    · cases taken
      exact ⟨remaining, inOrder, trivial⟩

theorem Connection.Valid.inStep {connection : Connection}
    (valid : connection.Valid unicode config requests) : connection.InStep requests := by
  obtain ⟨remaining, inOrder, stageValid⟩ := valid
  constructor
  · exact ⟨remaining, inOrder⟩
  · intro receiver stage
    rw [stage] at stageValid
    rw [append_assoc, stageValid.2, ← flatten_append, inOrder]

theorem Connection.Valid.keepsFraming
    {event : Event} (whole : ∀ request ∈ requests, IsWholeRequest unicode request)
    (valid : connection.Valid unicode config requests)
    (taken : step unicode config connection event = some next)
    (inStep : next.InStep requests) : KeepsFraming unicode config connection event := by
  obtain ⟨remaining, inOrder, stageValid⟩ := valid
  cases event with
  | turn turn =>
    intro receiver stage
    rw [stage] at stageValid
    simp only [step, stage] at taken
    split at taken
    · split at taken
      · cases taken
      · case h_2 later moved => exact (turn_follows stageValid.1 moved).1
      rename_i outcome moved
      apply (turn_follows stageValid.1 moved).mp
      intro data handed
      rw [handed] at taken
      cases taken
      apply whole data
      obtain ⟨more, joined⟩ := inStep.inOrder
      rw [← joined]
      simp
    · cases taken
  | answered keepAlive now =>
    intro read stage open_ request last
    rw [stage] at stageValid
    obtain ⟨other, found, starts, joined⟩ := stageValid
    have same : other = request := by
      rw [last] at found
      exact (Option.some.inj found).symm
    simp only [step, stage, if_pos open_] at taken
    split at taken
    · cases taken
      have undropped := inStep.undropped _ rfl
      simp only [Receiver.initial, append_nil, ← inOrder, flatten_append,
        append_cancel_left_eq] at undropped
      have lengths := congrArg length joined
      rw [undropped, same] at lengths
      simp only [length_append] at lengths
      omega
    · cases taken

/-- In every run over whole requests that breaks no header block off and keeps the
connection open only where nothing was read past a request, the requests processed
are the first of those sent, unchanged, and none is dropped. -/
theorem Connection.requests_in_step (unicode : Unicode) (config : Nat → ReceiveConfig)
    (requests : List Bytes) (now : Seconds) (events : List Event) (final : Connection)
    (whole : ∀ request ∈ requests, IsWholeRequest unicode request)
    (kept : Along (step unicode config) (KeepsFraming unicode config)
      (.initial requests.flatten now) events)
    (reached : run (step unicode config) (.initial requests.flatten now) events =
      some final) : final.InStep requests := by
  have start : (initial requests.flatten now).Valid unicode config requests :=
    ⟨requests, rfl, initial_valid now, rfl⟩
  have valid : final.Valid unicode config requests := by
    apply run_invariant (Connection.Valid unicode config requests) _ start kept reached
    intro connection event next valid guarded taken
    cases event with
    | turn turn => exact valid.turn whole guarded taken
    | answered keepAlive now => exact valid.answered guarded taken
  exact valid.inStep

variable (unicode config requests) in
def StaysInStep (connection : Connection) (event : Event) : Prop :=
  ∀ next ∈ step unicode config connection event, next.InStep requests

/-- All states of a run are in step exactly when each of its steps keeps the framing. -/
theorem Connection.run_in_step_iff {now : Seconds} {events : List Event} {final : Connection}
    (whole : ∀ request ∈ requests, IsWholeRequest unicode request)
    (reached : run (step unicode config) (.initial requests.flatten now) events = some final) :
    Along (step unicode config) (StaysInStep unicode config requests)
        (.initial requests.flatten now) events ↔
      Along (step unicode config) (KeepsFraming unicode config)
        (.initial requests.flatten now) events := by
  have valid : (initial requests.flatten now).Valid unicode config requests :=
    ⟨requests, rfl, initial_valid now, rfl⟩
  generalize initial requests.flatten now = connection at *
  induction events generalizing connection with
  | nil => exact Iff.rfl
  | cons event rest ih =>
    obtain ⟨next, taken, reached⟩ := Option.bind_eq_some_iff.mp reached
    have later (kept : KeepsFraming unicode config connection event) :
        next.Valid unicode config requests := by
      cases event with
      | turn turn => exact valid.turn whole kept taken
      | answered keepAlive now => exact valid.answered kept taken
    have here : next.InStep requests ↔ KeepsFraming unicode config connection event :=
      ⟨valid.keepsFraming whole taken, fun kept => (later kept).inStep⟩
    simp only [along_cons_some taken, StaysInStep, taken, Option.mem_some_iff, forall_eq', here]
    exact and_congr_right fun kept => ih next reached (later kept)

def sampleRequest : Bytes := asciiBytes "GET / HTTP/1.1\r\nHost: localhost\r\n\r\n"

theorem sampleRequest_whole : IsWholeRequest .ascii sampleRequest :=
  ⟨asciiBytes "GET / HTTP/1.1\r\nHost: localhost", [], by decide +kernel, by decide +kernel,
    by decide +kernel⟩

def sampleRequests : List Bytes := [sampleRequest, sampleRequest]

def separateRequests : List Event :=
  [.turn (stillTurn (.data sampleRequest)), .answered true 0,
    .turn (stillTurn (.data sampleRequest)), .answered true 0,
    .turn (stillTurn .closed)]

def pipelinedRequests : List Event :=
  [.turn (stillTurn (.data (sampleRequest ++ sampleRequest))), .answered true 0]

theorem sampleRequests_whole : ∀ request ∈ sampleRequests, IsWholeRequest .ascii request := by
  simp [sampleRequests, sampleRequest_whole]

theorem separateRequests_in_step :
    ∃ final, run (step .ascii fun _ => sampleReceive)
        (.initial sampleRequests.flatten 0) separateRequests = some final ∧
      final.InStep sampleRequests := by
  have enabled : (run (step .ascii fun _ => sampleReceive)
      (.initial sampleRequests.flatten 0) separateRequests).isSome = true := by
    decide +kernel
  obtain ⟨final, reached⟩ := Option.isSome_iff_exists.mp enabled
  exact ⟨final, reached, requests_in_step .ascii (fun _ => sampleReceive)
    sampleRequests 0 separateRequests final sampleRequests_whole (by decide +kernel) reached⟩

theorem separateRequests_stay_in_step :
    Along (step .ascii fun _ => sampleReceive)
      (StaysInStep .ascii (fun _ => sampleReceive) sampleRequests)
      (.initial sampleRequests.flatten 0) separateRequests :=
  (run_in_step_iff sampleRequests_whole
    (Option.some_get (by decide +kernel)).symm).mpr (by decide +kernel)

/-- The second request is gone, and the server waits for more. -/
theorem pipelinedRequests_drop_request :
    (∀ request ∈ sampleRequests, IsWholeRequest .ascii request) ∧
      run (step .ascii fun _ => sampleReceive) (.initial sampleRequests.flatten 0)
          pipelinedRequests =
        some
          { unread := []
            processed := [sampleRequest]
            stage := .receiving (.initial 0) } ∧
      ¬ Connection.InStep sampleRequests
        { unread := []
          processed := [sampleRequest]
          stage := .receiving (.initial 0) } := by
  refine ⟨sampleRequests_whole, by decide +kernel, fun inStep => ?_⟩
  have dropped := inStep.undropped (.initial 0) rfl
  revert dropped
  decide +kernel

end XFerry.Server
