/-
The receiver of one HTTP request.

Each turn of the loop reads the clock, asks the socket once, and may read the clock
again.  What the socket answers is the environment's choice; how many bytes it may
answer with is the receiver's.
-/

import XFerry.EventMachine
import XFerry.Http.HeaderFields
import XFerry.Lists

namespace XFerry.Http

open Python EventMachine

abbrev Seconds := ℚ

def headerTimeout : Seconds := 30
def defaultBodyMinRateGrace : Seconds := 1 / 4
def shortestBodyTimeout : Seconds := 1 / 1000
def recvChunk : Nat := 65536
def headerTerminator : Bytes := [13, 10, 13, 10]

inductive ReceiveRejectionReason where
  | headerTooLarge
  | bodyTooLarge
  | headerTimeout
  | bodyTimeout
  | bodyIdleTimeout
  | bodyRateTooSlow
  | bodyIncomplete
  | unsupportedTransferEncoding
  | invalidContentLength
  | bodyMemoryBudgetExceeded
  | requestAdmissionRejected
deriving DecidableEq, Repr

structure BodyMemoryBudget where
  maxBytes : Nat
  currentBytes : Nat
  maxBytes_pos : 0 < maxBytes

/-- `try_reserve`.  A reservation is the number of its bytes. -/
def BodyMemoryBudget.tryReserve (budget : BodyMemoryBudget) (byteCount : Nat) : Option Nat :=
  if byteCount = 0 then none
  else if budget.maxBytes < budget.currentBytes + byteCount then none
  else some byteCount

/-- What the callback of the headers comes to.  It may send a refusal itself, and
`timedOut` is the `TimeoutError` of that send. -/
inductive HeaderAdmission where
  | admitted
  | refused
  | timedOut
  | raised (message : String)

/-- The arguments of the call.  `bodyMemoryBudget` is the budget as it stands when the
header block is complete, and `admitHeaders` what the callback answers. -/
structure ReceiveConfig where
  maxUploadSize : Nat
  maxHeaderSize : Nat
  bodyIdleTimeout : Option Seconds
  bodyTimeout : Option Seconds
  bodyMinRate : Seconds
  bodyMemoryBudget : Option BodyMemoryBudget
  bodyLimitResolver : Option (Text → Option Int)
  admitHeaders : Option (Bytes → HeaderAdmission)
  maxUploadSize_pos : 0 < maxUploadSize
  maxHeaderSize_pos : 0 < maxHeaderSize
  bodyIdleTimeout_pos : ∀ timeout ∈ bodyIdleTimeout, 0 < timeout
  bodyTimeout_pos : ∀ timeout ∈ bodyTimeout, 0 < timeout
  bodyMinRate_nonneg : 0 ≤ bodyMinRate

structure RequestReceiveResult where
  data : Bytes
  bodyReservation : Option Nat
  rejectionReason : Option ReceiveRejectionReason
deriving DecidableEq

/-- `raised` is the `ValueError` of a resolver that answers a negative limit, or what the
callback of the headers raises. -/
inductive ReceiveOutcome where
  | returned (result : RequestReceiveResult)
  | raised (message : String)
deriving DecidableEq

def ReceiveOutcome.handedOver : ReceiveOutcome → Option Bytes
  | .returned result => if result.data = [] then none else some result.data
  | .raised _ => none

def reject (reason : ReceiveRejectionReason) : ReceiveOutcome :=
  .returned { data := [], bodyReservation := none, rejectionReason := some reason }

structure Framing where
  contentLength : Nat
  bodyLimit : Nat
  bodyReservation : Option Nat
deriving DecidableEq

def effectiveBodyLimit (config : ReceiveConfig) (headersPart : Text) : Except String Nat :=
  match config.bodyLimitResolver.bind fun resolver => resolver headersPart with
  | none => .ok config.maxUploadSize
  | some limit =>
    if limit < 0 then .error "body_limit_resolver must return a non-negative limit"
    else .ok limit.toNat

/-- The reservation of the body, or `none` where the budget refuses it. -/
def reserveBody (config : ReceiveConfig) (contentLength : Nat) : Option (Option Nat) :=
  if contentLength = 0 then some none
  else
    match config.bodyMemoryBudget with
    | none => some none
    | some budget => (budget.tryReserve contentLength).map some

def admission (config : ReceiveConfig) (headers : Bytes) : HeaderAdmission :=
  match config.admitHeaders with
  | none => .admitted
  | some answer => answer headers

/-- What the call comes to where the headers are not accepted, or `none` where the
callback times out: the loop takes that for a timeout of the socket. -/
def examineHeaders (unicode : Unicode) (config : ReceiveConfig) (header : Bytes) :
    Except (Option ReceiveOutcome) Framing :=
  if config.maxHeaderSize < header.length then .error (some (reject .headerTooLarge))
  else
    let headersPart := decodeReplacing header
    if hasTransferEncoding unicode headersPart then
      .error (some (reject .unsupportedTransferEncoding))
    else
      match parseContentLength unicode headersPart with
      | none => .error (some (reject .invalidContentLength))
      | some contentLength =>
        match effectiveBodyLimit config headersPart with
        | .error message => .error (some (.raised message))
        | .ok bodyLimit =>
          if bodyLimit < contentLength then .error (some (reject .bodyTooLarge))
          else
            match admission config (header ++ headerTerminator) with
            | .refused => .error (some (reject .requestAdmissionRejected))
            | .timedOut => .error none
            | .raised message => .error (some (.raised message))
            | .admitted =>
              match reserveBody config contentLength with
              | none => .error (some (reject .bodyMemoryBudgetExceeded))
              | some bodyReservation =>
                .ok
                  { contentLength := contentLength
                    bodyLimit := bodyLimit
                    bodyReservation := bodyReservation }

structure Body where
  headerEnd : Nat
  framing : Framing
  startTime : Option Seconds
deriving DecidableEq

/-- `body` is there once the headers have been received. -/
structure Receiver where
  startTime : Seconds
  received : Bytes
  body : Option Body
deriving DecidableEq

def Receiver.initial (startTime : Seconds) : Receiver :=
  { startTime := startTime, received := [], body := none }

def Body.received (body : Body) (data : Bytes) : Nat :=
  data.length - body.headerEnd - headerTerminator.length

def Body.rateDeadline (config : ReceiveConfig) (body : Body) : Option Seconds :=
  match body.startTime with
  | none => none
  | some startTime =>
    if body.framing.contentLength = 0 ∨ config.bodyMinRate = 0 then none
    else
      some (startTime +
        max defaultBodyMinRateGrace (body.framing.contentLength / config.bodyMinRate))

def Body.expiredDeadline (config : ReceiveConfig) (body : Body) (data : Bytes) (now : Seconds) :
    Option ReceiveRejectionReason :=
  match body.startTime with
  | none => none
  | some startTime =>
    if body.framing.contentLength = 0 then none
    else if body.framing.contentLength ≤ body.received data then none
    else if (config.bodyTimeout.any fun timeout => decide (timeout ≤ now - startTime)) = true then
      some .bodyTimeout
    else if ((body.rateDeadline config).any fun deadline => decide (deadline ≤ now)) = true then
      some .bodyRateTooSlow
    else none

def leastTimeout : List (Seconds × ReceiveRejectionReason) →
    Option (Seconds × ReceiveRejectionReason)
  | [] => none
  | timeout :: rest =>
    match leastTimeout rest with
    | none => some timeout
    | some least => if least.1 < timeout.1 then some least else some timeout

def Body.recvTimeoutReason (config : ReceiveConfig) (body : Body) (now : Seconds) :
    Option ReceiveRejectionReason :=
  let idle := config.bodyIdleTimeout.map fun timeout =>
    (timeout, ReceiveRejectionReason.bodyIdleTimeout)
  let total := body.startTime.bind fun startTime => config.bodyTimeout.map fun timeout =>
    (max shortestBodyTimeout (timeout - (now - startTime)), ReceiveRejectionReason.bodyTimeout)
  let rate := (body.rateDeadline config).map fun deadline =>
    (max shortestBodyTimeout (deadline - now), ReceiveRejectionReason.bodyRateTooSlow)
  (leastTimeout (idle.toList ++ total.toList ++ rate.toList)).map Prod.snd

inductive Arrival where
  | data (chunk : Bytes)
  | closed
  | timedOut
deriving DecidableEq

def Arrival.bytes : Arrival → Bytes
  | .data chunk => chunk
  | .closed => []
  | .timedOut => []

def Arrival.Possible (unread : Bytes) : Arrival → Prop
  | .data chunk => chunk <+: unread
  | .closed => unread = []
  | .timedOut => True

instance (unread : Bytes) : ∀ arrival : Arrival, Decidable (arrival.Possible unread)
  | .data chunk => inferInstanceAs (Decidable (chunk <+: unread))
  | .closed => inferInstanceAs (Decidable (unread = []))
  | .timedOut => isTrue trivial

/-- `now` is read before the socket is asked, and `later` after it has answered. -/
structure Turn where
  now : Seconds
  arrival : Arrival
  later : Seconds

def stillTurn (arrival : Arrival) : Turn := { now := 0, arrival := arrival, later := 0 }

inductive Phase where
  | waiting (receiver : Receiver)
  | finished (outcome : ReceiveOutcome)
deriving DecidableEq

def Receiver.result (receiver : Receiver) : ReceiveOutcome :=
  match receiver.body with
  | none =>
    .returned { data := receiver.received, bodyReservation := none, rejectionReason := none }
  | some body =>
    .returned
      { data := receiver.received.take
          (body.headerEnd + headerTerminator.length + body.framing.contentLength)
        bodyReservation := body.framing.bodyReservation
        rejectionReason := none }

/-- The checks made on the body so far, when the header block has just been completed
and after each later chunk. -/
def Receiver.checkBody (receiver : Receiver) (body : Body) : Phase :=
  if body.framing.bodyLimit < body.received receiver.received then .finished (reject .bodyTooLarge)
  else if body.framing.contentLength ≤ body.received receiver.received then
    .finished receiver.result
  else .waiting receiver

def Receiver.headerRecvSize (config : ReceiveConfig) (receiver : Receiver) : Nat :=
  min recvChunk (max 1 (config.maxHeaderSize + headerTerminator.length - receiver.received.length))

def Receiver.bodyRecvSize (receiver : Receiver) (body : Body) : Nat :=
  min recvChunk (max 1 (body.framing.contentLength - body.received receiver.received))

def Receiver.addHeaderChunk (unicode : Unicode) (config : ReceiveConfig) (receiver : Receiver)
    (chunk : Bytes) (later : Seconds) : Phase :=
  let data := receiver.received ++ chunk
  match FirstOccurrence.find headerTerminator data with
  | some headerEnd =>
    match examineHeaders unicode config (data.take headerEnd) with
    | .error (some outcome) => .finished outcome
    -- The headers do not count as received yet, so everything read is returned.
    | .error none => .finished (Receiver.result { receiver with received := data })
    | .ok framing =>
      let body : Body :=
        { headerEnd := headerEnd
          framing := framing
          startTime := if 0 < framing.contentLength then some later else none }
      Receiver.checkBody { receiver with received := data, body := some body } body
  | none =>
    if config.maxHeaderSize + headerTerminator.length - 1 < data.length then
      .finished (reject .headerTooLarge)
    else .waiting { receiver with received := data }

/-- A turn before the header block is complete.  A chunk that is empty or longer than
was asked for does not occur. -/
def Receiver.headerTurn (unicode : Unicode) (config : ReceiveConfig) (receiver : Receiver)
    (turn : Turn) : Option Phase :=
  if headerTimeout < turn.now - receiver.startTime then some (.finished (reject .headerTimeout))
  else
    match turn.arrival with
    | .closed => some (.finished receiver.result)
    | .timedOut => some (.finished receiver.result)
    | .data chunk =>
      if chunk = [] ∨ receiver.headerRecvSize config < chunk.length then none
      else some (receiver.addHeaderChunk unicode config chunk turn.later)

def Receiver.bodyTurn (config : ReceiveConfig) (receiver : Receiver) (body : Body) (turn : Turn) :
    Option Phase :=
  match body.expiredDeadline config receiver.received turn.now with
  | some reason => some (.finished (reject reason))
  | none =>
    if body.framing.contentLength ≤ body.received receiver.received then
      some (.finished receiver.result)
    else
      match turn.arrival with
      | .closed => some (.finished (reject .bodyIncomplete))
      | .timedOut =>
        match body.expiredDeadline config receiver.received turn.later with
        | some reason => some (.finished (reject reason))
        | none =>
          if body.recvTimeoutReason config turn.now ≠ some .bodyIdleTimeout then
            some (.waiting receiver)
          else some (.finished (reject .bodyIdleTimeout))
      | .data chunk =>
        if chunk = [] ∨ receiver.bodyRecvSize body < chunk.length then none
        else
          let receiver := { receiver with received := receiver.received ++ chunk }
          some (receiver.checkBody body)

def Receiver.turn (unicode : Unicode) (config : ReceiveConfig) (receiver : Receiver)
    (turn : Turn) : Option Phase :=
  match receiver.body with
  | none => receiver.headerTurn unicode config turn
  | some body => receiver.bodyTurn config body turn

def receiveStep (unicode : Unicode) (config : ReceiveConfig) : Machine Phase Turn
  | .waiting receiver, turn => receiver.turn unicode config turn
  | .finished _, _ => none

def receive (unicode : Unicode) (config : ReceiveConfig) (startTime : Seconds)
    (turns : List Turn) : Option Phase :=
  run (receiveStep unicode config) (.waiting (.initial startTime)) turns

end XFerry.Http
