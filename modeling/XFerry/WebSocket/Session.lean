/-
The frame loop of a WebSocket session.

The session is a machine whose events are the answers of the socket, of the
dispatch capacity and of the message handler, in the order the loop asks for
them.  `sent` has every frame that is handed to the socket.
-/

import XFerry.EventMachine
import XFerry.WebSocket.Frame

namespace XFerry.WebSocket

open EventMachine Python

/-- What a session has done so far: the flag of `send_close`, the frames sent,
the messages handed to the handler and the number of frames consumed. -/
structure Link where
  closeSent : Bool
  sent : List ServerFrame
  handled : List Bytes
  frames : Nat

namespace Link

def opened : Link := { closeSent := false, sent := [], handled := [], frames := 0 }

def send (link : Link) (frame : ServerFrame) : Link := { link with sent := link.sent ++ [frame] }

def sendClose (link : Link) (code : Nat) (reason : String) : Link :=
  if link.closeSent then
    link
  else
    { link with closeSent := true }.send (closeFrame code reason)

def finish (link : Link) : Link := link.sendClose 1000 ""

end Link

/-- The answers while one frame is handled: whether dispatch capacity was
granted, what the handler left in the reply buffer (`none` when it raised), and
whether the socket takes each frame that is sent. -/
structure Answers where
  acquired : Bool
  replies : Option (List Bytes)
  accepts : Nat → Bool

def sendReplies (accepts : Nat → Bool) : Nat → Link → List Bytes → Link × Bool
  | _, link, [] => (link, false)
  | index, link, reply :: rest =>
    let link := link.send { opcode := .text, payload := reply }
    if accepts index then sendReplies accepts (index + 1) link rest else (link, true)

def handleBoundedWsMessage (answers : Answers) (link : Link) (payload : Bytes) : Link × Bool :=
  let link := { link with handled := link.handled ++ [payload] }
  if answers.acquired then
    match answers.replies with
    | none => (link, true)
    | some replies => sendReplies answers.accepts 0 link replies
  else
    (link.send (closeFrame 1013 "Server busy"), !answers.accepts 0)

def handleFrame (answers : Answers) (link : Link) (frame : WsFrame) : Link × Bool :=
  match frame.opcode with
  | .close => (link.sendClose 1000 "", true)
  | .ping => (link.send { opcode := .pong, payload := frame.payload }, !answers.accepts 0)
  | .pong | .continuation => (link, false)
  | .binary => (link.sendClose 1003 "Binary frames are not supported", true)
  | .text =>
    let handled := handleBoundedWsMessage answers link frame.payload
    if handled.2 then
      (handled.1.sendClose 1011 "Internal error", true)
    else
      (handled.1, false)

def Link.reject (link : Link) (error : ParseError) : Link :=
  match error with
  | .protocol error => link.sendClose error.closeCode error.closeReason
  | .value _ => link.sendClose 1009 "Message too big"

/-- `parsing` is the inner loop. -/
inductive Phase where
  | handshake
  | receiving
  | parsing
  | finished
  deriving DecidableEq

/-- `incomplete` says that `incomplete_since` is set. -/
structure Session where
  phase : Phase
  link : Link
  buffer : Bytes
  incomplete : Bool

namespace Session

def opened : Session :=
  { phase := .handshake, link := Link.opened, buffer := [], incomplete := false }

def finish (session : Session) (link : Link) : Session :=
  { session with phase := .finished, link := link.finish }

def receive (session : Session) (chunk : Bytes) : Session :=
  if chunk.isEmpty then
    session.finish session.link
  else
    { session with phase := .parsing, buffer := session.buffer ++ chunk }

/-- `lapsed` is the comparison of the clock with the frame timeout. -/
def timeOut (session : Session) (lapsed accepts : Bool) : Session :=
  if session.buffer ≠ [] ∧ session.incomplete ∧ lapsed then
    session.finish (session.link.sendClose 1002 "Incomplete frame timeout")
  else if session.buffer ≠ [] then
    session
  else
    let link := session.link.send { opcode := .ping, payload := [] }
    if accepts then { session with link := link } else session.finish link

def parse (session : Session) (answers : Answers) : Session :=
  match parseWsFrame session.buffer true with
  | .error error => session.finish (session.link.reject error)
  | .ok none =>
    { session with
      phase := .receiving
      incomplete := session.incomplete || !session.buffer.isEmpty }
  | .ok (some frame) =>
    let buffer := session.buffer.drop frame.consumed
    let consumed : Session := { session with buffer := buffer, incomplete := !buffer.isEmpty }
    let handled := handleFrame answers
      { session.link with frames := session.link.frames + 1 } frame
    if handled.2 then
      consumed.finish handled.1
    else
      { consumed with link := handled.1 }

/-- `settimeout` raises, where a frame or its beginning changes the timeout of the socket. -/
def refuseTimeout (session : Session) : Option Session :=
  match parseWsFrame session.buffer true with
  | .error _ => none
  | .ok none =>
    if session.incomplete || session.buffer.isEmpty then none
    else some (session.finish (session.link.sendClose 1011 "Internal error"))
  | .ok (some frame) =>
    let buffer := session.buffer.drop frame.consumed
    if session.incomplete = !buffer.isEmpty then none
    else
      let link := { session.link with frames := session.link.frames + 1 }
      some ({ session with buffer := buffer, incomplete := !buffer.isEmpty }.finish
        (link.sendClose 1011 "Internal error"))

end Session

/-- `stopped` is a poll of `is_running` that fails; `received []` is the end of
the stream; `failed` is any other exception of `recv`. -/
inductive SocketEvent where
  | handshake (accepts : Bool)
  | stopped
  | received (chunk : Bytes)
  | timedOut (lapsed accepts : Bool)
  | failed
  | parse (answers : Answers)
  | timeoutRefused

def step : Machine Session SocketEvent := fun session event =>
  match session.phase, event with
  | .handshake, .handshake accepts =>
    some { session with phase := if accepts then .receiving else .finished }
  | .receiving, .stopped => some (session.finish session.link)
  | .receiving, .received chunk => some (session.receive chunk)
  | .receiving, .timedOut lapsed accepts => some (session.timeOut lapsed accepts)
  | .receiving, .failed => some (session.finish (session.link.sendClose 1011 "Internal error"))
  | .parsing, .parse answers => some (session.parse answers)
  | .parsing, .timeoutRefused => session.refuseTimeout
  | _, _ => none

end XFerry.WebSocket
