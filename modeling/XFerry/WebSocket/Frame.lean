/-
WebSocket frames as the server reads and writes them.

A buffer that does not hold a whole frame yet parses to nothing.  A frame or an
error never depends on what comes after the bytes that decide it.
-/

import XFerry.Python.Text

namespace XFerry.WebSocket

open Python List

def maxFrameSize : Nat := 10 * 1024 * 1024

inductive Opcode where
  | continuation
  | text
  | binary
  | close
  | ping
  | pong
  deriving DecidableEq

namespace Opcode

def code : Opcode → Nat
  | continuation => 0x00
  | text => 0x01
  | binary => 0x02
  | close => 0x08
  | ping => 0x09
  | pong => 0x0A

def supported : List Opcode := [continuation, text, binary, close, ping, pong]

def ofCode (code : Nat) : Option Opcode := supported.find? fun opcode => opcode.code = code

def isControl : Opcode → Bool
  | close | ping | pong => true
  | continuation | text | binary => false

end Opcode

structure WebSocketProtocolError where
  message : String
  closeCode : Nat := 1002
  closeReason : String := "Protocol error"
  deriving DecidableEq

/-- What the parser raises: a `WebSocketProtocolError` or a `ValueError`. -/
inductive ParseError where
  | protocol (error : WebSocketProtocolError)
  | value (message : String)
  deriving DecidableEq

def protocolError {α : Type} (message : String) : Except ParseError α :=
  .error (.protocol { message := message })

structure WsFrame where
  opcode : Opcode
  payload : Bytes
  consumed : Nat
  deriving DecidableEq

/-- `struct.unpack` of one unsigned number in network order. -/
def bigEndian (bytes : Bytes) : Nat := bytes.foldl (fun value byte => 256 * value + byte.toNat) 0

def invalidCloseCodes : List Nat := [1004, 1005, 1006, 1015]

def isValidCloseCode (code : Nat) : Bool :=
  if code ∈ invalidCloseCodes then false
  else if 1000 ≤ code ∧ code ≤ 1014 then true
  else 3000 ≤ code ∧ code ≤ 4999

def validateClosePayload (payload : Bytes) : Except ParseError Unit :=
  if payload.length = 1 then
    protocolError "Close frame payload cannot be one byte"
  else if payload.length < 2 then
    .ok ()
  else
    let code := bigEndian (payload.take 2)
    if !isValidCloseCode code then
      protocolError s!"Invalid close status code: {code}"
    else if (decode (payload.drop 2)).isNone then
      protocolError "Close frame reason must be valid UTF-8"
    else
      .ok ()

def parseFirstByte (first : UInt8) : Except ParseError Opcode :=
  let fin := first &&& 0x80 ≠ 0
  let code := (first &&& 0x0F).toNat
  if first &&& 0x70 ≠ 0 then
    protocolError "WebSocket reserved bits must be zero"
  else
    match Opcode.ofCode code with
    | none =>
      let digits := String.ofList (Nat.toDigits 16 code)
      protocolError s!"Unsupported opcode: 0x{digits}"
    | some opcode =>
      if opcode = .continuation then
        protocolError "Continuation frames are not supported"
      else if opcode.isControl ∧ ¬ fin then
        protocolError "Control frames must not be fragmented"
      else if ¬ fin then
        protocolError "Fragmented WebSocket messages are not supported"
      else
        .ok opcode

def payloadLength (data : Bytes) (short : Nat) : Option (Nat × Nat) :=
  if short = 126 then
    if data.length < 4 then none else some (bigEndian ((data.drop 2).take 2), 4)
  else if short = 127 then
    if data.length < 10 then none else some (bigEndian ((data.drop 2).take 8), 10)
  else
    some (short, 2)

def unmask (maskKey rawPayload : Bytes) : Bytes :=
  rawPayload.mapIdx fun index byte => byte ^^^ maskKey.getD (index % 4) 0

def parsePayload (data : Bytes) (opcode : Opcode) (maskKey : Option Bytes)
    (offset payloadLen : Nat) : Except ParseError (Option WsFrame) :=
  if data.length < offset + payloadLen then
    .ok none
  else
    let rawPayload := (data.drop offset).take payloadLen
    let payload :=
      match maskKey with
      | some maskKey => unmask maskKey rawPayload
      | none => rawPayload
    let frame : WsFrame := { opcode := opcode, payload := payload, consumed := offset + payloadLen }
    if opcode = .close then
      (validateClosePayload payload).map fun _ => some frame
    else
      .ok (some frame)

def parseBody (data : Bytes) (opcode : Opcode) (masked : Bool) (payloadLen offset : Nat) :
    Except ParseError (Option WsFrame) :=
  if opcode.isControl ∧ 125 < payloadLen then
    protocolError "Control frame payload must be 125 bytes or less"
  else if maxFrameSize < payloadLen then
    .error (.value s!"WebSocket frame too large: {payloadLen} bytes")
  else if masked then
    if data.length < offset + 4 then
      .ok none
    else
      parsePayload data opcode (some ((data.drop offset).take 4)) (offset + 4) payloadLen
  else
    parsePayload data opcode none offset payloadLen

def parseWsFrame (data : Bytes) (requireMask : Bool) : Except ParseError (Option WsFrame) :=
  match data with
  | first :: second :: _ =>
    match parseFirstByte first with
    | .error error => .error error
    | .ok opcode =>
      let masked : Bool := second &&& 0x80 ≠ 0
      if requireMask ∧ ¬ masked then
        protocolError "client WebSocket frames must be masked"
      else
        match payloadLength data (second &&& 0x7F).toNat with
        | none => .ok none
        | some length => parseBody data opcode masked length.1 length.2
  | _ => .ok none

variable {opcode : Opcode} {maskKey : Option Bytes} {offset payloadLen : Nat}
  {payloadLen offset : Nat}

section Extension

variable {data : Bytes} (more : Bytes)

theorem slice_append {start count : Nat} (within : start + count ≤ data.length) :
    ((data ++ more).drop start).take count = (data.drop start).take count := by
  rw [drop_append_of_le_length (by omega), take_append_of_le_length]
  rw [length_drop]
  omega

theorem payloadLength_append {short : Nat} {length : Nat × Nat}
    (known : payloadLength data short = some length) :
    payloadLength (data ++ more) short = some length := by
  unfold payloadLength at known ⊢
  rw [length_append]
  by_cases two : short = 126
  · rw [if_pos two] at known ⊢
    by_cases few : data.length < 4
    · rw [if_pos few] at known
      cases known
    · rw [if_neg few] at known
      rw [if_neg (by omega), slice_append more (by omega), known]
  · rw [if_neg two] at known ⊢
    by_cases eight : short = 127
    · rw [if_pos eight] at known ⊢
      by_cases few : data.length < 10
      · rw [if_pos few] at known
        cases known
      · rw [if_neg few] at known
        rw [if_neg (by omega), slice_append more (by omega), known]
    · rw [if_neg eight] at known ⊢
      exact known

theorem parsePayload_append
    (decided : parsePayload data opcode maskKey offset payloadLen ≠ .ok none) :
    parsePayload (data ++ more) opcode maskKey offset payloadLen =
      parsePayload data opcode maskKey offset payloadLen := by
  have enough : ¬ data.length < offset + payloadLen := by
    intro few
    rw [parsePayload, if_pos few] at decided
    exact decided rfl
  have still : ¬ (data ++ more).length < offset + payloadLen := by
    rw [length_append]
    omega
  rw [parsePayload, parsePayload, if_neg enough, if_neg still, slice_append more (by omega)]

theorem parseBody_append {masked : Bool}
    (decided : parseBody data opcode masked payloadLen offset ≠ .ok none) :
    parseBody (data ++ more) opcode masked payloadLen offset =
      parseBody data opcode masked payloadLen offset := by
  unfold parseBody at decided ⊢
  by_cases control : opcode.isControl ∧ 125 < payloadLen
  · rw [if_pos control, if_pos control]
  rw [if_neg control] at decided ⊢
  rw [if_neg control]
  by_cases large : maxFrameSize < payloadLen
  · rw [if_pos large, if_pos large]
  rw [if_neg large] at decided ⊢
  rw [if_neg large]
  cases masked with
  | true =>
    rw [if_pos rfl] at decided ⊢
    rw [if_pos rfl]
    by_cases few : data.length < offset + 4
    · rw [if_pos few] at decided
      exact absurd rfl decided
    have still : ¬ (data ++ more).length < offset + 4 := by
      rw [length_append]
      omega
    rw [if_neg few] at decided ⊢
    rw [if_neg still, slice_append more (by omega)]
    exact parsePayload_append more decided
  | false =>
    rw [if_neg Bool.false_ne_true]
    exact parsePayload_append more decided

theorem parseWsFrame_append {requireMask : Bool}
    (decided : parseWsFrame data requireMask ≠ .ok none) :
    parseWsFrame (data ++ more) requireMask = parseWsFrame data requireMask := by
  match data with
  | [] => exact absurd rfl decided
  | [first] => exact absurd rfl decided
  | first :: second :: rest =>
    rw [cons_append, cons_append]
    unfold parseWsFrame at decided ⊢
    dsimp only at decided ⊢
    cases checked : parseFirstByte first with
    | error error => rfl
    | ok opcode =>
      rw [checked] at decided
      dsimp only at decided ⊢
      split
      · rfl
      rename_i masked
      rw [if_neg masked] at decided
      cases known : payloadLength (first :: second :: rest) (second &&& 0x7F).toNat with
      | none =>
        rw [known] at decided
        exact absurd rfl decided
      | some length =>
        have later := payloadLength_append more known
        rw [cons_append, cons_append] at later
        rw [known] at decided
        rw [later]
        exact parseBody_append more decided

end Extension

section Consumed

variable {data : Bytes} {frame : WsFrame}

theorem parsePayload_consumed
    (parsed : parsePayload data opcode maskKey offset payloadLen = .ok (some frame)) :
    offset ≤ frame.consumed ∧ frame.consumed ≤ data.length := by
  unfold parsePayload at parsed
  by_cases few : data.length < offset + payloadLen
  · rw [if_pos few] at parsed
    cases parsed
  rw [if_neg few] at parsed
  have consumed : frame.consumed = offset + payloadLen := by
    dsimp only at parsed
    split at parsed
    · cases validated : validateClosePayload _ with
      | error error =>
        rw [validated] at parsed
        cases parsed
      | ok _ =>
        rw [validated] at parsed
        cases parsed
        rfl
    · cases parsed
      rfl
  omega

theorem parseBody_consumed {masked : Bool}
    (parsed : parseBody data opcode masked payloadLen offset = .ok (some frame)) :
    offset ≤ frame.consumed ∧ frame.consumed ≤ data.length := by
  unfold parseBody at parsed
  split at parsed
  · cases parsed
  split at parsed
  · cases parsed
  split at parsed
  · split at parsed
    · cases parsed
    · have both := parsePayload_consumed parsed
      omega
  · exact parsePayload_consumed parsed

theorem payloadLength_offset {short : Nat} {length : Nat × Nat}
    (known : payloadLength data short = some length) : 2 ≤ length.2 := by
  unfold payloadLength at known
  split at known
  · split at known
    · cases known
    · cases known
      exact Nat.le_add_left 2 2
  · split at known
    · split at known
      · cases known
      · cases known
        exact Nat.le_add_left 2 8
    · cases known
      exact Nat.le_refl 2

theorem parseWsFrame_consumed {requireMask : Bool}
    (parsed : parseWsFrame data requireMask = .ok (some frame)) :
    2 ≤ frame.consumed ∧ frame.consumed ≤ data.length := by
  unfold parseWsFrame at parsed
  split at parsed
  · split at parsed
    · cases parsed
    dsimp only at parsed
    split at parsed
    · cases parsed
    split at parsed
    · cases parsed
    rename_i known
    have offset := payloadLength_offset known
    have both := parseBody_consumed parsed
    omega
  · cases parsed

end Consumed

structure ServerFrame where
  opcode : Opcode
  payload : Bytes

/-- `struct.pack` in network order. -/
def packBigEndian (width value : Nat) : Bytes :=
  (range width).reverse.map fun place => UInt8.ofNat (value / 256 ^ place)

def buildWsFrame (frame : ServerFrame) : Bytes :=
  let length := frame.payload.length
  UInt8.ofNat (0x80 ||| frame.opcode.code) ::
    (if length < 126 then
        [UInt8.ofNat length]
      else if length < 65536 then
        126 :: packBigEndian 2 length
      else
        127 :: packBigEndian 8 length) ++
    frame.payload

def closeFrame (code : Nat) (reason : String) : ServerFrame :=
  { opcode := .close, payload := packBigEndian 2 code ++ reason.toUTF8.toList }

end XFerry.WebSocket
