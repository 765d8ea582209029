/-
Frames that a client sends, and what the parser makes of them.

A client masks its frames.  Both sides write the length of a payload in the shortest of
three forms.  A frame that the protocol permits parses back whatever comes after it, and
no part of it does.
-/

import XFerry.Encoding.Packing
import XFerry.WebSocket.Frame

namespace XFerry.WebSocket

open Python List

open UInt8 (ofNat)

def IsCloseCode (code : Nat) : Prop :=
  1000 ≤ code ∧ code ≤ 1003 ∨ 1007 ≤ code ∧ code ≤ 1014 ∨ 3000 ≤ code ∧ code ≤ 4999

/-- A close frame says nothing, or gives a code and a reason in UTF-8. -/
def IsClosePayload (payload : Bytes) : Prop :=
  payload = [] ∨ ∃ code reason, payload = packBigEndian 2 code ++ reason ∧ IsCloseCode code ∧
    (decode reason).isSome = true

def Permitted (opcode : Opcode) (payload : Bytes) : Prop :=
  match opcode with
  | .continuation => False
  | .text | .binary => payload.length ≤ maxFrameSize
  | .ping | .pong => payload.length ≤ 125
  | .close => payload.length ≤ 125 ∧ IsClosePayload payload

/-- The bytes that the shortest form of a length takes, with the two of the frame's start. -/
def headerSize (length : Nat) : Nat :=
  if length ≤ 125 then 2 else if length ≤ 65535 then 4 else 10

def shortLength (length : Nat) : Nat :=
  if length ≤ 125 then length else if length ≤ 65535 then 126 else 127

def extendedLength (length : Nat) : Bytes :=
  if length ≤ 125 then [] else if length ≤ 65535 then packBigEndian 2 length
  else packBigEndian 8 length

def clientFrame (opcode : Opcode) (maskKey payload : Bytes) : Bytes :=
  ofNat (0x80 + opcode.code) :: ofNat (0x80 + shortLength payload.length) ::
    (extendedLength payload.length ++ (maskKey ++ unmask maskKey payload))

theorem packBigEndian_eq (width value : Nat) :
    packBigEndian width value = Packing.bigEndian width value := by
  induction width with
  | zero => rfl
  | succ width ih =>
    rw [packBigEndian, range_succ, reverse_append, reverse_singleton,
      singleton_append, map_cons, Packing.bigEndian, ← ih, packBigEndian]

theorem length_packBigEndian (width value : Nat) : (packBigEndian width value).length = width := by
  rw [packBigEndian_eq, Packing.length_bigEndian]

theorem foldl_bigEndian (width value start : Nat) :
    (Packing.bigEndian width value).foldl (fun number byte => 256 * number + byte.toNat) start =
      start * 256 ^ width + value % 256 ^ width := by
  induction width generalizing start with
  | zero => rw [Packing.bigEndian, foldl_nil, Nat.pow_zero, Nat.mod_one]; omega
  | succ width ih =>
    have digits : value % 256 ^ (width + 1) =
        value % 256 ^ width + 256 ^ width * (value / 256 ^ width % 256) := Nat.mod_pow_succ
    rw [Packing.bigEndian, foldl_cons, ih, UInt8.toNat_ofNat', digits, Nat.pow_succ]
    ring

theorem bigEndian_packBigEndian {width value : Nat} (fits : value < 256 ^ width) :
    bigEndian (packBigEndian width value) = value := by
  rw [packBigEndian_eq, bigEndian, foldl_bigEndian, Nat.zero_mul, Nat.zero_add,
    Nat.mod_eq_of_lt fits]

theorem bigEndian_lt (bytes : Bytes) : bigEndian bytes < 256 ^ bytes.length := by
  suffices grown : ∀ start, bytes.foldl (fun number byte => 256 * number + byte.toNat) start <
      (start + 1) * 256 ^ bytes.length by
    have bound := grown 0
    rwa [Nat.zero_add, Nat.one_mul] at bound
  induction bytes with
  | nil =>
    intro start
    rw [foldl_nil, length_nil, Nat.pow_zero]
    omega
  | cons byte rest ih =>
    intro start
    rw [foldl_cons, length_cons, Nat.pow_succ', ← Nat.mul_assoc]
    have bound := byte.toNat_lt
    calc _ < (256 * start + byte.toNat + 1) * 256 ^ rest.length := ih _
      _ ≤ (start + 1) * 256 * 256 ^ rest.length := by
          apply Nat.mul_le_mul_right
          omega

theorem length_unmask (maskKey payload : Bytes) :
    (unmask maskKey payload).length = payload.length := length_mapIdx

theorem unmask_unmask (maskKey payload : Bytes) :
    unmask maskKey (unmask maskKey payload) = payload := by
  apply ext_getElem
  · rw [length_unmask, length_unmask]
  · intro index _ _
    simp only [unmask, getElem_mapIdx]
    rw [UInt8.xor_assoc, UInt8.xor_self, UInt8.xor_zero]

variable {opcode : Opcode} {payload : Bytes}

theorem parseFirstByte_eq (permitted : Permitted opcode payload) :
    parseFirstByte (ofNat (0x80 + opcode.code)) = .ok opcode := by
  cases opcode with
  | continuation => exact permitted.elim
  | text | binary | close | ping | pong => decide

theorem shortLength_lt (length : Nat) : shortLength length < 128 := by
  unfold shortLength
  split_ifs <;> omega

variable {short : Nat}

theorem secondByte_masked (small : short < 128) :
    ofNat (0x80 + short) &&& 0x80 ≠ 0 ∧
      (ofNat (0x80 + short) &&& 0x7F).toNat = short := by
  revert short
  decide

theorem secondByte_unmasked (small : short < 128) :
    ofNat short &&& 0x80 = 0 ∧ (ofNat short &&& 0x7F).toNat = short := by
  revert short
  decide

theorem length_extendedLength (length : Nat) :
    2 + (extendedLength length).length = headerSize length := by
  unfold extendedLength headerSize
  split_ifs <;> simp [length_packBigEndian]

theorem payloadLength_eq {length : Nat} (fits : length < 256 ^ 8) (first second : UInt8)
    (rest : Bytes) :
    payloadLength (first :: second :: (extendedLength length ++ rest)) (shortLength length) =
      some (length, headerSize length) := by
  unfold payloadLength extendedLength shortLength headerSize
  by_cases seven : length ≤ 125
  · rw [if_pos seven, if_pos seven, if_pos seven, if_neg (by omega), if_neg (by omega)]
  rw [if_neg seven, if_neg seven, if_neg seven]
  by_cases sixteen : length ≤ 65535
  · rw [if_pos sixteen, if_pos sixteen, if_pos sixteen, if_pos rfl, if_neg]
    · rw [drop_succ_cons, drop_succ_cons, drop_zero,
        take_left' (length_packBigEndian 2 length), bigEndian_packBigEndian (by omega)]
    · simp [length_packBigEndian]
  · rw [if_neg sixteen, if_neg sixteen, if_neg sixteen, if_neg (by omega), if_pos rfl, if_neg]
    · rw [drop_succ_cons, drop_succ_cons, drop_zero,
        take_left' (length_packBigEndian 8 length), bigEndian_packBigEndian fits]
    · simp [length_packBigEndian]

theorem isValidCloseCode_of {code : Nat} (isCode : IsCloseCode code) :
    isValidCloseCode code = true := by
  unfold IsCloseCode at isCode
  unfold isValidCloseCode invalidCloseCodes
  rw [if_neg (by simp; omega)]
  split_ifs with standard
  · rfl
  · rw [decide_eq_true_iff]
    omega

theorem validateClosePayload_eq (isClose : IsClosePayload payload) :
    validateClosePayload payload = .ok () := by
  unfold validateClosePayload
  rcases isClose with rfl | ⟨code, reason, rfl, isCode, readable⟩
  · rfl
  have length := length_packBigEndian 2 code
  have small : code < 256 ^ 2 := by unfold IsCloseCode at isCode; omega
  rw [if_neg (by rw [length_append]; omega), if_neg (by rw [length_append]; omega)]
  dsimp only
  rw [take_left' length, drop_left' length, bigEndian_packBigEndian small,
    isValidCloseCode_of isCode, if_neg (by decide),
    if_neg (by simpa [Option.isSome_iff_ne_none] using readable)]

theorem Permitted.length_le (permitted : Permitted opcode payload) :
    payload.length ≤ maxFrameSize ∧ (opcode.isControl = true → payload.length ≤ 125) := by
  have wide : 125 ≤ maxFrameSize := by decide
  cases opcode with
  | continuation => exact permitted.elim
  | text | binary => exact ⟨permitted, nofun⟩
  | close => exact ⟨permitted.1.trans wide, fun _ => permitted.1⟩
  | ping | pong => exact ⟨Nat.le_trans permitted wide, fun _ => permitted⟩

section Whole

variable {opcode : Opcode} {payload : Bytes}

section

variable (permitted : Permitted opcode payload)
include permitted

theorem checkPayload (frame : WsFrame) :
    (if opcode = .close then (validateClosePayload payload).map fun _ => some frame
      else .ok (some frame)) = .ok (some frame) := by
  by_cases closing : opcode = .close
  · subst closing
    rw [if_pos rfl, validateClosePayload_eq permitted.2]
    rfl
  · rw [if_neg closing]

theorem parseBody_masked {maskKey : Bytes}
    (key : maskKey.length = 4) {data : Bytes} (head trailing : Bytes)
    (parts : data = head ++ (maskKey ++ (unmask maskKey payload ++ trailing))) :
    parseBody data opcode true payload.length head.length =
      .ok (some
        { opcode := opcode
          payload := payload
          consumed := head.length + 4 + payload.length }) := by
  obtain ⟨small, control⟩ := permitted.length_le
  have total : data.length = head.length + (4 + (payload.length + trailing.length)) := by
    rw [parts, length_append, length_append, length_append, length_unmask, key]
  have atKey : data.drop head.length = maskKey ++ (unmask maskKey payload ++ trailing) := by
    rw [parts, drop_left]
  have atPayload : data.drop (head.length + 4) = unmask maskKey payload ++ trailing := by
    rw [← drop_drop, atKey, drop_left' key]
  unfold parseBody
  rw [if_neg (fun both => absurd (control both.1) (by omega)), if_neg (by omega), if_pos rfl,
    if_neg (by omega), atKey, take_left' key]
  unfold parsePayload
  rw [if_neg (by omega), atPayload, take_left' (length_unmask maskKey payload)]
  dsimp only
  rw [unmask_unmask]
  exact checkPayload permitted _

theorem parseBody_unmasked {data : Bytes} (head trailing : Bytes)
    (parts : data = head ++ (payload ++ trailing)) :
    parseBody data opcode false payload.length head.length =
      .ok (some
        { opcode := opcode, payload := payload, consumed := head.length + payload.length }) := by
  obtain ⟨small, control⟩ := permitted.length_le
  have total : data.length = head.length + (payload.length + trailing.length) := by
    rw [parts, length_append, length_append]
  unfold parseBody
  rw [if_neg (fun both => absurd (control both.1) (by omega)), if_neg (by omega),
    if_neg Bool.false_ne_true]
  unfold parsePayload
  rw [if_neg (by omega), parts, drop_left, take_left]
  exact checkPayload permitted _

end

theorem length_clientFrame {maskKey : Bytes} (key : maskKey.length = 4) :
    (clientFrame opcode maskKey payload).length =
      headerSize payload.length + 4 + payload.length := by
  rw [clientFrame, length_cons, length_cons, length_append, length_append,
    length_unmask, key, ← length_extendedLength]
  omega

theorem parse_clientFrame (permitted : Permitted opcode payload) {maskKey : Bytes}
    (key : maskKey.length = 4) (trailing : Bytes) (requireMask : Bool) :
    parseWsFrame (clientFrame opcode maskKey payload ++ trailing) requireMask =
      .ok (some
        { opcode := opcode
          payload := payload
          consumed := (clientFrame opcode maskKey payload).length }) := by
  have small := permitted.length_le.1
  have short := secondByte_masked (shortLength_lt payload.length)
  have fits : payload.length < 256 ^ 8 := lt_of_le_of_lt small (by decide)
  rw [length_clientFrame key, ← length_extendedLength, clientFrame, cons_append,
    cons_append, append_assoc, append_assoc]
  unfold parseWsFrame
  dsimp only
  rw [parseFirstByte_eq permitted]
  dsimp only
  rw [if_neg (fun both => both.2 (decide_eq_true short.1)), short.2, payloadLength_eq fits]
  rw [decide_eq_true short.1, ← length_extendedLength, Nat.add_comm 2]
  exact parseBody_masked permitted key (_ :: _ :: extendedLength payload.length) trailing rfl

theorem buildWsFrame_eq :
    buildWsFrame { opcode := opcode, payload := payload } =
      ofNat (0x80 ||| opcode.code) :: ofNat (shortLength payload.length) ::
        (extendedLength payload.length ++ payload) := by
  unfold buildWsFrame shortLength extendedLength
  dsimp only
  by_cases seven : payload.length ≤ 125
  · rw [if_pos (by omega), if_pos seven, if_pos seven]
    rfl
  rw [if_neg (by omega), if_neg seven, if_neg seven]
  by_cases sixteen : payload.length ≤ 65535
  · rw [if_pos (by omega), if_pos sixteen, if_pos sixteen]
    rfl
  · rw [if_neg (by omega), if_neg sixteen, if_neg sixteen]
    rfl

theorem length_buildWsFrame :
    (buildWsFrame { opcode := opcode, payload := payload }).length =
      headerSize payload.length + payload.length := by
  rw [buildWsFrame_eq, length_cons, length_cons, length_append, ← length_extendedLength]
  omega

theorem parse_buildWsFrame (permitted : Permitted opcode payload) (trailing : Bytes) :
    parseWsFrame (buildWsFrame { opcode := opcode, payload := payload } ++ trailing) false =
      .ok (some
        { opcode := opcode
          payload := payload
          consumed := (buildWsFrame { opcode := opcode, payload := payload }).length }) := by
  have small := permitted.length_le.1
  have short := secondByte_unmasked (shortLength_lt payload.length)
  have fits : payload.length < 256 ^ 8 := lt_of_le_of_lt small (by decide)
  have first : ofNat (0x80 ||| opcode.code) = ofNat (0x80 + opcode.code) := by
    cases opcode <;> rfl
  rw [length_buildWsFrame, ← length_extendedLength, buildWsFrame_eq, first, cons_append,
    cons_append, append_assoc]
  unfold parseWsFrame
  dsimp only
  rw [parseFirstByte_eq permitted]
  dsimp only
  rw [if_neg (fun both => absurd both.1 Bool.false_ne_true), short.2, payloadLength_eq fits]
  rw [short.1, decide_eq_false (not_not.mpr rfl), ← length_extendedLength, Nat.add_comm 2]
  exact parseBody_unmasked permitted (_ :: _ :: extendedLength payload.length) trailing rfl

end Whole

variable {frame : WsFrame}

theorem parse_take {data : Bytes} {requireMask : Bool}
    (parsed : parseWsFrame data requireMask = .ok (some frame))
    (whole : frame.consumed = data.length) {count : Nat} (part : count < data.length) :
    parseWsFrame (data.take count) requireMask = .ok none := by
  by_contra decided
  have same := parseWsFrame_append (data.drop count) decided
  rw [take_append_drop, parsed] at same
  have consumed := (parseWsFrame_consumed same.symm).2
  rw [length_take] at consumed
  omega

theorem headerSize_le_of_payloadLength {data : Bytes} (small : short < 128)
    {length : Nat × Nat} (known : payloadLength data short = some length) :
    headerSize length.1 ≤ length.2 := by
  unfold payloadLength at known
  unfold headerSize
  by_cases two : short = 126
  · rw [if_pos two] at known
    by_cases few : data.length < 4
    · rw [if_pos few] at known
      cases known
    rw [if_neg few] at known
    cases known
    have bound := bigEndian_lt ((data.drop 2).take 2)
    rw [length_take, length_drop, min_eq_left (by omega)] at bound
    split_ifs <;> omega
  · rw [if_neg two] at known
    by_cases eight : short = 127
    · rw [if_pos eight] at known
      split at known
      · cases known
      · cases known
        split_ifs <;> omega
    · rw [if_neg eight] at known
      cases known
      rw [if_pos (by omega)]

theorem frame_of_checked {frame read : WsFrame}
    (checked : (if opcode = .close then (validateClosePayload payload).map fun _ => some read
      else .ok (some read)) = .ok (some frame)) : frame = read := by
  by_cases closing : opcode = .close
  · rw [if_pos closing] at checked
    cases valid : validateClosePayload payload with
    | error error =>
      rw [valid] at checked
      cases checked
    | ok _ =>
      rw [valid] at checked
      cases checked
      rfl
  · rw [if_neg closing] at checked
    cases checked
    rfl

variable {offset payloadLen : Nat}

theorem parsePayload_length {data : Bytes} {maskKey : Option Bytes}
    (parsed : parsePayload data opcode maskKey offset payloadLen = .ok (some frame)) :
    frame.payload.length = payloadLen ∧ frame.consumed = offset + payloadLen := by
  unfold parsePayload at parsed
  by_cases few : data.length < offset + payloadLen
  · rw [if_pos few] at parsed
    cases parsed
  rw [if_neg few] at parsed
  have raw : ((data.drop offset).take payloadLen).length = payloadLen := by
    rw [length_take, length_drop]
    omega
  cases maskKey with
  | none =>
    rw [frame_of_checked parsed]
    exact ⟨raw, rfl⟩
  | some maskKey =>
    rw [frame_of_checked parsed]
    exact ⟨(length_unmask maskKey _).trans raw, rfl⟩

theorem parseBody_length {data : Bytes} {masked : Bool}
    (parsed : parseBody data opcode masked payloadLen offset = .ok (some frame)) :
    frame.payload.length = payloadLen ∧ offset + payloadLen ≤ frame.consumed := by
  unfold parseBody at parsed
  split at parsed
  · cases parsed
  split at parsed
  · cases parsed
  split at parsed
  · split at parsed
    · cases parsed
    · have both := parsePayload_length parsed
      omega
  · have both := parsePayload_length parsed
    omega

theorem headerSize_le_consumed {data : Bytes} {requireMask : Bool}
    (parsed : parseWsFrame data requireMask = .ok (some frame)) :
    headerSize frame.payload.length + frame.payload.length ≤ frame.consumed := by
  unfold parseWsFrame at parsed
  split at parsed
  · rename_i second rest
    split at parsed
    · cases parsed
    dsimp only at parsed
    split at parsed
    · cases parsed
    split at parsed
    · cases parsed
    rename_i length known
    have small : (second &&& 0x7F).toNat < 128 := by
      exact lt_of_le_of_lt Nat.and_le_right (by decide)
    have form := headerSize_le_of_payloadLength small known
    obtain ⟨same, consumed⟩ := parseBody_length parsed
    rw [same]
    omega
  · cases parsed

/-- Builder and parser of frames agree. -/
theorem frame_codec (opcode : Opcode) (payload maskKey trailing : Bytes) (requireMask : Bool)
    (permitted : Permitted opcode payload) (key : maskKey.length = 4) :
    parseWsFrame (clientFrame opcode maskKey payload ++ trailing) requireMask =
        .ok (some
          { opcode := opcode
            payload := payload
            consumed := (clientFrame opcode maskKey payload).length }) ∧
      (∀ count < (clientFrame opcode maskKey payload).length,
        parseWsFrame ((clientFrame opcode maskKey payload).take count) requireMask = .ok none) ∧
      parseWsFrame (buildWsFrame { opcode := opcode, payload := payload } ++ trailing) false =
        .ok (some
          { opcode := opcode
            payload := payload
            consumed := (buildWsFrame { opcode := opcode, payload := payload }).length }) ∧
      (∃ first, buildWsFrame { opcode := opcode, payload := payload } =
        first :: ofNat (shortLength payload.length) ::
          (extendedLength payload.length ++ payload)) ∧
      ∀ data frame anyMask, parseWsFrame data anyMask = .ok (some frame) →
        frame.payload.length = payload.length →
        (buildWsFrame { opcode := opcode, payload := payload }).length ≤ frame.consumed := by
  have parsed := parse_clientFrame permitted key [] requireMask
  rw [append_nil] at parsed
  refine ⟨parse_clientFrame permitted key trailing requireMask, ?_, ?_, ?_, ?_⟩
  · intro count part
    exact parse_take parsed rfl part
  · exact parse_buildWsFrame permitted trailing
  · exact ⟨_, buildWsFrame_eq⟩
  · intro data frame anyMask other same
    rw [length_buildWsFrame, ← same]
    exact headerSize_le_consumed other

/-- A close frame with a code and a reason. -/
theorem goingAway_codec :
    Permitted .close [0x03, 0xE9, 0x6F, 0x6B] ∧
      parseWsFrame (clientFrame .close [1, 2, 3, 4] [0x03, 0xE9, 0x6F, 0x6B] ++ [0xFF]) true =
        .ok (some { opcode := .close, payload := [0x03, 0xE9, 0x6F, 0x6B], consumed := 10 }) := by
  have permitted : Permitted .close [0x03, 0xE9, 0x6F, 0x6B] :=
    ⟨by decide, .inr ⟨1001, [0x6F, 0x6B], by decide, .inl (by decide), by decide⟩⟩
  exact ⟨permitted, (frame_codec .close _ [1, 2, 3, 4] [0xFF] true permitted rfl).1⟩

end XFerry.WebSocket
