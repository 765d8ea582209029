/-
The bytes that an Advanced upload payload stands for, under the limit of decoded data.

The decompressor is a parameter, with what its documentation promises.  Its loops are
given as many rounds as they have bytes, which is enough.
-/

import XFerry.Advanced.PayloadParser
import XFerry.Ensures

namespace XFerry.AdvancedPayload

open Python Http Json List

/-- `zlib.decompressobj(16 + zlib.MAX_WBITS)`.  A call answers `none` for `zlib.error`.
A decompressor is drained when it has given all the output of what it has read. -/
structure Inflater (State : Type) where
  start : State
  decompress : State → Bytes → Nat → Option (State × Bytes)
  eof : State → Bool
  unusedData : State → Bytes
  unconsumedTail : State → Bytes
  drained : State → Prop
  drained_start : drained start
  eof_start : eof start = false
  consumed : ∀ state chunk limit next output, decompress state chunk limit = some (next, output) →
    eof next = false → output.length < limit → unconsumedTail next = [] ∧ drained next
  ended : ∀ state chunk limit next output, drained state →
    decompress state chunk limit = some (next, output) → chunk ≠ [] → eof next = true →
    ∃ used, used ≠ [] ∧ chunk = used ++ unusedData next

inductive GzipFault where
  | invalidStream
  | decodedTooLarge
  | outOfRounds
deriving DecidableEq

def gzipDecompressChunkSize : Nat := 65536

section Inflating

variable {State : Type} (inflater : Inflater State) (decodedLimit : Nat)

def inflateChunk : Nat → State → Bytes → Bytes → Except GzipFault (State × Bytes)
  | _, state, output, [] => .ok (state, output)
  | 0, _, _, _ :: _ => .error .outOfRounds
  | rounds + 1, state, output, chunk =>
    let remaining := decodedLimit - output.length
    match inflater.decompress state chunk (remaining + 1) with
    | none => .error .invalidStream
    | some (next, decoded) =>
      if remaining < decoded.length then .error .decodedTooLarge
      else if inflater.eof next = true then .ok (next, output ++ decoded)
      else inflateChunk rounds next (output ++ decoded) (inflater.unconsumedTail next)

def inflateMember : Nat → State → Bytes → Bytes → Except GzipFault (State × Bytes × Bytes)
  | _, state, output, [] => .ok (state, output, [])
  | 0, _, _, _ :: _ => .error .outOfRounds
  | rounds + 1, state, output, pending => do
      let chunk := pending.take gzipDecompressChunkSize
      let rest := pending.drop gzipDecompressChunkSize
      let (next, output) ← inflateChunk inflater decodedLimit chunk.length state output chunk
      if inflater.eof next = true then .ok (next, output, inflater.unusedData next ++ rest)
      else inflateMember rounds next output rest

def inflateMembers : Nat → Bytes → Bytes → Except GzipFault Bytes
  | _, output, [] => .ok output
  | 0, _, _ :: _ => .error .outOfRounds
  | rounds + 1, output, pending => do
      let (last, output, rest) ←
        inflateMember inflater decodedLimit pending.length inflater.start output pending
      if inflater.eof last = false then .error .invalidStream
      else inflateMembers rounds output rest

def boundedGzipDecompress (compressed : Bytes) : Except GzipFault Bytes :=
  if compressed = [] then .error .invalidStream
  else inflateMembers inflater decodedLimit compressed.length [] compressed

end Inflating

inductive UploadFault where
  | rejected (error : AdvancedPayloadError)
  | decodedTooLarge
  | uncaught (exception : Uncaught)
  | assertionError
  | endless
deriving DecidableEq

abbrev Received (α : Type) := Except UploadFault α

def invalidEncoding : UploadFault :=
  .rejected
    { status := 400
      code := "invalid_encoding"
      message := "Advanced upload data encoding is invalid"
      field := some FieldName.data.code
      metricReason := some "invalid_encoding" }

def orInvalidEncoding {α : Type} : Option α → Received α
  | some value => .ok value
  | none => .error invalidEncoding

def strictBase64 (data : Str) : Received Bytes := orInvalidEncoding (Base64.decode data)

/-- `_BASE64URL_RE`. -/
def matchesBase64Url (data : Str) : Bool :=
  data ≠ [] && data.all fun code => Base64Url.alphabet.any fun char => char.toNat = code

def strictBase64url (data : Str) : Received Bytes :=
  if data.contains '='.toNat = true ∨ matchesBase64Url data = false then .error invalidEncoding
  else orInvalidEncoding (Base64Url.decode data)

/-- The codes that `bytes.fromhex` skips between bytes. -/
def isHexSpace (code : Nat) : Bool := code = 32 || (9 ≤ code && code ≤ 13)

def fromHex : Str → Option Bytes
  | [] => some []
  | [code] => if isHexSpace code = true then some [] else none
  | high :: low :: rest =>
    if isHexSpace high = true then fromHex (low :: rest)
    else
      match hexOf high, hexOf low with
      | some high, some low => (fromHex rest).map fun bytes => UInt8.ofNat (high * 16 + low) ::
        bytes
      | _, _ => none

def gunzip {State : Type} (inflater : Inflater State) (decodedLimit : Nat) (compressed : Bytes) :
    Received Bytes :=
  match boundedGzipDecompress inflater decodedLimit compressed with
  | .ok data => .ok data
  | .error .invalidStream => .error invalidEncoding
  | .error .decodedTooLarge => .error .decodedTooLarge
  | .error .outOfRounds => .error .endless

def decodePercent (encoded : Str) : Received Bytes :=
  match strictPercentDecodeBytes encoded false with
  | .ok data => .ok data
  | .error (.rejected error) => .error (.rejected error)
  | .error (.uncaught _) => .error invalidEncoding

def decodeText {State : Type} (inflater : Inflater State) (decodedLimit : Nat) (encoded : Str) :
    AdvancedEncoding → Received Bytes
  | .raw => orInvalidEncoding (encode encoded)
  | .base64 => strictBase64 encoded
  | .base64url => strictBase64url encoded
  | .hex => orInvalidEncoding (fromHex encoded)
  | .percent => decodePercent encoded
  | .gzipBase64 => do
      let compressed ← strictBase64 encoded
      gunzip inflater decodedLimit compressed
  | .gzipBase64url => do
      let compressed ← strictBase64url encoded
      gunzip inflater decodedLimit compressed

def checkDecoded (profile : AdvancedBodyProfile) (decodedLimit : Nat) (data : Bytes) :
    Received Bytes :=
  if data = [] then .error (.rejected (emptyPayloadError profile))
  else if decodedLimit < data.length then .error .decodedTooLarge
  else .ok data

def decodeAdvancedPayloadData {State : Type} (inflater : Inflater State) (decodedLimit : Nat)
    (payload : CanonicalAdvancedPayload) : Received Bytes :=
  match payload.rawData, payload.encodedData, payload.encoding with
  | some raw, _, _ => checkDecoded payload.bodyProfile decodedLimit raw
  | none, some encoded, some encoding => do
      let data ← decodeText inflater decodedLimit encoded encoding
      checkDecoded payload.bodyProfile decodedLimit data
  | none, _, _ => .error .assertionError

section Rounds

variable {State : Type} (inflater : Inflater State) {decodedLimit : Nat}

/-- A computation that does not run out of rounds, and what holds of its result. -/
def Finishes {α : Type} (computation : Except GzipFault α) (post : α → Prop) : Prop :=
  match computation with
  | .ok result => post result
  | .error fault => fault ≠ .outOfRounds

namespace Finishes

variable {α : Type} {post : α → Prop}

theorem ok {result : α} (holds : post result) : Finishes (.ok result) post := holds

theorem error {fault : GzipFault} (known : fault ≠ .outOfRounds) :
    Finishes (.error fault : Except GzipFault α) post := known

variable {computation : Except GzipFault α}

theorem imp {weaker : α → Prop}
    (finishes : Finishes computation post) (implies : ∀ result, post result → weaker result) :
    Finishes computation weaker := by
  cases computation with
  | error fault => exact finishes
  | ok result => exact implies result finishes

theorem bind {β : Type}
    {next : α → Except GzipFault β} {final : β → Prop} (first : Finishes computation post)
    (rest : ∀ result, post result → Finishes (next result) final) :
    Finishes (computation >>= next) final := by
  cases computation with
  | error fault => exact first
  | ok result => exact rest result first

end Finishes

variable {rounds : Nat}

theorem inflateChunk_finishes {state : State} {output chunk : Bytes}
    (isDrained : inflater.drained state) (enough : chunk.length ≤ rounds) (isChunk : chunk ≠ []) :
    Finishes (inflateChunk inflater decodedLimit rounds state output chunk) fun (next, _) =>
      (inflater.eof next = true → (inflater.unusedData next).length < chunk.length) ∧
      (inflater.eof next = false → inflater.drained next) := by
  cases chunk with
  | nil => exact absurd rfl isChunk
  | cons byte bytes =>
    cases rounds with
    | zero => exact absurd enough (by simp)
    | succ rounds =>
      unfold inflateChunk
      simp only
      cases called : inflater.decompress state (byte :: bytes)
          (decodedLimit - output.length + 1) with
      | none => exact .error (by decide)
      | some answer =>
        obtain ⟨next, decoded⟩ := answer
        by_cases tooLarge : decodedLimit - output.length < decoded.length
        · simp only [if_pos tooLarge]
          exact .error (by decide)
        simp only [if_neg tooLarge]
        cases ends : inflater.eof next with
        | true =>
          obtain ⟨used, notEmpty, whole⟩ := inflater.ended _ _ _ _ _ isDrained called isChunk ends
          have positive := length_pos_of_ne_nil notEmpty
          have shorter : (inflater.unusedData next).length < (byte :: bytes).length := by
            rw [whole, length_append]
            omega
          exact .ok ⟨fun _ => shorter, fun goesOn =>
            absurd (ends.symm.trans goesOn) (by decide)⟩
        | false =>
          have short : decoded.length < decodedLimit - output.length + 1 := by omega
          obtain ⟨allRead, nextDrained⟩ := inflater.consumed _ _ _ _ _ called ends short
          have stays : inflateChunk inflater decodedLimit rounds next (output ++ decoded)
              [] = .ok (next, output ++ decoded) := by
            cases rounds <;> rfl
          rw [if_neg (by decide), allRead, stays]
          exact .ok ⟨fun isEnd => absurd (ends.symm.trans isEnd) (by decide), fun _ =>
            nextDrained⟩

variable {output pending : Bytes}

theorem inflateMember_finishes {state : State}
    (isDrained : inflater.drained state) (goesOn : inflater.eof state = false)
    (enough : pending.length ≤ rounds) :
    Finishes (inflateMember inflater decodedLimit rounds state output pending)
      fun (last, _, rest) => inflater.eof last = true → rest.length < pending.length := by
  induction rounds generalizing state output pending with
  | zero =>
    rw [eq_nil_of_length_eq_zero (Nat.le_zero.mp enough)]
    exact fun isEnd => absurd (goesOn.symm.trans isEnd) (by decide)
  | succ rounds ih =>
    cases pending with
    | nil => exact fun isEnd => absurd (goesOn.symm.trans isEnd) (by decide)
    | cons byte bytes =>
      have cut : (byte :: bytes).take gzipDecompressChunkSize ≠ [] := by
        simp [gzipDecompressChunkSize]
      have parts := congrArg length (take_append_drop gzipDecompressChunkSize (byte :: bytes))
      have positive := length_pos_of_ne_nil cut
      rw [length_append] at parts
      refine (inflateChunk_finishes inflater isDrained (Nat.le_refl _) cut).bind ?_
      rintro ⟨next, decoded⟩ ⟨shorter, nextDrained⟩
      cases ends : inflater.eof next with
      | true =>
        simp only [if_pos ends]
        have unused := shorter ends
        refine .ok fun _ => ?_
        rw [length_append]
        omega
      | false =>
        simp only [ends, Bool.false_eq_true, if_false]
        have later : ((byte :: bytes).drop gzipDecompressChunkSize).length ≤ rounds := by
          omega
        refine (ih (nextDrained ends) ends later).imp ?_
        rintro ⟨last, decoded, rest⟩ behind isEnd
        have fewer := behind isEnd
        simp only at fewer ⊢
        omega

theorem inflateMembers_finishes (enough : pending.length ≤ rounds) :
    Finishes (inflateMembers inflater decodedLimit rounds output pending) fun _ => True := by
  induction rounds generalizing output pending with
  | zero =>
    rw [eq_nil_of_length_eq_zero (Nat.le_zero.mp enough)]
    exact trivial
  | succ rounds ih =>
    cases pending with
    | nil => exact trivial
    | cons byte bytes =>
      refine (inflateMember_finishes inflater inflater.drained_start inflater.eof_start
        (Nat.le_refl _)).bind ?_
      rintro ⟨last, decoded, rest⟩ shorter
      cases ends : inflater.eof last with
      | false =>
        simp only [if_pos ends]
        exact .error (by decide)
      | true =>
        have fewer : rest.length < (byte :: bytes).length := shorter ends
        have left : rest.length ≤ rounds := by omega
        simp only [ends, Bool.true_eq_false, if_false]
        exact ih left

end Rounds

end XFerry.AdvancedPayload
