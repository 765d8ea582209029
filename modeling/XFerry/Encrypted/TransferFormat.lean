/-
Nonces and authenticated contexts of the encrypted transfer format.

The context of a chunk names the transfer by its file ID and sizes, and the place of the
chunk in it; the nonce takes the prefix of the manifest.  The salt and the encrypted
metadata are in neither.  AES-GCM is a parameter.
-/

import XFerry.Encoding.Packing
import XFerry.Encrypted.Manifest
import XFerry.Ensures

namespace XFerry.Encrypted

open List

open Packing (Field pack layout Fits fromHex toHex)

/-- `EncryptedTransferValidationError` and `struct.error`. -/
inductive TransferError where
  | validation (message : String)
  | structError
deriving DecidableEq

def eufMetadataIndex : Nat := 0xFFFFFFFF

def asciiBytes (text : String) : Bytes := text.toList.map fun char => UInt8.ofNat char.toNat

def metadataAadPrefix : Bytes := asciiBytes "XFERRY-EUF1-META" ++ [0]

def chunkAadPrefix : Bytes := asciiBytes "XFERRY-EUF1-CHUNK" ++ [0]

/-- `file_id_bytes`, for text that is known to be canonical. -/
def FileId.bytes (fileId : FileId) : Bytes := fromHex fileId.text

theorem FileId.length_bytes (fileId : FileId) : fileId.bytes.length = 16 := by
  rw [FileId.bytes, Packing.length_fromHex, fileId.length_text]

theorem FileId.bytes_injective {left right : FileId} (same : left.bytes = right.bytes) :
    left = right := by
  have back (fileId : FileId) : toHex fileId.bytes = fileId.text := by
    have canonical := fileId.canonical
    simp only [isFileIdText, Bool.and_eq_true, all_eq_true, contains_iff_mem] at canonical
    refine Packing.toHex_fromHex canonical.2 ?_
    rw [fileId.length_text]
  have texts := congrArg toHex same
  rw [back, back] at texts
  cases left
  cases texts
  rfl

def packed (fields : List Field) : Except TransferError Bytes :=
  match pack fields with
  | none => .error .structError
  | some bytes => .ok bytes

namespace Manifest

def plaintextLength (manifest : Manifest) (index : Int) : Int :=
  min manifest.chunkSize (manifest.plaintextSize - index * manifest.chunkSize)

def metadataFields (manifest : Manifest) : List Field :=
  [(8, manifest.plaintextSize), (4, manifest.chunkSize), (4, manifest.chunkCount)]

def chunkFields (manifest : Manifest) (index plaintextLength : Int) : List Field :=
  manifest.metadataFields ++ [(4, index), (4, plaintextLength)]

def metadataAad (manifest : Manifest) : Except TransferError Bytes := do
  let sizes ← packed manifest.metadataFields
  return metadataAadPrefix ++ manifest.fileId.bytes ++ sizes

def chunkAad (manifest : Manifest) (index plaintextLength : Int) : Except TransferError Bytes :=
  if index < 0 ∨ manifest.chunkCount ≤ index then
    .error (.validation "chunk index is outside the manifest")
  else if plaintextLength ≠ manifest.plaintextLength index then
    .error (.validation ("plaintext_length must be exactly " ++
      toString (manifest.plaintextLength index) ++ " for chunk " ++ toString index))
  else do
    let sizes ← packed (manifest.chunkFields index plaintextLength)
    return chunkAadPrefix ++ manifest.fileId.bytes ++ sizes

def nonce (manifest : Manifest) (index : Int) : Except TransferError Bytes := do
  let counter ← packed [(4, index)]
  return manifest.noncePrefix ++ counter

end Manifest

/-- `AESGCM`: a key, a nonce, the data and the associated data.  Decryption answers
`none` for `InvalidTag`. -/
structure Aead where
  encrypt : Bytes → Bytes → Bytes → Bytes → Bytes
  decrypt : Bytes → Bytes → Bytes → Bytes → Option Bytes

def requireAesKey (key : Bytes) : Except TransferError Unit :=
  if key.length = 32 then .ok ()
  else .error (.validation "AES content key must contain exactly 32 bytes")

def encryptChunk (aead : Aead) (plaintext key : Bytes) (manifest : Manifest) (index : Int) :
    Except TransferError Bytes := do
  requireAesKey key
  let aad ← manifest.chunkAad index plaintext.length
  let nonce ← manifest.nonce index
  return aead.encrypt key nonce plaintext aad

def decryptChunk (aead : Aead) (ciphertext key : Bytes) (manifest : Manifest) (index : Int) :
    Except TransferError (Option Bytes) := do
  requireAesKey key
  let aad ← manifest.chunkAad index (manifest.plaintextLength index)
  if (ciphertext.length : Int) ≠ manifest.plaintextLength index + eufGcmTagSize then
    return none
  else do
    let nonce ← manifest.nonce index
    return aead.decrypt key nonce ciphertext aad

namespace Manifest

variable (manifest : Manifest)

theorem chunkCount_lt : manifest.chunkCount < 2 ^ 32 := by
  have bound := manifest.chunkCount_le
  rw [eufMaxChunkCount] at bound
  omega

theorem metadataFields_fit : ∀ field ∈ manifest.metadataFields, Fits field := by
  have size := manifest.plaintextSize_le
  have chunk := manifest.chunkSize_eq
  have count := manifest.chunkCount_lt
  simp only [eufMaxFileSize, eufMaxChunkCount, eufChunkSize] at size chunk
  simp only [metadataFields, forall_mem_cons, not_mem_nil, false_implies, implies_true,
    and_true, Fits, Int.reducePow]
  omega

theorem plaintextLength_le (index : Int) : manifest.plaintextLength index ≤ eufChunkSize := by
  rw [plaintextLength, manifest.chunkSize_eq]
  exact min_le_left _ _

theorem plaintextLength_nonneg {index : Nat} (inside : index < manifest.chunkCount) :
    0 ≤ manifest.plaintextLength index := by
  have start := start_lt_plaintextSize inside
  rw [plaintextLength, le_min_iff]
  omega

theorem chunkFields_fit {index : Nat} (inside : index < manifest.chunkCount) :
    ∀ field ∈ manifest.chunkFields index (manifest.plaintextLength index), Fits field := by
  have count := manifest.chunkCount_lt
  have upper := manifest.plaintextLength_le index
  have lower := manifest.plaintextLength_nonneg inside
  rw [eufChunkSize] at upper
  rw [chunkFields, forall_mem_append]
  refine ⟨manifest.metadataFields_fit, ?_⟩
  simp only [forall_mem_cons, not_mem_nil, false_implies, implies_true, and_true, Fits,
    Int.reducePow]
  omega

theorem counter_fits {index : Nat} (small : index < 2 ^ 32) :
    ∀ field ∈ [((4, index) : Field)], Fits field := by
  simp only [forall_mem_cons, not_mem_nil, false_implies, implies_true, and_true, Fits,
    Int.reducePow]
  omega

theorem packed_of_fits {fields : List Field} (fit : ∀ field ∈ fields, Fits field) :
    packed fields = .ok (layout fields) := by
  rw [packed, Packing.pack_of_fits fit]

theorem metadataAad_eq :
    manifest.metadataAad =
      .ok (metadataAadPrefix ++ manifest.fileId.bytes ++ layout manifest.metadataFields) :=
  Ensures.bind_eq (packed_of_fits manifest.metadataFields_fit) rfl

theorem nonce_eq {index : Nat} (small : index < 2 ^ 32) :
    manifest.nonce index = .ok (manifest.noncePrefix ++ layout [(4, index)]) :=
  Ensures.bind_eq (packed_of_fits (counter_fits small)) rfl

theorem chunkAad_eq {index : Nat} (inside : index < manifest.chunkCount) :
    manifest.chunkAad index (manifest.plaintextLength index) =
      .ok (chunkAadPrefix ++ manifest.fileId.bytes ++
        layout (manifest.chunkFields index (manifest.plaintextLength index))) := by
  rw [chunkAad, if_neg (by omega), if_neg (by simp)]
  exact Ensures.bind_eq (packed_of_fits (manifest.chunkFields_fit inside)) rfl

variable {aad : Bytes}

/-- What `chunk_aad` accepts is the exact length of a chunk of the manifest. -/
theorem chunkAad_eq_ok {index plaintextLength : Int}
    (built : manifest.chunkAad index plaintextLength = .ok aad) :
    ∃ position : Nat, index = position ∧ position < manifest.chunkCount ∧
      plaintextLength = manifest.plaintextLength position := by
  unfold chunkAad at built
  split at built
  · cases built
  rename_i inside
  split at built
  · cases built
  rename_i exact_
  refine ⟨index.toNat, by omega, by omega, ?_⟩
  rw [Int.toNat_of_nonneg (by omega)]
  exact not_not.mp exact_

theorem chunkAad_ne_structError (index plaintextLength : Int) :
    manifest.chunkAad index plaintextLength ≠ .error .structError := by
  intro overflow
  by_cases outside : index < 0 ∨ (manifest.chunkCount : Int) ≤ index
  · rw [chunkAad, if_pos outside] at overflow
    cases overflow
  by_cases other : plaintextLength ≠ manifest.plaintextLength index
  · rw [chunkAad, if_neg outside, if_pos other] at overflow
    cases overflow
  obtain ⟨position, rfl⟩ := Int.eq_ofNat_of_zero_le (show 0 ≤ index by omega)
  rw [not_not.mp other, manifest.chunkAad_eq (by omega)] at overflow
  cases overflow

end Manifest

inductive Position where
  | chunk (index : Nat)
  | metadata
deriving DecidableEq

namespace Position

def Within (manifest : Manifest) : Position → Prop
  | .chunk index => index < manifest.chunkCount
  | .metadata => True

def counter : Position → Nat
  | .chunk index => index
  | .metadata => eufMetadataIndex

end Position

structure SameContext (left right : Manifest) : Prop where
  fileId : left.fileId = right.fileId
  plaintextSize : left.plaintextSize = right.plaintextSize
  chunkSize : left.chunkSize = right.chunkSize
  chunkCount : left.chunkCount = right.chunkCount

namespace Manifest

def positionNonce (manifest : Manifest) (position : Position) : Except TransferError Bytes :=
  manifest.nonce position.counter

def positionAad (manifest : Manifest) : Position → Except TransferError Bytes
  | .chunk index => manifest.chunkAad index (manifest.plaintextLength index)
  | .metadata => manifest.metadataAad

variable {manifest other : Manifest}

theorem counter_lt {position : Position} (within : position.Within manifest) :
    position.counter < 2 ^ 32 := by
  cases position with
  | chunk index => exact Nat.lt_trans within manifest.chunkCount_lt
  | metadata => decide

variable {left right : Nat}

theorem layout_counter_injective (leftSmall : left < 2 ^ 32) (rightSmall : right < 2 ^ 32)
    (same : layout [((4, left) : Field)] = layout [((4, right) : Field)]) : left = right := by
  have equal := Packing.layout_injective (counter_fits leftSmall) (counter_fits rightSmall) rfl same
  simpa using equal

theorem positionNonce_injective {left right : Position} (leftWithin : left.Within manifest)
    (rightWithin : right.Within manifest)
    (same : manifest.positionNonce left = manifest.positionNonce right) : left = right := by
  rw [positionNonce, positionNonce, nonce_eq manifest (counter_lt leftWithin),
    nonce_eq manifest (counter_lt rightWithin), Except.ok.injEq, append_right_inj] at same
  have counters := layout_counter_injective (counter_lt leftWithin) (counter_lt rightWithin) same
  have count := manifest.chunkCount_le
  rw [eufMaxChunkCount] at count
  cases left with
  | chunk index =>
    cases right with
    | chunk position => exact congrArg Position.chunk counters
    | metadata =>
      simp only [Position.counter, eufMetadataIndex, Position.Within] at counters leftWithin
      omega
  | metadata =>
    cases right with
    | chunk position =>
      simp only [Position.counter, eufMetadataIndex, Position.Within] at counters rightWithin
      omega
    | metadata => rfl

theorem nonce_injective (leftSmall : left < 2 ^ 32) (rightSmall : right < 2 ^ 32)
    (same : manifest.nonce left = other.nonce right) :
    manifest.noncePrefix = other.noncePrefix ∧ left = right := by
  rw [nonce_eq manifest leftSmall, nonce_eq other rightSmall, Except.ok.injEq] at same
  have parts := append_inj same (manifest.noncePrefix_length.trans other.noncePrefix_length.symm)
  exact ⟨parts.1, layout_counter_injective leftSmall rightSmall parts.2⟩

theorem chunkAad_injective
    (leftBuilt : manifest.chunkAad left (manifest.plaintextLength left) = .ok aad)
    (rightBuilt : other.chunkAad right (other.plaintextLength right) = .ok aad) :
    left = right ∧ SameContext manifest other := by
  obtain ⟨_, sameLeft, leftWithin, _⟩ := manifest.chunkAad_eq_ok leftBuilt
  obtain ⟨_, sameRight, rightWithin, _⟩ := other.chunkAad_eq_ok rightBuilt
  rw [← Int.ofNat.inj sameLeft] at leftWithin
  rw [← Int.ofNat.inj sameRight] at rightWithin
  rw [manifest.chunkAad_eq leftWithin] at leftBuilt
  rw [other.chunkAad_eq rightWithin] at rightBuilt
  have same := Except.ok.inj (leftBuilt.trans rightBuilt.symm)
  rw [append_assoc, append_assoc, append_right_inj] at same
  have parts := append_inj same (by rw [FileId.length_bytes, FileId.length_bytes])
  have fields := Packing.layout_injective (manifest.chunkFields_fit leftWithin)
    (other.chunkFields_fit rightWithin) rfl parts.2
  simp only [chunkFields, metadataFields, cons_append, nil_append, cons.injEq,
    Prod.mk.injEq, true_and, and_true, Nat.cast_inj] at fields
  exact ⟨fields.2.2.2.1, FileId.bytes_injective parts.1, fields.1, fields.2.1, fields.2.2.1⟩

theorem metadataAad_injective (leftBuilt : manifest.metadataAad = .ok aad)
    (rightBuilt : other.metadataAad = .ok aad) : SameContext manifest other := by
  rw [manifest.metadataAad_eq] at leftBuilt
  rw [other.metadataAad_eq] at rightBuilt
  have same := Except.ok.inj (leftBuilt.trans rightBuilt.symm)
  rw [append_assoc, append_assoc, append_right_inj] at same
  have parts := append_inj same (by rw [FileId.length_bytes, FileId.length_bytes])
  have fields := Packing.layout_injective manifest.metadataFields_fit other.metadataFields_fit rfl
    parts.2
  simp only [metadataFields, cons.injEq, Prod.mk.injEq, true_and, and_true, Nat.cast_inj] at fields
  exact ⟨FileId.bytes_injective parts.1, fields.1, fields.2.1, fields.2.2⟩

theorem chunkAad_ne_metadataAad {index : Nat}
    (chunk : manifest.chunkAad index (manifest.plaintextLength index) = .ok aad) :
    other.metadataAad ≠ .ok aad := by
  intro metadata
  obtain ⟨_, same, within, _⟩ := manifest.chunkAad_eq_ok chunk
  rw [← Int.ofNat.inj same] at within
  rw [manifest.chunkAad_eq within] at chunk
  rw [other.metadataAad_eq] at metadata
  have lengths := congrArg length (Except.ok.inj (chunk.trans metadata.symm))
  rw [length_append, length_append, length_append, length_append,
    FileId.length_bytes, FileId.length_bytes, Packing.length_layout,
      Packing.length_layout] at lengths
  have chunkPrefix : chunkAadPrefix.length = 18 := by decide
  have metadataPrefix : metadataAadPrefix.length = 17 := by decide
  simp only [chunkPrefix, metadataPrefix, chunkFields, metadataFields, map_cons, map_nil,
    map_append, sum_append, sum_cons, sum_nil] at lengths
  omega

theorem positionAad_injective {left right : Position}
    (leftBuilt : manifest.positionAad left = .ok aad)
    (rightBuilt : other.positionAad right = .ok aad) :
    left = right ∧ SameContext manifest other := by
  cases left with
  | chunk index =>
    cases right with
    | chunk position =>
      obtain ⟨rfl, context⟩ := chunkAad_injective leftBuilt rightBuilt
      exact ⟨rfl, context⟩
    | metadata => exact absurd rightBuilt (chunkAad_ne_metadataAad leftBuilt)
  | metadata =>
    cases right with
    | chunk position => exact absurd leftBuilt (chunkAad_ne_metadataAad rightBuilt)
    | metadata => exact ⟨rfl, metadataAad_injective leftBuilt rightBuilt⟩

theorem position_built {position : Position} (within : position.Within manifest) :
    Succeeds (manifest.positionNonce position) ∧ Succeeds (manifest.positionAad position) := by
  refine ⟨⟨_, manifest.nonce_eq (counter_lt within)⟩, ?_⟩
  cases position with
  | chunk index => exact ⟨_, manifest.chunkAad_eq within⟩
  | metadata => exact ⟨_, manifest.metadataAad_eq⟩

end Manifest

/-- What the documentation promises of an intact cipher. -/
structure Aead.Correct (aead : Aead) : Prop where
  length_encrypt : ∀ key nonce data aad,
    (aead.encrypt key nonce data aad).length = data.length + eufGcmTagSize
  decrypt_encrypt : ∀ key nonce data aad,
    aead.decrypt key nonce (aead.encrypt key nonce data aad) aad = some data

/-- `InvalidTag` is raised for this chunk with the nonce or the associated data of any other
place, in this transfer or in another. -/
def Aead.BindsChunk (aead : Aead) (plaintext key : Bytes) (manifest : Manifest) (index : Int) :
    Prop :=
  ∀ nonce aad, manifest.nonce index = .ok nonce →
    manifest.chunkAad index plaintext.length = .ok aad →
    ∀ (other : Manifest) (position : Int) (otherNonce otherAad : Bytes),
      other.nonce position = .ok otherNonce →
      other.chunkAad position (other.plaintextLength position) = .ok otherAad →
      (otherNonce, otherAad) ≠ (nonce, aad) →
      aead.decrypt key otherNonce (aead.encrypt key nonce plaintext aad) otherAad = none

section Decryption

variable {aead : Aead} {manifest other : Manifest} {key plaintext ciphertext opened : Bytes}
  {index position : Int}

theorem requireAesKey_eq_ok (length : key.length = 32) : requireAesKey key = .ok () := if_pos length

theorem encryptChunk_eq_ok
    (encrypted : encryptChunk aead plaintext key manifest index = .ok ciphertext) :
    key.length = 32 ∧ ∃ aad nonce, manifest.chunkAad index plaintext.length = .ok aad ∧
      manifest.nonce index = .ok nonce ∧ ciphertext = aead.encrypt key nonce plaintext aad := by
  unfold encryptChunk at encrypted
  by_cases length : key.length = 32
  · rw [requireAesKey_eq_ok length, Ensures.bind_of_ok rfl] at encrypted
    cases context : manifest.chunkAad index plaintext.length with
    | error failure =>
      rw [context] at encrypted
      cases encrypted
    | ok aad =>
      rw [context, Ensures.bind_of_ok rfl] at encrypted
      cases counter : manifest.nonce index with
      | error failure =>
        rw [counter] at encrypted
        cases encrypted
      | ok nonce =>
        rw [counter] at encrypted
        cases encrypted
        exact ⟨length, aad, nonce, rfl, rfl, rfl⟩
  · rw [requireAesKey, if_neg length] at encrypted
    cases encrypted

theorem decryptChunk_eq_some
    (decrypted : decryptChunk aead ciphertext key manifest index = .ok (some opened)) :
    ∃ aad nonce, manifest.chunkAad index (manifest.plaintextLength index) = .ok aad ∧
      manifest.nonce index = .ok nonce ∧ aead.decrypt key nonce ciphertext aad = some opened := by
  unfold decryptChunk at decrypted
  by_cases length : key.length = 32
  · rw [requireAesKey_eq_ok length, Ensures.bind_of_ok rfl] at decrypted
    cases context : manifest.chunkAad index (manifest.plaintextLength index) with
    | error failure =>
      rw [context] at decrypted
      cases decrypted
    | ok aad =>
      rw [context, Ensures.bind_of_ok rfl] at decrypted
      split at decrypted
      · cases decrypted
      · cases counter : manifest.nonce index with
        | error failure =>
          rw [counter] at decrypted
          cases decrypted
        | ok nonce =>
          rw [counter, Ensures.bind_of_ok rfl] at decrypted
          exact ⟨aad, nonce, rfl, rfl, Except.ok.inj decrypted⟩
  · rw [requireAesKey, if_neg length] at decrypted
    cases decrypted

theorem decryptChunk_encryptChunk (correct : aead.Correct)
    (encrypted : encryptChunk aead plaintext key manifest index = .ok ciphertext) :
    decryptChunk aead ciphertext key manifest index = .ok (some plaintext) := by
  obtain ⟨length, aad, nonce, context, counter, rfl⟩ := encryptChunk_eq_ok encrypted
  obtain ⟨place, rfl, _, exact_⟩ := manifest.chunkAad_eq_ok context
  rw [exact_] at context
  refine Ensures.bind_eq (requireAesKey_eq_ok length) (Ensures.bind_eq context ?_)
  rw [if_neg (by rw [correct.length_encrypt, ← exact_]; simp)]
  refine Ensures.bind_eq counter ?_
  rw [correct.decrypt_encrypt]
  rfl

/-- A chunk is decrypted nowhere but at its index, in a transfer of the same context and
the same prefix of nonces. -/
theorem decryptChunk_elsewhere (binds : aead.BindsChunk plaintext key manifest index)
    (encrypted : encryptChunk aead plaintext key manifest index = .ok ciphertext)
    (decrypted : decryptChunk aead ciphertext key other position = .ok (some opened)) :
    position = index ∧ SameContext manifest other ∧ manifest.noncePrefix = other.noncePrefix := by
  obtain ⟨_, aad, nonce, context, counter, rfl⟩ := encryptChunk_eq_ok encrypted
  obtain ⟨otherAad, otherNonce, otherContext, otherCounter, accepted⟩ :=
    decryptChunk_eq_some decrypted
  have same : (otherNonce, otherAad) = (nonce, aad) := by
    by_contra different
    rw [binds nonce aad counter context other position _ _ otherCounter otherContext different]
      at accepted
    cases accepted
  cases same
  obtain ⟨place, rfl, within, exact_⟩ := manifest.chunkAad_eq_ok context
  obtain ⟨otherPlace, rfl, otherWithin, _⟩ := other.chunkAad_eq_ok otherContext
  rw [exact_] at context
  obtain ⟨rfl, sameContext⟩ := Manifest.chunkAad_injective context otherContext
  have nonces := Manifest.nonce_injective (Nat.lt_trans within manifest.chunkCount_lt)
    (Nat.lt_trans otherWithin other.chunkCount_lt) (counter.trans otherCounter.symm)
  exact ⟨rfl, sameContext, nonces.1⟩

end Decryption

/-- For every manifest: nonces and contexts that tell everything apart they are for,
packing that never overflows, and chunks that are decrypted in their place alone. -/
theorem transferFormat_sound (aead : Aead) (correct : aead.Correct) (manifest : Manifest) :
    (∀ left right : Position, left.Within manifest → right.Within manifest →
      manifest.positionNonce left = manifest.positionNonce right → left = right) ∧
    (∀ (other : Manifest) (left right : Position) (aad : Bytes),
      manifest.positionAad left = .ok aad → other.positionAad right = .ok aad →
        left = right ∧ SameContext manifest other) ∧
    (∀ position : Position, position.Within manifest →
      Succeeds (manifest.positionNonce position) ∧ Succeeds (manifest.positionAad position)) ∧
    (∀ index plaintextLength, manifest.chunkAad index plaintextLength ≠ .error .structError) ∧
    ∀ (key plaintext ciphertext : Bytes) (index : Int),
      encryptChunk aead plaintext key manifest index = .ok ciphertext →
        decryptChunk aead ciphertext key manifest index = .ok (some plaintext) ∧
        (aead.BindsChunk plaintext key manifest index →
          ∀ (other : Manifest) (position : Int) (opened : Bytes),
            decryptChunk aead ciphertext key other position = .ok (some opened) →
              position = index ∧ SameContext manifest other ∧
                manifest.noncePrefix = other.noncePrefix) := by
  refine ⟨?_, ?_, ?_, manifest.chunkAad_ne_structError, ?_⟩
  · exact fun left right => Manifest.positionNonce_injective
  · exact fun other left right aad => Manifest.positionAad_injective
  · exact fun position => Manifest.position_built
  · intro key plaintext ciphertext index encrypted
    refine ⟨decryptChunk_encryptChunk correct encrypted, ?_⟩
    exact fun binds other position opened => decryptChunk_elsewhere binds encrypted

def vectorKey : Bytes :=
  fromHex "705dbd0114261bde4c7c288d8d03c4ccc02fcc345393fd1540d74312728272a7".toList

def vectorNonce : Bytes := fromHex "a0a1a2a3a4a5a6a700000000".toList

def vectorPlaintext : Bytes := asciiBytes "0123456789abcdefghij"

def vectorAad : Bytes :=
  fromHex ("5846455252592d455546312d4348554e4b00" ++ "00112233445566778899aabbccddeeff" ++
    "00000000000000140080000000000001" ++ "0000000000000014").toList

def vectorCiphertext : Bytes :=
  fromHex "6cdb3b6906e069eae77291067f066f9fdbb39f55d5e684ddb01ae8b19b43244d36eea649".toList

def emptyTag : Bytes := replicate eufGcmTagSize 0

/-- AES-GCM on one chunk.  Anything else is sealed with an empty tag, so that it can be
told from that chunk. -/
def vectorAead : Aead :=
  { encrypt := fun key nonce data aad =>
      if (key, nonce, data, aad) = (vectorKey, vectorNonce, vectorPlaintext, vectorAad) then
        vectorCiphertext
      else data ++ emptyTag
    decrypt := fun key nonce ciphertext aad =>
      if ciphertext = vectorCiphertext then
        if (key, nonce, aad) = (vectorKey, vectorNonce, vectorAad) then some vectorPlaintext
        else none
      else some (ciphertext.take (ciphertext.length - eufGcmTagSize)) }

theorem append_emptyTag_ne (data : Bytes) : data ++ emptyTag ≠ vectorCiphertext := by
  intro same
  have last := congrArg (fun bytes => bytes.getLast?) same
  rw [getLast?_append_of_ne_nil _ (by decide)] at last
  exact absurd last (by decide)

theorem vectorAead_correct : vectorAead.Correct where
  length_encrypt key nonce data aad := by
    dsimp only [vectorAead]
    split
    · case isTrue same =>
        cases same
        decide +kernel
    · rw [length_append]
      rfl
  decrypt_encrypt key nonce data aad := by
    dsimp only [vectorAead]
    by_cases same : (key, nonce, data, aad) = (vectorKey, vectorNonce, vectorPlaintext, vectorAad)
    · rw [if_pos same, if_pos rfl]
      cases same
      rw [if_pos rfl]
    · rw [if_neg same, if_neg (append_emptyTag_ne data), length_append]
      exact congrArg some (take_left' (Nat.add_sub_cancel _ _).symm)

def vectorManifest (metadataByte : UInt8) : Manifest :=
  { fileId := { text := "00112233445566778899aabbccddeeff".toList, canonical := by decide +kernel }
    plaintextSize := 20
    chunkSize := eufChunkSize
    chunkCount := 1
    salt := (range 16).map UInt8.ofNat
    noncePrefix := fromHex "a0a1a2a3a4a5a6a7".toList
    encryptedMetadata := replicate 16 metadataByte
    version := eufVersion
    version_eq := rfl
    plaintextSize_le := by decide
    chunkSize_eq := rfl
    chunkCount_eq := by decide
    salt_length := by decide
    noncePrefix_length := by decide +kernel
    metadata_length_ge := by
      rw [length_replicate]
      decide
    metadata_length_le := by
      rw [length_replicate]
      decide }

theorem vectorManifest_nonce : (vectorManifest 120).nonce 0 = .ok vectorNonce := by
  decide +kernel

theorem vectorManifest_chunkAad :
    (vectorManifest 120).chunkAad 0 vectorPlaintext.length = .ok vectorAad := by
  decide +kernel

theorem vectorAead_binds :
    vectorAead.BindsChunk vectorPlaintext vectorKey (vectorManifest 120) 0 := by
  intro nonce aad isNonce isAad other position otherNonce otherAad _ _ different
  cases isNonce.symm.trans vectorManifest_nonce
  cases isAad.symm.trans vectorManifest_chunkAad
  dsimp only [vectorAead]
  rw [if_pos rfl, if_pos rfl, if_neg]
  intro same
  exact different (Prod.mk.inj same).2

theorem vectorChunk_encrypted :
    encryptChunk vectorAead vectorPlaintext vectorKey (vectorManifest 120) 0 =
      .ok vectorCiphertext := by
  decide +kernel

theorem vectorChunk_sound :
    decryptChunk vectorAead vectorCiphertext vectorKey (vectorManifest 120) 0 =
        .ok (some vectorPlaintext) ∧
      ∀ (other : Manifest) (opened : Bytes), other.noncePrefix ≠ (vectorManifest 120).noncePrefix →
        decryptChunk vectorAead vectorCiphertext vectorKey other 0 ≠ .ok (some opened) := by
  have sound := (transferFormat_sound vectorAead vectorAead_correct (vectorManifest 120)).2.2.2.2
    vectorKey vectorPlaintext vectorCiphertext 0 vectorChunk_encrypted
  refine ⟨sound.1, ?_⟩
  intro other opened different decrypted
  exact different (sound.2 vectorAead_binds other 0 opened decrypted).2.2.symm

/-- A manifest with other encrypted metadata is another manifest, and decrypts the chunk. -/
theorem otherMetadata_decrypts :
    vectorAead.Correct ∧ vectorAead.BindsChunk vectorPlaintext vectorKey (vectorManifest 120) 0 ∧
      encryptChunk vectorAead vectorPlaintext vectorKey (vectorManifest 120) 0 =
        .ok vectorCiphertext ∧
      vectorManifest 121 ≠ vectorManifest 120 ∧
      decryptChunk vectorAead vectorCiphertext vectorKey (vectorManifest 121) 0 =
        .ok (some vectorPlaintext) :=
  ⟨vectorAead_correct, vectorAead_binds, vectorChunk_encrypted, by decide +kernel,
    by decide +kernel⟩

end XFerry.Encrypted
