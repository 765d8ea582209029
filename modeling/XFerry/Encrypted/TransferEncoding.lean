/-
Text fields and resume codes of the encrypted transfer format.
-/

import XFerry.Encoding.Base64Url
import XFerry.Encrypted.TransferFormat
import XFerry.Json.Scanner

namespace XFerry.Encrypted

open List

open Json (Str)
open Packing (fromHex)

def isUrlDigit (code : Nat) : Bool := (Base64Url.alphabet.map Char.toNat).contains code

/-- `base64.b64decode` with `validate` of a text that is padded to whole groups. -/
def b64decode (digits : List Nat) : Option Bytes :=
  (digits.mapM Base64Url.digitValue).map Base64Url.join

def b64urlDecode (field : String) (value : Str) : Except TransferError Bytes :=
  if value.all isUrlDigit = false then
    .error (.validation (field ++ " must be unpadded base64url"))
  else if value.length % 4 = 1 then
    .error (.validation (field ++ " must be unpadded base64url"))
  else
    match b64decode value with
    | none => .error (.validation (field ++ " must be unpadded base64url"))
    | some decoded =>
      if (Base64Url.encode decoded).map Char.toNat ≠ value then
        .error (.validation (field ++ " must be canonical base64url"))
      else .ok decoded

theorem isUrlDigit_ascii (code : Nat) (isDigit : isUrlDigit code = true) : code < 128 := by
  have table : ∀ digit ∈ Base64Url.alphabet.map Char.toNat, digit < 128 := by decide
  exact table code (contains_iff_mem.mp isDigit)

def isHexDigit (code : Nat) : Bool := (Packing.hexDigits.map Char.toNat).contains code

def fileIdBytes (fileId : Str) : Except TransferError Bytes :=
  if fileId.length = 32 ∧ fileId.all isHexDigit = true then .ok (fromHex (fileId.map Char.ofNat))
  else .error (.validation "file_id must be exactly 32 lowercase hexadecimal characters")

theorem isHexDigit_ascii (code : Nat) (isDigit : isHexDigit code = true) : code < 128 := by
  have table : ∀ digit ∈ Packing.hexDigits.map Char.toNat, digit < 128 := by decide
  exact table code (contains_iff_mem.mp isDigit)

theorem FileId.mem_hexDigits (fileId : FileId) :
    ∀ char ∈ fileId.text, char ∈ Packing.hexDigits := by
  have canonical := fileId.canonical
  simp only [isFileIdText, Bool.and_eq_true, all_eq_true, contains_iff_mem] at canonical
  exact canonical.2

theorem fileIdBytes_text (fileId : FileId) :
    fileIdBytes (fileId.text.map Char.toNat) = .ok fileId.bytes := by
  have hex : (fileId.text.map Char.toNat).all isHexDigit = true := by
    rw [all_eq_true]
    intro code among
    obtain ⟨char, inText, rfl⟩ := mem_map.mp among
    exact contains_iff_mem.mpr (mem_map_of_mem (fileId.mem_hexDigits char inText))
  have back : (fileId.text.map Char.toNat).map Char.ofNat = fileId.text := by
    rw [map_map]
    conv_rhs => rw [← map_id fileId.text]
    exact map_congr_left fun char _ => Char.ofNat_toNat char
  rw [fileIdBytes, if_pos ⟨by rw [length_map, fileId.length_text], hex⟩, back, FileId.bytes]

def resumePrefix : Bytes := asciiBytes "XFERRY-EUF1-RESUME" ++ [0]

/-- The message that `compute_resume_mac` authenticates. -/
def resumeMessage (plaintext : Bytes) (manifest : Manifest) (index : Int) :
    Except TransferError Bytes := do
  let counters ← packed [(4, index), (4, plaintext.length)]
  return resumePrefix ++ manifest.fileId.bytes ++ counters ++ plaintext

/-- `compute_resume_mac`, with HMAC-SHA-256 as a parameter. -/
def computeResumeMac (hmac : Bytes → Bytes → Bytes) (plaintext key : Bytes) (manifest : Manifest)
    (index : Int) : Except TransferError Bytes :=
  if key.length ≠ 32 then .error (.validation "resume key must contain exactly 32 bytes")
  else do
    let _ ← manifest.chunkAad index plaintext.length
    let message ← resumeMessage plaintext manifest index
    return hmac key message

def encryptMetadata (aead : Aead) (plaintext key : Bytes) (manifest : Manifest) :
    Except TransferError Bytes := do
  requireAesKey key
  let nonce ← manifest.nonce eufMetadataIndex
  if eufMaxMetadataSize < plaintext.length then
    .error (.validation ("metadata JSON must not exceed " ++ toString eufMaxMetadataSize ++
      " bytes"))
  else do
    let aad ← manifest.metadataAad
    return aead.encrypt key nonce plaintext aad

/-- The decryption in `decrypt_metadata`, up to the JSON text. -/
def decryptMetadata (aead : Aead) (key : Bytes) (manifest : Manifest) :
    Except TransferError (Option Bytes) := do
  requireAesKey key
  let nonce ← manifest.nonce eufMetadataIndex
  let aad ← manifest.metadataAad
  match aead.decrypt key nonce manifest.encryptedMetadata aad with
  | none => return none
  | some plaintext => return if eufMaxMetadataSize < plaintext.length then none else some plaintext

theorem metadataContext (manifest : Manifest) :
    ∃ nonce aad, manifest.nonce eufMetadataIndex = .ok nonce ∧ manifest.metadataAad = .ok aad :=
  ⟨_, _, manifest.nonce_eq (by decide), manifest.metadataAad_eq⟩

theorem encryptMetadata_eq_ok {aead : Aead} {manifest : Manifest}
    {plaintext key ciphertext : Bytes}
    (isSealed : encryptMetadata aead plaintext key manifest = .ok ciphertext) :
    key.length = 32 ∧ plaintext.length ≤ eufMaxMetadataSize ∧
      ∃ nonce aad, manifest.nonce eufMetadataIndex = .ok nonce ∧
        manifest.metadataAad = .ok aad ∧ ciphertext = aead.encrypt key nonce plaintext aad := by
  obtain ⟨counter, context, isCounter, isContext⟩ := metadataContext manifest
  unfold encryptMetadata at isSealed
  by_cases length : key.length = 32
  · rw [Ensures.bind_of_ok (requireAesKey_eq_ok length), Ensures.bind_of_ok isCounter]
      at isSealed
    by_cases long : eufMaxMetadataSize < plaintext.length
    · rw [if_pos long] at isSealed
      cases isSealed
    rw [if_neg long, Ensures.bind_of_ok isContext] at isSealed
    cases isSealed
    exact ⟨length, not_lt.mp long, counter, context, isCounter, isContext, rfl⟩
  · rw [requireAesKey, if_neg length] at isSealed
    cases isSealed

theorem decryptMetadata_of_sealed {aead : Aead} {manifest : Manifest} (correct : aead.Correct)
    {plaintext key : Bytes}
    (isSealed : encryptMetadata aead plaintext key manifest = .ok manifest.encryptedMetadata) :
    decryptMetadata aead key manifest = .ok (some plaintext) := by
  obtain ⟨length, short, nonce, aad, isNonce, isAad, isCiphertext⟩ := encryptMetadata_eq_ok isSealed
  unfold decryptMetadata
  rw [Ensures.bind_of_ok (requireAesKey_eq_ok length), Ensures.bind_of_ok isNonce,
    Ensures.bind_of_ok isAad, isCiphertext, correct.decrypt_encrypt]
  dsimp only
  rw [if_neg (not_lt.mpr short)]
  rfl

end XFerry.Encrypted
