/-
Manifests of encrypted transfers and the geometry of their ciphertext.

A manifest carries the checks of its constructor, so every offset below is that
of a file the service can have created.
-/

import Mathlib

namespace XFerry.Encrypted

abbrev Bytes := List UInt8

def eufVersion : Nat := 1
def eufChunkSize : Nat := 8 * 1024 * 1024
def eufMaxChunkCount : Nat := 4096
def eufMaxFileSize : Nat := eufMaxChunkCount * eufChunkSize
def eufGcmTagSize : Nat := 16
def eufMaxMetadataSize : Nat := 4096

inductive StorageError where
  | validation (message : String)
  | notFound (message : String)
  | conflict (message : String)
  | incomplete (message : String)
  | corrupt (message : String)
  | quotaExceeded (reason : String)
  | os (message : String)
deriving DecidableEq, Repr

def isFileIdText (text : List Char) : Bool :=
  decide (text.length = 32) && text.all fun char => "0123456789abcdef".toList.contains char

structure FileId where
  text : List Char
  canonical : isFileIdText text = true
deriving DecidableEq

theorem FileId.length_text (fileId : FileId) : fileId.text.length = 32 := by
  have both := fileId.canonical
  simp only [isFileIdText, Bool.and_eq_true, decide_eq_true_eq] at both
  exact both.1

structure Manifest where
  fileId : FileId
  plaintextSize : Nat
  chunkSize : Nat
  chunkCount : Nat
  salt : Bytes
  noncePrefix : Bytes
  encryptedMetadata : Bytes
  version : Nat
  version_eq : version = eufVersion
  plaintextSize_le : plaintextSize ≤ eufMaxFileSize
  chunkSize_eq : chunkSize = eufChunkSize
  chunkCount_eq : chunkCount = (plaintextSize + chunkSize - 1) / chunkSize
  salt_length : salt.length = 16
  noncePrefix_length : noncePrefix.length = 8
  metadata_length_ge : eufGcmTagSize ≤ encryptedMetadata.length
  metadata_length_le : encryptedMetadata.length ≤ eufMaxMetadataSize + eufGcmTagSize
deriving DecidableEq

namespace Manifest

def ciphertextSize (manifest : Manifest) : Nat :=
  manifest.plaintextSize + manifest.chunkCount * eufGcmTagSize

def chunkLength (manifest : Manifest) (index : Nat) : Nat :=
  min manifest.chunkSize (manifest.plaintextSize - index * manifest.chunkSize) + eufGcmTagSize

def encryptedChunkLength (manifest : Manifest) (index : Int) : Except StorageError Nat :=
  if index < 0 ∨ (manifest.chunkCount : Int) ≤ index then
    .error (.validation "chunk index is outside the manifest")
  else
    .ok (manifest.chunkLength index.toNat)

def chunkOffset (manifest : Manifest) (index : Nat) : Nat :=
  index * (manifest.chunkSize + eufGcmTagSize)

variable {manifest : Manifest} {index : Nat}

theorem encryptedChunkLength_of_lt (inside : index < manifest.chunkCount) :
    manifest.encryptedChunkLength index = .ok (manifest.chunkLength index) := by
  have inRange : ¬ ((index : Int) < 0 ∨ (manifest.chunkCount : Int) ≤ index) := by omega
  simp only [encryptedChunkLength, if_neg inRange, Int.toNat_natCast]

theorem encryptedChunkLength_eq_ok {index : Int} {length : Nat}
    (found : manifest.encryptedChunkLength index = .ok length) :
    ∃ position : Nat, index = position ∧ position < manifest.chunkCount ∧
      length = manifest.chunkLength position := by
  unfold encryptedChunkLength at found
  split at found
  · cases found
  rename_i inRange
  refine ⟨index.toNat, by omega, by omega, ?_⟩
  cases found
  rfl

theorem chunkSize_pos (manifest : Manifest) : 0 < manifest.chunkSize := by
  rw [manifest.chunkSize_eq]
  decide

theorem chunkCount_le (manifest : Manifest) : manifest.chunkCount ≤ eufMaxChunkCount := by
  have size := manifest.plaintextSize_le
  rw [manifest.chunkCount_eq, manifest.chunkSize_eq]
  simp only [eufMaxFileSize, eufMaxChunkCount, eufChunkSize] at size ⊢
  omega

theorem start_lt_plaintextSize (inside : index < manifest.chunkCount) :
    index * manifest.chunkSize < manifest.plaintextSize := by
  have positive := manifest.chunkSize_pos
  rw [manifest.chunkCount_eq, Nat.lt_div_iff_mul_lt positive] at inside
  omega

theorem chunkLength_le (manifest : Manifest) (index : Nat) :
    manifest.chunkLength index ≤ manifest.chunkSize + eufGcmTagSize := by
  simp only [chunkLength]
  omega

theorem chunkOffset_add_length_le (inside : index < manifest.chunkCount) :
    manifest.chunkOffset index + manifest.chunkLength index ≤ manifest.ciphertextSize := by
  have start := start_lt_plaintextSize inside
  have tags : index * eufGcmTagSize + eufGcmTagSize ≤ manifest.chunkCount * eufGcmTagSize := by
    rw [← Nat.succ_mul]
    exact Nat.mul_le_mul_right _ inside
  simp only [chunkOffset, chunkLength, ciphertextSize, Nat.mul_add]
  omega

theorem chunkOffset_add_length_le_of_lt (manifest : Manifest) {left right : Nat}
    (before : left < right) :
    manifest.chunkOffset left + manifest.chunkLength left ≤ manifest.chunkOffset right := by
  have length := manifest.chunkLength_le left
  have spaced : manifest.chunkOffset left + (manifest.chunkSize + eufGcmTagSize) ≤
      manifest.chunkOffset right := by
    unfold chunkOffset
    rw [← Nat.succ_mul]
    exact Nat.mul_le_mul_right _ before
  omega

end Manifest

def sampleFileId : FileId :=
  { text := List.replicate 32 'a', canonical := by decide }

def sampleManifest : Manifest :=
  { fileId := ⟨List.replicate 32 '0', by decide⟩
    plaintextSize := 1
    chunkSize := eufChunkSize
    chunkCount := 1
    salt := List.replicate 16 0
    noncePrefix := List.replicate 8 0
    encryptedMetadata := List.replicate 16 0
    version := 1
    version_eq := rfl
    plaintextSize_le := by decide
    chunkSize_eq := rfl
    chunkCount_eq := by decide
    salt_length := rfl
    noncePrefix_length := rfl
    metadata_length_ge := by decide
    metadata_length_le := by decide }

end XFerry.Encrypted
