/-
The decoder of a journal's text.

`decode_encrypted_state` answers a malformed journal with `EncryptedStorageCorrupt`.
What it calls can raise by itself, and those exceptions are kept apart here.
-/

import XFerry.Encrypted.Record
import XFerry.Json.Scanner

namespace XFerry.Encrypted

open Json

/-- `valueError` is that of `int()`, and `overflowError` that of `float()`. -/
inductive StateError where
  | storage (error : StorageError)
  | valueError
  | overflowError
deriving DecidableEq

def corrupt (message : String) : StateError := .storage (.corrupt message)

abbrev Timestamp := { value : ℚ // 0 ≤ value }

abbrev Members := List (Str × Value)

def require (condition : Prop) [Decidable condition] (error : StateError) :
    Except StateError Unit :=
  if condition then .ok () else .error error

def name (text : String) : Str := str text.toList

/-- `members[name]`, where the names of the members have been checked. -/
def field (members : Members) (text : String) : Value := (members.lookup (name text)).getD .null

def requireObject (value : Value) (message : String) : Except StateError Members :=
  match value with
  | .object members => .ok members
  | _ => .error (corrupt message)

def requireString (value : Value) (message : String) : Except StateError Str :=
  match value with
  | .string text => .ok text
  | _ => .error (corrupt message)

/-- The names are these, as sets. -/
def HasExactly (members : Members) (names : List String) : Prop :=
  (∀ text ∈ members.map Prod.fst, text ∈ names.map name) ∧
    ∀ text ∈ names.map name, text ∈ members.map Prod.fst

instance (members : Members) (names : List String) : Decidable (HasExactly members names) := by
  unfold HasExactly
  infer_instance

def requireExactKeys (members : Members) (names : List String) (field : String) :
    Except StateError Unit :=
  require (HasExactly members names) (corrupt ("invalid " ++ field ++ " fields"))

def requireInt (value : Value) (field : String) : Except StateError Nat :=
  match value with
  | .int number =>
    if number < 0 then .error (corrupt ("invalid " ++ field)) else .ok number.toNat
  | _ => .error (corrupt ("invalid " ++ field))

def requireTimestamp (float : Python.PyFloat) (field : String) : Except StateError Timestamp :=
  match float with
  | .finite value =>
    if nonneg : 0 ≤ value then .ok ⟨value, nonneg⟩ else .error (corrupt ("invalid " ++ field))
  | .infinite _ => .error (corrupt ("invalid " ++ field))
  | .nan => .error (corrupt ("invalid " ++ field))

def requireNumber (value : Value) (field : String) : Except StateError Timestamp :=
  match value with
  | .int number =>
    match Python.PyFloat.ofInt number with
    | none => .error .overflowError
    | some float => requireTimestamp float field
  | .float float => requireTimestamp float field
  | _ => .error (corrupt ("invalid " ++ field))

def FileId.parse (text : Str) : Option FileId :=
  if canonical : isFileIdText (text.map Char.ofNat) = true then
    some { text := text.map Char.ofNat, canonical := canonical }
  else none

/-- The constructor, with `none` for `EncryptedTransferValidationError`. -/
def Manifest.construct (version : Nat) (fileId : Str) (plaintextSize chunkSize chunkCount : Nat)
    (salt noncePrefix encryptedMetadata : Bytes) : Option Manifest :=
  match FileId.parse fileId with
  | none => none
  | some fileId =>
    if sizes : version = eufVersion ∧ plaintextSize ≤ eufMaxFileSize ∧
        chunkSize = eufChunkSize ∧ chunkCount = (plaintextSize + chunkSize - 1) / chunkSize then
      if lengths : salt.length = 16 ∧ noncePrefix.length = 8 ∧
          eufGcmTagSize ≤ encryptedMetadata.length ∧
            encryptedMetadata.length ≤ eufMaxMetadataSize + eufGcmTagSize then
        some
          { fileId := fileId
            plaintextSize := plaintextSize
            chunkSize := chunkSize
            chunkCount := chunkCount
            salt := salt
            noncePrefix := noncePrefix
            encryptedMetadata := encryptedMetadata
            version := version
            version_eq := sizes.1
            plaintextSize_le := sizes.2.1
            chunkSize_eq := sizes.2.2.1
            chunkCount_eq := sizes.2.2.2
            salt_length := lengths.1
            noncePrefix_length := lengths.2.1
            metadata_length_ge := lengths.2.2.1
            metadata_length_le := lengths.2.2.2 }
      else none
    else none

def manifestNames : List String :=
  ["version", "file_id", "plaintext_size", "chunk_size", "chunk_count", "salt", "nonce_prefix",
    "encrypted_metadata"]

def decodeBytes (text : Str) (message : String) : Except StateError Bytes :=
  match Base64Url.decode text with
  | none => .error (corrupt message)
  | some data => .ok data

/-- `_decode_encrypted_manifest`. -/
def decodeManifest (raw : Value) : Except StateError Manifest := do
  let members ← requireObject raw "invalid manifest"
  requireExactKeys members manifestNames "manifest"
  let fileId ← requireString (field members "file_id") "invalid manifest file_id"
  let salt ← requireString (field members "salt") "invalid manifest salt"
  let noncePrefix ← requireString (field members "nonce_prefix") "invalid manifest nonce_prefix"
  let metadata ←
    requireString (field members "encrypted_metadata") "invalid manifest encrypted_metadata"
  let version ← requireInt (field members "version") "manifest version"
  let plaintextSize ← requireInt (field members "plaintext_size") "manifest plaintext_size"
  let chunkSize ← requireInt (field members "chunk_size") "manifest chunk_size"
  let chunkCount ← requireInt (field members "chunk_count") "manifest chunk_count"
  let salt ← decodeBytes salt "invalid manifest"
  let noncePrefix ← decodeBytes noncePrefix "invalid manifest"
  let metadata ← decodeBytes metadata "invalid manifest"
  match Manifest.construct version fileId plaintextSize chunkSize chunkCount salt noncePrefix
      metadata with
  | none => .error (corrupt "invalid manifest")
  | some manifest => .ok manifest

/-- A canonical decimal number, by its code points. -/
def IsChunkName (text : Str) : Prop :=
  text ≠ [] ∧ (text = name "0" ∨ (∀ code ∈ text, 48 ≤ code ∧ code ≤ 57) ∧ text.head? ≠ some 48)

instance (text : Str) : Decidable (IsChunkName text) := by
  unfold IsChunkName
  infer_instance

/-- `int(raw_index)` of a canonical decimal number. -/
def chunkIndex (text : Str) : Nat := digitsValue (text.map Char.ofNat)

def parseChunkIndex (text : Str) : Except StateError Nat :=
  if Python.maxStrDigits < text.length then .error .valueError else .ok (chunkIndex text)

/-- `encrypted_chunk_length`, whose exception is not one of the storage. -/
def expectedChunkLength (manifest : Manifest) (index : Nat) : Except StateError Nat :=
  match manifest.encryptedChunkLength index with
  | .error error => .error (.storage error)
  | .ok length => .ok length

def chunkNames : List String := ["length", "resume_mac", "ciphertext_sha256"]

def decodeChunkState (raw : Value) (index expectedLength : Nat) :
    Except StateError StoredChunk := do
  let members ← requireObject raw "invalid chunk state"
  requireExactKeys members chunkNames "chunk state"
  let length ← requireInt (field members "length") "chunk length"
  require (length = expectedLength) (corrupt "invalid chunk length")
  let resumeMac ← requireString (field members "resume_mac") "invalid chunk digest"
  let ciphertextHash ← requireString (field members "ciphertext_sha256") "invalid chunk digest"
  let resumeMac ← decodeBytes resumeMac "invalid chunk digest"
  let ciphertextHash ← decodeBytes ciphertextHash "invalid chunk digest"
  require (resumeMac.length = 32 ∧ ciphertextHash.length = 32)
    (corrupt "invalid chunk digest length")
  return { index := index, length := length, resumeMac := resumeMac,
           ciphertextSha256 := ciphertextHash }

def decodeStoredChunk (manifest : Manifest) (raw : Str × Value) :
    Except StateError StoredChunk := do
  require (IsChunkName raw.1) (corrupt "invalid chunk index")
  let index ← parseChunkIndex raw.1
  let expectedLength ← expectedChunkLength manifest index
  decodeChunkState raw.2 index expectedLength

def decodeStoredChunks (manifest : Manifest) : Members → Except StateError (List StoredChunk)
  | [] => .ok []
  | raw :: rest => do
      let chunk ← decodeStoredChunk manifest raw
      let others ← decodeStoredChunks manifest rest
      return chunk :: others

def decodeStatus (value : Value) : Except StateError Status :=
  match value with
  | .string text =>
    if text = name "partial" then .ok .partial_
    else if text = name "committing" then .ok .committing
    else if text = name "complete" then .ok .complete
    else .error (corrupt "invalid state status")
  | _ => .error (corrupt "invalid state status")

def stateNames : List String :=
  ["schema_version", "status", "created_at", "updated_at", "manifest", "received_chunks"]

/-- `json.loads`, each of whose exceptions is one of those that are caught. -/
def loadState (levels : Nat) (raw : Bytes) : Except StateError Value :=
  match Python.decode raw with
  | none => .error (corrupt "invalid state JSON")
  | some text =>
    match loads levels text with
    | .error _ => .error (corrupt "invalid state JSON")
    | .ok value => .ok value

structure StateHeader where
  status : Status
  manifest : Manifest
  chunks : Members
  createdAt : Value
  updatedAt : Value

def decodeHeader (levels : Nat) (raw : Bytes) (expectedFileId : List Char) :
    Except StateError StateHeader := do
  require (raw.length ≤ maxStateBytes) (corrupt "encrypted recovery journal exceeds its limit")
  let decoded ← loadState levels raw
  let members ← requireObject decoded "invalid state object"
  requireExactKeys members stateNames "state"
  let schema ← requireInt (field members "schema_version") "schema_version"
  require (schema = 1) (corrupt "unsupported state schema")
  let status ← decodeStatus (field members "status")
  let manifest ← decodeManifest (field members "manifest")
  require (manifest.fileId.text = expectedFileId) (corrupt "state file ID does not match manifest")
  let chunks ← requireObject (field members "received_chunks") "invalid received_chunks"
  return { status := status, manifest := manifest, chunks := chunks,
           createdAt := field members "created_at", updatedAt := field members "updated_at" }

def decodeTimestamps (header : StateHeader) : Except StateError (Timestamp × Timestamp) := do
  let createdAt ← requireNumber header.createdAt "created_at"
  let updatedAt ← requireNumber header.updatedAt "updated_at"
  require (createdAt ≤ updatedAt) (corrupt "updated_at predates created_at")
  return (createdAt, updatedAt)

/-- `decode_encrypted_state`.  `levels` is how deep the interpreter lets the scanner
descend. -/
def decodeEncryptedState (levels : Nat) (raw : Bytes) (expectedFileId : List Char) :
    Except StateError (Record Timestamp) := do
  let header ← decodeHeader levels raw expectedFileId
  let chunks ← decodeStoredChunks header.manifest header.chunks
  require (header.status = .partial_ ∨ chunks.length = header.manifest.chunkCount)
    (corrupt "final state is missing chunks")
  let times ← decodeTimestamps header
  return { manifest := header.manifest, status := header.status,
           receivedChunks := sortChunks chunks, createdAt := times.1, updatedAt := times.2 }

end XFerry.Encrypted
