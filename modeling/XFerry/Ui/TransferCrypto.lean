/-
The encrypted transfer format in the browser.

Sizes and indexes are numbers of JavaScript, which are floats, and are written by halves.
AES-GCM and HMAC are those of Web Crypto, and parameters.
-/

import XFerry.Encrypted.TransferFormat
import XFerry.JavaScript.Number
import XFerry.JavaScript.Text

namespace XFerry.Ui

open Encrypted (Aead Bytes asciiBytes)
open JavaScript (Number Text literal unitCodes)

inductive Thrown where
  | typeError (message : String)
  | rangeError (message : String)

def version : Number := .finite 1
def chunkSize : Number := .finite (8 * 1024 * 1024)
def metadataIndex : Number := .finite 0xffffffff
def maxMetadataSize : Nat := 4096
def metadataPrefix : Bytes := asciiBytes "XFERRY-EUF1-META" ++ [0]
def chunkPrefix : Bytes := asciiBytes "XFERRY-EUF1-CHUNK" ++ [0]
def resumePrefix : Bytes := asciiBytes "XFERRY-EUF1-RESUME" ++ [0]

def uint32 (value : Number) (field : String) : Except Thrown Bytes :=
  if value.isInteger = false ∨ value.less (.finite 0) ∨ Number.less (.finite 0xffffffff) value then
    .error (.rangeError (field ++ " must be an unsigned 32-bit integer"))
  else .ok value.setUint32

def uint64 (value : Number) (field : String) : Except Thrown Bytes :=
  if value.isSafeInteger = false ∨ value.less (.finite 0) then
    .error (.rangeError (field ++ " must be a non-negative safe integer"))
  else
    let high := (value.divide (.finite 0x100000000)).floor
    let low := value.remainder (.finite 0x100000000)
    .ok (high.setUint32 ++ low.setUint32)

def isHexUnit (code : Nat) : Bool := (Packing.hexDigits.map Char.toNat).contains code

/-- `Number.parseInt(text, 16)`, of hexadecimal digits. -/
def parseHex (digits : List Nat) : Nat :=
  digits.foldl (fun value code => value * 16 + Packing.hexDigits.idxOf (Char.ofNat code)) 0

def decodeFileId (fileId : Text) : Except Thrown Bytes :=
  let codes := unitCodes fileId
  if codes.length = 32 ∧ codes.all isHexUnit = true then
    .ok ((List.range 16).map fun index =>
      UInt8.ofNat (parseHex ((codes.drop (index * 2)).take 2)))
  else .error (.typeError "fileId must be exactly 32 lowercase hexadecimal characters")

/-- `text.replace(/a/g, b)`. -/
def replaceAll (sought replacement : Char) (text : Text) : Text :=
  text.map fun unit =>
    if unit = UInt16.ofNat sought.toNat then UInt16.ofNat replacement.toNat else unit

/-- `text.replace(/=+$/g, '')`. -/
def withoutTrailing (sought : Char) (text : Text) : Text :=
  (text.reverse.dropWhile (· = UInt16.ofNat sought.toNat)).reverse

def encodeBase64Url (bytes : Bytes) : Text :=
  withoutTrailing '=' (replaceAll '/' '_' (replaceAll '+' '-' (JavaScript.btoa bytes)))

def isUrlUnit (code : Nat) : Bool := (Base64Url.alphabet.map Char.toNat).contains code

def decodeBase64Url (value : Text) (field : String) : Except Thrown Bytes :=
  if (unitCodes value).all isUrlUnit = false ∨ value.length % 4 = 1 then
    .error (.typeError (field ++ " must be canonical unpadded base64url"))
  else
    let padding := List.replicate ((4 - value.length % 4) % 4) '='
    match JavaScript.atob (replaceAll '_' '/' (replaceAll '-' '+' value) ++ literal padding) with
    | none => .error (.typeError (field ++ " must be canonical unpadded base64url"))
    | some result =>
      if encodeBase64Url result ≠ value then
        .error (.typeError (field ++ " must be canonical unpadded base64url"))
      else .ok result

structure Manifest where
  version : Number
  fileId : Text
  plaintextSize : Number
  chunkSize : Number
  chunkCount : Number
  salt : Bytes
  noncePrefix : Bytes
deriving DecidableEq

def validateManifest (manifest : Manifest) : Except Thrown Unit :=
  if manifest.version.strictEquals version = false then
    .error (.rangeError "manifest version must be 1")
  else do
    let _ ← decodeFileId manifest.fileId
    if manifest.plaintextSize.isSafeInteger = false ∨ manifest.plaintextSize.less (.finite 0) then
      .error (.rangeError "plaintextSize must be a non-negative safe integer")
    else if manifest.chunkSize.strictEquals chunkSize = false then
      .error (.rangeError ("chunkSize must be exactly " ++ chunkSize.decimal))
    else if manifest.chunkCount.strictEquals (manifest.plaintextSize.divide chunkSize).ceil =
      false then
      .error (.rangeError "chunkCount does not match plaintextSize")
    else if manifest.salt.length ≠ 16 then
      .error (.rangeError "salt must contain exactly 16 bytes")
    else if manifest.noncePrefix.length ≠ 8 then
      .error (.rangeError "noncePrefix must contain exactly 8 bytes")
    else .ok ()

def expectedChunkLength (manifest : Manifest) (index : Number) : Except Thrown Number := do
  validateManifest manifest
  if index.isInteger = false ∨ index.less (.finite 0) ∨ index.atLeast manifest.chunkCount then
    .error (.rangeError "chunk index is outside the manifest")
  else .ok (chunkSize.min (manifest.plaintextSize.subtract (index.multiply chunkSize)))

def buildMetadataAad (manifest : Manifest) : Except Thrown Bytes := do
  validateManifest manifest
  let fileId ← decodeFileId manifest.fileId
  let plaintextSize ← uint64 manifest.plaintextSize "plaintextSize"
  let chunkSize ← uint32 manifest.chunkSize "chunkSize"
  let chunkCount ← uint32 manifest.chunkCount "chunkCount"
  return metadataPrefix ++ fileId ++ plaintextSize ++ chunkSize ++ chunkCount

def buildChunkAad (manifest : Manifest) (index plaintextLength : Number) : Except Thrown Bytes := do
  let expectedLength ← expectedChunkLength manifest index
  if plaintextLength.strictEquals expectedLength = false then
    .error (.rangeError ("plaintextLength must be exactly " ++ expectedLength.decimal ++
      " for chunk " ++ index.decimal))
  else do
    let fileId ← decodeFileId manifest.fileId
    let plaintextSize ← uint64 manifest.plaintextSize "plaintextSize"
    let chunkSize ← uint32 manifest.chunkSize "chunkSize"
    let chunkCount ← uint32 manifest.chunkCount "chunkCount"
    let position ← uint32 index "index"
    let length ← uint32 plaintextLength "plaintextLength"
    return chunkPrefix ++ fileId ++ plaintextSize ++ chunkSize ++ chunkCount ++ position ++ length

def buildNonce (manifest : Manifest) (index : Number) : Except Thrown Bytes := do
  let counter ← uint32 index "index"
  return manifest.noncePrefix ++ counter

def byteLength (bytes : Bytes) : Number := Number.ofInt bytes.length

def importAesKey (key : Bytes) : Except Thrown Unit :=
  if key.length ≠ 32 then .error (.rangeError "content key must contain exactly 32 bytes")
  else .ok ()

def encryptChunk (aead : Aead) (plaintext key : Bytes) (manifest : Manifest) (index : Number) :
    Except Thrown Bytes := do
  importAesKey key
  let nonce ← buildNonce manifest index
  let aad ← buildChunkAad manifest index (byteLength plaintext)
  return aead.encrypt key nonce plaintext aad

/-- What `decryptChunk` tries, where whatever is thrown ends in `null`. -/
def tryDecryptChunk (aead : Aead) (ciphertext key : Bytes) (manifest : Manifest)
    (index plaintextLength : Number) : Except Thrown (Option Bytes) := do
  importAesKey key
  let nonce ← buildNonce manifest index
  let aad ← buildChunkAad manifest index plaintextLength
  return aead.decrypt key nonce ciphertext aad

def decryptChunk (aead : Aead) (ciphertext key : Bytes) (manifest : Manifest) (index : Number) :
    Except Thrown (Option Bytes) := do
  let plaintextLength ← expectedChunkLength manifest index
  if (byteLength ciphertext).strictEquals (plaintextLength.add (.finite 16)) = false then
    return none
  else
    return ((tryDecryptChunk aead ciphertext key manifest index plaintextLength).toOption).join

/-- The message that `computeResumeMac` authenticates. -/
def resumeMessage (plaintext : Bytes) (manifest : Manifest) (index : Number) :
    Except Thrown Bytes := do
  let fileId ← decodeFileId manifest.fileId
  let position ← uint32 index "index"
  let length ← uint32 (byteLength plaintext) "plaintextLength"
  return resumePrefix ++ fileId ++ position ++ length ++ plaintext

def computeResumeMac (hmac : Bytes → Bytes → Bytes) (plaintext key : Bytes) (manifest : Manifest)
    (index : Number) : Except Thrown Bytes := do
  let _ ← buildChunkAad manifest index (byteLength plaintext)
  if key.length ≠ 32 then
    .error (.rangeError "resume key must contain exactly 32 bytes")
  else do
    let message ← resumeMessage plaintext manifest index
    return hmac key message

/-- The last step of `encryptMetadata`, for the JSON text of the metadata. -/
def encryptMetadata (aead : Aead) (plaintext key : Bytes) (manifest : Manifest) :
    Except Thrown Bytes :=
  if maxMetadataSize < plaintext.length then
    .error (.rangeError ("metadata JSON must not exceed " ++ toString maxMetadataSize ++ " bytes"))
  else do
    importAesKey key
    let nonce ← buildNonce manifest metadataIndex
    let aad ← buildMetadataAad manifest
    return aead.encrypt key nonce plaintext aad

/-- The decryption in `decryptMetadata`, up to the JSON text. -/
def tryDecryptMetadata (aead : Aead) (ciphertext key : Bytes) (manifest : Manifest) :
    Except Thrown (Option Bytes) := do
  importAesKey key
  let nonce ← buildNonce manifest metadataIndex
  let aad ← buildMetadataAad manifest
  return aead.decrypt key nonce ciphertext aad

def decryptMetadata (aead : Aead) (ciphertext key : Bytes) (manifest : Manifest) : Option Bytes :=
  (tryDecryptMetadata aead ciphertext key manifest).toOption.join

end XFerry.Ui
