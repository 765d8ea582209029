/-
The HTTP API of encrypted transfers.

A handler is a program over the storage.  What it takes from outside (the storage's
clock readings and quota, the numbers of the capacity report) is the environment of the
call.  Its decoder of JSON refuses duplicate members and numbers that are not finite.
-/

import XFerry.Encrypted.Downloads
import XFerry.Encrypted.TransferEncoding
import XFerry.Encrypted.UploadDeletion
import XFerry.Http.Request
import XFerry.Http.Response
import XFerry.Json.Members

namespace XFerry.TransferApi

open CrashProgram Program Http Json Python
open Encrypted hiding Bytes

/-- What a response streams: a stored file, or the blocks of a generator. -/
inductive Source where
  | file (fileId : FileId)
  | blocks (streamed : Streamed)

abbrev Response := HTTPResponse Source

inductive Escape where
  | python (exception : PythonException)
  | transfer (error : TransferError)
  | storage (error : StorageError)

abbrev Handler (Time α : Type) := Program (World Time) Escape α

/-- What the server of the API is set up with.  `levels` and `metadataLevels` say how deep
JSON may nest where each of the two decoders is called. -/
structure Api (Time : Type) where
  storage : Option (Service Time)
  aead : Aead
  levels : Nat
  metadataLevels : Nat
  tlsEnabled : Bool
  isLoopback : Text → Option Bool

structure Circumstances (Time : Type) where
  env : Environment Time
  capacitySweep : Time
  capacity : List (String × Option Nat)
  directPeer : Option Text

variable {Time : Type} [LinearOrder Time] [Sub Time]

def outcomeOf {α : Type} (action : Action Time α) : Handler Time (Except StorageError α) :=
  fun world =>
    { passed := (action world).passed
      world := (action world).world
      result := .ok (action world).result }

def calling {α : Type} (action : Action Time α) : Handler Time α := do
  match ← outcomeOf action with
  | .ok value => return value
  | .error error => raise (.storage error)

def building {α : Type} (computation : Except PythonException α) : Handler Time α :=
  lift (computation.mapError .python)

def encryptedError (status : Nat) (code message : String) (field : Option Str)
    (details : List (String × Payload)) : Handler Time Response :=
  building (errorResponse status code (str message.toList) field details true)

def encryptedNotFound : Handler Time Response :=
  encryptedError 404 "resource_not_found" "Encrypted resource not found" (some (str "id".toList)) []

def encryptedInvalidField (field : Str) : Handler Time Response :=
  encryptedError 400 "invalid_field" "Invalid field" (some field) []

def invalidNamed (field : String) : Handler Time Response :=
  encryptedInvalidField (str field.toList)

def encryptedDecryptionFailed : Handler Time Response :=
  encryptedError 422 "decryption_failed" "Encrypted metadata authentication failed" none []

def encryptedMethodNotAllowed (method : Text) (allowed : List String) : Handler Time Response := do
  let response ← encryptedError 405 "method_not_allowed" "Method not allowed" none
    [("method", .ofText method),
      ("allowed_methods", .list (allowed.map fun name => .ofText name.toList))]
  return response.setHeader "Allow" (str (", ".intercalate allowed).toList)

def errorPathDetailMaxChars : Nat := 1024

def notFound (path : Text) : Handler Time Response :=
  building (errorResponse 404 "resource_not_found"
    (str ("File not found: ".toList ++ path)) (some (str "path".toList))
    [("path", .ofText (path.take errorPathDetailMaxChars))] false)

def answering (payload : List (String × Payload)) (status : Nat) : Handler Time Response :=
  building (jsonResponse (.ofMembers payload) status true)

/-- `_encrypted_record_payload`, before a member that one caller adds. -/
def encryptedRecordMembers (service : Service Time) (record : Record Time) :
    List (String × Payload) :=
  [("id", .ofText record.fileId.text),
    ("version", .ofNat record.manifest.version),
    ("plaintext_size", .ofNat record.manifest.plaintextSize),
    ("ciphertext_size", .ofNat record.manifest.ciphertextSize),
    ("chunk_size", .ofNat record.manifest.chunkSize),
    ("chunk_count", .ofNat record.manifest.chunkCount),
    ("salt", .ofText (Base64Url.encode record.manifest.salt)),
    ("nonce_prefix", .ofText (Base64Url.encode record.manifest.noncePrefix)),
    ("encrypted_metadata", .ofText (Base64Url.encode record.manifest.encryptedMetadata)),
    ("status", .ofText record.status.text),
    ("received_chunks", .list (record.receivedChunks.map fun chunk => .ofMembers
      [("index", .ofNat chunk.index),
        ("resume_mac", .ofText (Base64Url.encode chunk.resumeMac))])),
    ("created_at", .number (service.timeText record.createdAt)),
    ("updated_at", .number (service.timeText record.updatedAt))]

def encryptedRecordPayload (service : Service Time) (record : Record Time) : Payload :=
  .ofMembers (encryptedRecordMembers service record)

def capacityPayload (circumstances : Circumstances Time) : Payload :=
  .ofMembers (circumstances.capacity.map fun entry => (entry.1, entry.2.elim .null .ofNat))

def storageCapacity (service : Service Time) (circumstances : Circumstances Time) :
    Action Time Payload := do
  let _ ← expireIncompleteLocked service circumstances.capacitySweep
  return capacityPayload circumstances

abbrev Members := List (Str × Value)

def memberOf (members : Members) (field : String) : Value :=
  ((members.find? fun member => member.1 = str field.toList).map Prod.snd).getD .null

def requireContentType (request : HTTPRequest) (expected : String) :
    Handler Time (Option Response) :=
  match request.headerValues "content-type" with
  | [value] =>
    if value = expected.toList then return none
    else return some (← unsupported)
  | [] => return some (← unsupported)
  | _ => return some (← invalidNamed "Content-Type")
where
  unsupported : Handler Time Response :=
    encryptedError 415 "unsupported_media_type" "Unsupported media type"
      (some (str "Content-Type".toList)) [("supported", .list [.ofText expected.toList])]

def malformedJson : Handler Time Response :=
  encryptedError 400 "malformed_json" "Malformed JSON body" (some (str "body".toList)) []

def checkMembers (expectedFields : List String) (members : Members) :
    Handler Time (Except Response Members) :=
  match members.find? fun member => member.1 ∉ expectedFields.map fun field => str field.toList with
  | some member => return .error (← encryptedInvalidField member.1)
  | none =>
    match expectedFields.find? fun field => str field.toList ∉ members.map Prod.fst with
    | some field =>
      return .error (← encryptedError 400 "missing_field" "Missing required field"
        (some (str field.toList)) [])
    | none => return .ok members

/-- `_load_encrypted_json` from its decoder on. -/
def decodeEncryptedJson (levels : Nat) (body : Bytes) (expectedFields : List String) :
    Handler Time (Except Response Members) :=
  match decode body with
  | none => return .error (← malformedJson)
  | some text =>
    match loadsStrict levels text with
    | .error .tooDeep => raise (.python .recursionError)
    | .error (.duplicateMember name) => return .error (← encryptedInvalidField name)
    | .error .malformed | .error .tooManyDigits => return .error (← malformedJson)
    | .ok (.object members) => checkMembers expectedFields members
    | .ok _ => return .error (← invalidNamed "body")

def loadEncryptedJson (levels : Nat) (request : HTTPRequest) (expectedFields : List String)
    (maxBytes : Nat) : Handler Time (Except Response Members) := do
  match ← requireContentType request "application/json" with
  | some mediaError => return .error mediaError
  | none =>
    if maxBytes < request.body.length then
      return .error (← encryptedError 413 "payload_too_large" "JSON body is too large"
        (some (str "body".toList)) [])
    else decodeEncryptedJson levels request.body expectedFields

def createBodyLimit : Nat := 16 * 1024
def decryptBodyLimit : Nat := 512
def chunkBodyLimit : Nat := eufChunkSize + eufGcmTagSize

def createFields : List String :=
  ["version", "plaintext_size", "chunk_size", "chunk_count", "salt", "nonce_prefix",
    "encrypted_metadata"]

def intMember (members : Members) (field : String) : Option Int :=
  match memberOf members field with
  | .int value => some value
  | _ => none

def bytesMember (members : Members) (field : String) : Option Bytes :=
  match memberOf members field with
  | .string value => (b64urlDecode field value).toOption
  | _ => none

theorem plaintextSize_le_of_accepted {plaintextSize : Int}
    (size : ¬ ¬ (0 ≤ plaintextSize ∧ plaintextSize ≤ eufMaxFileSize)) :
    plaintextSize.toNat ≤ eufMaxFileSize := by
  omega

theorem length_eq_of_accepted {data : Bytes} {length : Nat} (same : ¬ data.length ≠ length) :
    data.length = length := not_not.mp same

/-- `_manifest_from_payload`, with the name of the member it refuses. -/
def manifestFromPayload (fileId : FileId) (members : Members) : Except String Manifest :=
  if intMember members "version" ≠ some (eufVersion : Int) then .error "version"
  else
    match intMember members "plaintext_size" with
    | none => .error "plaintext_size"
    | some plaintextSize =>
      if size : ¬ (0 ≤ plaintextSize ∧ plaintextSize ≤ eufMaxFileSize) then
        .error "plaintext_size"
      else if intMember members "chunk_size" ≠ some (eufChunkSize : Int) then .error "chunk_size"
      else if intMember members "chunk_count" ≠
          some ((plaintextSize + eufChunkSize - 1) / eufChunkSize) then .error "chunk_count"
      else
        match bytesMember members "salt", bytesMember members "nonce_prefix",
          bytesMember members "encrypted_metadata" with
        | none, _, _ => .error "salt"
        | some _, none, _ => .error "nonce_prefix"
        | some _, some _, none => .error "encrypted_metadata"
        | some salt, some noncePrefix, some encryptedMetadata =>
          if saltLength : salt.length ≠ 16 then .error "salt"
          else if prefixLength : noncePrefix.length ≠ 8 then .error "nonce_prefix"
          else if metadataLength : ¬ (eufGcmTagSize ≤ encryptedMetadata.length ∧
              encryptedMetadata.length ≤ eufMaxMetadataSize + eufGcmTagSize) then
            .error "encrypted_metadata"
          else
            .ok
              { fileId := fileId
                plaintextSize := plaintextSize.toNat
                chunkSize := eufChunkSize
                chunkCount := (plaintextSize.toNat + eufChunkSize - 1) / eufChunkSize
                salt := salt
                noncePrefix := noncePrefix
                encryptedMetadata := encryptedMetadata
                version := eufVersion
                version_eq := rfl
                plaintextSize_le := plaintextSize_le_of_accepted size
                chunkSize_eq := rfl
                chunkCount_eq := rfl
                salt_length := length_eq_of_accepted saltLength
                noncePrefix_length := length_eq_of_accepted prefixLength
                metadata_length_ge := (not_not.mp metadataLength).1
                metadata_length_le := (not_not.mp metadataLength).2 }

def createManifest (service : Service Time) (circumstances : Circumstances Time)
    (manifest : Manifest) : Handler Time Response := do
  match ← outcomeOf (create service circumstances.env manifest) with
  | .ok (record, created) =>
    answering [("encrypted_upload", encryptedRecordPayload service record)]
      (if created = true then 201 else 200)
  | .error (.conflict _) =>
    encryptedError 409 "encrypted_file_conflict" "Encrypted file conflicts with persisted state"
      (some (str "id".toList)) []
  | .error (.quotaExceeded reason) => do
      let storage ← calling (storageCapacity service circumstances)
      encryptedError 507 "storage_quota_exceeded" "Upload storage quota exceeded"
        (some (str "plaintext_size".toList))
        [("scope", .ofText "uploads".toList), ("reason", .ofText reason.toList),
          ("storage", storage)]
  | .error (.validation _) => invalidNamed "plaintext_size"
  | .error failure => raise (.storage failure)

def createEncryptedUpload (api : Api Time) (service : Service Time)
    (circumstances : Circumstances Time) (request : HTTPRequest) (fileId : FileId) :
    Handler Time Response := do
  match ← loadEncryptedJson api.levels request createFields createBodyLimit with
  | .error payloadError => return payloadError
  | .ok members =>
    match manifestFromPayload fileId members with
    | .error field => invalidNamed field
    | .ok manifest => createManifest service circumstances manifest

def resumeMacHeader : String := "X-XFerry-Chunk-MAC"

def storeEncryptedChunk (service : Service Time) (circumstances : Circumstances Time)
    (fileId : FileId) (index : Nat) (body resumeMac : Bytes) : Handler Time Response := do
  match ← outcomeOf (writeChunk service circumstances.env fileId index body resumeMac) with
  | .ok (_, stored) =>
    answering
      [("encrypted_chunk", .ofMembers
        [("id", .ofText fileId.text), ("index", .ofNat index), ("stored", .boolean stored),
          ("resume_mac", .ofText (Base64Url.encode resumeMac))])]
      (if stored = true then 201 else 200)
  | .error (.notFound _) => encryptedNotFound
  | .error (.conflict _) =>
    encryptedError 409 "encrypted_chunk_conflict"
      "Encrypted chunk conflicts with persisted data" (some (str "body".toList)) []
  | .error (.validation _) => invalidNamed "body"
  | .error failure => raise (.storage failure)

def putEncryptedChunk (service : Service Time) (circumstances : Circumstances Time)
    (request : HTTPRequest) (fileId : FileId) (index : Nat) : Handler Time Response := do
  match ← requireContentType request "application/octet-stream" with
  | some mediaError => return mediaError
  | none =>
    if chunkBodyLimit < request.body.length then
      encryptedError 413 "payload_too_large" "Encrypted chunk is too large"
        (some (str "body".toList)) []
    else
      match request.headerValues "x-xferry-chunk-mac" with
      | [] =>
        encryptedError 400 "missing_field" "Missing required field"
          (some (str resumeMacHeader.toList)) []
      | [value] =>
        match b64urlDecode resumeMacHeader (str value) with
        | .error _ => invalidNamed resumeMacHeader
        | .ok resumeMac =>
          if resumeMac.length ≠ 32 then invalidNamed resumeMacHeader
          else storeEncryptedChunk service circumstances fileId index request.body resumeMac
      | _ => invalidNamed resumeMacHeader

def completeEncryptedUpload (service : Service Time) (circumstances : Circumstances Time)
    (fileId : FileId) : Handler Time Response := do
  match ← outcomeOf (complete service circumstances.env fileId) with
  | .ok (record, completed) =>
    answering
      [("encrypted_file", .ofMembers
        (encryptedRecordMembers service record ++ [("completed", .boolean completed)]))] 200
  | .error (.notFound _) => encryptedNotFound
  | .error (.incomplete _) =>
    encryptedError 409 "encrypted_file_incomplete" "Encrypted file is missing chunks"
      (some (str "id".toList)) []
  | .error failure => raise (.storage failure)

def listEncryptedUploads (service : Service Time) (circumstances : Circumstances Time) :
    Handler Time Response := do
  let records ← calling (listFiles service circumstances.env (some .partial_))
  let storage ← calling (storageCapacity service circumstances)
  answering
    [("encrypted_uploads", .list (records.map (encryptedRecordPayload service))),
      ("incomplete_ttl_seconds", .number (service.timeText service.incompleteTtl)),
      ("storage", storage)] 200

def handleEncryptedUploadItem (api : Api Time) (service : Service Time)
    (circumstances : Circumstances Time) (request : HTTPRequest) (fileId : FileId) :
    Handler Time Response :=
  let method := request.requestLine.method
  if method = "PUT".toList then createEncryptedUpload api service circumstances request fileId
  else if method = "GET".toList then
    if request.body ≠ [] then invalidNamed "body"
    else do
      match ← calling (get service circumstances.env fileId) with
      | none => encryptedNotFound
      | some record =>
        if record.status ≠ .partial_ then encryptedNotFound
        else answering [("encrypted_upload", encryptedRecordPayload service record)] 200
  else if method = "DELETE".toList then do
    match ← calling (lookUpUploadItem service circumstances.env fileId request.body) with
    | some (.invalidField field) => invalidNamed field
    | some .notFound => encryptedNotFound
    | some (.deleted _) | none =>
      let _ ← calling (deleteUploadItem fileId : Action Time UploadItemAnswer)
      answering [("deleted_encrypted_upload", .ofMembers [("id", .ofText fileId.text)])] 200
  else encryptedMethodNotAllowed method ["GET", "PUT", "DELETE"]

def listEncryptedFiles (service : Service Time) (circumstances : Circumstances Time) :
    Handler Time Response := do
  let records ← calling (listFiles service circumstances.env (some .complete))
  answering [("encrypted_files", .list (records.map (encryptedRecordPayload service)))] 200

def completeRecord (service : Service Time) (circumstances : Circumstances Time)
    (fileId : FileId) : Handler Time (Option (Record Time)) := do
  let record ← calling (get service circumstances.env fileId)
  return record.filter fun record => record.status = .complete

def handleEncryptedFileItem (service : Service Time) (circumstances : Circumstances Time)
    (request : HTTPRequest) (fileId : FileId) : Handler Time Response :=
  let method := request.requestLine.method
  if method ≠ "GET".toList ∧ method ≠ "DELETE".toList then
    encryptedMethodNotAllowed method ["GET", "DELETE"]
  else if request.body ≠ [] then invalidNamed "body"
  else do
    match ← completeRecord service circumstances fileId with
    | none => encryptedNotFound
    | some record =>
      if method = "GET".toList then
        answering [("encrypted_file", encryptedRecordPayload service record)] 200
      else do
        let _ ← calling (deleteLocked fileId .requested)
        answering [("deleted_encrypted_file", .ofMembers [("id", .ofText fileId.text)])] 200

def octetStream : Str := str "application/octet-stream".toList

def noStore (response : Response) : Response :=
  response.setHeader "Cache-Control" (str "no-store".toList)

def downloadEncryptedFile (service : Service Time) (circumstances : Circumstances Time)
    (fileId : FileId) : Handler Time Response := do
  match ← completeRecord service circumstances fileId with
  | none => encryptedNotFound
  | some _ =>
    let slot ← inspect fun world => world.slot fileId
    match slot.complete with
    | none => encryptedNotFound
    | some data =>
      let response := (HTTPResponse.ofStatus 200 : Response).setStream (.file fileId)
        octetStream data.length
      return noStore (response.setHeader "Content-Disposition"
        (str ("attachment; filename=\"".toList ++ fileId.text ++ ".xfr\"".toList)))

/-- `int()` of canonical decimal digits. -/
def decimalInt (digits : Text) : Except PythonException Nat :=
  if maxStrDigits < digits.length then .error .valueError else .ok (digitsValue digits)

def streamChunk (record : Record Time) (slot : Slot Time) (rawIndex : Text) :
    Handler Time Response :=
  let manifest := record.manifest
  if (Nat.toDigits 10 manifest.chunkCount).length < rawIndex.length then encryptedNotFound
  else do
    let index ← building (decimalInt rawIndex)
    if manifest.chunkCount ≤ index then encryptedNotFound
    else do
      let ciphertextLength := manifest.plaintextLength index + eufGcmTagSize
      match openCompleteCiphertext record slot with
      | none => encryptedNotFound
      | some data =>
        let blocks := iterCiphertextRange data
          (index * (manifest.chunkSize + eufGcmTagSize)) ciphertextLength.toNat
        let response ← building
          (HTTPResponse.setIterator (.ofStatus 200) (Source.blocks blocks) octetStream
            ciphertextLength)
        return noStore response

def downloadEncryptedChunk (service : Service Time) (circumstances : Circumstances Time)
    (fileId : FileId) (rawIndex : Text) : Handler Time Response := do
  match ← completeRecord service circumstances fileId with
  | none => encryptedNotFound
  | some record =>
    let slot ← inspect fun world => world.slot fileId
    streamChunk record slot rawIndex

structure EncryptedFileMetadata where
  name : Str
  contentType : Str
  lastModifiedMs : Int

/-- The checks of the constructor, with `none` for the exceptions that `decrypt_metadata`
answers with `None`. -/
def metadataOfValues : Value → Value → Value → Option EncryptedFileMetadata
  | .string name, .string contentType, .int lastModifiedMs =>
    if name = [] ∨ 0 ∈ name then none
    else if 13 ∈ contentType ∨ 10 ∈ contentType then none
    else if 0 ≤ lastModifiedMs ∧ lastModifiedMs ≤ 9007199254740991 then
      some { name := name, contentType := contentType, lastModifiedMs := lastModifiedMs }
    else none
  | _, _, _ => none

def metadataFields : List String := ["name", "content_type", "last_modified_ms"]

/-- `decrypt_metadata` from the JSON text on. -/
def parseMetadata (levels : Nat) (plaintext : Bytes) :
    Except PythonException (Option EncryptedFileMetadata) :=
  match decode plaintext with
  | none => .ok none
  | some text =>
    match loads levels text with
    | .error .tooDeep => .error .recursionError
    | .ok (.object members) =>
      let names := members.map Prod.fst
      let expected := metadataFields.map fun field => str field.toList
      if names ⊆ expected ∧ expected ⊆ names then
        .ok (metadataOfValues (memberOf members "name") (memberOf members "content_type")
          (memberOf members "last_modified_ms"))
      else .ok none
    | _ => .ok none

def openMetadata (api : Api Time) (contentKey : Bytes) (manifest : Manifest) :
    Handler Time (Option EncryptedFileMetadata) :=
  match decryptMetadata api.aead contentKey manifest with
  | .error error => raise (.transfer error)
  | .ok none => return none
  | .ok (some plaintext) => building (parseMetadata api.metadataLevels plaintext)

/-- `quote` with no safe characters but those that are always. -/
def quoteByte (byte : UInt8) : Str :=
  let char := Char.ofNat byte.toNat
  if char.isAlphanum || "_.-~".toList.contains char then [byte.toNat]
  else 37 :: str ((Nat.toDigits 16 (byte.toNat / 16)) ++ (Nat.toDigits 16 (byte.toNat % 16))
    |>.map Char.toUpper)

/-- With `none` for `UnicodeEncodeError`. -/
def quote (name : Str) : Option Str := (encode name).map fun bytes => bytes.flatMap quoteByte

def serverDecryptionAllowed (api : Api Time) (circumstances : Circumstances Time) : Bool :=
  api.tlsEnabled ||
    match circumstances.directPeer with
    | none => false
    | some peer => (api.isLoopback peer).getD false

def contentKeyMember (members : Members) : Option Bytes :=
  (bytesMember members "content_key").filter fun contentKey => contentKey.length = 32

def streamDecrypted (api : Api Time) (record : Record Time) (slot : Slot Time) (contentKey : Bytes)
    (metadata : EncryptedFileMetadata) : Handler Time Response :=
  match quote metadata.name with
  | none => encryptedDecryptionFailed
  | some encodedName =>
    match openCompleteCiphertext record slot with
    | none => encryptedNotFound
    | some data => do
        let blocks := iterDecryptedChunks api.aead data record.manifest contentKey
        let contentType := if metadata.contentType = [] then octetStream else metadata.contentType
        let response ← building
          (HTTPResponse.setIterator (.ofStatus 200) (Source.blocks blocks) contentType
            record.manifest.plaintextSize)
        return noStore (response.setHeader "Content-Disposition"
          (str "attachment; filename*=UTF-8''".toList ++ encodedName))

def decryptEncryptedFile (api : Api Time) (service : Service Time)
    (circumstances : Circumstances Time) (request : HTTPRequest) (fileId : FileId) :
    Handler Time Response := do
  if serverDecryptionAllowed api circumstances = false then
    encryptedError 403 "server_decryption_forbidden"
      "Server-side decryption requires TLS or a direct loopback peer" none []
  else do
    match ← loadEncryptedJson api.levels request ["content_key"] decryptBodyLimit with
    | .error payloadError => return payloadError
    | .ok members =>
      match contentKeyMember members with
      | none => invalidNamed "content_key"
      | some contentKey => do
          match ← completeRecord service circumstances fileId with
          | none => encryptedNotFound
          | some record => do
              match ← openMetadata api contentKey record.manifest with
              | none => encryptedDecryptionFailed
              | some metadata => do
                  let slot ← inspect fun world => world.slot fileId
                  streamDecrypted api record slot contentKey metadata

def encryptedUploadsPath : Text := "/_xferry/encrypted-uploads".toList

def encryptedFilesPath : Text := "/_xferry/encrypted-files".toList

def itemPath (base path : Text) : Option (FileId × Text) :=
  if (base ++ ['/']).isPrefixOf path = true then
    let rest := path.drop (base.length + 1)
    if canonical : isFileIdText (rest.take 32) = true then
      some ({ text := rest.take 32, canonical := canonical }, rest.drop 32)
    else none
  else none

def itemNamed (base tail path : Text) : Option FileId :=
  match itemPath base path with
  | some (fileId, rest) => if rest = tail then some fileId else none
  | none => none

/-- `0|[1-9][0-9]*`. -/
def isCanonicalIndex : Text → Bool
  | [] => false
  | first :: rest =>
    isDigit first && rest.all isDigit && (first ≠ '0' || rest.isEmpty)

def chunkPath (base path : Text) : Option (FileId × Text) :=
  match itemPath base path with
  | some (fileId, rest) =>
    if "/chunks/".toList.isPrefixOf rest = true ∧ isCanonicalIndex (rest.drop 8) = true then
      some (fileId, rest.drop 8)
    else none
  | none => none

inductive Route where
  | uploads
  | uploadChunk (fileId : FileId) (digits : Text)
  | uploadComplete (fileId : FileId)
  | uploadItem (fileId : FileId)
  | files
  | fileData (fileId : FileId)
  | fileChunk (fileId : FileId) (digits : Text)
  | fileDecrypt (fileId : FileId)
  | fileItem (fileId : FileId)

def routeOf (path : Text) : Option Route :=
  if path = encryptedUploadsPath then some .uploads
  else
    ((chunkPath encryptedUploadsPath path).map fun found => .uploadChunk found.1 found.2) <|>
    ((itemNamed encryptedUploadsPath "/complete".toList path).map .uploadComplete) <|>
    ((itemNamed encryptedUploadsPath [] path).map .uploadItem) <|>
    (if path = encryptedFilesPath then some .files else none) <|>
    ((itemNamed encryptedFilesPath "/data".toList path).map .fileData) <|>
    ((chunkPath encryptedFilesPath path).map fun found => .fileChunk found.1 found.2) <|>
    ((itemNamed encryptedFilesPath "/decrypt".toList path).map .fileDecrypt) <|>
    ((itemNamed encryptedFilesPath [] path).map .fileItem)

def bodiless (request : HTTPRequest) (method : String) (answer : Handler Time Response) :
    Handler Time Response :=
  if request.requestLine.method ≠ method.toList then
    encryptedMethodNotAllowed request.requestLine.method [method]
  else if request.body ≠ [] then invalidNamed "body"
  else answer

def dispatch (api : Api Time) (service : Service Time) (circumstances : Circumstances Time)
    (request : HTTPRequest) : Route → Handler Time Response
  | .uploads => bodiless request "GET" (listEncryptedUploads service circumstances)
  | .uploadChunk fileId digits =>
    if request.requestLine.method ≠ "PUT".toList then
      encryptedMethodNotAllowed request.requestLine.method ["PUT"]
    else do
      let index ← building (decimalInt digits)
      putEncryptedChunk service circumstances request fileId index
  | .uploadComplete fileId =>
    bodiless request "POST" (completeEncryptedUpload service circumstances fileId)
  | .uploadItem fileId => handleEncryptedUploadItem api service circumstances request fileId
  | .files => bodiless request "GET" (listEncryptedFiles service circumstances)
  | .fileData fileId =>
    bodiless request "GET" (downloadEncryptedFile service circumstances fileId)
  | .fileChunk fileId digits =>
    bodiless request "GET" (downloadEncryptedChunk service circumstances fileId digits)
  | .fileDecrypt fileId =>
    if request.requestLine.method ≠ "POST".toList then
      encryptedMethodNotAllowed request.requestLine.method ["POST"]
    else decryptEncryptedFile api service circumstances request fileId
  | .fileItem fileId => handleEncryptedFileItem service circumstances request fileId

def handleEncryptedTransfer (api : Api Time) (circumstances : Circumstances Time)
    (request : HTTPRequest) : Handler Time Response :=
  let line := request.requestLine
  match api.storage with
  | none => notFound line.path
  | some service =>
    if line.rawTarget ≠ line.rawPath ∨ line.rawPath ≠ line.path then encryptedNotFound
    else
      match routeOf line.rawPath with
      | none => encryptedNotFound
      | some route => dispatch api service circumstances request route

end XFerry.TransferApi
