/-
The parser of Advanced upload payloads: the choice of the one carrier, and the payload
that its fields make.

The readers of XML and of MIME headers are parameters, and so are the Unicode tables and
the depth of the interpreter's stack.
-/

import XFerry.Advanced.PayloadFields
import XFerry.Encoding.Base64Url
import XFerry.Http.Multipart

namespace XFerry.AdvancedPayload

open Python Http Json

structure CollectedFields where
  values : FieldName → Option FieldOccurrence
  chunks : List (Nat × FieldOccurrence)

def CollectedFields.empty : CollectedFields := { values := fun _ => none, chunks := [] }

def codeValue (digits : Str) : Nat := ofDigits (digits.map fun code => code - 48)

def validateChunkName (name : Str) : Parsed (Option Nat) :=
  match chunkDigits name with
  | none => .ok none
  | some digits =>
    if 1 < digits.length ∧ digits.head? = some 48 then invalidField FieldName.data.code
    else if maxStrDigits < digits.length then .error (.uncaught .tooManyDigits)
    else if 255 < codeValue digits then invalidField FieldName.data.code
    else .ok (some (codeValue digits))

def collectField (allowChunks : Bool) (collected : CollectedFields)
    (occurrence : FieldOccurrence) : Parsed CollectedFields :=
  match fieldNamed occurrence.name with
  | some field =>
    if (collected.values field).isSome = true then invalidField field.code
    else
      .ok { collected with
        values := fun other => if other = field then some occurrence else collected.values other }
  | none => do
      match ← validateChunkName occurrence.name with
      | none => invalidField (jsonFieldForInvalid occurrence.displayName)
      | some index =>
        if allowChunks = false then invalidField FieldName.data.code
        else .ok { collected with chunks := collected.chunks ++ [(index, occurrence)] }

def fieldAsString (occurrence : FieldOccurrence) : Parsed Str :=
  match occurrence.value with
  | .string text => .ok text
  | _ => invalidField occurrence.name

def fieldAsBool (occurrence : FieldOccurrence) (jsonTypes : Bool) : Parsed Bool :=
  match occurrence.value with
  | .boolean value => if jsonTypes = true then .ok value else invalidField occurrence.name
  | .string text =>
    if jsonTypes = true then invalidField occurrence.name
    else if text = literal "true" then .ok true
    else if text = literal "false" then .ok false
    else invalidField occurrence.name
  | _ => invalidField occurrence.name

def checkChunks (expected : Nat) : List (Nat × FieldOccurrence) → Parsed Unit
  | [] => .ok ()
  | (index, occurrence) :: rest =>
    if index ≠ expected then invalidField FieldName.data.code
    else do
      let _ ← fieldAsString occurrence
      checkChunks (expected + 1) rest

def sortedChunks (chunks : List (Nat × FieldOccurrence)) : List (Nat × FieldOccurrence) :=
  chunks.mergeSort fun left right => decide (left.2.wireOrder ≤ right.2.wireOrder)

structure PayloadSource where
  carrier : AdvancedCarrier
  profile : AdvancedBodyProfile
  contentType : Text
  filenameSource : FilenameSource
  allowChunks : Bool
  jsonTypes : Bool := false
  rawData : Option Bytes := none
  partFilename : Option Str := none
  encodedOverride : Option Str := none
  encodingOverride : Option AdvancedEncoding := none
  nameOverride : Option Str := none

def encodedDataOf (source : PayloadSource) (collected : CollectedFields)
    (chunks : List (Nat × FieldOccurrence)) : Parsed (Option Str) :=
  match source.encodedOverride with
  | some encoded => .ok (some encoded)
  | none =>
    match collected.values .data with
    | some occurrence => (fieldAsString occurrence).map some
    | none =>
      if chunks = [] then .ok none
      else (chunks.mapM fun chunk => fieldAsString chunk.2).map fun parts => some parts.flatten

def checkData (source : PayloadSource) (encodedData : Option Str) : Parsed Unit :=
  match source.rawData, encodedData with
  | none, none => missingField .data
  | some _, some _ => invalidField FieldName.data.code
  | none, some encoded => if encoded = [] then invalidField FieldName.data.code else .ok ()
  | some raw, none => if raw = [] then emptyPayload source.profile else .ok ()

def encodings : List (String × AdvancedEncoding) :=
  [("raw", .raw), ("base64", .base64), ("base64url", .base64url), ("hex", .hex),
    ("percent", .percent), ("gzip-base64", .gzipBase64), ("gzip-base64url", .gzipBase64url)]

def encryptions : List (String × AdvancedEncryption) :=
  [("none", .none), ("xor", .xor), ("aes", .aes)]

def chosen {α : Type} (choices : List (String × α)) (text : Str) : Option α :=
  (choices.find? fun choice => literal choice.1 = text).map Prod.snd

def encodingOf (source : PayloadSource) (collected : CollectedFields) :
    Parsed (Option AdvancedEncoding) :=
  match source.rawData, collected.values .encoding with
  | some _, some _ => invalidField FieldName.encoding.code
  | some _, none => .ok source.encodingOverride
  | none, declared =>
    match source.encodingOverride with
    | some encoding => .ok (some encoding)
    | none =>
      match declared with
      | none => missingField .encoding
      | some occurrence => do
          let text ← fieldAsString occurrence
          match chosen encodings text with
          | none => invalidField FieldName.encoding.code
          | some encoding => .ok (some encoding)

def encryptionOf (collected : CollectedFields) : Parsed AdvancedEncryption :=
  match collected.values .encryption with
  | none => missingField .encryption
  | some occurrence => do
      let text ← fieldAsString occurrence
      match chosen encryptions text with
      | none => invalidField FieldName.encryption.code
      | some encryption => .ok encryption

def optionalField (collected : CollectedFields) (field : FieldName) : Parsed (Option Str) :=
  match collected.values field with
  | none => .ok none
  | some occurrence => (fieldAsString occurrence).map some

def keyOf (collected : CollectedFields) : Parsed (Option Str) := do
  let key ← optionalField collected .key
  if key = some [] then invalidField FieldName.key.code else .ok key

def keyIsBase64Of (collected : CollectedFields) (jsonTypes : Bool) (key : Option Str) :
    Parsed Bool :=
  match collected.values .keyIsBase64 with
  | none => .ok false
  | some occurrence => do
      let isBase64 ← fieldAsBool occurrence jsonTypes
      if key = none then invalidField FieldName.keyIsBase64.code else .ok isBase64

def decodeKey (key : Option Str) (isBase64 : Bool) : Parsed (Option Str) :=
  match key, isBase64 with
  | some encoded, true =>
    match Base64.decode encoded with
    | none | some [] => invalidField FieldName.key.code
    | some decoded =>
      match decode decoded with
      | none | some [] => invalidField FieldName.key.code
      | some text => .ok (some (str text))
  | other, _ => .ok other

def isLowerHexCode (code : Nat) : Bool := isDigitCode code || (97 ≤ code && code ≤ 102)

def hmacOf (collected : CollectedFields) : Parsed (Option Str) := do
  match ← optionalField collected .hmac with
  | none => .ok none
  | some hmac =>
    if hmac.length = 64 ∧ hmac.all isLowerHexCode = true then .ok (some hmac)
    else invalidField FieldName.hmac.code

def checkEncryption (encryption : AdvancedEncryption) (key : Option Str) (isBase64 : Bool)
    (hmac : Option Str) : Parsed Unit :=
  if encryption = .none then
    if key ≠ none then invalidField FieldName.key.code
    else if isBase64 = true then invalidField FieldName.keyIsBase64.code
    else if hmac ≠ none then invalidField FieldName.hmac.code
    else .ok ()
  else if key = none then missingField .key
  else .ok ()

def isVisibleCode (code : Nat) : Bool := 0x21 ≤ code && code ≤ 0x7E

def methodOverrideOf (collected : CollectedFields) : Parsed (Option Str) := do
  match ← optionalField collected .methodOverride with
  | none => .ok none
  | some method =>
    if method = [] ∨ 64 < method.length ∨ method.all isVisibleCode = false then
      invalidField FieldName.methodOverride.code
    else .ok (some method)

def declaredName (source : PayloadSource) (collected : CollectedFields) : Parsed (Option Str) :=
  match source.partFilename with
  | some filename =>
    if filename = [] then invalidField FieldName.name.code
    else do
      let scalar ← optionalField collected .name
      if scalar ≠ none ∧ scalar ≠ some filename then invalidField FieldName.name.code
      else .ok (some filename)
  | none => do
      match ← optionalField collected .name with
      | none => .ok source.nameOverride
      | some name => .ok (some name)

def checkName (name : Option Str) : Parsed Unit :=
  match name with
  | none => .ok ()
  | some [] => invalidField FieldName.name.code
  | some name =>
    match encode name with
    | none => .error (.uncaught .unicodeEncodeError)
    | some bytes => if 255 < bytes.length then invalidField FieldName.name.code else .ok ()

/-- All that `_build_payload` settles before it looks at the name. -/
structure NamelessPayload where
  encodedData : Option Str
  encryption : AdvancedEncryption
  key : Option Str
  keyIsBase64 : Bool
  hmac : Option Str
  encoding : Option AdvancedEncoding
  methodOverride : Option Str

/-- What `_build_payload` settles once the encoded data are known. -/
def settleMetadata (source : PayloadSource) (collected : CollectedFields)
    (encodedData : Option Str) : Parsed NamelessPayload := do
  checkData source encodedData
  let encoding ← encodingOf source collected
  let encryption ← encryptionOf collected
  let encodedKey ← keyOf collected
  let isBase64 ← keyIsBase64Of collected source.jsonTypes encodedKey
  let key ← decodeKey encodedKey isBase64
  let hmac ← hmacOf collected
  checkEncryption encryption key isBase64 hmac
  let methodOverride ← methodOverrideOf collected
  .ok
    { encodedData := encodedData
      encryption := encryption
      key := key
      keyIsBase64 := isBase64
      hmac := hmac
      encoding := encoding
      methodOverride := methodOverride }

def settleFields (source : PayloadSource) (collected : CollectedFields) : Parsed NamelessPayload :=
  if (collected.values .data).isSome = true ∧ collected.chunks ≠ [] then
    invalidField FieldName.data.code
  else do
    let chunks := sortedChunks collected.chunks
    checkChunks 0 chunks
    let encodedData ← encodedDataOf source collected chunks
    settleMetadata source collected encodedData

def namePayload (source : PayloadSource) (settled : NamelessPayload) (name : Option Str) :
    Parsed CanonicalAdvancedPayload := do
  checkName name
  .ok
    { carrier := source.carrier
      bodyProfile := source.profile
      encodedData := settled.encodedData
      rawData := source.rawData
      encryption := settled.encryption
      key := settled.key
      keyIsBase64 := settled.keyIsBase64
      name := name
      hmac := settled.hmac
      encoding := settled.encoding
      methodOverride := settled.methodOverride
      contentType := source.contentType
      filenameSource := if name = none then .generated else source.filenameSource }

def buildPayload (source : PayloadSource) (occurrences : List FieldOccurrence) :
    Parsed CanonicalAdvancedPayload := do
  let collected ← occurrences.foldlM (collectField source.allowChunks) .empty
  let settled ← settleFields source collected
  let name ← declaredName source collected
  namePayload source settled name

end XFerry.AdvancedPayload
