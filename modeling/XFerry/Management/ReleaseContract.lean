/-
The manifest of a release, read from bytes that nobody has vouched for yet, and its
canonical text.

`UnicodeError`, `JSONDecodeError` and `binascii.Error` are kinds of `ValueError`.  No
step compares or hashes a container, so that none raises `TypeError`.
-/

import XFerry.Ensures
import XFerry.Json.Dumps
import XFerry.Json.Members
import XFerry.Management.Versions

namespace XFerry.ReleaseMetadata

open Json Python
open Management (isCanonicalReleaseVersion isAlphanumeric)

/-- What the checks of a document raise. -/
inductive DataError where
  | valueError
  | keyError
deriving DecidableEq

abbrev Checked (α : Type) := Except DataError α

/-- `ReleaseTrustError` is a kind of `ValueError`. -/
inductive Fault where
  | trust (code : String)
  | data (error : DataError)
  | recursionError
deriving DecidableEq

abbrev Answer (α : Type) := Except Fault α

def Fault.isTrustError : Fault → Bool
  | .trust _ => true
  | _ => false

def Fault.isValueError : Fault → Bool
  | .trust _ | .data .valueError => true
  | _ => false

/-- What the parsers of the two formats catch. -/
def Fault.isParsingError (fault : Fault) : Bool := fault.isValueError || fault == .data .keyError

/-- `except caught: raise raised from None` after a guarded body. -/
def guarded {α : Type} (caught : Fault → Bool) (raised : Fault) (body : Answer α) : Answer α :=
  body.mapError fun fault => if caught fault = true then raised else fault

def require (condition : Prop) [Decidable condition] : Checked Unit :=
  if condition then .ok () else .error .valueError

abbrev Members := List (Str × Value)

def key (name : String) : Str := str name.toList

/-- `document[name]`. -/
def subscript (document : Members) (name : String) : Checked Value :=
  match document.lookup (key name) with
  | none => .error .keyError
  | some value => .ok value

/-- The names of the members are these, as sets. -/
def HasFields (document : Members) (names : List String) : Prop :=
  (∀ name ∈ document.map Prod.fst, name ∈ names.map key) ∧
    ∀ name ∈ names.map key, name ∈ document.map Prod.fst

instance (document : Members) (names : List String) : Decidable (HasFields document names) := by
  unfold HasFields
  infer_instance

def requireFields (value : Value) (names : List String) : Checked Members :=
  match value with
  | .object members => if HasFields members names then .ok members else .error .valueError
  | _ => .error .valueError

/-- A string that matches a pattern.  No pattern matches the character that a lone
surrogate becomes. -/
def requireText (isValid : Text → Bool) (value : Value) : Checked Text :=
  match value with
  | .string codes =>
    if isValid (codes.map Char.ofNat) = true then .ok (codes.map Char.ofNat)
    else .error .valueError
  | _ => .error .valueError

def isText (value : Value) (text : Text) : Bool :=
  match value with
  | .string codes => codes == str text
  | _ => false

/-- `json.loads` of the bytes, where `levels` is how deep the interpreter descends. -/
def loadDocument (levels : Nat) (payload : Bytes) : Answer Value :=
  match decode payload with
  | none => .error (.data .valueError)
  | some text =>
    match loadsStrict levels text with
    | .ok document => .ok document
    | .error .tooDeep => .error .recursionError
    | .error _ => .error (.data .valueError)

/-- What both parsers do before they turn to their own format. -/
def readDocument {α : Type} (levels limit : Nat) (payload : Bytes) (next : Value → Checked α) :
    Answer α := do
  (require (0 < payload.length ∧ payload.length ≤ limit)).mapError Fault.data
  let document ← loadDocument levels payload
  (next document).mapError Fault.data

def isLowerHex (char : Char) : Bool := decide (Between '0' '9' char ∨ Between 'a' 'f' char)

/-- `_SHA256_RE`. -/
def isSha256 (text : Text) : Bool := text.length == 64 && text.all isLowerHex

/-- `_SOURCE_COMMIT_RE`. -/
def isSourceCommit (text : Text) : Bool :=
  (text.length == 40 || text.length == 64) && text.all isLowerHex

/-- `_WORKFLOW_RUN_RE`. -/
def isWorkflowRun (text : Text) : Bool :=
  text == "local".toList ||
    match text with
    | [] => false
    | first :: rest => first != '0' && isDigit first && rest.all isDigit

/-- `_ASSET_NAME_RE`.  What else `is_safe_artifact_name` asks for holds of each match: it
starts with a letter or a digit and has no separator. -/
def isSafeArtifactName (text : Text) : Bool :=
  match text with
  | [] => false
  | first :: rest =>
    isAlphanumeric first && rest.length ≤ 254 &&
      rest.all fun char => isAlphanumeric char || "._+-".toList.contains char

def isKeyIdEnd (char : Char) : Bool := decide (Between '0' '9' char ∨ Between 'a' 'z' char)

/-- `_SIGNING_KEY_ID_RE`. -/
def isSigningKeyId (text : Text) : Bool :=
  text.head?.any isKeyIdEnd && text.getLast?.any isKeyIdEnd && text.length ≤ 64 &&
    text.all fun char => isKeyIdEnd char || "._-".toList.contains char

def requireSourceCommit : Value → Checked Text := requireText isSourceCommit

def requireWorkflowRun : Value → Checked Text := requireText isWorkflowRun

def requireSigningKeyId : Value → Checked Text := requireText isSigningKeyId

inductive PlatformId where
  | linuxX86_64
  | linuxAarch64

def PlatformId.text : PlatformId → Text
  | .linuxX86_64 => "linux-x86_64".toList
  | .linuxAarch64 => "linux-aarch64".toList

def requirePlatformId (value : Value) : Checked PlatformId :=
  if isText value PlatformId.linuxX86_64.text = true then .ok .linuxX86_64
  else if isText value PlatformId.linuxAarch64.text = true then .ok .linuxAarch64
  else .error .valueError

/-- `artifact_name` of a canonical version. -/
def artifactName (version : Text) (platform : PlatformId) : Text :=
  "xferry-".toList ++ version ++ '-' :: platform.text

def maxManifestBytes : Nat := 64 * 1024

def maxArtifactDigests : Nat := 128

def maxSigningKeyIds : Nat := 1

structure CommonManifestFields where
  version : Text
  tag : Text
  platform : PlatformId
  executableName : Text
  executableSize : Int
  executableSha256 : Text

inductive SigningScheme where
  | unsigned
  | ed25519
deriving DecidableEq

/-- `ReleaseManifest`, whose schema version is 2 wherever one is built. -/
structure ReleaseManifest extends CommonManifestFields where
  sourceCommit : Text
  workflowRun : Text
  artifactDigests : List (Text × Text)
  signingScheme : SigningScheme
  signingKeyIds : List Text

def requireSize (value : Value) : Checked Int :=
  match value with
  | .int size => if size < 1 then .error .valueError else .ok size
  | _ => .error .valueError

def parseCommon (document : Members) : Checked CommonManifestFields := do
  let version ← subscript document "version"
  let tag ← subscript document "tag"
  let version ← requireText isCanonicalReleaseVersion version
  require (isText tag ('v' :: version) = true)
  let platform ← requirePlatformId (← subscript document "platform")
  let executable ← requireFields (← subscript document "executable") ["name", "size", "sha256"]
  let name ← subscript executable "name"
  let size ← subscript executable "size"
  let sha256 ← subscript executable "sha256"
  let name ← requireText isSafeArtifactName name
  require (name = artifactName version platform)
  let size ← requireSize size
  let sha256 ← requireText isSha256 sha256
  return { version := version, tag := 'v' :: version, platform := platform
           executableName := name, executableSize := size, executableSha256 := sha256 }

def requireDigest (member : Str × Value) : Checked (Text × Text) := do
  let name ← requireText isSafeArtifactName (.string member.1)
  let digest ← requireText isSha256 member.2
  return (name, digest)

def parseDigests (value : Value) : Checked (List (Text × Text)) :=
  match value with
  | .object members => do
      require (members ≠ [] ∧ members.length ≤ maxArtifactDigests)
      members.mapM requireDigest
  | _ => .error .valueError

/-- `sorted`, by the code points. -/
def sorted (texts : List Text) : List Text := texts.mergeSort fun left right =>
  !decide (right < left)

def parseKeyIds (value : Value) : Checked (List Text) :=
  match value with
  | .array items => do
      let keyIds ← items.mapM requireSigningKeyId
      require (keyIds.Nodup ∧ sorted keyIds = keyIds)
      return keyIds
  | _ => .error .valueError

def parseScheme (scheme : Value) (keyIds : List Text) : Checked SigningScheme :=
  if isText scheme "unsigned".toList = true then
    if keyIds = [] then .ok .unsigned else .error .valueError
  else if isText scheme "ed25519".toList = true then
    if 0 < keyIds.length ∧ keyIds.length ≤ maxSigningKeyIds then .ok .ed25519
    else .error .valueError
  else .error .valueError

def manifestFields : List String :=
  ["schema_version", "version", "tag", "platform", "executable", "source", "artifact_digests",
    "signing"]

/-- `_parse_v2`.  The digests are sorted by their names, which are distinct. -/
def parseV2 (document : Members) : Checked ReleaseManifest := do
  require (HasFields document manifestFields)
  let common ← parseCommon document
  let source ← subscript document "source"
  let digestDocument ← subscript document "artifact_digests"
  let signing ← subscript document "signing"
  let source ← requireFields source ["commit", "workflow_run"]
  let sourceCommit ← requireSourceCommit (← subscript source "commit")
  let workflowRun ← requireWorkflowRun (← subscript source "workflow_run")
  let digests ← parseDigests digestDocument
  require (digests.lookup common.executableName = some common.executableSha256)
  let signing ← requireFields signing ["scheme", "key_ids"]
  let scheme ← subscript signing "scheme"
  let keyIds ← parseKeyIds (← subscript signing "key_ids")
  let scheme ← parseScheme scheme keyIds
  return { common with
    sourceCommit := sourceCommit
    workflowRun := workflowRun
    artifactDigests := digests.mergeSort fun left right => !decide (right.1 < left.1)
    signingScheme := scheme
    signingKeyIds := keyIds }

def parseDocument (document : Value) : Checked ReleaseManifest :=
  match document with
  | .object members =>
    match members.lookup (key "schema_version") with
    | some (.int 2) => parseV2 members
    | _ => .error .valueError
  | _ => .error .valueError

/-- `ReleaseManifest.parse`, and `parse_new` too. -/
def parse (levels : Nat) (payload : Bytes) : Answer ReleaseManifest :=
  guarded Fault.isParsingError (.data .valueError)
    (readDocument levels maxManifestBytes payload parseDocument)

/-- `\uXXXX`. -/
def escapedUnit (code : Nat) : Str :=
  [92, 117, hexDigit (code / 4096), hexDigit (code / 256 % 16), hexDigit (code / 16 % 16),
    hexDigit (code % 16)]

/-- `ESCAPE_ASCII`: what is not printed is escaped, above U+FFFF by a pair of surrogates. -/
def escapeAscii (code : Nat) : Str :=
  if code < 0x7F then escapeUnit code
  else if code < 0x10000 then escapedUnit code
  else
    escapedUnit (0xD800 + (code - 0x10000) / 1024) ++ escapedUnit (0xDC00 + (code - 0x10000) % 1024)

def dumpAscii (value : Str) : Str := 34 :: (value.flatMap escapeAscii ++ [34])

/-- A line break, and two blanks for each level. -/
def newline (level : Nat) : Str := 10 :: List.replicate (2 * level) 32

def bracketed (opening closing : Nat) (level : Nat) (parts : List Str) : Str :=
  if parts = [] then [opening, closing]
  else
    opening :: (newline (level + 1) ++ (44 :: newline (level + 1)).intercalate parts ++
      newline level ++ [closing])

mutual

/-- `json.dumps` with `indent=2`. -/
def dumpIndented (level : Nat) : Payload → Str
  | .null => str "null".toList
  | .boolean true => str "true".toList
  | .boolean false => str "false".toList
  | .number text => str text
  | .string value => dumpAscii value
  | .list items => bracketed 91 93 level (dumpIndentedItems level items)
  | .dict members => bracketed 123 125 level (dumpIndentedMembers level members)

def dumpIndentedItems (level : Nat) : List Payload → List Str
  | [] => []
  | item :: rest => dumpIndented (level + 1) item :: dumpIndentedItems level rest

def dumpIndentedMembers (level : Nat) : List (Str × Payload) → List Str
  | [] => []
  | member :: rest =>
    (dumpAscii member.1 ++ [58, 32] ++ dumpIndented (level + 1) member.2) ::
      dumpIndentedMembers level rest

end

/-- The text is ASCII, and `encode` gives the codes of its characters. -/
def documentBytes (document : Payload) : Bytes :=
  (dumpIndented 0 document ++ [10]).map UInt8.ofNat

def intRepr (value : Int) : Checked Text :=
  let digits := Nat.toDigits 10 value.natAbs
  if maxStrDigits < digits.length then .error .valueError
  else .ok (if value < 0 then '-' :: digits else digits)

def SigningScheme.text : SigningScheme → Text
  | .unsigned => "unsigned".toList
  | .ed25519 => "ed25519".toList

def ReleaseManifest.toBytes (manifest : ReleaseManifest) : Checked Bytes := do
  let size ← intRepr manifest.executableSize
  return documentBytes (.ofMembers
    [("schema_version", .ofNat 2), ("version", .ofText manifest.version),
      ("tag", .ofText manifest.tag), ("platform", .ofText manifest.platform.text),
      ("executable", .ofMembers
        [("name", .ofText manifest.executableName), ("size", .number size),
          ("sha256", .ofText manifest.executableSha256)]),
      ("source", .ofMembers
        [("commit", .ofText manifest.sourceCommit),
          ("workflow_run", .ofText manifest.workflowRun)]),
      ("artifact_digests", .dict
        (manifest.artifactDigests.map fun digest => (str digest.1, .ofText digest.2))),
      ("signing", .ofMembers
        [("scheme", .ofText manifest.signingScheme.text),
          ("key_ids", .list (manifest.signingKeyIds.map .ofText))])])

end XFerry.ReleaseMetadata
