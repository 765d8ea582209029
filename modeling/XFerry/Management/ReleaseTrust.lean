/-
Detached signatures, and which exceptions reading downloaded metadata can end with.

`json.loads` alone raises `RecursionError`.  The text of a manifest is built outside of
any guard, and succeeds since the size was read from a text that is short enough.
-/

import XFerry.Encoding.Base64Url
import XFerry.Management.ReleaseContract

namespace XFerry.ReleaseMetadata

open Json Python

inductive SignatureType where
  | manifest
  | installer
deriving DecidableEq

def SignatureType.text : SignatureType → Text
  | .manifest => "release-manifest-v2".toList
  | .installer => "installer-v1".toList

def requireSignatureType (value : Value) : Checked SignatureType :=
  if isText value SignatureType.manifest.text = true then .ok .manifest
  else if isText value SignatureType.installer.text = true then .ok .installer
  else .error .valueError

def maxSignatureBytes : Nat := 4 * 1024

structure DetachedReleaseSignature where
  keyId : Text
  payloadType : SignatureType
  signature : Bytes

def DetachedReleaseSignature.toBytes (envelope : DetachedReleaseSignature) : Checked Bytes := do
  let keyId ← requireSigningKeyId (.string (str envelope.keyId))
  require (envelope.signature.length = 64)
  return documentBytes (.ofMembers
    [("schema_version", .ofNat 1), ("algorithm", .ofText "ed25519".toList),
      ("key_id", .ofText keyId), ("payload_type", .ofText envelope.payloadType.text),
      ("signature", .ofText (Base64.encode envelope.signature))])

/-- `value == 1`, which a float can be, for a value that is no `bool`. -/
def isOne (value : Value) : Bool :=
  match value with
  | .int number => number == 1
  | .float number => number == .finite 1
  | _ => false

/-- `base64.b64decode` of a text that is the encoding of what it decodes to. -/
def decodeSignature (value : Value) : Checked Bytes :=
  match value with
  | .string codes =>
    match Base64.decode codes with
    | none => .error .valueError
    | some signature => if signature.length = 64 then .ok signature else .error .valueError
  | _ => .error .valueError

def parseEnvelope (document : Value) : Checked DetachedReleaseSignature := do
  let document ← requireFields document
    ["schema_version", "algorithm", "key_id", "payload_type", "signature"]
  let schemaVersion ← subscript document "schema_version"
  let algorithm ← subscript document "algorithm"
  require (isOne schemaVersion = true ∧ isText algorithm "ed25519".toList = true)
  let keyId ← requireSigningKeyId (← subscript document "key_id")
  let payloadType ← requireSignatureType (← subscript document "payload_type")
  let signature ← decodeSignature (← subscript document "signature")
  return { keyId := keyId, payloadType := payloadType, signature := signature }

def parseCanonical (payload : Bytes) (document : Value) : Checked DetachedReleaseSignature := do
  let parsed ← parseEnvelope document
  let canonical ← parsed.toBytes
  require (canonical = payload)
  return parsed

def DetachedReleaseSignature.parse (levels : Nat) (payload : Bytes) :
    Answer DetachedReleaseSignature :=
  guarded Fault.isParsingError (.trust "release_signature_invalid")
    (readDocument levels maxSignatureBytes payload (parseCanonical payload))

def signatureMessage (payload : Bytes) (payloadType : SignatureType) (keyId : Text) : Bytes :=
  let ascii (text : Text) : Bytes := text.map fun char => UInt8.ofNat char.toNat
  ascii "xferry-release-signature-v1".toList ++ 0 :: ascii payloadType.text ++
    0 :: ascii keyId ++ 0 :: payload

inductive ReleaseKeyStatus where
  | active
  | revoked
deriving DecidableEq

structure TrustedReleaseKey where
  keyId : Text
  publicKey : Bytes
  status : ReleaseKeyStatus

structure ReleaseKeyRing where
  keys : List TrustedReleaseKey
  distinct : (keys.map TrustedReleaseKey.keyId).Nodup

def ReleaseKeyRing.get (keyRing : ReleaseKeyRing) (keyId : Text) : Option TrustedReleaseKey :=
  keyRing.keys.find? fun trusted => trusted.keyId = keyId

/-- What `from_public_bytes` and `verify` of the cryptographic library raise. -/
inductive VerificationFailure where
  | invalidSignature
  | unsupportedAlgorithm
  | valueError

/-- Whether a key made a signature of a message. -/
abbrev Verifier := Bytes → Bytes → Bytes → Except VerificationFailure Unit

section Verification

variable (levels : Nat) (verifier : Verifier) (keyRing : ReleaseKeyRing)

def requireSignedCanonical (payload : Bytes) (manifest : ReleaseManifest) :
    Answer ReleaseManifest :=
  if manifest.signingScheme ≠ .ed25519 ∨ manifest.signingKeyIds = [] then
    .error (.trust "release_manifest_unsigned")
  else do
    let canonical ← manifest.toBytes.mapError Fault.data
    if canonical = payload then .ok manifest else .error (.trust "release_manifest_noncanonical")

def parseSignedManifest (payload : Bytes) : Answer ReleaseManifest := do
  let manifest ← guarded Fault.isValueError (.trust "release_manifest_invalid")
    (parse levels payload)
  requireSignedCanonical payload manifest

/-- What `verify_detached_signature` does with the envelope it has read. -/
def verifyEnvelope (payload : Bytes) (payloadType : SignatureType)
    (envelope : DetachedReleaseSignature) : Answer Text :=
  if envelope.payloadType ≠ payloadType then .error (.trust "release_signature_invalid")
  else
    match keyRing.get envelope.keyId with
    | none => .error (.trust "release_signing_key_unknown")
    | some trusted =>
      if trusted.status = .revoked then .error (.trust "release_signing_key_revoked")
      else
        match verifier trusted.publicKey envelope.signature
            (signatureMessage payload envelope.payloadType envelope.keyId) with
        | .error _ => .error (.trust "release_signature_invalid")
        | .ok () => .ok envelope.keyId

def verifyDetachedSignature (payload signaturePayload : Bytes) (payloadType : SignatureType) :
    Answer Text := do
  let envelope ← DetachedReleaseSignature.parse levels signaturePayload
  verifyEnvelope verifier keyRing payload payloadType envelope

def verifyManifestSignature (payload : Bytes) (manifest : ReleaseManifest)
    (signaturePayload : Bytes) : Answer Unit := do
  let keyId ← verifyDetachedSignature levels verifier keyRing payload signaturePayload .manifest
  if manifest.signingKeyIds = [keyId] then .ok ()
  else .error (.trust "release_signature_invalid")

def verifySignedManifest (payload signaturePayload : Bytes) : Answer ReleaseManifest := do
  let manifest ← parseSignedManifest levels payload
  verifyManifestSignature levels verifier keyRing payload manifest signaturePayload
  return manifest

end Verification

/-- The bytes are within the limit, and their text nests deeper than `json.loads` goes
before anything else is wrong with it. -/
def Overnested (levels limit : Nat) (payload : Bytes) : Prop :=
  0 < payload.length ∧ payload.length ≤ limit ∧
    ∃ text, decode payload = some text ∧ loadsStrict levels text = .error .tooDeep

variable {α : Type} {levels limit : Nat} {payload signaturePayload : Bytes} {verifier : Verifier}
  {keyRing : ReleaseKeyRing}

theorem readDocument_recursionError {next : Value → Checked α} :
    readDocument levels limit payload next = .error .recursionError ↔
      Overnested levels limit payload := by
  have lifted {β : Type} (computation : Checked β) :
      computation.mapError Fault.data ≠ .error .recursionError := by
    cases computation with
    | error | ok => exact nofun
  unfold readDocument require
  by_cases inside : 0 < payload.length ∧ payload.length ≤ limit
  · rw [if_pos inside]
    have loading : loadDocument levels payload = .error .recursionError ↔
        ∃ text, decode payload = some text ∧ loadsStrict levels text = .error .tooDeep := by
      unfold loadDocument
      cases decoded : decode payload with
      | none => exact iff_of_false nofun (by rintro ⟨_, ⟨⟩, _⟩)
      | some text =>
        simp only [Option.some.injEq, exists_eq_left']
        cases loaded : loadsStrict levels text with
        | ok document => exact iff_of_false nofun nofun
        | error error =>
          cases error with
          | tooDeep => exact iff_of_true rfl rfl
          | malformed | tooManyDigits | duplicateMember => exact iff_of_false nofun nofun
    rw [Overnested, ← loading, and_iff_right inside.1, and_iff_right inside.2]
    cases loadDocument levels payload with
    | error fault =>
      have same {β γ : Type} (failed : (.error fault : Answer β) = .error .recursionError) :
          (.error fault : Answer γ) = .error .recursionError :=
        congrArg Except.error (Except.error.inj failed)
      exact ⟨same, same⟩
    | ok document => exact iff_of_false (lifted _) nofun
  · rw [if_neg inside]
    exact iff_of_false nofun fun nested => inside ⟨nested.1, nested.2.1⟩

theorem isParsingError_iff (fault : Fault) :
    fault.isParsingError = true ↔ fault ≠ .recursionError := by
  cases fault with
  | trust code => exact iff_of_true rfl nofun
  | data error =>
    cases error with
    | valueError | keyError => exact iff_of_true rfl nofun
  | recursionError => exact iff_of_false nofun (not_not_intro rfl)

theorem guarded_failsOnly_iff {raised : Fault} {allowed : Fault → Prop} {body : Answer α}
    (expected : allowed raised) (unexpected : ¬ allowed .recursionError) :
    FailsOnly (guarded Fault.isParsingError raised body) allowed ↔
      body ≠ .error .recursionError := by
  cases body with
  | ok result => exact iff_of_true (.ok result) nofun
  | error fault =>
    by_cases passes : fault = .recursionError
    · rw [passes]
      exact iff_of_false (fun only => unexpected (only _ rfl)) (not_not_intro rfl)
    refine iff_of_true ?_ fun same => passes (Except.error.inj same)
    have caught : guarded Fault.isParsingError raised (.error fault : Answer α) =
        .error raised := congrArg Except.error (if_pos ((isParsingError_iff fault).mpr passes))
    rw [caught]
    exact .error expected

variable {document : Members}

theorem subscript_printable (inside : ∀ member ∈ document, member.2.Printable)
    (name : String) : Ensures (subscript document name) Value.Printable := by
  unfold subscript
  split
  · exact .error _
  rename_i value found
  obtain ⟨before, after, same, _⟩ := List.lookup_eq_some_iff.mp found
  exact .ok (inside (key name, value) (by rw [same]; simp))

theorem requireFields_printable {value : Value} (printable : value.Printable)
    (names : List String) :
    Ensures (requireFields value names) fun members => ∀ member ∈ members, member.2.Printable := by
  unfold requireFields
  split
  · cases printable with
    | object inside => exact .ite (fun _ => .ok inside) fun _ => .error _
  · exact .error _

theorem requireSize_printable {value : Value} (printable : value.Printable) :
    Ensures (requireSize value) fun size => (Value.int size).Printable := by
  unfold requireSize
  split
  · exact .ite (fun _ => .error _) fun _ => .ok printable
  · exact .error _

theorem parseCommon_printable (inside : ∀ member ∈ document, member.2.Printable) :
    Ensures (parseCommon document) fun common => (Value.int common.executableSize).Printable := by
  refine .andThen fun version => .andThen fun tag => .andThen fun version => .andThen fun _ => ?_
  refine .andThen fun platform => .andThen fun platform => ?_
  refine .bind (subscript_printable inside _) fun executable printable => ?_
  refine .bind (requireFields_printable printable _) fun executable inExecutable => ?_
  refine .andThen fun name => .bind (subscript_printable inExecutable _) fun size printable => ?_
  refine .andThen fun sha256 => .andThen fun name => .andThen fun _ => ?_
  refine .bind (requireSize_printable printable) fun size printable => ?_
  exact .andThen fun sha256 => .ok printable

theorem parseV2_printable (inside : ∀ member ∈ document, member.2.Printable) :
    Ensures (parseV2 document) fun manifest => (Value.int manifest.executableSize).Printable := by
  refine .andThen fun _ => .bind (parseCommon_printable inside) fun common printable => ?_
  refine .andThen fun source => .andThen fun digests => .andThen fun signing => ?_
  refine .andThen fun source => .andThen fun commit => .andThen fun commit => ?_
  refine .andThen fun run => .andThen fun run => .andThen fun digests => .andThen fun _ => ?_
  refine .andThen fun signing => .andThen fun scheme => .andThen fun keyIds => ?_
  exact .andThen fun keyIds => .andThen fun scheme => .ok printable

theorem loadDocument_printable (levels : Nat) (payload : Bytes) :
    Ensures (loadDocument levels payload) Value.Printable := by
  unfold loadDocument
  split
  · exact .error _
  split
  · case h_1 loaded => exact .ok (loadsStrict_good covers_printable loaded)
  · exact .error _
  · exact .error _

theorem parseDocument_printable {document : Value} (printable : document.Printable) :
    Ensures (parseDocument document) fun manifest =>
      (Value.int manifest.executableSize).Printable := by
  unfold parseDocument
  split
  · cases printable with
    | object inside =>
      split
      · exact parseV2_printable inside
      · exact .error _
  · exact .error _

theorem ensures_mapError {ε : Type} {change : ε → Fault} {computation : Except ε α}
    {post : α → Prop} (holds : Ensures computation post) :
    Ensures (computation.mapError change) post := by
  cases computation with
  | error failure => exact .error _
  | ok result => exact .ok (holds result rfl)

theorem parse_printable (levels : Nat) (payload : Bytes) :
    Ensures (parse levels payload) fun manifest =>
      (Value.int manifest.executableSize).Printable := by
  refine ensures_mapError (.andThen fun _ => ?_)
  refine .bind (loadDocument_printable levels payload) fun document printable => ?_
  exact ensures_mapError (parseDocument_printable printable)

variable {manifest : ReleaseManifest}

theorem toBytes_succeeds
    (printable : (Value.int manifest.executableSize).Printable) : Succeeds manifest.toBytes := by
  cases printable with
  | int short =>
    refine Succeeds.bind_iff.mpr ⟨_, if_neg (Nat.not_lt.mpr short), .ok _⟩

theorem parse_failsOnly_iff :
    FailsOnly (parse levels payload) (fun fault => fault.isValueError = true) ↔
      ¬ Overnested levels maxManifestBytes payload := by
  rw [← readDocument_recursionError]
  exact guarded_failsOnly_iff rfl nofun

theorem envelope_failsOnly_iff :
    FailsOnly (DetachedReleaseSignature.parse levels payload) (·.isTrustError = true) ↔
      ¬ Overnested levels maxSignatureBytes payload := by
  rw [← readDocument_recursionError]
  exact guarded_failsOnly_iff rfl nofun

theorem requireSignedCanonical_failsOnly
    (printable : (Value.int manifest.executableSize).Printable) :
    FailsOnly (requireSignedCanonical payload manifest) (·.isTrustError = true) := by
  unfold requireSignedCanonical
  obtain ⟨canonical, written⟩ := toBytes_succeeds printable
  rw [written]
  exact .ite (.error rfl) (.ite (.ok _) (.error rfl))

theorem parseSignedManifest_failsOnly_iff :
    FailsOnly (parseSignedManifest levels payload) (·.isTrustError = true) ↔
      ¬ Overnested levels maxManifestBytes payload := by
  rw [← parse_failsOnly_iff]
  unfold parseSignedManifest
  rw [FailsOnly.bind_iff]
  cases parsed : parse levels payload with
  | ok manifest =>
    have printable := parse_printable levels payload manifest parsed
    refine iff_of_true ⟨.ok manifest, ?_⟩ (.ok manifest)
    rintro _ ⟨⟩
    exact requireSignedCanonical_failsOnly printable
  | error fault =>
    by_cases caught : fault.isValueError = true
    · refine iff_of_true ⟨?_, nofun⟩ (.error caught)
      have answered : guarded Fault.isValueError (.trust "release_manifest_invalid")
          (.error fault : Answer ReleaseManifest) = .error (.trust "release_manifest_invalid") :=
        congrArg Except.error (if_pos caught)
      rw [answered]
      exact .error rfl
    · have passes : guarded Fault.isValueError (.trust "release_manifest_invalid")
          (.error fault : Answer ReleaseManifest) = .error fault :=
        congrArg Except.error (if_neg caught)
      refine iff_of_false (fun only => ?_) fun only => caught (only fault rfl)
      have trusted := only.1 fault passes
      cases fault with
      | trust code => exact caught rfl
      | data | recursionError => cases trusted

theorem verifyEnvelope_failsOnly (payloadType : SignatureType)
    (envelope : DetachedReleaseSignature) :
    FailsOnly (verifyEnvelope verifier keyRing payload payloadType envelope)
      (·.isTrustError = true) := by
  refine .ite (.error rfl) ?_
  split
  · exact .error rfl
  refine .ite (.error rfl) ?_
  split
  · exact .error rfl
  · exact .ok _

theorem verifyManifestSignature_failsOnly_iff :
    FailsOnly (verifyManifestSignature levels verifier keyRing payload manifest signaturePayload)
        (·.isTrustError = true) ↔
      ¬ Overnested levels maxSignatureBytes signaturePayload := by
  unfold verifyManifestSignature verifyDetachedSignature
  rw [FailsOnly.bind_iff, FailsOnly.bind_iff, envelope_failsOnly_iff]
  constructor
  · exact fun both => both.1.1
  · intro nested
    refine ⟨⟨nested, fun envelope _ => verifyEnvelope_failsOnly .manifest envelope⟩, ?_⟩
    exact fun keyId _ => .ite (.ok _) (.error rfl)

/-- `verify_signed_manifest` and `parse` return or raise what they promise, whatever the
bytes, but for text that nests too deep. -/
theorem releaseMetadata_total_iff (levels : Nat) (verifier : Verifier) (keyRing : ReleaseKeyRing)
    (payload signaturePayload : Bytes) :
    FailsOnly (verifySignedManifest levels verifier keyRing payload signaturePayload)
          (·.isTrustError = true) ∧
        FailsOnly (parse levels payload) (·.isValueError = true) ↔
      ¬ Overnested levels maxManifestBytes payload ∧
        ((∃ manifest, parseSignedManifest levels payload = .ok manifest) →
          ¬ Overnested levels maxSignatureBytes signaturePayload) := by
  unfold verifySignedManifest
  rw [parse_failsOnly_iff, FailsOnly.bind_iff, parseSignedManifest_failsOnly_iff, and_right_comm,
    and_self]
  refine and_congr_right fun _ => ?_
  constructor
  · rintro only ⟨manifest, parsed⟩
    exact verifyManifestSignature_failsOnly_iff.mp (FailsOnly.bind_iff.mp (only manifest parsed)).1
  · intro shallow manifest parsed
    refine .bind (verifyManifestSignature_failsOnly_iff.mpr (shallow ⟨manifest, parsed⟩)) ?_
    exact fun _ => .ok _

theorem scanStrict_brackets (levels : Nat) :
    scanStrict levels (List.replicate (levels + 1) '[') = .error .tooDeep := by
  induction levels with
  | zero => rfl
  | succ levels ih =>
    have first : scanItems (scanStrict levels) ((List.replicate (levels + 1) '[').length + 1)
        (List.replicate (levels + 1) '[') = .error .tooDeep := by
      rw [scanItems, ih]
    exact congrArg (Except.map fun result : List Value × Text => (Value.array result.1, result.2))
      first

def nestedPayload : Bytes := List.replicate 1001 91

/-- A manifest of brackets is enough, for an interpreter that goes a thousand levels deep. -/
theorem nestedPayload_escapes :
    ¬ (FailsOnly (verifySignedManifest 1000 (fun _ _ _ => .ok ()) ⟨[], List.nodup_nil⟩
          nestedPayload []) (·.isTrustError = true) ∧
        FailsOnly (parse 1000 nestedPayload) (·.isValueError = true)) := by
  rintro ⟨_, only⟩
  refine parse_failsOnly_iff.mp only ⟨?_, ?_, List.replicate 1001 '[', ?_, ?_⟩
  · rw [nestedPayload, List.length_replicate]
    decide
  · rw [nestedPayload, List.length_replicate]
    decide
  · decide +kernel
  · have opened : scanStrict 1000 (List.replicate 1001 '[') = .error .tooDeep :=
      scanStrict_brackets 1000
    have start : skipWhitespace (List.replicate 1001 '[') = List.replicate 1001 '[' := rfl
    rw [loadsStrict, start, opened]

end XFerry.ReleaseMetadata
