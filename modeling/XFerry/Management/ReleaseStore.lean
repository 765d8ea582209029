/-
Installed releases, the link that selects one of them, and the steps that change
either.

Every call that leaves the process is named, and an environment says which of
the calls raise and what the others answer.
-/

import XFerry.CrashProgram
import XFerry.OrderedDict
import XFerry.Management.Versions

namespace XFerry.Management

open Python CrashProgram CrashProgram.Program

inductive PythonError where
  | osError
  | blockingIOError
  | fileNotFoundError
  | valueError
  | runtimeError
  | otherError
  deriving DecidableEq

def PythonError.isOSError : PythonError → Bool
  | .osError | .blockingIOError | .fileNotFoundError => true
  | .valueError | .runtimeError | .otherError => false

inductive Rollback where
  | notAttempted
  | notNeeded
  | restored
  | incomplete
  deriving DecidableEq

structure ReleaseFailure where
  exitCode : Nat
  message : String
  detail : String := ""
  nextActions : List String := []
  rollback : Rollback := .notAttempted
  active : Option Text := none
  deriving DecidableEq

inductive Raised where
  | failure (failure : ReleaseFailure)
  | insufficientPrivilege
  | mutationLocked
  | unsafeLock
  /-- `ReleaseTrustError`, a `ValueError`. -/
  | trust (code : String)
  | python (error : PythonError)
  deriving DecidableEq

namespace Raised

def isOSError : Raised → Bool
  | .python error => error.isOSError
  | _ => false

def isValueError : Raised → Bool
  | .trust _ | .python .valueError => true
  | _ => false

def isFailure : Raised → Bool
  | .failure _ => true
  | _ => false

end Raised

/-- What the functions of `release_trust` raise. -/
inductive TrustError where
  | trust (code : String)
  | python (error : PythonError)

def TrustError.raising {α : Type} (computation : Except TrustError α) : Except Raised α :=
  match computation with
  | .ok value => .ok value
  | .error (.trust code) => .error (.trust code)
  | .error (.python error) => .error (.python error)

def fails {α : Type} (exitCode : Nat) (message : String) : Except Raised α :=
  .error (.failure { exitCode := exitCode, message := message })

/-- `except caught: raise failure from None`. -/
def converting {α : Type} (caught : Raised → Bool) (exitCode : Nat) (message : String)
    (computation : Except Raised α) : Except Raised α :=
  match computation with
  | .ok value => .ok value
  | .error error => if caught error then fails exitCode message else .error error

structure ReleaseManifest where
  schemaVersion : Nat
  version : Text
  tag : Text
  platform : Text
  executableName : Text
  executableSize : Nat
  executableSha256 : Text
  sourceCommit : Option Text
  workflowRun : Option Text
  artifactDigests : List (Text × Text)
  signingScheme : Option Text
  signingKeyIds : List Text
  deriving DecidableEq

structure StoredFile where
  regular : Bool
  links : Nat
  content : Bytes

inductive EntryKind where
  | directory
  | symlink
  | file
  deriving DecidableEq

/-- An entry of the `releases` directory. -/
structure ReleaseEntry where
  kind : EntryKind
  executable : Option StoredFile
  metadata : Option StoredFile
  signature : Option StoredFile
  modified : Nat

inductive CurrentEntry where
  | missing
  | other
  | link (absolute : Bool) (parts : List Text)

structure Host where
  /-- The release root is a real directory. -/
  rootPresent : Bool
  current : CurrentEntry
  releases : OrderedDict Text ReleaseEntry

/-- The directory name `releases`, as `readlink` shows it. -/
def releasesName : Text := "releases".toList

def linkTo (version : Text) : CurrentEntry := .link false [releasesName, version]

namespace Host

def isRealDirectory (host : Host) (name : Text) : Bool :=
  match host.releases.lookup name with
  | some entry => entry.kind == .directory
  | none => false

def linked (host : Host) : Option Text :=
  match host.current with
  | .link false [directory, version] =>
    if directory = releasesName ∧ isCanonicalReleaseVersion version = true then some version
    else none
  | _ => none

/-- The version the `current` link designates. -/
def designates (host : Host) : Option Text :=
  host.linked.filter host.isRealDirectory

def setCurrent (host : Host) (current : CurrentEntry) : Host := { host with current := current }

def putRelease (host : Host) (name : Text) (entry : ReleaseEntry) : Host :=
  { host with releases := host.releases.assign name entry }

def dropRelease (host : Host) (name : Text) : Host :=
  { host with releases := host.releases.erase name }

end Host

inductive Site where
  | checks
  | active
  | lockedChecks
  | locked
  | sameVersion
  | install
  | presence
  | switch
  | unswitched
  | stopped
  | restore
  | restored
  | observed
  | created
  | prune
  deriving DecidableEq

inductive Call where
  | hostFacts
  | rootStatus (site : Site)
  | readCurrent (site : Site)
  | releaseLayout (site : Site)
  | inspectRelease (site : Site) (name : Text)
  | baseUrl
  | downloadManifest
  | downloadSignature
  | lockDirectory
  | openLock
  | statLock
  | acquireLock
  | releaseLock
  | closeLock
  | stagingParent
  | createStaging
  | resolveStaging
  | removeStaging
  | removeStagingParent
  | downloadCandidate
  | readCandidate
  | configCheck
  | healthContext
  | serviceState (site : Site)
  | restart (site : Site)
  | stop (site : Site)
  | createReleases
  | requireReleases
  | createTemporary
  | writeTemporary
  | publishTemporary
  | clearTemporaryLink (site : Site)
  | createTemporaryLink (site : Site)
  | replaceCurrent (site : Site)
  | dropTemporaryLink (site : Site)
  | listReleases
  | treeStatus (site : Site) (name : Text)
  | removeTree (site : Site) (name : Text)
  deriving DecidableEq

structure CommandResult where
  returncode : Int
  stdout : Text

structure HealthResult where
  ok : Bool
  detail : String
  version : Option Text

inductive HealthAnswer where
  | answered (result : HealthResult)
  | raised (error : PythonError)

structure HostFacts where
  machine : Text
  isSupported : Bool
  managedSupportDetail : String

/-- `release_contract.ReleaseManifest.parse`, the functions of `release_trust` under
the manager's key ring, and `hashlib.sha256`. -/
structure ReleaseTrust where
  parse : Bytes → Except TrustError ReleaseManifest
  parseSigned : Bytes → Except TrustError ReleaseManifest
  verifySignature : Bytes → ReleaseManifest → Bytes → Except TrustError Unit
  sha256 : Bytes → Text

structure Environment where
  raises : Call → Option PythonError
  /-- `lstat` of a release directory raises `OSError`. -/
  statFails : Site → Text → Bool
  trust : ReleaseTrust
  unicode : Unicode
  effectiveUid : Nat
  hostFacts : HostFacts
  platformId : Text
  unsupportedState : Site → Bool
  manifestPayload : Bytes
  signaturePayload : Bytes
  lockUnsafe : Bool
  stagingParentMissing : Bool
  stagingInsideReleases : Bool
  candidate : StoredFile
  configCheck : CommandResult
  serviceState : Site → CommandResult
  restart : Site → CommandResult
  stop : Site → CommandResult
  /-- The health checks made before the deadline of one readiness loop. -/
  healthChecks : Site → List HealthAnswer
  temporarySuffix : Text
  installedModified : Nat
  ownerInvalid : Bool
  /-- What a removal that fails half-way leaves of an entry. -/
  remains : Site → Text → ReleaseEntry → Option ReleaseEntry

def Environment.call (env : Environment) (call : Call) : Except Raised Unit :=
  match env.raises call with
  | none => .ok ()
  | some error => .error (.python error)

abbrev Action (α : Type) := Program Host Raised α

def reading {α : Type} (read : Host → Except Raised α) : Action α := do
  let answer ← inspect read
  lift answer

section Reading

variable (env : Environment)

def requireRealDirectory (site : Site) (host : Host) (name : Text) : Except Raised Unit :=
  if env.statFails site name then .error (.python .osError)
  else
    match host.releases.lookup name with
    | none => .error (.python .fileNotFoundError)
    | some entry => if entry.kind = .directory then .ok () else .error (.python .osError)

def releasePath (version : Text) : Except Raised Text :=
  if isCanonicalReleaseVersion version then .ok version else fails 2 "invalid_release_version"

def currentVersion (site : Site) (host : Host) : Except Raised Text := do
  converting (fun error => error.isOSError || error.isValueError) 1 "managed_installation_invalid"
    (env.call (.readCurrent site))
  match host.current with
  | .missing | .other => fails 1 "managed_installation_invalid"
  | .link absolute parts =>
    if absolute then fails 1 "managed_installation_invalid"
    else
      match parts with
      | [directory, version] =>
        if directory ≠ releasesName then fails 1 "managed_installation_invalid"
        else if isCanonicalReleaseVersion version then do
          let release ← releasePath version
          converting Raised.isOSError 1 "managed_installation_invalid"
            (requireRealDirectory env site host release)
          return version
        else fails 1 "managed_installation_invalid"
      | _ => fails 1 "managed_installation_invalid"

def currentSupportedVersion (site : Site) (host : Host) : Except Raised Text := do
  let version ← currentVersion env site host
  if isSupportedReleaseVersion version then
    match compareReleaseVersions version minDeploymentRelease with
    | none => .error (.python .valueError)
    | some order =>
      if order < 0 then fails 2 "unsupported_deployment_release" else return version
  else fails 2 "unsupported_release_major"

/-- The name of the `ed25519` scheme. -/
def signingSchemeEd25519 : Text := "ed25519".toList

def presentFile (file : Option StoredFile) : Except Raised StoredFile :=
  match file with
  | none => .error (.python .fileNotFoundError)
  | some stored => .ok stored

def authenticInstalled (metadata : StoredFile) (signature : Option StoredFile)
    (parsed : ReleaseManifest) : Except Raised (Option ReleaseManifest) :=
  if parsed.signingScheme = some signingSchemeEd25519 then do
    let signature ← presentFile signature
    if signature.regular && signature.links == 1 then do
      let signed ← TrustError.raising (env.trust.parseSigned metadata.content)
      TrustError.raising (env.trust.verifySignature metadata.content signed signature.content)
      return some signed
    else return none
  else return some parsed

/-- The body of `_installed_manifest`, inside its `try`. -/
def readInstalledManifest (site : Site) (host : Host) (name : Text) :
    Except Raised (Option ReleaseManifest) := do
  requireRealDirectory env site host name
  if isCanonicalReleaseVersion name then
    match host.releases.lookup name with
    | none => .error (.python .fileNotFoundError)
    | some entry => do
        env.call (.inspectRelease site name)
        let executable ← presentFile entry.executable
        let metadata ← presentFile entry.metadata
        if executable.regular && metadata.regular then do
          let parsed ← TrustError.raising (env.trust.parse metadata.content)
          match ← authenticInstalled env metadata entry.signature parsed with
          | none => return none
          | some manifest =>
            if manifest.version ≠ name ∨ manifest.platform ≠ env.platformId then
              return none
            else if executable.content.length ≠ manifest.executableSize then return none
            else if env.trust.sha256 executable.content ≠ manifest.executableSha256 then
              return none
            else return some manifest
        else return none
  else return none

def installedManifest (site : Site) (host : Host) (name : Text) :
    Except Raised (Option ReleaseManifest) :=
  match readInstalledManifest env site host name with
  | .ok manifest => .ok manifest
  | .error error =>
    if error.isOSError || error.isValueError then .ok none else .error error

def observedCurrentVersion (host : Host) : Except Raised (Option Text) :=
  match currentVersion env .observed host with
  | .ok version => .ok (some version)
  | .error error => if error.isFailure then .ok none else .error error

end Reading

section Changing

variable (env : Environment)

def perform (call : Call) : Action Unit := lift (env.call call)

/-- What `_atomic_current` asks of the release before it moves the link. -/
def switchTarget (site : Site) (version : Text) (requireVerified : Bool) (host : Host) :
    Except Raised Unit := do
  let target ← releasePath version
  if requireVerified then
    match ← installedManifest env site host target with
    | none => fails 1 "rollback_target_unverified"
    | some _ => return ()
  else
    converting Raised.isOSError 1 "managed_installation_invalid" do
      requireRealDirectory env site host target
      match host.releases.lookup target with
      | none => .error (.python .fileNotFoundError)
      | some entry => do
          let executable ← presentFile entry.executable
          if executable.regular then return () else .error (.python .osError)

def atomicCurrent (site : Site) (version : Text) (requireVerified : Bool) : Action Unit := do
  reading (switchTarget env site version requireVerified)
  perform env (.clearTemporaryLink site)
  (do
    perform env (.createTemporaryLink site)
    perform env (.replaceCurrent site)
    durable fun host => host.setCurrent (linkTo version)).ensuring
      (perform env (.dropTemporaryLink site))
  let current ← reading (currentVersion env site)
  if current ≠ version then lift (fails 1 "release_switch_failed") else return ()

/-- The recursive removal of `_remove_managed_tree`. -/
def removeTree (site : Site) (name : Text) (entry : ReleaseEntry) : Action Unit :=
  match env.raises (.removeTree site name) with
  | none => durable fun host => host.dropRelease name
  | some error => do
      durable fun host =>
        match env.remains site name entry with
        | none => host.dropRelease name
        | some left => host.putRelease name left
      raise (.python error)

def removeManagedTree (site : Site) (name : Text) : Action Unit := do
  perform env (.treeStatus site name)
  let found ← inspect fun host => host.releases.lookup name
  match found with
  | none => return ()
  | some entry =>
    if entry.kind = .symlink then raise (.python .osError)
    else removeTree env site name entry

def pruneVerified (current previous : Text) : Action Unit := do
  perform env .listReleases
  let paths ← inspect fun host => host.releases.keys
  forEach (fun name =>
    if name = current ∨ name = previous then return ()
    else do
      let manifest ← reading fun host => installedManifest env .prune host name
      match manifest with
      | none => return ()
      | some manifest =>
        if isSupportedReleaseVersion manifest.version then
          removeManagedTree env .prune name
        else return ()) paths

def removeCreatedIfInactive (version : Text) : Action Unit := do
  let observed ← attempt (reading (currentVersion env .created))
  match observed with
  | .error error => if error.isFailure then return () else raise error
  | .ok current =>
    if current = version then return ()
    else do
      let path ← lift (releasePath version)
      removeManagedTree env .created path

structure VerifiedRemoteManifest where
  manifest : ReleaseManifest
  manifestPayload : Bytes
  signaturePayload : Bytes

def emptyDirectory : ReleaseEntry :=
  { kind := .directory, executable := none, metadata := none, signature := none, modified := 0 }

def plainFile (content : Bytes) : StoredFile := { regular := true, links := 1, content := content }

/-- The directory that `_install_verified_release` completes before it publishes it. -/
def installedEntry (verified : VerifiedRemoteManifest) (candidate : StoredFile) : ReleaseEntry :=
  { kind := .directory
    executable := some (plainFile candidate.content)
    metadata := some (plainFile verified.manifestPayload)
    signature := some (plainFile verified.signaturePayload)
    modified := env.installedModified }

def temporaryName (version : Text) : Text :=
  ".install-".toList ++ version ++ '-' :: env.temporarySuffix

/-- `os.replace(temporary, target)`. -/
def publishEntry (temporary target : Text) (host : Host) : Host :=
  match host.releases.lookup temporary with
  | none => host
  | some entry => (host.dropRelease temporary).putRelease target entry

/-- `finally: if temporary.exists(): shutil.rmtree(temporary)`. -/
def removeTemporary (temporary : Text) : Action Unit := do
  let found ← inspect fun host => host.releases.lookup temporary
  match found with
  | none => return ()
  | some entry => removeTree env .install temporary entry

def installVerifiedRelease (verified : VerifiedRemoteManifest) (candidate : StoredFile) :
    Action Bool := do
  perform env .createReleases
  perform env .requireReleases
  let target ← lift (releasePath verified.manifest.version)
  let found ← inspect fun host => host.releases.lookup target
  match found with
  | some _ => do
      let installed ← reading fun host => installedManifest env .install host target
      if installed ≠ some verified.manifest then lift (fails 1 "installed_release_conflict")
      else return false
  | none => do
      let temporary := temporaryName env verified.manifest.version
      perform env .createTemporary
      -- A name that exists is never returned by mkdtemp.
      let taken ← inspect fun host => (host.releases.lookup temporary).isSome
      if taken then raise (.python .osError)
      else do
        durable fun host => host.putRelease temporary emptyDirectory
        (do
          perform env .writeTemporary
          durable fun host =>
            host.putRelease temporary (installedEntry env verified candidate)
          if env.ownerInvalid then lift (fails 1 "release_install_owner_invalid")
          else do
            perform env .publishTemporary
            durable (publishEntry temporary target)
            return true : Action Bool).ensuring (removeTemporary env temporary)

end Changing

end XFerry.Management
