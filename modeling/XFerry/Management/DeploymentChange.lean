/-
Changes of a deployment's configuration and credentials: `NativeBackend.configure`,
`NativeBackend.credentials`, `ComposeBackend.configure` and `ComposeBackend.credentials`.

Every step may raise, also after it has replaced its file, and every external command may
fail.  What the steps answer is given in advance; the programs compute the files and the
report.
-/

import XFerry.CrashProgram
import XFerry.OrderedDict
import XFerry.Python.Text

namespace XFerry.Management.DeploymentChange

open CrashProgram Program
open Python (Bytes Text)

inductive DeploymentPath where
  | profile
  | runtime
  | unit
  | compose
  | auth
  /-- The directory of a Compose deployment. -/
  | bundle
  | manifest
  | other (path : Text)
deriving DecidableEq

inductive ResourceKind where
  | file
  | secret
  /-- Any other word. -/
  | directory
deriving DecidableEq

structure Identity where
  device : Nat
  inode : Nat
deriving DecidableEq

/-- A path that can have a receipt.  A Compose deployment refuses a receipt for its manifest,
and no manifest can hold its own digest. -/
abbrev ResourcePath := { path : DeploymentPath // path ≠ .manifest }

structure OwnedResource where
  path : ResourcePath
  kind : ResourceKind
  sha256 : Option Bytes
  uid : Option Nat
  gid : Option Nat
  identity : Option Identity
  size : Option Nat
  modified : Option Nat
  mode : Option Nat
deriving DecidableEq

/-- The fields of a `DeploymentSpec` that a change of configuration or credentials may write,
without the receipts of access. -/
structure Manifest where
  filesDir : Text
  resources : List OwnedResource
deriving DecidableEq

inductive Content where
  | text (bytes : Bytes)
  /-- A text that parses to a manifest. -/
  | manifest (bytes : Bytes) (spec : Manifest)

def Content.bytes : Content → Bytes
  | .text bytes => bytes
  | .manifest bytes _ => bytes

inductive Body where
  | file (content : Content)
  | directory
  | link (target : DeploymentPath)

structure HostEntry where
  body : Body
  mode : Nat
  uid : Nat
  gid : Nat
  links : Nat
  identity : Identity
  modified : Nat

structure Stamp where
  identity : Identity
  modified : Nat

abbrev HostFiles := DeploymentPath → Option HostEntry

structure Site where
  files : HostFiles
  /-- `_states` of the transaction, in `_order`. -/
  recorded : List (DeploymentPath × Option HostEntry)

/-- The parts of XFerry and of the system that a change uses and that are not modelled. -/
structure Parts where
  /-- `settings.files_dir or spec.files_dir`, made absolute. -/
  nextFilesDir : (candidate filesDir : Text) → Text
  compileProfile : (candidate filesDir : Text) → Option Text
  renderManagedUnit : (filesDir : Text) → Bytes
  renderCompose : (candidate : Text) → Bytes
  dumpManifest : Manifest → Bytes
  sha256 : Bytes → Bytes
  /-- The mode of a regular file after `chown`. -/
  afterChown : Nat → Nat
  /-- The account and the group of the process. -/
  processUid : Nat
  processGid : Nat

/-- `text.encode()`.  A text with a lone surrogate is one whose write is refused. -/
def encoded (text : Text) : Bytes :=
  (Python.encode (text.map Char.toNat)).get (Python.encode_text text)

def followed (files : HostFiles) : (links : Nat) → DeploymentPath → Option HostEntry
  | 0, _ => none
  | links + 1, path =>
    match files path with
    | none => none
    | some entry =>
      match entry.body with
      | .link target => followed files links target
      | .file _ | .directory => some entry

def linkLimit : Nat := 40

def fileContent (files : HostFiles) (path : DeploymentPath) : Option Content :=
  match followed files (linkLimit + 1) path with
  | some { body := .file content, .. } => some content
  | _ => none

def isFile (files : HostFiles) (path : DeploymentPath) : Bool := (fileContent files path).isSome

/-- `_absolute`. -/
def isAbsolute (path : Text) : Bool :=
  path.head? = some '/' && path.all (fun char => !(['\x00', '\r', '\n'].contains char)) &&
    !(path.splitOn '/').contains ['.', '.']

def manifestMaximum : Nat := 1024 * 1024

def loadManifest (files : HostFiles) : Option Manifest :=
  match files .manifest with
  | some { body := .file (.manifest bytes spec), links := 1, .. } =>
    if bytes.length ≤ manifestMaximum ∧ isAbsolute spec.filesDir then some spec else none
  | _ => none

section Receipts

variable (parts : Parts)

def resourceUnchanged (files : HostFiles) (resource : OwnedResource) : Bool :=
  match files resource.path.val with
  | none => false
  | some entry =>
    some entry.uid = resource.uid && some entry.gid = resource.gid &&
      (resource.mode = none || resource.mode = some entry.mode) &&
      match resource.kind, entry.body with
      | .file, .file content =>
        entry.links = 1 && some (parts.sha256 content.bytes) = resource.sha256
      | .secret, .file content =>
        entry.links = 1 && some entry.identity = resource.identity &&
          some content.bytes.length = resource.size && some entry.modified = resource.modified
      | .directory, .directory => some entry.identity = resource.identity
      | _, _ => false

def resourceReceipt (files : HostFiles) (path : ResourcePath) (kind : ResourceKind) :
    Option OwnedResource :=
  match files path.val with
  | none => none
  | some entry =>
    let receipt (digest : Option Bytes) (size : Nat) : OwnedResource :=
      { path := path, kind := kind, sha256 := digest, uid := some entry.uid
        gid := some entry.gid, identity := some entry.identity, size := some size
        modified := some entry.modified, mode := some entry.mode }
    match kind, entry.body with
    | .directory, .file content => some (receipt none content.bytes.length)
    | .directory, _ => some (receipt none 0)
    | .file, .file content =>
      if entry.links = 1 then
        some (receipt (some (parts.sha256 content.bytes)) content.bytes.length)
      else none
    | .secret, .file content =>
      if entry.links = 1 then some (receipt none content.bytes.length) else none
    | _, _ => none

/-- `{resource.path: resource for resource in resources}`. -/
def resourcesByPath (resources : List OwnedResource) : OrderedDict ResourcePath OwnedResource :=
  resources.foldl (fun dict resource => dict.assign resource.path resource) .empty

def profilePath : ResourcePath := ⟨.profile, nofun⟩
def runtimePath : ResourcePath := ⟨.runtime, nofun⟩
def unitPath : ResourcePath := ⟨.unit, nofun⟩
def composePath : ResourcePath := ⟨.compose, nofun⟩
def authPath : ResourcePath := ⟨.auth, nofun⟩
def bundlePath : ResourcePath := ⟨.bundle, nofun⟩

def kindOf (path : ResourcePath) : ResourceKind := if path = authPath then .secret else .file

def renewed (files : HostFiles) (dict : OrderedDict ResourcePath OwnedResource) :
    List ResourcePath → Option (OrderedDict ResourcePath OwnedResource)
  | [] => some dict
  | path :: rest =>
    match resourceReceipt parts files path (kindOf path) with
    | none => none
    | some receipt => renewed files (dict.assign path receipt) rest

def manifestOf (filesDir : Text) (dict : OrderedDict ResourcePath OwnedResource) : Manifest :=
  { filesDir := filesDir, resources := dict.entries.map Prod.snd }

/-- `NativeBackend._receipt`. -/
def nativeReceipt (files : HostFiles) (spec : Manifest) (changed : List ResourcePath) :
    Option Manifest :=
  (renewed parts files (resourcesByPath spec.resources) changed).map (manifestOf spec.filesDir)

/-- `ComposeBackend._receipt`. -/
def composeReceipt (files : HostFiles) (spec : Manifest) (changed : List ResourcePath) :
    Option Manifest :=
  if spec.resources = [] then
    match resourceReceipt parts files bundlePath .directory with
    | none => none
    | some receipt =>
      (renewed parts files (OrderedDict.empty.assign bundlePath receipt)
        [profilePath, runtimePath, composePath, authPath]).map (manifestOf spec.filesDir)
  else nativeReceipt parts files spec changed

end Receipts

inductive Raised where
  | os
  | value
  | runtime
  | other
deriving DecidableEq

inductive WriteAnswer where
  /-- The previous state of the path can't be read. -/
  | unread (error : Raised)
  /-- The file is not replaced. -/
  | refused (error : Raised)
  /-- The file is replaced, and what comes after that fails. -/
  | torn (stamp : Stamp) (error : Raised)
  | done (stamp : Stamp)

inductive Call where
  | passed
  | failed
  | raised (error : Raised)

/-- What the steps of one change answer, `none` where they do not raise. -/
structure Answers where
  /-- The checks before the first write that do not depend on the files below. -/
  refuses : Option Raised
  running : Bool
  /-- The files directory, before the unit is written. -/
  stage : Option Raised
  write : DeploymentPath → WriteAnswer
  check : Call
  receipt : Option Raised
  reload : Call
  restart : Call
  health : Call
  activate : Option Raised
  undo : DeploymentPath → WriteAnswer
  /-- The restorations of access. -/
  callbacks : Option Raised
  receiptBack : Option Raised
  manifestBack : WriteAnswer
  reloadBack : Call
  restartBack : Call
  healthBack : Call
  activateBack : Option Raised
  /-- The observation of the result. -/
  observes : Option Raised

inductive Report where
  | applied
  | restored
  /-- "Restoration incomplete" -/
  | incomplete
deriving DecidableEq

abbrev ChangeProgram := Program Site Raised

def raiseIf : Option Raised → ChangeProgram Unit
  | none => returning ()
  | some error => raise error

def call : Call → ChangeProgram Bool
  | .passed => returning true
  | .failed => returning false
  | .raised error => raise error

def require (answer : Call) : ChangeProgram Unit := do
  let passed ← call answer
  if passed then returning () else raise .value

def orRaise {Value : Type} : Option Value → ChangeProgram Value
  | none => raise .value
  | some value => returning value

def Site.put (site : Site) (path : DeploymentPath) (entry : Option HostEntry) : Site :=
  { site with files := Function.update site.files path entry }

def replaceFile (answer : WriteAnswer) (path : DeploymentPath)
    (next : Stamp → Option HostEntry) : ChangeProgram Unit :=
  match answer with
  | .unread error | .refused error => raise error
  | .torn stamp error => do
      durable fun site => site.put path (next stamp)
      raise error
  | .done stamp => durable fun site => site.put path (next stamp)

/-- A regular file as `chmod` and then `chown` leave it. -/
def newFile (parts : Parts) (content : Content) (mode uid gid : Nat) (stamp : Stamp) : HostEntry :=
  { body := .file content, mode := parts.afterChown mode, uid := uid, gid := gid, links := 1
    identity := stamp.identity, modified := stamp.modified }

section Programs

variable (parts : Parts) (answers : Answers)

def remember (path : DeploymentPath) : ChangeProgram Unit :=
  durable fun site =>
    if site.recorded.any fun item => item.1 = path then site
    else { site with recorded := site.recorded ++ [(path, site.files path)] }

/-- `FilesystemTransaction.atomic_write`. -/
def transactionWrite (path : DeploymentPath) (content : Content) (mode uid gid : Nat) :
    ChangeProgram Unit :=
  match answers.write path with
  | .unread error => raise error
  | answer => do
      remember path
      replaceFile answer path fun stamp => some (newFile parts content mode uid gid stamp)

/-- What `_restore` makes of a recorded state. -/
def restoredEntry (stamp : Stamp) (entry : HostEntry) : HostEntry :=
  match entry.body with
  | .file content => newFile parts content entry.mode entry.uid entry.gid stamp
  | .directory | .link _ => entry

/-- `rollback`. -/
def transactionRollback : ChangeProgram Unit := do
  let site ← inspect id
  forEach (fun item =>
    replaceFile (answers.undo item.1) item.1 fun stamp => item.2.map (restoredEntry parts stamp))
    site.recorded.reverse
  raiseIf answers.callbacks

/-- The mode and the owner that `path.stat()` tells. -/
def statOf (path : DeploymentPath) : ChangeProgram HostEntry := do
  let site ← inspect id
  match followed site.files (linkLimit + 1) path with
  | none => raise .os
  | some entry => returning entry

def rewrite (path : DeploymentPath) (bytes : Bytes) : ChangeProgram Unit := do
  let metadata ← statOf path
  transactionWrite parts answers path (.text bytes) metadata.mode metadata.uid metadata.gid

def recordReceipts (spec : Manifest) (changed : List ResourcePath) : ChangeProgram Unit := do
  raiseIf answers.receipt
  let site ← inspect id
  let next ← orRaise (nativeReceipt parts site.files spec changed)
  let metadata ← statOf .manifest
  transactionWrite parts answers .manifest (.manifest (parts.dumpManifest next) next) 0o644
    metadata.uid metadata.gid

def nativeChanged (moves : Bool) : List ResourcePath :=
  profilePath :: runtimePath :: if moves then [unitPath] else []

/-- `stage_managed_files_folder`, where the files directory changes. -/
def stageFolder (moves : Bool) (filesDir : Text) : ChangeProgram Unit :=
  if moves then do
    raiseIf answers.stage
    transactionWrite parts answers .unit (.text (parts.renderManagedUnit filesDir)) 0o644 0 0
  else returning ()

def reloadUnit (moves : Bool) : ChangeProgram Unit :=
  if moves then require answers.reload else returning ()

def restartService : ChangeProgram Unit :=
  if answers.running then do
    require answers.restart
    require answers.health
  else returning ()

/-- The steps of `configure` under its `try`. -/
def nativeApply (moves : Bool) (next : Manifest) (candidate runtime : Text) :
    ChangeProgram Unit := do
  stageFolder parts answers moves next.filesDir
  rewrite parts answers .profile (encoded candidate)
  rewrite parts answers .runtime (encoded runtime)
  require answers.check
  recordReceipts parts answers next (nativeChanged moves)
  reloadUnit answers moves
  restartService answers

def restartBack : ChangeProgram Bool := do
  let restarted ← call answers.restartBack
  if restarted then call answers.healthBack else returning false

def runningBack : ChangeProgram Bool :=
  if answers.running then restartBack answers else returning true

def nativeRestore : ChangeProgram Bool := do
  transactionRollback parts answers
  let reloaded ← call answers.reloadBack
  let restarted ← runningBack answers
  returning (restarted && reloaded)

/-- The `except` branch of `configure`. -/
def nativeRecover : ChangeProgram Report := do
  let restored ← attempt (nativeRestore parts answers)
  match restored with
  | .ok restored => returning (if restored then .restored else .incomplete)
  | .error .os | .error .value => returning .incomplete
  | .error error => raise error

/-- `observe` loads the manifest. -/
def observe : ChangeProgram Report := do
  let site ← inspect id
  let _ ← orRaise (loadManifest site.files)
  raiseIf answers.observes
  returning .applied

def nativeAccepts (candidate : Text) (files : HostFiles) : Option (Manifest × Text) :=
  match loadManifest files with
  | none => none
  | some spec =>
    if [.profile, .runtime, .auth, .unit].all (isFile files) then
      (parts.compileProfile candidate (parts.nextFilesDir candidate spec.filesDir)).map
        (Prod.mk spec)
    else none

def beginTransaction : ChangeProgram Unit := durable fun site => { site with recorded := [] }

/-- `NativeBackend.configure(apply=True)`. -/
def nativeConfigure (candidate : Text) : ChangeProgram Report := do
  raiseIf answers.refuses
  let site ← inspect id
  let accepted ← orRaise (nativeAccepts parts candidate site.files)
  let spec := accepted.1
  let next := { spec with filesDir := parts.nextFilesDir candidate spec.filesDir }
  beginTransaction
  let outcome ← attempt
    (nativeApply parts answers (next.filesDir ≠ spec.filesDir) next candidate accepted.2)
  match outcome with
  | .ok () => observe answers
  | .error _ => nativeRecover parts answers

/-- `f"{username}:{password}\n".encode()` -/
def credentialText (username password : Text) : Bytes :=
  encoded (username ++ [':'] ++ password ++ ['\n'])

/-- The steps of `credentials` under its `try`. -/
def nativeRotate (spec : Manifest) (username password : Text) : ChangeProgram Unit := do
  rewrite parts answers .auth (credentialText username password)
  recordReceipts parts answers spec [authPath]
  restartService answers

def overwriting (content : Content) (mode : Option Nat) (prior : HostEntry) (stamp : Stamp) :
    HostEntry :=
  { body := .file content, mode := mode.getD (prior.mode % 0o1000), uid := prior.uid
    gid := prior.gid, links := 1, identity := stamp.identity, modified := stamp.modified }

def atomicWrite (answer : WriteAnswer) (path : DeploymentPath) (content : Content)
    (mode : Option Nat) : ChangeProgram Unit := do
  let site ← inspect id
  match site.files path with
  | none =>
    replaceFile answer path fun stamp =>
      some
        { body := .file content, mode := mode.getD 0o600, uid := parts.processUid
          gid := parts.processGid, links := 1, identity := stamp.identity
          modified := stamp.modified }
  | some prior =>
    match prior.body with
    | .directory | .link _ => raise .value
    | .file _ =>
      if prior.links = 1 then
        replaceFile answer path fun stamp => some (overwriting content mode prior stamp)
      else raise .value

def writeManifest (answer : WriteAnswer) (mode : Nat) (spec : Manifest) : ChangeProgram Unit :=
  atomicWrite parts answer .manifest (.manifest (parts.dumpManifest spec) spec) (some mode)

/-- The `except` branch of `credentials`. -/
def nativeCredentialsBack (spec : Manifest) : ChangeProgram Report := do
  transactionRollback parts answers
  raiseIf answers.receiptBack
  let site ← inspect id
  let renewed ← orRaise (nativeReceipt parts site.files spec [authPath])
  writeManifest parts answers.manifestBack 0o644 renewed
  let restarted ← runningBack answers
  returning (if restarted then .restored else .incomplete)

/-- `NativeBackend.credentials`. -/
def nativeCredentials (username password : Text) : ChangeProgram Report := do
  raiseIf answers.refuses
  let site ← inspect id
  let spec ← orRaise (loadManifest site.files)
  if [.profile, .runtime, .auth].all (isFile site.files) then
    beginTransaction
    let outcome ← attempt (nativeRotate parts answers spec username password)
    match outcome with
    | .ok () => do
        raiseIf answers.observes
        returning .applied
    | .error _ => nativeCredentialsBack parts answers spec
  else raise .value

/-- `_ownership`: the first receipt for the Compose file. -/
def ownsCompose (files : HostFiles) (spec : Manifest) : Bool :=
  (spec.resources.find? fun resource => resource.path = composePath).any
    (resourceUnchanged parts files)

/-- `_validate` refuses links. -/
def isPlainFile (files : HostFiles) (path : DeploymentPath) : Bool :=
  (files path).any fun entry =>
    match entry.body with
    | .file _ => true
    | .directory | .link _ => false

def snapshotOf (files : HostFiles) (path : DeploymentPath) : Content :=
  match files path with
  | some { body := .file content, .. } => content
  | _ => .text []

def bundlePaths : List DeploymentPath := [.profile, .runtime, .compose, .manifest]

def composeAccepts (candidate : Text) (files : HostFiles) : Option (Manifest × Text) :=
  match loadManifest files with
  | none => none
  | some spec =>
    if parts.nextFilesDir candidate spec.filesDir = spec.filesDir ∧
        ownsCompose parts files spec = true ∧
        (.auth :: bundlePaths).all (isPlainFile files) = true then
      (parts.compileProfile candidate spec.filesDir).map (Prod.mk spec)
    else none

def composeChanged : List ResourcePath := [profilePath, runtimePath, composePath]

def composeRecord (spec : Manifest) (changed : List ResourcePath) : ChangeProgram Unit := do
  raiseIf answers.receipt
  let site ← inspect id
  let next ← orRaise (composeReceipt parts site.files spec changed)
  writeManifest parts (answers.write .manifest) 0o600 next

def activateRunning : ChangeProgram Unit :=
  if answers.running then raiseIf answers.activate else returning ()

/-- The steps of `configure` under its `try`. -/
def composeApply (spec : Manifest) (candidate runtime : Text) : ChangeProgram Unit := do
  atomicWrite parts (answers.write .profile) .profile (.text (encoded candidate)) (some 0o600)
  atomicWrite parts (answers.write .runtime) .runtime (.text (encoded runtime)) (some 0o644)
  atomicWrite parts (answers.write .compose) .compose (.text (parts.renderCompose candidate))
    (some 0o600)
  composeRecord parts answers spec composeChanged
  activateRunning answers

/-- The loop of `_restore_bundle`. -/
def restoreBundle (before : HostFiles) : ChangeProgram Unit :=
  forEach (fun path => atomicWrite parts (answers.undo path) path (snapshotOf before path) none)
    bundlePaths

def activateBack : ChangeProgram Report :=
  match answers.activateBack with
  | none => returning .restored
  | some .os | some .runtime => returning .incomplete
  | some error => raise error

/-- The `except` branch of `configure`. -/
def composeRecover (before : HostFiles) : ChangeProgram Report := do
  let restored ← attempt (restoreBundle parts answers before)
  match restored with
  | .error .os | .error .value => returning .incomplete
  | .error error => raise error
  | .ok () => if answers.running then activateBack answers else returning .restored

def composeConfigure (candidate : Text) : ChangeProgram Report := do
  raiseIf answers.refuses
  let site ← inspect id
  let accepted ← orRaise (composeAccepts parts candidate site.files)
  let outcome ← attempt (composeApply parts answers accepted.1 candidate accepted.2)
  match outcome with
  | .ok () => observe answers
  | .error _ => composeRecover parts answers site.files

/-- The steps of `credentials` under its `try`. -/
def composeRotate (spec : Manifest) (username password : Text) : ChangeProgram Unit := do
  atomicWrite parts (answers.write .auth) .auth (.text (credentialText username password))
    (some 0o600)
  composeRecord parts answers spec [authPath]
  raiseIf answers.activate

def composeCredentialsBack (before : HostFiles) (spec : Manifest) : ChangeProgram Report := do
  atomicWrite parts (answers.undo .auth) .auth (snapshotOf before .auth) (some 0o600)
  raiseIf answers.receiptBack
  let site ← inspect id
  let renewed ← orRaise (composeReceipt parts site.files spec [authPath])
  writeManifest parts answers.manifestBack 0o600 renewed
  activateBack answers

/-- `ComposeBackend.credentials`. -/
def composeCredentials (username password : Text) : ChangeProgram Report := do
  raiseIf answers.refuses
  let site ← inspect id
  let spec ← orRaise (loadManifest site.files)
  if ownsCompose parts site.files spec && isPlainFile site.files .auth then
    let outcome ← attempt (composeRotate parts answers spec username password)
    match outcome with
    | .ok () => returning .applied
    | .error _ => composeCredentialsBack parts answers site.files spec
  else raise .value

end Programs

inductive Change where
  | nativeConfigure (candidate : Text)
  | nativeCredentials (username password : Text)
  | composeConfigure (candidate : Text)
  | composeCredentials (username password : Text)

def program (parts : Parts) (answers : Answers) : Change → ChangeProgram Report
  | .nativeConfigure candidate => nativeConfigure parts answers candidate
  | .nativeCredentials username password => nativeCredentials parts answers username password
  | .composeConfigure candidate => composeConfigure parts answers candidate
  | .composeCredentials username password => composeCredentials parts answers username password

end XFerry.Management.DeploymentChange
