/-
Which folder grants the manifests of deployments account for, over the operations that grant
access: native setup, configure and resume, Compose setup and start.

Every operation can fail at each of its steps and is then taken back as far as its rollback
gets.  Between operations anyone may change a folder.
-/

import XFerry.EventMachine
import XFerry.Management.FolderAccess

namespace XFerry.Management.GrantReceipts

open Function PosixAcl

abbrev FolderPath := List Char

abbrev Folders := FolderPath → Option AclDirectory

inductive Deployment where
  | native
  | compose (bundle : Nat)
deriving DecidableEq

/-- The files directory and the receipts of access.  No other field of a manifest bears on
them. -/
structure Manifest where
  filesDir : FolderPath
  acl : List AccessReceipt

structure Grant where
  deployment : Deployment
  receipt : AccessReceipt

structure World where
  folders : Folders
  manifest : Deployment → Option Manifest
  /-- Whether the native runtime configuration is there. -/
  config : Bool
  /-- Whether the runtime was removed and its state retained. -/
  retained : Bool
  /-- All grants so far. -/
  granted : List Grant

def World.empty (folders : Folders) : World :=
  { folders := folders, manifest := fun _ => none, config := false, retained := false
    granted := [] }

/-- How far a rollback gets: the manifest is restored first, the access last. -/
inductive UndoDepth where
  | nothing
  | manifest
  | all
deriving DecidableEq

structure Failure where
  staged : Bool
  written : Bool
  depth : UndoDepth
  undo : RestoreCall → Bool
  /-- Whether the runtime configuration of a failed setup stays. -/
  configLeft : Bool

inductive Ending where
  | success
  | failure (failure : Failure)

/-- What an operation meets when it stages its folder: the account, the calls that fail and
the directory that it makes where there is none. -/
structure Staging where
  uid : Nat
  fails : GrantCall → Bool
  created : AclDirectory

def containerUid : Nat := 10001

variable (resolve : FolderPath → FolderPath)

def grantFolder (path : FolderPath) (uid : Nat) (fails : GrantCall → Bool) (folders : Folders) :
    Option (List AccessReceipt) × Folders :=
  let place := resolve path
  match folders place with
  | none => (none, folders)
  | some directory =>
    let answer := grantDirectoryAccess fails path uid directory
    (match answer.1 with
      | .error _ => none
      | .ok receipt => some receipt.toList,
      update folders place (some answer.2))

/-- `stage_managed_files_folder`.  A new folder belongs to the account. -/
def stageManagedFilesFolder (host : FolderPath) (staging : Staging) (folders : Folders) :
    Option (List AccessReceipt) × Folders :=
  let source := resolve host
  match folders (resolve source) with
  | none => (some [], update folders (resolve source) (some staging.created))
  | some _ => grantFolder resolve source staging.uid staging.fails folders

def stageBundleFolder (filesDir : FolderPath) (staging : Staging) (folders : Folders) :
    Option (List AccessReceipt) × Folders :=
  let place := resolve filesDir
  grantFolder resolve filesDir containerUid staging.fails
    (if (folders place).isSome then folders
      else update folders place (some staging.created))

def restoreFolder (fails : RestoreCall → Bool) (receipt : AccessReceipt) (folders : Folders) :
    Bool × Folders :=
  let place := resolve receipt.path
  match folders place with
  | none => (false, folders)
  | some directory =>
    let answer := restoreDirectoryAccess fails receipt directory
    (answer.1, update folders place (some answer.2))

def restoreFolders (fails : RestoreCall → Bool) (receipts : List AccessReceipt)
    (folders : Folders) : Folders :=
  receipts.foldr (fun receipt left => (restoreFolder resolve fails receipt left).2) folders

structure Attempt where
  receipts : Option (List AccessReceipt)
  folders : Folders
  succeeded : Bool

def attemptFolder (staged : Option (List AccessReceipt) × Folders) (ending : Ending)
    (folders : Folders) : Attempt :=
  match ending with
  | .success => { receipts := staged.1, folders := staged.2, succeeded := staged.1.isSome }
  | .failure failure =>
    if failure.staged then
      { receipts := staged.1
        folders :=
          if failure.depth = .all then
            restoreFolders resolve failure.undo (staged.1.getD []) staged.2
          else staged.2
        succeeded := false }
    else { receipts := none, folders := folders, succeeded := false }

def Ending.restoring : Ending → Ending
  | .success => .success
  | .failure fault => .failure { fault with depth := .all }

/-- The manifest that a failed operation leaves: its own one if that was written and is not
restored. -/
def manifestLeft (ending : Ending) (written : Option Manifest) (before : Option Manifest) :
    Option Manifest :=
  match ending with
  | .success => before
  | .failure failure =>
    if failure.written && failure.depth = .nothing then written <|> before else before

/-- `acl or spec.ownership.acl`. -/
def aclOr (acl before : List AccessReceipt) : List AccessReceipt :=
  if acl = [] then before else acl

def World.keep (world : World) (deployment : Deployment) (manifest : Option Manifest) :
    Deployment → Option Manifest := update world.manifest deployment manifest

def World.grants (world : World) (deployment : Deployment) (receipts : List AccessReceipt) :
    List Grant := receipts.map (Grant.mk deployment) ++ world.granted

/-- `SetupExecutor._apply_locked`, which is not reached where there is a configuration. -/
def setupNative (filesDir : FolderPath) (staging : Staging) (ending : Ending) (world : World) :
    Option World :=
  if world.config || world.retained then none
  else
    let attempt := attemptFolder resolve
      (stageManagedFilesFolder resolve filesDir staging world.folders) ending world.folders
    let written := attempt.receipts.map fun receipts =>
      { filesDir := filesDir, acl := receipts : Manifest }
    if attempt.succeeded then
      some
        { world with
          folders := attempt.folders
          manifest := world.keep .native written
          config := true
          granted := world.grants .native (attempt.receipts.getD []) }
    else
      let left := manifestLeft ending written (world.manifest .native)
      let configLeft :=
        match ending with
        | .success => false
        | .failure failure => failure.configLeft && failure.depth ≠ .all
      some
        { world with
          folders := attempt.folders
          manifest := world.keep .native left
          -- The configuration is restored after the manifest.
          config := configLeft || left.isSome }

/-- `NativeBackend.configure`. -/
def configureNative (filesDir : FolderPath) (staging : Staging) (ending : Ending) (world : World) :
    Option World :=
  match world.manifest .native with
  | none => none
  | some manifest =>
    if world.retained then none
    else if filesDir = manifest.filesDir then some world
    else
      let attempt := attemptFolder resolve
        (stageManagedFilesFolder resolve filesDir staging world.folders) ending world.folders
      let written := attempt.receipts.map fun receipts =>
        { filesDir := filesDir, acl := aclOr (manifest.acl ++ receipts) manifest.acl : Manifest }
      if attempt.succeeded then
        some
          { world with
            folders := attempt.folders
            manifest := world.keep .native written
            granted := world.grants .native (attempt.receipts.getD []) }
      else
        some
          { world with
            folders := attempt.folders
            manifest := world.keep .native (manifestLeft ending written (some manifest)) }

/-- `NativeBackend.operate("uninstall")` without purge. -/
def uninstallNative (done : Bool) (world : World) : Option World :=
  match world.manifest .native with
  | none => none
  | some _ => some { world with retained := world.retained || done }

/-- `SetupExecutor.resume`: the receipts of the staging are not kept. -/
def resumeNative (requireRetained : Bool) (staging : Staging) (ending : Ending) (world : World) :
    Option World :=
  match world.manifest .native with
  | none => none
  | some manifest =>
    if requireRetained && !world.retained then none
    else
      let attempt := attemptFolder resolve
        (stageManagedFilesFolder resolve (resolve manifest.filesDir) staging world.folders)
        ending world.folders
      let written : Manifest := { filesDir := manifest.filesDir, acl := manifest.acl }
      if attempt.succeeded then
        some
          { world with
            folders := attempt.folders
            manifest := world.keep .native (some written)
            retained := false
            granted := world.grants .native (attempt.receipts.getD []) }
      else
        some
          { world with
            folders := attempt.folders
            manifest := world.keep .native (manifestLeft ending (some written) (some manifest)) }

/-- `ComposeBackend.setup` where there is no manifest. -/
def setupCompose (bundle : Nat) (filesDir : FolderPath) (staging : Staging) (ending : Ending)
    (world : World) : Option World :=
  match world.manifest (.compose bundle) with
  | some _ => none
  | none =>
    let attempt := attemptFolder resolve
      (stageBundleFolder resolve filesDir staging world.folders) ending.restoring world.folders
    let written := attempt.receipts.map fun receipts =>
      { filesDir := filesDir, acl := receipts : Manifest }
    if attempt.succeeded then
      some
        { world with
          folders := attempt.folders
          manifest := world.keep (.compose bundle) written
          granted := world.grants (.compose bundle) (attempt.receipts.getD []) }
    else
      some
        { world with
          folders := attempt.folders
          manifest := world.keep (.compose bundle)
            (match ending with
              | .success => none
              -- A manifest that was written stays.
              | .failure failure => if failure.written then written else none) }

/-- `ComposeBackend.operate("start")`, which raises where the folder is not there. -/
def startCompose (bundle : Nat) (staging : Staging) (ending : Ending) (world : World) :
    Option World :=
  match world.manifest (.compose bundle) with
  | none => none
  | some manifest =>
    if (world.folders (resolve manifest.filesDir)).isNone then some world
    else
      let attempt := attemptFolder resolve
        (grantFolder resolve manifest.filesDir containerUid staging.fails world.folders)
        ending.restoring world.folders
      let written := attempt.receipts.map fun receipts =>
        if receipts = [] then manifest
        else
          { filesDir := manifest.filesDir
            acl := aclOr ((manifest.acl.filter fun receipt =>
              receipt.path ≠ manifest.filesDir) ++ receipts) manifest.acl }
      if attempt.succeeded then
        some
          { world with
            folders := attempt.folders
            manifest := world.keep (.compose bundle) written
            granted := world.grants (.compose bundle) (attempt.receipts.getD []) }
      else
        some
          { world with
            folders := attempt.folders
            manifest := world.keep (.compose bundle) (manifestLeft ending written (some manifest)) }

inductive Event where
  /-- Someone else changes a folder. -/
  | outside (place : FolderPath) (folder : Option AclDirectory)
  | setupNative (filesDir : FolderPath) (staging : Staging) (ending : Ending)
  | configureNative (filesDir : FolderPath) (staging : Staging) (ending : Ending)
  | uninstallNative (done : Bool)
  | resumeNative (requireRetained : Bool) (staging : Staging) (ending : Ending)
  | setupCompose (bundle : Nat) (filesDir : FolderPath) (staging : Staging) (ending : Ending)
  | startCompose (bundle : Nat) (staging : Staging) (ending : Ending)

def step : EventMachine.Machine World Event := fun world event =>
  match event with
  | .outside place folder =>
    some { world with folders := update world.folders place folder }
  | .setupNative filesDir staging ending => setupNative resolve filesDir staging ending world
  | .configureNative filesDir staging ending =>
    configureNative resolve filesDir staging ending world
  | .uninstallNative done => uninstallNative done world
  | .resumeNative requireRetained staging ending =>
    resumeNative resolve requireRetained staging ending world
  | .setupCompose bundle filesDir staging ending =>
    setupCompose resolve bundle filesDir staging ending world
  | .startCompose bundle staging ending => startCompose resolve bundle staging ending world

structure AccessPurge where
  folders : Folders
  restored : List AccessReceipt
  retained : List FolderPath

def purgeReceipt (fails : RestoreCall → Bool) (receipt : AccessReceipt) (purge : AccessPurge) :
    AccessPurge :=
  let answer := restoreFolder resolve fails receipt purge.folders
  if answer.1 then
    { purge with folders := answer.2, restored := receipt :: purge.restored }
  else { purge with folders := answer.2, retained := receipt.path :: purge.retained }

def purgeReceipts (fails : Nat → RestoreCall → Bool) : List AccessReceipt → AccessPurge →
    AccessPurge
  | [], purge => purge
  | receipt :: rest, purge =>
    purgeReceipts fails rest (purgeReceipt resolve (fails rest.length) receipt purge)

def purgeAccess (fails : Nat → RestoreCall → Bool) (world : World) (manifest : Manifest) :
    AccessPurge :=
  purgeReceipts resolve fails manifest.acl
    { folders := world.folders, restored := [], retained := [manifest.filesDir] }

end XFerry.Management.GrantReceipts
