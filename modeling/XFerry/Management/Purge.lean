/-
`NativeBackend._purge` and `ComposeBackend._purge`: what the receipts of a manifest let an
uninstallation delete, and what it lists as retained.

The disk is the one after the access to directories was restored, which changes no file.
The index of the instances and the accounts lie outside.
-/

import XFerry.HostTree
import XFerry.Management.FilesystemTransaction

namespace XFerry.Management.Purge

open CrashProgram Program
open FilesystemTransaction (Kernel HostPath locate follow pathExists isDir isSymlink)

/-- An absolute path without parent traversal, from its last component up.  `Path` keeps two
slashes at the root apart from one. -/
structure ManifestPath where
  doubled : Bool
  components : List EntryName
deriving DecidableEq

namespace ManifestPath

def names (path : ManifestPath) : List Name := path.components.map Subtype.val

def hostPath (path : ManifestPath) : HostPath :=
  path.components.map fun name => ⟨name.val, .inl name.property⟩

/-- `path / name`. -/
def child (path : ManifestPath) (name : EntryName) : ManifestPath :=
  { path with components := name :: path.components }

def parent (path : ManifestPath) : ManifestPath :=
  { path with components := path.components.tail }

/-- `path.is_relative_to(other)`, which only compares the texts. -/
def isRelativeTo (path other : ManifestPath) : Bool :=
  path.doubled = other.doubled && other.names.isSuffixOf path.names

end ManifestPath

inductive ResourceKind where
  | file
  | secret
  | tree
  | directory
  | other
deriving DecidableEq

/-- A receipt.  No entry has an owner, a size or a time that was not recorded. -/
structure OwnedResource where
  path : ManifestPath
  kind : ResourceKind
  sha256 : Option (List UInt8)
  uid : Option Nat
  gid : Option Nat
  device : Option Nat
  inode : Option Nat
  size : Option Nat
  modified : Option Nat
  mode : Option Nat
deriving DecidableEq

/-- The fields of an instance and of its specification that `_validate` and `_purge` read. -/
structure Instance where
  native : Bool
  manifest : ManifestPath
  profile : ManifestPath
  filesDir : ManifestPath
  stateDir : ManifestPath
  resources : List OwnedResource
  /-- The paths of the receipts of access. -/
  acl : List ManifestPath

section Receipts

variable (kernel : Kernel) (sha256 : List UInt8 → List UInt8) (disk : HostDisk)

def nodeAttributes : HostNode → Attributes
  | .file _ attributes => attributes
  | .directory attributes => attributes
  -- The mode of a link always allows everything.
  | .link _ uid gid => { mode := 0o777, uid := uid, gid := gid }

/-- The part of `resource_unchanged` that asks for the kind of entry and its identity. -/
def sameEntry (resource : OwnedResource) (place : Place) (node : HostNode) : Bool :=
  match resource.kind, node with
  | .file, .file content _ =>
    disk.linkCount place = 1 && resource.sha256 = some (sha256 content)
  | .secret, .file content _ =>
    disk.linkCount place = 1 && resource.device = some (disk.identity place).1 &&
      resource.inode = some (disk.identity place).2 &&
      resource.size = some content.length && resource.modified = some (disk.modified place)
  | .tree, .directory _ | .directory, .directory _ | .other, .directory _ =>
    resource.device = some (disk.identity place).1 && resource.inode = some (disk.identity place).2
  | .file, .directory _ | .file, .link _ _ _ | .secret, .directory _ | .secret, .link _ _ _
  | .tree, .file _ _ | .tree, .link _ _ _ | .directory, .file _ _ | .directory, .link _ _ _
  | .other, .file _ _ | .other, .link _ _ _ => false

def resourceUnchanged (resource : OwnedResource) : Bool :=
  match locate kernel disk.tree resource.path.hostPath with
  | none => false
  | some place =>
    match disk.tree.node place with
    | none => false
    | some node =>
      if resource.uid ≠ some (nodeAttributes node).uid ∨
          resource.gid ≠ some (nodeAttributes node).gid then
        false
      else if ∃ mode ∈ resource.mode, mode ≠ (nodeAttributes node).mode then false
      else sameEntry sha256 disk resource place node

end Receipts

structure NativeLayout where
  configDir : ManifestPath
  dataRoot : ManifestPath

def manifestName : EntryName := ⟨"deployment.json".toList, by decide⟩

def nativeProfileName : EntryName := ⟨"profile.ini".toList, by decide⟩

def retainedStateName : EntryName := ⟨"retained-state".toList, by decide⟩

def profileName : EntryName := ⟨"xferry.ini".toList, by decide⟩

def stateName : EntryName := ⟨"state".toList, by decide⟩

def runtimeName : EntryName := ⟨"runtime.ini".toList, by decide⟩

def composeName : EntryName := ⟨"compose.yaml".toList, by decide⟩

def secretsName : EntryName := ⟨"secrets".toList, by decide⟩

def authName : EntryName := ⟨"xferry_auth".toList, by decide⟩

def historyName : EntryName := ⟨".xferry-history.json".toList, by decide⟩

def lockName : EntryName := ⟨".xferry.ini.lock".toList, by decide⟩

/-- `NativeBackend._validate`. -/
def nativeValidate (layout : NativeLayout) (item : Instance) : Bool :=
  item.native && item.manifest = layout.configDir.child manifestName &&
    item.profile = layout.configDir.child nativeProfileName && item.stateDir = layout.dataRoot

def allowedPaths (output : ManifestPath) : List ManifestPath :=
  [output, output.child profileName, output.child runtimeName, output.child composeName,
    (output.child secretsName).child authName, output.child historyName]

section Validation

variable (kernel : Kernel) (sha256 : List UInt8 → List UInt8) (disk : HostDisk)

def meetsLink (doubled : Bool) : List EntryName → Bool
  | [] => false
  | name :: up =>
    isSymlink kernel disk.tree (ManifestPath.mk doubled (name :: up)).hostPath ||
      meetsLink doubled up

def isProtected (operator : Nat) (path : ManifestPath) : Bool :=
  match follow kernel disk.tree path.hostPath with
  | none => true
  | some place =>
    (disk.tree.node place).all fun node =>
      (nodeAttributes node).uid = operator && (nodeAttributes node).mode &&& 0o022 = 0

/-- `ComposeBackend._validate`. -/
def composeValidate (operator : Nat) (item : Instance) : Bool :=
  let output := item.manifest.parent
  !item.native && item.profile = output.child profileName &&
    item.stateDir = output.child stateName &&
    ((item.manifest :: allowedPaths output).all fun path =>
      !meetsLink kernel disk path.doubled path.components) &&
    isProtected kernel disk operator output && isProtected kernel disk operator item.manifest &&
    (item.resources.all fun resource =>
      resource.path ∈ allowedPaths output &&
        !(resource.kind = .directory && resource.path = output &&
          !resourceUnchanged kernel sha256 disk resource)) &&
    item.acl.all fun path => path = item.filesDir

def validate (layout : NativeLayout) (operator : Nat) (item : Instance) : Bool :=
  if item.native then nativeValidate layout item
  else composeValidate kernel sha256 disk operator item

end Validation

structure PurgeWorld where
  disk : HostDisk
  retained : List ManifestPath

abbrev PurgeProgram := Program PurgeWorld Unit

section Deletion

variable (kernel : Kernel) (sha256 : List UInt8 → List UInt8)

def unlink (path : ManifestPath) (disk : HostDisk) : Option HostDisk :=
  match locate kernel disk.tree path.hostPath with
  | none => none
  | some place =>
    match disk.tree.node place with
    | none => none
    | some node => if node.isDirectory then none else some (disk.remove place)

/-- `shutil.rmtree`, which follows no link below the path and refuses one at it. -/
def rmtree (path : ManifestPath) (disk : HostDisk) : Option HostDisk :=
  match locate kernel disk.tree path.hostPath with
  | none => none
  | some place =>
    if holdsDirectory (disk.tree.node place) then some (disk.remove place) else none

def rmdir (path : ManifestPath) (disk : HostDisk) : Option HostDisk :=
  match locate kernel disk.tree path.hostPath with
  | none => none
  | some place =>
    if place ≠ [] ∧ holdsDirectory (disk.tree.node place) ∧ disk.children place = [] then
      some (disk.remove place)
    else none

def iterdir (path : ManifestPath) (disk : HostDisk) : Option (List EntryName) :=
  match follow kernel disk.tree path.hostPath with
  | none => none
  | some place =>
    if holdsDirectory (disk.tree.node place) then some (disk.children place) else none

def attemptCall (change : HostDisk → Option HostDisk) : PurgeProgram Bool := do
  let world ← inspect id
  match change world.disk with
  | none => returning false
  | some disk => do
      durable fun world => { world with disk := disk }
      returning true

def systemCall (change : HostDisk → Option HostDisk) : PurgeProgram Unit := do
  let done ← attemptCall change
  if done then returning () else raise ()

/-- `unlink(missing_ok=True)`. -/
def unlinkIfThere (path : ManifestPath) : PurgeProgram Unit := do
  let world ← inspect id
  if (locate kernel world.disk.tree path.hostPath).any world.disk.holds then
    systemCall (unlink kernel path)
  else returning ()

def retain (paths : List ManifestPath) : PurgeProgram Unit :=
  record fun world => { world with retained := world.retained ++ paths }

def purgeChild (filesDir child : ManifestPath) : PurgeProgram Unit := do
  let world ← inspect id
  if filesDir.isRelativeTo child then returning ()
  else if isSymlink kernel world.disk.tree child.hostPath then retain [child]
  else if isDir kernel world.disk.tree child.hostPath then systemCall (rmtree kernel child)
  else systemCall (unlink kernel child)

def purgeFile (resource : OwnedResource) : PurgeProgram Unit := do
  let world ← inspect id
  if resourceUnchanged kernel sha256 world.disk resource then
    systemCall (unlink kernel resource.path)
  else retain [resource.path]

def purgeTree (filesDir : ManifestPath) (resource : OwnedResource) : PurgeProgram Unit := do
  let world ← inspect id
  if resourceUnchanged kernel sha256 world.disk resource then
    match iterdir kernel resource.path world.disk with
    | none => raise ()
    | some names => do
        forEach (fun name => purgeChild kernel filesDir (resource.path.child name)) names
        let _ ← attemptCall (rmdir kernel resource.path)
  else retain [resource.path]

def purgeResource (item : Instance) (resource : OwnedResource) : PurgeProgram Unit := do
  let world ← inspect id
  if pathExists kernel world.disk.tree resource.path.hostPath then
    match resource.kind with
    | .file | .secret => purgeFile kernel sha256 resource
    | .tree =>
      if item.native then purgeTree kernel sha256 item.filesDir resource else returning ()
    | .directory | .other => returning ()
  else returning ()

def leaveDirectory (folder : ManifestPath) (keeps : EntryName → Bool) : PurgeProgram Unit := do
  let gone ← attemptCall (rmdir kernel folder)
  if gone then returning ()
  else do
    let world ← inspect id
    match iterdir kernel folder world.disk with
    | none => raise ()
    | some names => retain ((names.filter keeps).map folder.child)

/-- `NativeBackend._purge`. -/
def nativePurge (item : Instance) : PurgeProgram Unit := do
  forEach (purgeResource kernel sha256 item) item.resources
  unlinkIfThere kernel (item.manifest.parent.child retainedStateName)
  systemCall (unlink kernel item.manifest)
  leaveDirectory kernel item.manifest.parent fun _ => true

/-- `ComposeBackend._purge`, and what `operate` does after it. -/
def composePurge (item : Instance) : PurgeProgram Unit := do
  forEach (purgeResource kernel sha256 item) item.resources
  systemCall (unlink kernel item.manifest)
  let _ ← attemptCall (rmdir kernel (item.profile.parent.child secretsName))
  leaveDirectory kernel item.profile.parent fun name => name ≠ lockName
  unlinkIfThere kernel (item.profile.parent.child lockName)
  let _ ← attemptCall (rmdir kernel item.manifest.parent)

def purge (item : Instance) : PurgeProgram Unit :=
  if item.native then nativePurge kernel sha256 item else composePurge kernel sha256 item

/-- The purge starts with the files directory on its list, and the directories whose access
was not restored. -/
def start (item : Instance) (kept : List ManifestPath) (disk : HostDisk) : PurgeWorld :=
  { disk := disk, retained := item.filesDir :: kept }

end Deletion

end XFerry.Management.Purge
