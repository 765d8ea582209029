/-
`FilesystemTransaction`: operations on managed paths that record the first state of each,
and the rollback that restores them in reverse order.

A temporary file comes and goes within one call and is not part of the tree.  A walk follows
links as the system does, so what a path names can change with the tree.
-/

import XFerry.CrashProgram
import XFerry.HostTree
import XFerry.Server.StoredFiles

namespace XFerry.Management.FilesystemTransaction

open CrashProgram Program
open Server (FilePath)

/-- A component of a path.  `Path` drops empty and current ones. -/
abbrev PathName := { name : Name // IsEntryName name ∨ name = parentName }

abbrev HostPath := List PathName

def namesUp (path : HostPath) : List Name := path.map Subtype.val

structure Kernel where
  /-- How many links a walk may follow. -/
  links : Nat
  /-- The mode of a regular file after `chown`. -/
  afterChown : Nat → Nat
  /-- The attributes of a new entry. -/
  fresh : Attributes

/-- `str(Path(target))`. -/
def linkText (target : List Char) : List Char :=
  let path := FilePath.join { root := [], parts := [] } target
  if path.root = [] ∧ path.parts = [] then ['.']
  else path.root ++ ['/'].intercalate path.parts

section Paths

variable (kernel : Kernel) (tree : HostTree) (path : HostPath)

def locate : Option Place :=
  match path with
  | [] => some []
  | name :: up =>
    match tree.leadsTo kernel.links (namesUp up).reverse with
    | none => none
    | some place =>
      if holdsDirectory (tree.node place) then
        some (if name.val = parentName then place.dropLast else place ++ [name.val])
      else none

def follow : Option Place := tree.leadsTo kernel.links (namesUp path).reverse

def pathExists : Bool := (follow kernel tree path).isSome

def isDir : Bool := (follow kernel tree path).any fun place => holdsDirectory (tree.node place)

def isFile : Bool := (follow kernel tree path).any fun place => holdsFile (tree.node place)

def isSymlink : Bool := (locate kernel tree path).any fun place => holdsLink (tree.node place)

def unlinkEntry : Option HostTree :=
  match locate kernel tree path with
  | none => none
  | some place =>
    match tree.node place with
    | none => none
    | some node => if node.isDirectory then none else some (tree.remove place)

def removeTree : Option HostTree :=
  match locate kernel tree path with
  | none => none
  | some place => if holdsDirectory (tree.node place) then some (tree.remove place) else none

def mkdir : Option HostTree :=
  match locate kernel tree path with
  | none => none
  | some place =>
    match tree.node place with
    | some _ => none
    | none => tree.put place (.directory kernel.fresh)

def chmod (mode : Nat) : Option HostTree :=
  match follow kernel tree path with
  | none => none
  | some place =>
    match tree.node place with
    | some (.directory attributes) => tree.put place (.directory { attributes with mode := mode })
    | some (.file content attributes) =>
      tree.put place (.file content { attributes with mode := mode })
    | some (.link _ _ _) | none => none

def chown (uid gid : Nat) : Option HostTree :=
  match follow kernel tree path with
  | none => none
  | some place =>
    match tree.node place with
    | some (.directory attributes) =>
      tree.put place (.directory { attributes with uid := uid, gid := gid })
    | some (.file content attributes) =>
      tree.put place
        (.file content { mode := kernel.afterChown attributes.mode, uid := uid, gid := gid })
    | some (.link _ _ _) | none => none

/-- `replace` of a temporary file, which has been given its mode and its owner. -/
def replaceWith (content : List UInt8) (mode uid gid : Nat) : Option HostTree :=
  match locate kernel tree path with
  | none => none
  | some place =>
    tree.put place (.file content { mode := kernel.afterChown mode, uid := uid, gid := gid })

def symlinkTo (target : List Char) : Option HostTree :=
  match locate kernel tree path with
  | none => none
  | some place =>
    match tree.node place with
    | some _ => none
    | none => tree.put place (.link target kernel.fresh.uid kernel.fresh.gid)

/-- `chown` that does not follow a link. -/
def lchown (uid gid : Nat) : Option HostTree :=
  match locate kernel tree path with
  | none => none
  | some place =>
    match tree.node place with
    | some (.link target _ _) => tree.put place (.link target uid gid)
    | some (.file _ _) | some (.directory _) | none => none

end Paths

/-- An entry of `_states`, with the tree as it was and the place that the path had there. -/
structure Recorded where
  path : HostPath
  state : Option HostNode
  place : Place
  before : HostTree

structure TransactionWorld where
  tree : HostTree
  /-- `_states`, in `_order`. -/
  states : List Recorded
  retained : List HostPath
  /-- The directories that were made without a record. -/
  made : List Place
  /-- No path was touched so far in a way that its restoration does not undo. -/
  plain : Bool

def TransactionWorld.start (tree : HostTree) : TransactionWorld :=
  { tree := tree, states := [], retained := [], made := [], plain := true }

abbrev TransactionProgram := Program TransactionWorld Unit Unit

variable (kernel : Kernel)

def syscall (change : HostTree → Option HostTree) : TransactionProgram := do
  let world ← inspect id
  match change world.tree with
  | none => raise ()
  | some tree => durable fun world => { world with tree := tree }

/-- `mkdir` of one directory, where an entry that is there may be accepted. -/
def makeDirectory (unrecorded existOk : Bool) (path : HostPath) : TransactionProgram := do
  let world ← inspect id
  match locate kernel world.tree path, mkdir kernel world.tree path with
  | some place, some tree =>
    durable fun world =>
      { world with
        tree := tree
        made := if unrecorded then place :: world.made else world.made }
  | _, _ => if existOk && isDir kernel world.tree path then returning () else raise ()

/-- `mkdir(parents=True)`. -/
def makeParents (unrecorded : Bool) : (existOk : Bool) → HostPath → TransactionProgram
  | existOk, [] => makeDirectory kernel unrecorded existOk []
  | existOk, name :: up => do
      let world ← inspect id
      if (locate kernel world.tree (name :: up)).isNone then makeParents unrecorded true up
      makeDirectory kernel unrecorded existOk (name :: up)

def removeCurrent (path : HostPath) : TransactionProgram := do
  let world ← inspect id
  if isSymlink kernel world.tree path || isFile kernel world.tree path then
    syscall fun tree => unlinkEntry kernel tree path
  else if isDir kernel world.tree path then syscall fun tree => removeTree kernel tree path
  else returning ()

/-- `_atomic_replace`: the temporary file needs the directory, and so does its `fsync`. -/
def atomicReplace (path : HostPath) (content : List UInt8) (mode uid gid : Nat) :
    TransactionProgram := do
  let world ← inspect id
  if isDir kernel world.tree path.tail then
    syscall fun tree => replaceWith kernel tree path content mode uid gid
    let world ← inspect id
    if isDir kernel world.tree path.tail then returning () else raise ()
  else raise ()

/-- What `_capture` keeps of an entry: the target of a link goes through a `Path`. -/
def captured : Option HostNode → Option HostNode
  | some (.link target uid gid) => some (.link (linkText target) uid gid)
  | node => node

def Recorded.hasPath (path : HostPath) (recorded : Recorded) : Bool := recorded.path = path

/-- Whether the restoration of the record puts back what was at the place.  That of a link
takes away all that is below it. -/
def Recorded.covers (recorded : Recorded) (place : Place) : Bool :=
  if holdsLink (recorded.before.node recorded.place) then recorded.place.isPrefixOf place
  else recorded.place = place

def Recorded.ofFile (recorded : Recorded) : Bool :=
  holdsFile (recorded.before.node recorded.place)

/-- Whether `ensure_directory` or `atomic_write` touches the path in a way that the
restoration undoes.  A path that is used again leads to a place that is recorded.  A regular
file keeps its mode under `chown`, a link its target through a `Path` and its place without
itself.  No directory takes the place of a file that is recorded. -/
def touchesPlainly (asDirectory : Bool) (path : HostPath) (world : TransactionWorld) : Bool :=
  match locate kernel world.tree path with
  | none => true
  | some place =>
    if world.states.any (Recorded.hasPath path) then
      (world.states.any fun other => other.covers place) &&
        !(asDirectory && holdsFile (world.tree.node place) &&
          world.states.any fun other => other.place = place && other.ofFile)
    else
      match world.tree.node place with
      | some (.file _ attributes) =>
        kernel.afterChown attributes.mode = attributes.mode && !asDirectory
      | some (.link target _ _) =>
        linkText target = target && locate kernel (world.tree.remove place) path = some place
      | some (.directory _) | none => true

def remember (asDirectory : Bool) (path : HostPath) : TransactionProgram := do
  durable fun world =>
    { world with plain := world.plain && touchesPlainly kernel asDirectory path world }
  let world ← inspect id
  if world.states.any (Recorded.hasPath path) then returning ()
  else
    match locate kernel world.tree path with
    -- The parent leads to a directory by now; where it leads to a file, `lstat` raises.
    | none => raise ()
    | some place =>
      durable fun world =>
        { world with
          states := world.states ++
            [{ path := path
               state := captured (world.tree.node place)
               place := place
               before := world.tree }] }

/-- `ensure_directory` of a path whose parent exists. -/
def ensureHere (path : HostPath) (mode uid gid : Nat) : TransactionProgram := do
  remember kernel true path
  let world ← inspect id
  if isSymlink kernel world.tree path ||
      (pathExists kernel world.tree path && !isDir kernel world.tree path) then
    removeCurrent kernel path
  makeDirectory kernel false true path
  syscall fun tree => chmod kernel tree path mode
  syscall fun tree => chown kernel tree path uid gid

def ensureDirectory : HostPath → (mode uid gid : Nat) → TransactionProgram
  | [], mode, uid, gid => ensureHere kernel [] mode uid gid
  | name :: up, mode, uid, gid => do
      let world ← inspect id
      if !pathExists kernel world.tree up then ensureDirectory up 0o755 0 0
      ensureHere kernel (name :: up) mode uid gid

def atomicWrite (path : HostPath) (content : List UInt8) (mode uid gid : Nat) :
    TransactionProgram := do
  let world ← inspect id
  if !pathExists kernel world.tree path.tail then ensureDirectory kernel path.tail 0o755 0 0
  remember kernel false path
  atomicReplace kernel path content mode uid gid

def retainDirectory (path : HostPath) : TransactionProgram :=
  durable fun world => { world with retained := path :: world.retained }

def ensureRetainedDirectory (path : HostPath) (mode uid gid : Nat) : TransactionProgram := do
  retainDirectory path
  let world ← inspect id
  if !pathExists kernel world.tree path then
    makeParents kernel true false path
    syscall fun tree => chmod kernel tree path mode
    syscall fun tree => chown kernel tree path uid gid

inductive TransactionOperation where
  | ensureDirectory (path : HostPath) (mode uid gid : Nat)
  | atomicWrite (path : HostPath) (content : List UInt8) (mode uid gid : Nat)
  | ensureRetainedDirectory (path : HostPath) (mode uid gid : Nat)
  | retainDirectory (path : HostPath)

def perform : TransactionOperation → TransactionProgram
  | .ensureDirectory path mode uid gid => ensureDirectory kernel path mode uid gid
  | .atomicWrite path content mode uid gid => atomicWrite kernel path content mode uid gid
  | .ensureRetainedDirectory path mode uid gid => ensureRetainedDirectory kernel path mode uid gid
  | .retainDirectory path => retainDirectory path

def aboveRetained (retained : List HostPath) (names : List Name) : Bool :=
  retained.any fun kept => names.isSuffixOf (namesUp kept)

def pruneChildren (retained : List HostPath) (path : HostPath) (place : Place) (tree : HostTree) :
    HostTree where
  node other :=
    if place <+: other ∧ ((other.drop place.length).head?.any fun name =>
        !aboveRetained retained (name :: namesUp path)) then
      none
    else tree.node other
  root := by
    rw [if_neg]
    · exact tree.root
    · rintro ⟨before, gone⟩
      rw [List.prefix_nil.mp before] at gone
      cases gone
  nested := by
    intro parent name found
    split at found
    · exact absurd rfl found
    rename_i stays
    rw [if_neg]
    · exact tree.nested parent name found
    · rintro ⟨before, gone⟩
      refine stays ⟨before.trans (List.prefix_append parent [name]), ?_⟩
      rw [List.drop_append_of_le_length before.length_le]
      cases isRest : parent.drop place.length with
      | nil =>
        rw [isRest] at gone
        cases gone
      | cons first rest =>
        rw [isRest] at gone
        exact gone
  named := by
    intro parent name found
    split at found
    · exact absurd rfl found
    · exact tree.named parent name found

def restore (recorded : Recorded) : TransactionProgram :=
  let path := recorded.path
  match recorded.state with
  | none => do
      let world ← inspect id
      if path ∈ world.retained then returning ()
      else if aboveRetained world.retained (namesUp path) then
        match locate kernel world.tree path with
        | none => returning ()
        | some place =>
          if isDir kernel world.tree path && !isSymlink kernel world.tree path then
            syscall fun tree => some (pruneChildren world.retained path place tree)
          else returning ()
      else removeCurrent kernel path
  | some (.file content attributes) => do
      let world ← inspect id
      if !pathExists kernel world.tree path.tail then makeParents kernel false false path.tail
      atomicReplace kernel path content attributes.mode attributes.uid attributes.gid
  | some (.link target uid gid) => do
      removeCurrent kernel path
      syscall fun tree => symlinkTo kernel tree path target
      syscall fun tree => lchown kernel tree path uid gid
  | some (.directory attributes) => do
      let world ← inspect id
      if isSymlink kernel world.tree path ||
          (pathExists kernel world.tree path && !isDir kernel world.tree path) then
        removeCurrent kernel path
      makeParents kernel false true path
      syscall fun tree => chmod kernel tree path attributes.mode
      syscall fun tree => chown kernel tree path attributes.uid attributes.gid

def rollback : TransactionProgram := do
  let world ← inspect id
  forEach (restore kernel) world.states.reverse

/-- A directory that stays for the sake of a retained one: it was made on the way to it, or
was recorded as absent and is the retained directory or above it. -/
def KeptFor (world : TransactionWorld) (place : Place) : Prop :=
  place ∈ world.made ∨ ∃ recorded ∈ world.states, recorded.place = place ∧
    recorded.before.node place = none ∧ aboveRetained world.retained (namesUp recorded.path) = true

/-- Every place is as it was initially, but for directories that stay for the sake of
retained ones. -/
def Restored (initial : HostTree) (world : TransactionWorld) (final : HostTree) : Prop :=
  ∀ place, final.node place = initial.node place ∨
    initial.node place = none ∧ KeptFor world place ∧ holdsDirectory (final.node place) = true

/-- The paths were touched plainly, and no file stands at a path that was absent and is
above a retained directory. -/
def Undoable (world : TransactionWorld) : Prop :=
  world.plain = true ∧
    ∀ recorded ∈ world.states, recorded.before.node recorded.place = none →
      aboveRetained world.retained (namesUp recorded.path) = true →
      holdsFile (world.tree.node recorded.place) = false

instance (world : TransactionWorld) : Decidable (Undoable world) := by
  unfold Undoable
  infer_instance

end XFerry.Management.FilesystemTransaction
