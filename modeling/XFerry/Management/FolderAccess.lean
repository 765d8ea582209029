/-
`grant_directory_access` and `restore_directory_access`: two access control lists of a folder
are set one after the other, and taken back.

Each call on an extended attribute can fail, which changes nothing.  What is taken back after
a failed call is not what a restoration takes back: the mode is left out.
-/

import XFerry.AclDirectory
import XFerry.Management.GrantRights

namespace XFerry.Management

open PosixAcl

structure AccessLists where
  access : Option (List UInt8)
  inherited : Option (List UInt8)
deriving DecidableEq

structure AccessReceipt where
  path : List Char
  uid : Nat
  gid : Nat
  device : Nat
  inode : Nat
  mode : Nat
  before : AccessLists
  after : AccessLists

inductive GrantCall where
  | getAccess
  | getInherited
  | setAccess
  | setInherited
  | undoAccess
  | undoInherited
  | readAccess
  | readInherited
deriving DecidableEq

inductive GrantError where
  | osError
  | valueError

/-- `_get`, or `OSError`. -/
def getLists (accessFails inheritedFails : Bool) (directory : AclDirectory) :
    Except GrantError AccessLists :=
  if accessFails || inheritedFails then .error .osError
  else
    .ok
      { access := directory.access.map toXattr
        inherited := directory.inherited.map toXattr }

/-- `_set` of the access list. -/
def setAccessList (fails : Bool) (value : Option (List UInt8)) (directory : AclDirectory) :
    Option AclDirectory :=
  if fails then none
  else
    match value with
    | some bytes => directory.setAccess bytes
    | none => some directory.removeAccess

/-- `_set` of the default list. -/
def setInheritedList (fails : Bool) (value : Option (List UInt8)) (directory : AclDirectory) :
    Option AclDirectory :=
  if fails then none
  else
    match value with
    | some bytes => directory.setInherited bytes
    | none => some directory.removeInherited

/-- The lists after the grant, or `ValueError`. -/
def grantLists (before : AccessLists) (mode owner uid : Nat) : Option AccessLists := do
  let access ← grant before.access mode uid (some owner)
  let inherited ← grant before.inherited mode uid none
  let inherited ← if owner ≠ uid then grant (some inherited) mode owner none else some inherited
  return { access := some access, inherited := some inherited }

def undoGrant (fails : GrantCall → Bool) (before : AccessLists) (directory : AclDirectory) :
    GrantError × AclDirectory :=
  match setAccessList (fails .undoAccess) before.access directory with
  | none => (.osError, directory)
  | some first =>
    match setInheritedList (fails .undoInherited) before.inherited first with
    | none => (.osError, first)
    | some second => (.valueError, second)

def applyGrant (fails : GrantCall → Bool) (path : List Char) (before after : AccessLists)
    (directory : AclDirectory) : Except GrantError (Option AccessReceipt) × AclDirectory :=
  match setAccessList (fails .setAccess) after.access directory with
  | none =>
    let undone := undoGrant fails before directory
    (.error undone.1, undone.2)
  | some first =>
    match setInheritedList (fails .setInherited) after.inherited first with
    | none =>
      let undone := undoGrant fails before first
      (.error undone.1, undone.2)
    | some second =>
      match getLists (fails .readAccess) (fails .readInherited) second with
      | .error error => (.error error, second)
      | .ok lists =>
        (.ok (some
          { path := path
            uid := directory.owner
            gid := directory.group
            device := directory.device
            inode := directory.inode
            mode := directory.mode
            before := before
            after := lists }), second)

/-- `grant_directory_access` of the opened directory. -/
def grantDirectoryAccess (fails : GrantCall → Bool) (path : List Char) (uid : Nat)
    (directory : AclDirectory) : Except GrantError (Option AccessReceipt) × AclDirectory :=
  if directory.owner = uid ∧ userBits directory.mode = 7 then (.ok none, directory)
  else
    match getLists (fails .getAccess) (fails .getInherited) directory with
    | .error error => (.error error, directory)
    | .ok before =>
      match grantLists before directory.mode directory.owner uid with
      | none => (.error .valueError, directory)
      | some after =>
        if before = after then (.ok none, directory)
        else applyGrant fails path before after directory

inductive RestoreCall where
  | getAccess
  | getInherited
  | setAccess
  | setInherited
  | chmod

/-- `restore_directory_access` of the opened directory. -/
def restoreDirectoryAccess (fails : RestoreCall → Bool) (receipt : AccessReceipt)
    (directory : AclDirectory) : Bool × AclDirectory :=
  if directory.device ≠ receipt.device ∨ directory.inode ≠ receipt.inode ∨
      directory.owner ≠ receipt.uid ∨ directory.group ≠ receipt.gid then (false, directory)
  else
    match getLists (fails .getAccess) (fails .getInherited) directory with
    | .error _ => (false, directory)
    | .ok lists =>
      if lists ≠ receipt.after then (false, directory)
      else
        match setAccessList (fails .setAccess) receipt.before.access directory with
        | none => (false, directory)
        | some first =>
          match setInheritedList (fails .setInherited) receipt.before.inherited first with
          | none => (false, first)
          | some second =>
            if fails .chmod then (false, second) else (true, second.chmod receipt.mode)

section Lists

variable {directory : AclDirectory} {uid : Nat}

def baseAccess (directory : AclDirectory) : List AclEntry :=
  directory.access.getD (modeEntries directory.mode)

def baseInherited (directory : AclDirectory) : List AclEntry :=
  directory.inherited.getD (modeEntries directory.mode)

def grantedAccess (directory : AclDirectory) (uid : Nat) : List AclEntry :=
  grantEntries (baseAccess directory) uid (some directory.owner)

def grantedInherited (directory : AclDirectory) (uid : Nat) : List AclEntry :=
  let first := grantEntries (baseInherited directory) uid none
  if directory.owner ≠ uid then grantEntries first directory.owner none else first

theorem baseAccess_formed : WellFormed (baseAccess directory) := by
  unfold baseAccess
  cases isAccess : directory.access with
  | none => exact modeEntries_wellFormed directory.mode
  | some entries => exact (directory.accessFormed entries isAccess).1

theorem baseInherited_formed : WellFormed (baseInherited directory) := by
  unfold baseInherited
  cases isInherited : directory.inherited with
  | none => exact modeEntries_wellFormed directory.mode
  | some entries => exact directory.inheritedFormed entries isInherited

theorem grantedAccess_formed (isUser : uid < undefinedId) :
    WellFormed (grantedAccess directory uid) := grantEntries_wellFormed baseAccess_formed isUser

theorem grantedInherited_formed (isUser : uid < undefinedId) :
    WellFormed (grantedInherited directory uid) := by
  have first : WellFormed (grantEntries (baseInherited directory) uid none) :=
    grantEntries_wellFormed baseInherited_formed isUser
  unfold grantedInherited
  split
  · exact grantEntries_wellFormed first directory.ownerValid
  · exact first

variable {entries : List AclEntry}

theorem grant_toXattr (formed : WellFormed entries) (mode : Nat)
    (ownerUid : Option Nat) : grant (some (toXattr entries)) mode uid ownerUid =
      some (toXattr (grantEntries entries uid ownerUid)) := by
  have base : grantBase (some (toXattr entries)) mode = some entries := ofXattr_toXattr formed.valid
  rw [grant, base]
  rfl

variable {list : Option (List AclEntry)}

theorem grant_of_list
    (formed : ∀ entries ∈ list, WellFormed entries) (mode : Nat) (ownerUid : Option Nat) :
    grant (list.map toXattr) mode uid ownerUid =
      some (toXattr (grantEntries (list.getD (modeEntries mode)) uid ownerUid)) := by
  cases list with
  | none => rfl
  | some entries => exact grant_toXattr (formed entries rfl) mode ownerUid

def listsOf (directory : AclDirectory) : AccessLists :=
  { access := directory.access.map toXattr
    inherited := directory.inherited.map toXattr }

theorem grantLists_eq (isUser : uid < undefinedId) :
    grantLists (listsOf directory) directory.mode directory.owner uid =
      some { access := some (toXattr (grantedAccess directory uid))
             inherited := some (toXattr (grantedInherited directory uid)) } := by
  have access : grant (listsOf directory).access directory.mode uid (some directory.owner) =
      some (toXattr (grantedAccess directory uid)) :=
    grant_of_list (fun entries isAccess => (directory.accessFormed entries isAccess).1) _ _
  have inherited : grant (listsOf directory).inherited directory.mode uid none =
      some (toXattr (grantEntries (baseInherited directory) uid none)) :=
    grant_of_list directory.inheritedFormed _ _
  unfold grantLists grantedInherited
  rw [access, inherited]
  dsimp only [Option.bind_eq_bind, Option.bind_some]
  by_cases isOwner : directory.owner = uid
  · rw [if_neg (not_not.mpr isOwner), if_neg (not_not.mpr isOwner)]
    rfl
  rw [if_pos isOwner, if_pos isOwner,
    grant_toXattr (grantEntries_wellFormed baseInherited_formed isUser)]
  rfl

theorem toXattr_injective {left right : List AclEntry} (leftFormed : WellFormed left)
    (rightFormed : WellFormed right) (same : toXattr left = toXattr right) : left = right := by
  have read := congrArg ofXattr same
  rw [ofXattr_toXattr leftFormed.valid, ofXattr_toXattr rightFormed.valid] at read
  exact Option.some.inj read

theorem map_toXattr_eq (listFormed : ∀ kept ∈ list, WellFormed kept) (formed : WellFormed entries) :
    list.map toXattr = some (toXattr entries) ↔ list = some entries := by
  constructor
  · intro same
    obtain ⟨kept, isKept, bytes⟩ := Option.map_eq_some_iff.mp same
    rw [isKept, toXattr_injective (listFormed kept isKept) formed bytes]
  · rintro rfl
    rfl

end Lists

end XFerry.Management
