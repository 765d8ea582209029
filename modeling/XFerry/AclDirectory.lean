/-
A directory with access control lists: how the mode and the access list hang together, and
what the system calls on them do.

A list that says no more than the mode is not kept.  Setting a list sets the mode; removing
it leaves the mode; setting the mode sets the entries that stand for it.
-/

import XFerry.PosixAcl

namespace XFerry.PosixAcl

def userBits (mode : Nat) : Nat := (mode >>> 6) &&& 7

def groupBits (mode : Nat) : Nat := (mode >>> 3) &&& 7

def otherBits (mode : Nat) : Nat := mode &&& 7

def withPermissions (mode user group other : Nat) : Nat :=
  mode / 512 * 512 + 64 * user + 8 * group + other

section

variable (mode : Nat)
include mode

theorem userBits_eq : userBits mode = mode / 64 % 8 := by
  rw [userBits, Nat.and_two_pow_sub_one_eq_mod _ 3, Nat.shiftRight_eq_div_pow]

theorem groupBits_eq : groupBits mode = mode / 8 % 8 := by
  rw [groupBits, Nat.and_two_pow_sub_one_eq_mod _ 3, Nat.shiftRight_eq_div_pow]

theorem otherBits_eq : otherBits mode = mode % 8 := by
  rw [otherBits, Nat.and_two_pow_sub_one_eq_mod _ 3]

theorem userBits_lt : userBits mode < 8 := by
  rw [userBits_eq]
  omega

theorem groupBits_lt : groupBits mode < 8 := by
  rw [groupBits_eq]
  omega

theorem otherBits_lt : otherBits mode < 8 := by
  rw [otherBits_eq]
  omega

end

section Bits

variable {mode user group other : Nat}

theorem userBits_withPermissions (isUser : user < 8) (isGroup : group < 8) (isOther : other < 8) :
    userBits (withPermissions mode user group other) = user := by
  rw [userBits_eq, withPermissions]
  omega

theorem groupBits_withPermissions (isGroup : group < 8) (isOther : other < 8) :
    groupBits (withPermissions mode user group other) = group := by
  rw [groupBits_eq, withPermissions]
  omega

theorem otherBits_withPermissions (isOther : other < 8) :
    otherBits (withPermissions mode user group other) = other := by
  rw [otherBits_eq, withPermissions]
  omega

theorem withPermissions_self (mode : Nat) :
    withPermissions mode (userBits mode) (groupBits mode) (otherBits mode) = mode := by
  rw [withPermissions, userBits_eq, groupBits_eq, otherBits_eq]
  omega

end Bits

/-- What the list says to the owner, through the mask, and to the others. -/
structure Agrees (mode : Nat) (entries : List AclEntry) : Prop where
  owner : permissionOf entries ownerTag undefinedId = some (userBits mode)
  mask : permissionOf entries maskTag undefinedId = some (groupBits mode)
  other : permissionOf entries otherTag undefinedId = some (otherBits mode)

def aclMode (mode : Nat) (entries : List AclEntry) : Nat :=
  let owningGroup := (permissionOf entries owningGroupTag undefinedId).getD 0
  withPermissions mode ((permissionOf entries ownerTag undefinedId).getD 0)
    ((permissionOf entries maskTag undefinedId).getD owningGroup)
    ((permissionOf entries otherTag undefinedId).getD 0)

variable {entries : List AclEntry} {mode : Nat}

theorem aclMode_of_agrees (agrees : Agrees mode entries) (before : Nat) : aclMode before entries =
      withPermissions before (userBits mode) (groupBits mode) (otherBits mode) := by
  unfold aclMode
  rw [agrees.owner, agrees.mask, agrees.other]
  rfl

theorem aclMode_self (agrees : Agrees mode entries) : aclMode mode entries = mode := by
  rw [aclMode_of_agrees agrees, withPermissions_self]

theorem agrees_aclMode (formed : WellFormed entries) {permission : Nat}
    (masked : permissionOf entries maskTag undefinedId = some permission) (mode : Nat) :
    Agrees (aclMode mode entries) entries := by
  obtain ⟨owner, isOwner, ownerLow⟩ := permissionOf_present formed List.mem_cons_self
  obtain ⟨other, isOther, otherLow⟩ :=
    permissionOf_present formed
      (List.mem_cons_of_mem _ (List.mem_cons_of_mem _ (List.mem_singleton_self _)))
  have maskLow := permissionOf_lt formed masked
  have modeIs : aclMode mode entries = withPermissions mode owner permission other := by
    unfold aclMode
    rw [isOwner, isOther, masked]
    rfl
  rw [modeIs]
  refine ⟨?_, ?_, ?_⟩
  · rw [userBits_withPermissions ownerLow maskLow otherLow, isOwner]
  · rw [groupBits_withPermissions maskLow otherLow, masked]
  · rw [otherBits_withPermissions otherLow, isOther]

def chmodEntry (mode : Nat) (entry : AclEntry) : AclEntry :=
  if entry.tag = ownerTag then { entry with permission := userBits mode }
  else if entry.tag = maskTag then { entry with permission := groupBits mode }
  else if entry.tag = otherTag then { entry with permission := otherBits mode }
  else entry

theorem chmodEntry_key (mode : Nat) (entry : AclEntry) :
    (chmodEntry mode entry).key = entry.key := by
  unfold chmodEntry
  split
  · rfl
  split
  · rfl
  · split <;> rfl

theorem chmodEntry_permission {entry : AclEntry} (low : entry.permission < 8) :
    (chmodEntry mode entry).permission < 8 := by
  unfold chmodEntry
  split
  · exact userBits_lt mode
  split
  · exact groupBits_lt mode
  split
  · exact otherBits_lt mode
  · exact low

theorem chmod_wellFormed (formed : WellFormed entries) (mode : Nat) :
    WellFormed (entries.map (chmodEntry mode)) :=
  formed.map (chmodEntry_key mode) fun entry member =>
    chmodEntry_permission (formed.valid entry member).permission

theorem chmod_agrees {before : Nat} (formed : WellFormed entries)
    (agrees : Agrees before entries) (mode : Nat) :
    Agrees mode (entries.map (chmodEntry mode)) := by
  have found {tag permission : Nat}
      (present : permissionOf entries tag undefinedId = some permission) :
      permissionOf (entries.map (chmodEntry mode)) tag undefinedId =
        some (chmodEntry mode
          { tag := tag, permission := permission, identity := undefinedId }).permission := by
    have member := (permissionOf_eq_some formed.distinct).mp present
    have changed : chmodEntry mode
        { tag := tag, permission := permission, identity := undefinedId } =
          { tag := tag, permission := _, identity := undefinedId } :=
      AclEntry.eq_of_key (congrArg Prod.fst (chmodEntry_key mode _))
        (congrArg Prod.snd (chmodEntry_key mode _))
    refine (permissionOf_eq_some (chmod_wellFormed formed mode).distinct).mpr ?_
    rw [← changed]
    exact List.mem_map_of_mem member
  exact ⟨found agrees.owner, found agrees.mask, found agrees.other⟩

theorem chmod_self (formed : WellFormed entries)
    (agrees : Agrees mode entries) : entries.map (chmodEntry mode) = entries := by
  have same {entry : AclEntry} (member : entry ∈ entries) {tag permission : Nat}
      (isTag : entry.tag = tag) (unnamed : tag ≠ userTag ∧ tag ≠ groupTag)
      (found : permissionOf entries tag undefinedId = some permission) :
      entry.permission = permission := by
    have identity := (formed.valid entry member).identity
    rw [AclEntry.named, isTag, decide_eq_false unnamed.1, decide_eq_false unnamed.2,
      Bool.or_false, if_neg Bool.false_ne_true] at identity
    rw [AclEntry.eq_of_key isTag identity, ← permissionOf_eq_some formed.distinct, found] at member
    exact (Option.some.inj member).symm
  rw [List.map_congr_left, List.map_id]
  intro entry member
  unfold chmodEntry
  split
  · case isTrue isTag =>
      rw [← same member isTag (by decide) agrees.owner]
      rfl
  split
  · case isTrue isTag =>
      rw [← same member isTag (by decide) agrees.mask]
      rfl
  split
  · case isTrue isTag =>
      rw [← same member isTag (by decide) agrees.other]
      rfl
  · rfl

@[ext]
structure AclDirectory where
  owner : Nat
  group : Nat
  device : Nat
  inode : Nat
  mode : Nat
  access : Option (List AclEntry)
  inherited : Option (List AclEntry)
  accessFormed : ∀ entries ∈ access, WellFormed entries ∧ Agrees mode entries
  ownerValid : owner < undefinedId
  inheritedFormed : ∀ entries ∈ inherited, WellFormed entries

namespace AclDirectory

variable (directory : AclDirectory)

def putAccess (entries : List AclEntry) (formed : WellFormed entries) : AclDirectory :=
  { directory with
    mode := aclMode directory.mode entries
    access := if (permissionOf entries maskTag undefinedId).isSome then some entries else none
    accessFormed := by
      intro kept isKept
      split at isKept
      · case isTrue isMasked =>
          obtain rfl := Option.some.inj isKept
          obtain ⟨permission, masked⟩ := Option.isSome_iff_exists.mp isMasked
          exact ⟨formed, agrees_aclMode formed masked directory.mode⟩
      · cases isKept }

/-- `setxattr` of the access list, which refuses what is not well formed. -/
def setAccess (value : List UInt8) : Option AclDirectory :=
  match ofXattr value with
  | none => none
  | some entries =>
    if formed : WellFormed entries then some (directory.putAccess entries formed) else none

def removeAccess : AclDirectory :=
  { directory with
    access := none
    accessFormed := nofun }

def putInherited (entries : List AclEntry) (formed : WellFormed entries) : AclDirectory :=
  { directory with
    inherited := some entries
    inheritedFormed := by
      intro kept isKept
      obtain rfl := Option.some.inj isKept
      exact formed }

/-- `setxattr` of the default list. -/
def setInherited (value : List UInt8) : Option AclDirectory :=
  match ofXattr value with
  | none => none
  | some entries =>
    if formed : WellFormed entries then some (directory.putInherited entries formed) else none

def removeInherited : AclDirectory :=
  { directory with
    inherited := none
    inheritedFormed := nofun }

/-- `fchmod`. -/
def chmod (mode : Nat) : AclDirectory :=
  { directory with
    mode := mode
    access := directory.access.map (List.map (chmodEntry mode))
    accessFormed := by
      intro entries isAccess
      obtain ⟨before, wasAccess, rfl⟩ := Option.map_eq_some_iff.mp isAccess
      obtain ⟨formed, agrees⟩ := directory.accessFormed before wasAccess
      exact ⟨chmod_wellFormed formed mode, chmod_agrees formed agrees mode⟩ }

variable {directory}

theorem setAccess_toXattr (formed : WellFormed entries) :
    directory.setAccess (toXattr entries) = some (directory.putAccess entries formed) := by
  rw [setAccess, ofXattr_toXattr formed.valid]
  exact dif_pos formed

theorem setInherited_toXattr (formed : WellFormed entries) :
    directory.setInherited (toXattr entries) = some (directory.putInherited entries formed) := by
  rw [setInherited, ofXattr_toXattr formed.valid]
  exact dif_pos formed

theorem access_putAccess (formed : WellFormed entries)
    {permission : Nat} (masked : permissionOf entries maskTag undefinedId = some permission) :
    (directory.putAccess entries formed).access = some entries := by
  show (if _ then some entries else none) = _
  rw [masked, Option.isSome_some, if_pos rfl]

end AclDirectory

end XFerry.PosixAcl
