/-
When a folder grant leaves no trace: a failed one leaves the directory as it was, and the
receipt of a successful one restores it.
-/

import XFerry.Management.FolderAccess

namespace XFerry.Management

open PosixAcl

variable {directory changed : AclDirectory} {uid : Nat}

structure SameFolder (first second : AclDirectory) : Prop where
  owner : first.owner = second.owner
  group : first.group = second.group
  device : first.device = second.device
  inode : first.inode = second.inode

theorem SameFolder.refl (directory : AclDirectory) : SameFolder directory directory :=
  ⟨rfl, rfl, rfl, rfl⟩

section

variable (same : SameFolder changed directory)
include same

theorem SameFolder.eq (mode : changed.mode = directory.mode)
    (access : changed.access = directory.access)
    (inherited : changed.inherited = directory.inherited) : changed = directory :=
  AclDirectory.ext same.owner same.group same.device same.inode mode access inherited

theorem setAccessList_back (special : changed.mode / 512 = directory.mode / 512) :
    ∃ undone, setAccessList false (listsOf directory).access changed = some undone ∧
      SameFolder undone directory ∧ undone.access = directory.access ∧
      undone.inherited = changed.inherited ∧
      undone.mode = if directory.access.isSome then directory.mode else changed.mode := by
  unfold listsOf
  cases isAccess : directory.access with
  | none =>
    exact ⟨changed.removeAccess, rfl, ⟨same.owner, same.group, same.device, same.inode⟩,
      rfl, rfl, rfl⟩
  | some entries =>
    obtain ⟨formed, agrees⟩ := directory.accessFormed entries isAccess
    refine ⟨changed.putAccess entries formed, AclDirectory.setAccess_toXattr formed,
      ⟨same.owner, same.group, same.device, same.inode⟩,
      AclDirectory.access_putAccess formed agrees.mask, rfl, ?_⟩
    show aclMode changed.mode entries = directory.mode
    rw [aclMode_of_agrees agrees, withPermissions, special]
    exact withPermissions_self directory.mode

theorem setInheritedList_back :
    ∃ undone, setInheritedList false (listsOf directory).inherited changed = some undone ∧
      SameFolder undone directory ∧ undone.access = changed.access ∧
      undone.inherited = directory.inherited ∧ undone.mode = changed.mode := by
  unfold listsOf
  cases isInherited : directory.inherited with
  | none =>
    exact ⟨changed.removeInherited, rfl, ⟨same.owner, same.group, same.device, same.inode⟩,
      rfl, rfl, rfl⟩
  | some entries =>
    have formed := directory.inheritedFormed entries isInherited
    exact ⟨changed.putInherited entries formed, AclDirectory.setInherited_toXattr formed,
      ⟨same.owner, same.group, same.device, same.inode⟩, rfl, rfl, rfl⟩

end

theorem base_owner : permissionOf (baseAccess directory) ownerTag undefinedId =
    some (userBits directory.mode) := by
  unfold baseAccess
  cases isAccess : directory.access with
  | none => rfl
  | some entries => exact (directory.accessFormed entries isAccess).2.owner

theorem base_other : permissionOf (baseAccess directory) otherTag undefinedId =
    some (otherBits directory.mode) := by
  unfold baseAccess
  cases isAccess : directory.access with
  | none => rfl
  | some entries => exact (directory.accessFormed entries isAccess).2.other

theorem granted_mask (isUser : uid < undefinedId) :
    permissionOf (grantedAccess directory uid) maskTag undefinedId = some 7 :=
  (permissionOf_eq_some (grantedAccess_formed isUser).distinct).mpr
    (mem_grantEntries.mpr (.inr (.inr rfl)))

theorem aclMode_granted (isUser : uid < undefinedId) :
    aclMode directory.mode (grantedAccess directory uid) =
      withPermissions directory.mode
        (if directory.owner = uid then 7 else userBits directory.mode) 7
        (otherBits directory.mode) := by
  have owner : permissionOf (grantedAccess directory uid) ownerTag undefinedId =
      some (if directory.owner = uid then 7 else userBits directory.mode) := by
    unfold grantedAccess
    rw [permissionOf_granted baseAccess_formed (by decide) (fun both => absurd both.1 (by decide)),
      base_owner, Option.map_some, grantedEntry_permission_owner rfl]
    simp only [Option.some.injEq]
  have other : permissionOf (grantedAccess directory uid) otherTag undefinedId =
      some (otherBits directory.mode) := by
    unfold grantedAccess
    rw [permissionOf_granted baseAccess_formed (by decide) (fun both => absurd both.1 (by decide)),
      base_other, Option.map_some, grantedEntry_other rfl]
  unfold aclMode
  rw [owner, granted_mask isUser, other]
  rfl

def withAccess (directory : AclDirectory) (isUser : uid < undefinedId) : AclDirectory :=
  directory.putAccess (grantedAccess directory uid) (grantedAccess_formed isUser)

def withGrant (directory : AclDirectory) (isUser : uid < undefinedId) : AclDirectory :=
  (withAccess directory isUser).putInherited (grantedInherited directory uid)
    (grantedInherited_formed isUser)

section

variable (isUser : uid < undefinedId)
include isUser

theorem withAccess_folder :
    SameFolder (withAccess directory isUser) directory := ⟨rfl, rfl, rfl, rfl⟩

theorem withAccess_access :
    (withAccess directory isUser).access = some (grantedAccess directory uid) :=
  AclDirectory.access_putAccess _ (granted_mask isUser)

theorem withGrant_access :
    (withGrant directory isUser).access = some (grantedAccess directory uid) := by
  have kept : (withGrant directory isUser).access = (withAccess directory isUser).access := rfl
  rw [kept]
  exact withAccess_access isUser

theorem withAccess_mode : (withAccess directory isUser).mode = withPermissions directory.mode
      (if directory.owner = uid then 7 else userBits directory.mode) 7
      (otherBits directory.mode) :=
  aclMode_granted isUser

theorem withAccess_special : (withAccess directory isUser).mode / 512 = directory.mode / 512 := by
  have low := userBits_lt directory.mode
  have otherLow := otherBits_lt directory.mode
  rw [withAccess_mode isUser, withPermissions]
  split <;> omega

theorem withAccess_mode_eq : (withAccess directory isUser).mode = directory.mode ↔
      groupBits directory.mode = 7 ∧ (directory.owner = uid → userBits directory.mode = 7) := by
  rw [withAccess_mode isUser, withPermissions, userBits_eq, groupBits_eq, otherBits_eq]
  by_cases isOwner : directory.owner = uid
  · rw [if_pos isOwner]
    constructor
    · intro same
      exact ⟨by omega, fun _ => by omega⟩
    · rintro ⟨group, user⟩
      omega
  · rw [if_neg isOwner]
    constructor
    · intro same
      exact ⟨by omega, fun owner => absurd owner isOwner⟩
    · omega

theorem withAccess_of_granted (already : directory.access = some (grantedAccess directory uid)) :
    withAccess directory isUser = directory := by
  refine (withAccess_folder isUser).eq ?_ ((withAccess_access isUser).trans already.symm) rfl
  exact aclMode_self (directory.accessFormed _ already).2

end

variable {fails : GrantCall → Bool}

theorem undoGrant_back (undoes : fails .undoAccess = false)
    (same : SameFolder changed directory) (special : changed.mode / 512 = directory.mode / 512)
    (inherited : changed.inherited = directory.inherited) :
    (undoGrant fails (listsOf directory) changed).2 = directory ↔
      directory.access.isSome = true ∨ changed.mode = directory.mode := by
  obtain ⟨undone, isUndone, folder, access, kept, mode⟩ := setAccessList_back same special
  have modes : undone.mode = directory.mode ↔
      directory.access.isSome = true ∨ changed.mode = directory.mode := by
    rw [mode]
    split
    · case isTrue isAccess => exact ⟨fun _ => .inl isAccess, fun _ => rfl⟩
    · case isFalse noAccess => exact ⟨.inr, fun either => either.resolve_left noAccess⟩
  rw [← modes]
  unfold undoGrant
  rw [undoes, isUndone]
  dsimp only
  cases fails .undoInherited with
  | true =>
    constructor
    · intro restored
      have restored : undone = directory := restored
      rw [restored]
    · intro sameMode
      exact folder.eq sameMode access (kept.trans inherited)
  | false =>
    obtain ⟨last, isLast, folder, lastAccess, lastInherited, lastMode⟩ :=
      setInheritedList_back folder
    rw [isLast]
    constructor
    · intro restored
      have restored : last = directory := restored
      rw [← lastMode, restored]
    · intro sameMode
      exact folder.eq (lastMode.trans sameMode) (lastAccess.trans access) lastInherited

theorem undoGrant_self (fails : GrantCall → Bool) :
    (undoGrant fails (listsOf directory) directory).2 = directory := by
  cases undoes : fails .undoAccess with
  | true =>
    unfold undoGrant
    rw [undoes]
    rfl
  | false =>
    exact (undoGrant_back undoes (SameFolder.refl directory) rfl rfl).mpr (.inr rfl)

/-- Whether the access list that has been set can be set back. -/
def AccessUndoable (fails : GrantCall → Bool) (directory : AclDirectory) (uid : Nat) : Prop :=
  directory.access = some (grantedAccess directory uid) ∨
    fails .undoAccess = false ∧
      (directory.access.isSome = true ∨ groupBits directory.mode = 7 ∧ directory.owner ≠ uid)

theorem undoGrant_first (isUser : uid < undefinedId)
    (notOwner : ¬ (directory.owner = uid ∧ userBits directory.mode = 7)) :
    (undoGrant fails (listsOf directory) (withAccess directory isUser)).2 = directory ↔
      AccessUndoable fails directory uid := by
  unfold AccessUndoable
  by_cases already : directory.access = some (grantedAccess directory uid)
  · rw [withAccess_of_granted isUser already]
    exact ⟨fun _ => .inl already, fun _ => undoGrant_self fails⟩
  · cases undoes : fails .undoAccess with
    | true =>
      have stays : (undoGrant fails (listsOf directory) (withAccess directory isUser)).2 =
          withAccess directory isUser := by
        unfold undoGrant
        rw [undoes]
        rfl
      rw [stays]
      constructor
      · intro restored
        have access : (withAccess directory isUser).access =
          some (grantedAccess directory uid) := withAccess_access isUser
        rw [restored] at access
        exact absurd access already
      · rintro (same | ⟨never, _⟩)
        · exact absurd same already
        · cases never
    | false =>
      rw [undoGrant_back undoes (withAccess_folder isUser) (withAccess_special isUser) rfl,
        withAccess_mode_eq isUser]
      constructor
      · rintro (isAccess | ⟨group, user⟩)
        · exact .inr ⟨rfl, .inl isAccess⟩
        · exact .inr ⟨rfl, .inr ⟨group, fun owner => notOwner ⟨owner, user owner⟩⟩⟩
      · rintro (same | ⟨_, isAccess | ⟨group, other⟩⟩)
        · exact absurd same already
        · exact .inl isAccess
        · exact .inr ⟨group, fun owner => absurd owner other⟩

theorem restore_withGrant (isUser : uid < undefinedId) (receipt : AccessReceipt)
    (taken : receipt.uid = directory.owner ∧ receipt.gid = directory.group ∧
      receipt.device = directory.device ∧ receipt.inode = directory.inode ∧
      receipt.mode = directory.mode)
    (before : receipt.before = listsOf directory)
    (after : receipt.after = listsOf (withGrant directory isUser)) :
    restoreDirectoryAccess (fun _ => false) receipt (withGrant directory isUser) =
      (true, directory) := by
  obtain ⟨uidIs, gidIs, deviceIs, inodeIs, modeIs⟩ := taken
  have folder : SameFolder (withGrant directory isUser) directory := ⟨rfl, rfl, rfl, rfl⟩
  have special : (withGrant directory isUser).mode / 512 = directory.mode / 512 := by
    have sameMode : (withGrant directory isUser).mode = (withAccess directory isUser).mode := rfl
    rw [sameMode]
    exact withAccess_special isUser
  obtain ⟨first, isFirst, folder, access, _, _⟩ := setAccessList_back folder special
  obtain ⟨second, isSecond, folder, secondAccess, inherited, _⟩ := setInheritedList_back folder
  have chmods : second.access.map (List.map (chmodEntry directory.mode)) = directory.access := by
    rw [secondAccess, access]
    cases isAccess : directory.access with
    | none => rfl
    | some entries =>
      obtain ⟨formed, agrees⟩ := directory.accessFormed entries isAccess
      exact congrArg some (chmod_self formed agrees)
  have last : second.chmod directory.mode = directory :=
    SameFolder.eq ⟨folder.owner, folder.group, folder.device, folder.inode⟩ rfl chmods inherited
  unfold restoreDirectoryAccess
  rw [uidIs, gidIs, deviceIs, inodeIs, modeIs, before, after, if_neg]
  · have reads : getLists false false (withGrant directory isUser) =
        .ok (listsOf (withGrant directory isUser)) := rfl
    rw [reads]
    dsimp only
    rw [if_neg (not_not.mpr rfl), isFirst]
    dsimp only
    rw [isSecond]
    dsimp only
    rw [if_neg Bool.false_ne_true, last]
  · rintro (different | different | different | different) <;> exact different rfl

structure SetsAccess (fails : GrantCall → Bool) (directory : AclDirectory) (uid : Nat) : Prop where
  notOwner : ¬ (directory.owner = uid ∧ userBits directory.mode = 7)
  reads : fails .getAccess = false ∧ fails .getInherited = false
  missing : ¬ (directory.access = some (grantedAccess directory uid) ∧
    directory.inherited = some (grantedInherited directory uid))
  sets : fails .setAccess = false

/-- Once the access list is set: if the default list cannot be set, the access list can be set
back with the mode that goes with it, and otherwise the lists can be read back. -/
def CleanlyGranted (fails : GrantCall → Bool) (uid : Nat) (directory : AclDirectory) : Prop :=
  SetsAccess fails directory uid →
    if fails .setInherited then AccessUndoable fails directory uid
    else fails .readAccess = false ∧ fails .readInherited = false

theorem setAccessList_granted (isUser : uid < undefinedId) :
    setAccessList false (some (toXattr (grantedAccess directory uid))) directory =
      some (withAccess directory isUser) :=
  AclDirectory.setAccess_toXattr (grantedAccess_formed isUser)

theorem setInheritedList_granted (isUser : uid < undefinedId) :
    setInheritedList false (some (toXattr (grantedInherited directory uid)))
        (withAccess directory isUser) = some (withGrant directory isUser) :=
  AclDirectory.setInherited_toXattr (grantedInherited_formed isUser)

theorem listsOf_granted (isUser : uid < undefinedId) :
    listsOf directory = { access := some (toXattr (grantedAccess directory uid))
                          inherited := some (toXattr (grantedInherited directory uid)) } ↔
      directory.access = some (grantedAccess directory uid) ∧
        directory.inherited = some (grantedInherited directory uid) := by
  rw [listsOf, AccessLists.mk.injEq,
    map_toXattr_eq (fun entries isAccess => (directory.accessFormed entries isAccess).1)
      (grantedAccess_formed isUser),
    map_toXattr_eq directory.inheritedFormed (grantedInherited_formed isUser)]

def LeavesNoTrace (directory : AclDirectory) :
    Except GrantError (Option AccessReceipt) × AclDirectory → Prop
  | (.error _, left) => left = directory
  | (.ok none, left) => left = directory
  | (.ok (some receipt), left) =>
    restoreDirectoryAccess (fun _ => false) receipt left = (true, directory)

def Traceless (fails : GrantCall → Bool) (path : List Char) (uid : Nat)
    (directory : AclDirectory) : Prop :=
  LeavesNoTrace directory (grantDirectoryAccess fails path uid directory)

theorem applyGrant_iff (path : List Char) (isUser : uid < undefinedId)
    (notOwner : ¬ (directory.owner = uid ∧ userBits directory.mode = 7))
    (missing : ¬ (directory.access = some (grantedAccess directory uid) ∧
      directory.inherited = some (grantedInherited directory uid))) :
    LeavesNoTrace directory (applyGrant fails path (listsOf directory)
        { access := some (toXattr (grantedAccess directory uid))
          inherited := some (toXattr (grantedInherited directory uid)) } directory) ↔
      (fails .setAccess = false →
        if fails .setInherited then AccessUndoable fails directory uid
        else fails .readAccess = false ∧ fails .readInherited = false) := by
  unfold applyGrant
  cases fails .setAccess with
  | true => exact ⟨fun _ never => (nomatch never), fun _ => undoGrant_self fails⟩
  | false =>
    rw [setAccessList_granted isUser]
    dsimp only
    cases fails .setInherited with
    | true =>
      refine (undoGrant_first isUser notOwner).trans ?_
      exact ⟨fun undoable _ => undoable, fun undoable => undoable rfl⟩
    | false =>
      rw [setInheritedList_granted isUser, if_neg Bool.false_ne_true]
      have differs : withGrant directory isUser ≠ directory := by
        intro same
        have access : (withGrant directory isUser).access =
          some (grantedAccess directory uid) := withGrant_access isUser
        have inherited : (withGrant directory isUser).inherited =
          some (grantedInherited directory uid) := rfl
        rw [same] at access inherited
        exact missing ⟨access, inherited⟩
      cases fails .readAccess with
      | true => exact ⟨fun same => absurd same differs, fun reads => nomatch (reads rfl).1⟩
      | false =>
        cases fails .readInherited with
        | true =>
          exact ⟨fun same => absurd same differs, fun reads => nomatch (reads rfl).2⟩
        | false =>
          refine ⟨fun _ _ => ⟨rfl, rfl⟩, fun _ => ?_⟩
          exact restore_withGrant isUser _ ⟨rfl, rfl, rfl, rfl, rfl⟩ rfl rfl

/-- For every directory, user and choice of calls that fail: a failed grant leaves the
directory as it was and the receipt of a successful one restores it, exactly if the grant can
be cleanly taken back where it fails. -/
theorem grant_traceless_iff (fails : GrantCall → Bool) (path : List Char) (uid : Nat)
    (directory : AclDirectory) (isUser : uid < undefinedId) :
    Traceless fails path uid directory ↔ CleanlyGranted fails uid directory := by
  unfold Traceless CleanlyGranted grantDirectoryAccess
  by_cases isOwner : directory.owner = uid ∧ userBits directory.mode = 7
  · rw [if_pos isOwner]
    exact ⟨fun _ sets => absurd isOwner sets.notOwner, fun _ => rfl⟩
  rw [if_neg isOwner]
  cases accessRead : fails .getAccess with
  | true =>
    refine ⟨fun _ sets => ?_, fun _ => rfl⟩
    cases accessRead.symm.trans sets.reads.1
  | false =>
    cases inheritedRead : fails .getInherited with
    | true =>
      refine ⟨fun _ sets => ?_, fun _ => rfl⟩
      cases inheritedRead.symm.trans sets.reads.2
    | false =>
      have reads : getLists false false directory = .ok (listsOf directory) := rfl
      rw [reads]
      dsimp only
      rw [grantLists_eq isUser]
      dsimp only
      by_cases missing : directory.access = some (grantedAccess directory uid) ∧
          directory.inherited = some (grantedInherited directory uid)
      · rw [if_pos ((listsOf_granted isUser).mpr missing)]
        exact ⟨fun _ sets => absurd missing sets.missing, fun _ => rfl⟩
      rw [if_neg fun same => missing ((listsOf_granted isUser).mp same)]
      rw [applyGrant_iff path isUser isOwner missing]
      constructor
      · exact fun undoes sets => undoes sets.sets
      · exact fun undoes sets => undoes ⟨isOwner, ⟨accessRead, inheritedRead⟩, missing, sets⟩

theorem wellFormed_of_mem_none :
    ∀ entries ∈ (none : Option (List AclEntry)), WellFormed entries := by
  intro entries member
  cases member

def privateDirectory : AclDirectory :=
  { owner := 1000
    group := 1000
    device := 1
    inode := 2
    mode := 0o750
    access := none
    inherited := none
    accessFormed := nofun
    ownerValid := by decide
    inheritedFormed := wellFormed_of_mem_none }

theorem grant_traceless_private : Traceless (fun _ => false) ['/', 'f'] 998 privateDirectory :=
  (grant_traceless_iff (fun _ => false) ['/', 'f'] 998 privateDirectory (by decide)).mpr
    fun _ => ⟨rfl, rfl⟩

/-- The default list cannot be set, and the mode stays that of the access list. -/
theorem failedGrant_traces :
    ¬ ∀ (fails : GrantCall → Bool) (path : List Char) (uid : Nat) (directory : AclDirectory),
      uid < undefinedId → Traceless fails path uid directory := by
  intro traceless
  have restored := traceless (fun call => call = .setInherited) ['/', 'f'] 998 privateDirectory
    (by decide)
  have raised : (grantDirectoryAccess (fun call => call = .setInherited) ['/', 'f'] 998
      privateDirectory).1.isOk = false := by decide +kernel
  have mode : (grantDirectoryAccess (fun call => call = .setInherited) ['/', 'f'] 998
      privateDirectory).2.mode = 0o770 := by decide +kernel
  unfold Traceless at restored
  cases outcome : grantDirectoryAccess (fun call => call = .setInherited) ['/', 'f'] 998
      privateDirectory with
  | mk answer left =>
    rw [outcome] at restored raised mode
    cases answer with
    | ok receipt => cases raised
    | error error =>
      have same : left = privateDirectory := restored
      have before : left.mode = 0o750 := congrArg AclDirectory.mode same
      cases mode.symm.trans before

end XFerry.Management
