/-
The list that `_grant` makes is well formed, gives the user all rights, and leaves those of
everybody else as they were.
-/

import XFerry.PosixAcl

namespace XFerry.Management

open PosixAcl List AclEntry

def modeEntries (mode : Nat) : List AclEntry :=
  [{ tag := 1, permission := (mode >>> 6) &&& 7, identity := undefinedId },
    { tag := 4, permission := (mode >>> 3) &&& 7, identity := undefinedId },
    { tag := 32, permission := mode &&& 7, identity := undefinedId }]

/-- The entries that a grant starts from, with `none` for `ValueError`. -/
def grantBase (value : Option (List UInt8)) (mode : Nat) : Option (List AclEntry) :=
  match value with
  | none => some (modeEntries mode)
  | some bytes => ofXattr bytes

def maskOf (entries : List AclEntry) : Nat :=
  ((entries.find? fun entry => entry.tag = 16).map permission).getD 7

def premasked (mask : Nat) (entry : AclEntry) : AclEntry :=
  if entry.tag ∈ [2, 4, 8] then { entry with permission := entry.permission &&& mask } else entry

def raisedOwner (entry : AclEntry) : AclEntry :=
  if entry.tag = 1 then { entry with permission := 7 } else entry

/-- The order in which a list is written. -/
def ComesBefore (first second : AclEntry) : Prop :=
  first.tag < second.tag ∨ first.tag = second.tag ∧ first.identity ≤ second.identity

instance : DecidableRel ComesBefore := fun first second => by
  unfold ComesBefore
  infer_instance

def grantedUser (uid : Nat) : AclEntry := { tag := 2, permission := 7, identity := uid }

def fullMask : AclEntry := { tag := 16, permission := 7, identity := undefinedId }

def grantEntries (entries : List AclEntry) (uid : Nat) (ownerUid : Option Nat) : List AclEntry :=
  let kept := (entries.filter fun entry =>
    entry.tag ≠ 16 && !(entry.tag = 2 && entry.identity = uid)).map (premasked (maskOf entries))
  let result :=
    if ownerUid = some uid then kept.map raisedOwner
    else kept ++ [grantedUser uid]
  (result ++ [fullMask]).insertionSort ComesBefore

def grant (value : Option (List UInt8)) (mode uid : Nat) (ownerUid : Option Nat) :
    Option (List UInt8) :=
  (grantBase value mode).map fun entries => toXattr (grantEntries entries uid ownerUid)

section Entries

variable {entries : List AclEntry} {uid : Nat} {ownerUid : Option Nat} {entry : AclEntry}

def grantedEntry (entries : List AclEntry) (uid : Nat) (ownerUid : Option Nat)
    (entry : AclEntry) : AclEntry :=
  if ownerUid = some uid then raisedOwner (premasked (maskOf entries) entry)
  else premasked (maskOf entries) entry

def staysGranted (uid : Nat) (entry : AclEntry) : Bool :=
  entry.tag ≠ 16 && !(entry.tag = 2 && entry.identity = uid)

theorem staysGranted_iff :
    staysGranted uid entry = true ↔ entry.tag ≠ 16 ∧ ¬ (entry.tag = 2 ∧ entry.identity = uid) := by
  simp only [staysGranted, Bool.and_eq_true, decide_eq_true_eq, Bool.not_eq_true',
    Bool.and_eq_false_iff, decide_eq_false_iff_not, not_and_or]

def addedEntries (uid : Nat) (ownerUid : Option Nat) : List AclEntry :=
  (if ownerUid = some uid then [] else [grantedUser uid]) ++ [fullMask]

theorem grantEntries_perm : (grantEntries entries uid ownerUid).Perm
    ((entries.filter (staysGranted uid)).map (grantedEntry entries uid ownerUid) ++
      addedEntries uid ownerUid) := by
  refine (perm_insertionSort ComesBefore _).trans (List.Perm.of_eq ?_)
  unfold addedEntries
  by_cases isOwner : ownerUid = some uid
  · have entryIs : grantedEntry entries uid ownerUid =
        raisedOwner ∘ premasked (maskOf entries) := funext fun _ => if_pos isOwner
    rw [if_pos isOwner, if_pos isOwner, entryIs, map_map, nil_append]
    rfl
  · have entryIs : grantedEntry entries uid ownerUid = premasked (maskOf entries) :=
      funext fun _ => if_neg isOwner
    rw [if_neg isOwner, if_neg isOwner, entryIs, append_assoc]
    rfl

theorem mem_grantEntries : entry ∈ grantEntries entries uid ownerUid ↔
    (∃ old ∈ entries, staysGranted uid old = true ∧ grantedEntry entries uid ownerUid old = entry) ∨
      (ownerUid ≠ some uid ∧ entry = grantedUser uid) ∨ entry = fullMask := by
  rw [grantEntries_perm.mem_iff, mem_append, mem_map, addedEntries, mem_append, mem_singleton]
  refine or_congr ?_ (or_congr ?_ Iff.rfl)
  · simp only [mem_filter, and_assoc]
  · by_cases isOwner : ownerUid = some uid <;> simp [isOwner]

@[simp]
theorem premasked_key (mask : Nat) (entry : AclEntry) : (premasked mask entry).key = entry.key := by
  unfold premasked
  split <;> rfl

@[simp]
theorem raisedOwner_key (entry : AclEntry) : (raisedOwner entry).key = entry.key := by
  unfold raisedOwner
  split <;> rfl

theorem grantedEntry_key (entries : List AclEntry) (uid : Nat) (ownerUid : Option Nat)
    (entry : AclEntry) : (grantedEntry entries uid ownerUid entry).key = entry.key := by
  unfold grantedEntry
  split
  · rw [raisedOwner_key, premasked_key]
  · rw [premasked_key]

theorem grantedEntry_tag (entries : List AclEntry) (uid : Nat) (ownerUid : Option Nat)
    (entry : AclEntry) : (grantedEntry entries uid ownerUid entry).tag = entry.tag :=
  congrArg Prod.fst (grantedEntry_key entries uid ownerUid entry)

theorem grantedEntry_identity (entries : List AclEntry) (uid : Nat) (ownerUid : Option Nat)
    (entry : AclEntry) : (grantedEntry entries uid ownerUid entry).identity = entry.identity :=
  congrArg Prod.snd (grantedEntry_key entries uid ownerUid entry)

theorem grantedEntry_permission_masked (masked : entry.tag ∈ [2, 4, 8]) :
    (grantedEntry entries uid ownerUid entry).permission =
      entry.permission &&& maskOf entries := by
  have tagIs : (premasked (maskOf entries) entry).tag = entry.tag :=
    congrArg Prod.fst (premasked_key (maskOf entries) entry)
  have notOwner : (premasked (maskOf entries) entry).tag ≠ 1 := by
    rw [tagIs]
    intro isOwner
    rw [isOwner] at masked
    revert masked
    decide
  unfold grantedEntry raisedOwner
  rw [if_neg notOwner, ite_self, premasked, if_pos masked]

theorem grantedEntry_permission_owner (isOwner : entry.tag = 1) :
    (grantedEntry entries uid ownerUid entry).permission =
      if ownerUid = some uid then 7 else entry.permission := by
  have same : premasked (maskOf entries) entry = entry := by
    rw [premasked, isOwner]
    rfl
  unfold grantedEntry raisedOwner
  rw [same, if_pos isOwner]
  split <;> rfl

theorem grantedEntry_other (isOther : entry.tag = 32) :
    grantedEntry entries uid ownerUid entry = entry := by
  have same : premasked (maskOf entries) entry = entry := by
    rw [premasked, isOther]
    rfl
  unfold grantedEntry raisedOwner
  have notOwner : entry.tag ≠ 1 := by
    rw [isOther]
    decide
  rw [same, if_neg notOwner, ite_self]

end Entries

variable {entries : List AclEntry} {uid : Nat} {ownerUid : Option Nat}

instance : Std.Total ComesBefore where
  total first second := by
    unfold ComesBefore
    omega

instance : IsTrans AclEntry ComesBefore where
  trans first second third := by
    unfold ComesBefore
    omega

theorem grantEntries_sorted : (grantEntries entries uid ownerUid).Pairwise ComesBefore :=
  pairwise_insertionSort ComesBefore _

variable {permission : Nat}

theorem and_lt_eight (low : permission < 8) (mask : Nat) :
    permission &&& mask < 8 := Nat.lt_of_le_of_lt Nat.and_le_left low

variable {entry : AclEntry}

theorem grantedEntry_valid (valid : entry.Valid) :
    (grantedEntry entries uid ownerUid entry).Valid := by
  have tagIs := grantedEntry_tag entries uid ownerUid entry
  have identityIs := grantedEntry_identity entries uid ownerUid entry
  refine ⟨tagIs ▸ valid.tag, ?_, ?_⟩
  · have low := valid.permission
    have masked : (premasked (maskOf entries) entry).permission < 8 := by
      unfold premasked
      split
      · exact and_lt_eight low _
      · exact low
    unfold grantedEntry raisedOwner
    split
    · split
      · show 7 < 8
        omega
      · exact masked
    · exact masked
  · unfold named
    rw [tagIs, identityIs]
    exact valid.identity

theorem grantedUser_valid (isUser : uid < undefinedId) : (grantedUser uid).Valid where
  tag := by
    show 2 ∈ [1, 2, 4, 8, 16, 32]
    decide
  permission := by
    show 7 < 8
    omega
  identity := by
    exact isUser

theorem fullMask_valid : fullMask.Valid := by decide

theorem grantEntries_distinct (distinct : (entries.map key).Nodup) :
    ((grantEntries entries uid ownerUid).map key).Nodup := by
  rw [(grantEntries_perm.map key).nodup_iff, map_append, map_map]
  have keys : key ∘ grantedEntry entries uid ownerUid = key :=
    funext fun entry => grantedEntry_key entries uid ownerUid entry
  rw [keys, nodup_append]
  refine ⟨distinct.sublist (filter_sublist.map key), ?_, ?_⟩
  · unfold addedEntries
    split
    · simp
    · simp [key, grantedUser, fullMask]
  · intro key isOld other isAdded same
    subst same
    obtain ⟨entry, member, rfl⟩ := mem_map.mp isOld
    obtain ⟨notMask, notUser⟩ := staysGranted_iff.mp (mem_filter.mp member).2
    obtain ⟨added, isAdded, same⟩ := mem_map.mp isAdded
    rcases mem_append.mp isAdded with isUser | isMask
    · split at isUser
      · cases isUser
      · obtain rfl := mem_singleton.mp isUser
        exact notUser ⟨(congrArg Prod.fst same).symm, (congrArg Prod.snd same).symm⟩
    · obtain rfl := mem_singleton.mp isMask
      exact notMask (congrArg Prod.fst same).symm

theorem grantEntries_wellFormed (formed : WellFormed entries) (isUser : uid < undefinedId) :
    WellFormed (grantEntries entries uid ownerUid) where
  valid := by
    intro entry member
    rcases mem_grantEntries.mp member with ⟨old, isOld, _, rfl⟩ | ⟨_, rfl⟩ | rfl
    · exact grantedEntry_valid (formed.valid old isOld)
    · exact grantedUser_valid isUser
    · exact fullMask_valid
  ordered := by
    refine grantEntries_sorted.imp fun before => ?_
    unfold ComesBefore at before
    omega
  distinct := grantEntries_distinct formed.distinct
  present := by
    intro tag member
    obtain ⟨old, isOld, rfl⟩ := formed.present tag member
    refine ⟨_, mem_grantEntries.mpr (.inl ⟨old, isOld, ?_, rfl⟩),
      grantedEntry_tag entries uid ownerUid old⟩
    rw [staysGranted_iff]
    constructor
    · intro isMask
      rw [isMask] at member
      revert member
      decide
    · rintro ⟨isNamed, _⟩
      rw [isNamed] at member
      revert member
      decide
  masked := fun _ _ _ => ⟨fullMask, mem_grantEntries.mpr (.inr (.inr rfl)), rfl⟩

theorem and_seven (low : permission < 8) : permission &&& 7 = permission := by
  rw [Nat.and_two_pow_sub_one_eq_mod permission 3, Nat.mod_eq_of_lt low]

theorem allows_seven {want : Nat} (low : want < 8) : allows 7 want = true := by
  rw [allows, Nat.and_comm, and_seven low]
  exact decide_eq_true rfl

theorem permissionOf_unnamed (valid : ∀ entry ∈ entries, entry.Valid) {tag : Nat}
    (unnamed : tag ≠ userTag ∧ tag ≠ groupTag) :
    permissionOf entries tag undefinedId =
      (entries.find? fun entry => entry.tag = tag).map AclEntry.permission := by
  unfold permissionOf
  induction entries with
  | nil => rfl
  | cons entry rest ih =>
    rw [forall_mem_cons] at valid
    rw [find?_cons, find?_cons]
    by_cases here : entry.tag = tag
    · have other : entry.named = false := by
        rw [AclEntry.named, here, decide_eq_false unnamed.1, decide_eq_false unnamed.2]
        rfl
      have identity := valid.1.identity
      rw [other, if_neg Bool.false_ne_true] at identity
      rw [decide_eq_true here, decide_eq_true identity]
      rfl
    · rw [decide_eq_false here]
      exact ih valid.2

section

variable (formed : WellFormed entries)
include formed

theorem effective_eq (low : permission < 8) :
    effective entries permission = permission &&& maskOf entries := by
  unfold effective maskOf
  rw [permissionOf_unnamed formed.valid (by decide)]
  cases (entries.find? fun entry => entry.tag = maskTag) with
  | none => exact (and_seven low).symm
  | some mask => rfl

theorem effective_granted (low : permission < 8) :
    effective (grantEntries entries uid ownerUid) permission = permission := by
  unfold effective
  have isMask : permissionOf (grantEntries entries uid ownerUid) maskTag undefinedId = some 7 :=
    (permissionOf_eq_some (grantEntries_distinct formed.distinct)).mpr
      (mem_grantEntries.mpr (.inr (.inr rfl)))
  rw [isMask]
  exact and_seven low

theorem permissionOf_granted {tag identity : Nat}
    (notMask : tag ≠ maskTag) (notUser : ¬ (tag = userTag ∧ identity = uid)) :
    permissionOf (grantEntries entries uid ownerUid) tag identity =
      (permissionOf entries tag identity).map fun permission => (grantedEntry entries uid ownerUid
          { tag := tag, permission := permission, identity := identity }).permission := by
  have distinct : ((grantEntries entries uid ownerUid).map key).Nodup :=
    grantEntries_distinct formed.distinct
  ext permission
  rw [permissionOf_eq_some distinct, Option.map_eq_some_iff, mem_grantEntries]
  constructor
  · rintro (⟨old, isOld, _, same⟩ | ⟨_, same⟩ | same)
    · have tagIs := (grantedEntry_tag entries uid ownerUid old).symm.trans
        (congrArg AclEntry.tag same)
      have identityIs := (grantedEntry_identity entries uid ownerUid old).symm.trans
        (congrArg AclEntry.identity same)
      obtain ⟨oldTag, oldPermission, oldIdentity⟩ := old
      obtain rfl : oldTag = tag := tagIs
      obtain rfl : oldIdentity = identity := identityIs
      exact ⟨oldPermission, (permissionOf_eq_some formed.distinct).mpr isOld,
        congrArg AclEntry.permission same⟩
    · exact absurd ⟨congrArg AclEntry.tag same, congrArg AclEntry.identity same⟩ notUser
    · exact absurd (congrArg AclEntry.tag same) notMask
  · rintro ⟨oldPermission, found, rfl⟩
    refine .inl ⟨_, (permissionOf_eq_some formed.distinct).mp found,
      staysGranted_iff.mpr ⟨notMask, notUser⟩, ?_⟩
    exact eq_of_key (grantedEntry_tag _ _ _ _) (grantedEntry_identity _ _ _ _)

theorem allows_masked (valid : entry.Valid) (masked : entry.tag ∈ [2, 4, 8]) (want : Nat) :
    allows (effective (grantEntries entries uid ownerUid)
        (grantedEntry entries uid ownerUid entry).permission) want =
      allows (effective entries entry.permission) want := by
  rw [grantedEntry_permission_masked masked, effective_eq formed valid.permission,
    effective_granted formed (and_lt_eight valid.permission _)]

end

section Principals

variable {owner owningGroup user : Nat} {groups : Nat → Bool}

theorem ofGroups_masked (isGroup : ofGroups owningGroup groups entry = true) :
    entry.tag ∈ [2, 4, 8] ∧ entry.tag ≠ 2 ∧ entry.tag ≠ 16 := by
  rw [ofGroups, Bool.or_eq_true, Bool.and_eq_true, Bool.and_eq_true, decide_eq_true_eq,
    decide_eq_true_eq] at isGroup
  rcases isGroup with ⟨isTag, _⟩ | ⟨isTag, _⟩
  · rw [isTag]
    decide
  · rw [isTag]
    decide

theorem ofGroups_granted (entry : AclEntry) :
    ofGroups owningGroup groups (grantedEntry entries uid ownerUid entry) =
      ofGroups owningGroup groups entry := by
  unfold ofGroups
  rw [grantedEntry_tag, grantedEntry_identity]

theorem exists_group_iff {holds holds' : AclEntry → Bool}
    (same : ∀ entry ∈ entries, ofGroups owningGroup groups entry = true →
      holds' (grantedEntry entries uid ownerUid entry) = holds entry) :
    ((grantEntries entries uid ownerUid).any fun entry =>
        ofGroups owningGroup groups entry && holds' entry) =
      entries.any fun entry => ofGroups owningGroup groups entry && holds entry := by
  rw [Bool.eq_iff_iff, any_eq_true, any_eq_true]
  constructor
  · rintro ⟨entry, member, matching⟩
    rw [Bool.and_eq_true] at matching
    rcases mem_grantEntries.mp member with ⟨old, isOld, _, rfl⟩ | ⟨_, rfl⟩ | rfl
    · rw [ofGroups_granted] at matching
      exact ⟨old, isOld, by rw [matching.1, ← same old isOld matching.1, matching.2]; rfl⟩
    · exact absurd rfl (ofGroups_masked matching.1).2.1
    · exact absurd rfl (ofGroups_masked matching.1).2.2
  · rintro ⟨old, isOld, matching⟩
    rw [Bool.and_eq_true] at matching
    have groupTags := ofGroups_masked matching.1
    refine ⟨grantedEntry entries uid ownerUid old, mem_grantEntries.mpr (.inl ⟨old, isOld,
      staysGranted_iff.mpr ⟨groupTags.2.2, fun isUser => groupTags.2.1 isUser.1⟩, rfl⟩), ?_⟩
    rw [ofGroups_granted, matching.1, same old isOld matching.1, matching.2]
    rfl

theorem any_ofGroups_granted :
    (grantEntries entries uid ownerUid).any (ofGroups owningGroup groups) =
      entries.any (ofGroups owningGroup groups) := by
  have both : ((grantEntries entries uid ownerUid).any fun entry =>
        ofGroups owningGroup groups entry && true) =
      entries.any fun entry => ofGroups owningGroup groups entry && true :=
    exists_group_iff fun _ _ _ => rfl
  simpa only [Bool.and_true] using both

theorem permits_other (formed : WellFormed entries) (isOther : user ≠ uid) (want : Nat) :
    permits (grantEntries entries uid (some owner)) owner owningGroup user groups want =
      permits entries owner owningGroup user groups want := by
  unfold permits
  by_cases isOwner : user = owner
  · subst isOwner
    rw [if_pos rfl, if_pos rfl, permissionOf_granted formed (by decide)
      (fun both => absurd both.1 (by decide))]
    have notUid : (some user : Option Nat) ≠ some uid := fun same => isOther (Option.some.inj same)
    cases permissionOf entries ownerTag undefinedId with
    | none => rfl
    | some permission =>
      rw [Option.map_some, grantedEntry_permission_owner rfl, if_neg notUid]
  · rw [if_neg isOwner, if_neg isOwner,
      permissionOf_granted formed (by decide) (fun both => isOther both.2)]
    cases found : permissionOf entries userTag user with
    | some permission =>
      have member := (permissionOf_eq_some formed.distinct).mp found
      have named : userTag ∈ [2, 4, 8] := by decide
      exact allows_masked formed (formed.valid _ member) named want
    | none =>
      dsimp only [Option.map_none]
      rw [any_ofGroups_granted]
      split
      · refine exists_group_iff fun entry member isGroup => ?_
        exact allows_masked formed (formed.valid entry member) (ofGroups_masked isGroup).1 want
      rw [permissionOf_granted formed (by decide) (fun both => absurd both.1 (by decide))]
      cases permissionOf entries otherTag undefinedId with
      | none => rfl
      | some permission => rw [Option.map_some, grantedEntry_other rfl]

theorem permits_granted (formed : WellFormed entries) {want : Nat} (low : want < 8) :
    permits (grantEntries entries uid (some owner)) owner owningGroup uid groups want = true := by
  have distinct : ((grantEntries entries uid (some owner)).map key).Nodup :=
    grantEntries_distinct formed.distinct
  unfold permits
  by_cases isOwner : uid = owner
  · subst isOwner
    obtain ⟨permission, found, _⟩ := permissionOf_present formed mem_cons_self
    rw [if_pos rfl, permissionOf_granted formed (by decide) (fun both => absurd both.1 (by decide))]
    rw [found, Option.map_some, grantedEntry_permission_owner rfl, if_pos rfl]
    exact allows_seven low
  · have notOwner : (some owner : Option Nat) ≠ some uid :=
      fun same => isOwner (Option.some.inj same).symm
    have found : permissionOf (grantEntries entries uid (some owner)) userTag uid = some 7 :=
      (permissionOf_eq_some distinct).mpr (mem_grantEntries.mpr (.inr (.inl ⟨notOwner, rfl⟩)))
    rw [if_neg isOwner, found]
    dsimp only
    rw [effective_granted formed (by omega)]
    exact allows_seven low

end Principals

theorem maskOf_granted (formed : WellFormed entries) (isUser : uid < undefinedId) :
    maskOf (grantEntries entries uid ownerUid) = 7 := by
  have again : WellFormed (grantEntries entries uid ownerUid) :=
    grantEntries_wellFormed formed isUser
  have isMask : permissionOf (grantEntries entries uid ownerUid) maskTag undefinedId = some 7 :=
    (permissionOf_eq_some again.distinct).mpr (mem_grantEntries.mpr (.inr (.inr rfl)))
  rw [permissionOf_unnamed again.valid (by decide)] at isMask
  exact congrArg (Option.getD · 7) isMask

theorem premasked_seven (valid : entry.Valid) : premasked 7 entry = entry := by
  unfold premasked
  split
  · rw [and_seven valid.permission]
  · rfl

section

variable (formed : WellFormed entries)
include formed

theorem grantedEntry_again (isUser : uid < undefinedId)
    (member : entry ∈ grantEntries entries uid ownerUid) (stays : staysGranted uid entry = true) :
    grantedEntry (grantEntries entries uid ownerUid) uid ownerUid entry = entry := by
  have again : WellFormed (grantEntries entries uid ownerUid) :=
    grantEntries_wellFormed formed isUser
  unfold grantedEntry
  rw [maskOf_granted formed isUser, premasked_seven (again.valid entry member)]
  split
  · case isTrue isOwner =>
      unfold raisedOwner
      split
      · case isTrue isTag =>
          rcases mem_grantEntries.mp member with ⟨old, isOld, _, rfl⟩ | ⟨_, rfl⟩ | rfl
          · rw [grantedEntry_tag] at isTag
            have raised : (grantedEntry entries uid ownerUid old).permission = 7 := by
              rw [grantedEntry_permission_owner isTag, if_pos isOwner]
            rw [← raised]
          · cases isTag
          · cases isTag
      · rfl
  · rfl

theorem mem_grantEntries_again (isUser : uid < undefinedId) (entry : AclEntry) :
    entry ∈ grantEntries (grantEntries entries uid ownerUid) uid ownerUid ↔
      entry ∈ grantEntries entries uid ownerUid := by
  constructor
  · intro member
    rcases mem_grantEntries.mp member with ⟨old, isOld, stays, rfl⟩ | added
    · rw [grantedEntry_again formed isUser isOld stays]
      exact isOld
    · exact mem_grantEntries.mpr (.inr added)
  · intro member
    rcases mem_grantEntries.mp member with ⟨old, isOld, stays, rfl⟩ | added
    · have staysToo : staysGranted uid (grantedEntry entries uid ownerUid old) = true := by
        rw [staysGranted_iff, grantedEntry_tag, grantedEntry_identity, ← staysGranted_iff]
        exact stays
      exact mem_grantEntries.mpr (.inl ⟨_, member, staysToo,
        grantedEntry_again formed isUser member staysToo⟩)
    · exact mem_grantEntries.mpr (.inr added)

theorem grantEntries_again (isUser : uid < undefinedId) :
    grantEntries (grantEntries entries uid ownerUid) uid ownerUid =
      grantEntries entries uid ownerUid := by
  have first : WellFormed (grantEntries entries uid ownerUid) :=
    grantEntries_wellFormed formed isUser
  have second : WellFormed (grantEntries (grantEntries entries uid ownerUid) uid ownerUid) :=
    grantEntries_wellFormed first isUser
  have sameEntries : (grantEntries (grantEntries entries uid ownerUid) uid ownerUid).Perm
      (grantEntries entries uid ownerUid) :=
    (perm_ext_iff_of_nodup (List.Nodup.of_map _ second.distinct)
      (List.Nodup.of_map _ first.distinct)).mpr (mem_grantEntries_again formed isUser)
  refine sameEntries.eq_of_pairwise ?_ grantEntries_sorted grantEntries_sorted
  intro left right isLeft isRight before after
  unfold ComesBefore at before after
  have tags : left.tag = right.tag := by omega
  have identities : left.identity = right.identity := by omega
  have keys : left.key = right.key := Prod.ext tags identities
  exact inj_on_of_nodup_map first.distinct (sameEntries.mem_iff.mp isLeft) isRight keys

end

theorem unnamed_valid {tag permission : Nat}
    (unnamed : tag ∈ [ownerTag, owningGroupTag, otherTag]) (low : permission < 8) :
    AclEntry.Valid { tag := tag, permission := permission, identity := undefinedId } where
  tag := by
    have tags : ∀ tag ∈ [ownerTag, owningGroupTag, otherTag],
        tag ∈ [ownerTag, userTag, owningGroupTag, groupTag, maskTag, otherTag] := by decide
    exact tags tag unnamed
  permission := low
  identity := by
    rw [named_eq_false (by exact unnamed), if_neg Bool.false_ne_true]

theorem modeEntries_wellFormed (mode : Nat) : WellFormed (modeEntries mode) where
  valid := by
    have low (bits : Nat) : bits &&& 7 < 8 := Nat.lt_succ_of_le Nat.and_le_right
    unfold modeEntries
    rw [forall_mem_cons, forall_mem_cons, forall_mem_singleton]
    exact ⟨unnamed_valid (by decide) (low _), unnamed_valid (by decide) (low _),
      unnamed_valid (by decide) (low _)⟩
  ordered := by simp [modeEntries]
  distinct := by simp [modeEntries, key]
  present := by simp [modeEntries]
  masked := by
    have unnamed : ∀ entry ∈ modeEntries mode, entry.named = false := by
      unfold modeEntries
      rw [forall_mem_cons, forall_mem_cons, forall_mem_singleton]
      exact ⟨named_eq_false (by simp), named_eq_false (by simp), named_eq_false (by simp)⟩
    intro entry member isNamed
    cases (unnamed entry member).symm.trans isNamed

/-- For every well-formed list, or none, and every user: what `_grant` makes of it is well
formed, gives the user all rights, leaves those of everybody else as they were, and is left as
it is by a second grant. -/
theorem grant_widens_nobody (value : Option (List UInt8)) (mode uid owner : Nat)
    (formed : ∀ bytes ∈ value, ∃ entries, ofXattr bytes = some entries ∧ WellFormed entries)
    (isUser : uid < undefinedId) :
    ∃ entries granted, grantBase value mode = some entries ∧
      grant value mode uid (some owner) = some (toXattr granted) ∧
      ofXattr (toXattr granted) = some granted ∧ WellFormed granted ∧
      (∀ owningGroup groups want, want < 8 →
        permits granted owner owningGroup uid groups want = true) ∧
      (∀ user owningGroup groups want, user ≠ uid →
        permits granted owner owningGroup user groups want =
          permits entries owner owningGroup user groups want) ∧
      ∀ mode', grant (some (toXattr granted)) mode' uid (some owner) = some (toXattr granted) := by
  obtain ⟨entries, isBase, wellFormed⟩ :
      ∃ entries, grantBase value mode = some entries ∧ WellFormed entries := by
    cases value with
    | none => exact ⟨modeEntries mode, rfl, modeEntries_wellFormed mode⟩
    | some bytes => exact formed bytes rfl
  have granted : WellFormed (grantEntries entries uid (some owner)) :=
    grantEntries_wellFormed wellFormed isUser
  have reads := ofXattr_toXattr granted.valid
  refine ⟨entries, grantEntries entries uid (some owner), isBase, ?_, reads, granted, ?_, ?_, ?_⟩
  · rw [grant, isBase]
    rfl
  · exact fun owningGroup groups want low => permits_granted wellFormed low
  · exact fun user owningGroup groups want isOther => permits_other wellFormed isOther want
  · intro mode'
    have base : grantBase (some (toXattr (grantEntries entries uid (some owner)))) mode' =
        some (grantEntries entries uid (some owner)) := reads
    rw [grant, base, Option.map_some, grantEntries_again wellFormed isUser]

def maskedEntries : List AclEntry :=
  [{ tag := 1, permission := 7, identity := undefinedId },
    { tag := 2, permission := 7, identity := 1001 },
    { tag := 4, permission := 5, identity := undefinedId },
    { tag := 8, permission := 6, identity := 50 },
    { tag := 16, permission := 4, identity := undefinedId },
    { tag := 32, permission := 0, identity := undefinedId }]

theorem masked_widens_nobody :
    WellFormed maskedEntries ∧ ∃ entries granted,
      grantBase (some (toXattr maskedEntries)) 0o740 = some entries ∧
      grant (some (toXattr maskedEntries)) 0o740 998 (some 0) = some (toXattr granted) ∧
      ofXattr (toXattr granted) = some granted ∧ WellFormed granted ∧
      (∀ owningGroup groups want, want < 8 →
        permits granted 0 owningGroup 998 groups want = true) ∧
      (∀ user owningGroup groups want, user ≠ 998 →
        permits granted 0 owningGroup user groups want =
          permits entries 0 owningGroup user groups want) ∧
      ∀ mode', grant (some (toXattr granted)) mode' 998 (some 0) = some (toXattr granted) :=
  ⟨by decide, grant_widens_nobody (some (toXattr maskedEntries)) 0o740 998 0
    (fun bytes isBytes => ⟨maskedEntries, by
      cases isBytes
      exact ofXattr_toXattr (by decide), by decide⟩)
    (by decide)⟩

end XFerry.Management
