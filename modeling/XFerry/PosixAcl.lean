/-
POSIX access control lists: their entries, which lists are well formed, how access is
checked, their form as an extended attribute, and what setting one does to a directory.

An entry is told apart by its tag and the user or group that it names; entries that name
nobody carry an undefined ID.
-/

import XFerry.Encoding.Packing

namespace XFerry.PosixAcl

open List Packing

abbrev ownerTag : Nat := 1

abbrev userTag : Nat := 2

abbrev owningGroupTag : Nat := 4

abbrev groupTag : Nat := 8

abbrev maskTag : Nat := 16

abbrev otherTag : Nat := 32

def undefinedId : Nat := 0xFFFFFFFF

structure AclEntry where
  tag : Nat
  permission : Nat
  identity : Nat
deriving DecidableEq

namespace AclEntry

def key (entry : AclEntry) : Nat × Nat := (entry.tag, entry.identity)

def named (entry : AclEntry) : Bool := entry.tag = userTag || entry.tag = groupTag

theorem eq_of_key {entry : AclEntry} {tag identity : Nat} (isTag : entry.tag = tag)
    (isIdentity : entry.identity = identity) :
    entry = { tag := tag, permission := entry.permission, identity := identity } := by
  subst isTag isIdentity
  rfl

structure Valid (entry : AclEntry) : Prop where
  tag : entry.tag ∈ [ownerTag, userTag, owningGroupTag, groupTag, maskTag, otherTag]
  permission : entry.permission < 8
  identity : if entry.named then entry.identity < undefinedId else entry.identity = undefinedId

instance (entry : AclEntry) : Decidable entry.Valid :=
  decidable_of_iff (entry.tag ∈ [ownerTag, userTag, owningGroupTag, groupTag, maskTag, otherTag] ∧
      entry.permission < 8 ∧
      if entry.named then entry.identity < undefinedId else entry.identity = undefinedId)
    ⟨fun ⟨tag, permission, identity⟩ => ⟨tag, permission, identity⟩,
      fun valid => ⟨valid.tag, valid.permission, valid.identity⟩⟩

end AclEntry

/-- The entries stand in the order of their tags, nobody has two, and who is named is
subject to a mask. -/
structure WellFormed (entries : List AclEntry) : Prop where
  valid : ∀ entry ∈ entries, entry.Valid
  ordered : entries.Pairwise fun first second => first.tag ≤ second.tag
  distinct : (entries.map AclEntry.key).Nodup
  present : ∀ tag ∈ [ownerTag, owningGroupTag, otherTag], ∃ entry ∈ entries, entry.tag = tag
  masked : ∀ entry ∈ entries, entry.named = true → ∃ mask ∈ entries, mask.tag = maskTag

instance (entries : List AclEntry) : Decidable (WellFormed entries) :=
  decidable_of_iff ((∀ entry ∈ entries, entry.Valid) ∧
      (entries.Pairwise fun first second => first.tag ≤ second.tag) ∧
      (entries.map AclEntry.key).Nodup ∧
      (∀ tag ∈ [ownerTag, owningGroupTag, otherTag], ∃ entry ∈ entries, entry.tag = tag) ∧
      ∀ entry ∈ entries, entry.named = true → ∃ mask ∈ entries, mask.tag = maskTag)
    ⟨fun ⟨valid, ordered, distinct, present, masked⟩ =>
        ⟨valid, ordered, distinct, present, masked⟩,
      fun formed => ⟨formed.valid, formed.ordered, formed.distinct, formed.present, formed.masked⟩⟩

section Lookup

variable {entries : List AclEntry} {tag identity permission : Nat}

def permissionOf (entries : List AclEntry) (tag identity : Nat) : Option Nat :=
  (entries.find? fun entry => entry.tag = tag && entry.identity = identity).map
    AclEntry.permission

theorem permissionOf_eq_some (distinct : (entries.map AclEntry.key).Nodup) :
    permissionOf entries tag identity = some permission ↔
      { tag := tag, permission := permission, identity := identity } ∈ entries := by
  induction entries with
  | nil => exact ⟨nofun, nofun⟩
  | cons entry rest ih =>
    rw [map_cons, nodup_cons] at distinct
    obtain ⟨fresh, distinct⟩ := distinct
    rw [permissionOf, find?_cons]
    by_cases here : entry.tag = tag ∧ entry.identity = identity
    · obtain ⟨rfl, rfl⟩ := here
      rw [decide_eq_true rfl, decide_eq_true rfl, mem_cons]
      constructor
      · intro found
        cases found
        exact .inl rfl
      · rintro (same | later)
        · exact congrArg some (congrArg AclEntry.permission same).symm
        · exact absurd (mem_map_of_mem later) fresh
    · have other : (decide (entry.tag = tag) && decide (entry.identity = identity)) = false := by
        rw [← Bool.not_eq_true, Bool.and_eq_true, decide_eq_true_eq, decide_eq_true_eq]
        exact here
      rw [other, mem_cons]
      refine (ih distinct).trans ⟨.inr, ?_⟩
      rintro (same | later)
      · exact absurd
          ⟨(congrArg AclEntry.tag same).symm, (congrArg AclEntry.identity same).symm⟩ here
      · exact later

theorem AclEntry.named_eq_false {entry : AclEntry}
    (unnamed : entry.tag ∈ [ownerTag, owningGroupTag, otherTag]) : entry.named = false := by
  have tags : ∀ tag ∈ [ownerTag, owningGroupTag, otherTag],
      (decide (tag = userTag) || decide (tag = groupTag)) = false := by decide
  exact tags entry.tag unnamed

section

variable (formed : WellFormed entries)
include formed

theorem permissionOf_present (isTag : tag ∈ [ownerTag, owningGroupTag, otherTag]) :
    ∃ permission, permissionOf entries tag undefinedId = some permission ∧ permission < 8 := by
  obtain ⟨entry, member, rfl⟩ := formed.present tag isTag
  have valid := formed.valid entry member
  have identity := valid.identity
  rw [AclEntry.named_eq_false isTag, if_neg Bool.false_ne_true] at identity
  refine ⟨entry.permission, (permissionOf_eq_some formed.distinct).mpr ?_, valid.permission⟩
  rw [← AclEntry.eq_of_key rfl identity]
  exact member

theorem permissionOf_lt
    (found : permissionOf entries tag identity = some permission) : permission < 8 :=
  (formed.valid _ ((permissionOf_eq_some formed.distinct).mp found)).permission

theorem WellFormed.map {change : AclEntry → AclEntry}
    (keys : ∀ entry, (change entry).key = entry.key)
    (low : ∀ entry ∈ entries, (change entry).permission < 8) :
    WellFormed (entries.map change) := by
  have tags (entry : AclEntry) : (change entry).tag = entry.tag := congrArg Prod.fst (keys entry)
  have identities (entry : AclEntry) : (change entry).identity = entry.identity :=
    congrArg Prod.snd (keys entry)
  refine ⟨?_, ?_, ?_, ?_, ?_⟩
  · rw [forall_mem_map]
    intro entry member
    have valid := formed.valid entry member
    refine ⟨tags entry ▸ valid.tag, low entry member, ?_⟩
    rw [AclEntry.named, tags, identities]
    exact valid.identity
  · rw [pairwise_map]
    exact formed.ordered.imp fun before => by rw [tags, tags]; exact before
  · have same : AclEntry.key ∘ change = AclEntry.key := funext keys
    rw [map_map, same]
    exact formed.distinct
  · intro tag isTag
    obtain ⟨entry, member, rfl⟩ := formed.present tag isTag
    exact ⟨change entry, mem_map_of_mem member, tags entry⟩
  · rw [forall_mem_map]
    intro entry member isNamed
    rw [AclEntry.named, tags] at isNamed
    obtain ⟨mask, isMask, isTag⟩ := formed.masked entry member isNamed
    exact ⟨change mask, mem_map_of_mem isMask, (tags mask).trans isTag⟩

end

end Lookup

def allows (permission want : Nat) : Bool := permission &&& want = want

def effective (entries : List AclEntry) (permission : Nat) : Nat :=
  match permissionOf entries maskTag undefinedId with
  | none => permission
  | some mask => permission &&& mask

def ofGroups (owningGroup : Nat) (groups : Nat → Bool) (entry : AclEntry) : Bool :=
  entry.tag = owningGroupTag && groups owningGroup || entry.tag = groupTag && groups entry.identity

def permits (entries : List AclEntry) (owner owningGroup user : Nat) (groups : Nat → Bool)
    (want : Nat) : Bool :=
  if user = owner then
    (permissionOf entries ownerTag undefinedId).any fun permission => allows permission want
  else
    match permissionOf entries userTag user with
    | some permission => allows (effective entries permission) want
    | none =>
      if entries.any (ofGroups owningGroup groups) then
        entries.any fun entry => ofGroups owningGroup groups entry &&
          allows (effective entries entry.permission) want
      else (permissionOf entries otherTag undefinedId).any fun permission =>
        allows permission want

def entryBytes (entry : AclEntry) : List UInt8 :=
  littleEndian 2 entry.tag ++ littleEndian 2 entry.permission ++ littleEndian 4 entry.identity

def toXattr (entries : List AclEntry) : List UInt8 :=
  littleEndian 4 2 ++ entries.flatMap entryBytes

def entriesOf : List UInt8 → List AclEntry
  | tag :: tag' :: permission :: permission' :: first :: second :: third :: fourth :: rest =>
    { tag := ofLittleEndian [tag, tag']
      permission := ofLittleEndian [permission, permission']
      identity := ofLittleEndian [first, second, third, fourth] } :: entriesOf rest
  | _ => []

def ofXattr (value : List UInt8) : Option (List AclEntry) :=
  if value.length < 4 ∨ (value.length - 4) % 8 ≠ 0 ∨
      ofLittleEndian (value.take 4) ≠ 2 then none
  else some (entriesOf (value.drop 4))

theorem AclEntry.Valid.tag_lt {entry : AclEntry} (valid : entry.Valid) : entry.tag < 256 ^ 2 := by
  have small : ∀ tag ∈ [ownerTag, userTag, owningGroupTag, groupTag, maskTag, otherTag],
      tag < 256 ^ 2 := by decide
  exact small entry.tag valid.tag

theorem AclEntry.Valid.identity_lt {entry : AclEntry} (valid : entry.Valid) :
    entry.identity < 256 ^ 4 := by
  have identity := valid.identity
  unfold undefinedId at identity
  split at identity <;> omega

theorem entriesOf_entryBytes {entry : AclEntry} (valid : entry.Valid) (rest : List UInt8) :
    entriesOf (entryBytes entry ++ rest) = entry :: entriesOf rest := by
  have tag : ofLittleEndian (littleEndian 2 entry.tag) = entry.tag := by
    rw [ofLittleEndian_littleEndian, Nat.mod_eq_of_lt valid.tag_lt]
  have permission : ofLittleEndian (littleEndian 2 entry.permission) = entry.permission := by
    rw [ofLittleEndian_littleEndian, Nat.mod_eq_of_lt]
    exact Nat.lt_of_lt_of_le valid.permission (by decide)
  have identity : ofLittleEndian (littleEndian 4 entry.identity) = entry.identity := by
    rw [ofLittleEndian_littleEndian, Nat.mod_eq_of_lt valid.identity_lt]
  exact congrArg (· :: entriesOf rest)
    (congr (congr (congrArg AclEntry.mk tag) permission) identity)

variable {entries : List AclEntry}

theorem entriesOf_flatMap (valid : ∀ entry ∈ entries, entry.Valid) :
    entriesOf (entries.flatMap entryBytes) = entries := by
  induction entries with
  | nil => rfl
  | cons entry rest ih =>
    rw [forall_mem_cons] at valid
    rw [flatMap_cons, entriesOf_entryBytes valid.1, ih valid.2]

theorem length_flatMap_entryBytes (entries : List AclEntry) :
    (entries.flatMap entryBytes).length = 8 * entries.length := by
  induction entries with
  | nil => rfl
  | cons entry rest ih =>
    rw [flatMap_cons, length_append, ih, length_cons]
    have width : (entryBytes entry).length = 8 := rfl
    omega

theorem ofXattr_toXattr (valid : ∀ entry ∈ entries, entry.Valid) :
    ofXattr (toXattr entries) = some entries := by
  have isLong : (toXattr entries).length = 4 + 8 * entries.length := by
    rw [toXattr, length_append, length_flatMap_entryBytes]
    rfl
  have header : (toXattr entries).take 4 = littleEndian 4 2 := rfl
  have body : (toXattr entries).drop 4 = entries.flatMap entryBytes := rfl
  unfold ofXattr
  rw [isLong, header, body, if_neg, entriesOf_flatMap valid]
  rintro (short | ragged | version)
  · omega
  · omega
  · exact version (ofLittleEndian_littleEndian 4 2)

end XFerry.PosixAcl
