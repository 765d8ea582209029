/-
A tree of files with content and attributes, and what changes it: a node is put in its
place, or everything from a place downwards goes.

Walks are those of the tree without content.  They only depend on the directories and the
links, so a tree that has all of another's leads to the same places.
-/

import XFerry.FileTree

namespace XFerry

open Function

structure Attributes where
  mode : Nat
  uid : Nat
  gid : Nat

inductive HostNode where
  | file (content : List UInt8) (attributes : Attributes)
  | directory (attributes : Attributes)
  | link (target : List Char) (uid gid : Nat)

namespace HostNode

def entry : HostNode → Entry
  | .file _ _ => .file
  | .directory _ => .directory
  | .link target _ _ => .link target

def isFile : HostNode → Bool
  | .file _ _ => true
  | .directory _ | .link _ _ _ => false

def isDirectory : HostNode → Bool
  | .directory _ => true
  | .file _ _ | .link _ _ _ => false

def isLink : HostNode → Bool
  | .link _ _ _ => true
  | .file _ _ | .directory _ => false

theorem entry_eq_directory {node : HostNode} :
    node.entry = .directory ↔ node.isDirectory = true := by
  cases node with
  | file | link => exact ⟨nofun, nofun⟩
  | directory attributes => exact ⟨fun _ => rfl, fun _ => rfl⟩

end HostNode

def holdsFile (node : Option HostNode) : Bool := node.any HostNode.isFile

def holdsDirectory (node : Option HostNode) : Bool := node.any HostNode.isDirectory

def holdsLink (node : Option HostNode) : Bool := node.any HostNode.isLink

variable {node : Option HostNode}

theorem holdsDirectory_iff :
    holdsDirectory node = true ↔ node.map HostNode.entry = some .directory := by
  cases node with
  | none => exact ⟨nofun, nofun⟩
  | some node =>
    show node.isDirectory = true ↔ some node.entry = some .directory
    rw [Option.some.injEq, HostNode.entry_eq_directory]

theorem exists_of_holdsDirectory (holds : holdsDirectory node = true) :
    ∃ attributes, node = some (.directory attributes) := by
  cases node with
  | none => cases holds
  | some node =>
    cases node with
    | file | link => cases holds
    | directory attributes => exact ⟨attributes, rfl⟩

theorem ne_none_of_holdsDirectory (holds : holdsDirectory node = true) : node ≠ none := by
  rintro rfl
  cases holds

theorem ne_none_of_holdsFile (holds : holdsFile node = true) : node ≠ none := by
  rintro rfl
  cases holds

theorem holdsDirectory_eq_false_of_holdsFile
    (holds : holdsFile node = true) : holdsDirectory node = false := by
  cases node with
  | none => cases holds
  | some node =>
    cases node with
    | file content attributes => rfl
    | directory | link => cases holds

theorem holdsLink_eq_false_of_holdsDirectory
    (holds : holdsDirectory node = true) : holdsLink node = false := by
  cases node with
  | none => cases holds
  | some node =>
    cases node with
    | file | link => cases holds
    | directory attributes => rfl

theorem holdsLink_of_entry {target : List Char}
    (isLink : node.map HostNode.entry = some (.link target)) : holdsLink node = true := by
  cases node with
  | none => cases isLink
  | some node =>
    cases node with
    | file | directory => cases isLink
    | link target uid gid => rfl

structure HostTree where
  node : Place → Option HostNode
  root : holdsDirectory (node []) = true
  nested : ∀ place name, node (place ++ [name]) ≠ none → holdsDirectory (node place) = true
  named : ∀ place name, node (place ++ [name]) ≠ none → IsEntryName name

namespace HostTree

def bare (attributes : Attributes) : HostTree where
  node place := if place = [] then some (.directory attributes) else none
  root := rfl
  nested := by
    intro place name found
    rw [if_neg (by simp)] at found
    exact absurd rfl found
  named := by
    intro place name found
    rw [if_neg (by simp)] at found
    exact absurd rfl found

variable (tree : HostTree)

def shape : FileTree where
  entry place := (tree.node place).map HostNode.entry
  root := holdsDirectory_iff.mp tree.root
  nested place name found :=
    holdsDirectory_iff.mp (tree.nested place name fun absent => found (by rw [absent]; rfl))
  named place name found := tree.named place name fun absent => found (by rw [absent]; rfl)

/-- A node may stand where its parent is a directory, and what stands below stays below a
directory. -/
def Admits (place : Place) (node : HostNode) : Prop :=
  (place = [] → node.isDirectory = true) ∧
    (∀ name ∈ place.getLast?, IsEntryName name ∧ holdsDirectory (tree.node place.dropLast) = true) ∧
    (holdsDirectory (tree.node place) = true → node.isDirectory = true)

instance (place : Place) (node : HostNode) : Decidable (tree.Admits place node) := by
  unfold Admits
  infer_instance

def putAt (place : Place) (node : HostNode) (admits : tree.Admits place node) : HostTree where
  node := update tree.node place (some node)
  root := by
    rcases eq_or_ne [] place with rfl | different
    · rw [update_self]
      exact admits.1 rfl
    · rw [update_of_ne different]
      exact tree.root
  nested := by
    intro parent name found
    have directory : holdsDirectory (tree.node parent) = true := by
      rcases eq_or_ne (parent ++ [name]) place with rfl | different
      · have inside := (admits.2.1 name (by simp)).2
        rwa [List.dropLast_concat] at inside
      · rw [update_of_ne different] at found
        exact tree.nested parent name found
    rcases eq_or_ne parent place with rfl | different
    · rw [update_self]
      exact admits.2.2 directory
    · rw [update_of_ne different]
      exact directory
  named := by
    intro parent name found
    rcases eq_or_ne (parent ++ [name]) place with rfl | different
    · exact (admits.2.1 name (by simp)).1
    · rw [update_of_ne different] at found
      exact tree.named parent name found

def put (place : Place) (node : HostNode) : Option HostTree :=
  if admits : tree.Admits place node then some (tree.putAt place node admits) else none

def remove (place : Place) : HostTree where
  node other := if place ≠ [] ∧ place <+: other then none else tree.node other
  root := by
    rw [if_neg]
    · exact tree.root
    · rintro ⟨notRoot, before⟩
      exact notRoot (List.prefix_nil.mp before)
  nested := by
    intro parent name found
    have outside : ¬ (place ≠ [] ∧ place <+: parent ++ [name]) := by
      intro inside
      exact found (if_pos inside)
    rw [if_neg outside] at found
    rw [if_neg]
    · exact tree.nested parent name found
    · rintro ⟨notRoot, before⟩
      exact outside ⟨notRoot, before.trans (List.prefix_append parent [name])⟩
  named := by
    intro parent name found
    refine tree.named parent name fun absent => found ?_
    show (if _ then none else tree.node (parent ++ [name])) = none
    rw [absent, ite_self]

def leadsTo (links : Nat) (names : List Name) : Option Place := tree.shape.leadsTo links [] names

variable {tree}

theorem ext_node {first second : HostTree} (same : ∀ place, first.node place = second.node place) :
    first = second := by
  obtain ⟨node, _, _, _⟩ := first
  obtain ⟨other, _, _, _⟩ := second
  obtain rfl : node = other := funext same
  rfl

variable {place : Place}

theorem put_eq_some {node : HostNode} {next : HostTree} :
    tree.put place node = some next ↔
      tree.Admits place node ∧ next.node = update tree.node place (some node) := by
  unfold put
  split
  · case isTrue admits =>
      rw [Option.some.injEq]
      constructor
      · rintro rfl
        exact ⟨admits, rfl⟩
      · rintro ⟨_, same⟩
        exact ext_node fun other => by rw [same]; rfl
  · case isFalse refused => exact ⟨nofun, fun both => absurd both.1 refused⟩

variable {place other : Place}

theorem node_remove_of_prefix (notRoot : place ≠ [])
    (before : place <+: other) : (tree.remove place).node other = none := if_pos ⟨notRoot, before⟩

theorem node_remove_of_not (apart : ¬ place <+: other) :
    (tree.remove place).node other = tree.node other := if_neg fun both => apart both.2

variable {names : List Name}

theorem node_of_append (found : tree.node (place ++ names) ≠ none) : tree.node place ≠ none := by
  have deeper : tree.shape.entry (place ++ names) ≠ none := by
    intro absent
    exact found (Option.map_eq_none_iff.mp absent)
  intro absent
  exact FileTree.entry_of_append deeper (by show Option.map _ _ = _; rw [absent]; rfl)

theorem node_of_prefix (before : place <+: other)
    (found : tree.node other ≠ none) : tree.node place ≠ none := by
  obtain ⟨names, rfl⟩ := before
  exact node_of_append found

theorem node_below (notDirectory : holdsDirectory (tree.node place) = false)
    (before : place <+: other) (different : other ≠ place) : tree.node other = none := by
  obtain ⟨names, rfl⟩ := before
  cases names with
  | nil => exact absurd (List.append_nil place) different
  | cons name rest =>
    by_contra found
    rw [List.append_cons] at found
    have inside := tree.nested place name (node_of_append found)
    rw [notDirectory] at inside
    cases inside

end HostTree

/-! ### Walks in trees that have the same directories and links -/

namespace FileTree

/-- All directories and links of the one are in the other. -/
def Within (tree other : FileTree) : Prop :=
  ∀ place entry, tree.entry place = some entry → entry ≠ .file → other.entry place = some entry

theorem within_of_update {tree other : HostTree} {node : HostNode}
    (same : other.node = update tree.node place (some node))
    (keeps : ∀ old, tree.node place = some old → old.entry ≠ .file → node.entry = old.entry) :
    tree.shape.Within other.shape := by
  intro reached entry found notFile
  rcases eq_or_ne reached place with rfl | different
  · obtain ⟨old, isOld, rfl⟩ := Option.map_eq_some_iff.mp found
    show (other.node reached).map HostNode.entry = _
    rw [same, update_self, Option.map_some, keeps old isOld notFile]
  show (other.node reached).map HostNode.entry = _
  rw [same, update_of_ne different]
  exact found

variable {tree other : FileTree} {reached : Place}

theorem leadsWith_of_within (within : tree.Within other)
    {follow follow' : Place → List Name → Option Place}
    (follows : ∀ place names, follow place names = some reached →
      follow' place names = some reached)
    (directory : tree.entry reached = some .directory) (place : Place) (names : List Name)
    (leads : tree.leadsWith follow place names = some reached) :
    other.leadsWith follow' place names = some reached := by
  induction names generalizing place with
  | nil => exact leads
  | cons name rest ih =>
    rw [leadsWith] at leads ⊢
    by_cases inside : tree.entry place = some .directory
    · rw [if_neg (not_not.mpr inside)] at leads
      rw [if_neg (not_not.mpr (within place _ inside (by simp)))]
      split at leads
      · case isTrue skipped =>
          rw [if_pos skipped]
          exact ih place leads
      rename_i named
      rw [if_neg named]
      split at leads
      · case isTrue isParent =>
          rw [if_pos isParent]
          exact ih place.dropLast leads
      rename_i notParent
      rw [if_neg notParent]
      cases next : tree.entry (place ++ [name]) with
      | none =>
        rw [next] at leads
        cases leads
      | some entry =>
        rw [next] at leads
        cases entry with
        | link target =>
          rw [within _ _ next (by simp)]
          exact follows _ _ leads
        | directory =>
          rw [within _ _ next (by simp)]
          exact ih _ leads
        | file =>
          -- A file ends the walk, and the walk ends in a directory.
          cases rest with
          | nil =>
            cases leads
            rw [next] at directory
            cases directory
          | cons further rest =>
            simp only [leadsWith, next] at leads
            cases leads
    · rw [if_pos inside] at leads
      cases leads

variable {place reached : Place}

theorem leadsTo_of_within (within : tree.Within other) (links : Nat)
    (directory : tree.entry reached = some .directory)
    (leads : tree.leadsTo links place names = some reached) :
    other.leadsTo links place names = some reached := by
  induction links generalizing place names with
  | zero => exact leadsWith_of_within within (fun _ _ never => by cases never) directory _ _ leads
  | succ links ih => exact leadsWith_of_within within (fun _ _ => ih) directory _ _ leads

variable {follow : Place → List Name → Option Place} {name : Name}

/-- A first name leads to a place or through a link, whatever names come after it. -/
theorem leadsWith_cons_cases (tree : FileTree) (place : Place) (first : Name) :
    (∀ follow rest, tree.leadsWith follow place (first :: rest) = none) ∨
    (∃ next, ∀ follow rest,
      tree.leadsWith follow place (first :: rest) = tree.leadsWith follow next rest) ∨
    ∃ start target, ∀ follow rest,
      tree.leadsWith follow place (first :: rest) = follow start (target ++ rest) := by
  simp only [leadsWith]
  split_ifs with outside skipped isParent
  · exact .inl fun _ _ => rfl
  · exact .inr (.inl ⟨place, fun _ _ => rfl⟩)
  · exact .inr (.inl ⟨place.dropLast, fun _ _ => rfl⟩)
  cases tree.entry (place ++ [first]) with
  | none => exact .inl fun _ _ => rfl
  | some entry =>
    cases entry with
    | link target => exact .inr (.inr ⟨_, _, fun _ _ => rfl⟩)
    | directory | file => exact .inr (.inl ⟨place ++ [first], fun _ _ => rfl⟩)

theorem leadsWith_concat {answer : Option Place}
    (follows : ∀ place names, follow place names = some reached →
      follow place (names ++ [name]) = answer)
    (here : tree.leadsWith follow reached [name] = answer) (place : Place) (names : List Name)
    (leads : tree.leadsWith follow place names = some reached) :
    tree.leadsWith follow place (names ++ [name]) = answer := by
  induction names generalizing place with
  | nil =>
    cases leads
    exact here
  | cons first rest ih =>
    rw [List.cons_append]
    rcases tree.leadsWith_cons_cases place first with
      nowhere | ⟨next, moves⟩ | ⟨start, target, links⟩
    · rw [nowhere] at leads
      cases leads
    · rw [moves] at leads ⊢
      exact ih next leads
    · rw [links] at leads ⊢
      rw [← List.append_assoc]
      exact follows _ _ leads

/-- A walk to a directory goes on by one name as it would from there. -/
theorem leadsTo_concat (links : Nat) {answer : Option Place}
    (here : ∀ follow, tree.leadsWith follow reached [name] = answer)
    (leads : tree.leadsTo links place names = some reached) :
    tree.leadsTo links place (names ++ [name]) = answer := by
  induction links generalizing place names with
  | zero => exact leadsWith_concat (fun _ _ never => by cases never) (here _) _ _ leads
  | succ links ih => exact leadsWith_concat (fun _ _ => ih) (here _) _ _ leads

theorem leadsWith_of_concat
    (follows : ∀ place names, follow place (names ++ [name]) = some reached →
      ∃ middle, follow place names = some middle ∧ tree.entry middle = some .directory)
    (place : Place) (names : List Name)
    (leads : tree.leadsWith follow place (names ++ [name]) = some reached) :
    ∃ middle, tree.leadsWith follow place names = some middle ∧
      tree.entry middle = some .directory := by
  induction names generalizing place with
  | nil =>
    rw [List.nil_append, leadsWith] at leads
    split at leads
    · cases leads
    · case isFalse inside => exact ⟨place, rfl, not_not.mp inside⟩
  | cons first rest ih =>
    rw [List.cons_append] at leads
    rcases tree.leadsWith_cons_cases place first with
      nowhere | ⟨next, moves⟩ | ⟨start, target, links⟩
    · rw [nowhere] at leads
      cases leads
    · rw [moves] at leads ⊢
      exact ih next leads
    · rw [links, ← List.append_assoc] at leads
      rw [links]
      exact follows _ _ leads

theorem leadsTo_of_concat (links : Nat)
    (leads : tree.leadsTo links place (names ++ [name]) = some reached) :
    ∃ middle, tree.leadsTo links place names = some middle ∧
      tree.entry middle = some .directory := by
  induction links generalizing place names with
  | zero => exact leadsWith_of_concat (fun _ _ never => by cases never) _ _ leads
  | succ links ih => exact leadsWith_of_concat (fun _ _ => ih) _ _ leads

theorem leadsWith_name (directory : tree.entry reached = some .directory)
    (proper : IsEntryName name)
    (noLink : ∀ target, tree.entry (reached ++ [name]) ≠ some (.link target)) :
    tree.leadsWith follow reached [name] =
      (tree.entry (reached ++ [name])).map fun _ => reached ++ [name] := by
  rw [leadsWith, if_neg (not_not.mpr directory),
    if_neg (fun either => either.elim proper.ne_nil proper.ne_current), if_neg proper.ne_parent]
  cases found : tree.entry (reached ++ [name]) with
  | none => rfl
  | some entry =>
    cases entry with
    | file | directory => rfl
    | link target => exact absurd found (noLink target)

theorem leadsWith_parent (directory : tree.entry reached = some .directory) :
    tree.leadsWith follow reached [parentName] = some reached.dropLast := by
  rw [leadsWith, if_neg (not_not.mpr directory), if_neg (by decide), if_pos rfl]
  rfl

end FileTree

abbrev EntryName := { name : Name // IsEntryName name }

structure HostDisk where
  tree : HostTree
  /-- The names of a directory, in the order in which they are read. -/
  listing : Place → List EntryName
  distinct : ∀ place, (listing place).Nodup
  listed : ∀ (place : Place) (name : EntryName),
    tree.node (place ++ [name.val]) ≠ none → name ∈ listing place
  identity : Place → Nat × Nat
  modified : Place → Nat
  aliases : Place → List Place
  other : ∀ place, place ∉ aliases place
  shared : ∀ place another, another ∈ aliases place → place ∈ aliases another

namespace HostDisk

def ofTree (tree : HostTree) (names : List EntryName) (places : List Place)
    (identity : Place → Nat × Nat) (distinct : names.Nodup)
    (covers : ∀ place, tree.node place ≠ none → place ∈ places)
    (named : ∀ place ∈ places, ∀ name ∈ place.getLast?, ∃ entry ∈ names, entry.val = name) :
    HostDisk where
  tree := tree
  listing := fun _ => names
  distinct := fun _ => distinct
  listed := by
    intro place name found
    obtain ⟨entry, member, same⟩ := named _ (covers _ found) name.val (by simp)
    rw [← Subtype.ext same]
    exact member
  identity := identity
  modified := fun _ => 0
  aliases := fun _ => []
  other := fun _ => List.not_mem_nil
  shared := fun _ _ absent => absurd absent List.not_mem_nil

variable (disk : HostDisk)

def holds (place : Place) : Bool := (disk.tree.node place).isSome

def children (place : Place) : List EntryName :=
  (disk.listing place).filter fun name => disk.holds (place ++ [name.val])

def linkCount (place : Place) : Nat := ((disk.aliases place).filter disk.holds).length + 1

def remove (place : Place) : HostDisk :=
  { disk with
    tree := disk.tree.remove place
    listed := by
      intro parent name found
      refine disk.listed parent name fun absent => found ?_
      show (if _ then none else disk.tree.node (parent ++ [name.val])) = none
      rw [absent, ite_self] }

variable {disk} {place : Place}

theorem holds_eq_true : disk.holds place = true ↔ disk.tree.node place ≠ none :=
  Option.isSome_iff_ne_none

theorem mem_children {name : EntryName} :
    name ∈ disk.children place ↔ disk.tree.node (place ++ [name.val]) ≠ none := by
  rw [children, List.mem_filter, holds_eq_true]
  exact ⟨And.right, fun found => ⟨disk.listed place name found, found⟩⟩

theorem nodup_children : (disk.children place).Nodup := (disk.distinct place).filter _

theorem children_eq_nil_iff :
    disk.children place = [] ↔ ∀ name, disk.tree.node (place ++ [name]) = none := by
  constructor
  · intro empty name
    by_contra found
    have member := mem_children.mpr (show disk.tree.node
      (place ++ [(⟨name, disk.tree.named place name found⟩ : EntryName).val]) ≠ none from found)
    rw [empty] at member
    exact List.not_mem_nil member
  · intro absent
    rw [List.eq_nil_iff_forall_not_mem]
    exact fun name member => mem_children.mp member (absent name.val)

theorem node_below_of_empty (empty : disk.children place = []) {other : Place}
    (before : place <+: other) (different : other ≠ place) : disk.tree.node other = none := by
  obtain ⟨names, rfl⟩ := before
  cases names with
  | nil => exact absurd (List.append_nil place) different
  | cons name rest =>
    by_contra found
    rw [List.append_cons] at found
    exact HostTree.node_of_append found (children_eq_nil_iff.mp empty name)

/-- The later disk is what is left of the earlier one, and only doomed places were
emptied. -/
structure Remnant (doomed : Place → Prop) (later earlier : HostDisk) : Prop where
  node : ∀ place, later.tree.node place = earlier.tree.node place ∨
    later.tree.node place = none ∧ doomed place
  listing : later.listing = earlier.listing
  identity : later.identity = earlier.identity
  modified : later.modified = earlier.modified
  aliases : later.aliases = earlier.aliases

namespace Remnant

variable {doomed : Place → Prop} {first second third : HostDisk}

theorem refl (disk : HostDisk) : Remnant doomed disk disk := ⟨fun _ => .inl rfl, rfl, rfl, rfl, rfl⟩

theorem trans (later : Remnant doomed third second) (earlier : Remnant doomed second first) :
    Remnant doomed third first := by
  refine ⟨fun place => ?_, later.listing.trans earlier.listing,
    later.identity.trans earlier.identity, later.modified.trans earlier.modified,
    later.aliases.trans earlier.aliases⟩
  rcases later.node place with same | gone
  · rw [same]
    exact earlier.node place
  · exact .inr gone

theorem mono {wider : Place → Prop} (left : Remnant doomed second first)
    (widens : ∀ place, doomed place → wider place) : Remnant wider second first :=
  ⟨fun place => (left.node place).imp_right (And.imp_right (widens place)), left.listing,
    left.identity, left.modified, left.aliases⟩

theorem remove (disk : HostDisk) (place : Place)
    (falls : ∀ other, place <+: other → disk.tree.node other ≠ none → doomed other) :
    Remnant doomed (disk.remove place) disk := by
  refine ⟨fun other => ?_, rfl, rfl, rfl, rfl⟩
  by_cases inside : place ≠ [] ∧ place <+: other
  · by_cases found : disk.tree.node other = none
    · refine .inl ?_
      rw [found]
      exact HostTree.node_remove_of_prefix inside.1 inside.2
    · exact .inr ⟨HostTree.node_remove_of_prefix inside.1 inside.2, falls other inside.2 found⟩
  · exact .inl (if_neg inside)

variable (left : Remnant doomed second first) {place : Place}

include left

theorem node_of_found (found : second.tree.node place ≠ none) :
    second.tree.node place = first.tree.node place :=
  (left.node place).resolve_right fun gone => found gone.1

theorem node_of_spared (spared : ¬ doomed place) : second.tree.node place = first.tree.node place :=
  (left.node place).resolve_right fun gone => spared gone.2

theorem within : second.tree.shape.Within first.tree.shape := by
  intro reached entry found _
  have there : second.tree.node reached ≠ none := by
    intro absent
    have missing : second.tree.shape.entry reached = none := congrArg (Option.map _) absent
    rw [missing] at found
    cases found
  show (first.tree.node reached).map HostNode.entry = some entry
  rw [← left.node_of_found there]
  exact found

end Remnant

theorem linkCount_ne_one {another : Place} (isAlias : another ∈ disk.aliases place)
    (found : disk.tree.node another ≠ none) : disk.linkCount place ≠ 1 := by
  have member : another ∈ (disk.aliases place).filter disk.holds :=
    List.mem_filter.mpr ⟨isAlias, holds_eq_true.mpr found⟩
  have positive := List.length_pos_of_mem member
  rw [linkCount]
  omega

end HostDisk

end XFerry
