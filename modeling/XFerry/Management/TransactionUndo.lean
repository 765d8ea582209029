/-
What a rollback does to the tree, for every history of records and changes that a
transaction can have.

The rollback meets a tree that is not the one each record was taken of.  It has the same
directories and links, so each path still leads to its place, and it agrees outside the
places that earlier records restore later.
-/

import XFerry.Management.FilesystemTransaction

namespace XFerry.Management.FilesystemTransaction

open CrashProgram Program Function List

variable {kernel : Kernel} {tree other : HostTree} {path : HostPath} {place : Place}

/-! ### Walks -/

theorem locate_cons {name : PathName} {up : HostPath}
    (located : locate kernel tree (name :: up) = some place) :
    ∃ directory, follow kernel tree up = some directory ∧
      holdsDirectory (tree.node directory) = true ∧
      place = if name.val = parentName then directory.dropLast else directory ++ [name.val] := by
  rw [locate] at located
  cases above : tree.leadsTo kernel.links (namesUp up).reverse with
  | none =>
    rw [above] at located
    cases located
  | some directory =>
    simp only [above] at located
    split at located
    · case isTrue inside =>
        cases located
        exact ⟨directory, above, inside, rfl⟩
    · case isFalse outside => cases located

theorem shape_directory (directory : holdsDirectory (tree.node place) = true) :
    tree.shape.entry place = some .directory := holdsDirectory_iff.mp directory

theorem locate_of_within (within : tree.shape.Within other.shape)
    (located : locate kernel tree path = some place) : locate kernel other path = some place := by
  cases path with
  | nil => exact located
  | cons name up =>
    obtain ⟨directory, above, inside, rfl⟩ := locate_cons located
    have leads : other.leadsTo kernel.links (namesUp up).reverse = some directory :=
      FileTree.leadsTo_of_within within kernel.links (shape_directory inside) above
    have still : holdsDirectory (other.node directory) = true :=
      holdsDirectory_iff.mpr (within directory _ (shape_directory inside) nofun)
    simp only [locate, leads, still, if_true]

section

variable (located : locate kernel tree path = some place)
include located

section

variable (noLink : holdsLink (tree.node place) = false)
include noLink

theorem follow_of_locate : follow kernel tree path = (tree.node place).map fun _ => place := by
  cases path with
  | nil =>
    cases located
    cases isRoot : tree.node [] with
    | none =>
      have root := tree.root
      rw [isRoot] at root
      cases root
    | some node =>
      unfold follow HostTree.leadsTo
      cases kernel.links with
      | zero | succ => rfl
  | cons name up =>
    obtain ⟨directory, above, inside, rfl⟩ := locate_cons located
    have shaped := shape_directory inside
    have step : namesUp (name :: up) = name.val :: namesUp up := rfl
    rw [follow, step, reverse_cons]
    split at noLink
    · case isTrue isParent =>
        rw [if_pos isParent, isParent]
        have there : tree.node directory.dropLast ≠ none :=
          HostTree.node_of_prefix (List.dropLast_prefix directory)
            (ne_none_of_holdsDirectory inside)
        obtain ⟨node, found⟩ := Option.ne_none_iff_exists'.mp there
        rw [found]
        exact FileTree.leadsTo_concat kernel.links (fun _ => FileTree.leadsWith_parent shaped) above
    · case isFalse named =>
        rw [if_neg named]
        have proper : IsEntryName name.val := name.property.resolve_right named
        refine FileTree.leadsTo_concat kernel.links (fun goOn => ?_) above
        rw [FileTree.leadsWith_name shaped proper]
        · show ((tree.node _).map _).map _ = _
          rw [Option.map_map]
          rfl
        · intro target isLink
          rw [holdsLink_of_entry isLink] at noLink
          cases noLink

theorem isDir_of_locate : isDir kernel tree path = holdsDirectory (tree.node place) := by
  rw [isDir, follow_of_locate located noLink]
  cases found : tree.node place with
  | none => rfl
  | some node =>
    show holdsDirectory (tree.node place) = _
    rw [found]

theorem isFile_of_locate : isFile kernel tree path = holdsFile (tree.node place) := by
  rw [isFile, follow_of_locate located noLink]
  cases found : tree.node place with
  | none => rfl
  | some node =>
    show holdsFile (tree.node place) = _
    rw [found]

theorem pathExists_of_locate : pathExists kernel tree path = (tree.node place).isSome := by
  rw [pathExists, follow_of_locate located noLink, Option.isSome_map]

end

theorem isSymlink_of_locate : isSymlink kernel tree path = holdsLink (tree.node place) := by
  rw [isSymlink, located]
  rfl

theorem isDir_tail (below : place ≠ []) : isDir kernel tree path.tail = true := by
  cases path with
  | nil => cases located; exact absurd rfl below
  | cons name up =>
    obtain ⟨directory, above, inside, _⟩ := locate_cons located
    rw [tail_cons, isDir, above]
    exact inside

end

theorem pathExists_of_isDir (directory : isDir kernel tree path = true) :
    pathExists kernel tree path = true := by
  unfold isDir at directory
  unfold pathExists
  cases leads : follow kernel tree path with
  | none =>
    rw [leads] at directory
    cases directory
  | some place => rfl

theorem isDir_of_locate_none (lost : locate kernel tree path = none) :
    isDir kernel tree path = false := by
  rw [← Bool.not_eq_true]
  intro directory
  unfold isDir at directory
  cases leads : follow kernel tree path with
  | none =>
    rw [leads] at directory
    cases directory
  | some reached =>
    cases path with
    | nil => cases lost
    | cons name up =>
      have step : namesUp (name :: up) = name.val :: namesUp up := rfl
      rw [follow, step, reverse_cons] at leads
      obtain ⟨middle, above, inside⟩ := FileTree.leadsTo_of_concat kernel.links leads
      have above : tree.leadsTo kernel.links (namesUp up).reverse = some middle := above
      simp only [locate, above, holdsDirectory_iff.mpr inside, if_true] at lost
      cases lost

/-! ### System calls -/

variable {world : TransactionWorld} {next : HostTree}

theorem final_syscall {change : HostTree → Option HostTree} (done : change world.tree = some next) :
    (syscall change).final world = (.ok (), { world with tree := next }) := by
  unfold syscall
  rw [final_bind_of_ok (final_inspect id world)]
  simp only [id_eq, done]
  rfl

theorem final_removeCurrent (located : locate kernel world.tree path = some place)
    (below : place ≠ []) :
    ∃ next : HostTree,
      (removeCurrent kernel path).final world = (.ok (), { world with tree := next }) ∧
      ∀ other, next.node other = if place <+: other then none else world.tree.node other := by
  have removed (other : Place) : (world.tree.remove place).node other =
      if place <+: other then none else world.tree.node other := by
    split
    · case isTrue before => exact HostTree.node_remove_of_prefix below before
    · case isFalse apart => exact HostTree.node_remove_of_not apart
  unfold removeCurrent
  rw [final_bind_of_ok (final_inspect id world), id_eq, isSymlink_of_locate located]
  cases found : world.tree.node place with
  | none =>
    have noLink : holdsLink (world.tree.node place) = false := by rw [found]; rfl
    rw [isFile_of_locate located noLink, isDir_of_locate located noLink, found]
    refine ⟨world.tree, rfl, fun other => ?_⟩
    split
    · case isTrue before =>
        by_contra present
        exact HostTree.node_of_prefix before present found
    · case isFalse apart => rfl
  | some node =>
    cases node with
    | link target uid gid =>
      refine ⟨world.tree.remove place, ?_, removed⟩
      rw [if_pos (by rfl)]
      exact final_syscall (by simp only [unlinkEntry, located, found]; rfl)
    | file content attributes =>
      have noLink : holdsLink (world.tree.node place) = false := by rw [found]; rfl
      refine ⟨world.tree.remove place, ?_, removed⟩
      rw [isFile_of_locate located noLink, found, if_pos (by rfl)]
      exact final_syscall (by simp only [unlinkEntry, located, found]; rfl)
    | directory attributes =>
      have noLink : holdsLink (world.tree.node place) = false := by rw [found]; rfl
      refine ⟨world.tree.remove place, ?_, removed⟩
      rw [isFile_of_locate located noLink, isDir_of_locate located noLink, found,
        if_neg nofun, if_pos (by rfl)]
      exact final_syscall (by simp only [removeTree, located, found]; rfl)

/-- `mkdir(parents=True, exist_ok=True)` of a directory that is there. -/
theorem final_makeParents (unrecorded : Bool) (located : locate kernel world.tree path = some place)
    (directory : holdsDirectory (world.tree.node place) = true) :
    (makeParents kernel unrecorded true path).final world = (.ok (), world) := by
  have noLink := holdsLink_eq_false_of_holdsDirectory directory
  have made : (makeDirectory kernel unrecorded true path).final world = (.ok (), world) := by
    unfold makeDirectory
    rw [final_bind_of_ok (final_inspect id world), id_eq]
    have refused : mkdir kernel world.tree path = none := by
      obtain ⟨node, found⟩ := Option.ne_none_iff_exists'.mp (ne_none_of_holdsDirectory directory)
      simp only [mkdir, located, found]
    rw [located, refused]
    simp only [isDir_of_locate located noLink, directory, Bool.and_self, if_true]
    rfl
  cases path with
  | nil => exact made
  | cons name up =>
    rw [makeParents, final_bind_of_ok (final_inspect id world), id_eq, located]
    exact made

variable {attributes : Attributes}

theorem chmod_of_locate (located : locate kernel tree path = some place)
    (found : tree.node place = some (.directory attributes)) (mode : Nat) :
    chmod kernel tree path mode = tree.put place (.directory { attributes with mode := mode }) := by
  simp only [chmod, follow_of_locate located (by rw [found]; rfl), found, Option.map_some]

theorem chown_of_locate (located : locate kernel tree path = some place)
    (found : tree.node place = some (.directory attributes)) (uid gid : Nat) :
    chown kernel tree path uid gid =
      tree.put place (.directory { attributes with uid := uid, gid := gid }) := by
  simp only [chown, follow_of_locate located (by rw [found]; rfl), found, Option.map_some]

section Pruned

variable {retained : List HostPath}

theorem pruneChildren_node_self :
    (pruneChildren retained path place tree).node place = tree.node place := by
  show (if _ then none else _) = _
  rw [drop_length, if_neg (fun both => by cases both.2)]

theorem pruneChildren_node_either {reached : Place} :
    (pruneChildren retained path place tree).node reached = tree.node reached ∨
      (pruneChildren retained path place tree).node reached = none := by
  show (if _ then none else _) = _ ∨ (if _ then none else _) = _
  split
  · exact .inr rfl
  · exact .inl rfl

theorem pruneChildren_node_of_not {reached : Place} (apart : ¬ place <+: reached) :
    (pruneChildren retained path place tree).node reached = tree.node reached :=
  if_neg fun both => apart both.1

end Pruned

theorem put_again (other : HostTree) (node : HostNode) (found : tree.node place ≠ none)
    (directories : ∀ y, holdsDirectory (tree.node y) = true → holdsDirectory (other.node y) = true)
    (root : place = [] → node.isDirectory = true)
    (still : holdsDirectory (other.node place) = true → node.isDirectory = true) :
    ∃ next : HostTree, other.put place node = some next ∧
      next.node = Function.update other.node place (some node) := by
  have admits : other.Admits place node := by
    refine ⟨root, fun name isLast => ?_, still⟩
    have split : place.dropLast ++ [name] = place := dropLast_append_getLast? name isLast
    rw [← split] at found
    exact ⟨tree.named _ _ found, directories _ (tree.nested _ _ found)⟩
  exact ⟨other.putAt place node admits, dif_pos admits, rfl⟩

/-! ### Histories -/

variable (kernel) in
/-- The record is that of the tree.  The path leads to its place without what stands there,
and no link stands at a place that has been recorded before. -/
structure Captures (states : List Recorded) (tree : HostTree) (recorded : Recorded) : Prop where
  before : recorded.before = tree
  located : locate kernel tree recorded.path = some recorded.place
  state : recorded.state = tree.node recorded.place
  fileStable : ∀ content attributes, tree.node recorded.place = some (.file content attributes) →
    kernel.afterChown attributes.mode = attributes.mode
  linkLocated : holdsLink (tree.node recorded.place) = true →
    locate kernel (tree.remove recorded.place) recorded.path = some recorded.place
  linkFree : ∀ earlier ∈ states, ∀ place, earlier.covers place = true →
    holdsLink (tree.node place) = false

/-- A change of the tree that the records and the list of made directories account for. -/
structure Change (states : List Recorded) (made made' : List Place) (tree next : HostTree) :
    Prop where
  directories : ∀ place, holdsDirectory (tree.node place) = true →
    holdsDirectory (next.node place) = true
  others : ∀ place, (∀ recorded ∈ states, recorded.covers place = false) →
    next.node place = tree.node place ∨ place ∈ made'
  links : ∀ place, holdsLink (next.node place) = true → next.node place = tree.node place
  files : ∀ recorded ∈ states, recorded.ofFile = true →
    holdsFile (tree.node recorded.place) = true → holdsFile (next.node recorded.place) = true
  grown : made ⊆ made'
  anew : ∀ place ∈ made', holdsDirectory (next.node place) = true ∧
    (place ∈ made ∨ tree.node place = none)

variable (kernel) in
/-- How a transaction comes from the initial tree to a tree, with these records and made
directories. -/
inductive History (initial : HostTree) : List Recorded → List Place → HostTree → Prop where
  | start : History initial [] [] initial
  | change {states : List Recorded} {made made' : List Place} {tree next : HostTree}
      (history : History initial states made tree)
      (change : Change states made made' tree next) : History initial states made' next
  | record {states : List Recorded} {made : List Place} {tree : HostTree} {recorded : Recorded}
      (history : History initial states made tree)
      (captures : Captures kernel states tree recorded) :
      History initial (states ++ [recorded]) made tree

namespace History

variable {initial : HostTree} {states : List Recorded} {made : List Place}

theorem holdsFile_of_record (history : History kernel initial states made tree)
    {recorded : Recorded} (member : recorded ∈ states) (ofFile : recorded.ofFile = true) :
    holdsFile (tree.node recorded.place) = true := by
  induction history with
  | start => cases member
  | change history change ih => exact change.files recorded member ofFile (ih member)
  | record history captures ih =>
    rcases mem_append.mp member with earlier | latest
    · exact ih earlier
    obtain rfl := mem_singleton.mp latest
    rw [← captures.before]
    exact ofFile

theorem holdsDirectory_of_made (history : History kernel initial states made tree) {place : Place}
    (member : place ∈ made) : holdsDirectory (tree.node place) = true := by
  induction history with
  | start => cases member
  | change history change ih => exact (change.anew place member).1
  | record history captures ih => exact ih member

end History

/-! ### What the rollback meets -/

theorem covers_of_not_link {recorded : Recorded}
    (noLink : holdsLink (recorded.before.node recorded.place) = false) (place : Place) :
    recorded.covers place = decide (recorded.place = place) := by
  rw [Recorded.covers, noLink]
  rfl

theorem covers_of_link {recorded : Recorded}
    (isLink : holdsLink (recorded.before.node recorded.place) = true) (place : Place) :
    recorded.covers place = recorded.place.isPrefixOf place := by
  rw [Recorded.covers, isLink]
  rfl

/-- The rolled back tree, before the records are undone.  Directories are still there, and
outside the places of the records it differs by directories that are kept.  `mayFile` are the
places where a file stood when the rollback began. -/
structure Matches (kept mayFile : Place → Prop) (states : List Recorded) (made : List Place)
    (tree rolled : HostTree) : Prop where
  directories : ∀ place, holdsDirectory (tree.node place) = true →
    holdsDirectory (rolled.node place) = true
  others : ∀ place, (∀ recorded ∈ states, recorded.covers place = false) →
    rolled.node place = tree.node place ∨
      kept place ∧ holdsDirectory (rolled.node place) = true ∧
        (tree.node place = none ∨ place ∈ made)
  links : ∀ place, holdsLink (rolled.node place) = true → rolled.node place = tree.node place
  files : ∀ recorded ∈ states, recorded.ofFile = true →
    holdsFile (rolled.node recorded.place) = true
  standing : ∀ place, holdsFile (rolled.node place) = true → mayFile place

namespace Matches

variable {kept mayFile : Place → Prop} {states : List Recorded} {made made' : List Place}
  {rolled : HostTree}

theorem of_change (change : Change states made made' tree next)
    (keeps : ∀ place ∈ made', kept place)
    (matching : Matches kept mayFile states made' next rolled) :
    Matches kept mayFile states made tree rolled where
  directories place directory := matching.directories place (change.directories place directory)
  others := by
    intro place uncovered
    have isMade (member : place ∈ made') : kept place ∧
        holdsDirectory (rolled.node place) = true ∧ (tree.node place = none ∨ place ∈ made) := by
      obtain ⟨directory, anew⟩ := change.anew place member
      exact ⟨keeps place member, matching.directories place directory, anew.symm⟩
    rcases matching.others place uncovered with same | ⟨isKept, directory, anew⟩
    · rcases change.others place uncovered with unchanged | member
      · exact .inl (same.trans unchanged)
      · exact .inr (isMade member)
    rcases change.others place uncovered with unchanged | member
    · rcases anew with absent | member
      · exact .inr ⟨isKept, directory, .inl (unchanged ▸ absent)⟩
      · exact .inr (isMade member)
    · exact .inr (isMade member)
  links := by
    intro place isLink
    have same := matching.links place isLink
    rw [same] at isLink ⊢
    exact change.links place isLink
  __ := matching

theorem link_of_uncovered (matching : Matches kept mayFile states made tree rolled)
    (madeDirectories : ∀ place ∈ made, holdsDirectory (tree.node place) = true) {place : Place}
    (isLink : holdsLink (tree.node place) = true)
    (uncovered : ∀ recorded ∈ states, recorded.covers place = false) :
    rolled.node place = tree.node place := by
  rcases matching.others place uncovered with same | ⟨_, _, absent | member⟩
  · exact same
  · rw [absent] at isLink
    cases isLink
  · rw [holdsLink_eq_false_of_holdsDirectory (madeDirectories place member)] at isLink
    cases isLink

theorem entry_of_uncovered (matching : Matches kept mayFile states made tree rolled)
    (madeDirectories : ∀ place ∈ made, holdsDirectory (tree.node place) = true) {place : Place}
    {entry : Entry} (found : tree.shape.entry place = some entry) (notFile : entry ≠ .file)
    (uncovered : holdsLink (tree.node place) = true →
      ∀ recorded ∈ states, recorded.covers place = false) :
    rolled.shape.entry place = some entry := by
  have present : (tree.node place).map HostNode.entry = some entry := found
  cases entry with
  | file => exact absurd rfl notFile
  | directory =>
    exact shape_directory (matching.directories place (holdsDirectory_iff.mpr present))
  | link target =>
    have isLink := holdsLink_of_entry present
    show (rolled.node place).map HostNode.entry = _
    rw [matching.link_of_uncovered madeDirectories isLink (uncovered isLink)]
    exact present

end Matches

/-! ### One record -/

section Restoration

variable {kept mayFile : Place → Prop} {states : List Recorded} {made : List Place}
  {rolled : HostTree} {recorded : Recorded}

/-- Why a record may be undone: it is one of the tree, and the rolled back tree agrees with
the tree but for what this record and earlier ones restore. -/
structure Undoing (kernel : Kernel) (kept mayFile : Place → Prop) (states : List Recorded)
    (made : List Place) (tree rolled : HostTree) (recorded : Recorded) : Prop where
  captures : Captures kernel states tree recorded
  madeDirectories : ∀ place ∈ made, holdsDirectory (tree.node place) = true
  earlierFiles : ∀ earlier ∈ states, earlier.ofFile = true →
    holdsFile (tree.node earlier.place) = true
  matching : Matches kept mayFile (states ++ [recorded]) made tree rolled

theorem uncovered_concat {place : Place} (earlier : ∀ other ∈ states, other.covers place = false)
    (apart : recorded.covers place = false) :
    ∀ other ∈ states ++ [recorded], other.covers place = false := by
  intro other member
  rcases mem_append.mp member with before | latest
  · exact earlier other before
  · rw [mem_singleton.mp latest]
    exact apart

namespace Undoing

variable (undoing : Undoing kernel kept mayFile states made tree rolled recorded)
include undoing

theorem replaced (noLink : holdsLink (tree.node recorded.place) = false)
    (same : next.node = Function.update rolled.node recorded.place (tree.node recorded.place)) :
    Matches kept mayFile states made tree next := by
  have matching := undoing.matching
  have here : next.node recorded.place = tree.node recorded.place := by
    rw [same, update_self]
  have there {place : Place} (different : place ≠ recorded.place) :
      next.node place = rolled.node place := by
    rw [same, update_of_ne different]
  refine ⟨fun place directory => ?_, fun place earlier => ?_, fun place isLink => ?_,
    fun earlier member ofFile => ?_, fun place isFile => ?_⟩
  · rcases eq_or_ne place recorded.place with rfl | different
    · rw [here]
      exact directory
    · rw [there different]
      exact matching.directories place directory
  · rcases eq_or_ne place recorded.place with rfl | different
    · exact .inl here
    rw [there different]
    refine matching.others place (uncovered_concat earlier ?_)
    rw [covers_of_not_link (by rw [undoing.captures.before]; exact noLink)]
    exact decide_eq_false different.symm
  · rcases eq_or_ne place recorded.place with rfl | different
    · exact here
    · rw [there different] at isLink ⊢
      exact matching.links place isLink
  · rcases eq_or_ne earlier.place recorded.place with same | different
    · rw [same, here, ← same]
      exact undoing.earlierFiles earlier member ofFile
    · rw [there different]
      exact matching.files earlier (mem_append_left _ member) ofFile
  · rcases eq_or_ne place recorded.place with rfl | different
    · refine matching.standing _ (matching.files recorded (by simp) ?_)
      rw [here] at isFile
      rw [Recorded.ofFile, undoing.captures.before]
      exact isFile
    · rw [there different] at isFile
      exact matching.standing place isFile

theorem relinked (isLink : holdsLink (tree.node recorded.place) = true)
    (here : next.node recorded.place = tree.node recorded.place)
    (below : ∀ place, recorded.place <+: place → place ≠ recorded.place → next.node place = none)
    (there : ∀ place, ¬ recorded.place <+: place → next.node place = rolled.node place) :
    Matches kept mayFile states made tree next := by
  have matching := undoing.matching
  have empty {place : Place} (before : recorded.place <+: place)
      (different : place ≠ recorded.place) : tree.node place = none := by
    refine HostTree.node_below ?_ before different
    rw [← Bool.not_eq_true]
    intro directory
    rw [holdsLink_eq_false_of_holdsDirectory directory] at isLink
    cases isLink
  have cases_on (place : Place) : next.node place = tree.node place ∧ recorded.place <+: place ∨
      next.node place = rolled.node place ∧ ¬ recorded.place <+: place := by
    by_cases before : recorded.place <+: place
    · rcases eq_or_ne place recorded.place with rfl | different
      · exact .inl ⟨here, before⟩
      · exact .inl ⟨by rw [below place before different, empty before different], before⟩
    · exact .inr ⟨there place before, before⟩
  refine ⟨fun place directory => ?_, fun place earlier => ?_, fun place link => ?_,
    fun earlier member ofFile => ?_, fun place isFile => ?_⟩
  · rcases cases_on place with ⟨same, _⟩ | ⟨same, _⟩
    · rw [same]
      exact directory
    · rw [same]
      exact matching.directories place directory
  · rcases cases_on place with ⟨same, _⟩ | ⟨same, apart⟩
    · exact .inl same
    rw [same]
    refine matching.others place (uncovered_concat earlier ?_)
    rw [covers_of_link (by rw [undoing.captures.before]; exact isLink), ← Bool.not_eq_true,
      isPrefixOf_iff_prefix]
    exact apart
  · rcases cases_on place with ⟨same, _⟩ | ⟨same, _⟩
    · exact same
    · rw [same] at link ⊢
      exact matching.links place link
  · rcases cases_on earlier.place with ⟨same, _⟩ | ⟨same, _⟩
    · rw [same]
      exact undoing.earlierFiles earlier member ofFile
    · rw [same]
      exact matching.files earlier (mem_append_left _ member) ofFile
  · rcases cases_on place with ⟨same, before⟩ | ⟨same, _⟩
    · rw [same] at isFile
      rcases eq_or_ne place recorded.place with rfl | different
      · cases found : tree.node recorded.place with
        | none =>
          rw [found] at isFile
          cases isFile
        | some node =>
          rw [found] at isFile isLink
          cases node with
          | file | directory => cases isLink
          | link target uid gid => cases isFile
      · rw [empty before different] at isFile
        cases isFile
    · rw [same] at isFile
      exact matching.standing place isFile

theorem emptied (absent : tree.node recorded.place = none)
    (here : next.node recorded.place = none ∨
      kept recorded.place ∧ holdsDirectory (next.node recorded.place) = true)
    (below : ∀ place, recorded.place <+: place →
      next.node place = rolled.node place ∨ next.node place = none)
    (there : ∀ place, ¬ recorded.place <+: place → next.node place = rolled.node place) :
    Matches kept mayFile states made tree next := by
  have matching := undoing.matching
  have empty {place : Place} (before : recorded.place <+: place) : tree.node place = none := by
    by_contra present
    exact HostTree.node_of_prefix before present absent
  have either (place : Place) : next.node place = rolled.node place ∨ next.node place = none := by
    by_cases before : recorded.place <+: place
    · exact below place before
    · exact .inl (there place before)
  refine ⟨fun place directory => ?_, fun place earlier => ?_, fun place isLink => ?_,
    fun earlier member ofFile => ?_, fun place isFile => ?_⟩
  · rw [there place fun before => ne_none_of_holdsDirectory directory (empty before)]
    exact matching.directories place directory
  · rcases eq_or_ne place recorded.place with rfl | different
    · rcases here with gone | ⟨isKept, directory⟩
      · exact .inl (gone.trans absent.symm)
      · exact .inr ⟨isKept, directory, .inl absent⟩
    have uncovered : ∀ other ∈ states ++ [recorded], other.covers place = false := by
      refine uncovered_concat earlier ?_
      rw [covers_of_not_link (by rw [undoing.captures.before, absent]; rfl)]
      exact decide_eq_false different.symm
    by_cases before : recorded.place <+: place
    · rcases below place before with same | gone
      · rw [same]
        exact matching.others place uncovered
      · exact .inl (gone.trans (empty before).symm)
    · rw [there place before]
      exact matching.others place uncovered
  · rcases either place with same | gone
    · rw [same] at isLink ⊢
      exact matching.links place isLink
    · rw [gone] at isLink
      cases isLink
  · have isFile := undoing.earlierFiles earlier member ofFile
    rw [there _ fun before => ne_none_of_holdsFile isFile (empty before)]
    exact matching.files earlier (mem_append_left _ member) ofFile
  · rcases either place with same | gone
    · rw [same] at isFile
      exact matching.standing place isFile
    · rw [gone] at isFile
      cases isFile

theorem located (noLink : holdsLink (tree.node recorded.place) = false) :
    locate kernel rolled recorded.path = some recorded.place := by
  refine locate_of_within (fun place entry found notFile => ?_) undoing.captures.located
  refine undoing.matching.entry_of_uncovered undoing.madeDirectories found notFile ?_
  intro isLink
  refine uncovered_concat (fun other member => ?_) ?_
  · rw [← Bool.not_eq_true]
    intro covered
    rw [undoing.captures.linkFree other member place covered] at isLink
    cases isLink
  · rw [covers_of_not_link (by rw [undoing.captures.before]; exact noLink)]
    refine decide_eq_false ?_
    rintro rfl
    rw [noLink] at isLink
    cases isLink

theorem located_link (isLink : holdsLink (tree.node recorded.place) = true)
    (there : ∀ place, ¬ recorded.place <+: place → other.node place = rolled.node place) :
    locate kernel other recorded.path = some recorded.place := by
  have notRoot : recorded.place ≠ [] := by
    intro isRoot
    rw [isRoot, holdsLink_eq_false_of_holdsDirectory tree.root] at isLink
    cases isLink
  refine locate_of_within (fun place entry found notFile => ?_)
    (undoing.captures.linkLocated isLink)
  by_cases before : recorded.place <+: place
  · have gone : (tree.remove recorded.place).shape.entry place = none :=
      congrArg (Option.map HostNode.entry) (HostTree.node_remove_of_prefix notRoot before)
    rw [gone] at found
    cases found
  · have same : tree.shape.entry place = some entry :=
      (congrArg (Option.map HostNode.entry) (HostTree.node_remove_of_not before)).symm.trans found
    refine Eq.trans (congrArg (Option.map HostNode.entry) (there place before)) ?_
    refine undoing.matching.entry_of_uncovered undoing.madeDirectories same notFile ?_
    intro link
    refine uncovered_concat (fun earlier member => ?_) ?_
    · rw [← Bool.not_eq_true]
      intro covered
      rw [undoing.captures.linkFree earlier member place covered] at link
      cases link
    · rw [covers_of_link (by rw [undoing.captures.before]; exact isLink), ← Bool.not_eq_true,
        isPrefixOf_iff_prefix]
      exact before

end Undoing

variable {world : TransactionWorld}

/-- `chmod` and `chown` of a directory, one after the other. -/
theorem final_restat {path : HostPath} {place : Place} (mode uid gid : Nat)
    (located : locate kernel world.tree path = some place)
    (directory : holdsDirectory (world.tree.node place) = true) :
    ∃ next : HostTree,
      (do syscall fun tree => chmod kernel tree path mode
          syscall fun tree => chown kernel tree path uid gid : TransactionProgram).final world =
        (.ok (), { world with tree := next }) ∧
      next.node = Function.update world.tree.node place
        (some (.directory { mode := mode, uid := uid, gid := gid })) := by
  obtain ⟨current, found⟩ := exists_of_holdsDirectory directory
  obtain ⟨first, isFirst, firstNode⟩ := put_again world.tree
    (.directory { current with mode := mode }) (by rw [found]; nofun)
    (fun _ holds => holds) (fun _ => rfl) (fun _ => rfl)
  have firstFound : first.node place = some (.directory { current with mode := mode }) := by
    rw [firstNode, update_self]
  have firstLocated : locate kernel first path = some place := by
    refine locate_of_within (FileTree.within_of_update firstNode ?_) located
    intro old isOld notFile
    rw [found] at isOld
    cases isOld
    rfl
  obtain ⟨second, isSecond, secondNode⟩ := put_again first
    (.directory { mode := mode, uid := uid, gid := gid }) (by rw [firstFound]; nofun)
    (fun _ holds => holds) (fun _ => rfl) (fun _ => rfl)
  refine ⟨second, ?_, by rw [secondNode, firstNode, update_idem]⟩
  rw [final_bind_of_ok (final_syscall ((chmod_of_locate located found mode).trans isFirst))]
  exact final_syscall ((chown_of_locate firstLocated firstFound uid gid).trans isSecond)

section

variable (undoing : Undoing kernel kept mayFile states made tree world.tree recorded)
include undoing

theorem restore_directory (found : tree.node recorded.place = some (.directory attributes)) :
    ∃ next : HostTree,
      (restore kernel recorded).final world = (.ok (), { world with tree := next }) ∧
      Matches kept mayFile states made tree next := by
  have noLink : holdsLink (tree.node recorded.place) = false := by rw [found]; rfl
  have located := undoing.located noLink
  have directory := undoing.matching.directories recorded.place (by rw [found]; rfl)
  have stillNoLink := holdsLink_eq_false_of_holdsDirectory directory
  obtain ⟨next, done, same⟩ :=
    final_restat attributes.mode attributes.uid attributes.gid located directory
  refine ⟨next, ?_, undoing.replaced noLink (by rw [same, found])⟩
  unfold restore
  rw [undoing.captures.state, found]
  rw [final_bind_of_ok (final_inspect id world), id_eq, isSymlink_of_locate located,
    isDir_of_locate located stillNoLink, stillNoLink, directory, Bool.not_true, Bool.and_false,
    Bool.or_self, if_neg Bool.false_ne_true,
    final_bind_of_ok (final_makeParents false located directory)]
  exact done

theorem restore_file {content : List UInt8}
    (found : tree.node recorded.place = some (.file content attributes)) :
    ∃ next : HostTree,
      (restore kernel recorded).final world = (.ok (), { world with tree := next }) ∧
      Matches kept mayFile states made tree next := by
  have noLink : holdsLink (tree.node recorded.place) = false := by rw [found]; rfl
  have located := undoing.located noLink
  have isFile : holdsFile (world.tree.node recorded.place) = true := by
    refine undoing.matching.files recorded (by simp) ?_
    rw [Recorded.ofFile, undoing.captures.before, found]
    rfl
  have notDirectory := holdsDirectory_eq_false_of_holdsFile isFile
  have notRoot : recorded.place ≠ [] := by
    intro isRoot
    rw [isRoot, world.tree.root] at notDirectory
    cases notDirectory
  obtain ⟨next, isNext, nextNode⟩ := put_again world.tree
    (.file content attributes) (by rw [found]; nofun) undoing.matching.directories
    (fun isRoot => absurd isRoot notRoot) (by rw [notDirectory]; nofun)
  have matching := undoing.replaced noLink (by rw [nextNode, found])
  refine ⟨next, ?_, matching⟩
  have nextLocated : locate kernel next recorded.path = some recorded.place := by
    refine locate_of_within (FileTree.within_of_update nextNode ?_) located
    intro old isOld notFile
    rw [isOld] at isFile
    cases old with
    | file content attributes => exact absurd rfl notFile
    | directory | link => cases isFile
  have parent := isDir_tail located notRoot
  unfold restore
  rw [undoing.captures.state, found]
  rw [final_bind_of_ok (final_inspect id world), id_eq, pathExists_of_isDir parent, Bool.not_true,
    if_neg Bool.false_ne_true, atomicReplace, final_bind_of_ok (final_inspect id world), id_eq,
    if_pos parent]
  have replaces : replaceWith kernel world.tree recorded.path content attributes.mode
      attributes.uid attributes.gid = some next := by
    simp only [replaceWith, located, undoing.captures.fileStable content attributes found]
    exact isNext
  rw [final_bind_of_ok (final_syscall replaces), final_bind_of_ok (final_inspect id _), id_eq,
    if_pos (isDir_tail nextLocated notRoot)]
  rfl

theorem restore_link {target : List Char} {uid gid : Nat}
    (found : tree.node recorded.place = some (.link target uid gid)) :
    ∃ next : HostTree,
      (restore kernel recorded).final world = (.ok (), { world with tree := next }) ∧
      Matches kept mayFile states made tree next := by
  have isLink : holdsLink (tree.node recorded.place) = true := by rw [found]; rfl
  have notRoot : recorded.place ≠ [] := by
    intro isRoot
    rw [isRoot, holdsLink_eq_false_of_holdsDirectory tree.root] at isLink
    cases isLink
  have itself : recorded.place <+: recorded.place := prefix_rfl
  have strictly {place : Place} (apart : ¬ recorded.place <+: place) : place ≠ recorded.place := by
    rintro rfl
    exact apart itself
  obtain ⟨cleared, isCleared, clearedNode⟩ :=
    final_removeCurrent (undoing.located_link isLink fun _ _ => rfl) notRoot
  have clearedThere (place : Place) (apart : ¬ recorded.place <+: place) :
      cleared.node place = world.tree.node place := by rw [clearedNode, if_neg apart]
  have gone : cleared.node recorded.place = none := by rw [clearedNode, if_pos itself]
  have clearedDirectories (place : Place) (directory : holdsDirectory (tree.node place) = true) :
      holdsDirectory (cleared.node place) = true := by
    rw [clearedThere place fun before => ?_]
    · exact undoing.matching.directories place directory
    · rcases eq_or_ne place recorded.place with rfl | different
      · rw [holdsLink_eq_false_of_holdsDirectory directory] at isLink
        cases isLink
      refine ne_none_of_holdsDirectory directory (HostTree.node_below ?_ before different)
      rw [found]
      rfl
  obtain ⟨linked, isLinked, linkedNode⟩ := put_again cleared
    (.link target kernel.fresh.uid kernel.fresh.gid) (by rw [found]; nofun)
    clearedDirectories (fun isRoot => absurd isRoot notRoot) (by rw [gone]; nofun)
  have linkedThere (place : Place) (apart : ¬ recorded.place <+: place) :
      linked.node place = world.tree.node place := by
    rw [linkedNode, update_of_ne (strictly apart), clearedThere place apart]
  have linkedHere : linked.node recorded.place =
      some (.link target kernel.fresh.uid kernel.fresh.gid) := by
    rw [linkedNode, update_self]
  obtain ⟨next, isNext, nextNode⟩ := put_again linked
    (.link target uid gid) (by rw [linkedHere]; nofun)
    (fun _ holds => holds) (fun isRoot => absurd isRoot notRoot) (by rw [linkedHere]; nofun)
  refine ⟨next, ?_, undoing.relinked isLink ?_ ?_ ?_⟩
  · unfold restore
    rw [undoing.captures.state, found]
    have links : symlinkTo kernel cleared recorded.path target = some linked := by
      simp only [symlinkTo, undoing.located_link isLink clearedThere, gone]
      exact isLinked
    rw [final_bind_of_ok isCleared, final_bind_of_ok (final_syscall links)]
    refine final_syscall ?_
    simp only [lchown, undoing.located_link isLink linkedThere, linkedHere]
    exact isNext
  · rw [nextNode, update_self, found]
  · intro place before different
    rw [nextNode, update_of_ne different, linkedNode, update_of_ne different,
      clearedNode, if_pos before]
  · intro place apart
    rw [nextNode, update_of_ne (strictly apart), linkedThere place apart]

end

variable {retained : List HostPath}

section

variable (undoing : Undoing kernel kept mayFile states made tree world.tree recorded)
include undoing

theorem restore_absent
    (absent : tree.node recorded.place = none) (isRetained : world.retained = retained)
    (keeps : aboveRetained retained (namesUp recorded.path) = true →
      kept recorded.place ∧ ¬ mayFile recorded.place) :
    ∃ next : HostTree,
      (restore kernel recorded).final world = (.ok (), { world with tree := next }) ∧
      Matches kept mayFile states made tree next := by
  have noLink : holdsLink (tree.node recorded.place) = false := by rw [absent]; rfl
  have located := undoing.located noLink
  have stillNoLink : holdsLink (world.tree.node recorded.place) = false := by
    rw [← Bool.not_eq_true]
    intro isLink
    rw [undoing.matching.links _ isLink, absent] at isLink
    cases isLink
  have notRoot : recorded.place ≠ [] := by
    intro isRoot
    rw [isRoot] at absent
    exact ne_none_of_holdsDirectory tree.root absent
  have stands (above : aboveRetained retained (namesUp recorded.path) = true) :
      world.tree.node recorded.place = none ∨
        kept recorded.place ∧ holdsDirectory (world.tree.node recorded.place) = true := by
    cases found : world.tree.node recorded.place with
    | none => exact .inl rfl
    | some node =>
      cases node with
      | file content attributes =>
        refine absurd (undoing.matching.standing recorded.place ?_) (keeps above).2
        rw [found]
        rfl
      | directory attributes => exact .inr ⟨(keeps above).1, rfl⟩
      | link target uid gid =>
        rw [found] at stillNoLink
        cases stillNoLink
  subst isRetained
  unfold restore
  rw [undoing.captures.state, absent]
  rw [final_bind_of_ok (final_inspect id world), id_eq]
  split
  · case isTrue member =>
      refine ⟨world.tree, rfl, undoing.emptied absent (stands ?_) ?_ ?_⟩
      · exact any_eq_true.mpr ⟨recorded.path, member, by simp⟩
      · exact fun place _ => .inl rfl
      · exact fun place _ => rfl
  rename_i notMember
  split
  · case isTrue above =>
      rw [located]
      dsimp only
      split
      · case isTrue directory =>
          refine ⟨_, final_syscall rfl, undoing.emptied absent ?_ ?_ ?_⟩
          · rw [pruneChildren_node_self]
            exact stands above
          · exact fun place _ => pruneChildren_node_either
          · exact fun place apart => pruneChildren_node_of_not apart
      rename_i notDirectory
      refine ⟨world.tree, rfl, undoing.emptied absent (stands above) ?_ ?_⟩
      · exact fun place _ => .inl rfl
      · exact fun place _ => rfl
  · case isFalse notAbove =>
      obtain ⟨next, done, nextNode⟩ := final_removeCurrent located notRoot
      refine ⟨next, done, undoing.emptied absent ?_ ?_ ?_⟩
      · exact .inl (by rw [nextNode, if_pos prefix_rfl])
      · exact fun place before => .inr (by rw [nextNode, if_pos before])
      · exact fun place apart => by rw [nextNode, if_neg apart]

theorem Undoing.restore
    (isRetained : world.retained = retained) (keeps : tree.node recorded.place = none →
      aboveRetained retained (namesUp recorded.path) = true →
      kept recorded.place ∧ ¬ mayFile recorded.place) :
    ∃ next : HostTree,
      (restore kernel recorded).final world = (.ok (), { world with tree := next }) ∧
      Matches kept mayFile states made tree next := by
  cases found : tree.node recorded.place with
  | none => exact restore_absent undoing found isRetained (keeps found)
  | some node =>
    cases node with
    | file content attributes => exact restore_file undoing found
    | directory attributes => exact restore_directory undoing found
    | link target uid gid => exact restore_link undoing found

end

end Restoration

/-! ### All records -/

/-- Undoing the records of a history from the last to the first comes back to its initial
tree, but for directories that are kept. -/
theorem History.undone {initial : HostTree} (kept mayFile : Place → Prop)
    {states : List Recorded} {made : List Place} (history : History kernel initial states made tree)
    (keepsMade : ∀ place ∈ made, kept place)
    (keepsRecorded : ∀ recorded ∈ states, recorded.before.node recorded.place = none →
      aboveRetained retained (namesUp recorded.path) = true →
      kept recorded.place ∧ ¬ mayFile recorded.place)
    (world : TransactionWorld) (isRetained : world.retained = retained)
    (matching : Matches kept mayFile states made tree world.tree) :
    ∃ last : TransactionWorld,
      (forEach (restore kernel) states.reverse).final world = (.ok (), last) ∧
      ∀ place, last.tree.node place = initial.node place ∨
        initial.node place = none ∧ kept place ∧ holdsDirectory (last.tree.node place) = true := by
  induction history generalizing world with
  | start =>
    refine ⟨world, rfl, fun place => ?_⟩
    rcases matching.others place nofun with same | ⟨isKept, directory, absent | member⟩
    · exact .inl same
    · exact .inr ⟨absent, isKept, directory⟩
    · cases member
  | change history change ih =>
    exact ih (fun place member => keepsMade place (change.grown member)) keepsRecorded world
      isRetained (matching.of_change change keepsMade)
  | record history captures ih =>
    rename_i states made tree recorded
    have undoing : Undoing kernel kept mayFile states made tree world.tree recorded :=
      { captures := captures
        madeDirectories := fun place member => history.holdsDirectory_of_made member
        earlierFiles := fun earlier member ofFile => history.holdsFile_of_record member ofFile
        matching := matching }
    obtain ⟨next, done, matching⟩ := undoing.restore isRetained fun absent above =>
      keepsRecorded recorded (by simp) (by rw [captures.before]; exact absent) above
    obtain ⟨last, rest, restored⟩ := ih keepsMade
      (fun earlier member => keepsRecorded earlier (mem_append_left _ member))
      { world with tree := next } isRetained matching
    refine ⟨last, ?_, restored⟩
    rw [reverse_append, reverse_singleton, singleton_append]
    exact (final_bind_of_ok done).trans rest

end XFerry.Management.FilesystemTransaction
