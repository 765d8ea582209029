/-
Every run of a transaction, up to any step, is undone by its rollback, if it touched its
paths plainly.

Each step of a run is a record or a change in the history of the transaction.  Between two
operations no link stands at a place that is recorded: an operation that records one goes on
to replace it.
-/

import XFerry.Management.TransactionUndo

namespace XFerry.Management.FilesystemTransaction

open CrashProgram Program Function

variable {kernel : Kernel} {initial : HostTree}

variable {attributes : Attributes}

section Changes

variable {tree next : HostTree} {states : List Recorded} {made : List Place} {place : Place}
  {node : HostNode}

/-- Whether the rollback takes care of the place. -/
def Owned (states : List Recorded) (made : List Place) (place : Place) : Prop :=
  (∃ recorded ∈ states, recorded.covers place = true) ∨ place ∈ made

theorem Owned.of_uncovered (owned : Owned states made place)
    (uncovered : ∀ recorded ∈ states, recorded.covers place = false) : place ∈ made := by
  rcases owned with ⟨recorded, member, covered⟩ | member
  · rw [uncovered recorded member] at covered
    cases covered
  · exact member

section

variable (madeDirectories : ∀ place ∈ made, holdsDirectory (tree.node place) = true)
include madeDirectories

/-- A change at one place, which becomes no link and stays a directory if it is one. -/
theorem Change.of_place {node : Option HostNode} {made' : List Place}
    (same : next.node = Function.update tree.node place node)
    (directory : holdsDirectory (tree.node place) = true → holdsDirectory node = true)
    (uncovered : (∀ recorded ∈ states, recorded.covers place = false) → place ∈ made')
    (noLink : holdsLink node = false)
    (file : ∀ recorded ∈ states, recorded.ofFile = true → recorded.place = place →
      holdsFile (tree.node place) = true → holdsFile node = true)
    (grown : made ⊆ made')
    (anew : ∀ other ∈ made', other ∈ made ∨
      other = place ∧ holdsDirectory node = true ∧ tree.node place = none) :
    Change states made made' tree next := by
  have here : next.node place = node := by rw [same, update_self]
  have there {other : Place} (different : other ≠ place) : next.node other = tree.node other := by
    rw [same, update_of_ne different]
  have directories (other : Place) (isDirectory : holdsDirectory (tree.node other) = true) :
      holdsDirectory (next.node other) = true := by
    rcases eq_or_ne other place with rfl | different
    · rw [here]
      exact directory isDirectory
    · rw [there different]
      exact isDirectory
  refine ⟨directories, fun other free => ?_, fun other isLink => ?_,
    fun recorded member ofFile isFile => ?_, grown, fun other member => ?_⟩
  · rcases eq_or_ne other place with rfl | different
    · exact .inr (uncovered free)
    · exact .inl (there different)
  · rcases eq_or_ne other place with rfl | different
    · rw [here, noLink] at isLink
      cases isLink
    · exact there different
  · rcases eq_or_ne recorded.place place with isPlace | different
    · rw [isPlace] at isFile ⊢
      rw [here]
      exact file recorded member ofFile isPlace isFile
    · rw [there different]
      exact isFile
  · rcases anew other member with earlier | ⟨rfl, isDirectory, absent⟩
    · exact ⟨directories other (madeDirectories other earlier), .inl earlier⟩
    · rw [here]
      exact ⟨isDirectory, .inr absent⟩

theorem Change.of_update (admits : tree.Admits place node)
    (same : next.node = Function.update tree.node place (some node))
    (noLink : node.isLink = false) (owned : Owned states made place)
    (file : holdsFile (tree.node place) = true → node.isFile = true) :
    Change states made made tree next :=
  Change.of_place madeDirectories same admits.2.2 owned.of_uncovered noLink
    (fun _ _ _ _ => file) (List.Subset.refl made) fun _ => .inl

theorem Change.of_make (absent : tree.node place = none)
    (same : next.node = Function.update tree.node place (some (.directory attributes))) :
    Change states made (place :: made) tree next := by
  refine Change.of_place madeDirectories same (fun _ => rfl) (fun _ => List.mem_cons_self) rfl
    (fun _ _ _ _ isFile => ?_) (List.subset_cons_self place made) fun other member => ?_
  · rw [absent] at isFile
    cases isFile
  · rcases List.mem_cons.mp member with isPlace | earlier
    · exact .inr ⟨isPlace, rfl, absent⟩
    · exact .inl earlier

theorem Change.of_remove (found : tree.node place ≠ none)
    (notDirectory : holdsDirectory (tree.node place) = false)
    (owned : Owned states made place)
    (file : ∀ recorded ∈ states, recorded.ofFile = true → recorded.place ≠ place) :
    Change states made made tree (tree.remove place) ∧
      (tree.remove place).node = Function.update tree.node place none := by
  have notRoot : place ≠ [] := by
    rintro rfl
    rw [tree.root] at notDirectory
    cases notDirectory
  have same : (tree.remove place).node = Function.update tree.node place none := by
    funext other
    by_cases before : place <+: other
    · rw [HostTree.node_remove_of_prefix notRoot before]
      rcases eq_or_ne other place with rfl | different
      · rw [update_self]
      · rw [update_of_ne different, HostTree.node_below notDirectory before different]
    · rw [HostTree.node_remove_of_not before, update_of_ne]
      rintro rfl
      exact before List.prefix_rfl
  refine ⟨Change.of_place madeDirectories same (fun directory => ?_) owned.of_uncovered rfl
    (fun recorded member ofFile here => absurd here (file recorded member ofFile))
    (List.Subset.refl made) fun _ => .inl, same⟩
  rw [notDirectory] at directory
  cases directory

end

end Changes

/-- As long as the paths are touched plainly, the tree has a history, and this holds. -/
def Tracked (kernel : Kernel) (initial : HostTree) (holds : TransactionWorld → Prop)
    (world : TransactionWorld) : Prop :=
  world.plain = true → History kernel initial world.states world.made world.tree ∧ holds world

/-- A program that keeps the history at every step, and brings about what is to hold. -/
def Keeps {α : Type} (kernel : Kernel) (initial : HostTree)
    (before after : TransactionWorld → Prop) (program : Program TransactionWorld Unit α) : Prop :=
  Contract (Tracked kernel initial fun _ => True) (Tracked kernel initial before) program
    (fun _ => Tracked kernel initial after) (fun _ => Tracked kernel initial fun _ => True)

namespace Keeps

variable {before middle after : TransactionWorld → Prop} {α β : Type}
  {program : Program TransactionWorld Unit α}

theorem weaken {before' after' : TransactionWorld → Prop}
    (keeps : Keeps kernel initial before' after' program)
    (stronger : ∀ world, before world → before' world)
    (weaker : ∀ world, after' world → after world) : Keeps kernel initial before after program :=
  Contract.weaken keeps
    (fun world tracked plain => ⟨(tracked plain).1, stronger world (tracked plain).2⟩)
    (fun _ world tracked plain => ⟨(tracked plain).1, weaker world (tracked plain).2⟩)
    fun _ _ tracked => tracked

theorem bind {next : α → Program TransactionWorld Unit β}
    (first : Keeps kernel initial before middle program)
    (rest : ∀ value, Keeps kernel initial middle after (next value)) :
    Keeps kernel initial before after (program >>= next) :=
  Contract.bind _ first rest

theorem returning {value : α} (holds : ∀ world, before world → after world) :
    Keeps kernel initial before after (returning value : Program TransactionWorld Unit α) :=
  .pure fun world tracked plain => ⟨(tracked plain).1, holds world (tracked plain).2⟩

theorem raise : Keeps kernel initial before after (raise () : Program TransactionWorld Unit α) :=
  Contract.raise fun _ tracked plain => ⟨(tracked plain).1, trivial⟩

theorem inspect {next : TransactionWorld → Program TransactionWorld Unit α}
    (rest : ∀ seen, Keeps kernel initial (fun world => before world ∧ world = seen) after
      (next seen)) :
    Keeps kernel initial before after (Program.inspect id >>= next) :=
  Contract.bind
    (fun seen world => Tracked kernel initial (fun world => before world ∧ world = seen) world)
    (Contract.inspect fun _ tracked plain => ⟨(tracked plain).1, (tracked plain).2, rfl⟩) rest

theorem durable {change : TransactionWorld → TransactionWorld}
    (step : ∀ world, (change world).plain = true → world.plain = true ∧
      (History kernel initial world.states world.made world.tree → before world →
        History kernel initial (change world).states (change world).made (change world).tree ∧
          after (change world))) :
    Keeps kernel initial before after (Program.durable change) := by
  have kept (world : TransactionWorld) (tracked : Tracked kernel initial before world) :
      Tracked kernel initial after (change world) := by
    intro plain
    obtain ⟨still, moved⟩ := step world plain
    exact moved (tracked still).1 (tracked still).2
  exact Contract.durable (fun world tracked plain => ⟨(kept world tracked plain).1, trivial⟩) kept

variable {change : HostTree → Option HostTree}

theorem syscall (step : ∀ world next, History kernel initial world.states world.made world.tree →
      before world → change world.tree = some next →
      Change world.states world.made world.made world.tree next ∧
        after { world with tree := next }) :
    Keeps kernel initial before after (syscall change) := by
  refine inspect fun seen => ?_
  split
  · case h_1 failed => exact raise
  rename_i next done
  refine durable fun world plain => ⟨plain, fun history ⟨holds, isSeen⟩ => ?_⟩
  subst isSeen
  obtain ⟨changed, holds⟩ := step world next history holds done
  exact ⟨history.change changed, holds⟩

end Keeps

/-- No link stands where a record is to be undone. -/
def LinkFree (world : TransactionWorld) : Prop :=
  ∀ recorded ∈ world.states, ∀ place, recorded.covers place = true →
    holdsLink (world.tree.node place) = false

/-- After `_remember`: a link or a file may still stand at the path. -/
structure Touched (kernel : Kernel) (asDirectory : Bool) (path : HostPath) (place : Place)
    (world : TransactionWorld) : Prop where
  located : locate kernel world.tree path = some place
  owned : Owned world.states world.made place
  linkFree : ∀ recorded ∈ world.states, ∀ other, recorded.covers other = true →
    other ≠ place → holdsLink (world.tree.node other) = false
  linkLocated : holdsLink (world.tree.node place) = true →
    locate kernel (world.tree.remove place) path = some place
  notFile : asDirectory = true → holdsFile (world.tree.node place) = true →
    ∀ recorded ∈ world.states, recorded.ofFile = true → recorded.place ≠ place

structure Vacated (kernel : Kernel) (path : HostPath) (place : Place) (world : TransactionWorld) :
    Prop where
  located : locate kernel world.tree path = some place
  owned : Owned world.states world.made place
  linkFree : LinkFree world
  noLink : holdsLink (world.tree.node place) = false
  noFile : holdsFile (world.tree.node place) = false

structure Standing (kernel : Kernel) (path : HostPath) (place : Place) (world : TransactionWorld) :
    Prop where
  located : locate kernel world.tree path = some place
  owned : Owned world.states world.made place
  linkFree : LinkFree world
  directory : holdsDirectory (world.tree.node place) = true

variable {world later : TransactionWorld}

theorem LinkFree.change (linkFree : LinkFree world) (same : later.states = world.states)
    (changed : Change world.states world.made later.made world.tree later.tree) :
    LinkFree later := by
  intro recorded member place covered
  rw [same] at member
  rw [← Bool.not_eq_true]
  intro isLink
  have still := linkFree recorded member place covered
  rw [← changed.links place isLink, isLink] at still
  cases still

variable {world : TransactionWorld}

section Steps

variable {path : HostPath} {place : Place}

theorem not_holdsFile_of_not {tree : HostTree} {states : List Recorded} {made : List Place}
    (history : History kernel initial states made tree)
    (notFile : holdsFile (tree.node place) = false) {recorded : Recorded}
    (member : recorded ∈ states) (ofFile : recorded.ofFile = true) : recorded.place ≠ place := by
  rintro rfl
  rw [history.holdsFile_of_record member ofFile] at notFile
  cases notFile

variable {asDirectory : Bool}

theorem touched_of_known
    (linkFree : LinkFree world) (touches : touchesPlainly kernel asDirectory path world = true)
    (known : world.states.any (Recorded.hasPath path) = true)
    (located : locate kernel world.tree path = some place) :
    Touched kernel asDirectory path place world := by
  unfold touchesPlainly at touches
  simp only [located, known, if_true, Bool.and_eq_true, Bool.not_eq_true'] at touches
  obtain ⟨covered, noFile⟩ := touches
  obtain ⟨record, member, covers⟩ := List.any_eq_true.mp covered
  have noLink := linkFree record member place covers
  refine
    { located := located
      owned := .inl ⟨record, member, covers⟩
      linkFree := fun recorded member other covered _ => linkFree recorded member other covered
      linkLocated := fun isLink => absurd (noLink.symm.trans isLink) Bool.false_ne_true
      notFile := ?_ }
  intro isDirectory isFile recorded member ofFile same
  have found : (world.states.any fun other => other.place = place && other.ofFile) = true :=
    List.any_eq_true.mpr ⟨recorded, member, by simp [same, ofFile]⟩
  rw [isDirectory, isFile, found] at noFile
  cases noFile

/-- The record that `_remember` takes of a place. -/
def Recorded.take (tree : HostTree) (path : HostPath) (place : Place) : Recorded :=
  { path := path, state := captured (tree.node place), place := place, before := tree }

theorem captures_of_unknown
    (linkFree : LinkFree world) (touches : touchesPlainly kernel asDirectory path world = true)
    (unknown : world.states.any (Recorded.hasPath path) = false)
    (located : locate kernel world.tree path = some place) :
    Captures kernel world.states world.tree (Recorded.take world.tree path place) ∧
      (asDirectory = true → holdsFile (world.tree.node place) = false) := by
  unfold touchesPlainly at touches
  simp only [located, unknown, Bool.false_eq_true, if_false] at touches
  suffices facts : captured (world.tree.node place) = world.tree.node place ∧
      (∀ content attributes, world.tree.node place = some (.file content attributes) →
        kernel.afterChown attributes.mode = attributes.mode) ∧
      (holdsLink (world.tree.node place) = true →
        locate kernel (world.tree.remove place) path = some place) ∧
      (asDirectory = true → holdsFile (world.tree.node place) = false) by
    obtain ⟨state, fileStable, linkLocated, noFile⟩ := facts
    exact ⟨⟨rfl, located, state, fileStable, linkLocated, linkFree⟩, noFile⟩
  cases found : world.tree.node place with
  | none => exact ⟨rfl, nofun, nofun, fun _ => rfl⟩
  | some node =>
    rw [found] at touches
    cases node with
    | directory attributes => exact ⟨rfl, nofun, nofun, fun _ => rfl⟩
    | file content attributes =>
      simp only [Bool.and_eq_true, decide_eq_true_eq, Bool.not_eq_true'] at touches
      refine ⟨rfl, ?_, nofun, ?_⟩
      · intro _ _ same
        cases same
        exact touches.1
      · rw [touches.2]
        nofun
    | link target uid gid =>
      simp only [Bool.and_eq_true, decide_eq_true_eq] at touches
      refine ⟨?_, nofun, fun _ => touches.2, fun _ => rfl⟩
      show some (HostNode.link (linkText target) uid gid) = _
      rw [touches.1]

theorem touched_of_unknown
    (captures : Captures kernel world.states world.tree (Recorded.take world.tree path place))
    (notFile : asDirectory = true → holdsFile (world.tree.node place) = false) :
    Touched kernel asDirectory path place
      { world with states := world.states ++ [Recorded.take world.tree path place] } := by
  have itself : (Recorded.take world.tree path place).covers place = true := by
    unfold Recorded.covers
    split
    · exact List.isPrefixOf_iff_prefix.mpr List.prefix_rfl
    · exact decide_eq_true rfl
  refine
    { __ := captures
      owned := .inl ⟨_, by simp, itself⟩
      linkFree := ?_
      notFile := ?_ }
  · intro recorded member other covered different
    rcases List.mem_append.mp member with earlier | latest
    · exact captures.linkFree recorded earlier other covered
    obtain rfl := List.mem_singleton.mp latest
    cases isLink : holdsLink (world.tree.node place) with
    | false =>
      rw [covers_of_not_link (by exact isLink)] at covered
      exact absurd (of_decide_eq_true covered).symm different
    | true =>
      rw [covers_of_link (by exact isLink), List.isPrefixOf_iff_prefix] at covered
      rw [HostTree.node_below ?_ covered different]
      · rfl
      · rw [← Bool.not_eq_true]
        intro directory
        have directory : holdsDirectory (world.tree.node place) = true := directory
        rw [holdsLink_eq_false_of_holdsDirectory directory] at isLink
        cases isLink
  · intro isDirectory isFile
    rw [notFile isDirectory] at isFile
    cases isFile

theorem keeps_remember (asDirectory : Bool) :
    Keeps kernel initial LinkFree
      (fun world => locate kernel world.tree path = none ∧ LinkFree world ∨
        ∃ place, Touched kernel asDirectory path place world)
      (remember kernel asDirectory path) := by
  have judged : Keeps kernel initial LinkFree
      (fun world => LinkFree world ∧ touchesPlainly kernel asDirectory path world = true)
      (Program.durable fun world =>
        { world with plain := world.plain && touchesPlainly kernel asDirectory path world }) := by
    refine Keeps.durable fun world plain => ?_
    obtain ⟨still, touches⟩ := Bool.and_eq_true_iff.mp plain
    exact ⟨still, fun history linkFree => ⟨history, linkFree, touches⟩⟩
  refine judged.bind fun _ => Keeps.inspect fun seen => ?_
  · split
    · case isTrue known =>
        refine Keeps.returning fun world ⟨⟨linkFree, touches⟩, isSeen⟩ => ?_
        subst isSeen
        cases located : locate kernel world.tree path with
        | none => exact .inl ⟨rfl, linkFree⟩
        | some place => exact .inr ⟨place, touched_of_known linkFree touches known located⟩
    rename_i unknown
    split
    · exact Keeps.raise
    rename_i place located
    refine Keeps.durable fun world plain => ⟨plain, ?_⟩
    rintro history ⟨⟨linkFree, touches⟩, rfl⟩
    obtain ⟨captures, notFile⟩ := captures_of_unknown linkFree touches
      (Bool.eq_false_iff.mpr unknown) located
    exact ⟨history.record captures, .inr ⟨place, touched_of_unknown captures notFile⟩⟩

theorem unlinkEntry_eq_some {tree next : HostTree}
    (unlinked : unlinkEntry kernel tree path = some next) :
    ∃ place, locate kernel tree path = some place ∧ tree.node place ≠ none ∧
      holdsDirectory (tree.node place) = false ∧ next = tree.remove place := by
  unfold unlinkEntry at unlinked
  cases located : locate kernel tree path with
  | none =>
    rw [located] at unlinked
    cases unlinked
  | some place =>
    simp only [located] at unlinked
    cases found : tree.node place with
    | none =>
      rw [found] at unlinked
      cases unlinked
    | some node =>
      simp only [found] at unlinked
      split at unlinked
      · cases unlinked
      rename_i notDirectory
      cases unlinked
      refine ⟨place, rfl, ?_, ?_, rfl⟩
      · rw [found]
        nofun
      · rw [found]
        exact Bool.eq_false_iff.mpr notDirectory

theorem vacated_of_unlink (history : History kernel initial world.states world.made world.tree)
    (touched : Touched kernel true path place world) (found : world.tree.node place ≠ none)
    (notDirectory : holdsDirectory (world.tree.node place) = false) :
    Change world.states world.made world.made world.tree (world.tree.remove place) ∧
      Vacated kernel path place { world with tree := world.tree.remove place } := by
  obtain ⟨changed, same⟩ := Change.of_remove (fun _ => history.holdsDirectory_of_made) found
    notDirectory touched.owned (by
      cases isFile : holdsFile (world.tree.node place) with
      | true => exact touched.notFile rfl isFile
      | false => exact fun recorded => not_holdsFile_of_not history isFile)
  have gone : (world.tree.remove place).node place = none := by
    rw [same, update_self]
  refine ⟨changed, ?_, touched.owned, ?_, ?_, ?_⟩
  · cases isLink : holdsLink (world.tree.node place) with
    | true => exact touched.linkLocated isLink
    | false =>
      refine locate_of_within (fun other entry present notFile => ?_) touched.located
      show ((world.tree.remove place).node other).map HostNode.entry = _
      rw [same, update_of_ne]
      · exact present
      · rintro rfl
        obtain ⟨node, isNode, rfl⟩ := Option.map_eq_some_iff.mp present
        rw [isNode] at isLink notDirectory
        cases node with
        | file content attributes => exact notFile rfl
        | directory attributes => cases notDirectory
        | link target uid gid => cases isLink
  · intro recorded member other covered
    rcases eq_or_ne other place with rfl | different
    · rw [gone]
      rfl
    · rw [same, update_of_ne different]
      exact touched.linkFree recorded member other covered different
  · rw [gone]
    rfl
  · rw [gone]
    rfl

theorem Touched.vacated (touched : Touched kernel asDirectory path place world)
    (notLink : isSymlink kernel world.tree path = false)
    (notFile : holdsLink (world.tree.node place) = false →
      holdsFile (world.tree.node place) = false) : Vacated kernel path place world := by
  have noLink : holdsLink (world.tree.node place) = false := by
    rw [← isSymlink_of_locate touched.located]
    exact notLink
  refine ⟨touched.located, touched.owned, ?_, noLink, notFile noLink⟩
  intro recorded member other covered
  rcases eq_or_ne other place with rfl | different
  · exact noLink
  · exact touched.linkFree recorded member other covered different

theorem keeps_removeCurrent :
    Keeps kernel initial
      (fun world => (locate kernel world.tree path = none ∧ LinkFree world ∨
          ∃ place, Touched kernel true path place world) ∧
        (isSymlink kernel world.tree path = true ∨ isDir kernel world.tree path = false))
      (fun world => locate kernel world.tree path = none ∧ LinkFree world ∨
        ∃ place, Vacated kernel path place world)
      (removeCurrent kernel path) := by
  refine Keeps.inspect fun seen => ?_
  split
  · case isTrue unlinks =>
      refine Keeps.syscall fun world next history ⟨⟨touched, _⟩, isSeen⟩ unlinked => ?_
      obtain ⟨place, located, found, notDirectory, rfl⟩ := unlinkEntry_eq_some unlinked
      rcases touched with ⟨lost, _⟩ | ⟨other, touched⟩
      · cases lost.symm.trans located
      · cases touched.located.symm.trans located
        obtain ⟨changed, vacated⟩ := vacated_of_unlink history touched found notDirectory
        exact ⟨changed, .inr ⟨place, vacated⟩⟩
  · case isFalse stays =>
      obtain ⟨notLink, notFile⟩ := Bool.or_eq_false_iff.mp (Bool.eq_false_iff.mpr stays)
      split
      · case isTrue directory =>
          refine Keeps.syscall fun world next history ⟨⟨_, either⟩, isSeen⟩ _ => ?_
          subst isSeen
          rcases either with isLink | notDirectory
          · cases isLink.symm.trans notLink
          · cases directory.symm.trans notDirectory
      rename_i notDirectory
      refine Keeps.returning fun world ⟨⟨touched, _⟩, isSeen⟩ => ?_
      subst isSeen
      rcases touched with lost | ⟨place, touched⟩
      · exact .inl lost
      refine .inr ⟨place, touched.vacated notLink fun noLink => ?_⟩
      rw [← isFile_of_locate touched.located noLink]
      exact notFile

theorem mkdir_eq_some {tree next : HostTree} (made : mkdir kernel tree path = some next) :
    ∃ place, locate kernel tree path = some place ∧ tree.node place = none ∧
      tree.Admits place (.directory kernel.fresh) ∧
      next.node = Function.update tree.node place (some (.directory kernel.fresh)) := by
  unfold mkdir at made
  cases located : locate kernel tree path with
  | none =>
    rw [located] at made
    cases made
  | some place =>
    simp only [located] at made
    cases found : tree.node place with
    | some node =>
      rw [found] at made
      cases made
    | none =>
      simp only [found] at made
      exact ⟨place, rfl, found, HostTree.put_eq_some.mp made⟩

theorem standing_of_update (linkFree : LinkFree world)
    (located : locate kernel world.tree path = some place)
    (keeps : ∀ old, world.tree.node place = some old → old.isDirectory = true)
    (same : later.tree.node = Function.update world.tree.node place (some (.directory attributes)))
    (states : later.states = world.states)
    (changed : Change world.states world.made later.made world.tree later.tree)
    (owned : Owned later.states later.made place) : Standing kernel path place later where
  located := by
    refine locate_of_within (FileTree.within_of_update same ?_) located
    intro old isOld _
    exact (HostNode.entry_eq_directory.mpr (keeps old isOld)).symm
  owned := owned
  linkFree := linkFree.change states changed
  directory := by
    rw [same, update_self]
    rfl

theorem keeps_makeDirectory :
    Keeps kernel initial
      (fun world => locate kernel world.tree path = none ∧ LinkFree world ∨
        ∃ place, Vacated kernel path place world)
      (fun world => ∃ place, Standing kernel path place world)
      (makeDirectory kernel false true path) := by
  refine Keeps.inspect fun seen => ?_
  split
  · case h_1 place tree located made =>
      refine Keeps.durable fun world plain => ⟨plain, ?_⟩
      rintro history ⟨vacated, rfl⟩
      obtain ⟨_, located', absent, admits, same⟩ := mkdir_eq_some made
      cases located.symm.trans located'
      rcases vacated with ⟨lost, _⟩ | ⟨other, vacated⟩
      · cases lost.symm.trans located
      · cases vacated.located.symm.trans located
        have changed : Change world.states world.made world.made world.tree tree :=
          Change.of_update (fun _ => history.holdsDirectory_of_made) admits same rfl
            vacated.owned (by rw [absent]; nofun)
        refine ⟨history.change changed, place, ?_⟩
        refine standing_of_update vacated.linkFree located ?_ same rfl changed vacated.owned
        intro old isOld
        cases absent.symm.trans isOld
  · split
    · case isTrue directory =>
        refine Keeps.returning fun world ⟨vacated, isSeen⟩ => ?_
        subst isSeen
        rcases vacated with ⟨lost, _⟩ | ⟨place, vacated⟩
        · cases (isDir_of_locate_none lost).symm.trans directory
        · rw [isDir_of_locate vacated.located vacated.noLink] at directory
          exact ⟨place, vacated.located, vacated.owned, vacated.linkFree, directory⟩
    · exact Keeps.raise

theorem keeps_restat (puts : ∀ tree place attributes, locate kernel tree path = some place →
      tree.node place = some (.directory attributes) →
      ∃ attributes', change tree = tree.put place (.directory attributes')) :
    Keeps kernel initial (fun world => ∃ place, Standing kernel path place world)
      (fun world => ∃ place, Standing kernel path place world) (syscall change) := by
  refine Keeps.syscall fun world next history ⟨place, standing⟩ done => ?_
  obtain ⟨attributes, found⟩ := exists_of_holdsDirectory standing.directory
  obtain ⟨attributes', isPut⟩ := puts world.tree place attributes standing.located found
  rw [isPut] at done
  obtain ⟨admits, same⟩ := HostTree.put_eq_some.mp done
  have changed : Change world.states world.made world.made world.tree next :=
    Change.of_update (fun _ => history.holdsDirectory_of_made) admits same rfl
      standing.owned (by rw [found]; nofun)
  refine ⟨changed, place, ?_⟩
  refine standing_of_update standing.linkFree standing.located ?_ same rfl changed standing.owned
  intro old isOld
  cases found.symm.trans isOld
  rfl

theorem keeps_chmod (mode : Nat) :
    Keeps kernel initial (fun world => ∃ place, Standing kernel path place world)
      (fun world => ∃ place, Standing kernel path place world)
      (syscall fun tree => chmod kernel tree path mode) :=
  keeps_restat fun _ _ _ located found => ⟨_, chmod_of_locate located found mode⟩

theorem keeps_chown (uid gid : Nat) :
    Keeps kernel initial (fun world => ∃ place, Standing kernel path place world)
      LinkFree (syscall fun tree => chown kernel tree path uid gid) :=
  Keeps.weaken (keeps_restat fun _ _ _ located found => ⟨_, chown_of_locate located found uid gid⟩)
    (fun _ standing => standing) fun _ ⟨_, standing⟩ => standing.linkFree

end Steps

section Operations

variable (path : HostPath) (mode uid gid : Nat)

theorem keeps_ensureHere :
    Keeps kernel initial LinkFree LinkFree (ensureHere kernel path mode uid gid) := by
  have rest : Keeps kernel initial
      (fun world => locate kernel world.tree path = none ∧ LinkFree world ∨
        ∃ place, Vacated kernel path place world) LinkFree
      (do makeDirectory kernel false true path
          syscall fun tree => chmod kernel tree path mode
          syscall fun tree => chown kernel tree path uid gid) :=
    keeps_makeDirectory.bind fun _ => (keeps_chmod mode).bind fun _ => keeps_chown uid gid
  refine (keeps_remember true).bind fun _ => Keeps.inspect fun seen => ?_
  split
  · case isTrue removes =>
      refine Keeps.bind (keeps_removeCurrent.weaken ?_ fun _ holds => holds) fun _ => rest
      rintro world ⟨touched, rfl⟩
      refine ⟨touched, ?_⟩
      rcases Bool.or_eq_true_iff.mp removes with isLink | other
      · exact .inl isLink
      · exact .inr (Bool.not_eq_true' _ ▸ (Bool.and_eq_true_iff.mp other).2)
  · case isFalse stays =>
      refine rest.weaken ?_ fun _ holds => holds
      rintro world ⟨touched, rfl⟩
      obtain ⟨notLink, notOther⟩ := Bool.or_eq_false_iff.mp (Bool.eq_false_iff.mpr stays)
      rcases touched with lost | ⟨place, touched⟩
      · exact .inl lost
      refine .inr ⟨place, touched.vacated notLink fun noLink => ?_⟩
      rw [pathExists_of_locate touched.located noLink, isDir_of_locate touched.located noLink]
        at notOther
      rw [← Bool.not_eq_true]
      intro isFile
      rw [holdsDirectory_eq_false_of_holdsFile isFile,
        Option.isSome_iff_ne_none.mpr (ne_none_of_holdsFile isFile)] at notOther
      cases notOther

theorem keeps_ensureDirectory :
    Keeps kernel initial LinkFree LinkFree (ensureDirectory kernel path mode uid gid) := by
  induction path generalizing mode uid gid with
  | nil => exact keeps_ensureHere [] mode uid gid
  | cons name up ih =>
    refine Keeps.inspect fun seen => ?_
    have here : Keeps kernel initial (fun world => LinkFree world ∧ world = seen) LinkFree
        (ensureHere kernel (name :: up) mode uid gid) :=
      (keeps_ensureHere _ mode uid gid).weaken (fun _ holds => holds.1) fun _ holds => holds
    split
    · exact Keeps.bind ((ih 0o755 0 0).weaken (fun _ holds => holds.1) fun _ holds => holds)
        fun _ => keeps_ensureHere _ mode uid gid
    · exact here

theorem keeps_replaceWith (content : List UInt8) :
    Keeps kernel initial
      (fun world => locate kernel world.tree path = none ∧ LinkFree world ∨
        ∃ place, Touched kernel false path place world) LinkFree
      (syscall fun tree => replaceWith kernel tree path content mode uid gid) := by
  refine Keeps.syscall fun world next history touched replaced => ?_
  unfold replaceWith at replaced
  rcases touched with ⟨lost, _⟩ | ⟨place, touched⟩
  · rw [lost] at replaced
    cases replaced
  rw [touched.located] at replaced
  obtain ⟨admits, same⟩ := HostTree.put_eq_some.mp replaced
  have changed : Change world.states world.made world.made world.tree next :=
    Change.of_update (fun _ => history.holdsDirectory_of_made) admits same rfl
      touched.owned fun _ => rfl
  refine ⟨changed, fun recorded member other covered => ?_⟩
  rcases eq_or_ne other place with rfl | different
  · rw [same, update_self]
    rfl
  · rw [same, update_of_ne different]
    exact touched.linkFree recorded member other covered different

theorem keeps_atomicReplace (content : List UInt8) :
    Keeps kernel initial
      (fun world => locate kernel world.tree path = none ∧ LinkFree world ∨
        ∃ place, Touched kernel false path place world) LinkFree
      (atomicReplace kernel path content mode uid gid) := by
  refine Keeps.inspect fun seen => ?_
  split
  · refine Keeps.bind ((keeps_replaceWith path mode uid gid content).weaken
      (fun _ holds => holds.1) fun _ holds => holds) fun _ => Keeps.inspect fun seen => ?_
    split
    · exact Keeps.returning fun _ holds => holds.1
    · exact Keeps.raise
  · exact Keeps.raise

theorem keeps_atomicWrite (content : List UInt8) :
    Keeps kernel initial LinkFree LinkFree (atomicWrite kernel path content mode uid gid) := by
  have rest : Keeps kernel initial LinkFree LinkFree
      (do remember kernel false path
          atomicReplace kernel path content mode uid gid) :=
    (keeps_remember false).bind fun _ => keeps_atomicReplace path mode uid gid content
  refine Keeps.inspect fun seen => ?_
  split
  · exact Keeps.bind ((keeps_ensureDirectory path.tail 0o755 0 0).weaken
      (fun _ holds => holds.1) fun _ holds => holds) fun _ => rest
  · exact rest.weaken (fun _ holds => holds.1) fun _ holds => holds

theorem keeps_retainDirectory : Keeps kernel initial LinkFree LinkFree (retainDirectory path) :=
  Keeps.durable fun _ plain => ⟨plain, fun history linkFree => ⟨history, linkFree⟩⟩

theorem keeps_makeUnrecorded (existOk : Bool) :
    Keeps kernel initial LinkFree
      (fun world => LinkFree world ∧
        (existOk = false → ∃ place, Standing kernel path place world))
      (makeDirectory kernel true existOk path) := by
  refine Keeps.inspect fun seen => ?_
  split
  · case h_1 place tree located made =>
      refine Keeps.durable fun world plain => ⟨plain, ?_⟩
      rintro history ⟨linkFree, rfl⟩
      obtain ⟨_, located', absent, admits, same⟩ := mkdir_eq_some made
      cases located.symm.trans located'
      have changed : Change world.states world.made (place :: world.made) world.tree tree :=
        Change.of_make (fun _ => history.holdsDirectory_of_made) absent same
      refine ⟨history.change changed, linkFree.change rfl changed, fun _ => ⟨place, ?_⟩⟩
      refine standing_of_update linkFree located ?_ same rfl changed (.inr List.mem_cons_self)
      intro old isOld
      cases absent.symm.trans isOld
  · split
    · case isTrue accepted =>
        refine Keeps.returning fun world ⟨linkFree, _⟩ => ⟨linkFree, fun refused => ?_⟩
        rw [refused] at accepted
        cases accepted
    · exact Keeps.raise

theorem keeps_makeParents (existOk : Bool) :
    Keeps kernel initial LinkFree
      (fun world => LinkFree world ∧
        (existOk = false → ∃ place, Standing kernel path place world))
      (makeParents kernel true existOk path) := by
  induction path generalizing existOk with
  | nil => exact keeps_makeUnrecorded [] existOk
  | cons name up ih =>
    refine Keeps.inspect fun seen => ?_
    split
    · exact Keeps.bind ((ih true).weaken (fun _ holds => holds.1) fun _ holds => holds.1)
        fun _ => keeps_makeUnrecorded _ existOk
    · exact (keeps_makeUnrecorded _ existOk).weaken (fun _ holds => holds.1)
        fun _ holds => holds

theorem keeps_ensureRetainedDirectory :
    Keeps kernel initial LinkFree LinkFree (ensureRetainedDirectory kernel path mode uid gid) := by
  refine (keeps_retainDirectory path).bind fun _ => Keeps.inspect fun seen => ?_
  split
  · refine Keeps.bind ((keeps_makeParents path false).weaken (fun _ holds => holds.1)
      fun world holds => holds.2 rfl) fun _ => ?_
    exact (keeps_chmod mode).bind fun _ => keeps_chown uid gid
  · exact Keeps.returning fun _ holds => holds.1

end Operations

theorem keeps_perform (operation : TransactionOperation) :
    Keeps kernel initial LinkFree LinkFree (perform kernel operation) := by
  cases operation with
  | ensureDirectory path mode uid gid => exact keeps_ensureDirectory path mode uid gid
  | atomicWrite path content mode uid gid => exact keeps_atomicWrite path mode uid gid content
  | ensureRetainedDirectory path mode uid gid =>
    exact keeps_ensureRetainedDirectory path mode uid gid
  | retainDirectory path => exact keeps_retainDirectory path

theorem tracked_of_mem_crashes {operations : List TransactionOperation}
    (stopped : world ∈ crashes (forEach (perform kernel) operations) (.start initial)) :
    Tracked kernel initial (fun _ => True) world := by
  have start : Tracked kernel initial LinkFree (.start initial) :=
    fun _ => ⟨History.start, fun recorded member => by cases member⟩
  have whole : Keeps kernel initial LinkFree LinkFree (forEach (perform kernel) operations) :=
    .forEach (fun _ => Tracked kernel initial LinkFree)
      (fun operation _ => keeps_perform operation) operations
  rcases List.mem_cons.mp stopped with rfl | passed
  · exact fun _ => ⟨History.start, trivial⟩
  · exact (whole (.start initial) start).1 world passed

theorem rollback_of_tracked
    (tracked : Tracked kernel initial (fun _ => True) world) (undoable : Undoable world) :
    ∃ last, (rollback kernel).final world = (.ok (), last) ∧ Restored initial world last.tree := by
  obtain ⟨plain, noFile⟩ := undoable
  have history := (tracked plain).1
  refine history.undone (KeptFor world) (fun place => holdsFile (world.tree.node place) = true)
    (fun place member => .inl member) ?_ world rfl ?_
  · intro recorded member absent above
    refine ⟨.inr ⟨recorded, member, rfl, absent, above⟩, ?_⟩
    rw [noFile recorded member absent above]
    nofun
  · exact
      { directories := fun _ directory => directory
        others := fun _ _ => .inl rfl
        links := fun _ _ => rfl
        files := fun recorded member ofFile => history.holdsFile_of_record member ofFile
        standing := fun _ isFile => isFile }

/-- For every initial tree and every sequence of operations, cut off at any step: if the
paths were touched plainly, the rollback raises no error and restores the initial tree. -/
theorem rollback_restores (kernel : Kernel) (initial : HostTree)
    (operations : List TransactionOperation) :
    ∀ world ∈ crashes (forEach (perform kernel) operations) (.start initial), Undoable world →
      (rollback kernel world).result = .ok () ∧
        Restored initial world (rollback kernel world).world.tree := by
  intro world stopped undoable
  obtain ⟨last, done, restored⟩ := rollback_of_tracked (tracked_of_mem_crashes stopped) undoable
  refine ⟨congrArg Prod.fst done, ?_⟩
  have isLast : (rollback kernel world).world = last := congrArg Prod.snd done
  rw [isLast]
  exact restored

/-- `chown` clears the bits of set-user-ID and set-group-ID. -/
def plainKernel : Kernel :=
  { links := 40
    afterChown := fun mode => mode % 0o2000
    fresh := { mode := 0o755, uid := 0, gid := 0 } }

def ownedByRoot (mode : Nat) : Attributes := { mode := mode, uid := 0, gid := 0 }

def smallTree : HostTree :=
  (((HostTree.bare (ownedByRoot 0o755)).putAt [['f']] (.file [1, 2] (ownedByRoot 0o644))
    (by decide)).putAt [['l']] (.link ['f'] 0 0) (by decide)).putAt [['e', 't', 'c']]
    (.directory (ownedByRoot 0o750)) (by decide)

def fileName : PathName := ⟨['f'], by decide⟩

def linkName : PathName := ⟨['l'], by decide⟩

def etcName : PathName := ⟨['e', 't', 'c'], by decide⟩

def dataName : PathName := ⟨['d'], by decide⟩

/-- A directory in the place of a link, with a file in it, a retained directory in a new one, a
file that is written again and a directory with another mode. -/
def mixedOperations : List TransactionOperation :=
  [.ensureDirectory [linkName] 0o755 0 0,
    .atomicWrite [fileName, dataName, linkName] [3] 0o600 7 7,
    .ensureRetainedDirectory [etcName, dataName] 0o755 5 5,
    .atomicWrite [fileName] [4] 0o600 0 0,
    .ensureDirectory [etcName] 0o700 5 5]

def mixedWorld : TransactionWorld :=
  (crashes (forEach (perform plainKernel) mixedOperations) (.start smallTree)).getLast
    (List.cons_ne_nil _ _)

theorem rollback_restores_mixed :
    mixedWorld.states.length = 5 ∧ (rollback plainKernel mixedWorld).result = .ok () ∧
      Restored smallTree mixedWorld (rollback plainKernel mixedWorld).world.tree :=
  ⟨by decide +kernel, rollback_restores plainKernel smallTree mixedOperations mixedWorld
    (List.getLast_mem _) (by decide +kernel)⟩

/-- The directory that has taken the place of a file is not removed, and no file can be moved
over it. -/
theorem replacedFile_not_restored :
    ¬ ∀ world ∈ crashes (forEach (perform plainKernel) [.ensureDirectory [fileName] 0o755 0 0])
        (.start smallTree),
      (rollback plainKernel world).result = .ok () := by
  intro fine
  have all : ((crashes (forEach (perform plainKernel) [.ensureDirectory [fileName] 0o755 0 0])
      (.start smallTree)).all fun world => (rollback plainKernel world).result.isOk) = true := by
    refine List.all_eq_true.mpr fun world stopped => ?_
    rw [fine world stopped]
    rfl
  have some_raises : ((crashes (forEach (perform plainKernel)
      [.ensureDirectory [fileName] 0o755 0 0]) (.start smallTree)).all fun world =>
        (rollback plainKernel world).result.isOk) = false := by
    decide +kernel
  cases all.symm.trans some_raises

end XFerry.Management.FilesystemTransaction
