/-
What the receipts of a purge take away, and what they spare.

All that is taken is doomed from the start: the invariant is that each disk of the purge is
a remnant of the first one that lacks doomed places only.  An earlier removal can only make
a later receipt match by taking other names of its file.
-/

import XFerry.Management.Purge
import XFerry.Management.TransactionUndo

namespace XFerry.Management.Purge

open CrashProgram Program List
open FilesystemTransaction (Kernel locate follow pathExists namesUp)
open HostDisk (Remnant)

def RecordsFile (resource : OwnedResource) : Prop :=
  resource.kind = .file ∨ resource.kind = .secret

instance (resource : OwnedResource) : Decidable (RecordsFile resource) := by
  unfold RecordsFile
  infer_instance

structure Resembles (sha256 : List UInt8 → List UInt8) (disk : HostDisk)
    (resource : OwnedResource) (place : Place) (content : List UInt8) (attributes : Attributes) :
    Prop where
  node : disk.tree.node place = some (.file content attributes)
  uid : resource.uid = some attributes.uid
  gid : resource.gid = some attributes.gid
  mode : ∀ mode ∈ resource.mode, mode = attributes.mode
  file : resource.kind = .file → resource.sha256 = some (sha256 content)
  secret : resource.kind = .secret →
    resource.device = some (disk.identity place).1 ∧
      resource.inode = some (disk.identity place).2 ∧
      resource.size = some content.length ∧ resource.modified = some (disk.modified place)

/-- The file is as its receipt says. -/
def Agrees (sha256 : List UInt8 → List UInt8) (disk : HostDisk) (resource : OwnedResource)
    (place : Place) : Prop :=
  disk.linkCount place = 1 ∧
    ∃ content attributes, Resembles sha256 disk resource place content attributes

section Receipts

variable {kernel : Kernel} {sha256 : List UInt8 → List UInt8} {disk later : HostDisk}
  {resource : OwnedResource} {place : Place} {doomed : Place → Prop}

theorem resourceUnchanged_iff :
    resourceUnchanged kernel sha256 disk resource = true ↔
      ∃ place node, locate kernel disk.tree resource.path.hostPath = some place ∧
        disk.tree.node place = some node ∧
        resource.uid = some (nodeAttributes node).uid ∧
        resource.gid = some (nodeAttributes node).gid ∧
        (∀ mode ∈ resource.mode, mode = (nodeAttributes node).mode) ∧
        sameEntry sha256 disk resource place node = true := by
  constructor
  · intro unchanged
    unfold resourceUnchanged at unchanged
    cases located : locate kernel disk.tree resource.path.hostPath with
    | none =>
      rw [located] at unchanged
      cases unchanged
    | some place =>
      simp only [located] at unchanged
      cases found : disk.tree.node place with
      | none =>
        rw [found] at unchanged
        cases unchanged
      | some node =>
        simp only [found] at unchanged
        split at unchanged
        · case isTrue differs => cases unchanged
        rename_i owned
        rw [not_or, not_not, not_not] at owned
        split at unchanged
        · case isTrue differs => cases unchanged
        rename_i allowed
        refine ⟨place, node, rfl, found, owned.1, owned.2, ?_, unchanged⟩
        intro mode member
        by_contra wrong
        exact allowed ⟨mode, member, wrong⟩
  · rintro ⟨place, node, located, found, uid, gid, mode, same⟩
    simp only [resourceUnchanged, located, found]
    rw [if_neg (by rw [not_or, not_not, not_not]; exact ⟨uid, gid⟩), if_neg]
    · exact same
    · rintro ⟨recorded, member, wrong⟩
      exact wrong (mode recorded member)

theorem resourceUnchanged_file (records : RecordsFile resource) :
    resourceUnchanged kernel sha256 disk resource = true ↔
      ∃ place, locate kernel disk.tree resource.path.hostPath = some place ∧
        Agrees sha256 disk resource place := by
  rw [resourceUnchanged_iff]
  constructor
  · rintro ⟨place, node, located, found, uid, gid, mode, same⟩
    refine ⟨place, located, ?_⟩
    unfold sameEntry at same
    rcases records with kind | kind
    · rw [kind] at same
      cases node with
      | directory | link => cases same
      | file content attributes =>
        simp only [Bool.and_eq_true, decide_eq_true_eq] at same
        exact ⟨same.1, content, attributes, found, uid, gid, mode, fun _ => same.2,
          fun secret => absurd (kind.symm.trans secret) nofun⟩
    · rw [kind] at same
      cases node with
      | directory | link => cases same
      | file content attributes =>
        simp only [Bool.and_eq_true, decide_eq_true_eq] at same
        obtain ⟨⟨⟨⟨count, device⟩, inode⟩, size⟩, modified⟩ := same
        exact ⟨count, content, attributes, found, uid, gid, mode,
          fun file => absurd (kind.symm.trans file) nofun,
          fun _ => ⟨device, inode, size, modified⟩⟩
  · rintro ⟨place, located, count, content, attributes, agrees⟩
    refine ⟨place, .file content attributes, located, agrees.node, agrees.uid, agrees.gid,
      agrees.mode, ?_⟩
    unfold sameEntry
    rcases records with kind | kind
    · rw [kind]
      simp only [Bool.and_eq_true, decide_eq_true_eq]
      exact ⟨count, agrees.file kind⟩
    rw [kind]
    obtain ⟨device, inode, size, modified⟩ := agrees.secret kind
    simp only [Bool.and_eq_true, decide_eq_true_eq]
    exact ⟨⟨⟨⟨count, device⟩, inode⟩, size⟩, modified⟩

theorem resourceUnchanged_tree (isTree : resource.kind = .tree) :
    resourceUnchanged kernel sha256 disk resource = true ↔
      ∃ place attributes, locate kernel disk.tree resource.path.hostPath = some place ∧
        disk.tree.node place = some (.directory attributes) ∧
        resource.uid = some attributes.uid ∧ resource.gid = some attributes.gid ∧
        (∀ mode ∈ resource.mode, mode = attributes.mode) ∧
        resource.device = some (disk.identity place).1 ∧
        resource.inode = some (disk.identity place).2 := by
  rw [resourceUnchanged_iff]
  constructor
  · rintro ⟨place, node, located, found, uid, gid, mode, same⟩
    unfold sameEntry at same
    rw [isTree] at same
    cases node with
    | file | link => cases same
    | directory attributes =>
      simp only [Bool.and_eq_true, decide_eq_true_eq] at same
      exact ⟨place, attributes, located, found, uid, gid, mode, same.1, same.2⟩
  · rintro ⟨place, attributes, located, found, uid, gid, mode, device, inode⟩
    refine ⟨place, .directory attributes, located, found, uid, gid, mode, ?_⟩
    unfold sameEntry
    rw [isTree]
    simp only [Bool.and_eq_true, decide_eq_true_eq]
    exact ⟨device, inode⟩

section

variable (left : Remnant doomed later disk)
include left

theorem locate_of_remnant {path : ManifestPath}
    (located : locate kernel later.tree path.hostPath = some place) :
    locate kernel disk.tree path.hostPath = some place :=
  FilesystemTransaction.locate_of_within left.within located

theorem Resembles.of_remnant {content : List UInt8} {attributes : Attributes}
    (resembles : Resembles sha256 later resource place content attributes) :
    Resembles sha256 disk resource place content attributes := by
  have found : later.tree.node place ≠ none := by
    rw [resembles.node]
    nofun
  refine ⟨?_, resembles.uid, resembles.gid, resembles.mode, resembles.file, ?_⟩
  · rw [← left.node_of_found found]
    exact resembles.node
  · rw [← left.identity, ← left.modified]
    exact resembles.secret

theorem resourceUnchanged_tree_of_remnant (isTree : resource.kind = .tree)
    (unchanged : resourceUnchanged kernel sha256 later resource = true) :
    resourceUnchanged kernel sha256 disk resource = true := by
  obtain ⟨place, attributes, located, found, rest⟩ := (resourceUnchanged_tree isTree).mp unchanged
  have there : later.tree.node place ≠ none := by
    rw [found]
    nofun
  rw [left.node_of_found there] at found
  rw [left.identity] at rest
  exact (resourceUnchanged_tree isTree).mpr
    ⟨place, attributes, locate_of_remnant left located, found, rest⟩

end

end Receipts

section Doom

variable (kernel : Kernel) (sha256 : List UInt8 → List UInt8) (disk : HostDisk) (item : Instance)

/-- What the receipts take: files that are as recorded, and in a tree that is as recorded
all but links and what the text of the files directory continues. -/
inductive Taken (resources : List OwnedResource) : Place → Prop where
  | file {resource : OwnedResource} {place : Place} (member : resource ∈ resources)
      (records : RecordsFile resource)
      (located : locate kernel disk.tree resource.path.hostPath = some place)
      (agrees : Agrees sha256 disk resource place) : Taken resources place
  | entry {resource : OwnedResource} {place other : Place} {name : EntryName}
      (native : item.native = true) (member : resource ∈ resources)
      (isTree : resource.kind = .tree)
      (unchanged : resourceUnchanged kernel sha256 disk resource = true)
      (located : locate kernel disk.tree resource.path.hostPath = some place)
      (apart : item.filesDir.isRelativeTo (resource.path.child name) = false)
      (noLink : holdsLink (disk.tree.node (place ++ [name.val])) = false)
      (below : place ++ [name.val] <+: other) : Taken resources other
  | emptied {resource : OwnedResource} {place : Place}
      (native : item.native = true) (member : resource ∈ resources)
      (isTree : resource.kind = .tree)
      (unchanged : resourceUnchanged kernel sha256 disk resource = true)
      (located : locate kernel disk.tree resource.path.hostPath = some place)
      (every : ∀ name, disk.tree.node (place ++ [name]) ≠ none →
        Taken resources (place ++ [name])) : Taken resources place

def ownFiles : List ManifestPath :=
  if item.native then [item.manifest.parent.child retainedStateName, item.manifest]
  else [item.manifest, item.profile.parent.child lockName]

def ownFolders : List ManifestPath :=
  if item.native then [item.manifest.parent]
  else [item.profile.parent.child secretsName, item.profile.parent, item.manifest.parent]

inductive Doomed : Place → Prop where
  | taken {place : Place} (taken : Taken kernel sha256 disk item item.resources place) :
      Doomed place
  | own {path : ManifestPath} {place : Place} (member : path ∈ ownFiles item)
      (located : locate kernel disk.tree path.hostPath = some place)
      (isFile : holdsDirectory (disk.tree.node place) = false) : Doomed place
  | emptied {path : ManifestPath} {place : Place} (member : path ∈ ownFolders item)
      (located : locate kernel disk.tree path.hostPath = some place)
      (every : ∀ name, disk.tree.node (place ++ [name]) ≠ none → Doomed (place ++ [name])) :
      Doomed place

/-- A recorded file that is there, in whatever form, but not as its receipt says. -/
def Edited (resource : OwnedResource) (place : Place) : Prop :=
  RecordsFile resource ∧ locate kernel disk.tree resource.path.hostPath = some place ∧
    disk.tree.node place ≠ none ∧ ¬ Agrees sha256 disk resource place

def Recorded (place : Place) : Prop :=
  ∃ resource ∈ item.resources, ∃ above,
    locate kernel disk.tree resource.path.hostPath = some above ∧ above <+: place

def Own (place : Place) : Prop :=
  ∃ path ∈ ownFiles item ++ ownFolders item, locate kernel disk.tree path.hostPath = some place

/-- What is left has the files directory with all in it and all edited files, and lacks only
what is recorded or the deployment's own. -/
structure Spared (left : HostDisk) : Prop where
  files : ∀ folder, follow kernel disk.tree item.filesDir.hostPath = some folder →
    ∀ place, folder <+: place → left.tree.node place = disk.tree.node place
  inside : ∀ place, left.tree.node place = disk.tree.node place ∨
    left.tree.node place = none ∧ (Recorded kernel disk item place ∨ Own kernel disk item place)
  edited : ∀ resource ∈ item.resources, ∀ place, Edited kernel sha256 disk resource place →
    left.tree.node place = disk.tree.node place

/-- At each step of it, the purge has spared what it has to spare, and it ends with a list of
all edited files if there are any. -/
def SparesForeign (kept : List ManifestPath) : Prop :=
  (∀ world ∈ crashes (purge kernel sha256 item) (start item kept disk),
    Spared kernel sha256 disk item world.disk) ∧
  ∀ resource ∈ item.resources, ∀ place, Edited kernel sha256 disk resource place →
    ∃ world, (purge kernel sha256 item).final (start item kept disk) = (.ok (), world) ∧
      resource.path ∈ world.retained

/-- Nothing private lies beneath the files directory, neither in the texts of the paths nor
where they lead. -/
def Separate : Prop :=
  ∀ path ∈ [item.stateDir, item.manifest.parent], path.isRelativeTo item.filesDir = false ∧
    (follow kernel disk.tree item.filesDir.hostPath).all (fun folder =>
      (follow kernel disk.tree path.hostPath).all fun place => !folder.isPrefixOf place) = true

instance : Decidable (Separate kernel disk item) := by
  unfold Separate
  infer_instance

/-- As long as the directory is there to which the path leads, it leads there, whatever of the
doomed is gone. -/
def WayStands (doomed : Place → Prop) (path : ManifestPath) : Prop :=
  ∀ left, Remnant doomed left disk →
    ∀ place, follow kernel disk.tree path.hostPath = some place →
      holdsDirectory (left.tree.node place) = true →
      follow kernel left.tree path.hostPath = some place

/-- Nothing stops the purge: no way to a tree that it empties is cut by an earlier receipt or
by the tree itself, and none to a directory of its own; the manifest is a file that no receipt
takes, and none of its own files is a directory. -/
structure Ends : Prop where
  trees : item.native = true → ∀ earlier resource rest,
    item.resources = earlier ++ resource :: rest → resource.kind = .tree →
      resourceUnchanged kernel sha256 disk resource = true →
      WayStands kernel disk (Taken kernel sha256 disk item (earlier ++ [resource])) resource.path
  folders : ∀ path ∈ ownFolders item, WayStands kernel disk (Doomed kernel sha256 disk item) path
  manifest : ∃ place, locate kernel disk.tree item.manifest.hostPath = some place ∧
    disk.tree.node place ≠ none ∧ ¬ Taken kernel sha256 disk item item.resources place
  ownFiles : ∀ path ∈ ownFiles item, ∀ place,
    locate kernel disk.tree path.hostPath = some place →
      holdsDirectory (disk.tree.node place) = false

structure Safe : Prop where
  files : ∀ folder, follow kernel disk.tree item.filesDir.hostPath = some folder →
    ∀ place, folder <+: place → disk.tree.node place ≠ none → ¬ Doomed kernel sha256 disk item place
  kept : ∀ resource ∈ item.resources, ∀ place, Edited kernel sha256 disk resource place →
    ¬ Doomed kernel sha256 disk item place
  /-- A file that only has too many names keeps one that no earlier receipt takes. -/
  named : ∀ earlier resource rest, item.resources = earlier ++ resource :: rest →
    RecordsFile resource → ∀ place content attributes,
      locate kernel disk.tree resource.path.hostPath = some place →
      Resembles sha256 disk resource place content attributes → disk.linkCount place ≠ 1 →
      ∃ another ∈ disk.aliases place, disk.tree.node another ≠ none ∧
        ¬ Taken kernel sha256 disk item earlier another
  /-- The path of an edited file leads to something when its receipt comes up, whatever is gone
  of what the earlier receipts take. -/
  reached : ∀ earlier resource rest, item.resources = earlier ++ resource :: rest →
    ∀ place, Edited kernel sha256 disk resource place →
      ∀ left, Remnant (Taken kernel sha256 disk item earlier) left disk →
        pathExists kernel left.tree resource.path.hostPath = true
  ends : (∃ resource ∈ item.resources, ∃ place, Edited kernel sha256 disk resource place) →
    Ends kernel sha256 disk item

end Doom

variable {place : Place}

section Calls

variable {kernel : Kernel} {disk next : HostDisk} {path : ManifestPath} {doomed : Place → Prop}

theorem unlink_eq_some (unlinked : unlink kernel path disk = some next) :
    ∃ place, locate kernel disk.tree path.hostPath = some place ∧
      disk.tree.node place ≠ none ∧ holdsDirectory (disk.tree.node place) = false ∧
      next = disk.remove place := by
  unfold unlink at unlinked
  cases located : locate kernel disk.tree path.hostPath with
  | none =>
    rw [located] at unlinked
    cases unlinked
  | some place =>
    simp only [located] at unlinked
    cases found : disk.tree.node place with
    | none =>
      rw [found] at unlinked
      cases unlinked
    | some node =>
      simp only [found] at unlinked
      split at unlinked
      · case isTrue directory => cases unlinked
      rename_i notDirectory
      cases unlinked
      refine ⟨place, rfl, ?_, ?_, rfl⟩
      · rw [found]
        nofun
      · rw [found]
        exact (Bool.not_eq_true _).mp notDirectory

theorem unlink_of_file (located : locate kernel disk.tree path.hostPath = some place)
    (found : disk.tree.node place ≠ none) (isFile : holdsDirectory (disk.tree.node place) = false) :
    unlink kernel path disk = some (disk.remove place) := by
  obtain ⟨node, isNode⟩ := Option.ne_none_iff_exists'.mp found
  rw [isNode] at isFile
  have notDirectory : node.isDirectory = false := isFile
  simp only [unlink, located, isNode, notDirectory]
  rfl

theorem remnant_of_unlink (unlinked : unlink kernel path disk = some next)
    (falls : ∀ place, locate kernel disk.tree path.hostPath = some place → doomed place) :
    Remnant doomed next disk := by
  obtain ⟨place, located, found, isFile, rfl⟩ := unlink_eq_some unlinked
  refine Remnant.remove disk place fun other before there => ?_
  by_cases same : other = place
  · rw [same]
    exact falls place located
  · exact absurd (HostTree.node_below isFile before same) there

theorem rmtree_eq_some (removed : rmtree kernel path disk = some next) :
    ∃ place, locate kernel disk.tree path.hostPath = some place ∧
      holdsDirectory (disk.tree.node place) = true ∧ next = disk.remove place := by
  unfold rmtree at removed
  cases located : locate kernel disk.tree path.hostPath with
  | none =>
    rw [located] at removed
    cases removed
  | some place =>
    simp only [located] at removed
    split at removed
    · case isTrue directory =>
        cases removed
        exact ⟨place, rfl, directory, rfl⟩
    · case isFalse notDirectory => cases removed

theorem rmdir_eq_some (removed : rmdir kernel path disk = some next) :
    ∃ place, locate kernel disk.tree path.hostPath = some place ∧ place ≠ [] ∧
      holdsDirectory (disk.tree.node place) = true ∧ disk.children place = [] ∧
      next = disk.remove place := by
  unfold rmdir at removed
  cases located : locate kernel disk.tree path.hostPath with
  | none =>
    rw [located] at removed
    cases removed
  | some place =>
    simp only [located] at removed
    split at removed
    · case isTrue empty =>
        cases removed
        exact ⟨place, rfl, empty.1, empty.2.1, empty.2.2, rfl⟩
    · case isFalse stays => cases removed

theorem remnant_of_rmdir {first : HostDisk} (left : Remnant doomed disk first)
    (removed : rmdir kernel path disk = some next)
    (falls : ∀ place, locate kernel first.tree path.hostPath = some place →
      (∀ name, first.tree.node (place ++ [name]) ≠ none → doomed (place ++ [name])) →
        doomed place) :
    Remnant doomed next first := by
  obtain ⟨place, located, _, _, empty, rfl⟩ := rmdir_eq_some removed
  refine (Remnant.remove disk place fun other before there => ?_).trans left
  by_cases same : other = place
  · rw [same]
    refine falls place (locate_of_remnant left located) fun name found => ?_
    rcases left.node (place ++ [name]) with stays | gone
    · have absent := HostDisk.children_eq_nil_iff.mp empty name
      rw [stays] at absent
      exact absurd absent found
    · exact gone.2
  · exact absurd (HostDisk.node_below_of_empty empty before same) there

end Calls

section Programs

variable {passes : PurgeWorld → Prop} {raises : Unit → PurgeWorld → Prop}
  {change : HostDisk → Option HostDisk}

theorem contract_attemptCall {world : PurgeWorld}
    (fits : ∀ next, change world.disk = some next → passes { world with disk := next }) :
    Contract passes (· = world) (attemptCall change) (fun done later => done = true ∧
          (∃ next, change world.disk = some next ∧ later = { world with disk := next }) ∨
        done = false ∧ change world.disk = none ∧ later = world) raises := by
  refine .look fun here start => ?_
  cases start
  cases changed : change world.disk with
  | none => exact .pure fun _ same => .inr ⟨rfl, rfl, same⟩
  | some next =>
    refine .bind (fun _ later => later = { world with disk := next }) (.durable ?_ ?_) fun _ => ?_
    · rintro _ rfl
      exact fits next changed
    · rintro _ rfl
      rfl
    · exact .pure fun _ same => .inl ⟨rfl, next, rfl, same⟩

theorem contract_systemCall {world : PurgeWorld}
    (fits : ∀ next, change world.disk = some next → passes { world with disk := next })
    (fails : change world.disk = none → raises () world) :
    Contract passes (· = world) (systemCall change)
      (fun _ later => ∃ next, change world.disk = some next ∧
        later = { world with disk := next }) raises := by
  refine .bind _ (contract_attemptCall fits) fun done => ?_
  cases done with
  | true =>
    refine .pure fun later ended => ?_
    rcases ended with ⟨_, changed⟩ | ⟨never, _⟩
    · exact changed
    · cases never
  | false =>
    refine .raise fun later ended => ?_
    rcases ended with ⟨never, _⟩ | ⟨_, unchanged, rfl⟩
    · cases never
    · exact fails unchanged

end Programs

section Receipts

variable {kernel : Kernel} {sha256 : List UInt8 → List UInt8} {disk : HostDisk} {item : Instance}

theorem Taken.mono {fewer more : List OwnedResource} (subset : fewer ⊆ more)
    (taken : Taken kernel sha256 disk item fewer place) :
    Taken kernel sha256 disk item more place := by
  induction taken with
  | file member records located agrees => exact .file (subset member) records located agrees
  | entry native member isTree unchanged located apart noLink below =>
    exact .entry native (subset member) isTree unchanged located apart noLink below
  | emptied native member isTree unchanged located _ ih =>
    exact .emptied native (subset member) isTree unchanged located ih

variable (kernel sha256 disk item)

/-- What the receipts so far have left, with all edited files among them on the list. -/
structure Processed (earlier : List OwnedResource) (world : PurgeWorld) : Prop where
  left : Remnant (Taken kernel sha256 disk item earlier) world.disk disk
  listed : ∀ resource ∈ earlier, ∀ place, Edited kernel sha256 disk resource place →
    resource.path ∈ world.retained

def Passes (world : PurgeWorld) : Prop :=
  Remnant (Doomed kernel sha256 disk item) world.disk disk

/-- The purge only stops where no edited file is left off its list. -/
def Stops (_ : Unit) (_ : PurgeWorld) : Prop :=
  ¬ ∃ resource ∈ item.resources, ∃ place, Edited kernel sha256 disk resource place

variable {kernel sha256 disk item} {earlier rest : List OwnedResource} {resource : OwnedResource}
  {world : PurgeWorld}

section

variable (processed : Processed kernel sha256 disk item earlier world)
include processed

theorem Processed.passes (part : earlier ⊆ item.resources) : Passes kernel sha256 disk item world :=
  processed.left.mono fun _ taken => .taken (taken.mono part)

theorem Processed.more (unedited : ∀ place, ¬ Edited kernel sha256 disk resource place) :
    Processed kernel sha256 disk item (earlier ++ [resource]) world := by
  refine ⟨processed.left.mono fun _ taken => taken.mono (subset_append_left _ _), ?_⟩
  intro other member place edited
  rcases mem_append.mp member with before | last
  · exact processed.listed other before place edited
  · rw [mem_singleton.mp last] at edited
    exact absurd edited (unedited place)

end

theorem subset_of_split (split : item.resources = earlier ++ resource :: rest) :
    earlier ++ [resource] ⊆ item.resources := by
  rw [split]
  exact append_subset.mpr ⟨subset_append_left _ _, by simp⟩

theorem unedited_of_kind (notFile : resource.kind ≠ .file) (notSecret : resource.kind ≠ .secret)
    (place : Place) : ¬ Edited kernel sha256 disk resource place :=
  fun edited => edited.1.elim notFile notSecret

/-- A later receipt only matches because of an earlier removal if it has only too many
names, and of these enough stay. -/
theorem Safe.agrees_of_later (safe : Safe kernel sha256 disk item)
    (split : item.resources = earlier ++ resource :: rest) (records : RecordsFile resource)
    (left : Remnant (Taken kernel sha256 disk item earlier) world.disk disk)
    (unchanged : resourceUnchanged kernel sha256 world.disk resource = true) :
    ∃ place, locate kernel world.disk.tree resource.path.hostPath = some place ∧
      locate kernel disk.tree resource.path.hostPath = some place ∧
      Agrees sha256 disk resource place := by
  obtain ⟨place, located, count, content, attributes, resembles⟩ :=
    (resourceUnchanged_file records).mp unchanged
  have before := locate_of_remnant left located
  have resembled := resembles.of_remnant left
  refine ⟨place, located, before, ?_, content, attributes, resembled⟩
  by_contra many
  obtain ⟨another, isAlias, found, spared⟩ :=
    safe.named earlier resource rest split records place content attributes before resembled many
  rw [← left.aliases] at isAlias
  rw [← left.node_of_spared spared] at found
  exact HostDisk.linkCount_ne_one isAlias found count

theorem contract_purgeFile (safe : Safe kernel sha256 disk item)
    (split : item.resources = earlier ++ resource :: rest) (records : RecordsFile resource)
    (processed : Processed kernel sha256 disk item earlier world) :
    Contract (Passes kernel sha256 disk item) (· = world) (purgeFile kernel sha256 resource)
      (fun _ => Processed kernel sha256 disk item (earlier ++ [resource]))
      (Stops kernel sha256 disk item) := by
  have part : earlier ++ [resource] ⊆ item.resources := subset_of_split split
  refine .look fun here start => ?_
  cases start
  split
  · case isTrue unchanged =>
      obtain ⟨place, located, before, agrees⟩ :=
        safe.agrees_of_later split records processed.left unchanged
      have unedited : ∀ place, ¬ Edited kernel sha256 disk resource place := by
        rintro other ⟨_, also, _, differs⟩
        obtain rfl : place = other := Option.some.inj (before.symm.trans also)
        exact differs agrees
      have falls : ∀ next, unlink kernel resource.path world.disk = some next →
          Processed kernel sha256 disk item (earlier ++ [resource])
            { world with disk := next } := by
        intro next unlinked
        refine ⟨?_, (processed.more unedited).listed⟩
        refine (remnant_of_unlink unlinked fun other also => ?_).trans
          (processed.more unedited).left
        obtain rfl : place = other := Option.some.inj (located.symm.trans also)
        exact .file (by simp) records before agrees
      refine (contract_systemCall (fun next unlinked => (falls next unlinked).passes part)
        fun failed => ?_).weaken (fun _ same => same) ?_ (fun _ _ stops => stops)
      · obtain ⟨other, also, _, content, attributes, resembles⟩ :=
          (resourceUnchanged_file records).mp unchanged
        have isFile := unlink_of_file also (by rw [resembles.node]; nofun)
          (by rw [resembles.node]; rfl)
        rw [failed] at isFile
        cases isFile
      · rintro _ _ ⟨next, unlinked, rfl⟩
        exact falls next unlinked
  · case isFalse changed =>
      refine .record ?_
      rintro _ rfl
      refine ⟨processed.left.mono fun _ taken => taken.mono (subset_append_left _ _), ?_⟩
      intro other member place edited
      rcases mem_append.mp member with before | last
      · exact mem_append_left _ (processed.listed other before place edited)
      · rw [mem_singleton.mp last]
        exact mem_append_right _ (mem_singleton_self _)

variable {name : EntryName}

theorem locate_child {path : ManifestPath} {tree : HostTree} :
    locate kernel tree (path.child name).hostPath = some place ↔
      ∃ folder, follow kernel tree path.hostPath = some folder ∧
        holdsDirectory (tree.node folder) = true ∧ place = folder ++ [name.val] := by
  have named : name.val ≠ parentName := name.property.ne_parent
  constructor
  · intro located
    obtain ⟨folder, leads, directory, same⟩ := FilesystemTransaction.locate_cons located
    rw [if_neg named] at same
    exact ⟨folder, leads, directory, same⟩
  · rintro ⟨folder, leads, directory, rfl⟩
    have leads : tree.leadsTo kernel.links (namesUp path.hostPath).reverse = some folder := leads
    show locate kernel tree (⟨name.val, .inl name.property⟩ :: path.hostPath) = _
    simp only [locate, leads, directory, if_true, if_neg named]

theorem follow_of_tree {later : HostDisk} (isTree : resource.kind = .tree)
    (unchanged : resourceUnchanged kernel sha256 later resource = true)
    (located : locate kernel later.tree resource.path.hostPath = some place) :
    follow kernel later.tree resource.path.hostPath = some place ∧
      holdsDirectory (later.tree.node place) = true := by
  obtain ⟨other, attributes, also, found, _⟩ := (resourceUnchanged_tree isTree).mp unchanged
  obtain rfl : place = other := Option.some.inj (located.symm.trans also)
  refine ⟨?_, by rw [found]; rfl⟩
  rw [FilesystemTransaction.follow_of_locate located (by rw [found]; rfl), found]
  rfl

/-- A tree whose receipt matches, with the place it has. -/
structure Purged (kernel : Kernel) (sha256 : List UInt8 → List UInt8) (disk : HostDisk)
    (item : Instance) (resource : OwnedResource) (place : Place) : Prop where
  native : item.native = true
  isTree : resource.kind = .tree
  unchanged : resourceUnchanged kernel sha256 disk resource = true
  located : locate kernel disk.tree resource.path.hostPath = some place

theorem Purged.entry {place other : Place} (purged : Purged kernel sha256 disk item resource place)
    (left : Remnant (Taken kernel sha256 disk item earlier) world.disk disk)
    (member : resource ∈ earlier)
    (located : locate kernel world.disk.tree (resource.path.child name).hostPath = some other)
    (apart : item.filesDir.isRelativeTo (resource.path.child name) = false)
    (noLink : holdsLink (world.disk.tree.node other) = false)
    (found : world.disk.tree.node other ≠ none) :
    other = place ++ [name.val] ∧
      ∀ below, other <+: below → Taken kernel sha256 disk item earlier below := by
  have before := locate_of_remnant left located
  obtain ⟨folder, leads, _, same⟩ := locate_child.mp before
  have reaches := (follow_of_tree purged.isTree purged.unchanged purged.located).1
  obtain rfl : place = folder := Option.some.inj (reaches.symm.trans leads)
  rw [left.node_of_found found, same] at noLink
  rw [same]
  exact ⟨rfl, fun below inside => .entry purged.native member purged.isTree purged.unchanged
    purged.located apart noLink inside⟩

section

variable (safe : Safe kernel sha256 disk item)
include safe

theorem contract_purgeChild (split : item.resources = earlier ++ resource :: rest)
    (purged : Purged kernel sha256 disk item resource place)
    (processed : Processed kernel sha256 disk item (earlier ++ [resource]) world)
    (there : world.disk.tree.node (place ++ [name.val]) ≠ none) :
    Contract (Passes kernel sha256 disk item) (· = world)
      (purgeChild kernel item.filesDir (resource.path.child name))
      (fun _ later => Processed kernel sha256 disk item (earlier ++ [resource]) later ∧
        ∀ other, ¬ place ++ [name.val] <+: other →
          later.disk.tree.node other = world.disk.tree.node other)
      (Stops kernel sha256 disk item) := by
  have part : earlier ++ [resource] ⊆ item.resources := subset_of_split split
  have member : resource ∈ earlier ++ [resource] := by simp
  -- Where there is something to list, the entry is found.
  have finds : ∀ resource' ∈ item.resources, ∀ at_, Edited kernel sha256 disk resource' at_ →
      locate kernel world.disk.tree (resource.path.child name).hostPath =
        some (place ++ [name.val]) := by
    intro other inside at_ edited
    have directory := world.disk.tree.nested place name.val there
    have reaches := (follow_of_tree purged.isTree purged.unchanged purged.located).1
    have still := (safe.ends ⟨other, inside, at_, edited⟩).trees purged.native earlier resource
      rest split purged.isTree purged.unchanged world.disk processed.left place reaches directory
    exact locate_child.mpr ⟨place, still, directory, rfl⟩
  refine .look fun here start => ?_
  cases start
  split
  · case isTrue relative =>
      refine .pure ?_
      rintro _ rfl
      exact ⟨processed, fun _ _ => rfl⟩
  rename_i relative
  have apart := (Bool.not_eq_true _).mp relative
  split
  · case isTrue isLink =>
      refine .record ?_
      rintro _ rfl
      exact ⟨⟨processed.left, fun other inside at_ edited =>
        mem_append_left _ (processed.listed other inside at_ edited)⟩, fun _ _ => rfl⟩
  rename_i notLink
  have noLink : ∀ other, locate kernel world.disk.tree
      (resource.path.child name).hostPath = some other →
        holdsLink (world.disk.tree.node other) = false := by
    intro other located
    rw [FilesystemTransaction.isSymlink_of_locate located] at notLink
    exact (Bool.not_eq_true _).mp notLink
  have entry : ∀ other, locate kernel world.disk.tree
      (resource.path.child name).hostPath = some other →
        world.disk.tree.node other ≠ none → other = place ++ [name.val] ∧
          ∀ below, other <+: below → Taken kernel sha256 disk item (earlier ++ [resource]) below :=
    fun other located found =>
      purged.entry processed.left member located apart (noLink other located) found
  have falls : ∀ other next, locate kernel world.disk.tree
      (resource.path.child name).hostPath = some other →
        world.disk.tree.node other ≠ none → next = world.disk.remove other →
        Processed kernel sha256 disk item (earlier ++ [resource]) { world with disk := next } ∧
          ∀ another, ¬ place ++ [name.val] <+: another →
            next.tree.node another = world.disk.tree.node another := by
    rintro other next located found rfl
    obtain ⟨same, taken⟩ := entry other located found
    refine ⟨⟨(Remnant.remove world.disk other fun below inside _ =>
      taken below inside).trans processed.left, processed.listed⟩, ?_⟩
    intro another apart
    rw [same]
    exact HostTree.node_remove_of_not apart
  split
  · case isTrue directory =>
      have removes : ∀ next, rmtree kernel (resource.path.child name) world.disk =
          some next → ∃ other, locate kernel world.disk.tree
            (resource.path.child name).hostPath = some other ∧
              world.disk.tree.node other ≠ none ∧ next = world.disk.remove other := by
        intro next removed
        obtain ⟨other, located, found, same⟩ := rmtree_eq_some removed
        exact ⟨other, located, ne_none_of_holdsDirectory found, same⟩
      refine (contract_systemCall (fun next removed => ?_) fun failed => ?_).weaken
        (fun _ same => same) ?_ (fun _ _ stops => stops)
      · obtain ⟨other, located, found, same⟩ := removes next removed
        exact (falls other next located found same).1.passes part
      · rintro ⟨other, inside, at_, edited⟩
        have located := finds other inside at_ edited
        rw [FilesystemTransaction.isDir_of_locate located (noLink _ located)] at directory
        simp only [rmtree, located, directory, if_true] at failed
        cases failed
      · rintro _ _ ⟨next, removed, rfl⟩
        obtain ⟨other, located, found, same⟩ := removes next removed
        exact falls other next located found same
  · case isFalse notDirectory =>
      refine (contract_systemCall (fun next removed => ?_) fun failed => ?_).weaken
        (fun _ same => same) ?_ (fun _ _ stops => stops)
      · obtain ⟨other, located, found, _, same⟩ := unlink_eq_some removed
        exact (falls other next located found same).1.passes part
      · rintro ⟨other, inside, at_, edited⟩
        have located := finds other inside at_ edited
        rw [FilesystemTransaction.isDir_of_locate located (noLink _ located)]
          at notDirectory
        rw [unlink_of_file located there ((Bool.not_eq_true _).mp notDirectory)] at failed
        cases failed
      · rintro _ _ ⟨next, removed, rfl⟩
        obtain ⟨other, located, found, _, same⟩ := unlink_eq_some removed
        exact falls other next located found same

theorem contract_purgeTree (native : item.native = true)
    (split : item.resources = earlier ++ resource :: rest) (isTree : resource.kind = .tree)
    (processed : Processed kernel sha256 disk item earlier world) :
    Contract (Passes kernel sha256 disk item) (· = world)
      (purgeTree kernel sha256 item.filesDir resource)
      (fun _ => Processed kernel sha256 disk item (earlier ++ [resource]))
      (Stops kernel sha256 disk item) := by
  have part : earlier ++ [resource] ⊆ item.resources := subset_of_split split
  have member : resource ∈ earlier ++ [resource] := by simp
  have start := processed.more (unedited_of_kind (by rw [isTree]; nofun) (by rw [isTree]; nofun))
  refine .look fun here same => ?_
  cases same
  split
  · case isTrue unchanged =>
      have unchangedBefore := resourceUnchanged_tree_of_remnant processed.left isTree unchanged
      obtain ⟨place, _, located, _⟩ := (resourceUnchanged_tree isTree).mp unchanged
      have purged : Purged kernel sha256 disk item resource place :=
        ⟨native, isTree, unchangedBefore, locate_of_remnant processed.left located⟩
      obtain ⟨leads, directory⟩ := follow_of_tree isTree unchanged located
      simp only [iterdir, leads, directory, if_true]
      refine .bind (fun _ => Processed kernel sha256 disk item (earlier ++ [resource])) ?_
        fun _ => ?_
      · refine (Contract.forEach
          (fun names (later : PurgeWorld) =>
            Processed kernel sha256 disk item (earlier ++ [resource]) later ∧ names.Nodup ∧
              ∀ name ∈ names, later.disk.tree.node (place ++ [name.val]) ≠ none)
          (fun name names => ?_) (world.disk.children place)).weaken ?_ ?_
            (fun _ _ stops => stops)
        · refine Contract.pointwise fun later holds => ?_
          obtain ⟨sofar, distinct, there⟩ := holds
          refine (contract_purgeChild safe split purged sofar
            (there name mem_cons_self)).weaken (fun _ same => same) ?_
              (fun _ _ stops => stops)
          rintro _ last ⟨done, others⟩
          refine ⟨done, (nodup_cons.mp distinct).2, fun next inside => ?_⟩
          rw [others (place ++ [next.val])]
          · exact there next (mem_cons_of_mem _ inside)
          · intro before
            have same : [name.val] = [next.val] :=
              ((prefix_append_right_inj place).mp before).eq_of_length rfl
            obtain rfl : name = next := Subtype.ext (cons.inj same).1
            exact (nodup_cons.mp distinct).1 inside
        · rintro _ rfl
          exact ⟨start, HostDisk.nodup_children, fun name => HostDisk.mem_children.mp⟩
        · exact fun _ _ holds => holds.1
      · refine .pointwise fun later sofar => ?_
        have goes : ∀ next, rmdir kernel resource.path later.disk = some next →
            Processed kernel sha256 disk item (earlier ++ [resource])
              { later with disk := next } := by
          intro next removed
          refine ⟨remnant_of_rmdir sofar.left removed fun other also every => ?_, sofar.listed⟩
          exact .emptied native member isTree unchangedBefore also every
        refine .bind _ (contract_attemptCall fun next removed =>
          (goes next removed).passes part) fun _ => .pure ?_
        rintro last (⟨_, next, removed, rfl⟩ | ⟨_, _, rfl⟩)
        · exact goes next removed
        · exact sofar
  · case isFalse changed =>
      refine .record ?_
      rintro _ rfl
      exact ⟨start.left, fun other inside place edited =>
        mem_append_left _ (start.listed other inside place edited)⟩

theorem contract_purgeResource (split : item.resources = earlier ++ resource :: rest)
    (processed : Processed kernel sha256 disk item earlier world) :
    Contract (Passes kernel sha256 disk item) (· = world)
      (purgeResource kernel sha256 item resource)
      (fun _ => Processed kernel sha256 disk item (earlier ++ [resource]))
      (Stops kernel sha256 disk item) := by
  have member : resource ∈ item.resources := by
    rw [split]
    exact mem_append_right _ mem_cons_self
  have skips (unedited : ∀ place, ¬ Edited kernel sha256 disk resource place) :
      Contract (Passes kernel sha256 disk item) (· = world) (Program.returning ())
        (fun _ => Processed kernel sha256 disk item (earlier ++ [resource]))
        (Stops kernel sha256 disk item) := by
    refine .pure ?_
    rintro _ rfl
    exact processed.more unedited
  refine .look fun here same => ?_
  cases same
  split
  · case isTrue _ =>
      cases kind : resource.kind with
      | file => exact contract_purgeFile safe split (.inl kind) processed
      | secret => exact contract_purgeFile safe split (.inr kind) processed
      | tree =>
        simp only
        split
        · case isTrue native => exact contract_purgeTree safe native split kind processed
        · case isFalse compose =>
            exact skips (unedited_of_kind (by rw [kind]; nofun) (by rw [kind]; nofun))
      | directory | other =>
        exact skips (unedited_of_kind (by rw [kind]; nofun) (by rw [kind]; nofun))
  · case isFalse missing =>
      refine skips fun place edited => missing ?_
      exact safe.reached earlier resource rest split place edited world.disk processed.left

theorem contract_resources (kept : List ManifestPath) :
    Contract (Passes kernel sha256 disk item) (· = start item kept disk)
      (forEach (purgeResource kernel sha256 item) item.resources)
      (fun _ => Processed kernel sha256 disk item item.resources)
      (Stops kernel sha256 disk item) := by
  refine (Contract.forEach (fun rest world => ∃ earlier, item.resources = earlier ++ rest ∧
    Processed kernel sha256 disk item earlier world) (fun resource rest => ?_)
      item.resources).weaken ?_ ?_ (fun _ _ stops => stops)
  · refine Contract.pointwise fun world holds => ?_
    obtain ⟨earlier, split, processed⟩ := holds
    refine (contract_purgeResource safe split processed).weaken (fun _ same => same) ?_
      (fun _ _ stops => stops)
    exact fun _ later done => ⟨earlier ++ [resource], by rw [split, append_cons], done⟩
  · rintro _ rfl
    exact ⟨[], rfl, Remnant.refl disk, fun _ absent => absurd absent not_mem_nil⟩
  · rintro _ world ⟨earlier, split, processed⟩
    rw [append_nil] at split
    rw [split]
    exact processed

end

end Receipts

end XFerry.Management.Purge
