/-
A whole purge: the receipts, the files of its own and the directories that get empty.  It
spares the files directory, what no receipt names and what is no longer as its receipt says.
-/

import XFerry.Management.PurgeReceipts
import XFerry.Management.TransactionRollback

namespace XFerry.Management.Purge

open CrashProgram Program Function List
open FilesystemTransaction (Kernel locate follow pathExists)
open HostDisk (Remnant)

variable {place : Place}

section Whole

variable {kernel : Kernel} {sha256 : List UInt8 → List UInt8} {disk : HostDisk} {item : Instance}
  {world : PurgeWorld}

/-! ### The deployment's own files -/

structure Listed (kernel : Kernel) (sha256 : List UInt8 → List UInt8) (disk : HostDisk)
    (item : Instance) (world : PurgeWorld) : Prop where
  passes : Passes kernel sha256 disk item world
  listed : ∀ resource ∈ item.resources, ∀ place, Edited kernel sha256 disk resource place →
    resource.path ∈ world.retained

variable {path : ManifestPath}

theorem passes_unlinkOwn {next : HostDisk}
    (passes : Passes kernel sha256 disk item world) (own : path ∈ ownFiles item)
    (unlinked : unlink kernel path world.disk = some next) :
    Remnant (Doomed kernel sha256 disk item) next disk := by
  obtain ⟨place, located, found, isFile, _⟩ := unlink_eq_some unlinked
  refine (remnant_of_unlink unlinked fun other also => ?_).trans passes
  obtain rfl : place = other := Option.some.inj (located.symm.trans also)
  rw [passes.node_of_found found] at isFile
  exact .own own (locate_of_remnant passes located) isFile

theorem passes_rmdirOwn {next : HostDisk}
    (passes : Passes kernel sha256 disk item world) (own : path ∈ ownFolders item)
    (removed : rmdir kernel path world.disk = some next) :
    Remnant (Doomed kernel sha256 disk item) next disk :=
  remnant_of_rmdir passes removed fun _ located every => .emptied own located every

theorem Listed.rmdirOwn (own : path ∈ ownFolders item)
    (listed : Listed kernel sha256 disk item world) :
    Contract (Passes kernel sha256 disk item) (· = world) (attemptCall (rmdir kernel path))
      (fun done later => Listed kernel sha256 disk item later ∧
        (later = world ∨ done = true ∧ ∃ place,
          locate kernel world.disk.tree path.hostPath = some place ∧
            later.disk = world.disk.remove place)) (Stops kernel sha256 disk item) := by
  refine (contract_attemptCall fun next removed =>
    passes_rmdirOwn listed.passes own removed).weaken (fun _ same => same) ?_
      (fun _ _ stops => stops)
  rintro done later (⟨went, next, removed, rfl⟩ | ⟨_, _, rfl⟩)
  · obtain ⟨place, located, _, _, _, rfl⟩ := rmdir_eq_some removed
    exact ⟨⟨passes_rmdirOwn listed.passes own removed, listed.listed⟩,
      .inr ⟨went, place, located, rfl⟩⟩
  · exact ⟨listed, .inl rfl⟩

theorem Listed.unlinkIfThere (safe : Safe kernel sha256 disk item)
    (own : path ∈ ownFiles item) (listed : Listed kernel sha256 disk item world) :
    Contract (Passes kernel sha256 disk item) (· = world) (unlinkIfThere kernel path)
      (fun _ later => Listed kernel sha256 disk item later ∧
        (later = world ∨ ∃ place, locate kernel world.disk.tree path.hostPath = some place ∧
          later.disk = world.disk.remove place)) (Stops kernel sha256 disk item) := by
  refine .look fun here same => ?_
  cases same
  split
  · case isTrue there =>
      refine (contract_systemCall (fun next unlinked =>
        passes_unlinkOwn listed.passes own unlinked) fun failed => ?_).weaken
          (fun _ same => same) ?_ (fun _ _ stops => stops)
      · rintro edited
        obtain ⟨place, located, holds⟩ := (Option.any_eq_true _ _).mp there
        have found := HostDisk.holds_eq_true.mp holds
        have isFile := (safe.ends edited).ownFiles path own place
          (locate_of_remnant listed.passes located)
        rw [← listed.passes.node_of_found found] at isFile
        rw [unlink_of_file located found isFile] at failed
        cases failed
      · rintro _ _ ⟨next, unlinked, rfl⟩
        obtain ⟨place, located, _, _, rfl⟩ := unlink_eq_some unlinked
        exact ⟨⟨passes_unlinkOwn listed.passes own unlinked, listed.listed⟩,
          .inr ⟨place, located, rfl⟩⟩
  · case isFalse absent =>
      refine .pure ?_
      rintro _ rfl
      exact ⟨listed, .inl rfl⟩

/-- The directory of the manifest is there as long as there is something to list. -/
def Housed (kernel : Kernel) (sha256 : List UInt8 → List UInt8) (disk : HostDisk) (item : Instance)
    (world : PurgeWorld) : Prop :=
  (∃ resource ∈ item.resources, ∃ place, Edited kernel sha256 disk resource place) →
    ∃ folder, follow kernel disk.tree item.manifest.parent.hostPath = some folder ∧
      holdsDirectory (world.disk.tree.node folder) = true

theorem parent_mem_ownFolders : item.manifest.parent ∈ ownFolders item := by
  unfold ownFolders
  split
  · exact mem_singleton_self _
  · simp

theorem manifest_mem_ownFiles : item.manifest ∈ ownFiles item := by
  unfold ownFiles
  split <;> simp

theorem Listed.follow_parent (safe : Safe kernel sha256 disk item)
    (listed : Listed kernel sha256 disk item world)
    (edited : ∃ resource ∈ item.resources, ∃ place, Edited kernel sha256 disk resource place)
    {folder : Place} (leads : follow kernel disk.tree item.manifest.parent.hostPath = some folder)
    (directory : holdsDirectory (world.disk.tree.node folder) = true) :
    follow kernel world.disk.tree item.manifest.parent.hostPath = some folder :=
  (safe.ends edited).folders _ parent_mem_ownFolders world.disk listed.passes
    folder leads directory

theorem Ends.manifest_at (ends : Ends kernel sha256 disk item) :
    ∃ folder name, item.manifest = item.manifest.parent.child name ∧
      follow kernel disk.tree item.manifest.parent.hostPath = some folder ∧
      disk.tree.node (folder ++ [name.val]) ≠ none ∧
      holdsDirectory (disk.tree.node (folder ++ [name.val])) = false ∧
      ¬ Taken kernel sha256 disk item item.resources (folder ++ [name.val]) := by
  obtain ⟨place, located, found, spared⟩ := ends.manifest
  have isFile := ends.ownFiles _ manifest_mem_ownFiles place located
  cases parts : item.manifest.components with
  | nil =>
    have atRoot : item.manifest.hostPath = [] := by
      rw [ManifestPath.hostPath, parts]
      rfl
    rw [atRoot] at located
    cases located
    rw [disk.tree.root] at isFile
    cases isFile
  | cons name up =>
    have isChild : item.manifest = item.manifest.parent.child name := by
      rw [ManifestPath.child, ManifestPath.parent]
      simp only [parts, tail_cons]
      rw [← parts]
    rw [isChild] at located
    obtain ⟨folder, leads, _, rfl⟩ := locate_child.mp located
    exact ⟨folder, name, isChild, leads, found, isFile, spared⟩

theorem contract_unlinkManifest (safe : Safe kernel sha256 disk item)
    (listed : Listed kernel sha256 disk item world)
    (stands : ∀ place, locate kernel disk.tree item.manifest.hostPath = some place →
      (∃ resource ∈ item.resources, ∃ place, Edited kernel sha256 disk resource place) →
        world.disk.tree.node place ≠ none) :
    Contract (Passes kernel sha256 disk item) (· = world)
      (systemCall (unlink kernel item.manifest))
      (fun _ later => Listed kernel sha256 disk item later ∧ Housed kernel sha256 disk item later)
      (Stops kernel sha256 disk item) := by
  have finds (edited : ∃ resource ∈ item.resources, ∃ place,
      Edited kernel sha256 disk resource place) : ∃ folder name,
        follow kernel disk.tree item.manifest.parent.hostPath = some folder ∧
        locate kernel world.disk.tree item.manifest.hostPath = some (folder ++ [name]) ∧
        world.disk.tree.node (folder ++ [name]) ≠ none ∧
        holdsDirectory (world.disk.tree.node (folder ++ [name])) = false := by
    obtain ⟨folder, name, isChild, leads, found, isFile, _⟩ := (safe.ends edited).manifest_at
    have before : locate kernel disk.tree item.manifest.hostPath = some (folder ++ [name.val]) := by
      rw [isChild]
      exact locate_child.mpr ⟨folder, leads, disk.tree.nested _ _ found, rfl⟩
    have there := stands _ before edited
    have directory := world.disk.tree.nested _ _ there
    refine ⟨folder, name.val, leads, ?_, there, ?_⟩
    · rw [isChild]
      exact locate_child.mpr
        ⟨folder, listed.follow_parent safe edited leads directory, directory, rfl⟩
    · rw [listed.passes.node_of_found there]
      exact isFile
  refine (contract_systemCall (fun next unlinked =>
    passes_unlinkOwn listed.passes manifest_mem_ownFiles unlinked) fun failed => ?_).weaken
      (fun _ same => same) ?_ (fun _ _ stops => stops)
  · intro edited
    obtain ⟨folder, name, _, located, there, isFile⟩ := finds edited
    rw [unlink_of_file located there isFile] at failed
    cases failed
  · rintro _ _ ⟨next, unlinked, rfl⟩
    refine ⟨⟨passes_unlinkOwn listed.passes manifest_mem_ownFiles unlinked, listed.listed⟩, ?_⟩
    intro edited
    obtain ⟨folder, name, leads, located, there, _⟩ := finds edited
    obtain ⟨place, also, _, _, rfl⟩ := unlink_eq_some unlinked
    obtain rfl : folder ++ [name] = place := Option.some.inj (located.symm.trans also)
    refine ⟨folder, leads, ?_⟩
    have apart : ¬ folder ++ [name] <+: folder := by
      intro before
      have shorter := before.length_le
      rw [length_append, length_singleton] at shorter
      omega
    show holdsDirectory ((world.disk.tree.remove (folder ++ [name])).node folder) = true
    rw [HostTree.node_remove_of_not apart]
    exact world.disk.tree.nested _ _ there

theorem contract_leaveDirectory (safe : Safe kernel sha256 disk item) (keeps : EntryName → Bool)
    (listed : Listed kernel sha256 disk item world)
    (housed : Housed kernel sha256 disk item world) :
    Contract (Passes kernel sha256 disk item) (· = world)
      (leaveDirectory kernel item.manifest.parent keeps)
      (fun _ => Listed kernel sha256 disk item) (Stops kernel sha256 disk item) := by
  refine .bind _ (listed.rmdirOwn parent_mem_ownFolders) fun gone => ?_
  split
  · case isTrue went =>
      exact .pure fun _ ended => ended.1
  rename_i stays
  refine .look fun later ended => ?_
  obtain ⟨still, rfl | ⟨went, _⟩⟩ := ended
  · cases entries : iterdir kernel item.manifest.parent later.disk with
    | some names =>
      refine .record ?_
      rintro _ rfl
      exact ⟨still.passes, fun resource member place edited =>
        mem_append_left _ (still.listed resource member place edited)⟩
    | none =>
      refine .raise fun _ _ edited => ?_
      obtain ⟨folder, leads, directory⟩ := housed edited
      have reads := still.follow_parent safe edited leads directory
      simp only [iterdir, reads, directory, if_true] at entries
      cases entries
  · exact absurd went stays

/-! ### The whole purge -/

theorem canonical_of_validate {layout : NativeLayout} {operator : Nat}
    (accepted : validate kernel sha256 disk layout operator item = true) :
    item.profile.parent = item.manifest.parent ∧
      (item.native = true → item.manifest = item.manifest.parent.child manifestName) := by
  unfold validate at accepted
  split at accepted
  · case isTrue native =>
      simp only [nativeValidate, Bool.and_eq_true, decide_eq_true_eq] at accepted
      obtain ⟨⟨⟨_, manifest⟩, profile⟩, _⟩ := accepted
      rw [manifest, profile]
      exact ⟨rfl, fun _ => rfl⟩
  rename_i compose
  simp only [composeValidate, Bool.and_eq_true, decide_eq_true_eq] at accepted
  obtain ⟨⟨⟨⟨⟨⟨⟨_, profile⟩, _⟩, _⟩, _⟩, _⟩, _⟩, _⟩ := accepted
  rw [profile]
  exact ⟨rfl, fun native => absurd native compose⟩

theorem Processed.stands (safe : Safe kernel sha256 disk item)
    (processed : Processed kernel sha256 disk item item.resources world)
    (located : locate kernel disk.tree item.manifest.hostPath = some place)
    (edited : ∃ resource ∈ item.resources, ∃ place, Edited kernel sha256 disk resource place) :
    world.disk.tree.node place ≠ none := by
  obtain ⟨other, also, found, spared⟩ := (safe.ends edited).manifest
  obtain rfl : place = other := Option.some.inj (located.symm.trans also)
  rw [processed.left.node_of_spared spared]
  exact found

theorem Processed.done (processed : Processed kernel sha256 disk item item.resources world) :
    Listed kernel sha256 disk item world :=
  ⟨processed.passes fun _ member => member, processed.listed⟩

section

variable (safe : Safe kernel sha256 disk item)
include safe

theorem contract_nativePurge (native : item.native = true)
    (named : item.manifest = item.manifest.parent.child manifestName) (kept : List ManifestPath) :
    Contract (Passes kernel sha256 disk item) (· = start item kept disk)
      (nativePurge kernel sha256 item) (fun _ => Listed kernel sha256 disk item)
      (Stops kernel sha256 disk item) := by
  have own : item.manifest.parent.child retainedStateName ∈ ownFiles item := by
    rw [ownFiles, if_pos native]
    exact mem_cons_self
  refine .bind _ (contract_resources safe kept) fun _ => ?_
  refine .pointwise fun world processed => ?_
  refine .bind _ (processed.done.unlinkIfThere safe own) fun _ => ?_
  refine .pointwise fun later ended => ?_
  obtain ⟨listed, passed⟩ := ended
  refine .bind _ (contract_unlinkManifest safe listed ?_) fun _ =>
    .pointwise fun last ended =>
      contract_leaveDirectory safe _ ended.1 ended.2
  intro place located edited
  have there := processed.stands safe located edited
  rcases passed with rfl | ⟨gone, found, removed⟩
  · exact there
  rw [removed]
  show (world.disk.tree.remove gone).node place ≠ none
  rw [HostTree.node_remove_of_not]
  · exact there
  · -- The receipt of the retained state stands beside the manifest.
    rw [named] at located
    obtain ⟨folder, leads, _, rfl⟩ := locate_child.mp located
    obtain ⟨other, also, _, rfl⟩ := locate_child.mp (locate_of_remnant processed.done.passes found)
    obtain rfl : folder = other := Option.some.inj (leads.symm.trans also)
    intro before
    have same := ((prefix_append_right_inj folder).mp before).eq_of_length rfl
    cases same

theorem contract_composePurge
    (compose : ¬ item.native = true) (canonical : item.profile.parent = item.manifest.parent)
    (kept : List ManifestPath) :
    Contract (Passes kernel sha256 disk item) (· = start item kept disk)
      (composePurge kernel sha256 item) (fun _ => Listed kernel sha256 disk item)
      (Stops kernel sha256 disk item) := by
  have ownSecrets : item.manifest.parent.child secretsName ∈ ownFolders item := by
    rw [ownFolders, if_neg compose, canonical]
    exact mem_cons_self
  have ownLock : item.manifest.parent.child lockName ∈ ownFiles item := by
    rw [ownFiles, if_neg compose, canonical]
    exact mem_cons_of_mem _ mem_cons_self
  unfold composePurge
  rw [canonical]
  refine .bind _ (contract_resources safe kept) fun _ => ?_
  refine .pointwise fun world processed => ?_
  refine .bind _ (contract_unlinkManifest safe processed.done
    fun place located edited => processed.stands safe located edited) fun _ => ?_
  refine .pointwise fun unlinked ended => ?_
  obtain ⟨listed, housed⟩ := ended
  refine .bind _ (listed.rmdirOwn ownSecrets) fun _ => ?_
  refine .pointwise fun left ended => ?_
  obtain ⟨listed', passed⟩ := ended
  have housed' : Housed kernel sha256 disk item left := by
    intro edited
    obtain ⟨folder, leads, directory⟩ := housed edited
    refine ⟨folder, leads, ?_⟩
    rcases passed with rfl | ⟨_, gone, found, removed⟩
    · exact directory
    obtain ⟨other, also, _, rfl⟩ := locate_child.mp found
    have still := listed.follow_parent safe edited leads directory
    obtain rfl : folder = other := Option.some.inj (still.symm.trans also)
    rw [removed]
    show holdsDirectory ((unlinked.disk.tree.remove (folder ++ [secretsName.val])).node
      folder) = true
    rw [HostTree.node_remove_of_not]
    · exact directory
    · intro before
      have shorter := before.length_le
      rw [length_append, length_singleton] at shorter
      omega
  refine .bind _ (contract_leaveDirectory safe _ listed' housed') fun _ => ?_
  refine .pointwise fun emptied listed'' => ?_
  refine .bind _ (listed''.unlinkIfThere safe ownLock) fun _ => ?_
  refine .pointwise fun unlocked ended => ?_
  refine .bind _ (ended.1.rmdirOwn parent_mem_ownFolders) fun _ => ?_
  exact .pure fun _ ended => ended.1

theorem Safe.spared {left : HostDisk}
    (remnant : Remnant (Doomed kernel sha256 disk item) left disk) :
    Spared kernel sha256 disk item left := by
  refine ⟨fun folder leads place inside => ?_, fun place => ?_, ?_⟩
  · by_cases found : disk.tree.node place = none
    · rcases remnant.node place with same | gone
      · exact same
      · rw [gone.1, found]
    · exact remnant.node_of_spared (safe.files folder leads place inside found)
  · refine (remnant.node place).imp_right (And.imp_right fun doomed => ?_)
    cases doomed with
    | taken taken =>
      refine .inl ?_
      cases taken with
      | file member records located agrees => exact ⟨_, member, _, located, prefix_rfl⟩
      | entry native member isTree unchanged located apart noLink below =>
        exact ⟨_, member, _, located, (prefix_append _ _).trans below⟩
      | emptied native member isTree unchanged located every =>
        exact ⟨_, member, _, located, prefix_rfl⟩
    | own member located isFile =>
      exact .inr ⟨_, mem_append_left _ member, located⟩
    | emptied member located every =>
      exact .inr ⟨_, mem_append_right _ member, located⟩
  · exact fun resource member place edited =>
      remnant.node_of_spared (safe.kept resource member place edited)

end

end Whole

/-! ### A files directory beneath the state -/

open FilesystemTransaction (plainKernel ownedByRoot)

def configName : EntryName := ⟨['c'], by decide⟩

def dataName : EntryName := ⟨['d'], by decide⟩

def sharedName : EntryName := ⟨['f'], by decide⟩

def linkName : EntryName := ⟨['s'], by decide⟩

/-- `/c` and `/d` are the configuration and the state, `/d/f` is the files directory and `/s` a
link to it. -/
def sampleTree : HostTree :=
  (((((HostTree.bare (ownedByRoot 0o755)).putAt [['c']] (.directory (ownedByRoot 0o755))
    (by decide)).putAt [['c'], manifestName.val] (.file [1] (ownedByRoot 0o644))
    (by decide)).putAt [['d']] (.directory (ownedByRoot 0o700)) (by decide)).putAt [['d'], ['f']]
    (.directory (ownedByRoot 0o755)) (by decide)).putAt [['s']] (.link "/d/f".toList 0 0)
    (by decide)

def samplePlaces : List Place :=
  [[], [['c']], [['c'], manifestName.val], [['d']], [['d'], ['f']], [['s']]]

theorem sampleTree_covers (place : Place) (found : sampleTree.node place ≠ none) :
    place ∈ samplePlaces := by
  by_contra absent
  simp only [samplePlaces, mem_cons, not_mem_nil, or_false, not_or] at absent
  obtain ⟨root, first, second, third, fourth, fifth⟩ := absent
  refine found ?_
  simp only [sampleTree, HostTree.putAt, HostTree.bare]
  rw [update_of_ne fifth, update_of_ne fourth, update_of_ne third, update_of_ne second,
    update_of_ne first, if_neg root]

def sampleDisk : HostDisk :=
  HostDisk.ofTree sampleTree [configName, dataName, sharedName, linkName, manifestName]
    samplePlaces (fun place => (1, place.length)) (by decide) sampleTree_covers (by decide +kernel)

def sampleLayout : NativeLayout :=
  { configDir := ⟨false, [configName]⟩, dataRoot := ⟨false, [dataName]⟩ }

def stateReceipt : OwnedResource :=
  { path := ⟨false, [dataName]⟩, kind := .tree, sha256 := none, uid := some 0, gid := some 0
    device := some 1, inode := some 1, size := some 0, modified := some 0, mode := some 0o700 }

def sampleInstance (filesDir : ManifestPath) : Instance :=
  { native := true
    manifest := sampleLayout.configDir.child manifestName
    profile := sampleLayout.configDir.child nativeProfileName
    filesDir := filesDir
    stateDir := sampleLayout.dataRoot
    resources := [stateReceipt]
    acl := [] }

def linkedInstance : Instance := sampleInstance ⟨false, [linkName]⟩

def linkedLeft : PurgeWorld :=
  (crashes (purge plainKernel id linkedInstance) (start linkedInstance [] sampleDisk)).getLast
    (cons_ne_nil _ _)

def spelledInstance : Instance := sampleInstance ⟨false, [sharedName, dataName]⟩

theorem spelled_noFile {resource : OwnedResource} (member : resource ∈ spelledInstance.resources) :
    ¬ RecordsFile resource := by
  rw [mem_singleton.mp member]
  decide

theorem spelled_taken
    (taken : Taken plainKernel id sampleDisk spelledInstance spelledInstance.resources place) :
    place = [['d']] ∨ ∃ name : EntryName, name ≠ sharedName ∧ [['d'], name.val] <+: place := by
  have isData : locate plainKernel sampleDisk.tree stateReceipt.path.hostPath = some [['d']] := by
    decide +kernel
  cases taken with
  | file member records => exact absurd records (spelled_noFile member)
  | @entry _ _ _ name native member isTree unchanged located apart noLink below =>
    obtain rfl := mem_singleton.mp member
    obtain rfl := Option.some.inj (isData.symm.trans located)
    refine .inr ⟨name, ?_, below⟩
    rintro rfl
    exact absurd apart (by decide)
  | emptied native member isTree unchanged located every =>
    obtain rfl := mem_singleton.mp member
    exact .inl (Option.some.inj (isData.symm.trans located)).symm

theorem spelled_spared : ¬ Doomed plainKernel id sampleDisk spelledInstance [['d'], ['f']] := by
  intro doomed
  cases doomed with
  | taken taken =>
    rcases spelled_taken taken with same | ⟨name, different, below⟩
    · cases same
    · have same : [['d'], name.val] = [['d'], ['f']] := below.eq_of_length rfl
      exact different (Subtype.ext (cons.inj (cons.inj same).2).1)
  | own member located isFile =>
    rcases mem_pair.mp member with rfl | rfl
    · have isReceipt : locate plainKernel sampleDisk.tree
          (spelledInstance.manifest.parent.child retainedStateName).hostPath =
            some [['c'], retainedStateName.val] := by decide +kernel
      cases isReceipt.symm.trans located
    · have isManifest : locate plainKernel sampleDisk.tree
          spelledInstance.manifest.hostPath = some [['c'], manifestName.val] := by decide +kernel
      cases isManifest.symm.trans located
  | emptied member located every =>
    have isConfig : locate plainKernel sampleDisk.tree
        spelledInstance.manifest.parent.hostPath = some [['c']] := by decide +kernel
    rw [mem_singleton.mp member, isConfig] at located
    cases located

theorem spelled_safe : Safe plainKernel id sampleDisk spelledInstance where
  files := by
    intro folder leads place inside found
    have isFolder : follow plainKernel sampleDisk.tree spelledInstance.filesDir.hostPath =
        some [['d'], ['f']] := by decide +kernel
    obtain rfl := Option.some.inj (isFolder.symm.trans leads)
    have only : ∀ other ∈ samplePlaces, [['d'], ['f']] <+: other → other = [['d'], ['f']] := by
      decide
    rw [only place (sampleTree_covers place found) inside]
    exact spelled_spared
  kept := fun _ member _ edited => absurd edited.1 (spelled_noFile member)
  named := fun _ _ _ _ _ _ _ _ _ _ many => absurd rfl many
  reached := fun _ _ _ split _ edited =>
    absurd edited.1 (spelled_noFile (subset_of_split split (by simp)))
  ends := fun ⟨_, member, _, edited⟩ => absurd edited.1 (spelled_noFile member)

end XFerry.Management.Purge
