/-
Receipts over a change: those that a change makes match their files, and when a receipt that
matched a file matches it after a restoration.
-/

import XFerry.Management.ChangeUndo

namespace XFerry.Management.DeploymentChange

open CrashProgram Program
open Python (Bytes Text)

variable {parts : Parts} {files : HostFiles}

/-! ### New receipts -/

variable {resource : OwnedResource} {after : HostFiles}

theorem resourceUnchanged_congr (same : after resource.path.val = files resource.path.val) :
    resourceUnchanged parts after resource = resourceUnchanged parts files resource := by
  unfold resourceUnchanged
  rw [same]

theorem resourceReceipt_path {path : ResourcePath} {kind : ResourceKind}
    (made : resourceReceipt parts files path kind = some resource) : resource.path = path := by
  unfold resourceReceipt at made
  split at made
  · cases made
  split at made
  · cases made
    rfl
  · cases made
    rfl
  · split at made
    · cases made
      rfl
    · cases made
  · split at made
    · cases made
      rfl
    · cases made
  · cases made

theorem resourceReceipt_unchanged {path : ResourcePath} {kind : ResourceKind}
    (made : resourceReceipt parts files path kind = some resource)
    (kept : kind ≠ .directory) : resourceUnchanged parts files resource = true := by
  have named := resourceReceipt_path made
  unfold resourceReceipt at made
  cases found : files path.val with
  | none =>
    rw [found] at made
    cases made
  | some entry =>
    rw [found] at made
    unfold resourceUnchanged
    rw [named, found]
    cases isBody : entry.body with
    | directory | link => cases kind <;> simp_all
    | file content =>
      cases kind with
      | directory => exact absurd rfl kept
      | file | secret =>
        by_cases single : entry.links = 1
        · simp only [isBody, if_pos single, Option.some.injEq] at made
          subst made
          simp [isBody, single]
        · simp [isBody, if_neg single] at made

theorem kindOf_ne (path : ResourcePath) : kindOf path ≠ .directory := by
  unfold kindOf
  split <;> nofun

def Keyed (dict : OrderedDict ResourcePath OwnedResource) : Prop :=
  ∀ path resource, dict.lookup path = some resource → resource.path = path

variable {dict : OrderedDict ResourcePath OwnedResource}

theorem Keyed.assign (keyed : Keyed dict)
    (resource : OwnedResource) : Keyed (dict.assign resource.path resource) := by
  intro path other found
  rw [OrderedDict.lookup_assign] at found
  by_cases same : path = resource.path
  · rw [if_pos same] at found
    cases found
    exact same.symm
  · rw [if_neg same] at found
    exact keyed path other found

theorem Keyed.empty : Keyed .empty := by
  intro path resource found
  cases found

theorem resourcesByPath_keyed (resources : List OwnedResource) :
    Keyed (resourcesByPath resources) := by
  have step (dict : OrderedDict ResourcePath OwnedResource) (keyed : Keyed dict) :
      Keyed (resources.foldl (fun dict resource => dict.assign resource.path resource) dict) := by
    induction resources generalizing dict with
    | nil => exact keyed
    | cons resource rest ih => exact ih _ (keyed.assign resource)
  exact step _ Keyed.empty

theorem Keyed.mem (keyed : Keyed dict) {filesDir : Text} :
    resource ∈ (manifestOf filesDir dict).resources ↔
      dict.lookup resource.path = some resource := by
  constructor
  · intro member
    obtain ⟨⟨path, _⟩, held, rfl⟩ := List.mem_map.mp member
    have found := OrderedDict.lookup_eq_some.mpr held
    rw [keyed path _ found]
    exact found
  · intro found
    exact List.mem_map.mpr ⟨_, OrderedDict.lookup_eq_some.mp found, rfl⟩

variable {dict next : OrderedDict ResourcePath OwnedResource} {changed : List ResourcePath}

theorem renewed_lookup (made : renewed parts files dict changed = some next) (path : ResourcePath) :
    if path ∈ changed then
      ∃ receipt, resourceReceipt parts files path (kindOf path) = some receipt ∧
        next.lookup path = some receipt
    else next.lookup path = dict.lookup path := by
  induction changed generalizing dict with
  | nil =>
    cases made
    simp
  | cons first rest ih =>
    unfold renewed at made
    cases found : resourceReceipt parts files first (kindOf first) with
    | none =>
      rw [found] at made
      cases made
    | some receipt =>
      rw [found] at made
      have late := ih made
      by_cases later : path ∈ rest
      · rw [if_pos later] at late
        rw [if_pos (List.mem_cons_of_mem first later)]
        exact late
      rw [if_neg later, OrderedDict.lookup_assign] at late
      by_cases same : path = first
      · subst same
        rw [if_pos rfl] at late
        rw [if_pos List.mem_cons_self]
        exact ⟨receipt, found, late⟩
      · rw [if_neg same] at late
        rw [if_neg (by simp [same, later])]
        exact late

theorem renewed_keyed (made : renewed parts files dict changed = some next)
    (keyed : Keyed dict) : Keyed next := by
  intro path resource found
  have known := renewed_lookup made path
  by_cases member : path ∈ changed
  · rw [if_pos member] at known
    obtain ⟨receipt, fresh, held⟩ := known
    rw [held] at found
    cases found
    exact resourceReceipt_path fresh
  · rw [if_neg member] at known
    exact keyed path resource (known.symm.trans found)

/-- Every changed path has receipts, and they match its file. -/
def Receipted (parts : Parts) (files : HostFiles) (changed : List ResourcePath)
    (resources : List OwnedResource) : Prop :=
  ∀ path ∈ changed, (∃ resource ∈ resources, resource.path = path) ∧
    ∀ resource ∈ resources, resource.path = path → resourceUnchanged parts files resource = true

theorem Receipted.congr
    {resources : List OwnedResource} (receipted : Receipted parts files changed resources)
    (same : ∀ path : ResourcePath, after path.val = files path.val) :
    Receipted parts after changed resources := by
  intro path member
  obtain ⟨present, unchanged⟩ := receipted path member
  refine ⟨present, fun resource held named => ?_⟩
  rw [resourceUnchanged_congr (same resource.path)]
  exact unchanged resource held named

theorem renewed_receipted {filesDir : Text}
    (made : renewed parts files dict changed = some next) (keyed : Keyed dict) :
    Receipted parts files changed (manifestOf filesDir next).resources := by
  have nextKeyed := renewed_keyed made keyed
  intro path member
  have known := renewed_lookup made path
  rw [if_pos member] at known
  obtain ⟨receipt, fresh, held⟩ := known
  have named := resourceReceipt_path fresh
  constructor
  · exact ⟨receipt, nextKeyed.mem.mpr (named ▸ held), named⟩
  · intro resource present same
    have found := nextKeyed.mem.mp present
    rw [same, held] at found
    cases found
    exact resourceReceipt_unchanged fresh (kindOf_ne path)

theorem nativeReceipt_receipted {spec next : Manifest}
    (made : nativeReceipt parts files spec changed = some next) :
    next.filesDir = spec.filesDir ∧ Receipted parts files changed next.resources := by
  obtain ⟨dict, found, rfl⟩ := Option.map_eq_some_iff.mp made
  exact ⟨rfl, renewed_receipted found (resourcesByPath_keyed spec.resources)⟩

theorem composeReceipt_receipted {spec next : Manifest}
    (made : composeReceipt parts files spec changed = some next)
    (covered : ∀ path ∈ changed, path ∈ [profilePath, runtimePath, composePath, authPath]) :
    next.filesDir = spec.filesDir ∧ Receipted parts files changed next.resources := by
  unfold composeReceipt at made
  by_cases empty : spec.resources = []
  · rw [if_pos empty] at made
    cases first : resourceReceipt parts files bundlePath .directory with
    | none =>
      rw [first] at made
      cases made
    | some receipt =>
      rw [first] at made
      obtain ⟨dict, found, rfl⟩ := Option.map_eq_some_iff.mp made
      have named := resourceReceipt_path first
      have keyed : Keyed (OrderedDict.empty.assign bundlePath receipt) := by
        rw [← named]
        exact Keyed.empty.assign receipt
      exact ⟨rfl, fun path member => renewed_receipted found keyed path (covered path member)⟩
  · rw [if_neg empty] at made
    exact nativeReceipt_receipted made

/-! ### Receipts after a restoration -/

def Body.resources : Body → List OwnedResource
  | .file (.manifest _ spec) => spec.resources
  | _ => []

def heldResources (files : HostFiles) : List OwnedResource :=
  ((files .manifest).map HostEntry.body).elim [] Body.resources

theorem heldResources_of_body {entry : HostEntry} {bytes : Bytes} {spec : Manifest}
    (found : files .manifest = some entry) (body : entry.body = .file (.manifest bytes spec)) :
    heldResources files = spec.resources := by
  unfold heldResources
  rw [found, Option.map_some, body]
  rfl

theorem loadManifest_of_body {entry : HostEntry} {bytes : Bytes} {spec loaded : Manifest}
    (found : files .manifest = some entry) (body : entry.body = .file (.manifest bytes spec))
    (loads : loadManifest files = some loaded) : loaded = spec := by
  unfold loadManifest at loads
  split at loads
  · case _ other =>
      rw [found] at other
      cases other
      cases body
      split at loads
      · cases loads
        rfl
      · cases loads
  · cases loads

/-- What a restoration keeps of an entry: all but the inode, its time and its mode. -/
structure SameButMode (before after : HostEntry) : Prop where
  body : after.body = before.body
  uid : after.uid = before.uid
  gid : after.gid = before.gid
  links : before.links = 1 → after.links = 1

/-- A receipt by digest goes on matching a file that is the same but for its inode, unless
it records a mode that is not there any more. -/
theorem resourceUnchanged_of_same
    {prior entry : HostEntry} (unchanged : resourceUnchanged parts files resource = true)
    (was : files resource.path.val = some prior) (is : after resource.path.val = some entry)
    (same : SameButMode prior entry) (byDigest : resource.kind = .file)
    (mode : ∀ recorded ∈ resource.mode, recorded = prior.mode → entry.mode = recorded) :
    resourceUnchanged parts after resource = true := by
  unfold resourceUnchanged at unchanged ⊢
  rw [was] at unchanged
  rw [is]
  simp only [byDigest] at unchanged ⊢
  cases isBody : prior.body with
  | directory | link =>
    rw [isBody] at unchanged
    simp at unchanged
  | file content =>
    rw [isBody] at unchanged
    rw [same.body, isBody, same.uid, same.gid]
    simp only [Bool.and_eq_true, Bool.or_eq_true, decide_eq_true_eq] at unchanged ⊢
    obtain ⟨⟨⟨owner, group⟩, recorded⟩, single, digest⟩ := unchanged
    refine ⟨⟨⟨owner, group⟩, ?_⟩, same.links single, digest⟩
    rcases recorded with unrecorded | equal
    · exact .inl unrecorded
    · exact .inr (by rw [mode _ equal rfl]; exact equal)

end XFerry.Management.DeploymentChange
