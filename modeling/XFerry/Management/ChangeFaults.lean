/-
How a change of a configuration reports a restoration that has lost a receipt: the check of
the new configuration fails, or the making of the receipts does, and everything else works.
-/

import XFerry.Management.ChangeReports

namespace XFerry.Management.DeploymentChange

open CrashProgram Program Function List
open Python (Bytes Text)

variable {parts : Parts} {before : HostFiles} {stamp : Stamp}

def failingLate (stamp : Stamp) : Answers :=
  { refuses := none, running := false, stage := none, write := fun _ => .done stamp
    check := .failed, receipt := some .os, reload := .passed, restart := .passed
    health := .passed, activate := none, undo := fun _ => .done stamp, callbacks := none
    receiptBack := none, manifestBack := .done stamp, reloadBack := .passed
    restartBack := .passed, healthBack := .passed, activateBack := none, observes := none }

variable {resource : OwnedResource} {entry : HostEntry}

theorem resourceUnchanged_mode (unchanged : resourceUnchanged parts before resource = true)
    (found : before resource.path.val = some entry) :
    ∀ mode ∈ resource.mode, mode = entry.mode := by
  unfold resourceUnchanged at unchanged
  rw [found] at unchanged
  simp only [Bool.and_eq_true, Bool.or_eq_true, decide_eq_true_eq] at unchanged
  intro mode recorded
  rcases unchanged.1.2 with unrecorded | equal
  · rw [unrecorded] at recorded
    cases recorded
  · rw [equal] at recorded
    exact (Option.some.inj recorded).symm

theorem resourceUnchanged_modified (unchanged : resourceUnchanged parts before resource = true)
    (found : before resource.path.val = some entry) (secret : resource.kind = .secret) :
    resource.modified = some entry.modified := by
  unfold resourceUnchanged at unchanged
  rw [found] at unchanged
  simp only [secret] at unchanged
  cases isBody : entry.body with
  | directory | link => simp [isBody] at unchanged
  | file content =>
    simp only [isBody, Bool.and_eq_true, decide_eq_true_eq] at unchanged
    exact unchanged.2.2.symm

variable {path : DeploymentPath}

theorem fileContent_present (there : isFile before path = true) :
    ∃ entry, followed before (linkLimit + 1) path = some entry := by
  unfold isFile fileContent at there
  cases found : followed before (linkLimit + 1) path with
  | none => simp [found] at there
  | some entry => exact ⟨entry, rfl⟩

theorem unchanged_file (there : isFile before resource.path.val = true)
    (unchanged : resourceUnchanged parts before resource = true) :
    ∃ prior content, before resource.path.val = some prior ∧ prior.body = .file content := by
  unfold resourceUnchanged at unchanged
  cases found : before resource.path.val with
  | none =>
    rw [found] at unchanged
    cases unchanged
  | some prior =>
    rw [found] at unchanged
    refine ⟨prior, ?_⟩
    cases prior with
    | mk body mode uid gid links identity modified =>
      cases body with
      | file content => exact ⟨content, rfl, rfl⟩
      | directory => simp [isFile, fileContent, followed, found] at there
      | link target => cases kind : resource.kind <;> simp [kind] at unchanged

theorem followed_update {path other : DeploymentPath} {content : Content}
    (body : entry.body = .file content) {links : Nat}
    (there : ∃ found, followed before links other = some found) :
    ∃ found, followed (update before path (some entry)) links other = some found := by
  induction links generalizing other with
  | zero =>
    obtain ⟨found, led⟩ := there
    cases led
  | succ links ih =>
    unfold followed at there ⊢
    by_cases same : other = path
    · subst same
      rw [update_self]
      simp only [body]
      exact ⟨entry, rfl⟩
    · rw [update_of_ne same]
      cases found : before other with
      | none => simp [found] at there
      | some first =>
        simp only [found] at there ⊢
        cases isBody : first.body with
        | file | directory => exact ⟨first, rfl⟩
        | link target =>
          simp only [isBody] at there
          exact ih there

structure Spoiled (before : HostFiles) (written : List DeploymentPath) (site : Site) : Prop where
  recorded : site.recorded = written.map fun path => (path, before path)
  others : ∀ path, path ∉ written → site.files path = before path
  profile : ∃ entry, followed site.files (linkLimit + 1) .profile = some entry
  runtime : ∃ entry, followed site.files (linkLimit + 1) .runtime = some entry

variable {written : List DeploymentPath} {site : Site}

theorem Spoiled.write (spoiled : Spoiled before written site) (fresh : path ∉ written)
    (content : Content) (mode uid gid : Nat) :
    ∃ last, (transactionWrite parts (failingLate stamp) path content mode uid gid).final site =
      (.ok (), last) ∧ Spoiled before (written ++ [path]) last := by
  have unknown : ¬ (site.recorded.any fun item => item.1 = path) = true := by
    rw [spoiled.recorded, any_map, any_eq_true]
    rintro ⟨other, member, same⟩
    exact fresh (of_decide_eq_true same ▸ member)
  have remembered : (remember path).final site =
      (.ok (), { site with recorded := site.recorded ++ [(path, site.files path)] }) := by
    unfold remember
    rw [final_durable, if_neg unknown]
  refine ⟨_, final_bind_of_ok remembered, ?_, fun other outside => ?_, ?_, ?_⟩
  · show site.recorded ++ [(path, site.files path)] = _
    rw [spoiled.recorded, spoiled.others path fresh, map_append, map_singleton]
  · simp only [mem_append, mem_singleton, not_or] at outside
    show update site.files path _ other = before other
    rw [update_of_ne outside.2]
    exact spoiled.others other outside.1
  · exact followed_update rfl spoiled.profile
  · exact followed_update rfl spoiled.runtime

theorem Spoiled.rewrite (spoiled : Spoiled before written site) (fresh : path ∉ written)
    (there : ∃ entry, followed site.files (linkLimit + 1) path = some entry) (bytes : Bytes) :
    ∃ last, (rewrite parts (failingLate stamp) path bytes).final site = (.ok (), last) ∧
      Spoiled before (written ++ [path]) last := by
  obtain ⟨metadata, found⟩ := there
  have stated : (statOf path).final site = (.ok metadata, site) := by
    unfold statOf
    rw [final_look]
    simp only [found]
    rfl
  obtain ⟨last, ended, kept⟩ := spoiled.write fresh (.text bytes) metadata.mode metadata.uid
    metadata.gid
  exact ⟨last, (final_bind_of_ok stated).trans ended, kept⟩

def spoiledPaths (moves : Bool) : List DeploymentPath :=
  (if moves then [.unit] else []) ++ [.profile] ++ [.runtime]

variable (parts stamp) in
theorem nativeApply_spoiled (moves : Bool) (next : Manifest) (candidate runtime : Text)
    (profile : isFile before .profile = true) (config : isFile before .runtime = true) :
    ∃ middle, (nativeApply parts (failingLate stamp) moves next candidate runtime).final
        { files := before, recorded := [] } = (.error .value, middle) ∧
      Spoiled before (spoiledPaths moves) middle := by
  have start : Spoiled before [] { files := before, recorded := [] } :=
    ⟨rfl, fun _ _ => rfl, fileContent_present profile, fileContent_present config⟩
  have staged : ∃ first, (stageFolder parts (failingLate stamp) moves next.filesDir).final
        { files := before, recorded := [] } = (.ok (), first) ∧
      Spoiled before (if moves then [.unit] else []) first := by
    cases moves with
    | false => exact ⟨_, rfl, start⟩
    | true => exact start.write not_mem_nil _ _ _ _
  obtain ⟨first, ended, spoiled⟩ := staged
  obtain ⟨second, wroteProfile, spoiled⟩ := spoiled.rewrite (by cases moves <;> decide)
    spoiled.profile (encoded candidate)
  obtain ⟨third, wroteRuntime, spoiled⟩ := spoiled.rewrite (by cases moves <;> decide)
    spoiled.runtime (encoded runtime)
  refine ⟨third, ?_, spoiled⟩
  unfold nativeApply
  rw [final_bind_of_ok ended, final_bind_of_ok wroteProfile, final_bind_of_ok wroteRuntime]
  rfl

variable (parts stamp) in
theorem restoreAll_done {items : List (DeploymentPath × Option HostEntry)} (site : Site)
    (known : ∀ item ∈ items, item.2 = before item.1) :
    ∃ last, (forEach (fun item => replaceFile ((failingLate stamp).undo item.1) item.1
        fun stamp => item.2.map (restoredEntry parts stamp)) items).final site = (.ok (), last) ∧
      ∀ path, last.files path =
        if path ∈ items.map Prod.fst then (before path).map (restoredEntry parts stamp)
        else site.files path := by
  induction items generalizing site with
  | nil => exact ⟨site, rfl, fun _ => rfl⟩
  | cons item rest ih =>
    have first : (replaceFile ((failingLate stamp).undo item.1) item.1
        fun stamp => item.2.map (restoredEntry parts stamp)).final site =
          (.ok (), site.put item.1 (item.2.map (restoredEntry parts stamp))) := rfl
    obtain ⟨last, ended, restored⟩ := ih
      (site.put item.1 (item.2.map (restoredEntry parts stamp)))
      fun other member => known other (mem_cons_of_mem _ member)
    refine ⟨last, (final_bind_of_ok first).trans ended, fun path => ?_⟩
    rw [restored path, map_cons]
    by_cases later : path ∈ rest.map Prod.fst
    · rw [if_pos later, if_pos (mem_cons_of_mem _ later)]
    rw [if_neg later]
    by_cases same : path = item.1
    · rw [same, if_pos (by simp), Site.put_files, update_self, known item mem_cons_self]
    · rw [if_neg (by simpa [same] using later), Site.put_files, update_of_ne same]

theorem nativeRecover_spoiled (spoiled : Spoiled before written site) :
    ∃ last, (nativeRecover parts (failingLate stamp)).final site = (.ok .restored, last) ∧
      ∀ path, last.files path =
        if path ∈ written then (before path).map (restoredEntry parts stamp) else before path := by
  have known : ∀ item ∈ site.recorded.reverse, item.2 = before item.1 := by
    intro item member
    rw [mem_reverse, spoiled.recorded] at member
    obtain ⟨path, _, rfl⟩ := mem_map.mp member
    rfl
  obtain ⟨last, ended, restored⟩ := restoreAll_done parts stamp site known
  have undone : (transactionRollback parts (failingLate stamp)).final site = (.ok (), last) := by
    unfold transactionRollback
    exact final_bind_of_ok ended
  have returned : (nativeRestore parts (failingLate stamp)).final site = (.ok true, last) := by
    unfold nativeRestore
    rw [final_bind_of_ok undone]
    rfl
  refine ⟨last, ?_, fun path => ?_⟩
  · unfold nativeRecover
    rw [final_bind_of_ok (final_attempt _ site), returned]
    rfl
  · have keys : path ∈ site.recorded.reverse.map Prod.fst ↔ path ∈ written := by
      simp [spoiled.recorded]
    rw [restored path]
    by_cases member : path ∈ written
    · rw [if_pos (keys.mpr member), if_pos member]
    · rw [if_neg (fun there => member (keys.mp there)), if_neg member]
      exact spoiled.others path member

variable {candidate runtime : Text}

variable (stamp) in
theorem nativeConfigure_spoiled {spec : Manifest}
    (accepts : nativeAccepts parts candidate before = some (spec, runtime))
    (recorded : List (DeploymentPath × Option HostEntry)) :
    ∃ last, (nativeConfigure parts (failingLate stamp) candidate).final
        { files := before, recorded := recorded } = (.ok .restored, last) ∧
      ∀ path, last.files path =
        if path ∈ spoiledPaths (parts.nextFilesDir candidate spec.filesDir ≠ spec.filesDir) then
          (before path).map (restoredEntry parts stamp)
        else before path := by
  obtain ⟨_, _, there⟩ := nativeAccepts_some accepts
  obtain ⟨middle, failed, spoiled⟩ := nativeApply_spoiled parts stamp
    (parts.nextFilesDir candidate spec.filesDir ≠ spec.filesDir)
    { spec with filesDir := parts.nextFilesDir candidate spec.filesDir } candidate runtime
    (there .profile (by decide)) (there .runtime (by decide))
  obtain ⟨last, restored, files⟩ := nativeRecover_spoiled spoiled
  refine ⟨last, ?_, files⟩
  have calm : (raiseIf (failingLate stamp).refuses).final
      { files := before, recorded := recorded } =
        (.ok (), { files := before, recorded := recorded }) := rfl
  have accepting : (orRaise (nativeAccepts parts candidate before)).final
      { files := before, recorded := recorded } =
        (.ok (spec, runtime), { files := before, recorded := recorded }) := by
    rw [accepts]
    rfl
  have began : beginTransaction.final { files := before, recorded := recorded } =
      (.ok (), { files := before, recorded := [] }) := rfl
  unfold nativeConfigure
  rw [final_bind_of_ok calm, final_look, final_bind_of_ok accepting]
  rw [final_bind_of_ok began, final_bind_of_ok (final_attempt _ _), failed]
  exact restored

def Replaceable (files : HostFiles) (path : DeploymentPath) : Prop :=
  ∃ entry content, files path = some entry ∧ entry.body = .file content ∧ entry.links = 1

theorem replaceable_of_checks (plain : isPlainFile before path = true)
    (single : hasOneLink before path = true) : Replaceable before path := by
  obtain ⟨entry, found⟩ := isPlainFile_present plain
  refine ⟨entry, _, found, snapshotOf_body found plain, ?_⟩
  simpa [hasOneLink, found] using single

/-- The bundle is replaceable, and these paths have the modes of a new configuration. -/
structure Remade (stamp : Stamp) (written : List DeploymentPath) (files : HostFiles) : Prop where
  replaceable : ∀ path ∈ bundlePaths, Replaceable files path
  written : ∀ path ∈ written, ∃ entry, files path = some entry ∧
    entry.mode = bundleMode path ∧ entry.modified = stamp.modified

variable (parts) in
theorem Remade.write (remade : Remade stamp written site.files)
    (inBundle : path ∈ bundlePaths) (content : Content) (mode : Option Nat) :
    ∃ prior, site.files path = some prior ∧
      (atomicWrite parts (.done stamp) path content mode).final site =
        (.ok (), site.put path (some (overwriting content mode prior stamp))) ∧
      ∀ other ∈ bundlePaths,
        Replaceable (site.put path (some (overwriting content mode prior stamp))).files other := by
  obtain ⟨prior, old, found, body, single⟩ := remade.replaceable path inBundle
  refine ⟨prior, found, ?_, fun other member => ?_⟩
  · unfold atomicWrite
    rw [final_look]
    simp only [found, body, if_pos single]
    rfl
  · by_cases same : other = path
    · subst same
      exact ⟨_, _, update_self .., rfl, rfl⟩
    · obtain ⟨entry, held, there, body, single⟩ := remade.replaceable other member
      exact ⟨entry, held, (update_of_ne same ..).trans there, body, single⟩

variable (parts) in
theorem Remade.configure
    (remade : Remade stamp written site.files) (inBundle : path ∈ bundlePaths) (content : Content) :
    ∃ last, (atomicWrite parts (.done stamp) path content (some (bundleMode path))).final site =
        (.ok (), last) ∧ Remade stamp (written ++ [path]) last.files ∧
      ∀ other, other ≠ path → last.files other = site.files other := by
  obtain ⟨prior, _, ended, replaceable⟩ := remade.write parts inBundle content
    (some (bundleMode path))
  have elsewhere (other : DeploymentPath) (different : other ≠ path) :
      (site.put path (some (overwriting content (some (bundleMode path)) prior stamp))).files
        other = site.files other := update_of_ne different ..
  refine ⟨_, ended, ⟨replaceable, fun other member => ?_⟩, elsewhere⟩
  by_cases same : other = path
  · subst same
    exact ⟨_, update_self .., rfl, rfl⟩
  · rw [elsewhere other same]
    exact remade.written other (by simpa [same] using member)

variable (parts) in
theorem Remade.restore
    (remade : Remade stamp written site.files) (inBundle : path ∈ bundlePaths) (content : Content) :
    ∃ last, (atomicWrite parts (.done stamp) path content none).final site = (.ok (), last) ∧
      Remade stamp written last.files ∧
      (∀ other, other ≠ path → last.files other = site.files other) ∧
      (last.files path).map HostEntry.body = some (.file content) := by
  obtain ⟨prior, found, ended, replaceable⟩ := remade.write parts inBundle content none
  have elsewhere (other : DeploymentPath) (different : other ≠ path) :
      (site.put path (some (overwriting content none prior stamp))).files other =
        site.files other := update_of_ne different ..
  have here : (site.put path (some (overwriting content none prior stamp))).files path =
      some (overwriting content none prior stamp) := update_self ..
  refine ⟨_, ended, ⟨replaceable, fun other member => ?_⟩, elsewhere, by rw [here]; rfl⟩
  by_cases same : other = path
  · subst same
    obtain ⟨entry, held, mode, _⟩ := remade.written other member
    rw [found] at held
    cases held
    refine ⟨_, here, ?_, rfl⟩
    show prior.mode % 0o1000 = bundleMode other
    rw [mode, bundleMode_small]
  · rw [elsewhere other same]
    exact remade.written other member

def remadePaths : List DeploymentPath := [] ++ [.profile] ++ [.runtime] ++ [.compose]

variable (parts stamp) in
theorem composeApply_spoiled (candidate runtime : Text) (spec : Manifest)
    (replaceable : ∀ path ∈ bundlePaths, Replaceable site.files path) :
    ∃ middle, (composeApply parts (failingLate stamp) spec candidate runtime).final site =
        (.error .os, middle) ∧ Remade stamp remadePaths middle.files ∧
      middle.files .manifest = site.files .manifest := by
  have start : Remade stamp [] site.files :=
    ⟨replaceable, fun _ member => absurd member not_mem_nil⟩
  have profileIn : DeploymentPath.profile ∈ bundlePaths := by decide
  have runtimeIn : DeploymentPath.runtime ∈ bundlePaths := by decide
  have composeIn : DeploymentPath.compose ∈ bundlePaths := by decide
  obtain ⟨first, wroteProfile, remade, keptFirst⟩ := start.configure parts profileIn
    (.text (encoded candidate))
  obtain ⟨second, wroteRuntime, remade, keptSecond⟩ := remade.configure parts runtimeIn
    (.text (encoded runtime))
  obtain ⟨third, wroteCompose, remade, keptThird⟩ := remade.configure parts composeIn
    (.text (parts.renderCompose candidate))
  refine ⟨third, ?_, remade, ?_⟩
  · refine (final_bind_of_ok wroteProfile).trans ?_
    refine (final_bind_of_ok wroteRuntime).trans ?_
    exact (final_bind_of_ok wroteCompose).trans rfl
  · rw [keptThird _ (by decide), keptSecond _ (by decide), keptFirst _ (by decide)]

variable (parts) in
theorem restoreBundle_spoiled (files : HostFiles) (remade : Remade stamp remadePaths site.files) :
    ∃ last, (restoreBundle parts (failingLate stamp) files).final site = (.ok (), last) ∧
      Remade stamp remadePaths last.files ∧
      (last.files .manifest).map HostEntry.body = some (.file (snapshotOf files .manifest)) := by
  have profileIn : DeploymentPath.profile ∈ bundlePaths := by decide
  have runtimeIn : DeploymentPath.runtime ∈ bundlePaths := by decide
  have composeIn : DeploymentPath.compose ∈ bundlePaths := by decide
  have manifestIn : DeploymentPath.manifest ∈ bundlePaths := by decide
  obtain ⟨first, backProfile, remade, _⟩ := remade.restore parts profileIn
    (snapshotOf files .profile)
  obtain ⟨second, backRuntime, remade, _⟩ := remade.restore parts runtimeIn
    (snapshotOf files .runtime)
  obtain ⟨third, backCompose, remade, _⟩ := remade.restore parts composeIn
    (snapshotOf files .compose)
  obtain ⟨fourth, backManifest, remade, _, body⟩ := remade.restore parts manifestIn
    (snapshotOf files .manifest)
  refine ⟨fourth, ?_, remade, body⟩
  refine (final_bind_of_ok backProfile).trans ?_
  refine (final_bind_of_ok backRuntime).trans ?_
  refine (final_bind_of_ok backCompose).trans ?_
  exact (final_bind_of_ok backManifest).trans rfl

variable (stamp) in
theorem composeConfigure_spoiled {spec : Manifest}
    (accepts : composeAccepts parts candidate site.files = some (spec, runtime))
    (single : bundlePaths.all (hasOneLink site.files) = true) :
    ∃ last, (composeConfigure parts (failingLate stamp) candidate).final site =
        (.ok .restored, last) ∧ Remade stamp remadePaths last.files ∧
      heldResources last.files = heldResources site.files := by
  obtain ⟨_, _, plain⟩ := composeAccepts_some accepts
  have inBundle (path : DeploymentPath) (member : path ∈ bundlePaths) :
      isPlainFile site.files path = true := plain path (mem_cons_of_mem _ member)
  obtain ⟨middle, failed, remade, _⟩ := composeApply_spoiled parts stamp candidate runtime spec
    fun path member =>
      replaceable_of_checks (inBundle path member) (all_eq_true.mp single path member)
  obtain ⟨last, restored, remade, body⟩ := restoreBundle_spoiled parts site.files remade
  refine ⟨last, ?_, remade, ?_⟩
  · have calm : (raiseIf (failingLate stamp).refuses).final site = (.ok (), site) := rfl
    have accepting : (orRaise (composeAccepts parts candidate site.files)).final site =
        (.ok (spec, runtime), site) := by
      rw [accepts]
      rfl
    unfold composeConfigure
    rw [final_bind_of_ok calm, final_look, final_bind_of_ok accepting,
      final_bind_of_ok (final_attempt _ _), failed]
    unfold composeRecover
    rw [final_bind_of_ok (final_attempt _ _), restored]
    rfl
  · obtain ⟨prior, found⟩ := isPlainFile_present (inBundle .manifest (by decide))
    unfold heldResources
    rw [body, found, Option.map_some, snapshotOf_body found (inBundle .manifest (by decide))]

def laterThan (resource : OwnedResource) : Stamp :=
  { identity := { device := 0, inode := 0 }, modified := resource.modified.getD 0 + 1 }

theorem not_secret_of_later {after : HostFiles}
    (unchanged : resourceUnchanged parts after resource = true)
    (found : after resource.path.val = some entry)
    (later : entry.modified = (laterThan resource).modified) : resource.kind ≠ .secret := by
  intro secret
  have recorded := resourceUnchanged_modified unchanged found secret
  rw [later, laterThan] at recorded
  cases isModified : resource.modified with
  | none =>
    rw [isModified] at recorded
    cases recorded
  | some time =>
    rw [isModified, Option.getD_some] at recorded
    have impossible : time = time + 1 := Option.some.inj recorded
    omega

theorem RestoredTo.unchanged {after : HostFiles} (restored : RestoredTo parts before after)
    (same : heldResources after = heldResources before) (held : resource ∈ heldResources before)
    (unchanged : resourceUnchanged parts before resource = true) :
    resourceUnchanged parts after resource = true := by
  rcases restored.receipts resource held unchanged with again | ⟨gone, _⟩
  · exact again
  · rw [same] at gone
    exact absurd held gone

theorem nativeChanged_spoiled {moves : Bool} {path : ResourcePath}
    (changed : path ∈ nativeChanged moves) :
    path.val ∈ spoiledPaths moves ∧
      path.val ∈ ([.profile, .runtime, .auth, .unit] : List DeploymentPath) := by
  cases moves with
  | false =>
    rcases mem_pair.mp changed with rfl | rfl <;> decide
  | true =>
    rcases mem_cons.mp changed with rfl | changed
    · decide
    rcases mem_pair.mp changed with rfl | rfl <;> decide

theorem nativeRestorable_of_truthful {candidate : Text} (truthful : ∀ answers report last,
      (program parts answers (.nativeConfigure candidate)).final site = (.ok report, last) →
        Truthful parts (.nativeConfigure candidate) site.files report last.files) :
    Restorable parts (.nativeConfigure candidate) site.files := by
  intro reached resource held unchanged changed
  obtain ⟨⟨spec, runtime⟩, accepts⟩ := Option.isSome_iff_exists.mp reached
  obtain ⟨loaded, _, there⟩ := nativeAccepts_some accepts
  obtain ⟨last, ended, files⟩ := nativeConfigure_spoiled (laterThan resource) accepts site.recorded
  have restored : RestoredTo parts site.files last.files := truthful _ _ _ ended
  simp only [configuredPaths, loaded] at changed
  obtain ⟨spoiled, among⟩ := nativeChanged_spoiled changed
  have sameManifest : heldResources last.files = heldResources site.files := by
    unfold heldResources
    rw [files .manifest, if_neg]
    unfold spoiledPaths
    split <;> decide
  have again := restored.unchanged sameManifest held unchanged
  obtain ⟨prior, content, was, body⟩ := unchanged_file (there _ among) unchanged
  have is : last.files resource.path.val =
      some (newFile parts content prior.mode prior.uid prior.gid (laterThan resource)) := by
    rw [files, if_pos spoiled, was, Option.map_some, restoredEntry, body]
  refine ⟨not_secret_of_later again is rfl, fun mode recorded => ?_⟩
  have old := resourceUnchanged_mode unchanged was mode recorded
  have new := resourceUnchanged_mode again is mode recorded
  refine decide_eq_true ?_
  rw [old]
  exact new.symm.trans old

theorem composeRestorable_of_truthful {candidate : Text} (truthful : ∀ answers report last,
      (program parts answers (.composeConfigure candidate)).final site = (.ok report, last) →
        Truthful parts (.composeConfigure candidate) site.files report last.files) :
    Restorable parts (.composeConfigure candidate) site.files := by
  intro reached resource held unchanged changed
  obtain ⟨accepted, single⟩ := Bool.and_eq_true_iff.mp reached
  obtain ⟨⟨spec, runtime⟩, accepts⟩ := Option.isSome_iff_exists.mp accepted
  obtain ⟨loaded, _, _⟩ := composeAccepts_some accepts
  obtain ⟨last, ended, remade, sameManifest⟩ :=
    composeConfigure_spoiled (laterThan resource) accepts single
  have restored : RestoredTo parts site.files last.files := truthful _ _ _ ended
  simp only [configuredPaths, loaded] at changed
  have spoiled : resource.path.val ∈ remadePaths := by
    simp only [composeChanged, mem_cons, not_mem_nil, or_false] at changed
    rcases changed with same | same | same
    all_goals
      rw [same]
      decide
  obtain ⟨entry, is, mode, modified⟩ := remade.written _ spoiled
  have again := restored.unchanged sameManifest held unchanged
  refine ⟨not_secret_of_later again is modified, fun recorded member => ?_⟩
  refine decide_eq_true ?_
  rw [resourceUnchanged_mode again is recorded member, mode]

/-- The reports of a change are true whichever steps fail, if and only if no receipt of a
file that the change writes is for a secret or records a mode that does not come back. -/
theorem truthful_iff_restorable (parts : Parts) (change : Change) (site : Site) :
    (∀ answers report last, (program parts answers change).final site = (.ok report, last) →
      Truthful parts change site.files report last.files) ↔ Restorable parts change site.files := by
  constructor
  · intro truthful
    cases change with
    | nativeConfigure candidate => exact nativeRestorable_of_truthful truthful
    | nativeCredentials | composeCredentials => exact fun reached => nomatch reached
    | composeConfigure candidate => exact composeRestorable_of_truthful truthful
  · intro restorable answers report last ended
    exact reports_truthful restorable ended

def sampleParts : Parts :=
  { nextFilesDir := fun _ filesDir => filesDir, compileProfile := fun candidate _ => some candidate
    renderManagedUnit := encoded, renderCompose := encoded, dumpManifest := fun _ => []
    sha256 := id, afterChown := id, processUid := 1000, processGid := 1000 }

def sampleEntry (content : Content) (mode inode : Nat) : HostEntry :=
  { body := .file content, mode := mode, uid := 1000, gid := 1000, links := 1
    identity := { device := 1, inode := inode }, modified := 7 }

def sampleReceipt (path : ResourcePath) (content : Content) (mode inode : Nat) : OwnedResource :=
  { path := path, kind := .file, sha256 := some content.bytes, uid := some 1000, gid := some 1000
    identity := some { device := 1, inode := inode }, size := some content.bytes.length
    modified := some 7, mode := some mode }

/-- The runtime configuration of the bundle and its receipt have a mode that is not the one
which a configuration writes. -/
def sampleManifest : Manifest :=
  { filesDir := "/srv/files".toList
    resources := [sampleReceipt composePath (.text [1]) 0o600 12,
      sampleReceipt runtimePath (.text [2]) 0o640 13] }

def sampleBundle : Site :=
  { files := fun path =>
      match path with
      | .profile => some (sampleEntry (.text [3]) 0o600 11)
      | .compose => some (sampleEntry (.text [1]) 0o600 12)
      | .runtime => some (sampleEntry (.text [2]) 0o640 13)
      | .auth => some (sampleEntry (.text [4]) 0o600 14)
      | .manifest => some (sampleEntry (.manifest [] sampleManifest) 0o600 15)
      | _ => none
    recorded := [] }

/-- The server does not start under the new configuration and starts again under the old. -/
def activationFails : Answers :=
  { failingLate { identity := { device := 1, inode := 16 }, modified := 8 } with
    running := true, receipt := none, activate := some .runtime }

theorem mode_not_restored : ¬ ∀ answers report last,
    (program sampleParts answers (.composeConfigure ['x'])).final sampleBundle =
      (.ok report, last) →
    Truthful sampleParts (.composeConfigure ['x']) sampleBundle.files report last.files := by
  intro truthful
  have ended : ((program sampleParts activationFails (.composeConfigure ['x'])).final
      sampleBundle).1 = .ok .restored := by decide +kernel
  have restored := truthful activationFails .restored _ (Prod.ext ended rfl)
  have again := (show RestoredTo sampleParts _ _ from restored).receipts
    (sampleReceipt runtimePath (.text [2]) 0o640 13) (by decide +kernel) (by decide +kernel)
  rcases again with unchanged | ⟨gone, _⟩
  · exact absurd unchanged (by decide +kernel)
  · exact gone (by decide +kernel)

end XFerry.Management.DeploymentChange
