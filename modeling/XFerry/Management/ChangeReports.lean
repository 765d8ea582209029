/-
What a change of a deployment reports: a result that says the previous state was restored is
true of the files, and of the receipts under a condition on their modes and their kinds.
-/

import XFerry.Management.ChangeBundle

namespace XFerry.Management.DeploymentChange

open CrashProgram Program Function List
open Python (Bytes Text)

section Reports

variable (parts : Parts)

/-- The receipt matches its file, or another one has taken its place and does. -/
def MatchesAgain (after : HostFiles) (resource : OwnedResource) : Prop :=
  resourceUnchanged parts after resource = true ∨
    resource ∉ heldResources after ∧ ∃ other ∈ heldResources after,
      other.path = resource.path ∧ resourceUnchanged parts after other = true

structure RestoredTo (before after : HostFiles) : Prop where
  contents : ∀ path, path ≠ .manifest →
    (after path).map HostEntry.body = (before path).map HostEntry.body
  receipts : ∀ resource ∈ heldResources before,
    resourceUnchanged parts before resource = true → MatchesAgain parts after resource

def HoldsText (files : HostFiles) (path : DeploymentPath) (bytes : Bytes) : Prop :=
  ∃ entry, files path = some entry ∧ entry.body = .file (.text bytes)

structure AppliedTo (candidate : Text) (written : List ResourcePath) (after : HostFiles)
    (spec : Manifest) (runtime : Text) : Prop where
  loads : loadManifest after = some spec
  compiled : parts.compileProfile candidate spec.filesDir = some runtime
  profile : HoldsText after .profile (encoded candidate)
  runtime : HoldsText after .runtime (encoded runtime)
  receipts : Receipted parts after written spec.resources

def configuredPaths (change : Change) (before : HostFiles) : List ResourcePath :=
  match change, loadManifest before with
  | .nativeConfigure candidate, some spec =>
    nativeChanged (parts.nextFilesDir candidate spec.filesDir ≠ spec.filesDir)
  | .composeConfigure _, some _ => composeChanged
  | _, _ => []

def Truthful (change : Change) (before : HostFiles) (report : Report) (after : HostFiles) : Prop :=
  match report, change with
  | .restored, _ => RestoredTo parts before after
  | .applied, .nativeConfigure candidate | .applied, .composeConfigure candidate =>
    ∃ spec runtime,
      AppliedTo parts candidate (configuredPaths parts change before) after spec runtime
  | _, _ => True

def hasOneLink (files : HostFiles) (path : DeploymentPath) : Bool :=
  (files path).any fun entry => entry.links = 1

def reachesWrites (change : Change) (before : HostFiles) : Bool :=
  match change with
  | .nativeConfigure candidate => (nativeAccepts parts candidate before).isSome
  | .composeConfigure candidate =>
    (composeAccepts parts candidate before).isSome && bundlePaths.all (hasOneLink before)
  | .nativeCredentials _ _ | .composeCredentials _ _ => false

def modeComesBack (change : Change) (path : ResourcePath) (mode : Nat) : Bool :=
  match change with
  | .composeConfigure _ => mode = bundleMode path.val
  | _ => parts.afterChown mode = mode

/-- No receipt that matches a file which the configuration writes is for a secret, or records
a mode that does not come back. -/
def Restorable (change : Change) (before : HostFiles) : Prop :=
  reachesWrites parts change before = true →
    ∀ resource ∈ heldResources before, resourceUnchanged parts before resource = true →
      resource.path ∈ configuredPaths parts change before →
        resource.kind ≠ .secret ∧ ∀ mode ∈ resource.mode,
          modeComesBack parts change resource.path mode = true

end Reports

variable {parts : Parts} {answers : Answers} {before : HostFiles}

variable {stamp : Stamp}

theorem restoredEntry_same (prior : HostEntry) :
    SameButMode prior (restoredEntry parts stamp prior) := by
  unfold restoredEntry
  split
  · case _ content isFile => exact ⟨isFile.symm, rfl, rfl, fun _ => rfl⟩
  all_goals exact ⟨rfl, rfl, rfl, id⟩

theorem restoredEntry_mode {prior : HostEntry}
    (comesBack : parts.afterChown prior.mode = prior.mode) :
    (restoredEntry parts stamp prior).mode = prior.mode := by
  unfold restoredEntry
  split
  · exact comesBack
  · rfl
  · rfl

variable {writes : List DeploymentPath} {after : HostFiles}

theorem Back.body (back : Back parts writes before after) (path : DeploymentPath) :
    (after path).map HostEntry.body = (before path).map HostEntry.body := by
  rcases back path with kept | ⟨_, stamp, restored⟩
  · rw [kept]
  rw [restored, Option.map_map]
  congr 1
  funext entry
  exact (restoredEntry_same entry).body

variable {resource : OwnedResource}

theorem unchanged_directory {prior : HostEntry}
    (unchanged : resourceUnchanged parts before resource = true)
    (was : before resource.path.val = some prior)
    (is : after resource.path.val = some (restoredEntry parts stamp prior))
    (kind : resource.kind = .directory) : resourceUnchanged parts after resource = true := by
  have isDirectory : prior.body = .directory := by
    unfold resourceUnchanged at unchanged
    rw [was] at unchanged
    simp only [kind] at unchanged
    cases isBody : prior.body with
    | directory => rfl
    | file | link =>
      rw [isBody] at unchanged
      simp at unchanged
  have same : restoredEntry parts stamp prior = prior := by
    unfold restoredEntry
    rw [isDirectory]
  rw [resourceUnchanged_congr (is.trans (same ▸ was.symm))]
  exact unchanged

theorem Back.receipt (back : Back parts writes before after)
    (unchanged : resourceUnchanged parts before resource = true)
    (safe : resource.path.val ∈ writes →
      resource.kind ≠ .secret ∧ ∀ mode ∈ resource.mode, parts.afterChown mode = mode) :
    resourceUnchanged parts after resource = true := by
  rcases back resource.path.val with kept | ⟨written, stamp, restored⟩
  · rw [resourceUnchanged_congr kept]
    exact unchanged
  obtain ⟨notSecret, comesBack⟩ := safe written
  cases was : before resource.path.val with
  | none =>
    have same : after resource.path.val = before resource.path.val := by
      rw [restored, was, Option.map_none]
    rw [resourceUnchanged_congr same]
    exact unchanged
  | some prior =>
    have is : after resource.path.val = some (restoredEntry parts stamp prior) := by
      rw [restored, was, Option.map_some]
    cases kind : resource.kind with
    | secret => exact absurd kind notSecret
    | directory => exact unchanged_directory unchanged was is kind
    | file =>
      refine resourceUnchanged_of_same unchanged was is (restoredEntry_same prior) kind ?_
      intro recorded member same
      subst same
      exact restoredEntry_mode (comesBack _ member)

variable {site last : Site}

theorem runningBack_returned {answers : Answers} {result : Bool}
    (returned : (runningBack answers).final site = (.ok result, last)) : last = site := by
  unfold runningBack at returned
  cases running : answers.running with
  | false =>
    rw [running] at returned
    cases returned
    rfl
  | true =>
    rw [running] at returned
    obtain ⟨restarted, middle, called, checking⟩ := bind_returned returned
    cases restarted with
    | false =>
      cases checking
      exact call_returned called
    | true => rw [call_returned checking, call_returned called]

theorem nativeRestore_returned {result : Bool} (tracked : Tracked writes before site)
    (returned : (nativeRestore parts answers).final site = (.ok result, last)) :
    Back parts writes before last.files := by
  obtain ⟨_, first, undone, reloading⟩ := bind_returned returned
  obtain ⟨_, second, reloaded, restarting⟩ := bind_returned reloading
  obtain ⟨_, third, restarted, ending⟩ := bind_returned restarting
  have same : last = third := by
    cases ending
    rfl
  rw [same, runningBack_returned restarted, call_returned reloaded]
  exact transactionRollback_contract.of_returned tracked undone

variable {report : Report}

theorem observe_returned (returned : (observe answers).final site = (.ok report, last)) :
    report = .applied ∧ last = site ∧ ∃ spec, loadManifest site.files = some spec := by
  unfold observe at returned
  rw [final_look] at returned
  obtain ⟨spec, first, loading, observing⟩ := bind_returned returned
  obtain ⟨loaded, rfl⟩ := orRaise_returned loading
  obtain ⟨_, second, calm, ending⟩ := bind_returned observing
  obtain rfl := raiseIf_returned calm
  cases ending
  exact ⟨rfl, rfl, spec, loaded⟩

theorem nativeRecover_restored (tracked : Tracked writes before site)
    (returned : (nativeRecover parts answers).final site = (.ok .restored, last)) :
    Back parts writes before last.files := by
  obtain ⟨restored, middle, restoring, ending⟩ := bind_returned returned
  cases restored with
  | error error =>
    cases error with
    | os | value | runtime | other => cases ending
  | ok result =>
    have same : last = middle := (congrArg Prod.snd ending).symm
    rw [same]
    exact nativeRestore_returned tracked (attempt_ended restoring)

variable {candidate runtime : Text} {spec : Manifest}

theorem nativeAccepts_some (accepts : nativeAccepts parts candidate before = some (spec, runtime)) :
    loadManifest before = some spec ∧
      parts.compileProfile candidate (parts.nextFilesDir candidate spec.filesDir) = some runtime ∧
      ∀ path ∈ ([.profile, .runtime, .auth, .unit] : List DeploymentPath),
        isFile before path = true := by
  unfold nativeAccepts at accepts
  cases loaded : loadManifest before with
  | none =>
    rw [loaded] at accepts
    cases accepts
  | some held =>
    rw [loaded] at accepts
    dsimp only at accepts
    split at accepts
    · case _ checks =>
        obtain ⟨text, compiled, same⟩ := Option.map_eq_some_iff.mp accepts
        cases same
        exact ⟨rfl, compiled, all_eq_true.mp checks⟩
    · cases accepts

variable {candidate : Text}

theorem nativeConfigure_cases
    (ended : (nativeConfigure parts answers candidate).final site = (.ok report, last)) :
    ∃ spec runtime outcome middle, nativeAccepts parts candidate site.files = some (spec, runtime) ∧
      (nativeApply parts answers (parts.nextFilesDir candidate spec.filesDir ≠ spec.filesDir)
        { spec with filesDir := parts.nextFilesDir candidate spec.filesDir } candidate
        runtime).final { site with recorded := [] } = (outcome, middle) ∧
      match outcome with
      | .ok () => (observe answers).final middle = (.ok report, last)
      | .error _ => (nativeRecover parts answers).final middle = (.ok report, last) := by
  obtain ⟨_, first, calm, looking⟩ := bind_returned ended
  rw [raiseIf_returned calm, final_look] at looking
  obtain ⟨⟨spec, runtime⟩, second, accepting, beginning⟩ := bind_returned looking
  obtain ⟨accepts, rfl⟩ := orRaise_returned accepting
  obtain ⟨_, third, began, attempting⟩ := bind_returned beginning
  obtain ⟨outcome, middle, attempted, ending⟩ := bind_returned attempting
  cases began
  refine ⟨spec, runtime, outcome, middle, accepts, ?_, ?_⟩
  · exact attempt_ended attempted
  · cases outcome with
    | ok | error => exact ending

theorem nativeRecover_report
    (returned : (nativeRecover parts answers).final site = (.ok report, last)) :
    report ≠ .applied := by
  obtain ⟨restored, middle, _, ending⟩ := bind_returned returned
  cases restored with
  | error error =>
    cases error with
    | os | value =>
      cases ending
      nofun
    | runtime | other => cases ending
  | ok result =>
    cases result with
    | true | false =>
      cases ending
      nofun

theorem Back.restoredTo {moves : Bool} (back : Back parts (nativeWrites moves) before after)
    (safe : ∀ resource ∈ heldResources before, resourceUnchanged parts before resource = true →
      resource.path ∈ nativeChanged moves →
        resource.kind ≠ .secret ∧ ∀ mode ∈ resource.mode, parts.afterChown mode = mode) :
    RestoredTo parts before after where
  contents path _ := back.body path
  receipts resource held unchanged := by
    refine .inl (back.receipt unchanged fun written => ?_)
    rcases mem_cons.mp written with isManifest | changed
    · exact absurd isManifest resource.path.property
    obtain ⟨path, member, same⟩ := mem_map.mp changed
    have named : path = resource.path := Subtype.ext same
    exact safe resource held unchanged (named ▸ member)

theorem nativeApply_applied {moves : Bool} {next loaded : Manifest}
    (compiled : parts.compileProfile candidate next.filesDir = some runtime)
    (returned : (nativeApply parts answers moves next candidate runtime).final site =
      (.ok (), last)) (loads : loadManifest last.files = some loaded) :
    AppliedTo parts candidate (nativeChanged moves) last.files loaded runtime := by
  obtain ⟨middle, written, entry, made, files, body, ⟨profile, isProfile, profileBody⟩, config,
    isConfig, configBody⟩ := nativeApply_returned returned
  have found : last.files .manifest = some entry := by rw [files, update_self]
  have elsewhere (path : DeploymentPath) (other : path ≠ .manifest) :
      last.files path = middle path := by rw [files, update_of_ne other]
  obtain rfl := loadManifest_of_body found body loads
  obtain ⟨sameDir, receipted⟩ := nativeReceipt_receipted made
  exact
    { loads := loads
      compiled := by rw [sameDir]; exact compiled
      profile := ⟨profile, (elsewhere _ (by decide)).trans isProfile, profileBody⟩
      runtime := ⟨config, (elsewhere _ (by decide)).trans isConfig, configBody⟩
      receipts := receipted.congr fun path => elsewhere path.val path.property }

theorem nativeConfigure_truthful
    (restorable : Restorable parts (.nativeConfigure candidate) site.files)
    (ended : (nativeConfigure parts answers candidate).final site = (.ok report, last)) :
    Truthful parts (.nativeConfigure candidate) site.files report last.files := by
  obtain ⟨spec, runtime, outcome, middle, accepts, applied, ending⟩ := nativeConfigure_cases ended
  obtain ⟨loaded, compiled, _⟩ := nativeAccepts_some accepts
  have paths : configuredPaths parts (.nativeConfigure candidate) site.files =
      nativeChanged (parts.nextFilesDir candidate spec.filesDir ≠ spec.filesDir) := by
    simp only [configuredPaths, loaded]
  cases outcome with
  | ok done =>
    obtain ⟨rfl, rfl, found, loads⟩ := observe_returned ending
    refine ⟨found, runtime, ?_⟩
    rw [paths]
    exact nativeApply_applied compiled applied loads
  | error error =>
    have tracked := (nativeApply_tracked _ _ _ _).kept applied (Tracked.start site)
    cases report with
    | applied => exact absurd rfl (nativeRecover_report ending)
    | incomplete => trivial
    | restored =>
      refine (nativeRecover_restored tracked ending).restoredTo ?_
      intro resource held unchanged changed
      have safe := restorable (by simp [reachesWrites, accepts]) resource held unchanged
        (paths ▸ changed)
      exact ⟨safe.1, fun mode member => of_decide_eq_true (safe.2 mode member)⟩

theorem renewed_restoredTo
    (others : ∀ path, path ≠ .auth → path ≠ .manifest → after path = before path)
    (auth : (after .auth).map HostEntry.body = (before .auth).map HostEntry.body)
    (receipted : Receipted parts after [authPath] (heldResources after)) :
    RestoredTo parts before after where
  contents path other := by
    by_cases isAuth : path = .auth
    · rw [isAuth]
      exact auth
    · rw [others path isAuth other]
  receipts resource _ unchanged := by
    by_cases isAuth : resource.path = authPath
    · obtain ⟨⟨fresh, held, named⟩, all⟩ := receipted authPath mem_cons_self
      by_cases still : resource ∈ heldResources after
      · exact .inl (all resource still isAuth)
      · exact .inr ⟨still, fresh, held, named.trans isAuth.symm, all fresh held named⟩
    · refine .inl ?_
      have other : resource.path.val ≠ .auth := fun same => isAuth (Subtype.ext same)
      rw [resourceUnchanged_congr (others _ other resource.path.property)]
      exact unchanged

theorem writeManifest_returned {answer : WriteAnswer} {mode : Nat}
    (returned : (writeManifest parts answer mode spec).final site = (.ok (), last)) :
    heldResources last.files = spec.resources ∧
      ∀ path, path ≠ .manifest → last.files path = site.files path := by
  obtain ⟨entry, files, body⟩ := atomicWrite_body returned
  refine ⟨heldResources_of_body (by rw [files, update_self]) body, fun path other => ?_⟩
  rw [files, update_of_ne other]

theorem nativeCredentialsBack_restored (tracked : Tracked [.auth, .manifest] before site)
    (returned : (nativeCredentialsBack parts answers spec).final site = (.ok .restored, last)) :
    RestoredTo parts before last.files := by
  obtain ⟨_, first, undone, calming⟩ := bind_returned returned
  obtain ⟨_, second, calm, looking⟩ := bind_returned calming
  rw [final_look] at looking
  obtain ⟨renewed, third, made, writing⟩ := bind_returned looking
  obtain ⟨_, fourth, written, restarting⟩ := bind_returned writing
  obtain ⟨_, fifth, restarted, ending⟩ := bind_returned restarting
  have back := transactionRollback_contract.of_returned tracked undone
  have sameFirst : third = first := (orRaise_returned made).2.trans (raiseIf_returned calm)
  have sameLast : last = fourth :=
    (congrArg Prod.snd ending).symm.trans (runningBack_returned restarted)
  rw [raiseIf_returned calm] at made
  obtain ⟨holds, elsewhere⟩ := writeManifest_returned written
  rw [sameFirst] at elsewhere
  obtain ⟨_, receipted⟩ := nativeReceipt_receipted (orRaise_returned made).1
  rw [sameLast]
  refine renewed_restoredTo (fun path notAuth notManifest => ?_) ?_ ?_
  · rw [elsewhere path notManifest]
    rcases back path with kept | ⟨written, _⟩
    · exact kept
    · simp [notAuth, notManifest] at written
  · rw [elsewhere .auth (by decide)]
    exact back.body .auth
  · rw [holds]
    exact receipted.congr fun path => elsewhere path.val path.property

variable {username password : Text}

theorem nativeCredentials_truthful
    (ended : (nativeCredentials parts answers username password).final site = (.ok report, last)) :
    Truthful parts (.nativeCredentials username password) site.files report last.files := by
  cases report with
  | applied | incomplete => trivial
  | restored =>
    obtain ⟨_, first, calm, looking⟩ := bind_returned ended
    rw [raiseIf_returned calm, final_look] at looking
    obtain ⟨spec, second, loading, checking⟩ := bind_returned looking
    obtain ⟨loaded, rfl⟩ := orRaise_returned loading
    split at checking
    · obtain ⟨_, third, began, attempting⟩ := bind_returned checking
      obtain ⟨outcome, middle, attempted, ending⟩ := bind_returned attempting
      have rotated := attempt_ended attempted
      cases began
      cases outcome with
      | ok done =>
        obtain ⟨_, fourth, _, applied⟩ := bind_returned ending
        cases applied
      | error error =>
        exact nativeCredentialsBack_restored
          ((nativeRotate_tracked _ _ _).kept rotated (Tracked.start second)) ending
    · cases checking

theorem composeAccepts_some
    (accepts : composeAccepts parts candidate before = some (spec, runtime)) :
    loadManifest before = some spec ∧
      parts.compileProfile candidate spec.filesDir = some runtime ∧
      ∀ path ∈ .auth :: bundlePaths, isPlainFile before path = true := by
  unfold composeAccepts at accepts
  cases loaded : loadManifest before with
  | none =>
    rw [loaded] at accepts
    cases accepts
  | some held =>
    rw [loaded] at accepts
    dsimp only at accepts
    split at accepts
    · case _ checks =>
        obtain ⟨text, compiled, same⟩ := Option.map_eq_some_iff.mp accepts
        cases same
        exact ⟨rfl, compiled, all_eq_true.mp checks.2.2⟩
    · cases accepts

theorem composeConfigure_cases
    (ended : (composeConfigure parts answers candidate).final site = (.ok report, last)) :
    ∃ spec runtime outcome middle,
      composeAccepts parts candidate site.files = some (spec, runtime) ∧
      (composeApply parts answers spec candidate runtime).final site = (outcome, middle) ∧
      match outcome with
      | .ok () => (observe answers).final middle = (.ok report, last)
      | .error _ => (composeRecover parts answers site.files).final middle =
        (.ok report, last) := by
  obtain ⟨_, first, calm, looking⟩ := bind_returned ended
  rw [raiseIf_returned calm, final_look] at looking
  obtain ⟨⟨spec, runtime⟩, second, accepting, attempting⟩ := bind_returned looking
  obtain ⟨accepts, rfl⟩ := orRaise_returned accepting
  obtain ⟨outcome, middle, attempted, ending⟩ := bind_returned attempting
  refine ⟨spec, runtime, outcome, middle, accepts, attempt_ended attempted, ?_⟩
  cases outcome with
  | ok | error => exact ending

theorem activateBack_returned (returned : (activateBack answers).final site = (.ok report, last)) :
    last = site ∧ report ≠ .applied := by
  unfold activateBack at returned
  split at returned
  · cases returned
    exact ⟨rfl, nofun⟩
  · cases returned
    exact ⟨rfl, nofun⟩
  · cases returned
    exact ⟨rfl, nofun⟩
  · cases returned

theorem composeRecover_returned
    (returned : (composeRecover parts answers before).final site = (.ok report, last)) :
    report ≠ .applied ∧ (report = .restored →
      (restoreBundle parts answers before).final site = (.ok (), last)) := by
  obtain ⟨outcome, middle, attempted, ending⟩ := bind_returned returned
  have restored := attempt_ended attempted
  cases outcome with
  | error error =>
    cases error with
    | os | value =>
      cases ending
      exact ⟨nofun, nofun⟩
    | runtime | other => cases ending
  | ok done =>
    dsimp only at ending
    split at ending
    · obtain ⟨rfl, notApplied⟩ := activateBack_returned ending
      exact ⟨notApplied, fun _ => restored⟩
    · cases ending
      exact ⟨nofun, fun _ => restored⟩

theorem BundleEntry.same {path : DeploymentPath} {prior entry : HostEntry}
    (restored : BundleEntry path prior entry) : SameButMode prior entry :=
  ⟨restored.body, restored.uid, restored.gid, fun _ => restored.links⟩

theorem isPlainFile_kind (plain : isPlainFile before resource.path.val)
    (unchanged : resourceUnchanged parts before resource = true) : resource.kind ≠ .directory := by
  intro kind
  obtain ⟨prior, found⟩ := isPlainFile_present plain
  have isBody := snapshotOf_body found plain
  unfold resourceUnchanged at unchanged
  rw [found] at unchanged
  simp [kind, isBody] at unchanged

theorem RestoringBundle.restoredTo {site : Site} (restored : RestoringBundle before [] site)
    (plain : ∀ path ∈ bundlePaths, isPlainFile before path = true)
    (safe : ∀ resource ∈ heldResources before, resourceUnchanged parts before resource = true →
      resource.path ∈ composeChanged →
        resource.kind ≠ .secret ∧ ∀ mode ∈ resource.mode, mode = bundleMode resource.path.val) :
    RestoredTo parts before site.files where
  contents path _ := by
    by_cases inBundle : path ∈ bundlePaths
    · obtain ⟨prior, entry, was, is, entered⟩ := restored.back path inBundle not_mem_nil
      rw [was, is, Option.map_some, Option.map_some, entered.body]
    · rw [restored.outside path inBundle]
  receipts resource held unchanged := by
    refine .inl ?_
    by_cases inBundle : resource.path.val ∈ bundlePaths
    case neg =>
      rw [resourceUnchanged_congr (restored.outside _ inBundle)]
      exact unchanged
    case pos =>
      obtain ⟨prior, entry, was, is, entered⟩ := restored.back _ inBundle not_mem_nil
      have changed : resource.path ∈ composeChanged := by
        have notManifest := resource.path.property
        simp only [bundlePaths, mem_cons, not_mem_nil, or_false] at inBundle
        simp only [composeChanged, mem_cons, not_mem_nil, or_false, profilePath,
          runtimePath, composePath, Subtype.ext_iff]
        tauto
      obtain ⟨notSecret, modes⟩ := safe resource held unchanged changed
      have kind : resource.kind = .file := by
        have notDirectory := isPlainFile_kind (plain _ inBundle) unchanged
        cases isKind : resource.kind with
        | file => rfl
        | secret => exact absurd isKind notSecret
        | directory => exact absurd isKind notDirectory
      refine resourceUnchanged_of_same unchanged was is entered.same kind ?_
      intro recorded member same
      have expected := modes recorded member
      rcases entered.mode with kept | written
      · rw [kept, ← same, expected, bundleMode_small]
      · rw [written, expected]

theorem RestoringBundle.hasOneLink {site : Site} (restored : RestoringBundle before [] site) :
    ∀ path ∈ bundlePaths, hasOneLink before path = true := by
  intro path member
  obtain ⟨prior, _, was, _, entered⟩ := restored.back path member not_mem_nil
  simp [DeploymentChange.hasOneLink, was, entered.single]

theorem activateRunning_returned
    (returned : (activateRunning answers).final site = (.ok (), last)) : last = site := by
  unfold activateRunning at returned
  split at returned
  · exact raiseIf_returned returned
  · cases returned
    rfl

theorem composeRecord_returned {changed : List ResourcePath}
    (returned : (composeRecord parts answers spec changed).final site = (.ok (), last)) :
    ∃ next entry, composeReceipt parts site.files spec changed = some next ∧
      last.files = update site.files .manifest (some entry) ∧
      entry.body = .file (.manifest (parts.dumpManifest next) next) := by
  obtain ⟨_, first, calm, looking⟩ := bind_returned returned
  rw [final_look] at looking
  obtain ⟨next, second, made, written⟩ := bind_returned looking
  obtain ⟨entry, files, body⟩ := atomicWrite_body written
  rw [(orRaise_returned made).2, raiseIf_returned calm] at files
  rw [raiseIf_returned calm] at made
  exact ⟨next, entry, (orRaise_returned made).1, files, body⟩

theorem composeApply_applied {spec loaded : Manifest}
    (compiled : parts.compileProfile candidate spec.filesDir = some runtime)
    (returned : (composeApply parts answers spec candidate runtime).final site = (.ok (), last))
    (loads : loadManifest last.files = some loaded) :
    AppliedTo parts candidate composeChanged last.files loaded runtime := by
  obtain ⟨_, first, wroteProfile, compiling⟩ := bind_returned returned
  obtain ⟨_, second, wroteRuntime, rendering⟩ := bind_returned compiling
  obtain ⟨_, third, wroteCompose, recording⟩ := bind_returned rendering
  obtain ⟨_, fourth, recorded, activated⟩ := bind_returned recording
  obtain ⟨profile, profileFiles, profileBody⟩ := atomicWrite_body wroteProfile
  obtain ⟨config, runtimeFiles, runtimeBody⟩ := atomicWrite_body wroteRuntime
  obtain ⟨_, composeFiles, _⟩ := atomicWrite_body wroteCompose
  obtain ⟨next, entry, made, files, body⟩ := composeRecord_returned recorded
  rw [← activateRunning_returned activated] at files
  have elsewhere (path : DeploymentPath) (other : path ≠ .manifest) :
      last.files path = third.files path := by rw [files, update_of_ne other]
  obtain rfl := loadManifest_of_body (by rw [files, update_self]) body loads
  obtain ⟨sameDir, receipted⟩ := composeReceipt_receipted made (by decide)
  refine
    { loads := loads
      compiled := by rw [sameDir]; exact compiled
      profile := ⟨profile, ?_, profileBody⟩
      runtime := ⟨config, ?_, runtimeBody⟩
      receipts := receipted.congr fun path => elsewhere path.val path.property }
  · rw [elsewhere _ (by decide), composeFiles, update_of_ne (by decide), runtimeFiles,
      update_of_ne (by decide), profileFiles, update_self]
  · rw [elsewhere _ (by decide), composeFiles, update_of_ne (by decide), runtimeFiles, update_self]

theorem composeConfigure_truthful
    (restorable : Restorable parts (.composeConfigure candidate) site.files)
    (ended : (composeConfigure parts answers candidate).final site = (.ok report, last)) :
    Truthful parts (.composeConfigure candidate) site.files report last.files := by
  obtain ⟨spec, runtime, outcome, middle, accepts, applied, ending⟩ := composeConfigure_cases ended
  obtain ⟨loaded, compiled, plain⟩ := composeAccepts_some accepts
  have inBundle : ∀ path ∈ bundlePaths, isPlainFile site.files path = true :=
    fun path member => plain path (mem_cons_of_mem _ member)
  have paths : configuredPaths parts (.composeConfigure candidate) site.files = composeChanged := by
    simp only [configuredPaths, loaded]
  cases outcome with
  | ok done =>
    obtain ⟨rfl, rfl, found, loads⟩ := observe_returned ending
    refine ⟨found, runtime, ?_⟩
    rw [paths]
    exact composeApply_applied compiled applied loads
  | error error =>
    obtain ⟨notApplied, restored⟩ := composeRecover_returned ending
    cases report with
    | applied => exact absurd rfl notApplied
    | incomplete => trivial
    | restored =>
      have there : ∀ path ∈ bundlePaths, (site.files path).isSome := by
        intro path member
        obtain ⟨prior, found⟩ := isPlainFile_present (inBundle path member)
        rw [found]
        rfl
      have start : Touched site.files site := fun path => .inl rfl
      have touched := (composeApply_touched there).of_raised start applied
      have back := (restoreBundle_contract inBundle).of_returned touched (restored rfl)
      refine back.restoredTo inBundle ?_
      intro resource held unchanged changed
      have reached : reachesWrites parts (.composeConfigure candidate) site.files = true := by
        rw [reachesWrites, accepts, Option.isSome_some, Bool.true_and, all_eq_true]
        exact back.hasOneLink
      have safe := restorable reached resource held unchanged (paths ▸ changed)
      exact ⟨safe.1, fun mode member => of_decide_eq_true (safe.2 mode member)⟩

def SameElsewhere (paths : List DeploymentPath) (later earlier : Site) : Prop :=
  ∀ path, path ∉ paths → later.files path = earlier.files path

instance (paths : List DeploymentPath) : Std.Refl (SameElsewhere paths) where
  refl _ _ _ := rfl

instance (paths : List DeploymentPath) : IsTrans Site (SameElsewhere paths) where
  trans _ _ _ late early path outside := (late path outside).trans (early path outside)

theorem atomicWrite_elsewhere {answer : WriteAnswer} {path : DeploymentPath} {content : Content}
    {mode : Option Nat} {paths : List DeploymentPath} (member : path ∈ paths) :
    (atomicWrite parts answer path content mode).Respects (SameElsewhere paths) := by
  have put (entry : Option HostEntry) (site : Site) :
      SameElsewhere paths (site.put path entry) site := by
    intro other outside
    have different : other ≠ path := by
      rintro rfl
      exact outside member
    rw [Site.put_files, update_of_ne different]
  refine .bind (.inspect id) fun site => ?_
  split
  · exact replaceFile_respects fun stamp site => put _ site
  split
  · exact .raise Raised.value
  · exact .raise Raised.value
  · split
    · exact replaceFile_respects fun stamp site => put _ site
    · exact .raise Raised.value

theorem composeRotate_elsewhere :
    (composeRotate parts answers spec username password).Respects
    (SameElsewhere [.auth, .manifest]) := by
  refine .bind (atomicWrite_elsewhere (by decide)) fun _ => ?_
  refine .bind ?_ fun _ => raiseIf_respects _
  refine .bind (raiseIf_respects _) fun _ => ?_
  refine .bind (.inspect id) fun site => ?_
  exact .bind (orRaise_respects _) fun next => atomicWrite_elsewhere (by decide)

theorem composeCredentialsBack_restored (plain : isPlainFile before .auth = true)
    (others : ∀ path, path ≠ .auth → path ≠ .manifest → site.files path = before path)
    (returned : (composeCredentialsBack parts answers before spec).final site =
      (.ok .restored, last)) : RestoredTo parts before last.files := by
  obtain ⟨_, first, wroteAuth, calming⟩ := bind_returned returned
  obtain ⟨_, second, calm, looking⟩ := bind_returned calming
  rw [final_look] at looking
  obtain ⟨renewed, third, made, writing⟩ := bind_returned looking
  obtain ⟨_, fourth, written, activating⟩ := bind_returned writing
  obtain ⟨auth, files, body⟩ := atomicWrite_body wroteAuth
  have sameFirst : third = first := (orRaise_returned made).2.trans (raiseIf_returned calm)
  rw [raiseIf_returned calm] at made
  obtain ⟨holds, elsewhere⟩ := writeManifest_returned written
  rw [sameFirst] at elsewhere
  obtain ⟨_, receipted⟩ := composeReceipt_receipted (orRaise_returned made).1 (by decide)
  rw [(activateBack_returned activating).1]
  refine renewed_restoredTo (fun path notAuth notManifest => ?_) ?_ ?_
  · rw [elsewhere path notManifest, files, update_of_ne notAuth]
    exact others path notAuth notManifest
  · obtain ⟨prior, found⟩ := isPlainFile_present plain
    rw [elsewhere .auth (by decide), files, update_self, found, Option.map_some,
      Option.map_some, body, snapshotOf_body found plain]
  · rw [holds]
    exact receipted.congr fun path => elsewhere path.val path.property

theorem composeCredentials_truthful
    (ended : (composeCredentials parts answers username password).final site = (.ok report, last)) :
    Truthful parts (.composeCredentials username password) site.files report last.files := by
  cases report with
  | applied | incomplete => trivial
  | restored =>
    obtain ⟨_, first, calm, looking⟩ := bind_returned ended
    rw [raiseIf_returned calm, final_look] at looking
    obtain ⟨spec, second, loading, checking⟩ := bind_returned looking
    obtain ⟨loaded, rfl⟩ := orRaise_returned loading
    split at checking
    · case _ checks =>
        have plain : isPlainFile second.files .auth = true := (Bool.and_eq_true _ _ ▸ checks).2
        obtain ⟨outcome, middle, attempted, ending⟩ := bind_returned checking
        have rotated := attempt_ended attempted
        cases outcome with
        | ok done => cases ending
        | error error =>
          refine composeCredentialsBack_restored plain ?_ ending
          intro path notAuth notManifest
          exact composeRotate_elsewhere.related rotated path (by simp [notAuth, notManifest])
    · cases checking

theorem reports_truthful {change : Change} (restorable : Restorable parts change site.files)
    (ended : (program parts answers change).final site = (.ok report, last)) :
    Truthful parts change site.files report last.files := by
  cases change with
  | nativeConfigure candidate => exact nativeConfigure_truthful restorable ended
  | nativeCredentials username password => exact nativeCredentials_truthful ended
  | composeConfigure candidate => exact composeConfigure_truthful restorable ended
  | composeCredentials username password => exact composeCredentials_truthful ended

end XFerry.Management.DeploymentChange
