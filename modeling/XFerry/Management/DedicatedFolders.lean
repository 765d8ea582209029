/-
Public files folders stay apart along every run in which the index stays complete.

What a setup has compared holds until it registers, since whoever writes a manifest holds
the lock of `deployment-setup`.
-/

import XFerry.Management.FolderIndex

namespace XFerry.Management

open EventMachine Function
open Server (FilePath)

/-! ### Manifests and deployments -/

/-- Indexed, or on the way out. -/
def Tracked (data : UserData) (state : FolderState) (path : FilePath) : Prop :=
  path ∈ state.candidates data true ∨ state.removing = some path

/-- Manifests, deployments and index fit each other, and tracked manifests name folders
that are apart. -/
structure Settled (data : UserData) (state : FolderState) : Prop where
  known : ∀ path content, state.manifests path = some content →
    ∃ deployment, state.deployments content.instanceId = some deployment ∧
      deployment.filesDir = content.filesDir
  old : ∀ instanceId deployment, state.deployments instanceId = some deployment →
    instanceId < state.created
  placed : ∀ instanceId deployment, state.deployments instanceId = some deployment →
    ∃ path content, state.manifests path = some content ∧ content.instanceId = instanceId
  single : ∀ first second content other, state.manifests first = some content →
    state.manifests second = some other → content.instanceId = other.instanceId → first = second
  live : ∀ instanceId deployment, state.deployments instanceId = some deployment →
    deployment.succeeded = true → ∀ path content, state.manifests path = some content →
      content.instanceId = instanceId → Tracked data state path
  apart : ∀ first second content other, first ≠ second → Tracked data state first →
    Tracked data state second → state.manifests first = some content →
    state.manifests second = some other →
    overlaps (data.resolve content.filesDir) (data.resolve other.filesDir) = false

variable {content : FolderManifest} {instanceId : Nat} {succeeded : Bool}
  {manifest folder : FilePath}

section Settled

variable {data : UserData} {state next : FolderState}

theorem Settled.start : Settled data .start where
  known _ _ found := by cases found
  old _ _ found := by cases found
  placed _ _ found := by cases found
  single _ _ _ _ found := by cases found
  live _ _ found := by cases found
  apart _ _ _ _ _ _ _ found := by cases found

section

variable (settled : Settled data state)
include settled

theorem Settled.manifest_lt {path : FilePath} (found : state.manifests path = some content) :
    content.instanceId < state.created := by
  obtain ⟨deployment, isThere, _⟩ := settled.known path content found
  exact settled.old _ deployment isThere

theorem Settled.foldersDedicated : FoldersDedicated data state := by
  intro first second deployment other different isFirst isSecond succeeded otherSucceeded
  obtain ⟨path, content, isThere, rfl⟩ := settled.placed first deployment isFirst
  obtain ⟨place, found, isFound, rfl⟩ := settled.placed second other isSecond
  have apartPaths : path ≠ place := by
    rintro rfl
    rw [isThere] at isFound
    cases isFound
    exact different rfl
  obtain ⟨same, sameThere, sameFolder⟩ := settled.known path content isThere
  obtain ⟨again, againThere, againFolder⟩ := settled.known place found isFound
  cases sameThere.symm.trans isFirst
  cases againThere.symm.trans isSecond
  rw [sameFolder, againFolder]
  exact settled.apart path place content found apartPaths
    (settled.live _ _ isFirst succeeded path content isThere rfl)
    (settled.live _ _ isSecond otherSucceeded place found isFound rfl) isThere isFound

theorem Settled.shrink (created : next.created = state.created)
    (manifests : ∀ path content, next.manifests path = some content →
      state.manifests path = some content ∧
        next.deployments content.instanceId = state.deployments content.instanceId ∧
        (Tracked data next path ↔ Tracked data state path))
    (deployments : ∀ instanceId deployment, next.deployments instanceId = some deployment →
      state.deployments instanceId = some deployment ∧
        ∀ path content, state.manifests path = some content → content.instanceId = instanceId →
          next.manifests path = some content) : Settled data next where
  known path content found := by
    obtain ⟨isThere, same, _⟩ := manifests path content found
    rw [same]
    exact settled.known path content isThere
  old instanceId deployment found := by
    rw [created]
    exact settled.old instanceId deployment (deployments instanceId deployment found).1
  placed instanceId deployment found := by
    obtain ⟨isThere, stays⟩ := deployments instanceId deployment found
    obtain ⟨path, content, isPlaced, same⟩ := settled.placed instanceId deployment isThere
    exact ⟨path, content, stays path content isPlaced same, same⟩
  single first second content other found again :=
    settled.single first second content other (manifests first content found).1
      (manifests second other again).1
  live instanceId deployment found success path content isPlaced same := by
    obtain ⟨isThere, _, tracked⟩ := manifests path content isPlaced
    exact tracked.mpr (settled.live instanceId deployment
      (deployments instanceId deployment found).1 success path content isThere same)
  apart first second content other different isTracked isAlso found again := by
    obtain ⟨isFirst, _, tracked⟩ := manifests first content found
    obtain ⟨isSecond, _, also⟩ := manifests second other again
    exact settled.apart first second content other different (tracked.mp isTracked)
      (also.mp isAlso) isFirst isSecond

theorem Settled.of_same (manifests : next.manifests = state.manifests)
    (registry : next.registry = state.registry) (created : next.created = state.created)
    (deployments : next.deployments = state.deployments)
    (removing : next.removing = state.removing) :
    Settled data next := by
  have tracked (path : FilePath) : Tracked data next path ↔ Tracked data state path := by
    rw [Tracked, Tracked, FolderState.candidates, FolderState.candidates, FolderState.registryPaths,
      FolderState.registryPaths, registry, removing]
  refine settled.shrink created ?_ ?_
  · rw [manifests, deployments]
    exact fun path content found => ⟨found, rfl, tracked path⟩
  · rw [manifests, deployments]
    exact fun instanceId deployment found => ⟨found, fun path content isThere _ => isThere⟩

theorem Settled.become (id : Nat) (stage : FolderStage) : Settled data (state.become id stage) :=
  settled.of_same rfl rfl rfl rfl rfl

theorem Settled.finish (id : Nat) : Settled data (state.finish id) :=
  settled.of_same rfl rfl rfl rfl rfl

end

theorem report_deployment {instanceId other : Nat} {deployment : FolderDeployment}
    (found : (state.report instanceId succeeded).deployments other = some deployment) :
    ∃ before, state.deployments other = some before ∧ before.filesDir = deployment.filesDir ∧
      (other = instanceId ∧ deployment.succeeded = succeeded ∨ before = deployment) := by
  rcases update_eq_some found with ⟨rfl, reported⟩ | ⟨_, isThere⟩
  · obtain ⟨before, isThere, rfl⟩ := Option.map_eq_some_iff.mp reported
    exact ⟨before, isThere, rfl, .inl ⟨rfl, rfl⟩⟩
  · exact ⟨deployment, isThere, rfl, .inr rfl⟩

theorem Settled.report (settled : Settled data state) (instanceId : Nat)
    (isTracked : succeeded = true → ∀ path content, state.manifests path = some content →
      content.instanceId = instanceId → Tracked data state path) :
    Settled data (state.report instanceId succeeded) where
  known path content found := by
    obtain ⟨deployment, isThere, same⟩ := settled.known path content found
    show ∃ after, Function.update state.deployments instanceId _ content.instanceId = some after ∧ _
    rcases eq_or_ne content.instanceId instanceId with rfl | different
    · rw [update_self, isThere]
      exact ⟨_, rfl, same⟩
    · rw [update_of_ne different]
      exact ⟨deployment, isThere, same⟩
  old other deployment found := by
    obtain ⟨before, isThere, _⟩ := report_deployment found
    exact settled.old other before isThere
  placed other deployment found := by
    obtain ⟨before, isThere, _⟩ := report_deployment found
    exact settled.placed other before isThere
  __ := settled
  live other deployment found success path content isThere same := by
    obtain ⟨before, isBefore, _, ⟨rfl, isReport⟩ | rfl⟩ := report_deployment found
    · exact isTracked (isReport.symm.trans success) path content isThere same
    · exact settled.live other before isBefore success path content isThere same

theorem Settled.report_false (settled : Settled data state) (instanceId : Nat) :
    Settled data (state.report instanceId false) :=
  settled.report instanceId nofun

theorem Settled.publish (settled : Settled data state) (absent : state.manifests manifest = none)
    (clear : ∀ path content, Tracked data state path → state.manifests path = some content →
      overlaps (data.resolve folder) (data.resolve content.filesDir) = false) :
    Settled data (state.publish manifest folder) := by
  have newThere : (state.publish manifest folder).manifests manifest =
      some { instanceId := state.created, filesDir := folder } := update_self _ _ _
  have oldThere {path : FilePath} {content : FolderManifest}
      (found : state.manifests path = some content) :
      (state.publish manifest folder).manifests path = some content := by
    have different : path ≠ manifest := by
      rintro rfl
      rw [absent] at found
      cases found
    exact (update_of_ne different _ _).trans found
  exact
    { known := by
        intro path content found
        show ∃ deployment, Function.update state.deployments state.created _ _ = some deployment ∧ _
        rcases update_eq_some found with ⟨_, ⟨⟩⟩ | ⟨_, found⟩
        · rw [update_self]
          exact ⟨_, rfl, rfl⟩
        · rw [update_of_ne (Nat.ne_of_lt (settled.manifest_lt found))]
          exact settled.known path content found
      old := by
        intro instanceId deployment found
        rcases update_eq_some found with ⟨rfl, _⟩ | ⟨_, found⟩
        · exact Nat.lt_succ_self _
        · exact Nat.lt_succ_of_lt (settled.old instanceId deployment found)
      placed := by
        intro instanceId deployment found
        rcases update_eq_some found with ⟨rfl, ⟨⟩⟩ | ⟨_, found⟩
        · exact ⟨manifest, _, newThere, rfl⟩
        · obtain ⟨path, content, isThere, same⟩ := settled.placed instanceId deployment found
          exact ⟨path, content, oldThere isThere, same⟩
      single := by
        intro first second content other found again same
        rcases update_eq_some found with ⟨rfl, ⟨⟩⟩ | ⟨_, isFirst⟩
        · rcases update_eq_some again with ⟨rfl, _⟩ | ⟨_, isSecond⟩
          · rfl
          · exact absurd (settled.manifest_lt isSecond) (by rw [← same]; exact Nat.lt_irrefl _)
        rcases update_eq_some again with ⟨rfl, ⟨⟩⟩ | ⟨_, isSecond⟩
        · exact absurd (settled.manifest_lt isFirst) (by rw [same]; exact Nat.lt_irrefl _)
        · exact settled.single first second content other isFirst isSecond same
      live := by
        intro instanceId deployment found success path content isThere same
        rcases update_eq_some found with ⟨_, ⟨⟩⟩ | ⟨_, found⟩
        · cases success
        rcases update_eq_some isThere with ⟨_, ⟨⟩⟩ | ⟨_, isThere⟩
        · exact absurd (settled.old instanceId deployment found)
            (by rw [← same]; exact Nat.lt_irrefl _)
        · exact settled.live instanceId deployment found success path content isThere same
      apart := by
        intro first second content other different isTracked isAlso found again
        rcases update_eq_some found with ⟨rfl, ⟨⟩⟩ | ⟨_, isFirst⟩
        · rcases update_eq_some again with ⟨rfl, _⟩ | ⟨_, isSecond⟩
          · exact absurd rfl different
          · exact clear second other isAlso isSecond
        rcases update_eq_some again with ⟨rfl, ⟨⟩⟩ | ⟨_, isSecond⟩
        · rw [overlaps_comm]
          exact clear first content isTracked isFirst
        · exact settled.apart _ _ _ _ different isTracked isAlso isFirst isSecond }

theorem Settled.moveFolder (settled : Settled data state) {manifest before folder : FilePath}
    (isThere : state.manifests manifest = some { instanceId := instanceId, filesDir := before })
    (clear : ∀ path content, path ≠ manifest → Tracked data state path →
      state.manifests path = some content →
      overlaps (data.resolve folder) (data.resolve content.filesDir) = false) :
    Settled data (state.moveFolder manifest instanceId folder) := by
  -- The same identities are at the same places.
  have placed {path : FilePath} {content : FolderManifest}
      (found : (state.moveFolder manifest instanceId folder).manifests path = some content) :
      ∃ old, state.manifests path = some old ∧ old.instanceId = content.instanceId := by
    rcases update_eq_some found with ⟨rfl, ⟨⟩⟩ | ⟨_, found⟩
    · exact ⟨_, isThere, rfl⟩
    · exact ⟨content, found, rfl⟩
  have deployments {other : Nat} {deployment : FolderDeployment}
      (found : (state.moveFolder manifest instanceId folder).deployments other =
        some deployment) :
      ∃ old, state.deployments other = some old ∧ old.succeeded = deployment.succeeded := by
    rcases update_eq_some found with ⟨rfl, moved⟩ | ⟨_, found⟩
    · obtain ⟨old, isOld, rfl⟩ := Option.map_eq_some_iff.mp moved
      exact ⟨old, isOld, rfl⟩
    · exact ⟨deployment, found, rfl⟩
  exact
    { known := by
        intro path content found
        show ∃ deployment, Function.update state.deployments instanceId _ _ = some deployment ∧ _
        rcases update_eq_some found with ⟨rfl, ⟨⟩⟩ | ⟨different, found⟩
        · obtain ⟨deployment, known, _⟩ := settled.known path _ isThere
          rw [update_self]
          exact ⟨_, by rw [known]; rfl, rfl⟩
        have another : content.instanceId ≠ instanceId := by
          intro same
          exact different (settled.single path manifest _ _ found isThere same)
        rw [update_of_ne another]
        exact settled.known path content found
      old := by
        intro other deployment found
        obtain ⟨old, isOld, _⟩ := deployments found
        exact settled.old other old isOld
      placed := by
        intro other deployment found
        obtain ⟨old, isOld, _⟩ := deployments found
        obtain ⟨path, content, isPlaced, rfl⟩ := settled.placed other old isOld
        rcases eq_or_ne path manifest with rfl | different
        · rw [isThere] at isPlaced
          cases isPlaced
          exact ⟨path, _, update_self _ _ _, rfl⟩
        · exact ⟨path, content, (update_of_ne different _ _).trans isPlaced, rfl⟩
      single := by
        intro first second content other found again same
        obtain ⟨old, isOld, sameOld⟩ := placed found
        obtain ⟨also, isAlso, sameAlso⟩ := placed again
        exact settled.single first second old also isOld isAlso
          (sameOld.trans (same.trans sameAlso.symm))
      live := by
        intro other deployment found success path content isPlaced same
        obtain ⟨old, isOld, sameSuccess⟩ := deployments found
        obtain ⟨before, isBefore, sameId⟩ := placed isPlaced
        exact settled.live other old isOld (sameSuccess.trans success) path before isBefore
          (sameId.trans same)
      apart := by
        intro first second content other different isTracked isAlso found again
        rcases update_eq_some found with ⟨rfl, ⟨⟩⟩ | ⟨notMoved, isFirst⟩
        · rcases update_eq_some again with ⟨rfl, _⟩ | ⟨notMoved, isSecond⟩
          · exact absurd rfl different
          · exact clear second other notMoved isAlso isSecond
        rcases update_eq_some again with ⟨rfl, ⟨⟩⟩ | ⟨_, isSecond⟩
        · rw [overlaps_comm]
          exact clear first content notMoved isTracked isFirst
        · exact settled.apart _ _ _ _ different isTracked isAlso isFirst isSecond }

theorem Settled.remove (settled : Settled data state)
    (isThere : state.manifests manifest = some content)
    (removing : state.removing = none ∨ state.removing = some manifest)
    (manifests : next.manifests = Function.update state.manifests manifest none)
    (deployments : next.deployments =
      Function.update state.deployments content.instanceId none)
    (registry : next.registry = state.registry) (created : next.created = state.created)
    (removed : next.removing = none) : Settled data next := by
  have tracked {path : FilePath} (different : path ≠ manifest) :
      Tracked data next path ↔ Tracked data state path := by
    have notRemoving : state.removing ≠ some path := by
      rcases removing with nothing | isManifest
      · rw [nothing]
        exact nofun
      · rw [isManifest]
        exact fun same => different (Option.some.inj same).symm
    rw [Tracked, Tracked, FolderState.candidates, FolderState.candidates, FolderState.registryPaths,
      FolderState.registryPaths, registry, removed]
    simp only [reduceCtorEq, notRemoving]
  refine settled.shrink created ?_ ?_
  · intro path found isFound
    rw [manifests] at isFound
    rcases update_eq_some isFound with ⟨_, ⟨⟩⟩ | ⟨different, isFound⟩
    have another : found.instanceId ≠ content.instanceId := by
      intro same
      exact different (settled.single path manifest _ _ isFound isThere same)
    rw [deployments, update_of_ne another]
    exact ⟨isFound, rfl, tracked different⟩
  · intro instanceId deployment found
    rw [deployments] at found
    rcases update_eq_some found with ⟨_, ⟨⟩⟩ | ⟨another, found⟩
    refine ⟨found, ?_⟩
    rintro path other isPlaced rfl
    have different : path ≠ manifest := by
      rintro rfl
      rw [isThere] at isPlaced
      cases isPlaced
      exact another rfl
    rw [manifests, update_of_ne different]
    exact isPlaced

theorem Settled.unlinkManifest (settled : Settled data state)
    (removing : state.removing = none ∨ state.removing = some manifest) :
    Settled data (state.unlinkManifest manifest) := by
  cases isThere : state.manifests manifest with
  | some content =>
    refine settled.remove isThere removing rfl ?_ rfl rfl rfl
    rw [FolderState.unlinkManifest, isThere]
  | none =>
    have manifests : (state.unlinkManifest manifest).manifests = state.manifests := by
      show Function.update state.manifests manifest none = state.manifests
      rw [← isThere, update_eq_self]
    have deployments : (state.unlinkManifest manifest).deployments = state.deployments := by
      rw [FolderState.unlinkManifest, isThere]
    refine settled.shrink rfl ?_ ?_
    · rw [manifests, deployments]
      intro path content found
      refine ⟨found, rfl, ?_⟩
      have notRemoving : state.removing ≠ some path := by
        intro isRemoving
        rcases removing with nothing | isManifest
        · rw [nothing] at isRemoving
          cases isRemoving
        rw [isManifest] at isRemoving
        cases isRemoving
        rw [isThere] at found
        cases found
      have removed : (state.unlinkManifest manifest).removing = none := rfl
      rw [Tracked, Tracked, removed]
      simp only [reduceCtorEq, notRemoving]
      exact Iff.rfl
    · rw [manifests, deployments]
      exact fun instanceId deployment found => ⟨found, fun path content isPlaced _ => isPlaced⟩

theorem mem_register (manifest path : FilePath) :
    path ∈ (state.register true manifest).candidates data true ↔
      path ∈ state.candidates data true ∨ path = manifest := by
  simp only [FolderState.candidates, FolderState.registryPaths, FolderState.register, if_true,
    List.mem_append]
  split
  · case isTrue isIn =>
      constructor
      · exact .inl
      · rintro (isCandidate | rfl)
        · exact isCandidate
        · exact .inl isIn
  · rw [List.mem_append, List.mem_singleton]
    tauto

theorem Settled.register (settled : Settled data state)
    (clear : ∀ content path other, state.manifests manifest = some content → path ≠ manifest →
      Tracked data state path → state.manifests path = some other →
      overlaps (data.resolve content.filesDir) (data.resolve other.filesDir) = false) :
    Settled data (state.register true manifest) := by
  have tracked (path : FilePath) :
      Tracked data (state.register true manifest) path ↔
        Tracked data state path ∨ path = manifest := by
    rw [Tracked, mem_register, Tracked]
    exact or_right_comm
  exact
    { __ := settled
      live := by
        intro instanceId deployment found success path content isThere same
        exact (tracked path).mpr (.inl
          (settled.live instanceId deployment found success path content isThere same))
      apart := by
        intro first second content other different isTracked isAlso found again
        rcases (tracked first).mp isTracked with wasTracked | rfl
        · rcases (tracked second).mp isAlso with wasAlso | rfl
          · exact settled.apart first second content other different wasTracked wasAlso found again
          · rw [overlaps_comm]
            exact clear other first content again different wasTracked found
        · rcases (tracked second).mp isAlso with wasAlso | rfl
          · exact clear content second other found (Ne.symm different) wasAlso again
          · exact absurd rfl different }

theorem Settled.unregister (settled : Settled data state)
    (nothing : state.removing = none) : Settled data (state.unregister true manifest) := by
  have tracked (path : FilePath) :
      Tracked data (state.unregister true manifest) path ↔ Tracked data state path := by
    have isRemoving : (state.unregister true manifest).removing = some path ↔
        path = manifest ∧ manifest ∈ state.registry := by
      show (if manifest ∈ state.registry then some manifest else none) = some path ↔ _
      split
      · case isTrue isIn => exact ⟨fun same => ⟨(Option.some.inj same).symm, isIn⟩,
          fun both => congrArg some both.1.symm⟩
      · case isFalse isOut => exact ⟨nofun, fun both => absurd both.2 isOut⟩
    rw [Tracked, Tracked, isRemoving, nothing]
    simp only [FolderState.candidates, FolderState.registryPaths, FolderState.unregister, if_true,
      List.mem_append, List.mem_filter, decide_eq_true_eq, reduceCtorEq, or_false]
    constructor
    · rintro ((⟨isIn, _⟩ | isFixed) | ⟨rfl, isIn⟩)
      · exact .inl isIn
      · exact .inr isFixed
      · exact .inl isIn
    · rintro (isIn | isFixed)
      · rcases eq_or_ne path manifest with rfl | different
        · exact .inr ⟨rfl, isIn⟩
        · exact .inl (.inl ⟨isIn, different⟩)
      · exact .inl (.inr isFixed)
  exact
    { __ := settled
      live := fun instanceId deployment found success path content isThere same =>
        (tracked path).mpr
        (settled.live instanceId deployment found success path content isThere same)
      apart := fun first second content other different isTracked isAlso =>
        settled.apart first second content other different ((tracked first).mp isTracked)
          ((tracked second).mp isAlso) }

end Settled

/-! ### Processes and the lock -/

/-- Whether a process holds the lock of `deployment-setup`. -/
def FolderStage.holdsSetup : FolderStage → Bool
  | .holding _ | .checked _ | .written _ _ _ | .committed _ | .registering _ _
  | .registered _ _ | .configured _ _ | .unregistering _ | .unregistered _ => true
  | .idle | .preparing _ | .starting _ _ | .resuming | .resumed _ | .resumedRegistering _
  | .ended => false

def FolderStage.resumes : FolderStage → Option Nat
  | .resumed instanceId | .resumedRegistering instanceId => some instanceId
  | _ => none

def Holds (data : UserData) (state : FolderState) : FolderStage → Prop
  | .checked request => state.removing = none ∧ ∀ excludeId folder,
      request.folder = some (excludeId, folder) → Clear data state excludeId folder
  | .written manifest content before => state.removing = none ∧ before = none ∧
      state.manifests manifest = some content ∧
      Clear data state (some content.instanceId) content.filesDir
  | .committed content => state.removing = none ∧ state.manifests data.nativeManifest = some content
  | .registering manifest content => state.removing = none ∧
      state.manifests manifest = some content ∧
      Clear data state (some content.instanceId) content.filesDir
  | .registered manifest instanceId => state.removing = none ∧
      manifest ∈ state.candidates data true ∧
      ∃ content, state.manifests manifest = some content ∧ content.instanceId = instanceId
  | .configured spec folder => state.removing = none ∧
      state.manifests data.nativeManifest =
        some { instanceId := spec.instanceId, filesDir := folder } ∧
      Clear data state (some spec.instanceId) spec.filesDir
  | .unregistered manifest => state.removing = none ∨ state.removing = some manifest
  | .idle | .preparing _ | .holding _ | .unregistering _ | .starting _ _ | .resuming
  | .resumed _ | .resumedRegistering _ | .ended => state.removing = none

/-- A deployment that is at most that of the host. -/
def ResumedAt (data : UserData) (state : FolderState) (instanceId : Nat) : Prop :=
  instanceId < state.created ∧ ∀ path content, state.manifests path = some content →
    content.instanceId = instanceId → path = data.nativeManifest

structure Dedicated (data : UserData) (state : FolderState) : Prop where
  settled : Settled data state
  free : state.setupLock = none → state.removing = none
  held : ∀ id, (state.stages id).holdsSetup = true →
    state.setupLock = some id ∧ Holds data state (state.stages id)
  aside : ∀ id instanceId, (state.stages id).resumes = some instanceId →
    ResumedAt data state instanceId

section Dedicated

variable {data : UserData} {state next : FolderState} {id : Nat} {stage : FolderStage}

theorem Dedicated.start : Dedicated data .start where
  settled := .start
  free _ := rfl
  held _ holds := by cases holds
  aside _ _ resumes := by cases resumes

variable {folder : FilePath}

theorem Clear.congr {excludeId : Option Nat}
    (clear : Clear data state excludeId folder) (manifests : next.manifests = state.manifests)
    (candidates : ∀ path, path ∈ next.candidates data true ↔ path ∈ state.candidates data true) :
    Clear data next excludeId folder := by
  intro path content isIndexed
  rw [manifests]
  exact clear path content ((candidates path).mp isIndexed)

theorem Holds.congr (holds : Holds data state stage) (manifests : next.manifests = state.manifests)
    (removing : next.removing = state.removing)
    (candidates : ∀ path, path ∈ next.candidates data true ↔ path ∈ state.candidates data true) :
    Holds data next stage := by
  cases stage with
  | checked request =>
    exact ⟨removing.trans holds.1, fun excludeId folder found =>
      (holds.2 excludeId folder found).congr manifests candidates⟩
  | written manifest content before =>
    obtain ⟨nothing, fresh, isThere, clear⟩ := holds
    exact ⟨removing.trans nothing, fresh, manifests ▸ isThere, clear.congr manifests candidates⟩
  | committed content => exact ⟨removing.trans holds.1, manifests ▸ holds.2⟩
  | registering manifest content =>
    obtain ⟨nothing, isThere, clear⟩ := holds
    exact ⟨removing.trans nothing, manifests ▸ isThere, clear.congr manifests candidates⟩
  | registered manifest instanceId =>
    obtain ⟨nothing, isIndexed, isThere⟩ := holds
    exact ⟨removing.trans nothing, (candidates manifest).mpr isIndexed, manifests ▸ isThere⟩
  | configured spec folder =>
    obtain ⟨nothing, isThere, clear⟩ := holds
    exact ⟨removing.trans nothing, manifests ▸ isThere, clear.congr manifests candidates⟩
  | unregistered manifest => exact holds.imp removing.trans removing.trans
  | idle | preparing | holding | unregistering | starting | resuming | resumed
  | resumedRegistering | ended => exact removing.trans holds

section

variable (dedicated : Dedicated data state)
include dedicated

section

variable (settled : Settled data next)
include settled

theorem Dedicated.outside (stages : next.stages = Function.update state.stages id stage)
    (notHolding : stage.holdsSetup = false) (lock : next.setupLock = state.setupLock)
    (created : next.created = state.created) (manifests : next.manifests = state.manifests)
    (removing : next.removing = state.removing)
    (candidates : ∀ path, path ∈ next.candidates data true ↔ path ∈ state.candidates data true)
    (resumed : ∀ instanceId, stage.resumes = some instanceId → ResumedAt data state instanceId) :
    Dedicated data next where
  settled := settled
  free isFree := removing.trans (dedicated.free (lock.symm.trans isFree))
  held other := by
    rw [stages]
    rcases eq_or_ne other id with rfl | different
    · rw [update_self, notHolding]
      exact nofun
    rw [update_of_ne different]
    intro holds
    obtain ⟨isLocked, knows⟩ := dedicated.held other holds
    exact ⟨lock.trans isLocked, knows.congr manifests removing candidates⟩
  aside other instanceId := by
    rw [stages, ResumedAt, created, manifests]
    rcases eq_or_ne other id with rfl | different
    · rw [update_self]
      exact resumed instanceId
    · rw [update_of_ne different]
      exact dedicated.aside other instanceId

theorem Dedicated.alone (own : state.setupLock = none ∨ state.setupLock = some id)
    (stages : next.stages = Function.update state.stages id stage)
    (free : next.setupLock = none → next.removing = none)
    (held : stage.holdsSetup = true → next.setupLock = some id ∧ Holds data next stage)
    (kept : ∀ instanceId, ResumedAt data state instanceId → ResumedAt data next instanceId)
    (resumed : stage.resumes = none) : Dedicated data next where
  settled := settled
  free := free
  held other := by
    rw [stages]
    rcases eq_or_ne other id with rfl | different
    · rw [update_self]
      exact held
    rw [update_of_ne different]
    intro holds
    have isLocked := (dedicated.held other holds).1
    rcases own with free | mine
    · rw [free] at isLocked
      cases isLocked
    · rw [mine] at isLocked
      exact absurd (Option.some.inj isLocked).symm different
  aside other instanceId := by
    rw [stages]
    rcases eq_or_ne other id with rfl | different
    · rw [update_self, resumed]
      exact nofun
    · rw [update_of_ne different]
      exact fun resumes => kept instanceId (dedicated.aside other instanceId resumes)

theorem Dedicated.finish (mine : state.setupLock = some id) (stages : next.stages = state.stages)
    (removing : next.removing = none)
    (kept : ∀ instanceId, ResumedAt data state instanceId → ResumedAt data next instanceId) :
    Dedicated data (next.finish id) :=
  dedicated.alone (settled.finish id) (.inr mine)
    (by rw [FolderState.finish, FolderState.become, stages]) (fun _ => removing)
    (fun holds => by cases holds) kept rfl

end

theorem Dedicated.lockRegistry (holder : Option Nat) :
    Dedicated data { state with registryLock := holder } where
  settled := dedicated.settled.of_same rfl rfl rfl rfl rfl
  __ := dedicated
  held id holds := (dedicated.held id holds).imp_right fun knows =>
    knows.congr rfl rfl fun _ => Iff.rfl

theorem Dedicated.of_holds (isStage : state.stages id = stage)
    (holds : stage.holdsSetup = true) : state.setupLock = some id ∧ Holds data state stage := by
  have held := dedicated.held id
  rw [isStage] at held
  exact held holds

end

theorem tracked_iff (nothing : state.removing = none) (path : FilePath) :
    Tracked data state path ↔ path ∈ state.candidates data true := by
  rw [Tracked, nothing]
  exact or_iff_left nofun

theorem native_mem_candidates : data.nativeManifest ∈ state.candidates data true :=
  List.mem_append_right _ List.mem_cons_self

theorem Settled.clear (settled : Settled data state) (nothing : state.removing = none)
    {path : FilePath} (isIndexed : path ∈ state.candidates data true)
    (isThere : state.manifests path = some content) :
    Clear data state (some content.instanceId) content.filesDir := by
  intro place other isAlso found different
  have apart : path ≠ place := by
    rintro rfl
    rw [isThere] at found
    cases found
    exact different rfl
  exact settled.apart path place content other apart ((tracked_iff nothing path).mpr isIndexed)
    ((tracked_iff nothing place).mpr isAlso) isThere found

theorem Settled.register_clear (settled : Settled data state) (nothing : state.removing = none)
    (isThere : state.manifests manifest = some content)
    (clear : Clear data state (some content.instanceId) content.filesDir) :
    Settled data (state.register true manifest) := by
  refine settled.register ?_
  intro found path other isFound different isTracked isOther
  rw [isThere] at isFound
  cases isFound
  refine clear path other ((tracked_iff nothing path).mp isTracked) isOther ?_
  intro same
  exact different (settled.single path manifest other content isOther isThere
    (Option.some.inj same))

theorem Settled.register_native (settled : Settled data state) :
    Settled data (state.register true data.nativeManifest) :=
  settled.register fun content path other isThere different isTracked isOther =>
    settled.apart data.nativeManifest path content other (Ne.symm different)
      (.inl native_mem_candidates) isTracked isThere isOther

theorem mem_register_native (path : FilePath) :
    path ∈ (state.register true data.nativeManifest).candidates data true ↔
      path ∈ state.candidates data true := by
  rw [mem_register]
  constructor
  · rintro (isIndexed | rfl)
    · exact isIndexed
    · exact native_mem_candidates
  · exact .inl

theorem ResumedAt.kept (resumedAt : ResumedAt data state instanceId)
    (created : state.created ≤ next.created)
    (manifests : ∀ path content, next.manifests path = some content →
      state.created ≤ content.instanceId ∨
        ∃ before, state.manifests path = some before ∧ before.instanceId = content.instanceId) :
    ResumedAt data next instanceId := by
  obtain ⟨isOld, onHost⟩ := resumedAt
  refine ⟨Nat.lt_of_lt_of_le isOld created, ?_⟩
  rintro path content isThere rfl
  rcases manifests path content isThere with isNew | ⟨before, wasThere, same⟩
  · exact absurd isOld (Nat.not_lt.mpr isNew)
  · exact onHost path before wasThere same

theorem ResumedAt.removed
    (resumedAt : ResumedAt data state instanceId) (created : state.created ≤ next.created)
    (removed : next.manifests = Function.update state.manifests manifest none) :
    ResumedAt data next instanceId := by
  refine resumedAt.kept created ?_
  intro path content found
  rw [removed] at found
  rcases update_eq_some found with ⟨_, ⟨⟩⟩ | ⟨_, found⟩
  exact .inr ⟨content, found, rfl⟩

section

variable (dedicated : Dedicated data state)
include dedicated

theorem Dedicated.become (notHolding : stage.holdsSetup = false)
    (resumed : ∀ instanceId, stage.resumes = some instanceId → ResumedAt data state instanceId) :
    Dedicated data (state.become id stage) :=
  dedicated.outside (dedicated.settled.become id stage) rfl notHolding rfl rfl rfl rfl
    (fun _ => Iff.rfl) resumed

theorem Dedicated.report (instanceId : Nat)
    (isTracked : succeeded = true → ∀ path content, state.manifests path = some content →
      content.instanceId = instanceId → Tracked data state path) :
    Dedicated data ((state.report instanceId succeeded).become id .ended) :=
  dedicated.outside ((dedicated.settled.report instanceId isTracked).become id .ended) rfl rfl rfl
    rfl rfl rfl (fun _ => Iff.rfl) nofun

section

variable (mine : state.setupLock = some id)
include mine

section

variable (nothing : state.removing = none)
include nothing

theorem Dedicated.advance (holds : Holds data state stage)
    (resumed : stage.resumes = none) : Dedicated data (state.become id stage) :=
  dedicated.alone (dedicated.settled.become id stage) (.inr mine) rfl (fun _ => nothing)
    (fun _ => ⟨mine, holds.congr rfl rfl fun _ => Iff.rfl⟩) (fun _ at' => at') resumed

theorem Dedicated.advanceLocked {holder : Option Nat} (holds : Holds data state stage)
    (resumed : stage.resumes = none) :
    Dedicated data { state.become id stage with registryLock := holder } :=
  (dedicated.advance mine nothing holds resumed).lockRegistry holder

theorem Dedicated.refuse : Dedicated data (state.finish id) :=
  dedicated.finish dedicated.settled mine rfl nothing fun _ at' => at'

theorem Dedicated.failed (instanceId : Nat) :
    Dedicated data ((state.report instanceId false).finish id) :=
  dedicated.finish (dedicated.settled.report_false instanceId) mine rfl nothing fun _ at' => at'

theorem Dedicated.publish
    (absent : state.manifests manifest = none) (clear : Clear data state none folder) :
    Dedicated data ((state.publish manifest folder).become id
      (.written manifest { instanceId := state.created, filesDir := folder }
        (state.manifests manifest))) := by
  have settled : Settled data (state.publish manifest folder) := by
    refine dedicated.settled.publish absent ?_
    intro path content isTracked found
    exact clear path content ((tracked_iff nothing path).mp isTracked) found nofun
  have manifests {path : FilePath} {content : FolderManifest}
      (found : (state.publish manifest folder).manifests path = some content)
      (another : content.instanceId ≠ state.created) : state.manifests path = some content := by
    rcases update_eq_some found with ⟨_, ⟨⟩⟩ | ⟨_, found⟩
    · exact absurd rfl another
    · exact found
  refine dedicated.alone (settled.become id _) (.inr mine) rfl (fun _ => nothing) ?_ ?_ rfl
  · refine fun _ => ⟨mine, nothing, absent, update_self _ _ _, ?_⟩
    intro path content isIndexed found different
    exact clear path content isIndexed
      (manifests found fun same => different (congrArg some same)) nofun
  · intro instanceId resumedAt
    refine resumedAt.kept (Nat.le_succ _) ?_
    intro path content found
    rcases eq_or_ne content.instanceId state.created with isNew | another
    · exact .inl (Nat.le_of_eq isNew.symm)
    · exact .inr ⟨content, manifests found another, rfl⟩

end

end

theorem Dedicated.moveFolder {spec : FolderManifest} (nothing : state.removing = none)
    (isThere : state.manifests data.nativeManifest = some spec)
    (clear : Clear data state (some spec.instanceId) folder) :
    Settled data (state.moveFolder data.nativeManifest spec.instanceId folder) ∧
      ∀ instanceId, ResumedAt data state instanceId →
        ResumedAt data (state.moveFolder data.nativeManifest spec.instanceId folder)
          instanceId := by
  constructor
  · refine dedicated.settled.moveFolder isThere ?_
    intro path content different isTracked found
    refine clear path content ((tracked_iff nothing path).mp isTracked) found ?_
    intro same
    exact different (dedicated.settled.single path data.nativeManifest content spec found isThere
      (Option.some.inj same))
  · intro instanceId resumedAt
    refine resumedAt.kept le_rfl ?_
    intro path content found
    rcases update_eq_some found with ⟨rfl, ⟨⟩⟩ | ⟨_, found⟩
    · exact .inr ⟨spec, isThere, rfl⟩
    · exact .inr ⟨content, found, rfl⟩

end

variable {action : FolderAction}

theorem Dedicated.step_idle (dedicated : Dedicated data state)
    (isStage : state.stages id = .idle) (taken : folderStep data state (id, action) = some next) :
    Dedicated data next := by
  cases action with
  | beginCompose manifest folder =>
    simp only [folderStep, isStage] at taken
    split at taken
    · cases taken
    split at taken
    all_goals
      cases taken
      exact dedicated.become rfl nofun
  | beginNative | beginConfigure =>
    simp only [folderStep, isStage] at taken
    split at taken
    all_goals
      cases taken
      exact dedicated.become rfl nofun
  | beginPurge manifest =>
    simp only [folderStep, isStage] at taken
    cases taken
    exact dedicated.become rfl nofun
  | beginStart manifest =>
    simp only [folderStep, isStage] at taken
    split at taken
    all_goals
      cases taken
      exact dedicated.become rfl nofun
  | _ => simp [folderStep, isStage] at taken

variable {request : FolderRequest}

section

variable (dedicated : Dedicated data state)
include dedicated

section

variable (taken : folderStep data state (id, action) = some next)
include taken

theorem Dedicated.step_preparing (isStage : state.stages id = .preparing request) :
    Dedicated data next := by
  cases action with
  | refuse =>
    simp only [folderStep, isStage] at taken
    cases taken
    exact dedicated.become rfl nofun
  | acquire =>
    simp only [folderStep, isStage] at taken
    cases isLock : state.setupLock with
    | some holder =>
      rw [isLock] at taken
      cases taken
      exact dedicated.become rfl nofun
    | none =>
      rw [isLock] at taken
      cases taken
      have nothing := dedicated.free isLock
      exact dedicated.alone (dedicated.settled.of_same rfl rfl rfl rfl rfl) (.inl isLock)
        rfl (fun _ => nothing) (fun _ => ⟨rfl, nothing⟩) (fun _ at' => at') rfl
  | _ => simp [folderStep, isStage] at taken

theorem Dedicated.step_written {before : Option FolderManifest}
    (isStage : state.stages id = .written manifest content before) :
    Dedicated data next := by
  obtain ⟨mine, nothing, rfl, isThere, clear⟩ := dedicated.of_holds isStage rfl
  cases action with
  | fail restored =>
    simp only [folderStep, isStage] at taken
    split at taken
    · cases taken
      refine dedicated.finish (dedicated.settled.remove isThere (.inl nothing) rfl rfl rfl
        rfl nothing) mine rfl nothing ?_
      intro instanceId resumedAt
      exact resumedAt.removed le_rfl rfl
    · cases taken
      exact dedicated.refuse mine nothing
  | commit =>
    simp only [folderStep, isStage] at taken
    split at taken
    · case isTrue onHost =>
        cases taken
        exact dedicated.advance mine nothing ⟨nothing, onHost ▸ isThere⟩ rfl
    · cases taken
  | acquireRegistry =>
    simp only [folderStep, isStage] at taken
    split at taken
    · cases taken
    split at taken
    · cases taken
      exact dedicated.refuse mine nothing
    · cases taken
      exact dedicated.advanceLocked mine nothing ⟨nothing, isThere, clear⟩ rfl
  | _ => simp [folderStep, isStage] at taken

theorem Dedicated.step_committed (isStage : state.stages id = .committed content) :
    Dedicated data next := by
  obtain ⟨mine, nothing, isThere⟩ := dedicated.of_holds isStage rfl
  cases action with
  | acquireRegistry =>
    simp only [folderStep, isStage] at taken
    split at taken
    · cases taken
      exact dedicated.failed mine nothing content.instanceId
    · cases taken
      have clear := dedicated.settled.clear nothing native_mem_candidates isThere
      exact dedicated.advanceLocked mine nothing ⟨nothing, isThere, clear⟩ rfl
  | fail restored =>
    simp only [folderStep, isStage] at taken
    cases taken
    exact dedicated.failed mine nothing content.instanceId
  | _ => simp [folderStep, isStage] at taken

theorem Dedicated.step_registered (isStage : state.stages id = .registered manifest instanceId) :
    Dedicated data next := by
  obtain ⟨mine, nothing, isIndexed, content, isThere, rfl⟩ := dedicated.of_holds isStage rfl
  cases action with
  | succeed =>
    simp only [folderStep, isStage] at taken
    cases taken
    refine dedicated.finish (dedicated.settled.report content.instanceId ?_) mine rfl nothing
      fun _ at' => at'
    intro _ path other found same
    cases dedicated.settled.single path manifest other content found isThere same
    exact (tracked_iff nothing _).mpr isIndexed
  | fail restored =>
    simp only [folderStep, isStage] at taken
    cases taken
    exact dedicated.failed mine nothing content.instanceId
  | _ => simp [folderStep, isStage] at taken

theorem Dedicated.step_configured {spec : FolderManifest}
    (isStage : state.stages id = .configured spec folder) :
    Dedicated data next := by
  obtain ⟨mine, nothing, isThere, clear⟩ := dedicated.of_holds isStage rfl
  cases action with
  | succeed =>
    simp only [folderStep, isStage] at taken
    cases taken
    exact dedicated.refuse mine nothing
  | fail restored =>
    simp only [folderStep, isStage] at taken
    split at taken
    · cases taken
      obtain ⟨settled, kept⟩ := dedicated.moveFolder nothing isThere clear
      exact dedicated.finish settled mine rfl nothing kept
    · cases taken
      exact dedicated.refuse mine nothing
  | _ => simp [folderStep, isStage] at taken

theorem Dedicated.step_resuming (isStage : state.stages id = .resuming) : Dedicated data next := by
  cases action with
  | resume retained =>
    simp only [folderStep, isStage] at taken
    split at taken
    · cases taken
    rename_i content isThere
    have onHost (path : FilePath) (other : FolderManifest)
        (found : state.manifests path = some other)
        (same : other.instanceId = content.instanceId) : path = data.nativeManifest :=
      dedicated.settled.single path data.nativeManifest other content found isThere same
    split at taken
    · cases taken
      refine dedicated.become rfl ?_
      rintro _ ⟨⟩
      exact ⟨dedicated.settled.manifest_lt isThere, onHost⟩
    · cases taken
      refine dedicated.report content.instanceId ?_
      intro _ path other found same
      cases onHost path other found same
      exact .inl native_mem_candidates
  | fail restored =>
    simp only [folderStep, isStage] at taken
    split at taken
    · cases taken
      exact dedicated.become rfl nofun
    · cases taken
      exact dedicated.report _ nofun
  | _ => simp [folderStep, isStage] at taken

theorem Dedicated.step_resumed (isStage : state.stages id = .resumed instanceId) :
    Dedicated data next := by
  have resumedAt := dedicated.aside id instanceId (by rw [isStage]; rfl)
  cases action with
  | acquireRegistry =>
    simp only [folderStep, isStage] at taken
    split at taken
    · cases taken
      exact dedicated.report instanceId nofun
    · cases taken
      refine (dedicated.become rfl ?_).lockRegistry _
      rintro _ ⟨⟩
      exact resumedAt
  | fail restored =>
    simp only [folderStep, isStage] at taken
    cases taken
    exact dedicated.report instanceId nofun
  | _ => simp [folderStep, isStage] at taken

variable (complete : IndexComplete data state (id, action))
include complete

theorem Dedicated.step_holding (isStage : state.stages id = .holding request) :
    Dedicated data next := by
  obtain ⟨mine, nothing⟩ := dedicated.of_holds isStage rfl
  cases action with
  | refuse =>
    simp only [folderStep, isStage] at taken
    cases taken
    exact dedicated.refuse mine nothing
  | check readable unread =>
    obtain ⟨rfl, isRead⟩ : readable = true ∧
        ∀ path ∈ state.candidates data true, path ∈ unread → state.manifests path = none := by
      simpa [IndexComplete, isStage] using complete
    simp only [folderStep, isStage] at taken
    cases isFolder : request.folder with
    | none =>
      rw [isFolder] at taken
      cases taken
    | some compared =>
      rw [isFolder] at taken
      simp only at taken
      split at taken
      · case isTrue passed =>
          cases taken
          refine dedicated.advance mine nothing ⟨nothing, ?_⟩ rfl
          intro excluded other same
          rw [isFolder] at same
          cases same
          exact clear_of_isDedicated dedicated.settled.single isRead passed
      · cases taken
        exact dedicated.refuse mine nothing
  | acquireRegistry =>
    cases request with
    | purge manifest =>
      simp only [folderStep, isStage] at taken
      split at taken
      · cases taken
        exact dedicated.refuse mine nothing
      · cases taken
        exact dedicated.advanceLocked mine nothing nothing rfl
    | _ => simp [folderStep, isStage] at taken
  | _ => simp [folderStep, isStage] at taken

theorem Dedicated.step_checked (isStage : state.stages id = .checked request) :
    Dedicated data next := by
  obtain ⟨mine, nothing, clear⟩ := dedicated.of_holds isStage rfl
  cases action with
  | refuse =>
    simp only [folderStep, isStage] at taken
    cases taken
    exact dedicated.refuse mine nothing
  | publish =>
    cases request with
    | compose manifest folder =>
      have absent : state.manifests manifest = none := by
        simpa [IndexComplete, isStage] using complete
      simp only [folderStep, isStage] at taken
      cases taken
      exact dedicated.publish mine nothing absent (clear none folder rfl)
    | native folder =>
      have absent : state.manifests data.nativeManifest = none := by
        simpa [IndexComplete, isStage] using complete
      simp only [folderStep, isStage] at taken
      cases taken
      exact dedicated.publish mine nothing absent (clear none folder rfl)
    | configure spec folder =>
      simp only [folderStep, isStage] at taken
      split at taken
      · case isTrue isThere =>
          cases taken
          have before := dedicated.settled.clear nothing native_mem_candidates isThere
          obtain ⟨settled, kept⟩ :=
            dedicated.moveFolder nothing isThere (clear (some spec.instanceId) folder rfl)
          refine dedicated.alone (settled.become id _) (.inr mine) rfl (fun _ => nothing)
            (fun _ => ⟨mine, nothing, update_self _ _ _, ?_⟩) kept rfl
          intro path content isIndexed found different
          refine before path content isIndexed ?_ different
          have apart : path ≠ data.nativeManifest := by
            rintro rfl
            change Function.update state.manifests data.nativeManifest _ _ = _ at found
            rw [update_self] at found
            cases found
            exact different rfl
          exact (update_of_ne apart _ _).symm.trans found
      · cases taken
        exact dedicated.refuse mine nothing
    | purge manifest => simp [folderStep, isStage] at taken
  | resume retained =>
    cases request with
    | native folder =>
      simp only [folderStep, isStage] at taken
      split at taken
      · case _ content isThere =>
          cases taken
          exact dedicated.advance mine nothing ⟨nothing, isThere⟩ rfl
      · cases taken
    | _ => simp [folderStep, isStage] at taken
  | _ => simp [folderStep, isStage] at taken

theorem Dedicated.step_registering (isStage : state.stages id = .registering manifest content) :
    Dedicated data next := by
  obtain ⟨mine, nothing, isThere, clear⟩ := dedicated.of_holds isStage rfl
  cases action with
  | update readable =>
    obtain rfl : readable = true := by simpa [IndexComplete, isStage] using complete
    simp only [folderStep, isStage] at taken
    cases taken
    have settled := dedicated.settled.register_clear nothing isThere clear
    refine dedicated.alone (settled.become id _) (.inr mine) rfl (fun _ => nothing)
      (fun _ => ⟨mine, nothing, ?_, content, isThere, rfl⟩) (fun _ at' => at') rfl
    exact (mem_register manifest manifest).mpr (.inr rfl)
  | fail restored =>
    simp only [folderStep, isStage] at taken
    cases taken
    exact (dedicated.failed mine nothing content.instanceId).lockRegistry none
  | _ => simp [folderStep, isStage] at taken

theorem Dedicated.step_unregistering (isStage : state.stages id = .unregistering manifest) :
    Dedicated data next := by
  obtain ⟨mine, nothing⟩ := dedicated.of_holds isStage rfl
  cases action with
  | update readable =>
    obtain rfl : readable = true := by simpa [IndexComplete, isStage] using complete
    simp only [folderStep, isStage] at taken
    cases taken
    refine dedicated.alone ((dedicated.settled.unregister nothing).become id _) (.inr mine)
      rfl ?_ ?_ (fun _ at' => at') rfl
    · intro isFree
      exact absurd (isFree.symm.trans mine) nofun
    · refine fun _ => ⟨mine, ?_⟩
      by_cases isIn : manifest ∈ state.registry
      · exact .inr (if_pos isIn)
      · exact .inl (if_neg isIn)
  | fail restored =>
    simp only [folderStep, isStage] at taken
    cases taken
    exact (dedicated.refuse mine nothing).lockRegistry none
  | _ => simp [folderStep, isStage] at taken

theorem Dedicated.step_unregistered (isStage : state.stages id = .unregistered manifest) :
    Dedicated data next := by
  obtain ⟨mine, removing⟩ := dedicated.of_holds isStage rfl
  cases action with
  | unlink fails =>
    obtain rfl : fails = false := by simpa [IndexComplete, isStage] using complete
    simp only [folderStep, isStage] at taken
    cases taken
    refine dedicated.finish (dedicated.settled.unlinkManifest removing) mine rfl rfl ?_
    intro instanceId resumedAt
    exact resumedAt.removed le_rfl rfl
  | _ => simp [folderStep, isStage] at taken

theorem Dedicated.step_starting (isStage : state.stages id = .starting manifest instanceId) :
    Dedicated data next := by
  cases action with
  | succeed =>
    have isIndexed : manifest ∈ state.candidates data true := by
      simpa [IndexComplete, isStage] using complete
    simp only [folderStep, isStage] at taken
    split at taken
    · case isTrue isThere =>
        cases taken
        obtain ⟨content, found, rfl⟩ := Option.map_eq_some_iff.mp isThere
        refine dedicated.report content.instanceId ?_
        intro _ path other isOther same
        cases dedicated.settled.single path manifest other content isOther found same
        exact .inl isIndexed
    · cases taken
  | fail restored =>
    simp only [folderStep, isStage] at taken
    cases taken
    exact dedicated.report instanceId nofun
  | _ => simp [folderStep, isStage] at taken

theorem Dedicated.step_resumedRegistering
    (isStage : state.stages id = .resumedRegistering instanceId) :
    Dedicated data next := by
  have resumedAt := dedicated.aside id instanceId (by rw [isStage]; rfl)
  cases action with
  | update readable =>
    obtain rfl : readable = true := by simpa [IndexComplete, isStage] using complete
    simp only [folderStep, isStage] at taken
    cases taken
    refine dedicated.outside ((dedicated.settled.register_native.report instanceId ?_).become
      id .ended) rfl rfl rfl rfl rfl rfl mem_register_native nofun
    intro _ path content found same
    cases resumedAt.2 path content found same
    exact .inl native_mem_candidates
  | fail restored =>
    simp only [folderStep, isStage] at taken
    cases taken
    have failed : Dedicated data ((state.report instanceId false).become id .ended) :=
      dedicated.report instanceId nofun
    exact failed.lockRegistry none
  | _ => simp [folderStep, isStage] at taken

end

theorem Dedicated.step {event : FolderEvent}
    (complete : IndexComplete data state event) (taken : folderStep data state event = some next) :
    Dedicated data next := by
  obtain ⟨id, action⟩ := event
  cases isStage : state.stages id with
  | idle => exact dedicated.step_idle isStage taken
  | preparing request => exact dedicated.step_preparing taken isStage
  | holding request => exact dedicated.step_holding taken complete isStage
  | checked request => exact dedicated.step_checked taken complete isStage
  | written manifest content before => exact dedicated.step_written taken isStage
  | committed content => exact dedicated.step_committed taken isStage
  | registering manifest content => exact dedicated.step_registering taken complete isStage
  | registered manifest instanceId => exact dedicated.step_registered taken isStage
  | configured spec folder => exact dedicated.step_configured taken isStage
  | unregistering manifest => exact dedicated.step_unregistering taken complete isStage
  | unregistered manifest => exact dedicated.step_unregistered taken complete isStage
  | starting manifest instanceId => exact dedicated.step_starting taken complete isStage
  | resuming => exact dedicated.step_resuming taken isStage
  | resumed instanceId => exact dedicated.step_resumed taken isStage
  | resumedRegistering instanceId => exact dedicated.step_resumedRegistering taken complete isStage
  | ended => simp [folderStep, isStage] at taken

end

theorem run_foldersDedicated (data : UserData) (events : List FolderEvent) (final : FolderState)
    (complete : Along (folderStep data) (IndexComplete data) .start events)
    (reached : run (folderStep data) .start events = some final) : FoldersDedicated data final := by
  have dedicated : Dedicated data final :=
    run_invariant (Dedicated data) (fun _ _ _ holds guard taken => holds.step guard taken) .start
      complete reached
  exact dedicated.settled.foldersDedicated

end Dedicated

/-! ### A registration that meets a busy lock -/

def sampleFile (parts : List String) : FilePath :=
  { root := ['/'], parts := parts.map String.toList }

def sampleUserData : UserData :=
  { resolve := id
    nativeManifest := sampleFile ["etc", "xferry", "deployment.json"]
    bundleManifest := sampleFile ["home", "op", "deployment", ".xferry-deployment.json"] }

def sampleShared : FilePath := sampleFile ["srv", "shared"]

def sampleBundle (name : String) : FilePath :=
  sampleFile ["srv", name, ".xferry-deployment.json"]

def bundleWritten (id : Nat) (name : String) : List FolderEvent :=
  [(id, .beginCompose (sampleBundle name) sampleShared), (id, .acquire), (id, .check true []),
    (id, .publish)]

def bundleRegistered (id : Nat) : List FolderEvent :=
  [(id, .acquireRegistry), (id, .update true), (id, .succeed)]

def hostDeployed : List FolderEvent :=
  [(0, .beginNative (sampleFile ["srv", "host"])), (0, .acquire), (0, .check true []),
    (0, .publish), (0, .commit)] ++ bundleRegistered 0

/-- A setup on the host that resumes holds the lock of the index while a bundle registers.
The setup of the bundle is repeated, which only starts it, and another bundle takes its
folder. -/
def busyRegistration : List FolderEvent :=
  hostDeployed ++ [(1, .beginNative sampleShared), (1, .resume true), (1, .acquireRegistry)] ++
    bundleWritten 2 "first" ++ [(2, .acquireRegistry), (1, .update true)] ++
    [(3, .beginCompose (sampleBundle "first") sampleShared), (3, .succeed)] ++
    bundleWritten 4 "second" ++ bundleRegistered 4

def freeRegistration : List FolderEvent :=
  hostDeployed ++ [(1, .beginNative sampleShared), (1, .resume true), (1, .acquireRegistry),
    (1, .update true)] ++ bundleWritten 2 "first" ++ bundleRegistered 2 ++
    [(3, .beginCompose (sampleBundle "first") sampleShared), (3, .succeed),
      (4, .beginCompose (sampleBundle "second") sampleShared), (4, .acquire), (4, .check true [])]

theorem busyRegistration_shared :
    ∃ final, run (folderStep sampleUserData) .start busyRegistration = some final ∧
      final.deployments 1 = some { filesDir := sampleShared, succeeded := true } ∧
      final.deployments 2 = some { filesDir := sampleShared, succeeded := true } ∧
      ¬ FoldersDedicated sampleUserData final := by
  refine ⟨_, rfl, rfl, rfl, ?_⟩
  intro dedicated
  have apart := dedicated 1 2 _ _ (by decide) rfl rfl rfl rfl
  revert apart
  decide +kernel

theorem freeRegistration_dedicated :
    ∃ final, run (folderStep sampleUserData) .start freeRegistration = some final ∧
      FoldersDedicated sampleUserData final := by
  obtain ⟨final, reached⟩ : ∃ final,
      run (folderStep sampleUserData) .start freeRegistration = some final := ⟨_, rfl⟩
  exact ⟨final, reached, run_foldersDedicated _ _ _ (by decide +kernel) reached⟩

end XFerry.Management
