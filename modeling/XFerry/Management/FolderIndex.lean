/-
The public files folders of the deployments under one user data directory.

Manifests live with their deployments, and an index of their paths, `instances.json`, lives
apart from them.  A setup compares its folder with those of the manifests that the index
leads to, so a deployment that is not indexed is invisible to it.
-/

import XFerry.EventMachine
import XFerry.OrderedDict
import XFerry.Server.StoredFiles

namespace XFerry.Management

open EventMachine Function
open Server (FilePath)

def overlaps (first second : FilePath) : Bool :=
  first = second || first.isRelativeTo second || second.isRelativeTo first

theorem overlaps_comm (first second : FilePath) :
    overlaps first second = overlaps second first := by
  rw [overlaps, overlaps, Bool.or_assoc, Bool.or_assoc, Bool.or_comm (first.isRelativeTo second)]
  congr 1
  exact decide_eq_decide.mpr eq_comm

/-- What stays as it is: how paths resolve, and the two manifests that need no index. -/
structure UserData where
  resolve : FilePath → FilePath
  nativeManifest : FilePath
  bundleManifest : FilePath

/-- What a manifest says of its deployment.  `uuid4` never gives an identity twice. -/
structure FolderManifest where
  instanceId : Nat
  filesDir : FilePath
deriving DecidableEq

/-- A deployment, and whether its most recent setup or start reported success. -/
structure FolderDeployment where
  filesDir : FilePath
  succeeded : Bool

inductive FolderRequest where
  | compose (manifest filesDir : FilePath)
  | native (filesDir : FilePath)
  | configure (spec : FolderManifest) (filesDir : FilePath)
  | purge (manifest : FilePath)

inductive FolderStage where
  | idle
  | preparing (request : FolderRequest)
  /-- The lock of `deployment-setup` is held. -/
  | holding (request : FolderRequest)
  /-- The folder has been compared with those of the others. -/
  | checked (request : FolderRequest)
  /-- A setup has written its manifest, in the place of `before`. -/
  | written (manifest : FilePath) (content : FolderManifest) (before : Option FolderManifest)
  /-- The setup on the host is complete but for its registration. -/
  | committed (content : FolderManifest)
  /-- The lock of the index is held. -/
  | registering (manifest : FilePath) (content : FolderManifest)
  | registered (manifest : FilePath) (instanceId : Nat)
  | configured (spec : FolderManifest) (filesDir : FilePath)
  | unregistering (manifest : FilePath)
  | unregistered (manifest : FilePath)
  | starting (manifest : FilePath) (instanceId : Nat)
  /-- A setup on the host has found a manifest, and takes it up. -/
  | resuming
  | resumed (instanceId : Nat)
  | resumedRegistering (instanceId : Nat)
  | ended

structure FolderState where
  manifests : FilePath → Option FolderManifest
  /-- The paths in `instances.json`. -/
  registry : List FilePath
  setupLock : Option Nat
  registryLock : Option Nat
  stages : Nat → FolderStage
  created : Nat
  deployments : Nat → Option FolderDeployment
  /-- A manifest that was indexed, between its removal from the index and its own. -/
  removing : Option FilePath

namespace FolderState

def start : FolderState :=
  { manifests := fun _ => none
    registry := []
    setupLock := none
    registryLock := none
    stages := fun _ => .idle
    created := 0
    deployments := fun _ => none
    removing := none }

variable (state : FolderState)

def become (id : Nat) (stage : FolderStage) : FolderState :=
  { state with stages := Function.update state.stages id stage }

def finish (id : Nat) : FolderState :=
  { state.become id .ended with setupLock := none }

def report (instanceId : Nat) (succeeded : Bool) : FolderState :=
  { state with
    deployments := Function.update state.deployments instanceId
      ((state.deployments instanceId).map fun deployment =>
        { deployment with succeeded := succeeded }) }

def releaseRegistry : FolderState := { state with registryLock := none }

/-- `_registry_paths`: a document that cannot be read has no paths. -/
def registryPaths (readable : Bool) : List FilePath :=
  if readable then state.registry else []

/-- The candidates of `discover_instances`. -/
def candidates (data : UserData) (readable : Bool) : List FilePath :=
  state.registryPaths readable ++ [data.nativeManifest, data.bundleManifest]

/-- `discover_instances`, where the manifests of `unread` cannot be loaded. -/
def discoverInstances (data : UserData) (readable : Bool) (unread : List FilePath) :
    OrderedDict Nat FolderManifest :=
  ((state.candidates data readable).filterMap fun path =>
      if path ∈ unread then none else state.manifests path).foldl
    (fun found item => found.assign item.instanceId item) OrderedDict.empty

/-- `ensure_dedicated_files_folder`, but for the comparison of inodes, which only refuses
more. -/
def isDedicated (data : UserData) (readable : Bool) (unread : List FilePath)
    (excludeId : Option Nat) (folder : FilePath) : Bool :=
  (state.discoverInstances data readable unread).entries.all fun entry =>
    some entry.1 = excludeId || !overlaps (data.resolve folder) (data.resolve entry.2.filesDir)

def publish (manifest filesDir : FilePath) : FolderState :=
  { state with
    manifests := Function.update state.manifests manifest
      (some { instanceId := state.created, filesDir := filesDir })
    created := state.created + 1
    deployments := Function.update state.deployments state.created
      (some { filesDir := filesDir, succeeded := false }) }

def withdraw (manifest : FilePath) (instanceId : Nat) (before : Option FolderManifest) :
    FolderState :=
  { state with
    manifests := Function.update state.manifests manifest before
    deployments := Function.update state.deployments instanceId none }

def moveFolder (manifest : FilePath) (instanceId : Nat) (filesDir : FilePath) : FolderState :=
  { state with
    manifests := Function.update state.manifests manifest
      (some { instanceId := instanceId, filesDir := filesDir })
    deployments := Function.update state.deployments instanceId
      ((state.deployments instanceId).map fun deployment =>
        { deployment with filesDir := filesDir }) }

/-- `register_instance`, under the lock of the index. -/
def register (readable : Bool) (manifest : FilePath) : FolderState :=
  { state with
    registry :=
      if manifest ∈ state.registryPaths readable then state.registryPaths readable
      else state.registryPaths readable ++ [manifest]
    registryLock := none }

/-- `unregister_instance`, under the lock of the index. -/
def unregister (readable : Bool) (manifest : FilePath) : FolderState :=
  { state with
    registry := (state.registryPaths readable).filter fun path => path ≠ manifest
    registryLock := none
    removing := if manifest ∈ state.registry then some manifest else none }

def unlinkManifest (manifest : FilePath) : FolderState :=
  { state with
    manifests := Function.update state.manifests manifest none
    deployments :=
      match state.manifests manifest with
      | some content => Function.update state.deployments content.instanceId none
      | none => state.deployments
    removing := none }

end FolderState

inductive FolderAction where
  | beginCompose (manifest filesDir : FilePath)
  | beginNative (filesDir : FilePath)
  | beginConfigure (filesDir : FilePath)
  | beginPurge (manifest : FilePath)
  | beginStart (manifest : FilePath)
  /-- An exception before anything is published. -/
  | refuse
  | acquire
  | check (readable : Bool) (unread : List FilePath)
  | publish
  /-- An exception later on, after which a rollback succeeds or not. -/
  | fail (restored : Bool)
  | commit
  | acquireRegistry
  | update (readable : Bool)
  | resume (retained : Bool)
  | succeed
  | unlink (fails : Bool)

abbrev FolderEvent := Nat × FolderAction

def FolderRequest.folder : FolderRequest → Option (Option Nat × FilePath)
  | .compose _ filesDir | .native filesDir => some (none, filesDir)
  | .configure spec filesDir => some (some spec.instanceId, filesDir)
  | .purge _ => none

def folderStep (data : UserData) : Machine FolderState FolderEvent := fun state event =>
  let id := event.1
  match state.stages id, event.2 with
  | .idle, .beginCompose manifest filesDir =>
    if manifest = data.nativeManifest then none
    else match state.manifests manifest with
      -- A bundle that is there is started.
      | some content => some (state.become id (.starting manifest content.instanceId))
      | none => some (state.become id (.preparing (.compose manifest filesDir)))
  | .idle, .beginNative filesDir =>
    match state.manifests data.nativeManifest with
    | some _ => some (state.become id .resuming)
    | none => some (state.become id (.preparing (.native filesDir)))
  | .idle, .beginConfigure filesDir =>
    match state.manifests data.nativeManifest with
    | some spec => some (state.become id (.preparing (.configure spec filesDir)))
    | none => some (state.become id .ended)
  | .idle, .beginPurge manifest =>
    some (state.become id (.preparing (.purge manifest)))
  | .idle, .beginStart manifest =>
    match state.manifests manifest with
    | some content => some (state.become id (.starting manifest content.instanceId))
    | none => some (state.become id .ended)
  | .preparing _, .refuse => some (state.become id .ended)
  | .preparing request, .acquire =>
    match state.setupLock with
    | some _ => some (state.become id .ended)
    | none => some { state.become id (.holding request) with setupLock := some id }
  | .holding _, .refuse | .checked _, .refuse => some (state.finish id)
  | .holding request, .check readable unread =>
    match request.folder with
    | none => none
    | some (excludeId, filesDir) =>
      if state.isDedicated data readable unread excludeId filesDir then
        some (state.become id (.checked request))
      else some (state.finish id)
  | .checked (.compose manifest filesDir), .publish =>
    some ((state.publish manifest filesDir).become id
      (.written manifest { instanceId := state.created, filesDir := filesDir }
        (state.manifests manifest)))
  | .checked (.native filesDir), .publish =>
    some ((state.publish data.nativeManifest filesDir).become id
      (.written data.nativeManifest { instanceId := state.created, filesDir := filesDir }
        (state.manifests data.nativeManifest)))
  | .checked (.configure spec filesDir), .publish =>
    if state.manifests data.nativeManifest = some spec then
      some ((state.moveFolder data.nativeManifest spec.instanceId filesDir).become id
        (.configured spec filesDir))
    else some (state.finish id)
  -- A native deployment that has come to be there is taken up by `apply`.
  | .checked (.native _), .resume _ =>
    match state.manifests data.nativeManifest with
    | some content => some (state.become id (.committed content))
    | none => none
  | .written manifest content before, .fail restored =>
    if manifest = data.nativeManifest && restored then
      some ((state.withdraw manifest content.instanceId before).finish id)
    else some (state.finish id)
  | .written manifest content _, .commit =>
    if manifest = data.nativeManifest then some (state.become id (.committed content)) else none
  | .written manifest content _, .acquireRegistry =>
    if manifest = data.nativeManifest then none
    else match state.registryLock with
      | some _ => some (state.finish id)
      | none =>
        some { state.become id (.registering manifest content) with registryLock := some id }
  | .committed content, .acquireRegistry =>
    match state.registryLock with
    | some _ => some ((state.report content.instanceId false).finish id)
    | none =>
      some { state.become id (.registering data.nativeManifest content) with
        registryLock := some id }
  | .committed content, .fail _ => some ((state.report content.instanceId false).finish id)
  | .registering manifest content, .update readable =>
    some ((state.register readable manifest).become id (.registered manifest content.instanceId))
  | .registering _ content, .fail _ =>
    some ((state.report content.instanceId false).releaseRegistry.finish id)
  | .registered _ instanceId, .succeed => some ((state.report instanceId true).finish id)
  | .registered _ instanceId, .fail _ => some ((state.report instanceId false).finish id)
  | .configured _ _, .succeed => some (state.finish id)
  | .configured spec _, .fail restored =>
    if restored then
      some ((state.moveFolder data.nativeManifest spec.instanceId spec.filesDir).finish id)
    else some (state.finish id)
  | .holding (.purge manifest), .acquireRegistry =>
    match state.registryLock with
    | some _ => some (state.finish id)
    | none =>
      some { state.become id (.unregistering manifest) with registryLock := some id }
  | .unregistering manifest, .update readable =>
    some ((state.unregister readable manifest).become id (.unregistered manifest))
  | .unregistering _, .fail _ => some (state.releaseRegistry.finish id)
  | .unregistered manifest, .unlink fails =>
    if fails then some { state.finish id with removing := none }
    else some ((state.unlinkManifest manifest).finish id)
  | .starting manifest instanceId, .succeed =>
    -- The manifest is compared again under the lock of the profile.
    if (state.manifests manifest).map FolderManifest.instanceId = some instanceId then
      some ((state.report instanceId true).become id .ended)
    else none
  | .starting _ instanceId, .fail _ => some ((state.report instanceId false).become id .ended)
  | .resuming, .resume retained =>
    match state.manifests data.nativeManifest with
    | none => none
    | some content =>
      if retained then some (state.become id (.resumed content.instanceId))
      else some ((state.report content.instanceId true).become id .ended)
  | .resuming, .fail _ =>
    match state.manifests data.nativeManifest with
    | none => some (state.become id .ended)
    | some content => some ((state.report content.instanceId false).become id .ended)
  | .resumed instanceId, .acquireRegistry =>
    match state.registryLock with
    | some _ => some ((state.report instanceId false).become id .ended)
    | none =>
      some { state.become id (.resumedRegistering instanceId) with registryLock := some id }
  | .resumed instanceId, .fail _ => some ((state.report instanceId false).become id .ended)
  | .resumedRegistering instanceId, .update readable =>
    some (((state.register readable data.nativeManifest).report instanceId true).become id .ended)
  | .resumedRegistering instanceId, .fail _ =>
    some ((state.report instanceId false).releaseRegistry.become id .ended)
  | _, _ => none

/-- Deployments whose most recent setup or start reported success have folders apart. -/
def FoldersDedicated (data : UserData) (state : FolderState) : Prop :=
  ∀ first second deployment other, first ≠ second →
    state.deployments first = some deployment → state.deployments second = some other →
    deployment.succeeded = true → other.succeeded = true →
    overlaps (data.resolve deployment.filesDir) (data.resolve other.filesDir) = false

/-- The index and the manifests it leads to can be read where they are compared or written
anew, a start that reports success is of an indexed deployment, a setup writes its manifest
where there is none, and the manifest of a purged deployment can be removed. -/
def IndexComplete (data : UserData) (state : FolderState) (event : FolderEvent) : Prop :=
  match state.stages event.1, event.2 with
  | _, .check readable unread =>
    readable = true ∧
      ∀ path ∈ state.candidates data true, path ∈ unread → state.manifests path = none
  | .checked (.compose manifest _), .publish => state.manifests manifest = none
  | .checked (.native _), .publish => state.manifests data.nativeManifest = none
  | .starting manifest _, .succeed => manifest ∈ state.candidates data true
  | _, .update readable => readable = true
  | _, .unlink fails => fails = false
  | _, _ => True

instance (data : UserData) (state : FolderState) (event : FolderEvent) :
    Decidable (IndexComplete data state event) := by
  unfold IndexComplete
  split <;> infer_instance

section Discovery

variable {data : UserData} {state : FolderState}

theorem lookup_foldl_assign {items : List FolderManifest} {item : FolderManifest}
    (alone : ∀ other ∈ items, other.instanceId = item.instanceId → other = item)
    (found : OrderedDict Nat FolderManifest)
    (isThere : item ∈ items ∨ found.lookup item.instanceId = some item) :
    (items.foldl (fun found item => found.assign item.instanceId item) found).lookup
      item.instanceId = some item := by
  induction items generalizing found with
  | nil => exact isThere.resolve_left List.not_mem_nil
  | cons head rest ih =>
    refine ih (fun other isIn => alone other (List.mem_cons_of_mem _ isIn)) _ ?_
    by_cases same : head.instanceId = item.instanceId
    · have isItem := alone head List.mem_cons_self same
      refine .inr ?_
      rw [OrderedDict.lookup_assign, if_pos same.symm, isItem]
    rcases isThere with isIn | isFound
    · rcases List.mem_cons.mp isIn with rfl | isIn
      · exact absurd rfl same
      · exact .inl isIn
    refine .inr ?_
    rw [OrderedDict.lookup_assign, if_neg (Ne.symm same)]
    exact isFound

variable {unread : List FilePath}

theorem discoverInstances_complete
    (single : ∀ first second content other, state.manifests first = some content →
      state.manifests second = some other → content.instanceId = other.instanceId →
      first = second) (isRead : ∀ path ∈ state.candidates data true,
      path ∈ unread → state.manifests path = none) {path : FilePath}
    {content : FolderManifest} (isIndexed : path ∈ state.candidates data true)
    (isThere : state.manifests path = some content) :
    (content.instanceId, content) ∈ (state.discoverInstances data true unread).entries := by
  refine OrderedDict.lookup_eq_some.mp (lookup_foldl_assign ?_ _ (.inl ?_))
  · intro other isIn same
    obtain ⟨place, _, loaded⟩ := List.mem_filterMap.mp isIn
    split at loaded
    · cases loaded
    have samePath := single place path other content loaded isThere same
    rw [samePath, isThere] at loaded
    exact (Option.some.inj loaded).symm
  · refine List.mem_filterMap.mpr ⟨path, isIndexed, ?_⟩
    rw [if_neg, isThere]
    intro isUnread
    rw [isRead path isIndexed isUnread] at isThere
    cases isThere

def Clear (data : UserData) (state : FolderState) (excludeId : Option Nat) (folder : FilePath) :
    Prop :=
  ∀ path content, path ∈ state.candidates data true → state.manifests path = some content →
    some content.instanceId ≠ excludeId →
    overlaps (data.resolve folder) (data.resolve content.filesDir) = false

theorem clear_of_isDedicated {excludeId : Option Nat} {folder : FilePath}
    (single : ∀ first second content other, state.manifests first = some content →
      state.manifests second = some other → content.instanceId = other.instanceId →
      first = second) (isRead : ∀ path ∈ state.candidates data true,
      path ∈ unread → state.manifests path = none)
    (dedicated : state.isDedicated data true unread excludeId folder = true) :
    Clear data state excludeId folder := by
  intro path content isIndexed isThere notExcluded
  have isFound := discoverInstances_complete single isRead isIndexed isThere
  have passed := List.all_eq_true.mp dedicated _ isFound
  rcases Bool.or_eq_true_iff.mp passed with isExcluded | apart
  · exact absurd (of_decide_eq_true isExcluded) notExcluded
  · exact Bool.not_eq_true' _ |>.mp apart

end Discovery

end XFerry.Management
