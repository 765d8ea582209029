/-
Deployment manifests and the documents that operations write in their place.

A write is made from a specification that the operation holds, with the receipts of the
files it has changed; the resources of a receipt are keyed by their paths.
-/

import XFerry.Python.Text

namespace XFerry.Management

open List

open Python (Text)

inductive Backend where
  | native
  | docker
  deriving DecidableEq

/-- What `resource_receipt` reads of a file. -/
structure ResourceFacts where
  sha256 : Option Text
  uid : Nat
  gid : Nat
  device : Nat
  inode : Nat
  size : Nat
  modifiedNs : Nat
  mode : Nat
  deriving DecidableEq

inductive ResourceKind where
  | file
  | secret
  | directory
  | tree
  deriving DecidableEq

structure OwnedResource where
  path : Text
  kind : ResourceKind
  facts : ResourceFacts
  deriving DecidableEq

/-- The receipt of `grant_directory_access`. -/
structure AclReceipt where
  path : Text
  uid : Nat
  gid : Nat
  device : Nat
  inode : Nat
  mode : Nat
  before : List (Text × Text)
  after : List (Text × Text)
  deriving DecidableEq

structure OwnershipReceipt where
  resources : List OwnedResource
  acl : List AclReceipt
  accounts : List Text
  deriving DecidableEq

structure Artifact where
  image : Option Text
  version : Option Text
  sha256 : Option Text
  deriving DecidableEq

structure BackendOptions where
  project : Option Text
  credentialsRevealed : Option Bool
  deriving DecidableEq

structure DeploymentSpec where
  instanceId : Text
  backend : Backend
  profile : Text
  filesDir : Text
  stateDir : Text
  artifact : Artifact
  ownership : OwnershipReceipt
  options : BackendOptions
  deriving DecidableEq

/-! ### Receipts -/

/-- `resources[path] = receipt`. -/
def assign (resources : List OwnedResource) (receipt : OwnedResource) : List OwnedResource :=
  if resources.any fun resource => resource.path = receipt.path then
    resources.map fun resource => if resource.path = receipt.path then receipt else resource
  else resources ++ [receipt]

/-- `{resource.path: resource for resource in resources}`, in the order of the dictionary. -/
def keyed (resources : List OwnedResource) : List OwnedResource := resources.foldl assign []

def receiptAt (resources : List OwnedResource) (path : Text) : Option OwnedResource :=
  (resources.filter fun resource => resource.path = path).getLast?

structure Places where
  profile : Text
  runtime : Text
  auth : Text
  unit : Text
  compose : Text
  history : Text
  output : Text

abbrev Readings := Text → ResourceFacts

/-- `resource_receipt`, of a file of the deployment. -/
def resourceReceipt (places : Places) (readings : Readings) (path : Text) : OwnedResource :=
  { path := path
    kind := if path = places.auth then .secret else .file
    facts := readings path }

def directoryReceipt (readings : Readings) (path : Text) : OwnedResource :=
  { path := path, kind := .directory, facts := readings path }

/-- `NativeBackend._receipt`. -/
def nativeReceipt (places : Places) (readings : Readings) (spec : DeploymentSpec)
    (acl : List AclReceipt) (changed : List Text) : DeploymentSpec :=
  { spec with
    ownership :=
      { resources := (changed.map (resourceReceipt places readings)).foldl assign
          (keyed spec.ownership.resources)
        acl := if acl = [] then spec.ownership.acl else acl
        accounts := spec.ownership.accounts } }

/-- The receipts that `ComposeBackend._receipt` takes. -/
def composeChanges (places : Places) (readings : Readings) (spec : DeploymentSpec)
    (changed : List Text) : List OwnedResource :=
  if spec.ownership.resources = [] then
    directoryReceipt readings places.output ::
      [places.profile, places.runtime, places.compose, places.auth].map
        (resourceReceipt places readings)
  else changed.map (resourceReceipt places readings)

/-- `ComposeBackend._receipt`. -/
def composeReceipt (places : Places) (readings : Readings) (spec : DeploymentSpec)
    (acl : List AclReceipt) (changed : List Text) : DeploymentSpec :=
  { spec with
    ownership :=
      { resources := (composeChanges places readings spec changed).foldl assign
          (keyed spec.ownership.resources)
        acl := if acl = [] then spec.ownership.acl else acl
        accounts := [] } }

def receipt (backend : Backend) (places : Places) (readings : Readings) (spec : DeploymentSpec)
    (acl : List AclReceipt) (changed : List Text) : DeploymentSpec :=
  match backend with
  | .native => nativeReceipt places readings spec acl changed
  | .docker => composeReceipt places readings spec acl changed

/-- The receipts that `_receipt` puts among those of a specification. -/
def taken (backend : Backend) (places : Places) (readings : Readings) (spec : DeploymentSpec)
    (changed : List Text) : List OwnedResource :=
  match backend with
  | .native => changed.map (resourceReceipt places readings)
  | .docker => composeChanges places readings spec changed

theorem receiptAt_cons (first : OwnedResource) (rest : List OwnedResource) (path : Text) :
    receiptAt (first :: rest) path =
      (receiptAt rest path).or (if first.path = path then some first else none) := by
  unfold receiptAt
  by_cases same : first.path = path
  · rw [filter_cons_of_pos (by simpa using same), getLast?_cons, if_pos same]
    cases (rest.filter fun resource => resource.path = path).getLast? <;> rfl
  · rw [filter_cons_of_neg (by simpa using same), if_neg same, Option.or_none]

variable {resources : List OwnedResource}

theorem path_of_receiptAt {path : Text} {found : OwnedResource}
    (isFound : receiptAt resources path = some found) : found.path = path := by
  have member := mem_of_getLast? isFound
  exact of_decide_eq_true (mem_filter.mp member).2

theorem receiptAt_isSome_iff {path : Text} :
    (receiptAt resources path).isSome = true ↔ ∃ resource ∈ resources, resource.path = path := by
  rw [receiptAt, getLast?_isSome, ne_eq, filter_eq_nil_iff]
  simp

theorem receiptAt_assign (resources : List OwnedResource) (assigned : OwnedResource) (path : Text) :
    receiptAt (assign resources assigned) path =
      if assigned.path = path then some assigned else receiptAt resources path := by
  unfold assign
  by_cases present : (resources.any fun resource => resource.path = assigned.path) = true
  · rw [if_pos present]
    have kept (resource : OwnedResource) :
        (if resource.path = assigned.path then assigned else resource).path = resource.path := by
      split
      · case isTrue same => exact same.symm
      · rfl
    have mapped : receiptAt (resources.map fun resource =>
          if resource.path = assigned.path then assigned else resource) path =
        (receiptAt resources path).map fun resource =>
          if resource.path = assigned.path then assigned else resource := by
      rw [receiptAt, filter_map, getLast?_map, receiptAt]
      simp only [Function.comp_def, kept]
    rw [mapped]
    by_cases same : assigned.path = path
    · obtain ⟨old, member, isOld⟩ := any_eq_true.mp present
      have oldPath : old.path = path := (of_decide_eq_true isOld).trans same
      obtain ⟨found, isFound⟩ := Option.isSome_iff_exists.mp
        (receiptAt_isSome_iff.mpr ⟨old, member, oldPath⟩)
      rw [isFound, Option.map_some, if_pos same,
        if_pos ((path_of_receiptAt isFound).trans same.symm)]
    · rw [if_neg same]
      cases isFound : receiptAt resources path with
      | none => rfl
      | some found =>
        rw [Option.map_some, if_neg]
        rw [path_of_receiptAt isFound]
        exact fun equal => same equal.symm
  · rw [if_neg present, receiptAt, filter_append]
    by_cases same : assigned.path = path
    · rw [if_pos same, filter_cons_of_pos (by simpa using same), filter_nil,
        getLast?_append, getLast?_singleton, Option.some_or]
    rw [if_neg same, filter_cons_of_neg (by simpa using same), filter_nil, append_nil]
    rfl

theorem receiptAt_foldl (resources changes : List OwnedResource) (path : Text) :
    receiptAt (changes.foldl assign resources) path =
      (receiptAt changes path).or (receiptAt resources path) := by
  induction changes generalizing resources with
  | nil => rfl
  | cons first rest ih =>
    rw [foldl_cons, ih, receiptAt_assign, receiptAt_cons]
    by_cases same : first.path = path
    · rw [if_pos same, if_pos same]
      cases receiptAt rest path <;> rfl
    · rw [if_neg same, if_neg same, Option.or_none]

theorem receiptAt_keyed (resources : List OwnedResource) (path : Text) :
    receiptAt (keyed resources) path = receiptAt resources path := by
  rw [keyed, receiptAt_foldl]
  exact Option.or_none

section Receipt

variable (backend : Backend) (places : Places) (readings : Readings) (spec : DeploymentSpec)
  (acl : List AclReceipt) (changed : List Text)

@[simp] theorem receipt_filesDir :
    (receipt backend places readings spec acl changed).filesDir = spec.filesDir := by
  cases backend <;> rfl

@[simp] theorem receipt_artifact :
    (receipt backend places readings spec acl changed).artifact = spec.artifact := by
  cases backend <;> rfl

@[simp] theorem receipt_options :
    (receipt backend places readings spec acl changed).options = spec.options := by
  cases backend <;> rfl

@[simp] theorem receipt_acl :
    (receipt backend places readings spec acl changed).ownership.acl =
      if acl = [] then spec.ownership.acl else acl := by
  cases backend <;> rfl

theorem receiptAt_receipt (path : Text) :
    receiptAt (receipt backend places readings spec acl changed).ownership.resources path =
      (receiptAt (taken backend places readings spec changed) path).or
        (receiptAt spec.ownership.resources path) := by
  cases backend with
  | native | docker => rw [← receiptAt_keyed spec.ownership.resources, ← receiptAt_foldl]; rfl

end Receipt

/-! ### Operations -/

/-- The operations, with the texts and the folder that `configure` is given. -/
inductive Request where
  | configure (candidate expectedText : Text) (filesDir : Option Text)
  | credentials
  | start
  | update
  | rollback

/-- What an operation is answered under the lock: the receipts of the access it granted,
the artifact that was selected, and what the files are found to be at each of its
writes. -/
structure Answers where
  acl : List AclReceipt
  artifact : Artifact
  readings : Nat → Readings

inductive Write where
  /-- A specification with the receipts of the changed files. -/
  | receipt (spec : DeploymentSpec) (acl : List AclReceipt) (changed : List Text)
  | document (spec : DeploymentSpec)
  /-- The specification as it is read again, with `credentials_revealed`. -/
  | reveal

def Write.written (backend : Backend) (places : Places) (readings : Readings)
    (current : DeploymentSpec) : Write → DeploymentSpec
  | .receipt spec acl changed => Management.receipt backend places readings spec acl changed
  | .document spec => spec
  | .reveal => { current with options := { current.options with credentialsRevealed := some true } }

def nextSpec (spec : DeploymentSpec) (filesDir : Option Text) : DeploymentSpec :=
  { spec with filesDir := filesDir.getD spec.filesDir }

def writes (backend : Backend) (places : Places) (answers : Answers) (spec : DeploymentSpec) :
    Request → List Write
  | .configure _ _ filesDir =>
    let next := nextSpec spec filesDir
    match backend with
    | .native =>
      [.receipt next
        (spec.ownership.acl ++ if next.filesDir ≠ spec.filesDir then answers.acl else [])
        ([places.profile, places.runtime] ++
          if next.filesDir ≠ spec.filesDir then [places.unit] else [])]
    | .docker => [.receipt spec [] [places.profile, places.runtime, places.compose]]
  | .credentials => [.receipt spec [] [places.auth]]
  | .start =>
    match backend with
    | .native => []
    | .docker =>
      (if answers.acl = [] then []
        else [.receipt spec
          ((spec.ownership.acl.filter fun entry => entry.path ≠ spec.filesDir) ++ answers.acl)
          []]) ++
        if spec.options.credentialsRevealed = some false then [.reveal] else []
  | .update | .rollback =>
    let candidate := { spec with artifact := answers.artifact }
    match backend with
    | .native => [.document candidate]
    | .docker =>
      [.receipt candidate [] [places.compose],
        .receipt candidate [] [places.compose, places.history]]

def afterWrites (backend : Backend) (places : Places) (readings : Nat → Readings)
    (manifest : DeploymentSpec) (made : List Write) : DeploymentSpec :=
  made.zipIdx.foldl (fun document write => write.1.written backend places
    (readings write.2) document)
    manifest

structure Commit where
  request : Request
  answers : Answers

def Commit.perform (backend : Backend) (places : Places) (manifest : DeploymentSpec)
    (commit : Commit) : DeploymentSpec :=
  afterWrites backend places commit.answers.readings manifest
    (writes backend places commit.answers manifest commit.request)

def inOrder (backend : Backend) (places : Places) (manifest : DeploymentSpec)
    (commits : List Commit) : DeploymentSpec :=
  commits.foldl (fun document commit => commit.perform backend places document) manifest

/-! ### What an operation changes -/

section Changes

variable {backend : Backend} {places : Places}

theorem afterWrites_succ {readings : Nat → Readings} {manifest : DeploymentSpec}
    {made : List Write} {count : Nat} {write : Write} (next : made[count]? = some write) :
    afterWrites backend places readings manifest (made.take (count + 1)) =
      write.written backend places (readings count)
        (afterWrites backend places readings manifest (made.take count)) := by
  have short : (made.take count).length = count := by
    have inside := (List.getElem?_eq_some_iff.mp next).1
    rw [length_take]
    omega
  rw [take_add_one, next, Option.toList_some, afterWrites, zipIdx_append, foldl_append, short]
  simp [afterWrites]

section

variable (manifest : DeploymentSpec)
include manifest

theorem inOrder_append (commits : List Commit) (commit : Commit) :
    inOrder backend places manifest (commits ++ [commit]) =
      commit.perform backend places (inOrder backend places manifest commits) := by
  rw [inOrder, foldl_append]
  rfl

theorem perform_configure (candidate expectedText : Text)
    (filesDir : Option Text) (answers : Answers) :
    Commit.perform .native places manifest
        { request := .configure candidate expectedText filesDir, answers := answers } =
      receipt .native places (answers.readings 0) (nextSpec manifest filesDir)
        (manifest.ownership.acl ++
          if (nextSpec manifest filesDir).filesDir ≠ manifest.filesDir then answers.acl else [])
        ([places.profile, places.runtime] ++
          if (nextSpec manifest filesDir).filesDir ≠ manifest.filesDir then [places.unit]
          else []) :=
  rfl

theorem perform_composeConfigure (candidate expectedText : Text)
    (filesDir : Option Text) (answers : Answers) :
    Commit.perform .docker places manifest
        { request := .configure candidate expectedText filesDir, answers := answers } =
      receipt .docker places (answers.readings 0) manifest []
        [places.profile, places.runtime, places.compose] := rfl

theorem perform_credentials (answers : Answers) :
    Commit.perform backend places manifest { request := .credentials, answers := answers } =
      receipt backend places (answers.readings 0) manifest [] [places.auth] := rfl

theorem perform_update (answers : Answers) :
    Commit.perform .docker places manifest { request := .update, answers := answers } =
      receipt .docker places (answers.readings 1) { manifest with artifact := answers.artifact } []
        [places.compose, places.history] := rfl

theorem perform_rollback (answers : Answers) :
    Commit.perform .docker places manifest { request := .rollback, answers := answers } =
      receipt .docker places (answers.readings 1) { manifest with artifact := answers.artifact } []
        [places.compose, places.history] := rfl

theorem perform_start (answers : Answers) :
    Commit.perform .docker places manifest { request := .start, answers := answers } =
      let granted :=
        if answers.acl = [] then manifest
        else receipt .docker places (answers.readings 0) manifest
          ((manifest.ownership.acl.filter fun entry => entry.path ≠ manifest.filesDir) ++
            answers.acl) []
      if manifest.options.credentialsRevealed = some false then
        { granted with options := { granted.options with credentialsRevealed := some true } }
      else granted := by
  unfold Commit.perform writes
  by_cases nothing : answers.acl = [] <;>
    by_cases hidden : manifest.options.credentialsRevealed = some false <;>
      simp only [nothing, hidden, if_true, if_false, nil_append, append_nil, cons_append] <;>
      rfl

end

variable (backend places) in
structure Gives (α : Type) where
  field : DeploymentSpec → α
  given : DeploymentSpec → Commit → Option α
  performed : ∀ manifest commit,
    field (commit.perform backend places manifest) = (given manifest commit).getD (field manifest)

def lastGiven {α : Type} (backend : Backend) (places : Places)
    (given : DeploymentSpec → Commit → Option α) : DeploymentSpec → α → List Commit → α
  | _, value, [] => value
  | manifest, value, commit :: rest =>
    lastGiven backend places given (commit.perform backend places manifest)
      ((given manifest commit).getD value) rest

/-- The field has the value given by the last operation that gives it one. -/
def Gives.Last {α : Type} (gives : Gives backend places α) (initial : DeploymentSpec)
    (commits : List Commit) (manifest : DeploymentSpec) : Prop :=
  gives.field manifest = lastGiven backend places gives.given initial (gives.field initial) commits

theorem Gives.last_inOrder {α : Type} (gives : Gives backend places α) (manifest : DeploymentSpec)
    (commits : List Commit) :
    gives.Last manifest commits (inOrder backend places manifest commits) := by
  unfold Gives.Last
  induction commits generalizing manifest with
  | nil => rfl
  | cons commit rest ih =>
    have tail := ih (commit.perform backend places manifest)
    rw [gives.performed] at tail
    exact tail

variable (backend places)

def givesFilesDir : Gives backend places Text where
  field manifest := manifest.filesDir
  given _ commit :=
    match backend, commit.request with
    | .native, .configure _ _ filesDir => filesDir
    | _, _ => none
  performed manifest commit := by
    obtain ⟨request, answers⟩ := commit
    cases backend with
    | native =>
      cases request with
      | configure | credentials | start | update | rollback => rfl
    | docker =>
      cases request with
      | configure | credentials | update | rollback => rfl
      | start =>
        rw [perform_start]
        dsimp only
        split_ifs <;> simp

def givesArtifact : Gives backend places Artifact where
  field manifest := manifest.artifact
  given _ commit :=
    match commit.request with
    | .update | .rollback => some commit.answers.artifact
    | _ => none
  performed manifest commit := by
    obtain ⟨request, answers⟩ := commit
    cases backend with
    | native =>
      cases request with
      | configure | credentials | start | update | rollback => rfl
    | docker =>
      cases request with
      | configure | credentials | update | rollback => rfl
      | start =>
        rw [perform_start]
        dsimp only
        split_ifs <;> simp

def givesRevealed : Gives backend places (Option Bool) where
  field manifest := manifest.options.credentialsRevealed
  given manifest commit :=
    match backend, commit.request with
    | .docker, .start =>
      if manifest.options.credentialsRevealed = some false then some (some true) else none
    | _, _ => none
  performed manifest commit := by
    obtain ⟨request, answers⟩ := commit
    cases backend with
    | native =>
      cases request with
      | configure | credentials | start | update | rollback => rfl
    | docker =>
      cases request with
      | configure | credentials | update | rollback => rfl
      | start =>
        rw [perform_start]
        dsimp only
        split_ifs <;> simp

theorem or_append_eq (acl added : List AclReceipt) :
    (if acl ++ added = [] then acl else acl ++ added) = acl ++ added := by
  by_cases nothing : acl ++ added = []
  · rw [if_pos nothing, nothing]
    exact (append_eq_nil_iff.mp nothing).1
  · exact if_neg nothing

/-- The receipts of access are given by `configure` with another folder and by a start
that grants access. -/
def givesAcl : Gives backend places (List AclReceipt) where
  field manifest := manifest.ownership.acl
  given manifest commit :=
    match backend, commit.request with
    | .native, .configure _ _ filesDir =>
      if (nextSpec manifest filesDir).filesDir ≠ manifest.filesDir then
        some (manifest.ownership.acl ++ commit.answers.acl)
      else none
    | .docker, .start =>
      if commit.answers.acl = [] then none
      else some ((manifest.ownership.acl.filter fun entry => entry.path ≠ manifest.filesDir) ++
        commit.answers.acl)
    | _, _ => none
  performed manifest commit := by
    obtain ⟨request, answers⟩ := commit
    cases backend with
    | native =>
      cases request with
      | configure candidate expectedText filesDir =>
        rw [perform_configure, receipt_acl]
        dsimp only
        by_cases moved : (nextSpec manifest filesDir).filesDir ≠ manifest.filesDir
        · rw [if_pos moved, if_pos moved]
          exact or_append_eq _ _
        · rw [if_neg moved, if_neg moved]
          exact (or_append_eq _ _).trans (append_nil _)
      | credentials | start | update | rollback => rfl
    | docker =>
      cases request with
      | configure | credentials => rfl
      | start =>
        rw [perform_start]
        dsimp only
        by_cases nothing : answers.acl = []
        · split_ifs <;> rfl
        · split_ifs <;> simp [nothing]
      | update | rollback =>
        rfl

def Commit.takes (commit : Commit) (manifest : DeploymentSpec) : List OwnedResource :=
  match backend, commit.request with
  | .native, .configure _ _ filesDir =>
    taken .native places (commit.answers.readings 0) manifest
      ([places.profile, places.runtime] ++
        if (nextSpec manifest filesDir).filesDir ≠ manifest.filesDir then [places.unit] else [])
  | .docker, .configure _ _ _ =>
    taken .docker places (commit.answers.readings 0) manifest
      [places.profile, places.runtime, places.compose]
  | backend, .credentials => taken backend places (commit.answers.readings 0) manifest [places.auth]
  | .docker, .start =>
    if commit.answers.acl = [] then []
    else taken .docker places (commit.answers.readings 0) manifest []
  | .docker, .update | .docker, .rollback =>
    taken .docker places (commit.answers.readings 1) manifest [places.compose, places.history]
  | _, _ => []

theorem or_eq_getD {α : Type} (given value : Option α) :
    given.or value = (given.map some).getD value := by
  cases given <;> rfl

def givesReceipt (path : Text) : Gives backend places (Option OwnedResource) where
  field manifest := receiptAt manifest.ownership.resources path
  given manifest commit := (receiptAt (commit.takes backend places manifest) path).map some
  performed manifest commit := by
    obtain ⟨request, answers⟩ := commit
    rw [← or_eq_getD]
    cases backend with
    | native =>
      cases request with
      | configure candidate expectedText filesDir =>
        rw [perform_configure, receiptAt_receipt]
        rfl
      | credentials =>
        rw [perform_credentials, receiptAt_receipt]
        rfl
      | start | update | rollback => rfl
    | docker =>
      cases request with
      | configure candidate expectedText filesDir =>
        rw [perform_composeConfigure, receiptAt_receipt]
        rfl
      | credentials =>
        rw [perform_credentials, receiptAt_receipt]
        rfl
      | start =>
        rw [perform_start]
        dsimp only [Commit.takes]
        by_cases nothing : answers.acl = []
        · rw [if_pos nothing, if_pos nothing]
          split_ifs <;> rfl
        · rw [if_neg nothing, if_neg nothing]
          split_ifs <;> exact receiptAt_receipt ..
      | update =>
        rw [perform_update, receiptAt_receipt]
        rfl
      | rollback =>
        rw [perform_rollback, receiptAt_receipt]
        rfl

end Changes

end XFerry.Management
