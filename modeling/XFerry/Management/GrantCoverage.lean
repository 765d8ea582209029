/-
No grant by a successful operation is left without a receipt, as long as no resumption has to
grant access anew.

Receipts are only added to a manifest, or put in the place of one for the same path; a
resumption keeps them as they are and drops what its own staging returns.
-/

import XFerry.Management.GrantReceipts
import XFerry.Management.GrantRollback

namespace XFerry.Management.GrantReceipts

open PosixAcl EventMachine Function List

variable {resolve : FolderPath → FolderPath}

def InForce (resolve : FolderPath → FolderPath) (world : World) (grant : Grant) : Prop :=
  ∃ directory, world.folders (resolve grant.receipt.path) = some directory ∧
    directory.device = grant.receipt.device ∧ directory.inode = grant.receipt.inode ∧
    listsOf directory = grant.receipt.after

def Covered (world : World) (grant : Grant) : Prop :=
  ∃ manifest, world.manifest grant.deployment = some manifest ∧
    ∃ receipt ∈ manifest.acl, receipt.path = grant.receipt.path

/-- A purge, whatever fails in it, restores the access of the directory after every receipt
for it, or lists it. -/
def Accounted (resolve : FolderPath → FolderPath) (world : World) (grant : Grant) : Prop :=
  ∃ manifest, world.manifest grant.deployment = some manifest ∧ ∀ fails,
    (∀ receipt ∈ manifest.acl, receipt.path = grant.receipt.path →
      receipt ∈ (purgeAccess resolve fails world manifest).restored) ∨
    grant.receipt.path ∈ (purgeAccess resolve fails world manifest).retained

/-- The account has the access that a grant gives it. -/
def HasAccess (uid : Nat) (directory : AclDirectory) : Prop :=
  directory.owner = uid ∧ userBits directory.mode = 7 ∨
    grantLists (listsOf directory) directory.mode directory.owner uid = some (listsOf directory)

instance (uid : Nat) (directory : AclDirectory) : Decidable (HasAccess uid directory) := by
  unfold HasAccess
  infer_instance

/-- A resumption finds the folder missing, its account with access, or a receipt for the
path. -/
def NeedsNoReceipt (resolve : FolderPath → FolderPath) (world : World) (event : Event) : Prop :=
  match event with
  | .resumeNative _ staging _ =>
    ∀ manifest ∈ world.manifest .native,
      ∀ directory ∈ world.folders (resolve (resolve (resolve manifest.filesDir))),
        HasAccess staging.uid directory ∨
          ∃ receipt ∈ manifest.acl, receipt.path = resolve (resolve manifest.filesDir)
  | .outside _ _ | .setupNative _ _ _ | .configureNative _ _ _ | .uninstallNative _
  | .setupCompose _ _ _ _ | .startCompose _ _ _ => True

instance (resolve : FolderPath → FolderPath) (world : World) (event : Event) :
    Decidable (NeedsNoReceipt resolve world event) := by
  cases event with
  | resumeNative requireRetained staging ending =>
    unfold NeedsNoReceipt
    infer_instance
  | outside | setupNative | configureNative | uninstallNative | setupCompose | startCompose =>
    exact isTrue trivial

variable {ending : Ending}

section Grants

variable {path : FolderPath} {uid : Nat} {fails : GrantCall → Bool} {folders : Folders}
  {receipts : List AccessReceipt} {directory : AclDirectory} {receipt : AccessReceipt}

theorem path_of_applyGrant {before after : AccessLists}
    (granted : (applyGrant fails path before after directory).1 = .ok (some receipt)) :
    receipt.path = path := by
  unfold applyGrant at granted
  cases first : setAccessList (fails .setAccess) after.access directory with
  | none =>
    rw [first] at granted
    cases granted
  | some middle =>
    simp only [first] at granted
    cases second : setInheritedList (fails .setInherited) after.inherited middle with
    | none =>
      rw [second] at granted
      cases granted
    | some last =>
      simp only [second] at granted
      cases reads : getLists (fails .readAccess) (fails .readInherited) last with
      | error fault =>
        rw [reads] at granted
        cases granted
      | ok lists =>
        simp only [reads] at granted
        cases granted
        rfl

theorem grant_of_receipt
    (granted : (grantDirectoryAccess fails path uid directory).1 = .ok (some receipt)) :
    receipt.path = path ∧ ¬ HasAccess uid directory := by
  unfold grantDirectoryAccess at granted
  by_cases isOwner : directory.owner = uid ∧ userBits directory.mode = 7
  · rw [if_pos isOwner] at granted
    cases granted
  rw [if_neg isOwner] at granted
  cases reads : getLists (fails .getAccess) (fails .getInherited) directory with
  | error fault =>
    rw [reads] at granted
    cases granted
  | ok before =>
    simp only [reads] at granted
    have isLists : before = listsOf directory := by
      unfold getLists at reads
      split at reads
      · cases reads
      · cases reads
        rfl
    rw [isLists] at granted
    cases lists : grantLists (listsOf directory) directory.mode directory.owner uid with
    | none =>
      rw [lists] at granted
      cases granted
    | some after =>
      simp only [lists] at granted
      by_cases same : listsOf directory = after
      · rw [if_pos same] at granted
        cases granted
      rw [if_neg same] at granted
      refine ⟨path_of_applyGrant granted, ?_⟩
      rintro (owns | has)
      · exact isOwner owns
      · rw [lists] at has
        exact same (Option.some.inj has).symm

theorem receipts_of_grantFolder
    (granted : (grantFolder resolve path uid fails folders).1 = some receipts) :
    ∀ receipt ∈ receipts, receipt.path = path ∧
      ∃ directory, folders (resolve path) = some directory ∧ ¬ HasAccess uid directory := by
  intro receipt member
  unfold grantFolder at granted
  cases found : folders (resolve path) with
  | none =>
    simp only [found] at granted
    cases granted
  | some directory =>
    simp only [found] at granted
    cases answer : (grantDirectoryAccess fails path uid directory).1 with
    | error fault =>
      rw [answer] at granted
      cases granted
    | ok result =>
      simp only [answer] at granted
      cases granted
      cases result with
      | none => exact absurd member not_mem_nil
      | some kept =>
        obtain rfl : receipt = kept := mem_singleton.mp member
        have facts := grant_of_receipt answer
        exact ⟨facts.1, directory, rfl, facts.2⟩

theorem receipts_of_stage {staging : Staging} {host : FolderPath}
    (staged : (stageManagedFilesFolder resolve host staging folders).1 = some receipts) :
    ∀ receipt ∈ receipts, receipt.path = resolve host ∧
      ∃ directory, folders (resolve (resolve host)) = some directory ∧
        ¬ HasAccess staging.uid directory := by
  unfold stageManagedFilesFolder at staged
  cases found : folders (resolve (resolve host)) with
  | none =>
    simp only [found] at staged
    cases staged
    intro receipt member
    exact absurd member not_mem_nil
  | some directory =>
    simp only [found] at staged
    rw [← found]
    exact receipts_of_grantFolder staged

variable {staged : Option (List AccessReceipt) × Folders}

theorem attempt_succeeded
    (succeeded : (attemptFolder resolve staged ending folders).succeeded = true) :
    ∃ receipts, staged.1 = some receipts ∧
      (attemptFolder resolve staged ending folders).receipts = some receipts := by
  cases ending with
  | success => exact (Option.isSome_iff_exists.mp succeeded).imp fun _ same => ⟨same, same⟩
  | failure fault =>
    simp only [attemptFolder] at succeeded
    split at succeeded
    · cases succeeded
    · cases succeeded

theorem attempt_receipts
    (got : (attemptFolder resolve staged ending folders).receipts = some receipts) :
    staged.1 = some receipts := by
  cases ending with
  | success => exact got
  | failure fault =>
    simp only [attemptFolder] at got
    split at got
    · exact got
    · cases got

end Grants

/-- Every path that has a receipt still has one. -/
def Manifest.Keeps (after before : Manifest) : Prop :=
  ∀ receipt ∈ before.acl, ∃ kept ∈ after.acl, kept.path = receipt.path

theorem Manifest.Keeps.refl (manifest : Manifest) : manifest.Keeps manifest :=
  fun receipt member => ⟨receipt, member, rfl⟩

theorem subset_aclOr {acl before : List AccessReceipt} : acl ⊆ aclOr acl before := by
  intro receipt member
  unfold aclOr
  rw [if_neg (ne_nil_of_mem member)]
  exact member

structure Accounts (world : World) : Prop where
  covered : ∀ grant ∈ world.granted, Covered world grant
  config : world.manifest .native ≠ none → world.config = true

theorem World.keep_self (world : World) (deployment : Deployment) (manifest : Option Manifest) :
    world.keep deployment manifest deployment = manifest := update_self _ _ _

variable {bundle : Nat}

theorem native_of_compose {world next : World} {manifest : Option Manifest}
    (kept : next.manifest = world.keep (.compose bundle) manifest)
    (there : next.manifest .native ≠ none) : world.manifest .native ≠ none := by
  rw [kept, World.keep, update_of_ne (fun same => by cases same)] at there
  exact there

theorem manifestLeft_eq {written before : Option Manifest} :
    manifestLeft ending written before = before ∨
      ∃ manifest, written = some manifest ∧ manifestLeft ending written before = some manifest := by
  unfold manifestLeft
  cases ending with
  | success => exact .inl rfl
  | failure fault =>
    simp only
    split
    · cases written with
      | none => exact .inl rfl
      | some manifest => exact .inr ⟨manifest, rfl, rfl⟩
    · exact .inl rfl

variable {grant : Grant} {receipts : List AccessReceipt}

section Covers

variable {world next : World} {deployment : Deployment} {manifest after : Manifest}
  {left written : Option Manifest}

/-- What is left for a deployment keeps its manifest, if it had one. -/
def Survives (world : World) (deployment : Deployment) (left : Option Manifest) : Prop :=
  ∀ manifest, world.manifest deployment = some manifest →
    ∃ after, left = some after ∧ after.Keeps manifest

theorem survives_of_none (before : world.manifest deployment = none) :
    Survives world deployment left := by
  intro manifest there
  rw [before] at there
  cases there

theorem Manifest.Keeps.survives (keeps : after.Keeps manifest)
    (before : world.manifest deployment = some manifest) :
    Survives world deployment (some after) := by
  intro found there
  rw [before] at there
  cases there
  exact ⟨after, rfl, keeps⟩

theorem survives_left (before : world.manifest deployment = some manifest)
    (keeps : ∀ after, written = some after → after.Keeps manifest) :
    Survives world deployment (manifestLeft ending written (some manifest)) := by
  rcases manifestLeft_eq with same | ⟨after, isWritten, left⟩
  · rw [same]
    exact (Manifest.Keeps.refl manifest).survives before
  · rw [left]
    exact (keeps after isWritten).survives before

theorem Covered.keep (covered : Covered world grant) (survives : Survives world deployment left)
    (kept : next.manifest = world.keep deployment left) : Covered next grant := by
  obtain ⟨found, isFound, receipt, member, path⟩ := covered
  unfold Covered
  rw [kept, World.keep]
  by_cases same : grant.deployment = deployment
  · rw [same, update_self]
    rw [same] at isFound
    obtain ⟨after, isLeft, keeps⟩ := survives found isFound
    obtain ⟨other, inside, also⟩ := keeps receipt member
    exact ⟨after, isLeft, other, inside, also.trans path⟩
  · rw [update_of_ne same]
    exact ⟨found, isFound, receipt, member, path⟩

section

variable (accounts : Accounts world)
include accounts

theorem Accounts.failed (survives : Survives world deployment left)
    (kept : next.manifest = world.keep deployment left) (granted : next.granted = world.granted)
    (config : next.manifest .native ≠ none → next.config = true) : Accounts next := by
  refine ⟨fun grant member => ?_, config⟩
  rw [granted] at member
  exact (accounts.covered grant member).keep survives kept

/-- The new manifest has a receipt for what is granted, and the earlier grants are looked after. -/
theorem Accounts.succeeded (survives : Survives world deployment (some after))
    (kept : next.manifest = world.keep deployment (some after))
    (granted : next.granted = world.grants deployment receipts)
    (inside : ∀ receipt ∈ receipts, ∃ other ∈ after.acl, other.path = receipt.path)
    (config : next.manifest .native ≠ none → next.config = true) : Accounts next := by
  refine ⟨fun grant member => ?_, config⟩
  rw [granted] at member
  rcases mem_append.mp member with new | old
  · obtain ⟨receipt, isReceipt, rfl⟩ := mem_map.mp new
    refine ⟨after, ?_, inside receipt isReceipt⟩
    rw [kept, World.keep, update_self]
  · exact (accounts.covered grant old).keep survives kept

end

end Covers

section Operations

variable {world next : World} {filesDir : FolderPath} {staging : Staging} {ending : Ending}

section

variable (accounts : Accounts world)
include accounts

theorem accounts_setupNative
    (taken : setupNative resolve filesDir staging ending world = some next) : Accounts next := by
  unfold setupNative at taken
  split at taken
  · cases taken
  rename_i fresh
  have before : world.manifest .native = none := by
    by_contra there
    rw [accounts.config there] at fresh
    exact fresh rfl
  dsimp only at taken
  split at taken
  · case isTrue succeeded =>
      obtain ⟨receipts, _, got⟩ := attempt_succeeded succeeded
      rw [got] at taken
      cases taken
      exact accounts.succeeded (survives_of_none before) rfl rfl
        (fun receipt inside => ⟨receipt, inside, rfl⟩) fun _ => rfl
  · case isFalse failed =>
      cases taken
      refine accounts.failed (survives_of_none before) rfl rfl fun there => ?_
      change World.keep world .native _ .native ≠ none at there
      rw [World.keep_self] at there
      exact Bool.or_eq_true_iff.mpr (.inr (Option.isSome_iff_ne_none.mpr there))

theorem accounts_configureNative
    (taken : configureNative resolve filesDir staging ending world = some next) :
    Accounts next := by
  unfold configureNative at taken
  cases before : world.manifest .native with
  | none =>
    rw [before] at taken
    cases taken
  | some manifest =>
    have configured : world.config = true := accounts.config (by rw [before]; nofun)
    simp only [before] at taken
    split at taken
    · cases taken
    split at taken
    · cases taken
      exact accounts
    -- Receipts are added to those of the manifest.
    have keeps (receipts : List AccessReceipt) : Manifest.Keeps
        { filesDir := filesDir, acl := aclOr (manifest.acl ++ receipts) manifest.acl }
        manifest := fun receipt member =>
      ⟨receipt, subset_aclOr (mem_append_left _ member), rfl⟩
    split at taken
    · case isTrue succeeded =>
        obtain ⟨receipts, _, got⟩ := attempt_succeeded succeeded
        rw [got] at taken
        cases taken
        exact accounts.succeeded ((keeps receipts).survives before) rfl rfl
          (fun receipt inside => ⟨receipt, subset_aclOr (mem_append_right _ inside), rfl⟩)
          fun _ => configured
    · case isFalse failed =>
        cases taken
        refine accounts.failed (survives_left before fun after written => ?_) rfl rfl
          fun _ => configured
        obtain ⟨receipts, _, rfl⟩ := Option.map_eq_some_iff.mp written
        exact keeps receipts

theorem accounts_uninstallNative {done : Bool}
    (taken : uninstallNative done world = some next) : Accounts next := by
  unfold uninstallNative at taken
  cases before : world.manifest .native with
  | none =>
    rw [before] at taken
    cases taken
  | some manifest =>
    simp only [before] at taken
    cases taken
    exact ⟨accounts.covered, accounts.config⟩

theorem accounts_resumeNative {requireRetained : Bool}
    (needsNone : NeedsNoReceipt resolve world (.resumeNative requireRetained staging ending))
    (taken : resumeNative resolve requireRetained staging ending world = some next) :
    Accounts next := by
  unfold resumeNative at taken
  cases before : world.manifest .native with
  | none =>
    rw [before] at taken
    cases taken
  | some manifest =>
    have configured : world.config = true := accounts.config (by rw [before]; nofun)
    have keeps : Manifest.Keeps { filesDir := manifest.filesDir, acl := manifest.acl }
        manifest := Manifest.Keeps.refl manifest
    simp only [before] at taken
    split at taken
    · cases taken
    split at taken
    · case isTrue succeeded =>
        obtain ⟨receipts, staged, got⟩ := attempt_succeeded succeeded
        rw [got] at taken
        cases taken
        refine accounts.succeeded (keeps.survives before) rfl rfl (fun receipt inside => ?_)
          fun _ => configured
        obtain ⟨path, directory, found, lacks⟩ := receipts_of_stage staged receipt inside
        rcases needsNone manifest before directory found with has | covered
        · exact absurd has lacks
        · rw [path]
          exact covered
    · case isFalse failed =>
        cases taken
        refine accounts.failed (survives_left before fun after written => ?_) rfl rfl
          fun _ => configured
        obtain rfl := Option.some.inj written
        exact keeps

theorem accounts_setupCompose
    (taken : setupCompose resolve bundle filesDir staging ending world = some next) :
    Accounts next := by
  unfold setupCompose at taken
  cases before : world.manifest (.compose bundle) with
  | some manifest =>
    rw [before] at taken
    cases taken
  | none =>
    simp only [before] at taken
    split at taken
    · case isTrue succeeded =>
        obtain ⟨receipts, _, got⟩ := attempt_succeeded succeeded
        rw [got] at taken
        cases taken
        exact accounts.succeeded (survives_of_none before) rfl rfl
          (fun receipt inside => ⟨receipt, inside, rfl⟩)
          fun there => accounts.config (native_of_compose rfl there)
    · case isFalse failed =>
        cases taken
        exact accounts.failed (survives_of_none before) rfl rfl
          fun there => accounts.config (native_of_compose rfl there)

theorem accounts_startCompose
    (taken : startCompose resolve bundle staging ending world = some next) : Accounts next := by
  unfold startCompose at taken
  cases before : world.manifest (.compose bundle) with
  | none =>
    rw [before] at taken
    cases taken
  | some manifest =>
    simp only [before] at taken
    split at taken
    · cases taken
      exact accounts
    have keeps {receipts : List AccessReceipt}
        (staged : (grantFolder resolve manifest.filesDir containerUid staging.fails
          world.folders).1 = some receipts) :
        Manifest.Keeps
          (if receipts = [] then manifest
          else
            { filesDir := manifest.filesDir
              acl := aclOr ((manifest.acl.filter fun receipt =>
                receipt.path ≠ manifest.filesDir) ++ receipts) manifest.acl })
          manifest := by
      intro receipt member
      split
      · exact ⟨receipt, member, rfl⟩
      rename_i some
      by_cases same : receipt.path = manifest.filesDir
      · obtain ⟨new, inside⟩ := exists_mem_of_ne_nil receipts some
        have path := (receipts_of_grantFolder staged new inside).1
        exact ⟨new, subset_aclOr (mem_append_right _ inside), path.trans same.symm⟩
      refine ⟨receipt, subset_aclOr (mem_append_left _ ?_), rfl⟩
      rw [mem_filter]
      exact ⟨member, decide_eq_true same⟩
    split at taken
    · case isTrue succeeded =>
        obtain ⟨receipts, staged, got⟩ := attempt_succeeded succeeded
        rw [got] at taken
        cases taken
        refine accounts.succeeded ((keeps staged).survives before) rfl rfl
          (fun receipt (inside : receipt ∈ receipts) => ?_)
          fun there => accounts.config (native_of_compose rfl there)
        rw [if_neg (ne_nil_of_mem inside)]
        exact ⟨receipt, subset_aclOr (mem_append_right _ inside), rfl⟩
    · case isFalse failed =>
        cases taken
        refine accounts.failed (survives_left before fun after written => ?_) rfl rfl
          fun there => accounts.config (native_of_compose rfl there)
        obtain ⟨receipts, got, rfl⟩ := Option.map_eq_some_iff.mp written
        exact keeps (attempt_receipts got)

end

end Operations

theorem accounts_step {world next : World} {event : Event} (accounts : Accounts world)
    (needsNone : NeedsNoReceipt resolve world event)
    (taken : step resolve world event = some next) : Accounts next := by
  cases event with
  | outside place folder =>
    cases taken
    exact ⟨accounts.covered, accounts.config⟩
  | setupNative filesDir staging ending => exact accounts_setupNative accounts taken
  | configureNative filesDir staging ending => exact accounts_configureNative accounts taken
  | uninstallNative done => exact accounts_uninstallNative accounts taken
  | resumeNative requireRetained staging ending =>
    exact accounts_resumeNative accounts needsNone taken
  | setupCompose bundle filesDir staging ending => exact accounts_setupCompose accounts taken
  | startCompose bundle staging ending => exact accounts_startCompose accounts taken

variable {fails : Nat → RestoreCall → Bool}

theorem purgeReceipts_keep {purge : AccessPurge} :
    purge.restored ⊆ (purgeReceipts resolve fails receipts purge).restored ∧
      purge.retained ⊆ (purgeReceipts resolve fails receipts purge).retained := by
  induction receipts generalizing purge with
  | nil => exact ⟨fun _ member => member, fun _ member => member⟩
  | cons receipt rest ih =>
    have grows : purge.restored ⊆
          (purgeReceipt resolve (fails rest.length) receipt purge).restored ∧
        purge.retained ⊆ (purgeReceipt resolve (fails rest.length) receipt purge).retained := by
      unfold purgeReceipt
      dsimp only
      split
      · exact ⟨subset_cons_self _ _, fun _ member => member⟩
      · exact ⟨fun _ member => member, subset_cons_self _ _⟩
    exact ⟨List.Subset.trans grows.1 ih.1, List.Subset.trans grows.2 ih.2⟩

theorem purgeReceipts_account
    {purge : AccessPurge} {receipt : AccessReceipt} (member : receipt ∈ receipts) :
    receipt ∈ (purgeReceipts resolve fails receipts purge).restored ∨
      receipt.path ∈ (purgeReceipts resolve fails receipts purge).retained := by
  induction receipts generalizing purge with
  | nil => exact absurd member not_mem_nil
  | cons first rest ih =>
    rcases mem_cons.mp member with rfl | later
    · have here : receipt ∈ (purgeReceipt resolve (fails rest.length) receipt purge).restored ∨
          receipt.path ∈ (purgeReceipt resolve (fails rest.length) receipt purge).retained := by
        unfold purgeReceipt
        dsimp only
        split
        · exact .inl mem_cons_self
        · exact .inr mem_cons_self
      rw [purgeReceipts]
      rcases here with restored | listed
      · exact .inl (purgeReceipts_keep.1 restored)
      · exact .inr (purgeReceipts_keep.2 listed)
    · exact ih later

theorem Covered.accounted {world : World} (covered : Covered world grant) :
    Accounted resolve world grant := by
  obtain ⟨manifest, found, _⟩ := covered
  refine ⟨manifest, found, fun fails => ?_⟩
  by_cases listed : grant.receipt.path ∈ (purgeAccess resolve fails world manifest).retained
  · exact .inr listed
  refine .inl fun receipt member path => ?_
  rcases purgeReceipts_account member with restored | also
  · exact restored
  · rw [path] at also
    exact absurd also listed

/-- In every state of a run in which no resumption needs a receipt of its own, each directory
that a successful operation has granted access to has a receipt, and a purge restores it or
lists it. -/
theorem no_grant_forgotten (resolve : FolderPath → FolderPath) (folders : Folders)
    (events : List Event) (world : World)
    (reached : run (step resolve) (World.empty folders) events = some world)
    (needsNone : Along (step resolve) (NeedsNoReceipt resolve) (World.empty folders) events) :
    ∀ grant ∈ world.granted, Covered world grant ∧ Accounted resolve world grant := by
  have start : Accounts (World.empty folders) :=
    ⟨fun _ absent => absurd absent not_mem_nil, fun there => absurd rfl there⟩
  have accounts := run_invariant Accounts (fun _ _ _ holds guard taken =>
    accounts_step holds guard taken) start needsNone reached
  intro grant member
  have covered := accounts.covered grant member
  exact ⟨covered, covered.accounted⟩

def ownDirectory : AclDirectory :=
  { privateDirectory with owner := 998, group := 998, ownerValid := by decide }

def sampleFolder : FolderPath := "/f".toList

def sampleStaging : Staging :=
  { uid := 998, fails := fun _ => false, created := ownDirectory }

/-- Setup makes the folder.  It is given to another user before the removed runtime is
resumed. -/
def handedOver : List Event :=
  [.setupNative sampleFolder sampleStaging .success, .uninstallNative true,
    .outside sampleFolder (some privateDirectory), .resumeNative true sampleStaging .success]

def handedWorld : Option World := run (step id) (World.empty fun _ => none) handedOver

/-- The grant of the resumption is in force, and the manifest has no receipt at all. -/
theorem resumption_forgets :
    ¬ ∀ (resolve : FolderPath → FolderPath) (folders : Folders) (events : List Event)
      (world : World), run (step resolve) (World.empty folders) events = some world →
        ∀ grant ∈ world.granted, InForce resolve world grant → Covered world grant := by
  intro covers
  cases reached : handedWorld with
  | none =>
    have runs : handedWorld.isSome = true := by decide +kernel
    rw [reached] at runs
    cases runs
  | some world =>
    have first : (handedWorld.bind fun world => world.granted.head?).isSome = true := by
      decide +kernel
    rw [reached] at first
    obtain ⟨grant, isGrant⟩ := Option.isSome_iff_exists.mp first
    have forces : (handedWorld.bind fun world => world.granted.head?.bind fun grant =>
        (world.folders grant.receipt.path).map fun directory =>
          decide (directory.device = grant.receipt.device ∧
            directory.inode = grant.receipt.inode ∧
            listsOf directory = grant.receipt.after)) = some true := by decide +kernel
    have bare : (handedWorld.bind fun world => world.granted.head?.bind fun grant =>
        (world.manifest grant.deployment).map fun manifest => manifest.acl.length) =
          some 0 := by decide +kernel
    have isFirst : world.granted.head? = some grant := isGrant
    rw [reached] at forces bare
    simp only [Option.bind_some, isFirst] at forces bare
    obtain ⟨directory, found, same⟩ := Option.map_eq_some_iff.mp forces
    obtain ⟨manifest, recorded, empty⟩ := Option.map_eq_some_iff.mp bare
    obtain ⟨other, also, receipt, member, _⟩ := covers id (fun _ => none) handedOver world
      reached grant (mem_of_mem_head? isFirst)
      ⟨directory, found, of_decide_eq_true same⟩
    obtain rfl := Option.some.inj (recorded.symm.trans also)
    rw [length_eq_zero_iff.mp empty] at member
    exact absurd member not_mem_nil

def keptFolder : List Event :=
  [.outside sampleFolder (some privateDirectory),
    .setupNative sampleFolder sampleStaging .success, .uninstallNative true,
    .resumeNative true sampleStaging .success]

theorem grants_of_keptFolder :
    ∃ world, run (step id) (World.empty fun _ => none) keptFolder = some world ∧
      world.granted.length = 1 ∧
      ∀ grant ∈ world.granted, Covered world grant ∧ Accounted id world grant := by
  cases reached : run (step id) (World.empty fun _ => none) keptFolder with
  | none =>
    have runs : (run (step id) (World.empty fun _ => none) keptFolder).isSome = true := by
      decide +kernel
    rw [reached] at runs
    cases runs
  | some world =>
    have count : (run (step id) (World.empty fun _ => none) keptFolder).map
        (fun world => world.granted.length) = some 1 := by decide +kernel
    rw [reached] at count
    exact ⟨world, rfl, Option.some.inj count,
      no_grant_forgotten id (fun _ => none) keptFolder world reached (by decide +kernel)⟩

end XFerry.Management.GrantReceipts
