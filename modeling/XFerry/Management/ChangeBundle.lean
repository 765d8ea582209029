/-
The files of a Compose bundle over a change: what the steps of a change do to them, and what
`_restore_bundle` makes of it.
-/

import XFerry.Management.ChangeReceipts

namespace XFerry.Management.DeploymentChange

open CrashProgram Function Program
open Python (Text)

variable {parts : Parts} {answers : Answers} {before : HostFiles}

def bundleMode : DeploymentPath → Nat
  | .runtime => 0o644
  | _ => 0o600

/-- What `_atomic_write` makes of an entry. -/
structure Overwritten (content : Content) (mode : Option Nat) (prior entry : HostEntry) : Prop where
  body : entry.body = .file content
  mode : entry.mode = mode.getD (prior.mode % 0o1000)
  uid : entry.uid = prior.uid
  gid : entry.gid = prior.gid
  links : entry.links = 1
  single : prior.links = 1

variable {answer : WriteAnswer} {path : DeploymentPath} {content : Content} {site last : Site}
  {mode : Option Nat} {prior : HostEntry}

theorem atomicWrite_returned (found : site.files path = some prior)
    (returned : (atomicWrite parts answer path content mode).final site = (.ok (), last)) :
    ∃ entry, last.files = update site.files path (some entry) ∧
      Overwritten content mode prior entry := by
  unfold atomicWrite at returned
  rw [final_look] at returned
  simp only [found] at returned
  cases isBody : prior.body with
  | directory | link =>
    simp only [isBody] at returned
    cases returned
  | file old =>
    simp only [isBody] at returned
    by_cases single : prior.links = 1
    · rw [if_pos single] at returned
      obtain ⟨stamp, rfl⟩ := replaceFile_returned returned
      exact ⟨_, rfl, rfl, rfl, rfl, rfl, rfl, single⟩
    · rw [if_neg single] at returned
      cases returned

theorem atomicWrite_body
    (returned : (atomicWrite parts answer path content mode).final site = (.ok (), last)) :
    ∃ entry, last.files = update site.files path (some entry) ∧
      entry.body = .file content := by
  cases found : site.files path with
  | some prior =>
    obtain ⟨entry, files, written⟩ := atomicWrite_returned found returned
    exact ⟨entry, files, written.body⟩
  | none =>
    unfold atomicWrite at returned
    rw [final_look] at returned
    simp only [found] at returned
    obtain ⟨stamp, rfl⟩ := replaceFile_returned returned
    exact ⟨_, rfl, rfl⟩

theorem atomicWrite_cases {outcome : Except Raised Unit} (found : site.files path = some prior)
    (ended : (atomicWrite parts answer path content mode).final site = (outcome, last)) :
    last.files = site.files ∨
      ∃ entry, last.files = update site.files path (some entry) ∧
        Overwritten content mode prior entry := by
  unfold atomicWrite at ended
  rw [final_look] at ended
  simp only [found] at ended
  cases isBody : prior.body with
  | directory | link =>
    simp only [isBody] at ended
    cases ended
    exact .inl rfl
  | file old =>
    simp only [isBody] at ended
    by_cases single : prior.links = 1
    · rw [if_pos single] at ended
      cases answer with
      | unread | refused =>
        cases ended
        exact .inl rfl
      | torn | done =>
        cases ended
        exact .inr ⟨_, rfl, rfl, rfl, rfl, rfl, rfl, single⟩
    · rw [if_neg single] at ended
      cases ended
      exact .inl rfl

/-- Every path has its entry or is one of the bundle and was written by the change. -/
def Touched (before : HostFiles) (site : Site) : Prop :=
  ∀ path, site.files path = before path ∨
    path ∈ bundlePaths ∧ ∃ prior entry content, before path = some prior ∧
      site.files path = some entry ∧ Overwritten content (some (bundleMode path)) prior entry

variable {site : Site}

theorem Touched.write (touched : Touched before site)
    (inBundle : path ∈ bundlePaths) {prior entry : HostEntry} (found : site.files path = some prior)
    (overwritten : Overwritten content (some (bundleMode path)) prior entry) {last : Site}
    (files : last.files = update site.files path (some entry)) :
    Touched before last := by
  intro other
  rw [files]
  by_cases same : other = path
  · subst same
    rw [update_self]
    rcases touched other with kept | ⟨_, first, middle, _, was, is, early⟩
    · exact .inr ⟨inBundle, prior, entry, content, kept.symm.trans found, rfl, overwritten⟩
    rw [found] at is
    cases is
    exact .inr ⟨inBundle, first, entry, content, was, rfl, overwritten.body, overwritten.mode,
      overwritten.uid.trans early.uid, overwritten.gid.trans early.gid, overwritten.links,
      early.single⟩
  · rw [update_of_ne same]
    exact touched other

theorem Touched.present (touched : Touched before site)
    (there : (before path).isSome) : ∃ prior, site.files path = some prior := by
  rcases touched path with kept | ⟨_, prior, entry, _, _, is, _⟩
  · rw [kept]
    exact Option.isSome_iff_exists.mp there
  · exact ⟨entry, is⟩

theorem atomicWrite_touched (inBundle : path ∈ bundlePaths) (there : (before path).isSome) :
    Contract (fun _ => True) (Touched before)
      (atomicWrite parts answer path content (some (bundleMode path)))
      (fun _ => Touched before) (fun _ => Touched before) := by
  intro site touched
  refine ⟨fun _ _ => trivial, ?_⟩
  obtain ⟨prior, found⟩ := touched.present there
  have kept : Touched before
      (atomicWrite parts answer path content (some (bundleMode path)) site).world := by
    rcases atomicWrite_cases found rfl with same | ⟨entry, files, overwritten⟩
    · intro other
      have here := congrFun same other
      rw [here]
      exact touched other
    · exact touched.write inBundle found overwritten files
  cases answer : (atomicWrite parts answer path content (some (bundleMode path)) site).result with
  | ok | error => exact kept

theorem composeApply_touched {spec : Manifest} {candidate runtime : Text}
    (there : ∀ path ∈ bundlePaths, (before path).isSome) :
    Contract (fun _ => True) (Touched before) (composeApply parts answers spec candidate runtime)
      (fun _ _ => True) (fun _ => Touched before) := by
  have write (answer : WriteAnswer) (path : DeploymentPath) (content : Content)
      (inBundle : path ∈ bundlePaths) : Contract (fun _ => True) (Touched before)
        (atomicWrite parts answer path content (some (bundleMode path)))
        (fun _ => Touched before) (fun _ => Touched before) :=
    atomicWrite_touched inBundle (there path inBundle)
  have calm (answer : Option Raised) : Contract (fun _ => True) (Touched before) (raiseIf answer)
      (fun _ => Touched before) (fun _ => Touched before) := by
    cases answer with
    | none => exact .pure fun _ touched => touched
    | some error => exact .raise fun _ touched => touched
  refine .bind _ (write _ .profile _ (by decide)) fun _ => ?_
  refine .bind _ (write _ .runtime _ (by decide)) fun _ => ?_
  refine .bind _ (write _ .compose _ (by decide)) fun _ => ?_
  refine .bind (fun _ => Touched before) ?_ fun _ => ?_
  · refine .bind _ (calm _) fun _ => .look fun site touched => ?_
    refine .bind (fun _ => Touched before) ?_ fun next =>
      write _ .manifest _ (by decide)
    cases composeReceipt parts site.files spec composeChanged with
    | none =>
      refine .raise ?_
      rintro _ rfl
      exact touched
    | some next =>
      refine .pure ?_
      rintro _ rfl
      exact touched
  · have activated : Contract (fun _ => True) (Touched before) (activateRunning answers)
        (fun _ => Touched before) (fun _ => Touched before) := by
      unfold activateRunning
      cases answers.running with
      | false => exact .pure fun _ touched => touched
      | true => exact calm answers.activate
    exact activated.weaken (fun _ touched => touched) (fun _ _ _ => trivial)
      fun _ _ touched => touched

structure BundleEntry (path : DeploymentPath) (prior entry : HostEntry) : Prop where
  body : entry.body = prior.body
  uid : entry.uid = prior.uid
  gid : entry.gid = prior.gid
  links : entry.links = 1
  single : prior.links = 1
  mode : entry.mode = prior.mode % 0o1000 ∨ entry.mode = bundleMode path

/-- The paths in `todo` are as the change has left them, all others are restored. -/
structure RestoringBundle (before : HostFiles) (todo : List DeploymentPath) (site : Site) :
    Prop where
  distinct : todo.Nodup
  inBundle : ∀ path ∈ todo, path ∈ bundlePaths
  left : ∀ path ∈ todo, site.files path = before path ∨
    ∃ prior entry content, before path = some prior ∧ site.files path = some entry ∧
      Overwritten content (some (bundleMode path)) prior entry
  back : ∀ path ∈ bundlePaths, path ∉ todo → ∃ prior entry, before path = some prior ∧
    site.files path = some entry ∧ BundleEntry path prior entry
  outside : ∀ path, path ∉ bundlePaths → site.files path = before path

theorem Touched.restoring (touched : Touched before site) :
    RestoringBundle before bundlePaths site where
  distinct := by decide
  inBundle _ member := member
  left path _ := (touched path).imp_right fun written => written.2
  back path inside outside := absurd inside outside
  outside path outside := by
    rcases touched path with kept | ⟨inside, _⟩
    · exact kept
    · exact absurd inside outside

theorem bundleMode_small (path : DeploymentPath) : bundleMode path % 0o1000 = bundleMode path := by
  cases path <;> rfl

theorem snapshotOf_body
    (found : before path = some prior) (plain : isPlainFile before path = true) :
    prior.body = .file (snapshotOf before path) := by
  unfold isPlainFile at plain
  unfold snapshotOf
  rw [found] at plain ⊢
  cases prior with
  | mk body mode uid gid links identity modified =>
    cases body with
    | file content => rfl
    | directory | link => simp at plain

theorem isPlainFile_present (plain : isPlainFile before path = true) :
    ∃ prior, before path = some prior := by
  cases found : before path with
  | none => simp [isPlainFile, found] at plain
  | some prior => exact ⟨prior, rfl⟩

theorem RestoringBundle.round {rest : List DeploymentPath}
    (restoring : RestoringBundle before (path :: rest) site)
    (plain : isPlainFile before path = true)
    (returned : (atomicWrite parts (answers.undo path) path (snapshotOf before path) none).final
      site = (.ok (), last)) : RestoringBundle before rest last := by
  obtain ⟨prior, was⟩ := isPlainFile_present plain
  have state : ∃ current, site.files path = some current ∧ current.uid = prior.uid ∧
      current.gid = prior.gid ∧ (current.links = 1 → prior.links = 1) ∧
      (current.mode % 0o1000 = prior.mode % 0o1000 ∨ current.mode % 0o1000 = bundleMode path) := by
    rcases restoring.left path List.mem_cons_self with kept | ⟨first, entry, _, old, is, written⟩
    · exact ⟨prior, kept.trans was, rfl, rfl, id, .inl rfl⟩
    rw [was] at old
    cases old
    refine ⟨entry, is, written.uid, written.gid, fun _ => written.single, .inr ?_⟩
    rw [written.mode, Option.getD_some, bundleMode_small]
  obtain ⟨current, is, uid, gid, single, mode⟩ := state
  obtain ⟨entry, files, written⟩ := atomicWrite_returned is returned
  have restored : BundleEntry path prior entry :=
    { body := written.body.trans (snapshotOf_body was plain).symm
      uid := written.uid.trans uid
      gid := written.gid.trans gid
      links := written.links
      single := single written.single
      mode := by
        rw [written.mode, Option.getD_none]
        exact mode }
  have elsewhere (other : DeploymentPath) (different : other ≠ path) :
      last.files other = site.files other := by
    rw [files, update_of_ne different]
  have fresh := List.nodup_cons.mp restoring.distinct
  refine ⟨fresh.2, fun other member => restoring.inBundle other (List.mem_cons_of_mem _ member),
    fun other member => ?_, fun other inBundle absent => ?_, fun other outside => ?_⟩
  · have different : other ≠ path := by
      rintro rfl
      exact fresh.1 member
    rw [elsewhere other different]
    exact restoring.left other (List.mem_cons_of_mem _ member)
  · by_cases same : other = path
    · subst same
      refine ⟨prior, entry, was, ?_, restored⟩
      rw [files, update_self]
    · rw [elsewhere other same]
      exact restoring.back other inBundle (by simp [same, absent])
  · have different : other ≠ path := by
      rintro rfl
      exact outside (restoring.inBundle other List.mem_cons_self)
    rw [elsewhere other different]
    exact restoring.outside other outside

theorem restoreBundle_contract (plain : ∀ path ∈ bundlePaths, isPlainFile before path = true) :
    Contract (fun _ => True) (Touched before) (restoreBundle parts answers before)
      (fun _ => RestoringBundle before []) (fun _ _ => True) := by
  have step (path : DeploymentPath) (rest : List DeploymentPath) :
      Contract (fun _ => True) (RestoringBundle before (path :: rest))
        (atomicWrite parts (answers.undo path) path (snapshotOf before path) none)
        (fun _ => RestoringBundle before rest) (fun _ _ => True) :=
    .of_final fun site _ last restoring returned =>
      restoring.round (plain path (restoring.inBundle path List.mem_cons_self)) returned
  exact (Contract.forEach _ step bundlePaths).weaken (fun _ touched => touched.restoring)
    (fun _ _ kept => kept) (fun _ _ _ => trivial)

end XFerry.Management.DeploymentChange
