/-
What a failed change of a deployment leaves: a rollback restores every file that the
transaction has replaced, and a restored bundle has its files under the modes that the
change has written.
-/

import XFerry.Management.DeploymentChange

namespace XFerry.Management.DeploymentChange

open CrashProgram Program Function
open Python (Bytes Text)

variable {parts : Parts} {answers : Answers}

variable {site last : Site} {path : DeploymentPath} {next : Stamp → Option HostEntry}

section Unchanging

variable {relation : Site → Site → Prop} [Std.Refl relation]

omit [Std.Refl relation] in
theorem raiseIf_returned {answer : Option Raised}
    (returned : (raiseIf answer).final site = (.ok (), last)) : last = site := by
  cases answer with
  | none =>
    cases returned
    rfl
  | some error => cases returned

theorem raiseIf_respects (answer : Option Raised) : (raiseIf answer).Respects relation := by
  cases answer with
  | none => exact .pure ()
  | some error => exact .raise error

theorem call_respects (answer : Call) : (call answer).Respects relation := by
  cases answer with
  | passed => exact .pure true
  | failed => exact .pure false
  | raised error => exact .raise error

theorem orRaise_respects {Value : Type} (value : Option Value) :
    (orRaise value).Respects relation := by
  cases value with
  | none => exact .raise Raised.value
  | some value => exact .pure value

theorem orRaise_returned {Value : Type} {value : Option Value} {result : Value}
    (returned : (orRaise value).final site = (.ok result, last)) :
    value = some result ∧ last = site := by
  cases value with
  | none => cases returned
  | some value =>
    cases returned
    exact ⟨rfl, rfl⟩

theorem call_returned {answer : Call} {passed : Bool}
    (returned : (call answer).final site = (.ok passed, last)) : last = site := by
  cases answer with
  | passed | failed =>
    cases returned
    rfl
  | raised error => cases returned

theorem require_returned {answer : Call}
    (returned : (require answer).final site = (.ok (), last)) : last = site := by
  obtain ⟨passed, middle, called, rest⟩ := bind_returned returned
  cases passed with
  | true =>
    cases rest
    exact call_returned called
  | false => cases rest

theorem statOf_returned {entry : HostEntry}
    (returned : (statOf path).final site = (.ok entry, last)) : last = site := by
  unfold statOf at returned
  rw [final_look] at returned
  cases led : followed site.files (linkLimit + 1) path with
  | none =>
    simp only [led] at returned
    cases returned
  | some found =>
    simp only [led] at returned
    cases returned
    rfl

variable [IsTrans Site relation]

theorem require_respects (answer : Call) : (require answer).Respects relation := by
  refine .bind (call_respects answer) fun passed => ?_
  cases passed with
  | true => exact .pure ()
  | false => exact .raise Raised.value

theorem statOf_respects (path : DeploymentPath) : (statOf path).Respects relation := by
  refine .bind (.inspect id) fun site => ?_
  cases followed site.files (linkLimit + 1) path with
  | none => exact .raise Raised.os
  | some entry => exact .pure entry

theorem replaceFile_respects {answer : WriteAnswer}
    (related : ∀ stamp site, relation (site.put path (next stamp)) site) :
    (replaceFile answer path next).Respects relation := by
  cases answer with
  | unread error | refused error => exact .raise error
  | torn stamp error =>
    exact .bind (.durable (related stamp)) fun _ => .raise error
  | done stamp => exact .durable (related stamp)

end Unchanging

theorem replaceFile_returned {answer : WriteAnswer}
    (returned : (replaceFile answer path next).final site = (.ok (), last)) :
    ∃ stamp, last = site.put path (next stamp) := by
  cases answer with
  | unread | refused => cases returned
  | torn stamp error =>
    obtain ⟨value, middle, _, rest⟩ := bind_returned returned
    cases rest
  | done stamp =>
    cases returned
    exact ⟨stamp, rfl⟩

@[simp]
theorem Site.put_files (site : Site) (path : DeploymentPath) (entry : Option HostEntry) :
    (site.put path entry).files = update site.files path entry := rfl

/-- The transaction knows the first state of every path that is not as it was. -/
structure Tracked (writes : List DeploymentPath) (before : HostFiles) (site : Site) : Prop where
  recorded : ∀ item ∈ site.recorded, item.1 ∈ writes ∧ item.2 = before item.1
  others : ∀ path, (∀ item ∈ site.recorded, item.1 ≠ path) → site.files path = before path

section Transaction

variable {writes : List DeploymentPath} {before : HostFiles} {path : DeploymentPath}

theorem Tracked.start (site : Site) : Tracked writes site.files { site with recorded := [] } where
  recorded _ member := absurd member List.not_mem_nil
  others _ _ := rfl

variable {site : Site}

theorem Tracked.put (tracked : Tracked writes before site)
    (known : ∃ item ∈ site.recorded, item.1 = path) (entry : Option HostEntry) :
    Tracked writes before (site.put path entry) where
  recorded := tracked.recorded
  others other absent := by
    have different : other ≠ path := by
      rintro rfl
      obtain ⟨item, member, same⟩ := known
      exact absent item member same
    rw [Site.put_files, update_of_ne different]
    exact tracked.others other absent

theorem Tracked.remember (tracked : Tracked writes before site)
    (writable : path ∈ writes) (absent : ∀ item ∈ site.recorded, item.1 ≠ path) :
    Tracked writes before { site with recorded := site.recorded ++ [(path, site.files path)] } where
  recorded item member := by
    rcases List.mem_append.mp member with old | new
    · exact tracked.recorded item old
    · rw [List.mem_singleton.mp new]
      exact ⟨writable, tracked.others path absent⟩
  others other unknown :=
    tracked.others other fun item member => unknown item (List.mem_append_left _ member)

theorem remember_contract (writable : path ∈ writes) :
    Contract (Tracked writes before) (Tracked writes before) (remember path)
      (fun _ site => Tracked writes before site ∧ ∃ item ∈ site.recorded, item.1 = path)
      (fun _ => Tracked writes before) := by
  have step (site : Site) (tracked : Tracked writes before site) :
      let next := if site.recorded.any fun item => item.1 = path then site
        else { site with recorded := site.recorded ++ [(path, site.files path)] }
      Tracked writes before next ∧ ∃ item ∈ next.recorded, item.1 = path := by
    by_cases known : (site.recorded.any fun item => item.1 = path) = true
    · have found : ∃ item ∈ site.recorded, item.1 = path := by simpa using known
      simp only [if_pos known]
      exact ⟨tracked, found⟩
    have absent : ∀ item ∈ site.recorded, item.1 ≠ path := by
      intro item member same
      exact known (List.any_eq_true.mpr ⟨item, member, decide_eq_true same⟩)
    simp only [if_neg known]
    exact ⟨tracked.remember writable absent, (path, site.files path), by simp, rfl⟩
  exact .durable (fun site tracked => (step site tracked).1) step

theorem transactionWrite_tracked {content : Content} {mode uid gid : Nat}
    (writable : path ∈ writes) :
    (transactionWrite parts answers path content mode uid gid).Respects
      (Keeping (Tracked writes before)) := by
  have written (answer : WriteAnswer) : Contract (Tracked writes before) (Tracked writes before)
      (do
        remember path
        replaceFile answer path fun stamp => some (newFile parts content mode uid gid stamp))
      (fun _ => Tracked writes before) (fun _ => Tracked writes before) := by
    refine .bind _ (remember_contract writable) fun _ => ?_
    have put (stamp : Stamp) (site : Site)
        (start : Tracked writes before site ∧ ∃ item ∈ site.recorded, item.1 = path) :
        Tracked writes before (site.put path (some (newFile parts content mode uid gid stamp))) :=
      start.1.put start.2 _
    cases answer with
    | unread | refused => exact .raise fun site start => start.1
    | torn stamp error =>
      exact .bind (fun _ => Tracked writes before)
        (.durable (put stamp) (put stamp)) fun _ => .raise fun _ kept => kept
    | done stamp => exact .durable (put stamp) (put stamp)
  unfold transactionWrite
  cases answers.write path with
  | unread error => exact .raise error
  | refused error => exact Contract.keeping (written (.refused error))
  | torn stamp error => exact Contract.keeping (written (.torn stamp error))
  | done stamp => exact Contract.keeping (written (.done stamp))

theorem transactionWrite_returned {content : Content} {mode uid gid : Nat}
    (returned : (transactionWrite parts answers path content mode uid gid).final site =
      (.ok (), last)) :
    ∃ stamp, last.files =
      update site.files path (some (newFile parts content mode uid gid stamp)) := by
  have written (answer : WriteAnswer)
      (ended : (do
        remember path
        replaceFile answer path fun stamp =>
          some (newFile parts content mode uid gid stamp) : ChangeProgram Unit).final site =
        (.ok (), last)) :
      ∃ stamp, last.files =
        update site.files path (some (newFile parts content mode uid gid stamp)) := by
    obtain ⟨value, middle, remembered, rest⟩ := bind_returned ended
    obtain ⟨stamp, rfl⟩ := replaceFile_returned rest
    have same : middle.files = site.files := by
      have reached : middle = if site.recorded.any fun item => item.1 = path then site
          else { site with recorded := site.recorded ++ [(path, site.files path)] } :=
        (congrArg Prod.snd remembered).symm
      rw [reached]
      split <;> rfl
    exact ⟨stamp, by rw [Site.put_files, same]⟩
  unfold transactionWrite at returned
  cases answer : answers.write path with
  | unread error =>
    rw [answer] at returned
    cases returned
  | refused | torn | done =>
    rw [answer] at returned
    exact written _ returned

def Back (parts : Parts) (writes : List DeploymentPath) (before after : HostFiles) : Prop :=
  ∀ path, after path = before path ∨
    path ∈ writes ∧ ∃ stamp, after path = (before path).map (restoredEntry parts stamp)

structure Restoring (parts : Parts) (writes : List DeploymentPath) (before : HostFiles)
    (items : List (DeploymentPath × Option HostEntry)) (site : Site) : Prop where
  recorded : ∀ item ∈ items, item.1 ∈ writes ∧ item.2 = before item.1
  back : ∀ path, (∀ item ∈ items, item.1 ≠ path) → site.files path = before path ∨
    path ∈ writes ∧ ∃ stamp, site.files path = (before path).map (restoredEntry parts stamp)

theorem Restoring.put {item : DeploymentPath × Option HostEntry}
    {rest : List (DeploymentPath × Option HostEntry)}
    (restoring : Restoring parts writes before (item :: rest) site) (stamp : Stamp) :
    Restoring parts writes before rest
      (site.put item.1 (item.2.map (restoredEntry parts stamp))) where
  recorded other member := restoring.recorded other (List.mem_cons_of_mem _ member)
  back path absent := by
    have first := restoring.recorded item List.mem_cons_self
    by_cases same : path = item.1
    · rw [same, Site.put_files, update_self, first.2]
      exact .inr ⟨first.1, stamp, rfl⟩
    rw [Site.put_files, update_of_ne same]
    apply restoring.back path
    intro other member
    rcases List.mem_cons.mp member with rfl | late
    · exact fun equal => same equal.symm
    · exact absent other late

theorem Tracked.restoring (tracked : Tracked writes before site) :
    Restoring parts writes before site.recorded.reverse site where
  recorded item member := tracked.recorded item (List.mem_reverse.mp member)
  back path absent :=
    .inl (tracked.others path fun item member => absent item (List.mem_reverse.mpr member))

theorem transactionRollback_contract :
    Contract (fun _ => True) (Tracked writes before) (transactionRollback parts answers)
      (fun _ site => Back parts writes before site.files) (fun _ _ => True) := by
  refine .look fun site tracked => ?_
  refine .bind (fun _ => Restoring parts writes before []) ?_ fun _ => ?_
  · have step (item : DeploymentPath × Option HostEntry)
        (rest : List (DeploymentPath × Option HostEntry)) :
        Contract (fun _ => True) (Restoring parts writes before (item :: rest))
          (replaceFile (answers.undo item.1) item.1 fun stamp =>
            item.2.map (restoredEntry parts stamp))
          (fun _ => Restoring parts writes before rest) (fun _ _ => True) := by
      cases answers.undo item.1 with
      | unread | refused => exact .raise fun _ _ => trivial
      | torn stamp error =>
        exact .bind (fun _ _ => True)
          (.durable (fun _ _ => trivial) fun _ _ => trivial)
          fun _ => .raise fun _ _ => trivial
      | done stamp =>
        exact .durable (fun _ _ => trivial) fun _ restoring => restoring.put stamp
    refine (Contract.forEach _ step site.recorded.reverse).weaken ?_ (fun _ _ kept => kept)
      (fun _ _ _ => trivial)
    rintro _ rfl
    exact tracked.restoring
  · cases answers.callbacks with
    | none =>
      exact Contract.pure fun _ restoring path =>
        restoring.back path fun item member => absurd member List.not_mem_nil
    | some error => exact .raise fun _ _ => trivial

end Transaction

section Native

variable {before : HostFiles} {writes : List DeploymentPath}

theorem rewrite_tracked {bytes : Bytes} (writable : path ∈ writes) :
    (rewrite parts answers path bytes).Respects (Keeping (Tracked writes before)) :=
  .bind (statOf_respects path) fun _ => transactionWrite_tracked writable

variable {changed : List ResourcePath}

theorem recordReceipts_tracked {spec : Manifest} (writable : .manifest ∈ writes) :
    (recordReceipts parts answers spec changed).Respects (Keeping (Tracked writes before)) := by
  refine .bind (raiseIf_respects _) fun _ => ?_
  refine .bind (.inspect id) fun site => ?_
  refine .bind (orRaise_respects _) fun next => ?_
  exact .bind (statOf_respects _) fun metadata => transactionWrite_tracked writable

theorem rewrite_returned {bytes : Bytes}
    (returned : (rewrite parts answers path bytes).final site = (.ok (), last)) :
    ∃ entry, last.files = update site.files path (some entry) ∧
      entry.body = .file (.text bytes) := by
  obtain ⟨metadata, middle, found, rest⟩ := bind_returned returned
  obtain rfl := statOf_returned found
  obtain ⟨stamp, files⟩ := transactionWrite_returned rest
  exact ⟨_, files, rfl⟩

theorem recordReceipts_returned {spec : Manifest}
    (returned : (recordReceipts parts answers spec changed).final site = (.ok (), last)) :
    ∃ next entry, nativeReceipt parts site.files spec changed = some next ∧
      last.files = update site.files .manifest (some entry) ∧
      entry.body = .file (.manifest (parts.dumpManifest next) next) := by
  obtain ⟨_, first, calm, looking⟩ := bind_returned returned
  rw [final_look] at looking
  obtain ⟨next, second, made, finding⟩ := bind_returned looking
  obtain ⟨metadata, third, found, writing⟩ := bind_returned finding
  obtain ⟨stamp, files⟩ := transactionWrite_returned writing
  rw [statOf_returned found, (orRaise_returned made).2, raiseIf_returned calm] at files
  rw [raiseIf_returned calm] at made
  exact ⟨next, _, (orRaise_returned made).1, files, rfl⟩

def nativeWrites (moves : Bool) : List DeploymentPath :=
  .manifest :: (nativeChanged moves).map Subtype.val

section Relation

variable {relation : Site → Site → Prop} [Std.Refl relation] [IsTrans Site relation]

theorem restartService_respects : (restartService answers).Respects relation := by
  unfold restartService
  cases answers.running with
  | false => exact .pure ()
  | true => exact .bind (require_respects _) fun _ => require_respects _

theorem reloadUnit_respects (moves : Bool) : (reloadUnit answers moves).Respects relation := by
  cases moves with
  | false => exact .pure ()
  | true => exact require_respects _

end Relation

theorem stageFolder_tracked (moves : Bool) (filesDir : Text) :
    (stageFolder parts answers moves filesDir).Respects
      (Keeping (Tracked (nativeWrites moves) before)) := by
  cases moves with
  | false => exact .pure ()
  | true =>
    have writable : DeploymentPath.unit ∈ nativeWrites true := by decide
    exact .bind (raiseIf_respects _) fun _ => transactionWrite_tracked writable

theorem nativeApply_tracked (moves : Bool) (next : Manifest) (candidate runtime : Text) :
    (nativeApply parts answers moves next candidate runtime).Respects
      (Keeping (Tracked (nativeWrites moves) before)) := by
  have profile : DeploymentPath.profile ∈ nativeWrites moves := by cases moves <;> decide
  have runtime : DeploymentPath.runtime ∈ nativeWrites moves := by cases moves <;> decide
  refine .bind (stageFolder_tracked moves _) fun _ => ?_
  refine .bind (rewrite_tracked profile) fun _ => ?_
  refine .bind (rewrite_tracked runtime) fun _ => ?_
  refine .bind (require_respects _) fun _ => ?_
  refine .bind (recordReceipts_tracked List.mem_cons_self) fun _ => ?_
  exact .bind (reloadUnit_respects moves) fun _ => restartService_respects

theorem nativeRotate_tracked (spec : Manifest) (username password : Text) :
    (nativeRotate parts answers spec username password).Respects
      (Keeping (Tracked [.auth, .manifest] before)) := by
  refine .bind (rewrite_tracked List.mem_cons_self) fun _ => ?_
  refine .bind (recordReceipts_tracked (by decide)) fun _ => ?_
  exact restartService_respects

theorem restartService_returned
    (returned : (restartService answers).final site = (.ok (), last)) : last = site := by
  unfold restartService at returned
  cases running : answers.running with
  | false =>
    rw [running] at returned
    cases returned
    rfl
  | true =>
    rw [running] at returned
    obtain ⟨_, middle, restarted, healthy⟩ := bind_returned returned
    rw [require_returned healthy, require_returned restarted]

theorem reloadUnit_returned {moves : Bool}
    (returned : (reloadUnit answers moves).final site = (.ok (), last)) : last = site := by
  cases moves with
  | false =>
    cases returned
    rfl
  | true => exact require_returned returned

theorem nativeApply_returned {moves : Bool} {next : Manifest} {candidate runtime : Text}
    (returned : (nativeApply parts answers moves next candidate runtime).final site =
      (.ok (), last)) :
    ∃ middle written entry, nativeReceipt parts middle next (nativeChanged moves) = some written ∧
      last.files = update middle .manifest (some entry) ∧
      entry.body = .file (.manifest (parts.dumpManifest written) written) ∧
      (∃ profile, middle .profile = some profile ∧
        profile.body = .file (.text (encoded candidate))) ∧
      ∃ config, middle .runtime = some config ∧ config.body = .file (.text (encoded runtime)) := by
  obtain ⟨_, first, _, profiling⟩ := bind_returned returned
  obtain ⟨_, second, wroteProfile, compiling⟩ := bind_returned profiling
  obtain ⟨_, third, wroteRuntime, checking⟩ := bind_returned compiling
  obtain ⟨_, fourth, checked, recording⟩ := bind_returned checking
  obtain ⟨_, fifth, recorded, reloading⟩ := bind_returned recording
  obtain ⟨_, sixth, reloaded, restarted⟩ := bind_returned reloading
  obtain ⟨profile, profileFiles, profileBody⟩ := rewrite_returned wroteProfile
  obtain ⟨config, runtimeFiles, runtimeBody⟩ := rewrite_returned wroteRuntime
  obtain ⟨written, entry, made, files, body⟩ := recordReceipts_returned recorded
  rw [require_returned checked] at made files
  rw [← reloadUnit_returned reloaded, ← restartService_returned restarted] at files
  refine ⟨_, written, entry, made, files, body, ⟨profile, ?_, profileBody⟩, config, ?_, runtimeBody⟩
  · rw [runtimeFiles, update_of_ne (by decide), profileFiles, update_self]
  · rw [runtimeFiles, update_self]

end Native

end XFerry.Management.DeploymentChange
