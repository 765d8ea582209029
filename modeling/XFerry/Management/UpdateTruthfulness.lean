/-
What the result of an update says of the `current` link.

A result is truthful unless a step that tidies up after the activation fails
while the link is off the version it designated before.
-/

import XFerry.Management.ReleaseLink

namespace XFerry.Management

open Python CrashProgram CrashProgram.Program

/-! ### The statement -/

/-- A failed update that does not report an incomplete rollback has changed nothing
about the link, and the active version that is reported is the one the link designates. -/
structure Truthful (before : Host) (result : ReleaseResult) (after : Host) : Prop where
  unchanged : result.exitCode ≠ 0 → result.rollback ≠ .incomplete →
    after.designates = before.designates
  active : ∀ version, result.active = some version → after.designates = some version

section Statement

variable (manager : ReleaseManager) (env : Environment)

def EntersMutation : Prop :=
  env.effectiveUid = 0 ∧ env.raises .lockDirectory = none ∧
    env.raises .openLock = none ∧ env.raises .statLock = none ∧
    env.lockUnsafe = false ∧ env.raises .acquireLock = none

def EntersStaging : Prop :=
  createStagingParent env = .ok () ∧ env.raises .createStaging = none ∧
    env.raises .resolveStaging = none ∧ env.stagingInsideReleases = false

/-- An update that is to install `verified` comes to the installation of `candidate`. -/
structure Ready (host : Host) (verified : VerifiedRemoteManifest) (candidate : StoredFile)
    (found : Attempt) : Prop where
  staged : EntersStaging env
  downloaded : downloadCandidate env verified.manifest = .ok candidate
  locked : EntersMutation env
  supported : requireSupportedManagedInstallation env .lockedChecks host = .ok ()
  ready : lockedChecks env verified.manifest host = .ok (.inr found)

/-- The checks before the lock pass, and `verified` is to replace another release. -/
def Accepts (version : Option Text) (dryRun : Bool) (host : Host)
    (verified : VerifiedRemoteManifest) : Prop :=
  ∃ requested platform current,
    refuseUpdate manager env version dryRun = .ok (.inr requested) ∧
    hostChecks manager env requested dryRun host = .ok (.inr platform) ∧
    currentSupportedVersion env .active host = .ok current ∧
    releaseChecks env requested dryRun platform current = .ok (.inr verified) ∧
    verified.manifest.version ≠ current

def installAndActivate (verified : VerifiedRemoteManifest) (candidate : StoredFile)
    (found : Attempt) : Action (Option ReleaseFailure) := do
  let _created ← installVerifiedRelease env verified candidate
  activate env verified.manifest.version found.previous found.wasActive

/-- After a successful activation, pruning raises. -/
def PruningFails (target previous : Text)
    (activated : Except Raised (Option ReleaseFailure) × Host) : Prop :=
  activated.1 = .ok none ∧
    ∃ error, ((pruneVerified env target previous).final activated.2).1 = .error error

/-- Releasing the lock or removing the staging directory raises. -/
def LeavingFails : Prop :=
  env.raises .releaseLock ≠ none ∨ env.raises .closeLock ≠ none ∨
    env.raises .removeStaging ≠ none ∨ removeStagingParent env ≠ .ok ()

/-- A step that tidies up fails after the activation has left the link off the
version it designated before. -/
def FailsAfterSwitch (version : Option Text) (dryRun : Bool) (host : Host) : Prop :=
  ∃ verified candidate found,
    Accepts manager env version dryRun host verified ∧
    Ready env host verified candidate found ∧
    ((installAndActivate env verified candidate found).final host).2.designates ≠
      host.designates ∧
    (PruningFails env verified.manifest.version found.previous
        ((installAndActivate env verified candidate found).final host) ∨
      LeavingFails env)

end Statement

/-! ### Contexts -/

section Contexts

variable {env : Environment} {α : Type} {call : Call}

theorem call_ok (quiet : env.raises call = none) : env.call call = .ok () := by
  rw [Environment.call, quiet]

theorem perform_final_ok (quiet : env.raises call = none) (host : Host) :
    (perform env call).final host = (.ok (), host) := by
  rw [final_perform, call_ok quiet]

theorem perform_final_error {error : PythonError}
    (raised : env.raises call = some error) (host : Host) :
    (perform env call).final host = (.error (.python error), host) := by
  rw [final_perform, Environment.call, raised]

theorem managedMutation_entered (enters : EntersMutation env) (body : Action α) (host : Host) :
    (managedMutation env body).final host =
      (leaving (env.call .closeLock)
        (leaving (env.call .releaseLock) (body.final host).1), (body.final host).2) := by
  obtain ⟨root, directory, opened, status, safe, acquired⟩ := enters
  unfold managedMutation
  rw [if_neg (not_not.mpr root), final_bind_of_ok (perform_final_ok directory host), opened,
    final_bind_of_ok (perform_final_ok status host), safe, acquired]
  rw [if_neg Bool.false_ne_true]
  unfold perform
  rw [final_ensuring_lift, final_ensuring_lift]

variable {error : Raised}

theorem honest_of_not_failure (other : error.isFailure = false) (host : Host) :
    Honest host error := by
  intro failure version same
  rw [same] at other
  cases other

def Refused (host : Host) (outcome : Except Raised α × Host) : Prop :=
  ∃ error, outcome = (.error error, host) ∧ Honest host error

variable {host : Host} {leave : Except Raised Unit}

theorem Refused.leaving {outcome : Except Raised α × Host}
    (refused : Refused host outcome) (left : FailsOnly leave Foreign) :
    Refused host (Program.leaving leave outcome.1, outcome.2) := by
  obtain ⟨error, same, honest⟩ := refused
  rw [same]
  cases answer : leave with
  | ok done => exact ⟨error, rfl, honest⟩
  | error failure => exact ⟨failure, rfl, ((left failure answer).silent).honest host⟩

theorem refused_perform {error : PythonError} {next : Unit → Action α}
    (raised : env.raises call = some error) (host : Host) :
    Refused host ((perform env call >>= next).final host) :=
  ⟨.python error, final_bind_of_error (perform_final_error raised host),
    (silent_python error).honest host⟩

theorem managedMutation_refused (refused : ¬ EntersMutation env) (body : Action α)
    (host : Host) : Refused host ((managedMutation env body).final host) := by
  unfold managedMutation
  by_cases root : env.effectiveUid = 0
  · rw [if_neg (not_not.mpr root)]
    cases directory : env.raises .lockDirectory with
    | some error => exact refused_perform directory host
    | none =>
      rw [final_bind_of_ok (perform_final_ok directory host)]
      cases opened : env.raises .openLock with
      | some error =>
        dsimp only
        split
        · exact ⟨.unsafeLock, rfl, honest_of_not_failure rfl host⟩
        · exact ⟨.python error, rfl, honest_of_not_failure rfl host⟩
      | none =>
        cases status : env.raises .statLock with
        | some error => exact refused_perform status host
        | none =>
          rw [final_bind_of_ok (perform_final_ok status host)]
          cases safe : env.lockUnsafe with
          | true => exact ⟨.unsafeLock, rfl, honest_of_not_failure rfl host⟩
          | false =>
            rw [if_neg Bool.false_ne_true]
            unfold perform
            rw [final_ensuring_lift]
            refine Refused.leaving ?_ (call_foreign .closeLock)
            cases acquired : env.raises .acquireLock with
            | none => exact absurd ⟨root, directory, opened, status, safe, acquired⟩ refused
            | some error =>
              cases error with
              | blockingIOError =>
                exact ⟨.mutationLocked, rfl, honest_of_not_failure rfl host⟩
              | osError | fileNotFoundError | valueError | runtimeError | otherError =>
                exact ⟨_, rfl, honest_of_not_failure rfl host⟩
  · rw [if_pos root]
    exact ⟨.insufficientPrivilege, rfl, honest_of_not_failure rfl host⟩

theorem removeStagingParent_foreign : FailsOnly (removeStagingParent env) Foreign := by
  refine .ite ?_ (.ok _)
  split
  · exact .ite (.ok _) (.error (foreign_python _))
  · exact .ok _

theorem stagingDirectory_entered (enters : EntersStaging env) (body : Action α) (host : Host) :
    (stagingDirectory env body).final host =
      (leaving (removeStagingParent env)
        (leaving (env.call .removeStaging) (body.final host).1), (body.final host).2) := by
  obtain ⟨parent, created, resolved, outside⟩ := enters
  unfold stagingDirectory
  rw [parent, final_bind_of_ok (final_lift (.ok ()) host), final_ensuring_lift,
    final_bind_of_ok (perform_final_ok created host)]
  rw [show perform env .removeStaging = lift (env.call .removeStaging) from rfl,
    final_ensuring_lift, final_bind_of_ok (perform_final_ok resolved host), outside,
    if_neg Bool.false_ne_true]

theorem stagingDirectory_refused (refused : ¬ EntersStaging env) (body : Action α)
    (host : Host) : Refused host ((stagingDirectory env body).final host) := by
  unfold stagingDirectory
  cases parent : createStagingParent env with
  | error error =>
    refine ⟨error, final_bind_of_error (final_lift (.error error) host), ?_⟩
    unfold createStagingParent at parent
    split at parent
    · exact (call_foreign .stagingParent error parent).silent.honest host
    · cases parent
  | ok done =>
    rw [final_bind_of_ok (final_lift (.ok done) host), final_ensuring_lift]
    refine Refused.leaving ?_ removeStagingParent_foreign
    cases created : env.raises .createStaging with
    | some error => exact refused_perform created host
    | none =>
      rw [final_bind_of_ok (perform_final_ok created host),
        show perform env .removeStaging = lift (env.call .removeStaging)
          from rfl, final_ensuring_lift]
      refine Refused.leaving ?_ (call_foreign .removeStaging)
      cases resolved : env.raises .resolveStaging with
      | some error => exact refused_perform resolved host
      | none =>
        rw [final_bind_of_ok (perform_final_ok resolved host)]
        cases outside : env.stagingInsideReleases with
        | false => exact absurd ⟨parent, created, resolved, outside⟩ refused
        | true =>
          rw [if_pos rfl]
          exact ⟨_, final_lift _ host, Silent.honest (silent_failure rfl) host⟩

/-! ### The locked update -/

structure Unmoved (host : Host) (outcome : Except Raised ReleaseResult × Host) : Prop where
  same : outcome.2.designates = host.designates
  returned : ∀ result, outcome.1 = .ok result → Truthful host result outcome.2
  raised : ∀ error, outcome.1 = .error error → Honest host error

variable {outcome : Except Raised ReleaseResult × Host}

theorem Refused.unmoved (refused : Refused host outcome) : Unmoved host outcome := by
  obtain ⟨error, same, honest⟩ := refused
  rw [same]
  refine ⟨rfl, fun result impossible => (nomatch impossible), fun other raised => ?_⟩
  cases raised
  exact honest

theorem updateNoop_truthful {version : Text}
    (designated : host.designates = some version) : Truthful host (updateNoop version) host := by
  refine ⟨fun failed => absurd rfl failed, fun active same => ?_⟩
  cases same
  exact designated

theorem requireNonDowngrade_canonical (candidate current : Text) :
    Ensures (requireNonDowngrade candidate current) fun _ =>
      isCanonicalReleaseVersion candidate = true := by
  unfold requireNonDowngrade
  split
  · exact .error _
  · rename_i order compared
    exact .ite (fun _ => .error _) fun _ => .ok (compare_canonical compared)

def LockedChecked (manifest : ReleaseManifest) (host : Host) : ReleaseResult ⊕ Attempt → Prop
  | .inl result => Truthful host result host
  | .inr found => host.designates = some found.previous ∧ found.previous ≠ manifest.version ∧
      isCanonicalReleaseVersion manifest.version = true

theorem lockedChecks_passed (manifest : ReleaseManifest) (host : Host) :
    Ensures (lockedChecks env manifest host) (LockedChecked manifest host) := by
  refine .andThen fun _ => ?_
  refine .bind (currentSupportedVersion_designates _) fun previous designated => ?_
  refine .bind (requireNonDowngrade_canonical _ previous) fun _ canonical => ?_
  refine .ite (fun same => ?_) fun different => ?_
  · refine .andThen fun path => .andThen fun installed => ?_
    refine .ite (fun _ => .error _) fun _ => .ok ?_
    exact updateNoop_truthful (by rw [designated, same])
  · refine .andThen fun _ => .andThen fun state => ?_
    split
    · exact .error _
    · exact .andThen fun _ => .ok ⟨designated, different, canonical⟩

theorem sameVersionUpdateLocked_truthful (verified : VerifiedRemoteManifest) (host : Host) :
    Ensures (sameVersionUpdateLocked env verified host) fun result =>
      Truthful host result host := by
  refine .andThen fun _ => ?_
  refine .bind (currentSupportedVersion_designates _) fun current designated => ?_
  refine .andThen fun _ => .ite (fun _ => .error _) fun _ => ?_
  refine .andThen fun path => .andThen fun installed => ?_
  exact .ite (fun _ => .error _) fun _ => .ok (updateNoop_truthful designated)

variable (env) in
/-- How the locked update ends, given how its activation has ended. -/
structure Concluded (target previous : Text) (host : Host)
    (activated : Except Raised (Option ReleaseFailure) × Host)
    (outcome : Except Raised ReleaseResult × Host) : Prop where
  same : outcome.2.designates = activated.2.designates
  returned : ∀ result, outcome.1 = .ok result → Truthful host result outcome.2
  pruned : ∀ result, outcome.1 = .ok result → ¬ PruningFails env target previous activated
  raised : ∀ error, outcome.1 = .error error → Silent error ∧
    (activated.2.designates ≠ host.designates →
      Uncaught error ∨ Foreign error ∧ PruningFails env target previous activated)

theorem Relinked.other {start last : Host} {target previous other : Text}
    (linked : Relinked start [target, previous] last) (before : start.linked = some previous)
    (canonical : isCanonicalReleaseVersion target = true)
    (designated : last.designates = some other) (inactive : other ≠ target) :
    other = previous := by
  have canonicalPrevious := linked_canonical before
  cases linked with
  | same => exact designates_of_linked before designated
  | moved named =>
    simp only [List.mem_cons, List.not_mem_nil, or_false] at named
    cases named with
    | inl same =>
      subst same
      exact absurd (designates_of_linked (linked_setCurrent canonical) designated) inactive
    | inr same =>
      subst same
      exact designates_of_linked (linked_setCurrent canonicalPrevious) designated

variable {target previous : Text}

variable (env) in
theorem withdrawCreated_ends {middle last : Host} (created : Bool)
    (canonical : isCanonicalReleaseVersion target = true) (before : middle.linked = some previous)
    (linked : Relinked middle [target, previous] last) :
    Contract (fun _ => True) (· = last) (withdrawCreated env target created)
      (fun _ after => after.designates = last.designates)
      (fun error after => Foreign error ∧ after.designates = last.designates ∧
        (Uncaught error ∨ last.designates = some previous)) := by
  unfold withdrawCreated
  split
  · refine (removeCreatedIfInactive_ends canonical last).weaken (fun _ same => same)
      (fun _ _ same => same) fun error host holds => ⟨holds.1, holds.2.1, ?_⟩
    cases holds.2.2 with
    | inl uncaught => exact .inl uncaught
    | inr inactive =>
      obtain ⟨other, designated, different⟩ := inactive
      rw [designated, linked.other before canonical designated different]
      exact .inr rfl
  · refine .pure fun host same => ?_
    rw [same]

variable {target : Text}

variable (env) in
theorem pruneVerified_designates (previous : Text) {last : Host}
    (active : last.designates = some target) :
    ((pruneVerified env target previous).final last).2.designates = some target := by
  rw [← active]
  refine ((pruneVerified_keeps target previous) last).2.designates fun name linked => ?_
  rw [designates_linked active] at linked
  cases linked
  exact .inl rfl

theorem concludeUpdate_concluded {host middle last : Host}
    {created : Bool} {failure : Option ReleaseFailure}
    (designated : host.designates = some previous)
    (canonical : isCanonicalReleaseVersion target = true) (before : middle.linked = some previous)
    (linked : Relinked middle [target, previous] last)
    (activated : Activated target previous failure last) :
    Concluded env target previous host (.ok failure, last)
      ((concludeUpdate env target previous created failure).final last) := by
  cases failure with
  | none =>
    have kept := pruneVerified_designates env previous activated
    have final : (concludeUpdate env target previous created none).final last =
        (pruneVerified env target previous >>= fun _ =>
          pure (updateComplete target previous)).final last := rfl
    cases ended : (pruneVerified env target previous).final last with
    | mk answer pruned =>
      rw [ended] at kept
      cases answer with
      | ok done =>
        rw [final, final_bind_of_ok ended, final_pure]
        refine ⟨kept.trans activated.symm, ?_, ?_, fun error impossible => nomatch impossible⟩
        · intro result same
          cases same
          refine ⟨fun failed => absurd rfl failed, fun version active => ?_⟩
          cases active
          exact kept
        · rintro result same ⟨_, error, failed⟩
          rw [ended] at failed
          cases failed
      | error error =>
        rw [final, final_bind_of_error ended]
        have foreign := pruneVerified_foreign target previous last error (congrArg Prod.fst ended)
        refine ⟨kept.trans activated.symm, fun result impossible => (nomatch impossible),
          fun result impossible => (nomatch impossible), fun other same => ?_⟩
        cases same
        exact ⟨foreign.silent, fun _ => .inr ⟨foreign, rfl, error, congrArg Prod.fst ended⟩⟩
  | some failure =>
    have withdrawn := withdrawCreated_ends env created canonical before linked
    have final : (concludeUpdate env target previous created (some failure)).final last =
        (withdrawCreated env target created >>= fun _ =>
          pure (updateFailed target previous failure)).final last := rfl
    cases ended : (withdrawCreated env target created).final last with
    | mk answer removed =>
      cases answer with
      | ok done =>
        have kept := withdrawn.of_returned rfl ended
        rw [final, final_bind_of_ok ended, final_pure]
        refine ⟨kept, ?_, ?_, fun error impossible => nomatch impossible⟩
        · intro result same
          cases same
          refine ⟨fun _ complete => ?_, fun version active => ?_⟩
          · rw [kept, designated, activated.unchanged complete]
          · rw [kept, activated.active version active]
        · rintro result same ⟨impossible, _⟩
          cases impossible
      | error error =>
        have kept := withdrawn.of_raised rfl ended
        rw [final, final_bind_of_error ended]
        refine ⟨kept.2.1, fun result impossible => (nomatch impossible),
          fun result impossible => (nomatch impossible), fun other same => ?_⟩
        cases same
        refine ⟨kept.1.silent, fun moved => .inl (kept.2.2.resolve_right fun back => ?_)⟩
        rw [designated] at moved
        exact moved back

theorem Foreign.not_failure (foreign : Foreign error) : error.isFailure = false := by
  cases error with
  | failure failure => exact foreign.elim
  | python | trust | insufficientPrivilege | mutationLocked | unsafeLock => rfl

theorem withdrawCreated_foreign (created : Bool)
    (canonical : isCanonicalReleaseVersion target = true) :
    (withdrawCreated env target created).RaisesOnly Foreign := by
  unfold withdrawCreated
  split
  · intro host error raised
    exact ((removeCreatedIfInactive_ends canonical host).of_raised rfl (Prod.ext raised rfl)).1
  · exact .pure ()

theorem concludeUpdate_foreign (previous : Text) (created : Bool)
    (failure : Option ReleaseFailure) (canonical : isCanonicalReleaseVersion target = true) :
    (concludeUpdate env target previous created failure).RaisesOnly Foreign := by
  cases failure with
  | none => exact .bind (pruneVerified_foreign _ _) fun _ => .pure _
  | some failure =>
    exact .bind (withdrawCreated_foreign created canonical) fun _ => .pure _

variable {body : Action ReleaseResult}

theorem withdrawing_final {created : Bool}
    (other : ∀ error, (body.final host).1 = .error error → error.isFailure = false) :
    (withdrawing env target created body).final host = body.final host := by
  unfold withdrawing
  rw [final_bind_of_ok (final_attempt body host)]
  cases ended : body.final host with
  | mk answer last =>
    cases answer with
    | ok result => rfl
    | error error =>
      have plain := other error (congrArg Prod.fst ended)
      dsimp only
      rw [plain]
      rfl

variable (env) in
theorem activation_concluded {host middle : Host} (created wasActive : Bool)
    (designated : host.designates = some previous)
    (canonical : isCanonicalReleaseVersion target = true) (before : middle.linked = some previous) :
    Concluded env target previous host
      ((activate env target previous wasActive).final middle)
      ((withdrawing env target created (do
        let failure ← activate env target previous wasActive
        concludeUpdate env target previous created failure)).final middle) := by
  have activating : Contract _ _ (activate env target previous wasActive) _ _ :=
    activate_ends target previous wasActive middle
  cases activated : (activate env target previous wasActive).final middle with
  | mk answer last =>
    cases answer with
    | error error =>
      have ended : (activate env target previous wasActive >>= fun failure =>
          concludeUpdate env target previous created failure).final middle =
            (.error error, last) := final_bind_of_error activated
      have uncaught := (activating.of_raised rfl activated).1
      rw [withdrawing_final, ended]
      · refine ⟨rfl, fun result impossible => (nomatch impossible),
          fun result impossible => (nomatch impossible), fun other same => ?_⟩
        cases same
        exact ⟨uncaught.foreign.silent, fun _ => .inl uncaught⟩
      · intro other raised
        rw [ended] at raised
        cases raised
        exact uncaught.foreign.not_failure
    | ok failure =>
      have ended : (activate env target previous wasActive >>= fun failure =>
          concludeUpdate env target previous created failure).final middle =
            (concludeUpdate env target previous created failure).final last :=
        final_bind_of_ok activated
      have holds := activating.of_returned rfl activated
      rw [withdrawing_final, ended]
      · exact concludeUpdate_concluded designated canonical before holds.1 holds.2
      · intro error raised
        rw [ended] at raised
        exact (concludeUpdate_foreign previous created failure canonical last error
          raised).not_failure

variable {verified : VerifiedRemoteManifest} {candidate : StoredFile} {found : Attempt}

theorem updateLocked_concluded
    (ready : lockedChecks env verified.manifest host = .ok (.inr found)) :
    Concluded env verified.manifest.version found.previous host
      ((installAndActivate env verified candidate found).final host)
      ((updateLocked env verified candidate).final host) := by
  obtain ⟨designated, different, canonical⟩ := lockedChecks_passed _ host _ ready
  have checked : (reading (lockedChecks env verified.manifest)).final host =
      (.ok (.inr found), host) := by
    rw [final_reading, ready]
  unfold updateLocked installAndActivate
  rw [final_bind_of_ok checked]
  have linkedBefore := designates_linked designated
  have keeps : Keeps _ ((installVerifiedRelease env verified candidate).final host).2
      host := ((installVerifiedRelease_keeps verified candidate) host).2
  cases installed : (installVerifiedRelease env verified candidate).final host with
  | mk answer middle =>
    rw [installed] at keeps
    cases answer with
    | error error =>
      rw [final_bind_of_error installed, final_bind_of_error installed]
      have silent := installVerifiedRelease_silent verified candidate host error
        (congrArg Prod.fst installed)
      refine ⟨rfl, fun result impossible => (nomatch impossible),
        fun result impossible => (nomatch impossible), fun other same => ?_⟩
      cases same
      refine ⟨silent, fun moved => absurd (keeps.designates fun name linked => ?_) moved⟩
      rw [linkedBefore] at linked
      cases linked
      exact ⟨linked_canonical linkedBefore, different⟩
    | ok created =>
      rw [final_bind_of_ok installed, final_bind_of_ok installed]
      exact activation_concluded env created found.wasActive designated canonical
        (by rw [linked_congr keeps.1, linkedBefore])

/-! ### The whole update -/

variable (env) in
structure Applied (target previous : Text) (host : Host)
    (activated : Except Raised (Option ReleaseFailure) × Host)
    (outcome : Except Raised ReleaseResult × Host) : Prop where
  same : outcome.2.designates = activated.2.designates
  returned : ∀ result, outcome.1 = .ok result → Truthful host result outcome.2
  tidied : ∀ result, outcome.1 = .ok result →
    ¬ (PruningFails env target previous activated ∨ LeavingFails env)
  raised : ∀ error, outcome.1 = .error error → Honest host error ∧
    (activated.2.designates ≠ host.designates →
      Foreign error ∧ (Uncaught error ∨
        PruningFails env target previous activated ∨ LeavingFails env))

theorem raises_of_call (raised : env.call call = .error error) : env.raises call ≠ none := by
  intro quiet
  rw [call_ok quiet] at raised
  cases raised

theorem raises_none (done : env.call call = .ok ()) : env.raises call = none := by
  unfold Environment.call at done
  split at done
  · assumption
  · cases done

theorem Applied.of_concluded {activated : Except Raised (Option ReleaseFailure) × Host}
    (concluded : Concluded env target previous host activated outcome) :
    Applied env target previous host activated (leaving (removeStagingParent env)
        (leaving (env.call .removeStaging) (leaving (env.call .closeLock)
            (leaving (env.call .releaseLock) outcome.1))), outcome.2) := by
  refine ⟨concluded.same, fun result same => ?_, fun result same => ?_, fun error same => ?_⟩
  · obtain ⟨_, inner⟩ := leaving_ok.mp same
    obtain ⟨_, inner⟩ := leaving_ok.mp inner
    obtain ⟨_, inner⟩ := leaving_ok.mp inner
    obtain ⟨_, inner⟩ := leaving_ok.mp inner
    exact concluded.returned result inner
  · obtain ⟨parent, inner⟩ := leaving_ok.mp same
    obtain ⟨staging, inner⟩ := leaving_ok.mp inner
    obtain ⟨close, inner⟩ := leaving_ok.mp inner
    obtain ⟨release, inner⟩ := leaving_ok.mp inner
    rintro (pruning | released | closed | removed | left)
    · exact concluded.pruned result inner pruning
    · exact released (raises_none release)
    · exact closed (raises_none close)
    · exact removed (raises_none staging)
    · exact left parent
  · have left : ∀ {failure : Raised}, Foreign failure → LeavingFails env →
        Honest host failure ∧ (activated.2.designates ≠ host.designates →
          Foreign failure ∧ (Uncaught failure ∨
            PruningFails env target previous activated ∨ LeavingFails env)) :=
      fun foreign fails => ⟨foreign.silent.honest host, fun _ => ⟨foreign, .inr (.inr fails)⟩⟩
    cases leaving_error same with
    | inl parent =>
      refine left (removeStagingParent_foreign error parent) (.inr (.inr (.inr ?_)))
      rw [parent]
      exact fun impossible => nomatch impossible
    | inr inner =>
      cases leaving_error inner.2 with
      | inl staging =>
        exact left (call_foreign _ error staging) (.inr (.inr (.inl (raises_of_call staging))))
      | inr inner =>
        cases leaving_error inner.2 with
        | inl close =>
          exact left (call_foreign _ error close) (.inr (.inl (raises_of_call close)))
        | inr inner =>
          cases leaving_error inner.2 with
          | inl release =>
            exact left (call_foreign _ error release) (.inl (raises_of_call release))
          | inr inner =>
            have here := concluded.raised error inner.2
            refine ⟨here.1.honest host, fun moved => ?_⟩
            cases here.2 moved with
            | inl uncaught => exact ⟨uncaught.foreign, .inl uncaught⟩
            | inr pruning => exact ⟨pruning.1, .inr (.inl pruning.2)⟩

theorem Unmoved.leaving (unmoved : Unmoved host outcome) (left : FailsOnly leave Foreign) :
    Unmoved host (Program.leaving leave outcome.1, outcome.2) := by
  refine ⟨unmoved.same, fun result same => ?_, fun error same => ?_⟩
  · exact unmoved.returned result (leaving_ok.mp same).2
  · cases leaving_error same with
    | inl here => exact (left error here).silent.honest host
    | inr there => exact unmoved.raised error there.2

theorem Unmoved.of_reading {read : Host → Except Raised ReleaseResult}
    (truthful : Ensures (read host) fun result => Truthful host result host)
    (honest : FailsOnly (read host) (Honest host)) :
    Unmoved host ((reading read).final host) := by
  rw [final_reading]
  exact ⟨rfl, truthful, honest⟩

theorem unmoved_of_error (honest : Honest host error) : Unmoved host (.error error, host) :=
  Refused.unmoved ⟨error, rfl, honest⟩

theorem applyUpdate_applied {current : Text} (differs : verified.manifest.version ≠ current)
    (ready : Ready env host verified candidate found) :
    Applied env verified.manifest.version found.previous host
      ((installAndActivate env verified candidate found).final host)
      ((applyUpdate env verified current).final host) := by
  have downloaded : (lift (downloadCandidate env verified.manifest) :
      Action StoredFile).final host = (.ok candidate, host) := by
    rw [final_lift, ready.downloaded]
  have supported : (reading (requireSupportedManagedInstallation env
      .lockedChecks)).final host = (.ok (), host) := by
    rw [final_reading, ready.supported]
  unfold applyUpdate
  rw [if_neg differs, stagingDirectory_entered ready.staged, final_bind_of_ok downloaded,
    managedMutation_entered ready.locked, final_bind_of_ok supported]
  exact Applied.of_concluded (updateLocked_concluded ready.ready)

theorem updateLocked_unmoved
    (unready : ∀ found, lockedChecks env verified.manifest host ≠ .ok (.inr found)) :
    Unmoved host ((updateLocked env verified candidate).final host) := by
  unfold updateLocked
  cases checked : lockedChecks env verified.manifest host with
  | error error =>
    rw [final_bind_of_error (by rw [final_reading, checked])]
    exact unmoved_of_error (lockedChecks_honest _ error checked)
  | ok answer =>
    rw [final_bind_of_ok (by rw [final_reading, checked])]
    cases answer with
    | inr found => exact absurd checked (unready found)
    | inl result =>
      have truthful := lockedChecks_passed _ host _ checked
      refine ⟨rfl, fun other same => ?_, fun error impossible => nomatch impossible⟩
      cases same
      exact truthful

/-- What the lock and the check of the installation enclose decides about the whole. -/
theorem supportedMutation_unmoved {body : Action ReleaseResult}
    (unmoved : EntersMutation env →
      requireSupportedManagedInstallation env .lockedChecks host = .ok () →
        Unmoved host (body.final host)) :
    Unmoved host ((managedMutation env (do
      reading (requireSupportedManagedInstallation env .lockedChecks)
      body)).final host) := by
  by_cases locked : EntersMutation env
  · rw [managedMutation_entered locked]
    refine Unmoved.leaving (Unmoved.leaving ?_ (call_foreign _)) (call_foreign _)
    cases supported : requireSupportedManagedInstallation env .lockedChecks host with
    | error error =>
      rw [final_bind_of_error (by rw [final_reading, supported])]
      exact unmoved_of_error
        ((requireSupportedManagedInstallation_silent _ error supported).honest host)
    | ok done =>
      rw [final_bind_of_ok (by rw [final_reading, supported])]
      exact unmoved locked supported
  · exact (managedMutation_refused locked _ host).unmoved

theorem applyUpdate_unmoved {current : Text} (unready : verified.manifest.version ≠ current →
      ∀ candidate found, ¬ Ready env host verified candidate found) :
    Unmoved host ((applyUpdate env verified current).final host) := by
  unfold applyUpdate
  by_cases same : verified.manifest.version = current
  · rw [if_pos same]
    exact supportedMutation_unmoved fun _ _ =>
      Unmoved.of_reading (sameVersionUpdateLocked_truthful verified host)
        (sameVersionUpdateLocked_honest verified)
  · rw [if_neg same]
    by_cases staged : EntersStaging env
    · rw [stagingDirectory_entered staged]
      refine Unmoved.leaving (Unmoved.leaving ?_ (call_foreign _)) removeStagingParent_foreign
      cases downloaded : downloadCandidate env verified.manifest with
      | error error =>
        exact unmoved_of_error ((downloadCandidate_silent _ error downloaded).honest host)
      | ok candidate =>
        rw [final_bind_of_ok (by rw [final_lift])]
        refine supportedMutation_unmoved fun locked supported => ?_
        refine updateLocked_unmoved fun found ready => ?_
        exact unready same candidate found ⟨staged, downloaded, locked, supported, ready⟩
    · exact (stagingDirectory_refused staged _ host).unmoved

/-! ### The report -/

variable {requested : Text} {dryRun : Bool} {current : Option Text}

theorem report_active (honest : Honest host error)
    (designated : ∀ version, current = some version → host.designates = some version) :
    Ensures (report requested dryRun current error) fun result =>
      ∀ version, result.active = some version → host.designates = some version := by
  unfold report
  split
  · rename_i failure
    refine .ok fun version active => ?_
    cases own : failure.active with
    | none =>
      rw [own] at active
      exact designated version active
    | some other =>
      rw [own] at active
      cases active
      exact honest failure version rfl own
  · exact .ok designated
  · exact .ok designated
  · exact .ok designated
  · exact .ite (fun _ => .ok designated) fun _ => .error _
  · exact .ite (fun _ => .ok designated) fun _ => .error _

theorem report_foreign (foreign : Foreign error) :
    Ensures (report requested dryRun current error) fun result =>
      result.exitCode ≠ 0 ∧ result.rollback ≠ .incomplete := by
  have plain : (1 : Nat) ≠ 0 ∧ Rollback.notAttempted ≠ .incomplete := by decide
  unfold report
  cases error with
  | python | trust =>
    exact .ite (fun _ => .ok plain) fun _ => .error _
  | failure | insufficientPrivilege | mutationLocked | unsafeLock => exact foreign.elim

theorem report_uncaught (uncaught : Uncaught error) :
    report requested dryRun current error = .error error := by
  cases uncaught with
  | inl same | inr same => rw [same]; rfl

theorem reporting_returned {host last : Host} {result : ReleaseResult}
    (returned : (reporting requested dryRun current body).final host = (.ok result, last)) :
    body.final host = (.ok result, last) ∨
      ∃ error, body.final host = (.error error, last) ∧
        report requested dryRun current error = .ok result := by
  unfold reporting at returned
  rw [final_bind_of_ok (final_attempt body host)] at returned
  cases ended : body.final host with
  | mk answer after =>
    rw [ended] at returned
    cases answer with
    | ok value => exact .inl returned
    | error error =>
      change (lift (report requested dryRun current error) : Action _).final after = _
        at returned
      rw [final_lift, Prod.mk.injEq] at returned
      rw [returned.2]
      exact .inr ⟨error, rfl, returned.1⟩

/-! ### The claim about every update -/

section Update

variable {manager : ReleaseManager} {version : Option Text} {dryRun : Bool} {host last : Host}
  {result : ReleaseResult}

theorem refuseUpdate_unreported :
    Ensures (refuseUpdate manager env version dryRun) fun accepted =>
      ∀ refusal, accepted = .inl refusal → refusal.active = none := by
  refine .ite (fun _ => .ok fun refusal same => ?_) fun _ => ?_
  · cases same
    rfl
  split
  · refine .ok fun refusal same => ?_
    cases same
    rfl
  refine .ite (fun _ => .ok fun refusal same => ?_) fun _ => ?_
  · cases same
    rfl
  split
  · exact .error _
  refine .ite (fun _ => .ok fun refusal same => ?_) fun _ => ?_
  · cases same
    rfl
  refine .ite (fun _ => .ok fun refusal same => ?_) fun _ => ?_
  · cases same
    rfl
  exact .ok fun refusal same => nomatch same

theorem hostChecks_unreported :
    Ensures (hostChecks manager env requested dryRun host) fun checked =>
      ∀ refusal, checked = .inl refusal → refusal.active = none := by
  refine .andThen fun platform => .andThen fun _ => .andThen fun present => ?_
  refine .ite (fun _ => .ok fun refusal same => ?_) fun _ => ?_
  · cases same
    rfl
  refine .andThen fun _ => .ite (fun _ => .ok fun refusal same => nomatch same)
    fun _ => .error _

theorem releaseChecks_reported {requested platform current : Text}
    (designated : host.designates = some current) :
    Ensures (releaseChecks env requested dryRun platform current) fun decided =>
      ∀ refusal, decided = .inl refusal → Truthful host refusal host := by
  refine .andThen fun verified => .ite (fun _ => .error _) fun _ => ?_
  refine .ite (fun _ => .ok fun refusal same => ?_) fun _ => ?_
  · cases same
    refine ⟨fun _ _ => rfl, fun active same => ?_⟩
    cases same
    exact designated
  refine .ite (fun _ => .error _) fun _ => .andThen fun _ => ?_
  refine .ite (fun _ => .ok fun refusal same => ?_) fun _ =>
    .ok fun refusal same => nomatch same
  cases same
  refine ⟨fun _ _ => rfl, fun active same => ?_⟩
  cases same
  exact designated

theorem truthful_of_unreported (unsaid : result.active = none) : Truthful host result host := by
  refine ⟨fun _ _ => rfl, fun active same => ?_⟩
  rw [unsaid] at same
  cases same

theorem truthful_of_report
    (honest : Honest host error) (unmoved : last.designates = host.designates)
    (designated : ∀ version, current = some version → host.designates = some version)
    (reported : report requested dryRun current error = .ok result) :
    Truthful host result last := by
  refine ⟨fun _ _ => unmoved, fun active same => ?_⟩
  rw [unmoved]
  exact report_active honest designated result reported active same

theorem report_error {current other : Option Text} {error raised : Raised}
    (reported : report requested dryRun current error = .error raised) :
    report requested dryRun other raised = .error raised := by
  cases error with
  | python failure =>
    unfold report at reported
    dsimp only at reported
    split at reported
    · cases reported
    rename_i uncaught
    cases reported
    unfold report
    dsimp only
    rw [if_neg uncaught]
  | trust | failure | insufficientPrivilege | mutationLocked | unsafeLock => cases reported

variable (manager env version dryRun host) in
structure Decided (requested platform current : Text) (verified : VerifiedRemoteManifest) :
    Prop where
  accepted : refuseUpdate manager env version dryRun = .ok (.inr requested)
  checked : hostChecks manager env requested dryRun host = .ok (.inr platform)
  read : currentSupportedVersion env .active host = .ok current
  decided : releaseChecks env requested dryRun platform current = .ok (.inr verified)

variable (env result last) in
/-- The changing part of an update returns the result or raises what the result reports. -/
def ComesFrom (requested current : Text) (dryRun : Bool) (host : Host)
    (verified : VerifiedRemoteManifest) : Prop :=
  (applyUpdate env verified current).final host = (.ok result, last) ∨
    ∃ error, (applyUpdate env verified current).final host = (.error error, last) ∧
      report requested dryRun (some current) error = .ok result

theorem updateFrom_returned {requested platform current : Text}
    (designated : host.designates = some current)
    (returned : (reporting requested dryRun (some current)
      (updateFrom env requested dryRun platform current)).final host =
        (.ok result, last)) :
    (Truthful host result last ∧ ∀ verified,
      releaseChecks env requested dryRun platform current ≠ .ok (.inr verified)) ∨
    ∃ verified, releaseChecks env requested dryRun platform current = .ok (.inr verified) ∧
      ComesFrom env last result requested current dryRun host verified := by
  have known : ∀ version, some current = some version → host.designates = some version := by
    rintro version ⟨⟩
    exact designated
  have came := reporting_returned returned
  unfold updateFrom at came
  cases decided : releaseChecks env requested dryRun platform current with
  | error error =>
    rw [final_bind_of_error (by rw [final_lift, decided])] at came
    refine .inl ⟨?_, fun verified impossible => nomatch impossible⟩
    rcases came with impossible | ⟨raised, same, reported⟩
    · cases impossible
    · cases same
      exact truthful_of_report (releaseChecks_honest _ _ _ _ designated error decided) rfl known
        reported
  | ok answer =>
    rw [final_bind_of_ok (by rw [final_lift, decided])] at came
    cases answer with
    | inl refusal =>
      refine .inl ⟨?_, fun verified impossible => nomatch impossible⟩
      rcases came with same | ⟨raised, impossible, _⟩
      · cases same
        exact releaseChecks_reported designated _ decided _ rfl
      · cases impossible
    | inr verified => exact .inr ⟨verified, rfl, came⟩

theorem tryUpdate_raised {requested platform current : Text} {raised : Raised}
    (checked : hostChecks manager env requested dryRun host = .ok (.inr platform))
    (read : currentSupportedVersion env .active host = .ok current)
    (failed : (tryUpdate manager env requested dryRun).final host =
      (.error raised, last)) :
    report requested dryRun none raised = .error raised := by
  unfold tryUpdate at failed
  rw [final_bind_of_ok (by rw [final_reading, checked])] at failed
  rw [final_bind_of_ok (by rw [final_reading, read])] at failed
  unfold reporting at failed
  rw [final_bind_of_ok (final_attempt _ host)] at failed
  cases ended : (updateFrom env requested dryRun platform current).final host with
  | mk answer after =>
    rw [ended] at failed
    cases answer with
    | ok value => cases failed
    | error error =>
      rw [final_lift, Prod.mk.injEq] at failed
      exact report_error failed.1

theorem update_returned
    (returned : (update manager env version dryRun).final host = (.ok result, last)) :
    (Truthful host result last ∧
      ∀ verified, ¬ Accepts manager env version dryRun host verified) ∨
    ∃ requested platform current verified,
      Decided env manager version dryRun host requested platform current verified ∧
      ComesFrom env last result requested current dryRun host verified := by
  unfold update at returned
  cases accepted : refuseUpdate manager env version dryRun with
  | error error =>
    rw [final_bind_of_error (by rw [final_lift, accepted])] at returned
    cases returned
  | ok answer =>
    rw [final_bind_of_ok (by rw [final_lift, accepted])] at returned
    cases answer with
    | inl refusal =>
      cases returned
      refine .inl ⟨truthful_of_unreported (refuseUpdate_unreported _ accepted _ rfl), ?_⟩
      rintro verified ⟨_, _, _, other, _⟩
      rw [accepted] at other
      cases other
    | inr requested =>
      have came := reporting_returned returned
      have unaccepted : (∀ platform current verified,
          ¬ Decided env manager version dryRun host requested platform current verified) →
          ∀ verified, ¬ Accepts manager env version dryRun host verified := by
        rintro undecided verified ⟨other, platform, current, taken, checked, read, decided, _⟩
        rw [accepted] at taken
        cases taken
        exact undecided platform current verified ⟨accepted, checked, read, decided⟩
      have unknown : ∀ version, (none : Option Text) = some version →
          host.designates = some version := fun _ impossible => nomatch impossible
      cases checked : hostChecks manager env requested dryRun host with
      | error error =>
        have ended : (tryUpdate manager env requested dryRun).final host = (.error error, host) :=
          final_bind_of_error (by rw [final_reading, checked])
        refine .inl ⟨?_, unaccepted fun _ _ _ decided => ?_⟩
        · rw [ended] at came
          rcases came with impossible | ⟨raised, same, reported⟩
          · cases impossible
          · cases same
            exact truthful_of_report ((hostChecks_silent _ _ error checked).honest host) rfl
              unknown reported
        · have other := decided.checked
          rw [checked] at other
          cases other
      | ok answer =>
        have ended : (tryUpdate manager env requested dryRun).final host = _ :=
          final_bind_of_ok (by rw [final_reading, checked])
        cases answer with
        | inl refusal =>
          refine .inl ⟨?_, unaccepted fun _ _ _ decided => ?_⟩
          · rw [ended] at came
            rcases came with same | ⟨raised, impossible, _⟩
            · cases same
              exact truthful_of_unreported (hostChecks_unreported _ checked _ rfl)
            · cases impossible
          · have other := decided.checked
            rw [checked] at other
            cases other
        | inr platform =>
          cases read : currentSupportedVersion env .active host with
          | error error =>
            rw [final_bind_of_error (by rw [final_reading, read])] at ended
            refine .inl ⟨?_, unaccepted fun _ _ _ decided => ?_⟩
            · rw [ended] at came
              rcases came with impossible | ⟨raised, same, reported⟩
              · cases impossible
              · cases same
                exact truthful_of_report
                  ((currentSupportedVersion_silent _ error read).honest host) rfl unknown
                  reported
            · have other := decided.read
              rw [read] at other
              cases other
          | ok current =>
            have designated := currentSupportedVersion_designates _ current read
            rw [final_bind_of_ok (by rw [final_reading, read])] at ended
            rcases came with inner | ⟨raised, failed, reported⟩
            · rw [ended] at inner
              rcases updateFrom_returned designated inner with
                ⟨truthful, undecided⟩ | ⟨verified, decided, came⟩
              · refine .inl ⟨truthful, unaccepted fun other also verified decided => ?_⟩
                have first := decided.checked
                have second := decided.read
                rw [checked] at first
                rw [read] at second
                cases first
                cases second
                exact undecided verified decided.decided
              · exact .inr ⟨requested, platform, current, verified,
                  ⟨accepted, checked, read, decided⟩, came⟩
            · rw [tryUpdate_raised checked read failed] at reported
              cases reported

theorem Decided.unique {requested platform current : Text} {verified other : VerifiedRemoteManifest}
    (decided : Decided env manager version dryRun host requested platform current verified)
    (accepts : Accepts manager env version dryRun host other) :
    other = verified ∧ verified.manifest.version ≠ current := by
  obtain ⟨_, _, _, accepted, checked, read, taken, differs⟩ := accepts
  rw [decided.accepted] at accepted
  cases accepted
  rw [decided.checked] at checked
  cases checked
  rw [decided.read] at read
  cases read
  rw [decided.decided] at taken
  cases taken
  exact ⟨rfl, differs⟩

theorem Ready.unique {candidate other : StoredFile}
    {found also : Attempt} (ready : Ready env host verified candidate found)
    (another : Ready env host verified other also) : other = candidate ∧ also = found := by
  have sameFile := another.downloaded
  rw [ready.downloaded] at sameFile
  have sameAttempt := another.ready
  rw [ready.ready] at sameAttempt
  cases sameFile
  cases sameAttempt
  exact ⟨rfl, rfl⟩

theorem Decided.failsAfterSwitch_iff {requested platform current : Text}
    (decided : Decided env manager version dryRun host requested platform current verified)
    (differs : verified.manifest.version ≠ current)
    (ready : Ready env host verified candidate found) :
    FailsAfterSwitch manager env version dryRun host ↔
      ((installAndActivate env verified candidate found).final host).2.designates ≠
        host.designates ∧ (PruningFails env verified.manifest.version found.previous
          ((installAndActivate env verified candidate found).final host) ∨
        LeavingFails env) := by
  constructor
  · rintro ⟨other, file, also, accepts, another, failed⟩
    obtain ⟨same, _⟩ := decided.unique accepts
    subst same
    obtain ⟨sameFile, sameAttempt⟩ := ready.unique another
    subst sameFile sameAttempt
    exact failed
  · intro failed
    exact ⟨verified, candidate, found, ⟨requested, platform, current, decided.accepted,
      decided.checked, decided.read, decided.decided, differs⟩, ready, failed⟩

/-- A result is truthful in every case but one: a step that tidies up has failed
after the activation left the link off the version it designated before. -/
theorem update_truthful_iff
    (returned : (update manager env version dryRun).final host = (.ok result, last)) :
    Truthful host result last ↔ ¬ FailsAfterSwitch manager env version dryRun host := by
  rcases update_returned returned with
    ⟨truthful, unaccepted⟩ | ⟨requested, platform, current, verified, decided, came⟩
  · refine iff_of_true truthful ?_
    rintro ⟨other, _, _, accepts, _⟩
    exact unaccepted other accepts
  have designated := currentSupportedVersion_designates _ current decided.read
  have known : ∀ version, some current = some version → host.designates = some version := by
    rintro version ⟨⟩
    exact designated
  by_cases reached : verified.manifest.version ≠ current ∧
      ∃ candidate found, Ready env host verified candidate found
  · obtain ⟨differs, candidate, found, ready⟩ := reached
    have applied := applyUpdate_applied differs ready
    have fails := decided.failsAfterSwitch_iff differs ready
    rcases came with same | ⟨error, same, reported⟩
    · rw [same] at applied
      refine iff_of_true (applied.returned result rfl) fun failed => ?_
      exact applied.tidied result rfl (fails.mp failed).2
    rw [same] at applied
    obtain ⟨honest, moved⟩ := applied.raised error rfl
    by_cases back : ((installAndActivate env verified candidate found).final
        host).2.designates = host.designates
    · refine iff_of_true ?_ fun failed => (fails.mp failed).1 back
      exact truthful_of_report honest (applied.same.trans back) known reported
    obtain ⟨foreign, cause⟩ := moved back
    refine iff_of_false (fun truthful => ?_) fun intact => intact (fails.mpr ⟨back, ?_⟩)
    · have plain := report_foreign foreign result reported
      exact back (applied.same.symm.trans (truthful.unchanged plain.1 plain.2))
    · refine cause.resolve_left fun uncaught => ?_
      rw [report_uncaught uncaught] at reported
      cases reported
  · have unmoved : Unmoved host ((applyUpdate env verified current).final host) :=
      applyUpdate_unmoved fun differs candidate found ready =>
        reached ⟨differs, candidate, found, ready⟩
    refine iff_of_true ?_ ?_
    · rcases came with same | ⟨error, same, reported⟩
      · rw [same] at unmoved
        exact unmoved.returned result rfl
      · rw [same] at unmoved
        exact truthful_of_report (unmoved.raised error rfl) unmoved.same known reported
    · rintro ⟨other, candidate, found, accepts, ready, _⟩
      obtain ⟨same, differs⟩ := decided.unique accepts
      rw [same] at ready
      exact reached ⟨differs, candidate, found, ready⟩

end Update

end Contexts

/-! ### A pruning that fails -/

section Sample

def sampleManifest (version : Text) : ReleaseManifest :=
  { schemaVersion := 2, version := version, tag := 'v' :: version, platform := "linux-x86_64".toList
    executableName := [], executableSize := 0, executableSha256 := [], sourceCommit := none
    workflowRun := none, artifactDigests := [], signingScheme := none, signingKeyIds := [] }

def sampleTrust : ReleaseTrust :=
  { parse := fun payload => .ok (sampleManifest (payload.map fun byte => Char.ofNat byte.toNat))
    parseSigned := fun payload =>
      .ok (sampleManifest (payload.map fun byte => Char.ofNat byte.toNat))
    verifySignature := fun _ _ _ => .ok ()
    sha256 := fun _ => [] }

def samplePayload (version : Text) : Bytes := version.map fun char => UInt8.ofNat char.toNat

def sampleRelease (version : Text) : ReleaseEntry :=
  { kind := .directory, executable := some (plainFile [])
    metadata := some (plainFile (samplePayload version)), signature := none, modified := 0 }

def sampleHost : Host :=
  { rootPresent := true
    current := linkTo "0.5.0".toList
    releases := (OrderedDict.empty.assign "0.4.0".toList (sampleRelease "0.4.0".toList)).assign
      "0.5.0".toList (sampleRelease "0.5.0".toList) }

def sampleEnvironment (fault : Option Call) : Environment :=
  { raises := fun call => if fault = some call then some .osError else none
    statFails := fun _ _ => false
    trust := sampleTrust
    unicode := Unicode.ascii
    effectiveUid := 0
    hostFacts := { machine := "x86_64".toList, isSupported := true, managedSupportDetail := "" }
    platformId := "linux-x86_64".toList
    unsupportedState := fun _ => false
    manifestPayload := samplePayload "0.5.1".toList
    signaturePayload := []
    lockUnsafe := false
    stagingParentMissing := false
    stagingInsideReleases := false
    candidate := plainFile []
    configCheck := { returncode := 0, stdout := [] }
    serviceState := fun _ => { returncode := 0, stdout := "active".toList }
    restart := fun _ => { returncode := 0, stdout := [] }
    stop := fun _ => { returncode := 0, stdout := [] }
    healthChecks := fun _ =>
      [.answered { ok := true, detail := "healthy", version := some "0.5.1".toList }]
    temporarySuffix := "a".toList
    installedModified := 1
    ownerInvalid := false
    remains := fun _ _ entry => some entry }

def sampleManager : ReleaseManager := { remoteUpdatesEnabled := true, releaseBaseUrlSafe := true }

def sampleUpdate (fault : Option Call) : Except Raised ReleaseResult × Host :=
  (update sampleManager (sampleEnvironment fault) (some "0.5.1".toList) false).final sampleHost

theorem sampleUpdate_truthful_iff :
    Truthful sampleHost (updateComplete "0.5.1".toList "0.5.0".toList) (sampleUpdate none).2 ↔
      ¬ FailsAfterSwitch sampleManager (sampleEnvironment none) (some "0.5.1".toList) false
        sampleHost :=
  update_truthful_iff (Prod.ext (by decide +kernel) rfl)

/-- What `update` returns when the removal of release 0.4.0 fails. -/
def pruningFailedResult : ReleaseResult :=
  { exitCode := 1, message := "release_operation_failed", version := some "0.5.1".toList
    before := some "0.5.0".toList, target := some "0.5.1".toList
    active := some "0.5.0".toList }

/-- The update that fails while pruning is reported as one that has changed nothing. -/
theorem failed_pruning_reported_unchanged :
    (sampleUpdate (some (.removeTree .prune "0.4.0".toList))).1 = .ok pruningFailedResult ∧
      ¬ Truthful sampleHost pruningFailedResult
        (sampleUpdate (some (.removeTree .prune "0.4.0".toList))).2 := by
  have moved : (sampleUpdate (some (.removeTree .prune "0.4.0".toList))).2.designates =
      some "0.5.1".toList := by decide +kernel
  refine ⟨by decide +kernel, fun truthful => ?_⟩
  have claimed := truthful.active "0.5.0".toList rfl
  revert claimed
  decide +kernel

end Sample

end XFerry.Management
