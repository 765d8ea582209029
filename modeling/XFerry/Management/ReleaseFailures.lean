/-
Which active version the failures of an update can carry.
-/

import XFerry.Ensures
import XFerry.Management.ReleaseUpdate

namespace XFerry.Management

open Python CrashProgram CrashProgram.Program

def Foreign : Raised → Prop
  | .python _ | .trust _ => True
  | _ => False

/-- What an update raises under the lock, where a failure says nothing about the
active version. -/
def Silent : Raised → Prop
  | .failure failure => failure.active = none
  | .python _ | .trust _ => True
  | _ => False

/-- A failure that says nothing false about the active version. -/
def Honest (host : Host) (error : Raised) : Prop :=
  ∀ failure version, error = .failure failure → failure.active = some version →
    host.designates = some version

/-- No `except` clause of an update catches it. -/
def Uncaught (error : Raised) : Prop :=
  error = .python .runtimeError ∨ error = .python .otherError

variable {error : Raised}

theorem Silent.honest (silent : Silent error) (host : Host) : Honest host error := by
  intro failure version same active
  rw [same] at silent
  rw [show failure.active = none from silent] at active
  cases active

theorem Foreign.silent (foreign : Foreign error) : Silent error := by
  cases error with
  | python | trust => trivial
  | failure | insufficientPrivilege | mutationLocked | unsafeLock => exact foreign.elim

theorem Silent.uncaught (silent : Silent error)
    (escapes : (error.isOSError || error.isValueError || error.isFailure) = false) :
    Uncaught error := by
  cases error with
  | python error =>
    cases error with
    | runtimeError => exact .inl rfl
    | otherError => exact .inr rfl
    | osError | blockingIOError | fileNotFoundError | valueError => cases escapes
  | trust | failure => cases escapes
  | insufficientPrivilege | mutationLocked | unsafeLock => exact silent.elim

theorem Uncaught.foreign (uncaught : Uncaught error) : Foreign error := by
  cases uncaught with
  | inl same | inr same =>
    rw [same]
    trivial

theorem foreign_python (error : PythonError) : Foreign (.python error) := trivial

theorem silent_python (error : PythonError) : Silent (.python error) := trivial

theorem silent_failure {failure : ReleaseFailure} (unsaid : failure.active = none) :
    Silent (.failure failure) := unsaid

section Silence

variable {α : Type} {env : Environment} {host : Host} {computation : Except Raised α}

theorem silent_of_foreign (foreign : FailsOnly computation Foreign) :
    FailsOnly computation Silent :=
  foreign.imp fun _ => Foreign.silent

variable {exitCode : Nat} {message : String}

theorem fails_silent : FailsOnly (fails exitCode message : Except Raised α) Silent :=
  .error (silent_failure rfl)

theorem call_foreign (call : Call) : FailsOnly (env.call call) Foreign := by
  unfold Environment.call
  split
  · exact .ok _
  · exact .error (foreign_python _)

variable {caught : Raised → Bool}

theorem converting_silent (silent : FailsOnly computation Silent) :
    FailsOnly (converting caught exitCode message computation) Silent := by
  unfold converting
  split
  · exact .ok _
  · rename_i error
    exact .ite fails_silent (.error (silent error rfl))

theorem raising_foreign (computation : Except TrustError α) :
    FailsOnly (TrustError.raising computation) Foreign := by
  unfold TrustError.raising
  split
  · exact .ok _
  · exact .error trivial
  · exact .error (foreign_python _)

theorem requireRealDirectory_foreign (site : Site) (name : Text) :
    FailsOnly (requireRealDirectory env site host name) Foreign := by
  refine .ite (.error (foreign_python _)) ?_
  split
  · exact .error (foreign_python _)
  · exact .ite (.ok _) (.error (foreign_python _))

theorem releasePath_silent (version : Text) : FailsOnly (releasePath version) Silent :=
  .ite (.ok _) fails_silent

theorem currentVersion_silent (site : Site) : FailsOnly (currentVersion env site host) Silent := by
  refine .bind (converting_silent (silent_of_foreign (call_foreign _))) fun _ => ?_
  split
  · exact fails_silent
  · exact fails_silent
  · refine .ite fails_silent ?_
    split
    · refine .ite fails_silent (.ite ?_ fails_silent)
      refine .bind (releasePath_silent _) fun release => ?_
      exact .bind (converting_silent (silent_of_foreign (requireRealDirectory_foreign _ release)))
        fun _ => .ok _
    · exact fails_silent

theorem fails_failure :
    FailsOnly (fails exitCode message : Except Raised α) fun error =>
      error.isFailure = true ∨ Uncaught error :=
  .error (.inl rfl)

/-- What leaves a conversion of everything `except` clauses catch. -/
theorem converting_escapes {call : Call} :
    FailsOnly (converting (fun error => error.isOSError || error.isValueError) exitCode message
      (env.call call)) fun error => error.isFailure = true ∨ Uncaught error := by
  cases answer : env.call call with
  | ok done => exact .ok _
  | error error =>
    cases decision : error.isOSError || error.isValueError with
    | true =>
      rw [converting, if_pos decision]
      exact fails_failure
    | false =>
      rw [converting, if_neg (by rw [decision]; exact Bool.false_ne_true)]
      refine .error (.inr ?_)
      have foreign := call_foreign call error answer
      refine Silent.uncaught foreign.silent ?_
      cases error with
      | failure | insufficientPrivilege | mutationLocked | unsafeLock => exact foreign.elim
      | python error => simpa [Raised.isFailure] using decision
      | trust code => cases decision

theorem requireRealDirectory_osError (site : Site) (name : Text) :
    FailsOnly (requireRealDirectory env site host name) fun error =>
      error.isOSError = true := by
  refine .ite (.error rfl) ?_
  split
  · exact .error rfl
  · exact .ite (.ok _) (.error rfl)

/-- Reading the link fails as the manager's own failure or not at all, unless the
environment does something no clause expects. -/
theorem currentVersion_escapes (site : Site) :
    FailsOnly (currentVersion env site host) fun error =>
      error.isFailure = true ∨ Uncaught error := by
  refine .bind converting_escapes fun _ => ?_
  split
  · exact fails_failure
  · exact fails_failure
  · refine .ite fails_failure ?_
    split
    · refine .ite fails_failure (.ite ?_ fails_failure)
      refine .bind (.ite (.ok _) fails_failure) fun release => ?_
      cases answer : requireRealDirectory env site host release with
      | ok done => exact .ok _
      | error error =>
        rw [converting, if_pos (requireRealDirectory_osError site release error answer)]
        exact fails_failure
    · exact fails_failure

theorem currentSupportedVersion_silent (site : Site) :
    FailsOnly (currentSupportedVersion env site host) Silent := by
  refine .bind (currentVersion_silent site) fun version => ?_
  refine .ite ?_ fails_silent
  split
  · exact .error (silent_python _)
  · exact .ite fails_silent (.ok _)

theorem presentFile_foreign (file : Option StoredFile) : FailsOnly (presentFile file) Foreign := by
  unfold presentFile
  split
  · exact .error (foreign_python _)
  · exact .ok _

theorem authenticInstalled_foreign (metadata : StoredFile) (signature : Option StoredFile)
    (parsed : ReleaseManifest) :
    FailsOnly (authenticInstalled env metadata signature parsed) Foreign := by
  refine .ite ?_ (.ok _)
  refine .bind (presentFile_foreign _) fun signature => ?_
  refine .ite ?_ (.ok _)
  refine .bind (raising_foreign _) fun signed => ?_
  exact .bind (raising_foreign _) fun _ => .ok _

theorem readInstalledManifest_foreign (site : Site) (name : Text) :
    FailsOnly (readInstalledManifest env site host name) Foreign := by
  refine .bind (requireRealDirectory_foreign _ name) fun _ => ?_
  refine .ite ?_ (.ok _)
  split
  · exact .error (foreign_python _)
  refine .bind (call_foreign _) fun _ => ?_
  refine .bind (presentFile_foreign _) fun executable => ?_
  refine .bind (presentFile_foreign _) fun metadata => ?_
  refine .ite ?_ (.ok _)
  refine .bind (raising_foreign _) fun parsed => ?_
  refine .bind (authenticInstalled_foreign _ _ parsed) fun verified => ?_
  split
  · exact .ok _
  · refine .ite (.ok _) (.ite (.ok _) ?_)
    exact .ite (.ok _) (.ok _)

theorem installedManifest_foreign (site : Site) (name : Text) :
    FailsOnly (installedManifest env site host name) Foreign := by
  unfold installedManifest
  split
  · exact .ok _
  rename_i error raised
  exact .ite (.ok _) (.error (readInstalledManifest_foreign site name error raised))

theorem switchTarget_silent (site : Site) (version : Text) (verified : Bool) :
    FailsOnly (switchTarget env site version verified host) Silent := by
  refine .bind (releasePath_silent version) fun target => ?_
  refine .ite ?_ ?_
  · refine .bind (silent_of_foreign (installedManifest_foreign site target)) fun manifest => ?_
    split
    · exact fails_silent
    · exact .ok _
  · refine converting_silent
      (.bind (silent_of_foreign (requireRealDirectory_foreign _ target)) fun _ => ?_)
    split
    · exact .error (silent_python _)
    · refine .bind (silent_of_foreign (presentFile_foreign _)) fun executable => ?_
      exact .ite (.ok _) (.error (silent_python _))

theorem serviceState_foreign (site : Site) : FailsOnly (serviceState env site) Foreign := by
  refine .bind (call_foreign _) fun _ => ?_
  dsimp only
  split_ifs
  all_goals exact .ok _

theorem pingOnce_foreign (answer : HealthAnswer) (expected : Text) :
    FailsOnly (pingOnce answer expected) Foreign := by
  unfold pingOnce
  cases answer with
  | raised error => exact .ite (.ok _) (.error (foreign_python _))
  | answered result =>
    dsimp only
    split_ifs
    all_goals exact .ok _

theorem pingLoop_foreign (expected : Text) (answers : List HealthAnswer) :
    ∀ result, FailsOnly (pingLoop expected result answers) Foreign := by
  induction answers with
  | nil =>
    intro result
    exact .ok _
  | cons answer rest ih =>
    intro result
    refine .bind (pingOnce_foreign answer expected) fun next => ?_
    exact .ite (.ok _) (ih next)

theorem restartService_foreign (site : Site) : FailsOnly (restartService env site) Foreign :=
  .bind (call_foreign _) fun _ => .ok _

theorem stopService_foreign (site : Site) : FailsOnly (stopService env site) Foreign :=
  .bind (call_foreign _) fun _ => .ok _

theorem gateCandidate_silent (target : Text) (wasActive : Bool) :
    FailsOnly (gateCandidate env target wasActive) Silent := by
  refine .bind (silent_of_foreign (restartService_foreign _)) fun code => ?_
  refine .ite fails_silent ?_
  refine .bind (silent_of_foreign (serviceState_foreign _)) fun state => ?_
  refine .ite fails_silent ?_
  refine .bind (silent_of_foreign (pingLoop_foreign target _ _)) fun health => ?_
  refine .ite fails_silent (.ite (.ok _) ?_)
  refine .bind (silent_of_foreign (stopService_foreign _)) fun stopped => ?_
  refine .ite fails_silent ?_
  refine .bind (silent_of_foreign (serviceState_foreign _)) fun after => ?_
  exact .ite fails_silent (.ok _)

/-! ### The active version in what the checks read and raise -/

theorem requireRealDirectory_real (site : Site) (name : Text) :
    Ensures (requireRealDirectory env site host name) fun _ =>
      host.isRealDirectory name = true := by
  refine .ite (fun _ => .error _) fun _ => ?_
  cases found : host.releases.lookup name with
  | none => exact .error _
  | some entry =>
    refine .ite (fun directory => .ok ?_) fun _ => .error _
    simp [Host.isRealDirectory, found, directory]

theorem converting_ensures {post : α → Prop} (holds : Ensures computation post) :
    Ensures (converting caught exitCode message computation) post := by
  unfold converting
  split
  · rename_i value
    exact .ok (holds value rfl)
  · exact .ite (fun _ => .error _) fun _ => .error _

theorem releasePath_same (version : Text) :
    Ensures (releasePath version) fun path => path = version :=
  .ite (fun _ => .ok rfl) fun _ => .error _

theorem currentVersion_designates (site : Site) :
    Ensures (currentVersion env site host) fun version =>
      host.designates = some version := by
  refine .andThen fun _ => ?_
  cases current : host.current with
  | missing | other => exact .error _
  | link absolute parts =>
    refine .ite (fun _ => .error _) fun relative => ?_
    split
    · rename_i directory version
      refine .ite (fun _ => .error _) fun named => ?_
      refine .ite (fun canonical => ?_) fun _ => .error _
      refine .bind (releasePath_same version) fun release same => ?_
      refine .bind (converting_ensures (requireRealDirectory_real _ release))
        fun _ real => .ok ?_
      have linked : host.linked = some version := by
        simp_all [Host.linked]
      rw [Host.designates, linked, Option.filter_some, if_pos]
      rw [← same]
      exact real
    · exact .error _

theorem currentSupportedVersion_designates (site : Site) :
    Ensures (currentSupportedVersion env site host) fun version =>
      host.designates = some version := by
  refine .bind (currentVersion_designates site) fun version designated => ?_
  refine .ite (fun _ => ?_) fun _ => .error _
  split
  · exact .error _
  · exact .ite (fun _ => .error _) fun _ => .ok designated

theorem honest_of_silent (silent : FailsOnly computation Silent) :
    FailsOnly computation (Honest host) :=
  silent.imp fun _ unsaid => unsaid.honest host

theorem requireNonDowngrade_honest (candidate current : Text)
    (designated : host.designates = some current) :
    FailsOnly (requireNonDowngrade candidate current) (Honest host) := by
  unfold requireNonDowngrade
  split
  · exact .error ((silent_python _).honest host)
  refine .ite (.error ?_) (.ok _)
  intro failure version same active
  cases same
  cases active
  exact designated

theorem honest_of_current {site : Site} {next : Text → Except Raised α}
    (rest : ∀ current, host.designates = some current → FailsOnly (next current) (Honest host)) :
    FailsOnly (currentSupportedVersion env site host >>= next) (Honest host) := by
  intro error raised
  cases read : currentSupportedVersion env site host with
  | error failure =>
    rw [read] at raised
    cases raised
    exact (currentSupportedVersion_silent site error read).honest host
  | ok current =>
    rw [read] at raised
    exact rest current (currentSupportedVersion_designates site current read) error raised

theorem validateReleaseLayout_silent (site : Site) :
    FailsOnly (validateReleaseLayout env site host) Silent := by
  refine converting_silent (.bind (silent_of_foreign (call_foreign _)) fun _ => ?_)
  exact .ite (.ok _) (.error (silent_python _))

theorem validateCandidate_silent : FailsOnly (validateCandidate env) Silent := by
  refine .bind (converting_silent (silent_of_foreign (call_foreign _))) fun _ => ?_
  exact .ite fails_silent (.ok _)

theorem lockedChecks_honest (manifest : ReleaseManifest) :
    FailsOnly (lockedChecks env manifest host) (Honest host) := by
  refine .bind (honest_of_silent (validateReleaseLayout_silent _)) fun _ => ?_
  refine honest_of_current fun previous designated => ?_
  refine .bind (requireNonDowngrade_honest _ _ designated) fun _ => honest_of_silent ?_
  refine .ite ?_ ?_
  · refine .bind (releasePath_silent _) fun path => ?_
    refine .bind (silent_of_foreign (installedManifest_foreign _ path)) fun installed => ?_
    exact .ite fails_silent (.ok _)
  · refine .bind validateCandidate_silent fun _ => ?_
    refine .bind (silent_of_foreign (serviceState_foreign _)) fun state => ?_
    split
    · exact fails_silent
    · exact .bind (converting_silent (silent_of_foreign (call_foreign _))) fun _ =>
        .ok _

theorem sameVersionUpdateLocked_honest (verified : VerifiedRemoteManifest) :
    FailsOnly (sameVersionUpdateLocked env verified host) (Honest host) := by
  refine .bind (honest_of_silent (validateReleaseLayout_silent _)) fun _ => ?_
  refine honest_of_current fun current designated => ?_
  refine .bind (requireNonDowngrade_honest _ _ designated) fun _ => honest_of_silent ?_
  refine .ite fails_silent ?_
  refine .bind (releasePath_silent _) fun path => ?_
  refine .bind (silent_of_foreign (installedManifest_foreign _ path)) fun installed => ?_
  exact .ite fails_silent (.ok _)

theorem managedInstallationPresent_silent (site : Site) :
    FailsOnly (managedInstallationPresent env site host) Silent := by
  unfold managedInstallationPresent
  split
  · exact .ok _
  · exact .ite fails_silent (.error (silent_python _))
  · exact .ok _

theorem requireSupportedManagedInstallation_silent (site : Site) :
    FailsOnly (requireSupportedManagedInstallation env site host) Silent := by
  refine .ite fails_silent ?_
  refine .bind (managedInstallationPresent_silent site) fun installed => ?_
  refine .ite (.ok _) ?_
  refine .bind (currentSupportedVersion_silent site) fun current => ?_
  refine .bind (releasePath_silent _) fun path => ?_
  refine .bind (silent_of_foreign (installedManifest_foreign _ path)) fun manifest => ?_
  exact .ite fails_silent (.ok _)

theorem trusting_silent (silent : FailsOnly computation Silent) :
    FailsOnly (fetchVerifiedManifest.trusting message computation) Silent := by
  unfold fetchVerifiedManifest.trusting
  split
  · exact .ok _
  · exact fails_silent
  · rename_i error _
    exact .ite fails_silent (.error (silent error rfl))

theorem fetchVerifiedManifest_silent : FailsOnly (fetchVerifiedManifest env) Silent := by
  refine .bind (converting_silent (silent_of_foreign (call_foreign _))) fun _ => ?_
  refine .bind (trusting_silent (silent_of_foreign (raising_foreign _))) fun manifest => ?_
  refine .bind (converting_silent (silent_of_foreign (call_foreign _))) fun _ => ?_
  exact .bind (trusting_silent (silent_of_foreign (raising_foreign _))) fun _ =>
    .ok _

theorem downloadCandidate_silent (manifest : ReleaseManifest) :
    FailsOnly (downloadCandidate env manifest) Silent := by
  refine .bind (converting_silent (silent_of_foreign (call_foreign _))) fun _ => ?_
  refine converting_silent (.bind (silent_of_foreign (call_foreign _)) fun _ => ?_)
  dsimp only
  split_ifs
  · exact .error (silent_python _)
  · exact .error (silent_python _)
  · exact .error (silent_python _)
  · exact .ok _

theorem managedHostUnsupported_silent {detail : String} :
    FailsOnly (managedHostUnsupported detail : Except Raised α) Silent :=
  .error (silent_failure rfl)

theorem requireManagedHost_silent : FailsOnly (requireManagedHost env) Silent := by
  unfold requireManagedHost
  split
  · exact .error (silent_python _)
  · exact managedHostUnsupported_silent
  · refine .ite managedHostUnsupported_silent ?_
    split
    · exact managedHostUnsupported_silent
    · exact .ite managedHostUnsupported_silent (.ok _)

theorem hostChecks_silent {manager : ReleaseManager} (requested : Text) (dryRun : Bool) :
    FailsOnly (hostChecks manager env requested dryRun host) Silent := by
  refine .bind requireManagedHost_silent fun platform => ?_
  refine .bind (requireSupportedManagedInstallation_silent _) fun _ => ?_
  refine .bind (managedInstallationPresent_silent _) fun installed => ?_
  refine .ite (.ok _) ?_
  refine .bind (silent_of_foreign (call_foreign _)) fun _ => ?_
  exact .ite (.ok _) fails_silent

theorem releaseChecks_honest (requested : Text) (dryRun : Bool) (platform current : Text)
    (designated : host.designates = some current) :
    FailsOnly (releaseChecks env requested dryRun platform current) (Honest host) := by
  refine .bind (honest_of_silent fetchVerifiedManifest_silent) fun verified => ?_
  refine .ite (honest_of_silent fails_silent) (.ite (.ok _) ?_)
  refine .ite (honest_of_silent fails_silent) ?_
  refine .bind (requireNonDowngrade_honest _ _ designated) fun _ => ?_
  exact .ite (.ok _) (.ok _)

end Silence

end XFerry.Management
