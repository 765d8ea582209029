/-
`ReleaseManager.update`: the checks, the activation with its restoration, and the
result that is reported.
-/

import XFerry.Management.ReleaseStore

namespace XFerry.Management

open Python CrashProgram CrashProgram.Program

structure ReleaseResult where
  exitCode : Nat
  message : String
  version : Option Text := none
  dryRun : Bool := false
  detail : String := ""
  before : Option Text := none
  target : Option Text := none
  active : Option Text := none
  rollback : Rollback := .notAttempted
  nextActions : List String := []
  deriving DecidableEq

structure ReleaseManager where
  remoteUpdatesEnabled : Bool
  /-- `_require_https_url(self.release_base_url)` accepts the configured URL. -/
  releaseBaseUrlSafe : Bool

def supportedManagedHostSummary : String :=
  "Ubuntu 22.04/24.04/26.04 and Debian 12/13 on x86_64/aarch64 with systemd"

def managedHostNextActions : List String :=
  ["Use a supported managed host: Ubuntu 22.04/24.04/26.04 or Debian 12/13 " ++
      "on x86_64/aarch64 with systemd.",
    "For portable use, run `pipx install xferry`; use `pipx upgrade xferry` " ++
      "and `pipx uninstall xferry` for lifecycle management."]

section Contexts

variable (env : Environment)

def managedMutation {α : Type} (body : Action α) : Action α := do
  if env.effectiveUid ≠ 0 then raise .insufficientPrivilege
  else do
    perform env .lockDirectory
    match env.raises .openLock with
    | some error => if error.isOSError then raise .unsafeLock else raise (.python error)
    | none => do
        perform env .statLock
        if env.lockUnsafe then raise .unsafeLock
        else
          ensuring
            (match env.raises .acquireLock with
            | some .blockingIOError => raise .mutationLocked
            | some error => raise (.python error)
            | none => ensuring body (perform env .releaseLock))
            (perform env .closeLock)

/-- `if parent is not None and not parent.exists(): parent.mkdir(parents=True)`. -/
def createStagingParent : Except Raised Unit :=
  if env.stagingParentMissing then env.call .stagingParent else .ok ()

/-- `if created_parent: try: parent.rmdir() except OSError: pass`. -/
def removeStagingParent : Except Raised Unit :=
  if env.stagingParentMissing then
    match env.raises .removeStagingParent with
    | some error => if error.isOSError then .ok () else .error (.python error)
    | none => .ok ()
  else .ok ()

/-- `_staging_directory`, for a body that reads the staged files from the environment. -/
def stagingDirectory {α : Type} (body : Action α) : Action α := do
  lift (createStagingParent env)
  ensuring
    (do
      perform env .createStaging
      ensuring
        (do
          perform env .resolveStaging
          if env.stagingInsideReleases then lift (fails 1 "staging_path_unsafe")
          else body)
        (perform env .removeStaging))
    (lift (removeStagingParent env))

end Contexts

inductive ServiceState where
  | active
  | confirmedInactive
  | probeError
  deriving DecidableEq

section Service

variable (env : Environment)

/-- `str.casefold` as far as `active` and `inactive` need it: no other character
folds to one of their letters. -/
def foldCase (text : Text) : Text := text.map Char.toLower

def serviceState (site : Site) : Except Raised ServiceState := do
  env.call (.serviceState site)
  let result := env.serviceState site
  if result.returncode ≠ 0 then return .probeError
  else
    let state := foldCase (env.unicode.strip result.stdout)
    if state = "active".toList then return .active
    else if state = "inactive".toList then return .confirmedInactive
    else return .probeError

def pingOnce (answer : HealthAnswer) (expectedVersion : Text) : Except Raised HealthResult :=
  let refused := fun version : Option Text =>
    { ok := false, detail := "authenticated health check failed",
      version := version : HealthResult }
  match answer with
  | .raised error =>
    if error.isOSError || error == .runtimeError || error == .valueError then .ok (refused none)
    else .error (.python error)
  | .answered result =>
    if result.ok = true ∧ result.version = some expectedVersion then .ok result
    else if result.ok = false ∧ result.detail = "connection failed" then
      .ok { ok := false, detail := "connection failed", version := result.version }
    else .ok (refused result.version)

/-- The loop of `_ping` over the checks that fit before its deadline. -/
def pingLoop (expectedVersion : Text) :
    HealthResult → List HealthAnswer → Except Raised HealthResult
  | result, [] => .ok result
  | _, answer :: rest => do
      let result ← pingOnce answer expectedVersion
      if result.ok || result.detail ≠ "connection failed" then return result
      else pingLoop expectedVersion result rest

def ping (site : Site) (expectedVersion : Text) : Except Raised HealthResult :=
  pingLoop expectedVersion { ok := false, detail := "connection failed", version := none }
    (env.healthChecks site)

/-- `runner.run(("systemctl", "restart", _SERVICE)).returncode`. -/
def restartService (site : Site) : Except Raised Int := do
  env.call (.restart site)
  return (env.restart site).returncode

def stopService (site : Site) : Except Raised Int := do
  env.call (.stop site)
  return (env.stop site).returncode

/-- What `_activate` asks of the service once the link has moved. -/
def gateCandidate (target : Text) (wasActive : Bool) : Except Raised Unit := do
  if (← restartService env .switch) ≠ 0 then fails 6 "candidate_restart_failed"
  else if (← serviceState env .switch) ≠ .active then fails 6 "candidate_restart_failed"
  else if (← ping env .switch target).ok = false then fails 6 "candidate_unhealthy"
  else if wasActive then return ()
  else if (← stopService env .switch) ≠ 0 then fails 6 "candidate_state_restore_failed"
  else if (← serviceState env .stopped) ≠ .confirmedInactive then
    fails 6 "candidate_state_restore_failed"
  else return ()

/-- What `_restore` asks of the service once the link is back. -/
def restoreService (previous : Text) (wasActive : Bool) : Except Raised Bool := do
  if wasActive then
    let restarted := (← restartService env .restore) = 0
    let state ← serviceState env .restore
    if restarted ∧ state = .active then return (← ping env .restore previous).ok
    else return false
  else
    let stopped := (← stopService env .restore) = 0
    let state ← serviceState env .restore
    return stopped ∧ state = .confirmedInactive

end Service

section Activation

variable (env : Environment)

/-- The body of `_restore`, inside its `try`. -/
def tryRestore (previous : Text) (wasActive : Bool) : Action Bool := do
  atomicCurrent env .restore previous false
  let current ← reading (currentVersion env .restored)
  let healthy ← lift (restoreService env previous wasActive)
  return decide (current = previous) && healthy

def restore (previous : Text) (wasActive : Bool) : Action Bool := do
  let outcome ← attempt (tryRestore env previous wasActive)
  match outcome with
  | .ok restored => return restored
  | .error error =>
    if error.isOSError || error.isValueError || error.isFailure then return false
    else raise error

/-- `if not switched: try: if self._current_version() == previous`. -/
def knownUnchanged (previous : Text) (switched : Bool) (host : Host) : Except Raised Bool :=
  if switched then .ok false
  else
    match currentVersion env .unswitched host with
    | .ok current => .ok (decide (current = previous))
    | .error error => if error.isOSError || error.isFailure then .ok false else .error error

/-- `_activate` after a failure: the link may have moved if `switched`. -/
def recover (previous : Text) (wasActive switched : Bool) (failure : ReleaseFailure) :
    Action ReleaseFailure := do
  let unchanged ← reading (knownUnchanged env previous switched)
  if unchanged then return failure
  else do
    let restored ← restore env previous wasActive
    if restored then
      return { exitCode := failure.exitCode, message := failure.message, rollback := .restored
               active := some previous }
    else do
      let active ← reading (observedCurrentVersion env)
      return { exitCode := 1, message := "restore_incomplete", rollback := .incomplete
               active := active }

/-- The `except` clauses of `_activate`. -/
def switchFailure (error : Raised) : Except Raised ReleaseFailure :=
  match error with
  | .failure caught => .ok caught
  | _ =>
    if error.isOSError || error.isValueError then
      .ok { exitCode := 1, message := "release_switch_failed" }
    else .error error

def activate (target previous : Text) (wasActive : Bool) : Action (Option ReleaseFailure) := do
  let switching ← attempt (atomicCurrent env .switch target true)
  match switching with
  | .error error => do
      let failure ← lift (switchFailure error)
      return some (← recover env previous wasActive false failure)
  | .ok () =>
    match gateCandidate env target wasActive with
    | .ok () => return none
    | .error error => do
        let failure ← lift (switchFailure error)
        return some (← recover env previous wasActive true failure)

end Activation

section Locked

variable (env : Environment)

def validateReleaseLayout (site : Site) (host : Host) : Except Raised Unit :=
  converting Raised.isOSError 1 "managed_installation_invalid" do
    env.call (.releaseLayout site)
    if host.rootPresent then return () else .error (.python .osError)

def requireNonDowngrade (candidate current : Text) : Except Raised Unit :=
  match compareReleaseVersions candidate current with
  | none => .error (.python .valueError)
  | some order =>
    if order < 0 ∨ order = 0 ∧ candidate ≠ current then
      .error (.failure { exitCode := 1, message := "release_downgrade_blocked"
                         active := some current })
    else .ok ()

def validateCandidate : Except Raised Unit := do
  converting Raised.isOSError 2 "candidate_config_invalid" (env.call .configCheck)
  if env.configCheck.returncode ≠ 0 then fails 2 "candidate_config_invalid" else return ()

def updateNoop (version : Text) : ReleaseResult :=
  { exitCode := 0, message := "update_noop", version := some version, before := some version
    target := some version, active := some version, rollback := .notNeeded }

/-- What `_update_locked` has found when it comes to the installation. -/
structure Attempt where
  previous : Text
  wasActive : Bool

/-- `_update_locked` up to the installation of the candidate. -/
def lockedChecks (manifest : ReleaseManifest) (host : Host) :
    Except Raised (ReleaseResult ⊕ Attempt) := do
  validateReleaseLayout env .locked host
  let previous ← currentSupportedVersion env .locked host
  requireNonDowngrade manifest.version previous
  if previous = manifest.version then do
    let path ← releasePath previous
    if (← installedManifest env .locked host path) ≠ some manifest then
      fails 1 "installed_release_conflict"
    else return .inl (updateNoop manifest.version)
  else do
    validateCandidate env
    match ← serviceState env .locked with
    | .probeError => fails 1 "release_operation_failed"
    | state => do
        converting (fun error => error.isOSError || error.isValueError) 2
          "managed_config_unavailable" (env.call .healthContext)
        return .inr { previous := previous, wasActive := decide (state = .active) }

def updateComplete (target previous : Text) : ReleaseResult :=
  { exitCode := 0, message := "update_complete", version := some target, before := some previous
    target := some target, active := some target, rollback := .notNeeded }

def updateFailed (target previous : Text) (failure : ReleaseFailure) : ReleaseResult :=
  { exitCode := failure.exitCode, message := failure.message, version := some target
    before := some previous, target := some target, active := failure.active
    rollback := failure.rollback }

/-- `if created: self._remove_created_if_inactive(manifest.version)`. -/
def withdrawCreated (target : Text) (created : Bool) : Action Unit :=
  if created then removeCreatedIfInactive env target else return ()

/-- `_update_locked` after the activation. -/
def concludeUpdate (target previous : Text) (created : Bool) (failure : Option ReleaseFailure) :
    Action ReleaseResult :=
  match failure with
  | some failure => do
      withdrawCreated env target created
      return updateFailed target previous failure
  | none => do
      pruneVerified env target previous
      return updateComplete target previous

/-- `except _ReleaseFailure: if created: self._remove_created_if_inactive(...); raise`. -/
def withdrawing (target : Text) (created : Bool) (body : Action ReleaseResult) :
    Action ReleaseResult := do
  let outcome ← attempt body
  match outcome with
  | .ok result => return result
  | .error error => do
      withdrawCreated env target (error.isFailure && created)
      raise error

def updateLocked (verified : VerifiedRemoteManifest) (candidate : StoredFile) :
    Action ReleaseResult := do
  let checked ← reading (lockedChecks env verified.manifest)
  match checked with
  | .inl result => return result
  | .inr found => do
      let target := verified.manifest.version
      let created ← installVerifiedRelease env verified candidate
      withdrawing env target created do
        let failure ← activate env target found.previous found.wasActive
        concludeUpdate env target found.previous created failure

def sameVersionUpdateLocked (verified : VerifiedRemoteManifest) (host : Host) :
    Except Raised ReleaseResult := do
  validateReleaseLayout env .sameVersion host
  let current ← currentSupportedVersion env .sameVersion host
  requireNonDowngrade verified.manifest.version current
  if current ≠ verified.manifest.version then fails 1 "release_operation_failed"
  else do
    let path ← releasePath current
    if (← installedManifest env .sameVersion host path) ≠ some verified.manifest then
      fails 1 "installed_release_conflict"
    else return updateNoop current

end Locked

section Update

variable (manager : ReleaseManager) (env : Environment)

def managedInstallationPresent (site : Site) (host : Host) : Except Raised Bool :=
  match env.raises (.rootStatus site) with
  | some .fileNotFoundError => .ok false
  | some error =>
    if error.isOSError then fails 1 "managed_installation_invalid" else .error (.python error)
  | none => .ok host.rootPresent

def requireSupportedManagedInstallation (site : Site) (host : Host) : Except Raised Unit := do
  if env.unsupportedState site then fails 1 "unsupported_managed_state"
  else if (← managedInstallationPresent env site host) = false then return ()
  else do
    let current ← currentSupportedVersion env site host
    let path ← releasePath current
    if (← installedManifest env site host path) = none then
      fails 1 "unsupported_managed_state"
    else return ()

def fetchVerifiedManifest : Except Raised VerifiedRemoteManifest := do
  converting Raised.isOSError 5 "release_download_failed" (env.call .downloadManifest)
  let manifest ← trusting "release_manifest_invalid"
    (TrustError.raising (env.trust.parseSigned env.manifestPayload))
  converting Raised.isOSError 5 "release_signature_download_failed" (env.call .downloadSignature)
  trusting "release_signature_invalid"
    (TrustError.raising (env.trust.verifySignature env.manifestPayload manifest
      env.signaturePayload))
  return { manifest := manifest, manifestPayload := env.manifestPayload
           signaturePayload := env.signaturePayload }
where
  /-- `except ReleaseTrustError`, which keeps the code, before `except (OSError, ValueError)`. -/
  trusting {α : Type} (message : String) (computation : Except Raised α) : Except Raised α :=
    match computation with
    | .ok value => .ok value
    | .error (.trust code) => fails 1 code
    | .error error =>
      if error.isOSError || error.isValueError then fails 1 message else .error error

def downloadCandidate (manifest : ReleaseManifest) : Except Raised StoredFile := do
  converting Raised.isOSError 5 "release_download_failed" (env.call .downloadCandidate)
  converting (fun error => error.isOSError || error.isValueError) 1 "release_integrity_failed" do
    env.call .readCandidate
    let candidate := env.candidate
    if candidate.regular = false ∨ candidate.links ≠ 1 then .error (.python .valueError)
    else if candidate.content.length ≠ manifest.executableSize then .error (.python .valueError)
    else if env.trust.sha256 candidate.content ≠ manifest.executableSha256 then
      .error (.python .valueError)
    else return candidate

/-- `platform_id_for_host("linux", machine)`. -/
def platformIdForLinux (machine : Text) : Option Text :=
  let folded := foldCase machine
  if folded = "amd64".toList ∨ folded = "x86_64".toList then some "linux-x86_64".toList
  else if folded = "aarch64".toList ∨ folded = "arm64".toList then some "linux-aarch64".toList
  else none

def requirePlatformId (value : Text) : Option Text :=
  if value = "linux-x86_64".toList ∨ value = "linux-aarch64".toList then some value else none

def managedHostUnsupported {α : Type} (detail : String) : Except Raised α :=
  .error (.failure { exitCode := 4, message := "managed_host_unsupported", detail := detail
                     nextActions := managedHostNextActions })

/-- The host checks of `update`, up to the selected platform. -/
def requireManagedHost : Except Raised Text := do
  match env.raises .hostFacts with
  | some .otherError => .error (.python .otherError)
  | some _ =>
    managedHostUnsupported ("Host inspection failed. Supported matrix: " ++
      supportedManagedHostSummary ++ ".")
  | none =>
    let facts := env.hostFacts
    if facts.isSupported = false then managedHostUnsupported facts.managedSupportDetail
    else
      match requirePlatformId env.platformId with
      | none => managedHostUnsupported facts.managedSupportDetail
      | some platform =>
        if platformIdForLinux facts.machine ≠ some platform then
          managedHostUnsupported facts.managedSupportDetail
        else return platform

def portableInstallation (requested : Text) (dryRun : Bool) : ReleaseResult :=
  { exitCode := 4, message := "portable_installation", version := some requested, dryRun := dryRun
    detail := "No supported XFerry managed installation was found; no changes were made."
    target := some requested
    nextActions := ["Run `pipx upgrade xferry` for a portable installation."] }

def hostChecks (requested : Text) (dryRun : Bool) (host : Host) :
    Except Raised (ReleaseResult ⊕ Text) := do
  let platform ← requireManagedHost env
  requireSupportedManagedInstallation env .checks host
  if (← managedInstallationPresent env .presence host) = false then
    return .inl (portableInstallation requested dryRun)
  else do
    env.call .baseUrl
    if manager.releaseBaseUrlSafe then return .inr platform else fails 5 "release_url_unsafe"

def updateDryRun (target current : Text) : ReleaseResult :=
  { exitCode := 0, message := "update_dry_run", version := some target, dryRun := true
    detail := "Signed metadata verified. Apply will download and verify the executable, " ++
      "validate the managed configuration, restart the service, require " ++
      "exact-version health, and retain " ++ String.ofList current ++ " for rollback."
    before := some current, target := some target, active := some current, rollback := .notNeeded
    nextActions := ["Run `sudo xferry update --to " ++ String.ofList target ++ "` to apply."] }

/-- The part of `update` between reading the active version and the first change. -/
def releaseChecks (requested : Text) (dryRun : Bool) (platform current : Text) :
    Except Raised (ReleaseResult ⊕ VerifiedRemoteManifest) := do
  let verified ← fetchVerifiedManifest env
  let manifest := verified.manifest
  if manifest.version ≠ requested then fails 1 "release_manifest_mismatch"
  else if isSupportedReleaseVersion manifest.version = false then
    return .inl { exitCode := 2, message := "unsupported_release_major"
                  version := some manifest.version, dryRun := dryRun, before := some current
                  target := some requested, active := some current }
  else if manifest.platform ≠ platform then fails 4 "release_platform_unsupported"
  else do
    requireNonDowngrade manifest.version current
    if dryRun then return .inl (updateDryRun manifest.version current)
    else return .inr verified

def applyUpdate (verified : VerifiedRemoteManifest) (current : Text) : Action ReleaseResult :=
  if verified.manifest.version = current then
    managedMutation env (do
      reading (requireSupportedManagedInstallation env .lockedChecks)
      reading (sameVersionUpdateLocked env verified))
  else
    stagingDirectory env (do
      let candidate ← lift (downloadCandidate env verified.manifest)
      managedMutation env (do
        reading (requireSupportedManagedInstallation env .lockedChecks)
        updateLocked env verified candidate))

/-- The `except` clauses of `update`. -/
def report (requested : Text) (dryRun : Bool) (current : Option Text) (error : Raised) :
    Except Raised ReleaseResult :=
  let plain := fun (exitCode : Nat) (message : String) =>
    { exitCode := exitCode, message := message, version := some requested, dryRun := dryRun
      before := current, target := some requested, active := current : ReleaseResult }
  match error with
  | .failure failure =>
    .ok { exitCode := failure.exitCode, message := failure.message, version := some requested
          dryRun := dryRun, detail := failure.detail, before := current
          target := some requested, active := failure.active.or current
          rollback := failure.rollback, nextActions := failure.nextActions }
  | .insufficientPrivilege => .ok (plain 3 "release_requires_root")
  | .mutationLocked => .ok (plain 1 "release_operation_locked")
  | .unsafeLock => .ok (plain 1 "release_lock_unsafe")
  | .trust _ | .python _ =>
    if error.isOSError || error.isValueError then .ok (plain 1 "release_operation_failed")
    else .error error

def reporting (requested : Text) (dryRun : Bool) (current : Option Text)
    (body : Action ReleaseResult) : Action ReleaseResult := do
  let outcome ← attempt body
  match outcome with
  | .ok result => return result
  | .error error => lift (report requested dryRun current error)

/-- What `update` refuses before it looks at the host. -/
def refuseUpdate (version : Option Text) (dryRun : Bool) : Except Raised (ReleaseResult ⊕ Text) :=
  if manager.remoteUpdatesEnabled = false then
    .ok (.inl { exitCode := 2, message := "remote_updates_disabled", dryRun := dryRun })
  else
    match version.filter isCanonicalReleaseVersion with
    | none => .ok (.inl { exitCode := 2, message := "invalid_release_version", dryRun := dryRun })
    | some requested =>
      let refused := fun (exitCode : Nat) (message : String) =>
        { exitCode := exitCode, message := message, version := some requested, dryRun := dryRun
          target := some requested : ReleaseResult }
      if isSupportedReleaseVersion requested = false then
        .ok (.inl (refused 2 "unsupported_release_major"))
      else
        match compareReleaseVersions requested minDeploymentRelease with
        | none => .error (.python .valueError)
        | some order =>
          if order < 0 then .ok (.inl (refused 2 "unsupported_deployment_release"))
          else if env.effectiveUid ≠ 0 then
            .ok (.inl { refused 3 "release_requires_root" with
              nextActions :=
                ["For a managed installation, rerun this update as root with `sudo`.",
                  "For a portable installation, run `pipx upgrade xferry`."] })
          else .ok (.inr requested)

/-- The body of `update` from where it knows the active version. -/
def updateFrom (requested : Text) (dryRun : Bool) (platform current : Text) :
    Action ReleaseResult := do
  let decided ← lift (releaseChecks env requested dryRun platform current)
  match decided with
  | .inl result => return result
  | .inr verified => applyUpdate env verified current

/-- The body of `update`, whose handlers know the active version once it is read. -/
def tryUpdate (requested : Text) (dryRun : Bool) : Action ReleaseResult := do
  let checked ← reading (hostChecks manager env requested dryRun)
  match checked with
  | .inl result => return result
  | .inr platform => do
      let current ← reading (currentSupportedVersion env .active)
      reporting requested dryRun (some current) (updateFrom env requested dryRun platform current)

def update (version : Option Text) (dryRun : Bool) : Action ReleaseResult := do
  let accepted ← lift (refuseUpdate manager env version dryRun)
  match accepted with
  | .inl refusal => return refusal
  | .inr requested =>
    reporting requested dryRun none (tryUpdate manager env requested dryRun)

end Update

end XFerry.Management
