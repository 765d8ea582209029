/-
What the steps of an update do to the `current` link and to the release it
designates.
-/

import XFerry.Management.ReleaseFailures

namespace XFerry.Management

open Python CrashProgram CrashProgram.Program

/-- `later` has the link of `earlier`, and the same release under every guarded name. -/
def Keeps (guarded : Text → Prop) (later earlier : Host) : Prop :=
  later.current = earlier.current ∧
    ∀ name, guarded name → later.releases.lookup name = earlier.releases.lookup name

instance (guarded : Text → Prop) : Std.Refl (Keeps guarded) where
  refl _ := ⟨rfl, fun _ _ => rfl⟩

instance (guarded : Text → Prop) : IsTrans Host (Keeps guarded) where
  trans _ _ _ later earlier :=
    ⟨later.1.trans earlier.1, fun name guards =>
      (later.2 name guards).trans (earlier.2 name guards)⟩

variable {later earlier : Host}

theorem linked_congr (same : later.current = earlier.current) : later.linked = earlier.linked := by
  unfold Host.linked
  rw [same]

variable {name : Text}

theorem isRealDirectory_congr (same : later.releases.lookup name = earlier.releases.lookup name) :
    later.isRealDirectory name = earlier.isRealDirectory name := by
  unfold Host.isRealDirectory
  rw [same]

theorem Keeps.designates {guarded : Text → Prop} (keeps : Keeps guarded later earlier)
    (guards : ∀ version, earlier.linked = some version → guarded version) :
    later.designates = earlier.designates := by
  unfold Host.designates
  rw [linked_congr keeps.1]
  cases linked : earlier.linked with
  | none => rfl
  | some version =>
    rw [Option.filter_some, Option.filter_some,
      isRealDirectory_congr (keeps.2 version (guards version linked))]

variable {version : Text} {host : Host}

theorem designates_linked (designated : host.designates = some version) :
    host.linked = some version :=
  (Option.filter_eq_some_iff.mp designated).1

theorem linked_canonical (linked : host.linked = some version) :
    isCanonicalReleaseVersion version = true := by
  unfold Host.linked at linked
  split at linked
  · split at linked
    · rename_i both
      cases linked
      exact both.2
    · cases linked
  · cases linked

theorem linked_setCurrent (canonical : isCanonicalReleaseVersion version = true) :
    (host.setCurrent (linkTo version)).linked = some version := by
  simp [Host.linked, Host.setCurrent, linkTo, canonical]

theorem designates_of_linked {version other : Text}
    (linked : host.linked = some version) (designated : host.designates = some other) :
    other = version := by
  have both := designates_linked designated
  rw [linked] at both
  exact (Option.some.inj both).symm

section Steps

variable {env : Environment} {guarded : Text → Prop}

theorem final_reading {α : Type} (read : Host → Except Raised α) (host : Host) :
    (reading read).final host = (read host, host) := by
  unfold reading
  rw [final_bind_of_ok (final_inspect read host), final_lift]

theorem final_perform (call : Call) (host : Host) :
    (perform env call).final host = (env.call call, host) :=
  final_lift ..

theorem reading_keeps {α : Type} (read : Host → Except Raised α) :
    (reading read).Respects (Keeps guarded) :=
  .bind (.inspect _) fun answer => .lift answer

theorem perform_keeps (call : Call) : (perform env call).Respects (Keeps guarded) := .lift _

theorem putRelease_keeps (entry : ReleaseEntry) (other : ¬ guarded name)
    (host : Host) : Keeps guarded (host.putRelease name entry) host := by
  refine ⟨rfl, fun found guards => ?_⟩
  rw [Host.putRelease, OrderedDict.lookup_assign, if_neg]
  intro same
  rw [same] at guards
  exact other guards

theorem dropRelease_keeps (other : ¬ guarded name) (host : Host) :
    Keeps guarded (host.dropRelease name) host := by
  refine ⟨rfl, fun found guards => ?_⟩
  rw [Host.dropRelease, OrderedDict.lookup_erase, if_neg]
  intro same
  rw [same] at guards
  exact other guards

theorem removeTree_keeps (site : Site) (entry : ReleaseEntry) (other : ¬ guarded name) :
    (removeTree env site name entry).Respects (Keeps guarded) := by
  unfold removeTree
  split
  · exact .durable fun host => dropRelease_keeps other host
  refine .bind (.durable fun host => ?_) fun _ => .raise _
  split
  · exact dropRelease_keeps other host
  · exact putRelease_keeps _ other host

theorem removeManagedTree_keeps (site : Site) (other : ¬ guarded name) :
    (removeManagedTree env site name).Respects (Keeps guarded) := by
  refine .bind (perform_keeps _) fun _ => ?_
  refine .bind (.inspect _) fun found => ?_
  cases found with
  | none => exact .pure ()
  | some entry =>
    dsimp only
    split
    · exact .raise _
    · exact removeTree_keeps site entry other

theorem pruneVerified_keeps (current previous : Text) :
    (pruneVerified env current previous).Respects
      (Keeps fun name => name = current ∨ name = previous) := by
  refine .bind (perform_keeps _) fun _ => ?_
  refine .bind (.inspect _) fun paths => .forEach (fun name => ?_) paths
  split
  · exact .pure ()
  rename_i other
  refine .bind (reading_keeps _) fun manifest => ?_
  cases manifest with
  | none => exact .pure ()
  | some manifest =>
    dsimp only
    split
    · exact removeManagedTree_keeps .prune other
    · exact .pure ()

theorem temporaryName_not_canonical (version : Text) :
    isCanonicalReleaseVersion (temporaryName env version) ≠ true := by
  intro canonical
  obtain ⟨digit, more, shape, isNumeral⟩ := canonical_head canonical
  have first : (temporaryName env version).head? = some '.' := by
    unfold temporaryName
    rfl
  rw [shape] at first
  cases first
  revert isNumeral
  decide

theorem publishEntry_keeps (temporary : Text) {target : Text} (left : ¬ guarded temporary)
    (other : ¬ guarded target) (host : Host) :
    Keeps guarded (publishEntry temporary target host) host := by
  unfold publishEntry
  split
  · exact refl_of (Keeps guarded) host
  · exact trans_of (Keeps guarded) (putRelease_keeps _ other _) (dropRelease_keeps left host)

theorem installVerifiedRelease_keeps (verified : VerifiedRemoteManifest) (candidate : StoredFile) :
    (installVerifiedRelease env verified candidate).Respects
      (Keeps fun name => isCanonicalReleaseVersion name = true ∧
        name ≠ verified.manifest.version) := by
  have temporary : ¬ (isCanonicalReleaseVersion
      (temporaryName env verified.manifest.version) = true ∧
        temporaryName env verified.manifest.version ≠ verified.manifest.version) :=
    fun both => temporaryName_not_canonical _ both.1
  have cleared : (removeTemporary env
      (temporaryName env verified.manifest.version)).Respects
        (Keeps fun name => isCanonicalReleaseVersion name = true ∧
          name ≠ verified.manifest.version) := by
    refine .bind (.inspect _) fun found => ?_
    cases found with
    | none => exact .pure ()
    | some entry => exact removeTree_keeps .install entry temporary
  refine .bind (perform_keeps _) fun _ => ?_
  refine .bind (perform_keeps _) fun _ => ?_
  refine .bind_lift fun target path => ?_
  have same : target = verified.manifest.version := releasePath_same _ target path
  refine .bind (.inspect _) fun found => ?_
  cases found with
  | some entry =>
    refine .bind (reading_keeps _) fun installed => ?_
    split
    · exact .lift _
    · exact .pure _
  | none =>
    refine .bind (perform_keeps _) fun _ => ?_
    refine .bind (.inspect _) fun taken => ?_
    split
    · exact .raise _
    refine .bind (.durable fun host => putRelease_keeps _ temporary host)
      fun _ => .ensuring ?_ cleared
    refine .bind (perform_keeps _) fun _ => ?_
    refine .bind (.durable fun host => putRelease_keeps _ temporary host)
      fun _ => ?_
    split
    · exact .lift _
    refine .bind (perform_keeps _) fun _ => ?_
    refine .bind (.durable fun host => ?_) fun _ => .pure _
    exact publishEntry_keeps _ temporary (fun both => both.2 same) host

theorem perform_foreign (call : Call) : (perform env call).RaisesOnly Foreign :=
  .lift (call_foreign call)

theorem perform_silent (call : Call) : (perform env call).RaisesOnly Silent :=
  .lift (silent_of_foreign (call_foreign call))

theorem reading_raises {α : Type} {read : Host → Except Raised α} {allowed : Raised → Prop}
    (fits : ∀ host, FailsOnly (read host) allowed) : (reading read).RaisesOnly allowed := by
  intro host error raised
  have answer : ((reading read).final host).1 = .error error := raised
  rw [final_reading] at answer
  exact fits host error answer

theorem removeTree_foreign (site : Site) (name : Text) (entry : ReleaseEntry) :
    (removeTree env site name entry).RaisesOnly Foreign := by
  unfold removeTree
  split
  · exact .durable _
  · exact .bind (.durable _) fun _ => .raise (foreign_python _)

theorem removeManagedTree_foreign (site : Site) (name : Text) :
    (removeManagedTree env site name).RaisesOnly Foreign := by
  refine .bind (perform_foreign _) fun _ => ?_
  refine .bind (.inspect _) fun found => ?_
  cases found with
  | none => exact .pure ()
  | some entry =>
    dsimp only
    split
    · exact .raise (foreign_python _)
    · exact removeTree_foreign site name entry

theorem pruneVerified_foreign (current previous : Text) :
    (pruneVerified env current previous).RaisesOnly Foreign := by
  refine .bind (perform_foreign _) fun _ => ?_
  refine .bind (.inspect _) fun paths =>
    .forEach (fun name => ?_) paths
  split
  · exact .pure ()
  refine .bind (reading_raises fun host => installedManifest_foreign _ name)
    fun manifest => ?_
  cases manifest with
  | none => exact .pure ()
  | some manifest =>
    dsimp only
    split
    · exact removeManagedTree_foreign .prune name
    · exact .pure ()

theorem installVerifiedRelease_silent (verified : VerifiedRemoteManifest) (candidate : StoredFile) :
    (installVerifiedRelease env verified candidate).RaisesOnly Silent := by
  have cleared : (removeTemporary env
      (temporaryName env verified.manifest.version)).RaisesOnly Silent := by
    refine .bind (.inspect _) fun found => ?_
    cases found with
    | none => exact .pure ()
    | some entry =>
      intro host error raised
      exact (removeTree_foreign .install _ entry host error raised).silent
  refine .bind (perform_silent _) fun _ => ?_
  refine .bind (perform_silent _) fun _ => ?_
  refine .bind (.lift (releasePath_silent _)) fun target => ?_
  refine .bind (.inspect _) fun found => ?_
  cases found with
  | some entry =>
    refine .bind (reading_raises fun host =>
      silent_of_foreign (installedManifest_foreign _ target)) fun installed => ?_
    split
    · exact .lift fails_silent
    · exact .pure _
  | none =>
    refine .bind (perform_silent _) fun _ => ?_
    refine .bind (.inspect _) fun taken => ?_
    split
    · exact .raise (silent_python _)
    refine .bind (.durable _) fun _ => .ensuring ?_ cleared
    refine .bind (perform_silent _) fun _ => ?_
    refine .bind (.durable _) fun _ => ?_
    split
    · exact .lift fails_silent
    · refine .bind (perform_silent _) fun _ => ?_
      exact .bind (.durable _) fun _ => .pure _

/-- The link is as it was, or names one of the two versions of the update. -/
inductive Relinked (start : Host) (versions : List Text) : Host → Prop where
  | same : Relinked start versions start
  | moved {version : Text} (named : version ∈ versions) :
      Relinked start versions (start.setCurrent (linkTo version))

theorem Relinked.mono {start last : Host} {versions all : List Text}
    (linked : Relinked start versions last) (within : versions ⊆ all) :
    Relinked start all last := by
  cases linked with
  | same => exact .same
  | moved named => exact .moved (within named)

theorem Relinked.trans {start middle last : Host} {first second all : List Text}
    (before : Relinked start first middle) (after : Relinked middle second last)
    (firstIn : first ⊆ all) (secondIn : second ⊆ all) : Relinked start all last := by
  cases before with
  | same =>
    cases after with
    | same => exact .same
    | moved named => exact .moved (secondIn named)
  | moved earlier =>
    cases after with
    | same => exact .moved (firstIn earlier)
    | moved named => exact .moved (secondIn named)

variable {raises : Raised → Host → Prop}

theorem reading_ends {α : Type} {read : Host → Except Raised α} {requires : Host → Prop}
    {returns : α → Host → Prop}
    (fine : ∀ host, requires host → Ensures (read host) fun value => returns value host)
    (failed : ∀ host, requires host → FailsOnly (read host) fun error => raises error host) :
    Contract (fun _ => True) requires (reading read) returns raises := by
  refine .bind (fun answer host => answer = read host ∧ requires host)
    (.inspect fun host start => ⟨rfl, start⟩) fun answer => ?_
  refine .lift (fun value same host both => ?_) fun error same host both => ?_
  · exact fine host both.2 value (both.1.symm.trans same)
  · exact failed host both.2 error (both.1.symm.trans same)

theorem perform_ends (call : Call) (requires : Host → Prop) :
    Contract (fun _ => True) requires (perform env call) (fun _ => requires)
      (fun error last => Silent error ∧ requires last) :=
  .lift (fun _ _ _ start => start)
    fun error raised _ start => ⟨(call_foreign call error raised).silent, start⟩

theorem atomicCurrent_ends (site : Site) (version : Text) (requireVerified : Bool) (start : Host) :
    Contract (fun _ => True) (· = start) (atomicCurrent env site version requireVerified)
      (fun _ last => Relinked start [version] last ∧ last.designates = some version)
      (fun error last => Silent error ∧ Relinked start [version] last) := by
  have unmoved : ∀ error host, Silent error ∧ host = start →
      Silent error ∧ Relinked start [version] host := by
    rintro error host ⟨silent, rfl⟩
    exact ⟨silent, .same⟩
  refine .bind (fun _ => (· = start)) ?_ fun _ => ?_
  · refine reading_ends (fun host same => fun _ _ => same) fun host same error raised => ?_
    exact unmoved error host ⟨switchTarget_silent site version requireVerified error raised, same⟩
  refine .bind (fun _ => (· = start)) ?_ fun _ => ?_
  · exact (perform_ends _ _).weaken (fun _ same => same) (fun _ _ same => same) unmoved
  refine .bind (fun _ => Relinked start [version]) ?_ fun _ => ?_
  · refine .ensuring_lift ?_ ?_
    · refine .bind (fun _ => (· = start)) ?_ fun _ => ?_
      · exact (perform_ends _ _).weaken (fun _ same => same) (fun _ _ same => same) unmoved
      refine .bind (fun _ => (· = start)) ?_ fun _ => ?_
      · exact (perform_ends _ _).weaken (fun _ same => same) (fun _ _ same => same) unmoved
      refine .durable (fun _ _ => trivial) fun host same => ?_
      rw [same]
      exact .moved (List.mem_singleton.mpr rfl)
    · intro error raised host reached
      refine ⟨(call_foreign _ error raised).silent, ?_⟩
      cases reached with
      | inl returned => exact returned.choose_spec
      | inr failed => exact failed.choose_spec.2
  refine .bind (fun current last =>
    Relinked start [version] last ∧ last.designates = some current) ?_ fun current => ?_
  · refine reading_ends (fun host linked current read => ?_) fun host linked error raised => ?_
    · exact ⟨linked, currentVersion_designates site current read⟩
    · exact ⟨currentVersion_silent site error raised, linked⟩
  split
  · refine .lift (fun _ same => nomatch same) fun error same host both => ?_
    exact ⟨fails_silent error same, both.1⟩
  rename_i same
  refine .pure fun host both => ⟨both.1, ?_⟩
  rw [both.2, not_not.mp same]

/-- What a failed activation reports is what the link designates. -/
structure Recovered (previous : Text) (failure : ReleaseFailure) (last : Host) : Prop where
  unchanged : failure.rollback ≠ .incomplete → last.designates = some previous
  active : ∀ version, failure.active = some version → last.designates = some version

section

variable (previous : Text)
include previous

theorem restoreService_foreign (wasActive : Bool) :
    FailsOnly (restoreService env previous wasActive) Foreign := by
  refine .ite ?_ ?_
  · refine .bind (restartService_foreign _) fun code => ?_
    refine .bind (serviceState_foreign _) fun state => ?_
    exact .ite (.bind (pingLoop_foreign _ _ _) fun _ => .ok _) (.ok _)
  · refine .bind (stopService_foreign _) fun code => ?_
    exact .bind (serviceState_foreign _) fun state => .ok _

theorem tryRestore_ends (wasActive : Bool) (start : Host) :
    Contract (fun _ => True) (· = start) (tryRestore env previous wasActive)
      (fun restored last => Relinked start [previous] last ∧
        (restored = true → last.designates = some previous))
      (fun error last => Silent error ∧ Relinked start [previous] last) := by
  refine .bind (fun _ => Relinked start [previous]) ?_ fun _ => ?_
  · exact (atomicCurrent_ends .restore previous false start).weaken (fun _ same => same)
      (fun _ _ both => both.1) fun _ _ both => both
  refine .bind (fun current last =>
    Relinked start [previous] last ∧ last.designates = some current) ?_ fun current => ?_
  · refine reading_ends (fun host linked current read => ?_) fun host linked error raised => ?_
    · exact ⟨linked, currentVersion_designates .restored current read⟩
    · exact ⟨currentVersion_silent .restored error raised, linked⟩
  refine .bind (fun _ last =>
    Relinked start [previous] last ∧ last.designates = some current) ?_ fun healthy => ?_
  · refine .lift (fun _ _ host both => both) fun error raised host both => ?_
    exact ⟨(restoreService_foreign previous wasActive error raised).silent, both.1⟩
  refine .pure fun host both => ⟨both.1, fun restored => ?_⟩
  rw [Bool.and_eq_true, decide_eq_true_eq] at restored
  rw [both.2, restored.1]

theorem restore_ends (wasActive : Bool) (start : Host) :
    Contract (fun _ => True) (· = start) (restore env previous wasActive)
      (fun restored last => Relinked start [previous] last ∧
        (restored = true → last.designates = some previous))
      (fun error last => Uncaught error ∧ Relinked start [previous] last) := by
  refine .bind _ (.attempt (tryRestore_ends previous wasActive start))
    fun outcome => ?_
  cases outcome with
  | ok restored => exact .pure fun host holds => holds
  | error error =>
    dsimp only
    split
    · exact .pure fun host holds => ⟨holds.2, fun impossible => nomatch impossible⟩
    rename_i escapes
    refine .raise fun host holds => ⟨holds.1.uncaught ?_, holds.2⟩
    simpa using escapes

theorem knownUnchanged_designates (switched : Bool) (host : Host) :
    Ensures (knownUnchanged env previous switched host) fun unchanged =>
      unchanged = true → host.designates = some previous := by
  refine .ite (fun _ => .ok fun impossible => nomatch impossible) fun _ => ?_
  split
  · rename_i current read
    refine .ok fun unchanged => ?_
    rw [currentVersion_designates .unswitched current read, of_decide_eq_true unchanged]
  · exact .ite (fun _ => .ok fun impossible => nomatch impossible)
      fun _ => .error _

theorem knownUnchanged_uncaught (switched : Bool) (host : Host) :
    FailsOnly (knownUnchanged env previous switched host) Uncaught := by
  refine .ite (.ok _) ?_
  split
  · exact .ok _
  rename_i error raised
  by_cases caught : (error.isOSError || error.isFailure) = true
  · rw [if_pos caught]
    exact .ok _
  rw [if_neg caught]
  refine .error ((currentVersion_escapes .unswitched error raised).resolve_left ?_)
  intro failed
  exact caught (by rw [failed, Bool.or_true])

end

theorem observedCurrentVersion_designates (host : Host) :
    Ensures (observedCurrentVersion env host) fun observed =>
      ∀ version, observed = some version → host.designates = some version := by
  unfold observedCurrentVersion
  split
  · rename_i current read
    refine .ok fun version same => ?_
    cases same
    exact currentVersion_designates .observed current read
  · exact .ite (fun _ => .ok fun _ impossible => nomatch impossible)
      fun _ => .error _

theorem observedCurrentVersion_uncaught (host : Host) :
    FailsOnly (observedCurrentVersion env host) Uncaught := by
  unfold observedCurrentVersion
  split
  · exact .ok _
  rename_i error raised
  by_cases failed : error.isFailure = true
  · rw [if_pos failed]
    exact .ok _
  · rw [if_neg failed]
    exact .error ((currentVersion_escapes .observed error raised).resolve_left failed)

theorem recover_ends (previous : Text) (wasActive switched : Bool) {failure : ReleaseFailure}
    (unsaid : failure.active = none) (start : Host) :
    Contract (fun _ => True) (· = start) (recover env previous wasActive switched failure)
      (fun reported last => Relinked start [previous] last ∧ Recovered previous reported last)
      (fun error last => Uncaught error ∧ Relinked start [previous] last) := by
  refine .bind (fun unchanged last => last = start ∧
    (unchanged = true → last.designates = some previous)) ?_ fun unchanged => ?_
  · refine reading_ends (fun host same unchanged read => ?_) fun host same error raised => ?_
    · exact ⟨same, knownUnchanged_designates previous switched host unchanged read⟩
    · rw [same]
      exact ⟨knownUnchanged_uncaught previous switched host error raised, .same⟩
  split
  · rename_i known
    refine .pure fun host both => ⟨by rw [both.1]; exact .same, ?_⟩
    refine ⟨fun _ => both.2 known, fun version active => ?_⟩
    rw [unsaid] at active
    cases active
  · refine .bind (fun restored last => Relinked start [previous] last ∧
      (restored = true → last.designates = some previous)) ?_ fun restored => ?_
    · exact (restore_ends previous wasActive start).weaken (fun _ both => both.1)
        (fun _ _ holds => holds) fun _ _ holds => holds
    split
    · rename_i done
      refine .pure fun host both => ⟨both.1, fun _ => both.2 done, fun version active => ?_⟩
      cases active
      exact both.2 done
    · refine .bind (fun observed last => Relinked start [previous] last ∧
        ∀ version, observed = some version → last.designates = some version) ?_ fun observed => ?_
      · refine reading_ends (fun host both observed read => ?_) fun host both error raised => ?_
        · exact ⟨both.1, observedCurrentVersion_designates host observed read⟩
        · exact ⟨observedCurrentVersion_uncaught host error raised, both.1⟩
      exact .pure fun host both =>
        ⟨both.1, fun complete => absurd rfl complete, both.2⟩

theorem switchFailure_unsaid {error : Raised} (silent : Silent error) :
    Ensures (switchFailure error) fun failure => failure.active = none := by
  unfold switchFailure
  split
  · exact .ok silent
  · exact .ite (fun _ => .ok rfl) fun _ => .error _

theorem switchFailure_uncaught {error : Raised} (silent : Silent error) :
    FailsOnly (switchFailure error) Uncaught := by
  unfold switchFailure
  split
  · exact .ok _
  rename_i other
  by_cases caught : (error.isOSError || error.isValueError) = true
  · rw [if_pos caught]
    exact .ok _
  rw [if_neg caught]
  refine .error (silent.uncaught ?_)
  cases failed : error.isFailure with
  | false => simpa using caught
  | true =>
    cases error with
    | failure failure => exact absurd rfl (other failure)
    | python | trust | insufficientPrivilege | mutationLocked | unsafeLock => cases failed

def Activated (target previous : Text) (failure : Option ReleaseFailure) (last : Host) : Prop :=
  match failure with
  | none => last.designates = some target
  | some failure => Recovered previous failure last

theorem activate_ends (target previous : Text) (wasActive : Bool) (start : Host) :
    Contract (fun _ => True) (· = start) (activate env target previous wasActive)
      (fun failure last => Relinked start [target, previous] last ∧
        Activated target previous failure last)
      (fun error last => Uncaught error ∧ Relinked start [target, previous] last) := by
  have recovered : ∀ (switched : Bool) (error : Raised) (middle : Host), Silent error →
      Relinked start [target] middle →
      Contract (fun _ => True) (· = middle)
        (do
          let failure ← Program.lift (switchFailure error)
          return some (← recover env previous wasActive switched failure))
        (fun failure last => Relinked start [target, previous] last ∧
          Activated target previous failure last)
        (fun error last => Uncaught error ∧ Relinked start [target, previous] last) := by
    intro switched error middle silent linked
    have all : ∀ last, Relinked middle [previous] last →
        Relinked start [target, previous] last := fun last after =>
      linked.trans after (by simp) (by simp)
    refine .bind (fun failure last => last = middle ∧ failure.active = none) ?_
      fun failure => ?_
    · refine .lift (fun failure given host same => ?_) fun escaped given host same => ?_
      · exact ⟨same, switchFailure_unsaid silent failure given⟩
      · rw [same]
        exact ⟨switchFailure_uncaught silent escaped given, all middle .same⟩
    refine .learning (failure.active = none) (fun _ both => both.2) fun unsaid => ?_
    refine .bind (fun reported last => Relinked start [target, previous] last ∧
      Recovered previous reported last) ?_ fun reported => ?_
    · exact (recover_ends previous wasActive switched unsaid middle).weaken (fun _ both => both.1)
        (fun _ last both => ⟨all last both.1, both.2⟩) fun _ last both => ⟨both.1, all last both.2⟩
    · exact .pure fun _ holds => holds
  refine .bind _ (.attempt (atomicCurrent_ends .switch target true start)) fun switching => ?_
  cases switching with
  | error error =>
    exact .pointwise fun middle both => recovered false error middle both.1 both.2
  | ok done =>
    dsimp only
    split
    · refine .pure fun host both => ⟨?_, both.2⟩
      exact both.1.mono (by simp)
    rename_i error raised
    exact .pointwise fun middle both =>
      recovered true error middle (gateCandidate_silent target wasActive error raised) both.1

theorem observing_ends {α : Type} (read : Host → Except Raised α) (start : Host) :
    Contract (fun _ => True) (· = start) (attempt (reading read))
      (fun observed last => last = start ∧ observed = read start) raises := by
  intro host same
  rw [same]
  have ended := final_reading read start
  exact ⟨fun _ _ => trivial, congrArg Prod.snd ended, congrArg Prod.fst ended⟩

theorem removeCreatedIfInactive_ends
    (canonical : isCanonicalReleaseVersion version = true) (start : Host) :
    Contract (fun _ => True) (· = start) (removeCreatedIfInactive env version)
      (fun _ last => last.designates = start.designates)
      (fun error last => Foreign error ∧ last.designates = start.designates ∧
        (Uncaught error ∨ ∃ other, start.designates = some other ∧ other ≠ version)) := by
  refine .bind _ (observing_ends _ start) fun observed => ?_
  cases observed with
  | error error =>
    dsimp only
    split
    · refine .pure fun host both => ?_
      rw [both.1]
    rename_i other
    refine .raise fun host both => ?_
    have uncaught := (currentVersion_escapes .created error both.2.symm).resolve_left other
    exact ⟨uncaught.foreign, by rw [both.1], .inl uncaught⟩
  | ok current =>
    dsimp only
    refine .learning (start.designates = some current)
      (fun host both => currentVersion_designates .created current both.2.symm)
      fun designated => ?_
    split
    · refine .pure fun host both => ?_
      rw [both.1]
    rename_i other
    have removed : ∀ path, releasePath version = .ok path →
        (removeManagedTree env .created path).Respects
          (Keeps fun name => name ≠ version) := fun path named =>
      removeManagedTree_keeps .created fun keeps => keeps (releasePath_same version path named)
    have guards : ∀ name, start.linked = some name → name ≠ version := by
      intro name linked
      rw [designates_linked designated] at linked
      cases linked
      exact other
    refine .bind (fun path last => last = start ∧ releasePath version = .ok path) ?_
      fun path => ?_
    · refine .lift (fun path named host both => ⟨both.1, named⟩)
        fun error raised host both => ?_
      rw [releasePath, if_pos canonical] at raised
      cases raised
    · intro host both
      rw [both.1]
      have keeps := (removed path both.2 start).2.designates guards
      refine ⟨fun _ _ => trivial, ?_⟩
      cases answer : (removeManagedTree env .created path start).result with
      | ok done => exact keeps
      | error error =>
        refine ⟨?_, keeps, .inr ⟨current, designated, other⟩⟩
        exact removeManagedTree_foreign .created path start error answer

end Steps

end XFerry.Management
