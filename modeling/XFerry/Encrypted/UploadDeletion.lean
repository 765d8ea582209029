/-
Deletion of upload items against their completion.

The handler of an upload item's DELETE takes the storage lock twice: to read the
status, and to delete.  Other threads run between the two.  An item completed
there is destroyed; nothing else is.
-/

import XFerry.Encrypted.CrashSafety

namespace XFerry.Encrypted

open CrashProgram Program EventMachine

variable {Time : Type} [LinearOrder Time] [Sub Time]

inductive UploadItemAnswer where
  | invalidField (field : String)
  | notFound
  | deleted (fileId : FileId)

def lookUpUploadItem (service : Service Time) (env : Environment Time)
    (fileId : FileId) (body : Bytes) : Action Time (Option UploadItemAnswer) := do
  if body ≠ [] then
    return some (.invalidField "body")
  else
    match ← get service env fileId with
    | none => return some .notFound
    | some record =>
      if record.status ≠ .partial_ then
        return some .notFound
      else
        return none

def deleteUploadItem (fileId : FileId) : Action Time UploadItemAnswer := do
  let _ ← deleteLocked fileId .requested
  return .deleted fileId

/-- `deciding` lists the threads that have decided to delete, with their items. -/
structure Server (Time : Type) where
  world : World Time
  deciding : List (Nat × FileId)

inductive Section (Time : Type) where
  | call (operation : Operation Time) (env : Environment Time)
  | lookUp (thread : Nat) (fileId : FileId) (body : Bytes) (env : Environment Time)
  | delete (thread : Nat)

def Server.itemOf (server : Server Time) (thread : Nat) : Option FileId :=
  (server.deciding.find? fun entry => entry.1 = thread).map Prod.snd

def Server.step (service : Service Time) : Machine (Server Time) (Section Time)
  | server, .call operation env =>
    some { server with world := (perform service env operation server.world).world }
  | server, .lookUp thread fileId body env =>
    match server.itemOf thread with
    | some _ => none
    | none =>
      let outcome := lookUpUploadItem service env fileId body server.world
      match outcome.result with
      | .ok none =>
        some { world := outcome.world, deciding := (thread, fileId) :: server.deciding }
      | _ => some { server with world := outcome.world }
  | server, .delete thread =>
    match server.itemOf thread with
    | none => none
    | some fileId =>
      some
        { world := (deleteUploadItem fileId server.world).world
          deciding := server.deciding.filter fun entry => entry.1 ≠ thread }

def SparesCompleted (server : Server Time) : Section Time → Prop
  | .delete thread =>
    ∀ fileId ∈ server.itemOf thread, (server.world.standing fileId).completed = false
  | _ => True

def Slot.completable (service : Service Time) (now : Time) (slot : Slot Time) : Bool :=
  slot.journal.any fun record =>
    decide (record.receivedChunks.length = record.manifest.chunkCount) &&
      !(decide (record.status = .partial_) && isIdle service now record)

def CompletesUndecided (service : Service Time) (server : Server Time) : Section Time → Prop
  | .call (.complete fileId) env =>
    fileId ∈ server.deciding.map Prod.snd →
      (server.world.slot fileId).completable service env.lookup = false
  | _ => True

instance (server : Server Time) : ∀ event : Section Time, Decidable (SparesCompleted server event)
  | .delete thread =>
    match found : server.itemOf thread with
    | none => isTrue (by simp [SparesCompleted, found])
    | some fileId =>
      decidable_of_iff ((server.world.standing fileId).completed = false)
        (by simp [SparesCompleted, found])
  | .call _ _ => isTrue trivial
  | .lookUp _ _ _ _ => isTrue trivial

instance (service : Service Time) (server : Server Time) :
    ∀ event : Section Time, Decidable (CompletesUndecided service server event)
  | .call (.complete fileId) env =>
    inferInstanceAs (Decidable (fileId ∈ server.deciding.map Prod.snd →
      (server.world.slot fileId).completable service env.lookup = false))
  | .call (.create _) _ => isTrue trivial
  | .call (.writeChunk _ _ _ _) _ => isTrue trivial
  | .call (.delete _) _ => isTrue trivial
  | .call (.expireIncomplete _) _ => isTrue trivial
  | .call (.get _) _ => isTrue trivial
  | .call (.listFiles _) _ => isTrue trivial
  | .lookUp _ _ _ _ => isTrue trivial
  | .delete _ => isTrue trivial

section Sections

variable {service : Service Time} {env : Environment Time} {fileId : FileId}
  {world : World Time}

theorem get_of_absent (missing : (world.slot fileId).journal = none) :
    (get service env fileId world).result = .ok none := by
  simp [get, bind, andThen, inspect, missing, pure, returning]

theorem get_of_idle {record : Record Time}
    (present : (world.slot fileId).journal = some record) (wellFormed : record.WellFormed fileId)
    (idle : record.status = .partial_ ∧ isIdle service env.lookup record = true) :
    (get service env fileId world).result = .ok none := by
  simp [get, bind, andThen, inspect, present, readState_eq present wellFormed, idle,
    deleteLocked, Program.record, unlinkPart, unlinkComplete, unlinkState, durable, pure,
    returning]

theorem get_of_live {record : Record Time}
    (present : (world.slot fileId).journal = some record) (wellFormed : record.WellFormed fileId)
    (live : ¬ (record.status = .partial_ ∧ isIdle service env.lookup record = true)) :
    (get service env fileId world).result = .ok (some record) := by
  simp [get, bind, andThen, inspect, present, readState_eq present wellFormed, if_neg live,
    pure, returning]

theorem complete_eq_of_absent (missing : (get service env fileId world).result = .ok none) :
    (complete service env fileId world).result =
      .error (.notFound "encrypted file not found") := by
  simp [complete, requireFile, bind, andThen, missing, raise]

theorem completable_of_completed (settled : Settled service world) {answer : Record Time × Bool}
    (returned : (complete service env fileId world).result = .ok answer) :
    (world.slot fileId).completable service env.lookup = true := by
  cases present : (world.slot fileId).journal with
  | none =>
    rw [complete_eq_of_absent (get_of_absent present)] at returned
    cases returned
  | some record =>
    have wellFormed := ((settled fileId).kept_of_journal present).intact.wellFormed
    by_cases idle : record.status = .partial_ ∧ isIdle service env.lookup record = true
    · rw [complete_eq_of_absent (get_of_idle present wellFormed idle)] at returned
      cases returned
    have full : record.receivedChunks.length = record.manifest.chunkCount := by
      by_cases done : record.status = .complete
      · apply wellFormed.final
        rw [done]
        exact Status.noConfusion
      by_contra short
      have found : (get service env fileId world).result = .ok (some record) :=
        get_of_live present wellFormed idle
      simp [complete, requireFile, bind, andThen, found, pure, returning, done, short,
        raise] at returned
    have held := (not_and_or.mp idle).imp_right Bool.eq_false_of_not_eq_true
    simpa [Slot.completable, present, full] using held

theorem completed_of_perform {operation : Operation Time} (settled : Settled service world)
    (done : ((perform service env operation world).world.standing fileId).completed =
      true) : (world.standing fileId).completed = true ∨ (operation = .complete fileId ∧
        (world.slot fileId).completable service env.lookup = true) := by
  have executed := (keeps_execute service env operation world).2 fileId
  cases answer : (execute service env operation world).result with
  | error error =>
    simp only [perform, bind, andThen, answer] at done
    exact .inl (executed.completed done)
  | ok value =>
    simp only [perform, bind, andThen, answer] at done
    cases claims : operation.claim service with
    | none =>
      simp only [claims, acknowledgeClaim, pure, returning] at done
      exact .inl (executed.completed done)
    | some target =>
      obtain ⟨claimed, claim⟩ := target
      simp only [claims, acknowledgeClaim, record] at done
      by_cases same : fileId = claimed
      · subst same
        cases operation with
        | complete completed =>
          cases claims
          refine .inr ⟨rfl, ?_⟩
          cases returned : (complete service env fileId world).result with
          | error error => simp [execute, bind, andThen, returned] at answer
          | ok value => exact completable_of_completed settled returned
        | create | writeChunk =>
          cases claims
          rw [World.standing_judge_same, Standing.acknowledge_completed] at done
          exact .inl (executed.completed done)
        | delete | expireIncomplete | get | listFiles => cases claims
      · rw [World.standing_judge_other _ _ same] at done
        exact .inl (executed.completed done)

variable (service env fileId) in
theorem keeps_lookUpUploadItem (body : Bytes) :
    Keeps (lookUpUploadItem service env fileId body) := by
  unfold lookUpUploadItem
  split
  · exact .pure _
  apply Respects.bind (keeps_get service env fileId)
  intro answer
  cases answer with
  | none => exact .pure _
  | some record =>
    dsimp only
    split <;> exact .pure _

/-- A handler decides to delete only what has not been completed. -/
def Undecided (service : Service Time) (fileId : FileId) (answer : Option UploadItemAnswer)
    (world : World Time) : Prop :=
  Settled service world ∧ (answer = none → (world.standing fileId).completed = false)

variable (env fileId) in
theorem contract_lookUpUploadItem (body : Bytes) :
    Contract (Sound service) (Settled service)
      (lookUpUploadItem service env fileId body)
      (Undecided service fileId) (fun _ => Settled service) := by
  unfold lookUpUploadItem
  split
  · exact .pure fun _ settled => ⟨settled, fun answer => by cases answer⟩
  apply Contract.bind _ (contract_get env)
  intro answer
  cases answer with
  | none =>
    apply Contract.pure
    intro world focus
    exact ⟨settled_of_focus focus fun _ _ removed => removed.settled,
      fun answer => by cases answer⟩
  | some record =>
    dsimp only
    split
    · apply Contract.pure
      intro world focus
      exact ⟨settled_of_focus focus fun _ _ kept => kept.settled,
        fun answer => by cases answer⟩
    rename_i status
    apply Contract.pure
    intro world focus
    constructor
    · exact settled_of_focus focus fun _ _ kept => kept.settled
    · intro _
      by_contra acknowledged
      have final := focus.2.allows.status (Bool.eq_true_of_not_eq_false acknowledged)
      rw [not_not.mp status] at final
      cases final

theorem contract_deleteUploadItem (fileId : FileId) :
    Contract (Sound service) (Settled service) (deleteUploadItem fileId)
      (fun _ => Settled service) (fun _ => Settled service) := by
  have removed : Contract (Sound service) (Focus (SettledAt service) fileId
      (SettledAt service fileId)) (deleteLocked fileId .requested)
      (fun _ => Focus (SettledAt service) fileId (Removed service fileId))
      (fun _ => Settled service) :=
    contract_deleteLocked (ItemProperty.safe_settledAt service) (fun _ _ settled => settled)
      fun _ _ _ => trivial
  apply Contract.bind _ (contract_of_focus fileId removed)
  intro _
  exact .pure fun _ focus => settled_of_focus focus fun _ _ removed => removed.settled

end Sections

structure Server.Valid (service : Service Time) (server : Server Time) : Prop where
  settled : Settled service server.world
  undecided : ∀ entry ∈ server.deciding, (server.world.standing entry.2).completed = false

section

omit [LinearOrder Time] [Sub Time]

theorem Server.itemOf_mem {server : Server Time} {thread : Nat} {fileId : FileId}
    (found : server.itemOf thread = some fileId) : (thread, fileId) ∈ server.deciding := by
  obtain ⟨entry, located, rfl⟩ := Option.map_eq_some_iff.mp found
  have named : entry.1 = thread := by simpa using List.find?_some located
  rw [← named]
  exact List.mem_of_find?_eq_some located

theorem not_completed_of_persists {later earlier : World Time} {fileId : FileId}
    (persists : later.Persists earlier) (open_ : (earlier.standing fileId).completed = false) :
    (later.standing fileId).completed = false := by
  by_contra done
  have before := (persists fileId).completed (Bool.eq_true_of_not_eq_false done)
  rw [open_] at before
  cases before

end

variable {service : Service Time}

theorem Server.Valid.step {server next : Server Time}
    {event : Section Time} (valid : Server.Valid service server)
    (guarded : CompletesUndecided service server event)
    (taken : Server.step service server event = some next) : Server.Valid service next := by
  cases event with
  | call operation env =>
    cases taken
    constructor
    · have done := (contract_perform env operation server.world valid.settled).2
      split at done <;> exact done
    · intro entry member
      by_contra acknowledged
      rcases completed_of_perform valid.settled
        (Bool.eq_true_of_not_eq_false acknowledged) with before | ⟨rfl, full⟩
      · rw [valid.undecided entry member] at before
        cases before
      · rw [guarded (List.mem_map_of_mem member)] at full
        cases full
  | lookUp thread fileId body env =>
    have persists := (keeps_lookUpUploadItem service env fileId body server.world).2
    have looked := (contract_lookUpUploadItem env fileId body server.world valid.settled).2
    have others : ∀ entry ∈ server.deciding,
        ((lookUpUploadItem service env fileId body
          server.world).world.standing entry.2).completed = false :=
      fun entry member => not_completed_of_persists persists (valid.undecided entry member)
    simp only [Server.step] at taken
    split at taken
    · cases taken
    split at taken
    · case h_1 answer =>
      rw [answer] at looked
      cases taken
      constructor
      · exact looked.1
      · intro entry member
        rcases List.mem_cons.mp member with rfl | earlier
        · exact looked.2 rfl
        · exact others entry earlier
    · cases taken
      constructor
      · split at looked
        · exact looked.1
        · exact looked
      · exact others
  | delete thread =>
    simp only [Server.step] at taken
    split at taken
    · cases taken
    rename_i fileId located
    cases taken
    have persists : Keeps (deleteUploadItem fileId : Action Time UploadItemAnswer) :=
      .bind (keeps_deleteLocked fileId _) fun _ => .pure _
    constructor
    · have done := (contract_deleteUploadItem fileId server.world valid.settled).2
      split at done <;> exact done
    · intro entry member
      exact not_completed_of_persists (persists server.world).2
        (valid.undecided entry (List.mem_filter.mp member).1)

theorem Server.Valid.sparesCompleted {server : Server Time}
    (valid : Server.Valid service server) (event : Section Time) :
    SparesCompleted server event := by
  cases event with
  | call | lookUp => trivial
  | delete thread =>
    intro fileId located
    exact valid.undecided _ (Server.itemOf_mem located)

/-- In every interleaving that completes no item between the two sections of a
handler deleting it, over a storage with any history, a handler never deletes an
item whose completion has been acknowledged. -/
theorem Server.deletions_spare_completed (service : Service Time)
    (before : List (Event Time)) (started : System Time) (events : List (Section Time))
    (reached : run (System.step service) System.initial before = some started)
    (up : started.running = true)
    (undecided : Along (Server.step service) (CompletesUndecided service)
      { world := started.world, deciding := [] } events) :
    Along (Server.step service) SparesCompleted
      { world := started.world, deciding := [] } events := by
  have start : Server.Valid service { world := started.world, deciding := [] } :=
    ⟨(run_valid reached).settled up, by simp⟩
  apply along_of_invariant (Server.Valid service) _ _ start undecided
  · intro server event next valid guarded taken
    exact valid.step guarded taken
  · intro server event valid _guarded
    exact valid.sparesCompleted event

def sampleServer : Server Int := { world := (afterSample sampleCreated).world, deciding := [] }

/-- A deletion that nothing overtakes, then the upload again up to its completion,
which a second handler leaves alone. -/
def undisturbedDeletion : List (Section Int) :=
  [.call sampleWrite sampleEnvironment,
    .lookUp 0 sampleManifest.fileId [] sampleEnvironment,
    .delete 0,
    .call (.create sampleManifest) sampleEnvironment,
    .call sampleWrite sampleEnvironment,
    .call (.complete sampleManifest.fileId) sampleEnvironment,
    .lookUp 0 sampleManifest.fileId [] sampleEnvironment]

def overtakenDeletion : List (Section Int) :=
  [.call sampleWrite sampleEnvironment,
    .lookUp 0 sampleManifest.fileId [] sampleEnvironment,
    .call (.complete sampleManifest.fileId) sampleEnvironment,
    .delete 0]

theorem undisturbedDeletion_spares_completed :
    Along (Server.step sampleService) SparesCompleted sampleServer undisturbedDeletion :=
  Server.deletions_spare_completed sampleService sampleCreated (afterSample sampleCreated)
    undisturbedDeletion (run_eq_afterSample (by decide +kernel)) (by decide +kernel)
    (by decide +kernel)

theorem overtakenDeletion_destroys_completed :
    (run (Server.step sampleService) sampleServer overtakenDeletion).isSome = true ∧
      ¬ Along (Server.step sampleService) SparesCompleted sampleServer overtakenDeletion := by
  decide +kernel

end XFerry.Encrypted
