/-
Crash safety of the encrypted storage.

The system runs the operations one after another, as the storage lock makes it.
A crash can interrupt any of them, start-up included, after any durable step; the
next start-up recovers.  What the callers were told survives.
-/

import XFerry.EventMachine
import XFerry.Encrypted.Standings
import XFerry.Encrypted.Recovery

namespace XFerry.Encrypted

open CrashProgram Program EventMachine

variable {Time : Type} [LinearOrder Time] [Sub Time]

inductive Operation (Time : Type) where
  | create (manifest : Manifest)
  | writeChunk (fileId : FileId) (index : Int) (ciphertext resumeMac : Bytes)
  | complete (fileId : FileId)
  | delete (fileId : FileId)
  | expireIncomplete (now : Time)
  | get (fileId : FileId)
  | listFiles (status : Option Status)

def execute (service : Service Time) (env : Environment Time) : Operation Time → Action Time Unit
  | .create manifest => do
      let _ ← create service env manifest
      return ()
  | .writeChunk fileId index ciphertext resumeMac => do
      let _ ← writeChunk service env fileId index ciphertext resumeMac
      return ()
  | .complete fileId => do
      let _ ← complete service env fileId
      return ()
  | .delete fileId => do
      let _ ← deleteLocked fileId .requested
      return ()
  | .expireIncomplete now => do
      let _ ← expireIncompleteLocked service now
      return ()
  | .get fileId => do
      let _ ← get service env fileId
      return ()
  | .listFiles status => do
      let _ ← listFiles service env status
      return ()

/-- What the caller of an operation relies on once it has returned: after `create`
that the item is there, after `write_chunk` that it has the chunk, after `complete`
that it is complete. -/
def Operation.claim (service : Service Time) : Operation Time → Option (FileId × Claim)
  | .create manifest => some (manifest.fileId, { chunks := [], completed := false })
  | .writeChunk fileId index ciphertext resumeMac =>
    some (fileId,
      { chunks := [offeredChunk service index.toNat ciphertext resumeMac]
        completed := false })
  | .complete fileId => some (fileId, { chunks := [], completed := true })
  | _ => none

def acknowledgeClaim : Option (FileId × Claim) → Action Time Unit
  | none => return ()
  | some (fileId, claim) => record (World.judge fileId (Standing.acknowledge claim))

def perform (service : Service Time) (env : Environment Time)
    (operation : Operation Time) : Action Time Unit := do
  execute service env operation
  acknowledgeClaim (operation.claim service)

structure System (Time : Type) where
  world : World Time
  running : Bool

/-- A crash names how many durable steps the interrupted program had made. -/
inductive Event (Time : Type) where
  | call (operation : Operation Time) (env : Environment Time)
  | crashCall (operation : Operation Time) (env : Environment Time) (steps : Nat)
  | start (env : Environment Time)
  | crashStart (env : Environment Time) (steps : Nat)

def System.initial : System Time := { world := World.initial, running := false }

def crashAfter {α : Type} (program : Action Time α) (world : World Time) (steps : Nat) :
    Option (System Time) :=
  (program.crashes world)[steps]?.map fun left => { world := left, running := false }

def System.step (service : Service Time) : Machine (System Time) (Event Time)
  | system, .call operation env =>
    if system.running then
      let outcome := perform service env operation system.world
      some { world := outcome.world, running := true }
    else none
  | system, .crashCall operation env steps =>
    if system.running then
      crashAfter (perform service env operation) system.world steps
    else none
  | system, .start env =>
    if system.running then none
    else
      let outcome := startUp service env system.world
      match outcome.result with
      | .ok _ => some { world := outcome.world, running := true }
      | .error _ => some { world := outcome.world, running := false }
  | system, .crashStart env steps =>
    if system.running then none
    else crashAfter (startUp service env) system.world steps

variable {standing : Standing Time} {slot : Slot Time} {claim : Claim} {world : World Time}

section Operations

variable {service : Service Time} {fileId : FileId}

theorem Kept.acknowledge {record : Record Time} (kept : Kept service fileId record standing slot)
    (holds : claim.HoldsOf record) :
    Kept service fileId record (standing.acknowledge claim) slot := by
  refine ⟨kept.intact, kept.allows.justified, fun whole member => ?_, fun done => ?_⟩
  · cases Option.mem_some.mp member
    refine List.append_subset.mpr ⟨holds.1, ?_⟩
    cases earlier : standing.claim with
    | none => simp
    | some claim => exact kept.allows.chunks claim earlier
  · rcases Bool.or_eq_true_iff.mp done with now | already
    · exact holds.2 now
    · exact kept.allows.status already

def Claimable (service : Service Time) : Option (FileId × Claim) → World Time → Prop
  | none, world => Settled service world
  | some (fileId, claim), world =>
    Focus (SettledAt service) fileId (fun standing slot =>
      ∃ record, Kept service fileId record standing slot ∧ claim.HoldsOf record) world

theorem Focus.claimable {property : Standing Time → Slot Time → Prop}
    (focus : Focus (SettledAt service) fileId property world)
    (implied : ∀ standing slot, property standing slot →
      ∃ record, Kept service fileId record standing slot ∧ claim.HoldsOf record) :
    Claimable service (some (fileId, claim)) world :=
  focus.imp implied

theorem contract_execute (env : Environment Time) (operation : Operation Time) :
    Contract (Sound service) (Settled service) (execute service env operation)
      (fun _ => Claimable service (operation.claim service)) (fun _ => Settled service) := by
  have safe := ItemProperty.safe_settledAt service
  cases operation with
  | create manifest =>
    refine .bind _ (contract_create env manifest) fun result => ?_
    exact .pure fun _ focus => focus.claimable fun _ _ kept =>
      ⟨result.1, kept, by simp [Claim.HoldsOf]⟩
  | writeChunk fileId index ciphertext resumeMac =>
    refine .bind _ (contract_writeChunk env index ciphertext resumeMac)
      fun result => ?_
    exact .pure fun _ focus => focus.claimable fun _ _ holds =>
      ⟨result.1, holds.1, by simpa [Claim.HoldsOf] using holds.2⟩
  | complete fileId =>
    refine .bind _ (contract_complete env) fun result => ?_
    exact .pure fun _ focus => focus.claimable fun _ _ holds =>
      ⟨result.1, holds.1, by simpa [Claim.HoldsOf] using holds.2⟩
  | delete fileId =>
    refine .bind _ (contract_of_focus fileId (contract_deleteLocked safe
      (fun _ _ settled => settled) fun _ _ _ => trivial)) fun _ => ?_
    exact .pure fun _ focus => settled_of_focus focus fun _ _ removed => removed.settled
  | expireIncomplete now =>
    refine .bind _ (contract_expireIncompleteLocked now) fun _ => ?_
    exact .pure fun _ settled => settled
  | get fileId =>
    refine .bind _ (contract_get env) fun answer => ?_
    refine .pure fun _ focus => settled_of_focus focus fun _ _ looked => ?_
    cases answer with
    | none | some => exact looked.settled
  | listFiles status =>
    refine .bind (fun _ => Settled service) ?_ fun _ =>
      .pure fun _ settled => settled
    refine .bind _ (contract_expireIncompleteLocked env.sweep) fun _ => ?_
    exact (contract_listFilesLocked status).weaken (fun _ settled => settled)
      (fun _ _ listed => listed.2.1) fun _ _ raised => raised

theorem contract_perform (env : Environment Time) (operation : Operation Time) :
    Contract (Sound service) (Settled service) (perform service env operation)
      (fun _ => Settled service) (fun _ => Settled service) := by
  refine .bind _ (contract_execute env operation) fun _ => ?_
  cases operation.claim service with
  | none => exact .pure fun _ settled => settled
  | some target =>
    obtain ⟨fileId, claim⟩ := target
    refine .record fun world claimable => ?_
    have focus : Focus (SettledAt service) fileId (fun standing slot =>
        ∃ record, Kept service fileId record standing slot ∧ claim.HoldsOf record) world :=
      claimable
    refine (everywhere_iff_focus fileId).mpr (focus.judge fun standing slot holds => ?_)
    obtain ⟨record, kept, held⟩ := holds
    exact (kept.acknowledge held).settled

theorem claimed_of_returned {env : Environment Time} {operation : Operation Time}
    (returned : (perform service env operation world).result = .ok ())
    (claims : operation.claim service = some (fileId, claim)) :
    ∃ grown ∈ ((perform service env operation world).world.standing fileId).claim,
      claim.Within grown := by
  cases answer : (execute service env operation world).result with
  | error error => simp [perform, bind, andThen, answer] at returned
  | ok value =>
    simp only [perform, bind, andThen, answer, claims, acknowledgeClaim, record,
      World.standing_judge_same]
    exact Standing.acknowledge_claims claim _

end Operations

/-- Whenever the storage is up, every item is settled. -/
structure System.Valid (service : Service Time) (system : System Time) : Prop where
  sound : Sound service system.world
  settled : system.running = true → Settled service system.world

theorem System.initial_valid (service : Service Time) :
    System.Valid service (System.initial : System Time) :=
  ⟨fun _ => .settled (.released ⟨by simp [System.initial, World.initial, Standing.initial], rfl⟩
    ⟨rfl, rfl, rfl⟩), fun running => by cases running⟩

variable {service : Service Time}

theorem crashAfter_valid {α : Type} {program : Action Time α}
    {requires : World Time → Prop} {returns : α → World Time → Prop}
    {raises : StorageError → World Time → Prop} {steps : Nat}
    {next : System Time} (contract : Contract (Sound service) requires program returns raises)
    (start : requires world) (sound : Sound service world)
    (taken : crashAfter program world steps = some next) : System.Valid service next := by
  obtain ⟨left, found, rfl⟩ := Option.map_eq_some_iff.mp taken
  refine ⟨?_, fun running => by cases running⟩
  rcases List.mem_cons.mp (List.mem_of_getElem? found) with rfl | passed
  · exact sound
  · exact (contract world start).1 left passed

variable {system next : System Time}

theorem System.Valid.step {event : Event Time} (valid : System.Valid service system)
    (taken : System.step service system event = some next) : System.Valid service next := by
  cases event with
  | call operation env =>
    simp only [System.step] at taken
    split at taken
    · case isTrue running =>
      cases taken
      have done := (contract_perform env operation system.world (valid.settled running)).2
      have settled : Settled service (perform service env operation system.world).world := by
        split at done <;> exact done
      exact ⟨settled.sound, fun _ => settled⟩
    · cases taken
  | crashCall operation env steps =>
    simp only [System.step] at taken
    split at taken
    · case isTrue running =>
      exact crashAfter_valid (contract_perform env operation)
        (valid.settled running) valid.sound taken
    · cases taken
  | start env =>
    have done := (contract_startUp env system.world valid.sound).2
    simp only [System.step] at taken
    split at taken
    · cases taken
    · cases answer : (startUp service env system.world).result with
      | ok value =>
        simp only [answer] at done taken
        cases taken
        exact ⟨done.sound, fun _ => done⟩
      | error error =>
        simp only [answer] at done
  | crashStart env steps =>
    simp only [System.step] at taken
    split at taken
    · cases taken
    · exact crashAfter_valid (contract_startUp env) valid.sound valid.sound taken

theorem run_valid {events : List (Event Time)} {final : System Time}
    (reached : run (System.step service) System.initial events = some final) :
    System.Valid service final :=
  run_invariant_of_step (System.Valid service) (fun _ _ _ valid taken => valid.step taken)
    (System.initial_valid service) reached

theorem keeps_execute (service : Service Time) (env : Environment Time)
    (operation : Operation Time) : Keeps (execute service env operation) := by
  cases operation with
  | create manifest => exact .bind (keeps_create service env manifest) fun _ => .pure _
  | writeChunk fileId index ciphertext resumeMac =>
    exact .bind (keeps_writeChunk service env fileId index ciphertext resumeMac)
      fun _ => .pure _
  | complete fileId => exact .bind (keeps_complete service env fileId) fun _ => .pure _
  | delete fileId => exact .bind (keeps_deleteLocked fileId _) fun _ => .pure _
  | expireIncomplete now =>
    exact .bind (keeps_expireIncompleteLocked service now) fun _ => .pure _
  | get fileId => exact .bind (keeps_get service env fileId) fun _ => .pure _
  | listFiles status =>
    exact .bind (keeps_listFiles service env status) fun _ => .pure _

theorem extends_perform (service : Service Time) (env : Environment Time)
    (operation : Operation Time) :
    (perform service env operation).Respects World.Extends := by
  have executed := (keeps_execute service env operation).imp
    fun _ _ persists => persists.extends
  refine executed.bind fun _ => ?_
  cases operation.claim service with
  | none => exact .pure _
  | some target =>
    exact .record (World.judge_related _ (Standing.acknowledge_extends target.2))

def System.Extends (later earlier : System Time) : Prop := later.world.Extends earlier.world

instance : Std.Refl (System.Extends : System Time → System Time → Prop) :=
  ⟨fun system => refl_of World.Extends system.world⟩

instance : IsTrans (System Time) System.Extends :=
  ⟨fun _ _ _ later earlier => trans_of World.Extends later earlier⟩

omit [LinearOrder Time] [Sub Time] in
theorem crashAfter_extends {α : Type} {program : Action Time α}
    {steps : Nat} {next : System Time} (grows : program.Respects World.Extends)
    (taken : crashAfter program world steps = some next) : next.world.Extends world := by
  obtain ⟨left, found, rfl⟩ := Option.map_eq_some_iff.mp taken
  rcases List.mem_cons.mp (List.mem_of_getElem? found) with rfl | passed
  · exact refl_of World.Extends _
  · exact (grows world).1 left passed

theorem extends_startUp (service : Service Time) (env : Environment Time) :
    (startUp service env).Respects World.Extends :=
  (keeps_startUp service env).imp fun _ _ persists => persists.extends

theorem System.step_extends
    {event : Event Time} (taken : System.step service system event = some next) :
    next.Extends system := by
  cases event with
  | call operation env =>
    simp only [System.step] at taken
    split at taken
    · cases taken
      exact (extends_perform service env operation system.world).2
    · cases taken
  | crashCall operation env steps =>
    simp only [System.step] at taken
    split at taken
    · exact crashAfter_extends (extends_perform service env operation) taken
    · cases taken
  | start env =>
    simp only [System.step] at taken
    split at taken
    · cases taken
    split at taken
    all_goals
      cases taken
      exact (extends_startUp service env system.world).2
  | crashStart env steps =>
    simp only [System.step] at taken
    split at taken
    · cases taken
    · exact crashAfter_extends (extends_startUp service env) taken

def Slot.dataFile (slot : Slot Time) : Status → Option Bytes
  | .partial_ => slot.part
  | .committing => slot.part <|> slot.complete
  | .complete => slot.complete

/-- At its offset each chunk the journal lists has the bytes the journal hashed. -/
def Slot.ChunksStored (service : Service Time) (slot : Slot Time) : Prop :=
  ∀ record, slot.journal = some record → ∀ chunk ∈ record.receivedChunks,
    ∃ data, slot.dataFile record.status = some data ∧
      (let stored := Region.slice data
        (chunk.index * (record.manifest.chunkSize + eufGcmTagSize)) chunk.length
      stored.length = chunk.length ∧ service.sha256 stored = chunk.ciphertextSha256)

/-- A journal is without its data only where a removal was interrupted by a crash
and no start-up has followed. -/
def System.ChunksDurable (service : Service Time) (system : System Time) : Prop :=
  ∀ fileId, (system.world.slot fileId).ChunksStored service ∨
    (system.running = false ∧ (system.world.standing fileId).removing = true)

variable {fileId : FileId}

theorem Kept.chunksStored {record : Record Time}
    (kept : Kept service fileId record standing slot) : slot.ChunksStored service := by
  obtain ⟨data, placed, backed⟩ := kept.intact.data
  intro listed present chunk member
  have same : record = listed := by
    rw [kept.intact.journal_eq] at present
    exact Option.some.inj present
  subst same
  refine ⟨data, ?_, ?_, backed.2 chunk member⟩
  · cases status : record.status with
    | partial_ =>
      rw [status] at placed
      exact placed.1
    | committing =>
      rw [status] at placed
      rcases placed with ⟨present, _⟩ | ⟨missing, present⟩
      · simp [Slot.dataFile, present]
      · simp [Slot.dataFile, missing, present]
    | complete =>
      rw [status] at placed
      exact placed.2
  · have fits := kept.intact.wellFormed.chunks chunk member
    have within := Manifest.chunkOffset_add_length_le fits.inside
    rw [← backed.1, ← fits.length_eq] at within
    exact Region.length_slice within

omit [LinearOrder Time] [Sub Time] in
theorem Slot.chunksStored_of_no_journal (missing : slot.journal = none) :
    slot.ChunksStored service := by
  intro record present
  rw [missing] at present
  cases present

theorem SettledAt.chunksStored
    (settled : SettledAt service fileId standing slot) : slot.ChunksStored service := by
  cases present : slot.journal with
  | none => exact Slot.chunksStored_of_no_journal present
  | some record => exact (settled.kept_of_journal present).chunksStored

theorem System.Valid.chunksDurable {system : System Time}
    (valid : System.Valid service system) : system.ChunksDurable service := by
  intro fileId
  cases running : system.running with
  | true => exact .inl (valid.settled running fileId).chunksStored
  | false =>
    cases valid.sound fileId with
    | settled settled => exact .inl settled.chunksStored
    | orphan _ orphan => exact .inl (Slot.chunksStored_of_no_journal orphan.journal_eq)
    | leaving removing _ _ => exact .inr ⟨rfl, removing⟩

theorem SoundAt.kept_of_claim
    (sound : SoundAt service fileId standing slot) (claimed : standing.claim = some claim) :
    ∃ record, Kept service fileId record standing slot := by
  have impossible (released : standing.Released service fileId) : False := by
    rw [released.claim_eq] at claimed
    cases claimed
  cases sound with
  | settled settled =>
    cases settled with
    | kept record kept => exact ⟨record, kept⟩
    | released released _ => exact (impossible released).elim
  | orphan released | leaving _ released => exact (impossible released).elim

theorem SoundAt.justified (sound : SoundAt service fileId standing slot) :
    ∀ removal ∈ standing.removals, removal.Justified service fileId := by
  cases sound with
  | settled settled =>
    cases settled with
    | kept record kept => exact kept.allows.justified
    | released released _ => exact released.justified
  | orphan released | leaving _ released => exact released.justified

/-- In every run, whatever is interrupted and recovered on the way: the chunks a
journal lists are stored; what an operation promised when it returned still holds
as long as no removal of the item has begun since; and a removal begins only on
request or for a partial upload past its time to live. -/
theorem System.crash_safe (service : Service Time) (before after : List (Event Time))
    (operation : Operation Time) (env : Environment Time)
    (earlier returned final : System Time)
    (reached : run (System.step service) System.initial before = some earlier)
    (call : System.step service earlier (.call operation env) = some returned)
    (continued : run (System.step service) returned after = some final) :
    final.ChunksDurable service ∧
      ((perform service env operation earlier.world).result = .ok () →
        ∀ fileId claim, operation.claim service = some (fileId, claim) →
          (final.world.standing fileId).removals =
            (returned.world.standing fileId).removals →
          ∃ record, (final.world.slot fileId).journal = some record ∧ claim.HoldsOf record) ∧
      ∀ fileId, ∀ removal ∈ (final.world.standing fileId).removals,
        removal.Justified service fileId := by
  have valid : System.Valid service final :=
    run_invariant_of_step (System.Valid service) (fun _ _ _ valid taken => valid.step taken)
      ((run_valid reached).step call) continued
  refine ⟨valid.chunksDurable, ?_, fun fileId => (valid.sound fileId).justified⟩
  intro fine fileId claim claims undisturbed
  have worldEq : returned.world = (perform service env operation earlier.world).world := by
    simp only [System.step] at call
    split at call
    · cases call
      rfl
    · cases call
  obtain ⟨noted, present, within⟩ := claimed_of_returned fine claims
  rw [← worldEq] at present
  have extends_ : final.Extends returned :=
    run_relation System.Extends (fun _ _ _ taken => System.step_extends taken) continued
  obtain ⟨grown, found, grew⟩ := (extends_ fileId).claim undisturbed noted present
  obtain ⟨record, kept⟩ := (valid.sound fileId).kept_of_claim found
  refine ⟨record, kept.intact.journal_eq, ?_, fun done => ?_⟩
  · exact List.Subset.trans within.1 (List.Subset.trans grew.1 (kept.allows.chunks grown found))
  · apply kept.allows.status
    simp [Standing.completed, Option.mem_def.mp found, grew.2 (within.2 done)]

def sampleCiphertext : Bytes := [0, 1, 2, 3, 4, 5, 6, 7, 8, 9, 10, 11, 12, 13, 14, 15, 16]

/-- The digest is that of `sampleCiphertext`, and the text that of the time zero. -/
def sampleService : Service Int :=
  { maxPlaintextSize := 1
    incompleteTtl := 10
    sha256 := fun _ =>
      [62, 87, 24, 254, 165, 26, 143, 63, 91, 172, 166, 28, 119, 175, 171, 71,
        60, 24, 16, 248, 185, 219, 51, 2, 115, 180, 1, 28, 233, 44, 120, 126]
    timeText := fun _ => "0.0".toList
    sha256_length := fun _ => rfl
    timeText_length := fun _ => by decide }

def sampleEnvironment : Environment Int :=
  { sweep := 0
    lookup := 0
    stamp := 0
    publish := 0
    publishAt := fun _ => 0
    reservation := none
    allocated := true
    torn := [] }

def sampleWrite : Operation Int :=
  .writeChunk sampleManifest.fileId 0 sampleCiphertext (List.replicate 32 0)

def sampleCreated : List (Event Int) :=
  [.start sampleEnvironment, .call (.create sampleManifest) sampleEnvironment]

def sampleRecovery : List (Event Int) :=
  [.crashCall (.complete sampleManifest.fileId) sampleEnvironment 3, .start sampleEnvironment]

def sampleRemoval : List (Event Int) :=
  sampleCreated ++ [.call sampleWrite sampleEnvironment,
    .crashCall (.delete sampleManifest.fileId) sampleEnvironment 2]

def afterSample (events : List (Event Int)) : System Int :=
  (run (System.step sampleService) System.initial events).getD System.initial

theorem run_eq_afterSample {events : List (Event Int)}
    (enabled : (run (System.step sampleService) System.initial events).isSome = true) :
    run (System.step sampleService) System.initial events = some (afterSample events) := by
  obtain ⟨final, reached⟩ := Option.isSome_iff_exists.mp enabled
  rw [afterSample, reached, Option.getD_some]

theorem continue_eq_afterSample {before after : List (Event Int)}
    (enabled : (run (System.step sampleService) System.initial (before ++ after)).isSome = true) :
    run (System.step sampleService) (afterSample before) after =
      some (afterSample (before ++ after)) := by
  have whole := run_eq_afterSample enabled
  rw [run_append] at whole
  obtain ⟨middle, reached, continued⟩ := Option.bind_eq_some_iff.mp whole
  rw [← continued, afterSample, reached, Option.getD_some]

theorem sampleRecovery_crash_safe :
    let final := afterSample ((sampleCreated ++ [.call sampleWrite sampleEnvironment]) ++
      sampleRecovery)
    final.ChunksDurable sampleService ∧
      ∃ record, (final.world.slot sampleManifest.fileId).journal = some record ∧
        [offeredChunk sampleService 0 sampleCiphertext (List.replicate 32 0)] ⊆
          record.receivedChunks := by
  have whole : (run (System.step sampleService) System.initial
      ((sampleCreated ++ [.call sampleWrite sampleEnvironment]) ++
        sampleRecovery)).isSome = true := by decide +kernel
  have written : (run (System.step sampleService) System.initial
      (sampleCreated ++ [.call sampleWrite sampleEnvironment])).isSome = true := by
    decide +kernel
  have taken := continue_eq_afterSample written
  have safe := System.crash_safe sampleService sampleCreated sampleRecovery sampleWrite
    sampleEnvironment _ _ _ (run_eq_afterSample (by decide +kernel)) taken
    (continue_eq_afterSample whole)
  have answered : (perform sampleService sampleEnvironment sampleWrite
      (afterSample sampleCreated).world).result = .ok () := by decide +kernel
  have undisturbed (events : List (Event Int)) : (((afterSample events).world.standing
      sampleManifest.fileId).removals.isEmpty = true) →
      ((afterSample events).world.standing sampleManifest.fileId).removals = [] :=
    List.isEmpty_iff.mp
  obtain ⟨record, present, holds⟩ := safe.2.1 answered _ _ rfl
    ((undisturbed _ (by decide +kernel)).trans (undisturbed _ (by decide +kernel)).symm)
  exact ⟨safe.1, record, present, holds.1⟩

omit [LinearOrder Time] [Sub Time] in
theorem Slot.not_chunksStored_of_no_data
    (listed : slot.journal.any (fun record => !record.receivedChunks.isEmpty) = true)
    (noPart : slot.part = none) (noComplete : slot.complete = none) :
    ¬ slot.ChunksStored service := by
  intro stored
  cases present : slot.journal with
  | none => simp [present] at listed
  | some record =>
    rw [present, Option.any_some, Bool.not_eq_true', List.isEmpty_eq_false_iff] at listed
    obtain ⟨chunk, member⟩ := List.exists_mem_of_ne_nil _ listed
    obtain ⟨data, found, _⟩ := stored record present chunk member
    cases status : record.status with
    | partial_ => simp [Slot.dataFile, status, noPart] at found
    | committing => simp [Slot.dataFile, status, noPart, noComplete] at found
    | complete => simp [Slot.dataFile, status, noComplete] at found

theorem interruptedRemoval_leaves_journal :
    ∃ system, run (System.step sampleService) System.initial sampleRemoval = some system ∧
      ¬ ∀ fileId, (system.world.slot fileId).ChunksStored sampleService := by
  refine ⟨afterSample sampleRemoval, run_eq_afterSample (by decide +kernel), fun stored => ?_⟩
  exact Slot.not_chunksStored_of_no_data (by decide +kernel) (by decide +kernel)
    (by decide +kernel) (stored sampleManifest.fileId)

end XFerry.Encrypted
