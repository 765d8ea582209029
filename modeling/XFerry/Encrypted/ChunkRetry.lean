/-
Sending a chunk again.

Calls may fail here at any of their steps while the service keeps running, as an
error of the file system or an interrupt makes them.  What the journal of an item
says and where its data file is can then disagree until the item is completed.
-/

import XFerry.Encrypted.CrashSafety
import XFerry.Encrypted.HeldData

namespace XFerry.Encrypted

open CrashProgram Program EventMachine

variable {Time : Type} [LinearOrder Time] [Sub Time]

/-! ### Calls that fail -/

/-- A failed call has made some of its durable steps.  A creation that fails inside
its `try` unlinks what it has made, and these steps may fail as well. -/
inductive FaultEvent (Time : Type) where
  | regular (event : Event Time)
  | failCall (operation : Operation Time) (env : Environment Time) (steps : Nat)
  | failCreate (manifest : Manifest) (env : Environment Time) (steps undone : Nat)

def failedCreate (service : Service Time) (env : Environment Time)
    (manifest : Manifest) (steps undone : Nat) (world : World Time) : Option (World Time) :=
  let admitted := admitCreation service env manifest world
  match admitted.result with
  | .ok (.inr created) => do
      let begun := admitted.world.judge created.fileId Standing.beginCreation
      let failed ← ((createFiles service env created).crashes begun)[steps]?
      ((undoCreation created.fileId : Action Time Unit).crashes failed)[undone]?
  | _ => none

def System.stepFailing (service : Service Time) : Machine (System Time) (FaultEvent Time)
  | system, .regular event => System.step service system event
  | system, .failCall operation env steps =>
    if system.running then
      ((perform service env operation).crashes system.world)[steps]?.map
        fun left => { world := left, running := true }
    else none
  | system, .failCreate manifest env steps undone =>
    if system.running then
      (failedCreate service env manifest steps undone system.world).map
        fun left => { world := left, running := true }
    else none

/-! ### What every event keeps -/

section Events

variable {service : Service Time} {pledges : List Pledge}

def World.ListsAll (pledges : List Pledge) (world : World Time) : Prop :=
  ∀ pledge ∈ pledges, (world.slot pledge.fileId).Lists pledge.chunk

theorem held_execute (env : Environment Time) (operation : Operation Time) :
    Contract (AllHeld pledges)
      (fun world => AllHeld pledges world ∧ world.ListsAll pledges)
      (execute service env operation) (fun _ => AllHeld pledges)
      (fun _ => AllHeld pledges) := by
  have simple {α : Type} {program : Action Time α}
      (contract : KeepsHeld pledges program) :
      Contract (AllHeld pledges)
        (fun world => AllHeld pledges world ∧ world.ListsAll pledges)
        (program >>= fun _ => pure () : Action Time Unit)
        (fun _ => AllHeld pledges) fun _ => AllHeld pledges :=
    .bind _ (contract.weaken (fun _ both => both.1) (fun _ _ held => held)
      fun _ _ held => held) fun _ => .pure fun _ held => held
  cases operation with
  | create manifest => exact simple (held_create manifest)
  | writeChunk fileId index ciphertext resumeMac =>
    refine .bind (fun _ => AllHeld pledges)
      ((held_writeChunk index ciphertext resumeMac).weaken (fun world both => ?_)
        (fun _ _ focus => everywhere_of_focus focus fun _ _ here => here.held)
        fun _ _ held => held) fun _ => .pure fun _ held => held
    refine ⟨((everywhere_iff_focus fileId).mp both.1).1, both.1 fileId, ?_⟩
    rintro pledge member rfl
    exact both.2 pledge member
  | complete fileId => exact simple held_complete
  | delete fileId => exact simple (held_delete _)
  | expireIncomplete now => exact simple (held_expireIncompleteLocked now)
  | get fileId =>
    refine simple ((held_get fun _ held => held).weaken
      (fun _ => (everywhere_iff_focus fileId).mp)
      (fun answer _ focus => everywhere_of_focus focus fun _ _ found => ?_)
      fun _ _ held => held)
    cases answer with
    | none | some => exact found.1
  | listFiles status =>
    exact simple (.bind _ (held_expireIncompleteLocked _) fun _ =>
      held_listFilesLocked status)

theorem held_perform (env : Environment Time) (operation : Operation Time) :
    Contract (AllHeld pledges)
      (fun world => AllHeld pledges world ∧ world.ListsAll pledges)
      (perform service env operation) (fun _ => AllHeld pledges)
      (fun _ => AllHeld pledges) := by
  refine .bind _ (held_execute env operation) fun _ => ?_
  cases operation.claim service with
  | none => exact .pure fun _ held => held
  | some target => exact .record fun _ held other => held other

variable {requires : World Time → Prop} {world left : World Time}

section

variable {α : Type} {program : Action Time α} {steps : Nat}
  (contract : Contract (AllHeld pledges) requires program
    (fun _ => AllHeld pledges) fun _ => AllHeld pledges)
  (start : requires world)
include contract start

section

omit [Sub Time]

theorem held_of_crash (held : AllHeld pledges world)
    (found : (program.crashes world)[steps]? = some left) : AllHeld pledges left := by
  rcases List.mem_cons.mp (List.mem_of_getElem? found) with rfl | passed
  · exact held
  · exact (contract world start).1 left passed

theorem held_of_end : AllHeld pledges (program world).world := by
  have done := (contract world start).2
  split at done <;> exact done

theorem held_of_crashAfter {next : System Time} (held : AllHeld pledges world)
    (taken : crashAfter program world steps = some next) :
    AllHeld pledges next.world := by
  obtain ⟨left, found, rfl⟩ := Option.map_eq_some_iff.mp taken
  exact held_of_crash contract start held found

end

end

variable {system next : System Time}

theorem held_regular {event : Event Time}
    (held : AllHeld pledges system.world) (listed : system.world.ListsAll pledges)
    (taken : System.step service system event = some next) :
    AllHeld pledges next.world := by
  cases event with
  | call operation env =>
    simp only [System.step] at taken
    split at taken
    · cases taken
      exact held_of_end (held_perform env operation) ⟨held, listed⟩
    · cases taken
  | crashCall operation env steps =>
    simp only [System.step] at taken
    split at taken
    · exact held_of_crashAfter (held_perform env operation) ⟨held, listed⟩ held taken
    · cases taken
  | start env =>
    have done : AllHeld pledges (startUp service env system.world).world :=
      held_of_end held_startUp held
    simp only [System.step] at taken
    split at taken
    · cases taken
    split at taken
    · cases taken
      exact done
    · cases taken
      exact done
  | crashStart env steps =>
    simp only [System.step] at taken
    split at taken
    · cases taken
    · exact held_of_crashAfter held_startUp held held taken

theorem held_failedCreate {env : Environment Time} {manifest : Manifest}
    {steps undone : Nat} (held : AllHeld pledges world)
    (failed : failedCreate service env manifest steps undone world = some left) :
    AllHeld pledges left := by
  have admitted := (held_admitCreation manifest :
    Contract (AllHeld pledges) _ (admitCreation service env manifest) _ _) world held
  dsimp only [failedCreate] at failed
  cases answer : (admitCreation service env manifest world).result with
  | error error =>
    rw [answer] at failed
    cases failed
  | ok creation =>
    rw [answer] at failed
    rw [answer] at admitted
    cases creation with
    | inl existing => cases failed
    | inr created =>
      obtain ⟨⟨wellFormed, empty⟩, fresh⟩ := admitted.2.2 created rfl
      obtain ⟨stopped, found, undone⟩ := Option.bind_eq_some_iff.mp failed
      have begun : Focus (Held pledges) created.fileId
          (fun _ => Fresh pledges created.fileId)
          ((admitCreation service env manifest world).world.judge created.fileId
            Standing.beginCreation) := fresh.judge fun _ _ here => here
      have held := held_of_crash (held_createFiles wellFormed empty) begun
        (everywhere_of_focus begun fun _ _ here => here.held) found
      exact held_of_crash held_undoCreation held held undone

theorem System.held_step {event : FaultEvent Time}
    (held : AllHeld pledges system.world) (listed : system.world.ListsAll pledges)
    (taken : System.stepFailing service system event = some next) :
    AllHeld pledges next.world := by
  cases event with
  | regular event => exact held_regular held listed taken
  | failCall operation env steps =>
    simp only [System.stepFailing] at taken
    split at taken
    · obtain ⟨left, found, rfl⟩ := Option.map_eq_some_iff.mp taken
      exact held_of_crash (held_perform env operation) ⟨held, listed⟩ held found
    · cases taken
  | failCreate manifest env steps undone =>
    simp only [System.stepFailing] at taken
    split at taken
    · obtain ⟨left, failed, rfl⟩ := Option.map_eq_some_iff.mp taken
      exact held_failedCreate held failed
    · cases taken

omit [Sub Time] in
theorem System.initial_held : AllHeld pledges (System.initial : System Time).world :=
  fun _ => ⟨nofun, nofun, .inl rfl, fun _ _ _ _ absent => nomatch absent⟩

variable {events : List (FaultEvent Time)}

theorem System.reached_held {system : System Time}
    (reached : run (System.stepFailing service) System.initial events = some system) :
    Everywhere (Held []) system.world :=
  run_invariant_of_step (fun system => Everywhere (Held []) system.world)
    (fun _ _ _ held taken => System.held_step held
      (fun _ member => absurd member List.not_mem_nil) taken)
    System.initial_held reached

theorem System.run_held {pledge : Pledge}
    {system final : System Time} (held : Everywhere (Held [pledge]) system.world)
    (lasting : Along (System.stepFailing service)
      (fun system _ => (system.world.slot pledge.fileId).Lists pledge.chunk) system events)
    (reached : run (System.stepFailing service) system events = some final) :
    Everywhere (Held [pledge]) final.world := by
  refine run_invariant (fun system => Everywhere (Held [pledge]) system.world)
    (fun _ _ _ held lists taken => System.held_step held (fun other member => ?_) taken)
    held lasting reached
  rw [List.mem_singleton.mp member]
  exact lists

end Events

/-! ### The retry -/

section Retry

variable {service : Service Time} {fileId : FileId}

/-- The answer to a chunk that is sent once more after `ciphertext` with the tag
`resumeMac` has been acknowledged: the same is not stored again, anything else
conflicts, and nothing changes. -/
def RetryAnswered (service : Service Time) (env : Environment Time) (fileId : FileId)
    (index : Int) (ciphertext resumeMac resent tag : Bytes) (record : Record Time)
    (world : World Time) : Prop :=
  let answer := (writeChunk service env fileId index resent tag).final world
  if resent = ciphertext ∧ tag = resumeMac then answer = (.ok (record, false), world)
  else ∃ message, answer = (.error (.conflict message), world)

/-- What is sent has the lengths the service checks, the item is not about to expire,
and its data has the name its status gives it. -/
structure RetryReady (service : Service Time) (env : Environment Time)
    (ciphertext resent tag : Bytes) (record : Record Time) (slot : Slot Time) : Prop where
  tag_length : tag.length = 32
  resent_length : resent.length = ciphertext.length
  live : ¬ (record.status = .partial_ ∧ isIdle service env.lookup record = true)
  placed : (dataOfRecord record slot).isSome = true

variable {env : Environment Time} {world : World Time} {record : Record Time}

section

variable (present : (world.slot fileId).journal = some record)
include present

section

variable (wellFormed : record.WellFormed fileId)
include wellFormed

section

variable (live : ¬ (record.status = .partial_ ∧ isIdle service env.lookup record = true))
include live

theorem final_get_of_live : (get service env fileId).final world = (.ok (some record), world) := by
  unfold get
  rw [final_bind_of_ok (final_inspect _ _), present]
  have read : (readState service fileId).final world = (.ok record, world) := by
    rw [final, readState_eq present wellFormed]
  rw [final_bind_of_ok read, if_neg live, final_pure]

theorem final_requireFile_of_live :
    (requireFile service env fileId).final world = (.ok record, world) := by
  unfold requireFile
  rw [final_bind_of_ok (final_get_of_live present wellFormed live)]
  rfl

end

theorem requireFile_of_idle
    (idle : record.status = .partial_ ∧ isIdle service env.lookup record = true) :
    ∃ message left, (requireFile service env fileId).final world =
      (.error (.notFound message), left) := by
  have found : ((get service env fileId).final world).1 = .ok none := by
    unfold get
    rw [final_bind_of_ok (final_inspect _ _), present]
    have read : (readState service fileId).final world = (.ok record, world) := by
      rw [final, readState_eq present wellFormed]
    rw [final_bind_of_ok read, if_pos idle]
    rfl
  refine ⟨"encrypted file not found", ((get service env fileId).final world).2, ?_⟩
  unfold requireFile
  rw [final_bind_of_ok (Prod.ext found rfl : (get service env fileId).final world =
    (.ok none, ((get service env fileId).final world).2))]
  rfl

end

end

omit [Sub Time] in
theorem find?_of_listed {chunk : StoredChunk} (wellFormed : record.WellFormed fileId)
    (listed : chunk ∈ record.receivedChunks) :
    (record.receivedChunks.find? fun other => other.index = chunk.index) = some chunk := by
  cases search : record.receivedChunks.find? fun other => other.index = chunk.index with
  | none =>
    have absent := List.find?_eq_none.mp search chunk listed
    simp at absent
  | some found =>
    have same : found.index = chunk.index := by simpa using List.find?_some search
    have distinct := wellFormed.valid.distinct
    rw [List.inj_on_of_nodup_map distinct (List.mem_of_find?_eq_some search) listed same]

variable {chunk : StoredChunk} {resent tag : Bytes} {index : Int}

theorem final_writeChunk_of_short_tag (short : tag.length ≠ 32) :
    (writeChunk service env fileId index resent tag).final world =
      (.error (.validation "resume MAC must contain exactly 32 bytes"), world) := by
  unfold writeChunk
  rw [if_pos short, final_raise]

theorem final_writeChunk_of_idle (tagged : tag.length = 32)
    (present : (world.slot fileId).journal = some record) (wellFormed : record.WellFormed fileId)
    (idle : record.status = .partial_ ∧ isIdle service env.lookup record = true) :
    ∃ message left, (writeChunk service env fileId index resent tag).final world =
      (.error (.notFound message), left) := by
  obtain ⟨message, left, refused⟩ := requireFile_of_idle present wellFormed idle
  refine ⟨message, left, ?_⟩
  unfold writeChunk
  rw [if_neg (not_not.mpr tagged), final_bind_of_error refused]

variable {position : Nat}

theorem final_writeChunk_of_listed (tagged : tag.length = 32)
    (present : (world.slot fileId).journal = some record) (wellFormed : record.WellFormed fileId)
    (live : ¬ (record.status = .partial_ ∧ isIdle service env.lookup record = true))
    (listed : chunk ∈ record.receivedChunks) (here : chunk.index = position) :
    (writeChunk service env fileId position resent tag).final world =
      if resent.length ≠ chunk.length then
        (.error (.validation "chunk ciphertext must contain exactly the expected bytes"), world)
      else (confirmChunk record chunk (offeredChunk service position resent tag) resent
          (dataOfRecord record (world.slot fileId))).final world := by
  subst here
  have fits := wellFormed.chunks chunk listed
  have expected : (lift (record.manifest.encryptedChunkLength chunk.index) :
      Action Time Nat).final world = (.ok chunk.length, world) := by
    rw [final_lift, Manifest.encryptedChunkLength_of_lt fits.inside, fits.length_eq]
  unfold writeChunk
  rw [if_neg (not_not.mpr tagged),
    final_bind_of_ok (final_requireFile_of_live present wellFormed live),
    final_bind_of_ok expected]
  split
  · rw [final_raise]
  rw [final_bind_of_ok (final_inspect _ _), Int.toNat_natCast]
  have found : (record.receivedChunks.find? fun other =>
      other.index = (offeredChunk service chunk.index resent tag).index) = some chunk :=
    find?_of_listed wellFormed listed
  rw [found]

omit [LinearOrder Time] [Sub Time] in
theorem final_confirmChunk {offered : StoredChunk} {data ciphertext : Bytes}
    (stored : Region.slice data (record.manifest.chunkOffset offered.index) offered.length =
      ciphertext) (length : ciphertext.length = offered.length) :
    (confirmChunk record chunk offered resent (some data) : Action Time _).final world =
      if chunk = offered ∧ ciphertext = resent then (.ok (record, false), world)
      else (.error (.conflict "encrypted chunk conflicts with persisted data"), world) := by
  unfold confirmChunk
  dsimp only
  rw [stored, if_neg (by omega)]
  split <;> rfl

variable {ciphertext resumeMac : Bytes}

section

omit [LinearOrder Time] [Sub Time]

theorem offeredChunk_eq_iff :
    offeredChunk service position ciphertext resumeMac =
        offeredChunk service position resent tag ∧ ciphertext = resent ↔
      resent = ciphertext ∧ tag = resumeMac := by
  constructor
  · rintro ⟨sameChunk, sameBytes⟩
    exact ⟨sameBytes.symm, (congrArg StoredChunk.resumeMac sameChunk).symm⟩
  · rintro ⟨rfl, rfl⟩
    exact ⟨rfl, rfl⟩

theorem final_confirmRetry {data ciphertext resumeMac : Bytes}
    (stored : Region.slice data (record.manifest.chunkOffset position) ciphertext.length =
      ciphertext) (sameLength : resent.length = ciphertext.length) :
    (confirmChunk record (offeredChunk service position ciphertext resumeMac)
        (offeredChunk service position resent tag) resent (some data) :
      Action Time _).final world =
      if resent = ciphertext ∧ tag = resumeMac then (.ok (record, false), world)
      else (.error (.conflict "encrypted chunk conflicts with persisted data"), world) := by
  have here : Region.slice data
      (record.manifest.chunkOffset (offeredChunk service position resent tag).index)
      (offeredChunk service position resent tag).length = ciphertext := by
    rw [← stored, ← sameLength]
    rfl
  rw [final_confirmChunk here sameLength.symm]
  exact if_congr offeredChunk_eq_iff rfl rfl

end

theorem not_retryAnswered {error : StorageError} {left : World Time}
    (ended : (writeChunk service env fileId index resent tag).final world =
      (.error error, left)) (other : ∀ message, error ≠ .conflict message) :
    ¬ RetryAnswered service env fileId index ciphertext resumeMac resent tag record world := by
  intro answered
  unfold RetryAnswered at answered
  rw [ended] at answered
  split at answered
  · cases answered
  obtain ⟨message, same⟩ := answered
  cases same
  exact other message rfl

theorem final_retry
    (held : HeldAt [⟨fileId, offeredChunk service position ciphertext resumeMac, ciphertext⟩]
      fileId (world.slot fileId)) (present : (world.slot fileId).journal = some record)
    (listed : offeredChunk service position ciphertext resumeMac ∈ record.receivedChunks)
    (ready : RetryReady service env ciphertext resent tag record (world.slot fileId)) :
    (writeChunk service env fileId position resent tag).final world =
      if resent = ciphertext ∧ tag = resumeMac then (.ok (record, false), world)
      else (.error (.conflict "encrypted chunk conflicts with persisted data"), world) := by
  obtain ⟨data, placed⟩ := Option.isSome_iff_exists.mp ready.placed
  have stored := held.pledged _ (List.mem_singleton_self _) rfl record present data
    (dataOfRecord_hasData placed) listed
  have here : (offeredChunk service position ciphertext resumeMac).index = position := rfl
  have sameLength := ready.resent_length
  have fits : ¬ resent.length ≠ (offeredChunk service position ciphertext resumeMac).length :=
    not_not.mpr sameLength
  rw [final_writeChunk_of_listed ready.tag_length present (held.wellFormed record present)
    ready.live listed here, if_neg fits, placed]
  exact final_confirmRetry stored sameLength

theorem not_retryAnswered_of_result {error : StorageError}
    (refused : (writeChunk service env fileId index resent tag world).result =
      .error error) (other : ∀ message, error ≠ .conflict message) :
    ¬ RetryAnswered service env fileId index ciphertext resumeMac resent tag record world :=
  not_retryAnswered (Prod.ext refused rfl) other

theorem retryReady_of_answered
    (wellFormed : record.WellFormed fileId) (present : (world.slot fileId).journal = some record)
    (listed : offeredChunk service position ciphertext resumeMac ∈ record.receivedChunks)
    (answered : RetryAnswered service env fileId position ciphertext resumeMac resent tag
      record world) :
    RetryReady service env ciphertext resent tag record (world.slot fileId) := by
  have tagged : tag.length = 32 := by
    by_contra short
    exact not_retryAnswered (final_writeChunk_of_short_tag short) nofun answered
  have live : ¬ (record.status = .partial_ ∧ isIdle service env.lookup record = true) := by
    intro idle
    obtain ⟨message, left, ended⟩ := final_writeChunk_of_idle tagged present wellFormed idle
    exact not_retryAnswered ended nofun answered
  have here : (offeredChunk service position ciphertext resumeMac).index = position := rfl
  have answer : (writeChunk service env fileId position resent tag).final world = _ :=
    final_writeChunk_of_listed tagged present wellFormed live listed here
  have sameLength : resent.length = ciphertext.length := by
    by_contra different
    exact not_retryAnswered (answer.trans (if_pos different)) nofun answered
  have fits : ¬ resent.length ≠ (offeredChunk service position ciphertext resumeMac).length :=
    not_not.mpr sameLength
  rw [if_neg fits] at answer
  refine ⟨tagged, sameLength, live, ?_⟩
  cases placed : dataOfRecord record (world.slot fileId) with
  | none =>
    rw [placed] at answer
    exact absurd answered (not_retryAnswered answer nofun)
  | some data => rfl

/-- The retry of an acknowledged chunk is answered as it should be exactly where it is
well formed, the item has not been idle too long, and its data file has the name the
status gives it. -/
theorem retryAnswered_iff
    (held : HeldAt [⟨fileId, offeredChunk service position ciphertext resumeMac, ciphertext⟩]
      fileId (world.slot fileId)) (present : (world.slot fileId).journal = some record)
    (listed : offeredChunk service position ciphertext resumeMac ∈ record.receivedChunks) :
    RetryAnswered service env fileId position ciphertext resumeMac resent tag record world ↔
      RetryReady service env ciphertext resent tag record (world.slot fileId) := by
  constructor
  · exact retryReady_of_answered (held.wellFormed record present) present listed
  · intro ready
    have answer := final_retry held present listed ready
    unfold RetryAnswered
    by_cases same : resent = ciphertext ∧ tag = resumeMac
    · rw [if_pos same] at answer ⊢
      exact answer
    · rw [if_neg same] at answer ⊢
      exact ⟨_, answer⟩

theorem index_nonneg_of_written {answer : Record Time × Bool} {left : World Time}
    (written : (writeChunk service env fileId index ciphertext resumeMac).final world =
      (.ok answer, left)) : ∃ position : Nat, index = position := by
  unfold writeChunk at written
  split at written
  · cases written
  obtain ⟨found, middle, _, rest⟩ := bind_returned written
  obtain ⟨length, _, expected, _⟩ := bind_returned rest
  rw [final_lift] at expected
  obtain ⟨position, same, _⟩ := Manifest.encryptedChunkLength_eq_ok (congrArg Prod.fst expected)
  exact ⟨position, same⟩

omit [Sub Time] in
theorem pledged_of_acknowledged {offered : StoredChunk} {ciphertext : Bytes}
    (acknowledged : Focus (Held []) fileId
      (fun _ => Acknowledged [] fileId offered ciphertext record) world) :
    Everywhere (Held [⟨fileId, offered, ciphertext⟩]) world := by
  refine (everywhere_iff_focus fileId).mpr ⟨fun other different => ?_, ?_⟩
  · have held := acknowledged.1 other different
    refine ⟨held.wellFormed, held.unpublished, held.apart, fun pledge member same => ?_⟩
    rw [List.mem_singleton.mp member] at same
    exact absurd same.symm different
  · have here := acknowledged.2
    refine ⟨here.held.wellFormed, here.held.unpublished, here.held.apart, ?_⟩
    intro pledge member _ listed present data has
    rw [List.mem_singleton.mp member]
    cases here.journal_eq.symm.trans present
    exact here.keeps data has

/-- A call of `write_chunk` that returns has written, and notes only what it claims. -/
theorem written_of_call {earlier returned : System Time} (call : System.stepFailing service earlier
      (.regular (.call (.writeChunk fileId index ciphertext resumeMac) env)) =
        some returned) (acknowledged : (perform service env
      (.writeChunk fileId index ciphertext resumeMac) earlier.world).result = .ok ()) :
    ∃ answer left, (writeChunk service env fileId index ciphertext resumeMac).final
        earlier.world = (.ok answer, left) ∧
      ∀ other, returned.world.slot other = left.slot other := by
  have worldEq : returned.world = (perform service env
      (.writeChunk fileId index ciphertext resumeMac) earlier.world).world := by
    simp only [System.stepFailing, System.step] at call
    split at call
    · cases call
      rfl
    · cases call
  have ended : (perform service env (.writeChunk fileId index ciphertext resumeMac)).final
      earlier.world = (.ok (), returned.world) := by
    rw [worldEq]
    exact Prod.ext acknowledged rfl
  obtain ⟨_, middle, executed, noted⟩ := bind_returned ended
  obtain ⟨answer, left, written, done⟩ := bind_returned executed
  have sameLeft : left = middle := congrArg Prod.snd done
  have sameNoted : (middle.judge fileId (Standing.acknowledge
      { chunks := [offeredChunk service index.toNat ciphertext resumeMac]
        completed := false })) = returned.world := congrArg Prod.snd noted
  refine ⟨answer, left, written, fun other => ?_⟩
  rw [← sameNoted, World.slot_judge, sameLeft]

/-- In every run, whatever fails or is interrupted on the way: as long as the journal
lists an acknowledged chunk, sending it again is answered as it should be exactly where
the retry is well formed, the item has not been idle too long, and its data file has
the name its status gives it. -/
theorem System.chunk_retry (service : Service Time) (before after : List (FaultEvent Time))
    (fileId : FileId) (index : Int) (ciphertext resumeMac : Bytes)
    (env : Environment Time) (earlier returned final : System Time)
    (reached : run (System.stepFailing service) System.initial before = some earlier)
    (call : System.stepFailing service earlier
      (.regular (.call (.writeChunk fileId index ciphertext resumeMac) env)) =
        some returned)
    (acknowledged : (perform service env
      (.writeChunk fileId index ciphertext resumeMac) earlier.world).result = .ok ())
    (continued : run (System.stepFailing service) returned after = some final)
    (lasting : Along (System.stepFailing service)
      (fun system _ => (system.world.slot fileId).Lists
        (offeredChunk service index.toNat ciphertext resumeMac)) returned after)
    (listed : (final.world.slot fileId).Lists
      (offeredChunk service index.toNat ciphertext resumeMac)) :
    ∃ record, (final.world.slot fileId).journal = some record ∧
      ∀ later resent tag,
        RetryAnswered service later fileId index ciphertext resumeMac resent tag record
            final.world ↔
          RetryReady service later ciphertext resent tag record (final.world.slot fileId) := by
  have start := System.reached_held reached
  obtain ⟨answer, left, written, same⟩ := written_of_call call acknowledged
  obtain ⟨position, rfl⟩ := index_nonneg_of_written written
  have noted := (held_writeChunk position ciphertext resumeMac).of_returned
    ⟨((everywhere_iff_focus fileId).mp start).1, start fileId, fun _ member => nomatch member⟩
    written
  have pledged : Everywhere (Held _) returned.world := fun other => by
    rw [same]
    exact pledged_of_acknowledged noted other
  have held := System.run_held pledged lasting continued
  obtain ⟨record, present, lists⟩ := listed
  exact ⟨record, present, fun later resent tag => retryAnswered_iff (held fileId) present lists⟩

end Retry

/-! ### A completion that fails around the rename -/

instance (slot : Slot Time) (chunk : StoredChunk) : Decidable (slot.Lists chunk) :=
  decidable_of_iff (slot.journal.any (fun record => decide (chunk ∈ record.receivedChunks)) = true)
    (by simp [Slot.Lists, Option.any_eq_true])

def sampleStored : List (FaultEvent Int) :=
  [.regular (.start sampleEnvironment), .regular (.call (.create sampleManifest) sampleEnvironment)]

def sampleTag : Bytes := List.replicate 32 0

/-- The completion fails after its first steps: a temporary, the journal that says
`committing`, the rename. -/
def sampleFailure (steps : Nat) : List (FaultEvent Int) :=
  [.failCall (.complete sampleManifest.fileId) sampleEnvironment steps]

def sampleWritten : List (FaultEvent Int) :=
  sampleStored ++ [.regular (.call sampleWrite sampleEnvironment)]

def afterFaults (events : List (FaultEvent Int)) : System Int :=
  (run (System.stepFailing sampleService) System.initial events).getD System.initial

theorem run_eq_afterFaults {events : List (FaultEvent Int)}
    (enabled : (run (System.stepFailing sampleService) System.initial events).isSome = true) :
    run (System.stepFailing sampleService) System.initial events = some (afterFaults events) := by
  obtain ⟨final, reached⟩ := Option.isSome_iff_exists.mp enabled
  rw [afterFaults, reached, Option.getD_some]

theorem continue_eq_afterFaults {before after : List (FaultEvent Int)}
    (enabled : (run (System.stepFailing sampleService) System.initial
      (before ++ after)).isSome = true) :
    run (System.stepFailing sampleService) (afterFaults before) after =
      some (afterFaults (before ++ after)) := by
  have whole := run_eq_afterFaults enabled
  rw [run_append] at whole
  obtain ⟨middle, reached, continued⟩ := Option.bind_eq_some_iff.mp whole
  rw [← continued, afterFaults, reached, Option.getD_some]

/-- Once the rename is made, the retry is answered although the completion failed. -/
theorem sampleRetry_answered :
    ∃ record : Record Int,
      RetryAnswered sampleService sampleEnvironment sampleManifest.fileId 0 sampleCiphertext
        sampleTag sampleCiphertext sampleTag record
        (afterFaults (sampleWritten ++ sampleFailure 3)).world := by
  have taken : run (System.stepFailing sampleService) (afterFaults sampleStored)
      [.regular (.call sampleWrite sampleEnvironment)] = some (afterFaults sampleWritten) :=
    continue_eq_afterFaults (by decide +kernel)
  obtain ⟨record, present, answered⟩ := System.chunk_retry sampleService sampleStored
    (sampleFailure 3) sampleManifest.fileId 0 sampleCiphertext sampleTag sampleEnvironment _ _ _
    (run_eq_afterFaults (by decide +kernel)) taken (by decide +kernel)
    (continue_eq_afterFaults (by decide +kernel)) (by decide +kernel) (by decide +kernel)
  refine ⟨record, (answered sampleEnvironment sampleCiphertext sampleTag).mpr ?_⟩
  have renamed : ((afterFaults (sampleWritten ++ sampleFailure 3)).world.slot
      sampleManifest.fileId).journal.any (fun record => decide (record.status ≠ .partial_) &&
        (dataOfRecord record ((afterFaults (sampleWritten ++ sampleFailure 3)).world.slot
          sampleManifest.fileId)).isSome) = true := by decide +kernel
  rw [present, Option.any_some, Bool.and_eq_true, decide_eq_true_eq] at renamed
  exact ⟨rfl, rfl, fun idle => renamed.1 idle.1, renamed.2⟩

/-- Before it, the bytes that were acknowledged are looked for under the final name. -/
theorem unrenamedRetry_unanswered :
    ∃ record system, run (System.stepFailing sampleService) System.initial
        (sampleWritten ++ sampleFailure 2) = some system ∧
      (system.world.slot sampleManifest.fileId).Lists
        (offeredChunk sampleService 0 sampleCiphertext sampleTag) ∧
      (system.world.slot sampleManifest.fileId).journal = some record ∧
      ¬ RetryAnswered sampleService sampleEnvironment sampleManifest.fileId 0 sampleCiphertext
        sampleTag sampleCiphertext sampleTag record system.world := by
  have lists : ((afterFaults (sampleWritten ++ sampleFailure 2)).world.slot
      sampleManifest.fileId).Lists (offeredChunk sampleService 0 sampleCiphertext sampleTag) := by
    decide +kernel
  obtain ⟨record, present, _⟩ := lists
  refine ⟨record, _, run_eq_afterFaults (by decide +kernel), by decide +kernel, present, ?_⟩
  have missing : (match (writeChunk sampleService sampleEnvironment sampleManifest.fileId 0
      sampleCiphertext sampleTag (afterFaults (sampleWritten ++ sampleFailure 2)).world).result with
    | .error (.os _) => true
    | _ => false) = true := by decide +kernel
  split at missing
  · case h_1 message refused => exact not_retryAnswered_of_result refused nofun
  · cases missing

end XFerry.Encrypted
