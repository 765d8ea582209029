/-
The bearer of the Advanced session over whole runs.

A create that is in flight in the current generation is the one that `createOperation`
names.  Everything else that is in flight belongs to an earlier generation, and no step
but `create` adds to it.
-/

import XFerry.Ui.AdvancedSession

namespace XFerry.Ui

open EventMachine JavaScript SessionClient

namespace SessionClient

variable {start client next final : SessionClient} {dateParse : Text → Option Int}
variable {event : SessionEvent} {id generation : Nat} {token : Text}

def creates (client : SessionClient) (id : Nat) : Option Nat :=
  (client.calls id).bind SessionCall.creating

/-- No create is new, and none has lost `createOperation` but one that has ended. -/
structure Narrows (client next : SessionClient) : Prop where
  generation : client.lifecycleGeneration ≤ next.lifecycleGeneration
  creates : ∀ id generation, next.creates id = some generation → client.creates id = some generation
  operation : ∀ id generation, next.creates id = some generation →
    client.createOperation = some (id, generation) → next.createOperation = some (id, generation)

theorem Narrows.trans (first : Narrows client next) (second : Narrows next final) :
    Narrows client final where
  generation := first.generation.trans second.generation
  creates _ _ creating := first.creates _ _ (second.creates _ _ creating)
  operation _ _ creating named :=
    second.operation _ _ creating (first.operation _ _ (second.creates _ _ creating) named)

theorem Narrows.of_same (calls : next.calls = client.calls)
    (operation : next.createOperation = client.createOperation)
    (grown : client.lifecycleGeneration ≤ next.lifecycleGeneration) : Narrows client next where
  generation := grown
  creates id generation creating := by
    unfold SessionClient.creates at creating ⊢
    rwa [calls] at creating
  operation _ _ _ named := operation.trans named

theorem Narrows.of_same_trans (narrows : Narrows client next) (calls : client.calls = start.calls)
    (operation : client.createOperation = start.createOperation)
    (grown : start.lifecycleGeneration ≤ client.lifecycleGeneration) : Narrows start next :=
  (Narrows.of_same calls operation grown).trans narrows

theorem narrows_endGeneration : Narrows client client.endGeneration :=
  .of_same rfl rfl (Nat.le_succ _)

theorem narrows_update {call : Option SessionCall}
    (fewer : ∀ generation ∈ call.bind SessionCall.creating, client.creates id = some generation)
    (calls : next.calls = Function.update client.calls id call)
    (operation : ∀ other generation, (other = id → call.bind SessionCall.creating ≠ none) →
      client.createOperation = some (other, generation) →
      next.createOperation = some (other, generation))
    (same : next.lifecycleGeneration = client.lifecycleGeneration) : Narrows client next where
  generation := same.ge
  creates other generation creating := by
    unfold SessionClient.creates at creating
    rw [calls] at creating
    by_cases here : other = id
    · rw [here, Function.update_self] at creating
      rw [here]
      exact fewer generation creating
    · rwa [Function.update_of_ne here] at creating
  operation other generation creating := by
    apply operation
    intro here ended
    unfold SessionClient.creates at creating
    rw [calls, here, Function.update_self, ended] at creating
    cases creating

theorem narrows_settle : Narrows client (client.settle id) := by
  refine narrows_update ?_ rfl (fun _ _ _ named => named) rfl
  intro other none_
  cases none_

theorem narrows_finishCreate : Narrows client (client.finishCreate id) := by
  refine narrows_update ?_ rfl ?_ rfl
  · intro other none_
    cases none_
  · intro other generation apart named
    have different : other ≠ id := fun here => apart here rfl
    simp [finishCreate, named, different]

theorem narrows_discard (creating : client.creates id = some generation) :
    Narrows client (client.discard id generation token) := by
  refine narrows_update ?_ rfl (fun _ _ _ named => named) rfl
  intro other same
  cases same
  exact creating

theorem narrows_await {call : SessionCall} (plain : call.creating = none) :
    Narrows client (client.await call) := by
  refine narrows_update ?_ rfl (fun _ _ _ named => named) rfl
  intro other same
  rw [Option.bind_some, plain] at same
  cases same

theorem expiry_spec (readings : List Int) : ∀ client next : SessionClient,
    (expireLocalSession generation token readings client = some next ∨
      scheduleExpiry generation token readings client = some next) →
    Narrows client next ∧ next.sent = client.sent ∧
      (client.activeToken = none → next.activeToken = none) := by
  have same (client : SessionClient) : Narrows client client := .of_same rfl rfl le_rfl
  induction readings with
  | nil =>
    intro client next taken
    rcases taken with taken | taken <;> cases taken
  | cons now later ih =>
    intro client next taken
    rcases taken with taken | taken
    · simp only [expireLocalSession] at taken
      split at taken
      · cases taken
        exact ⟨same _, rfl, id⟩
      split at taken
      · exact ih client next (.inr taken)
      · cases taken
        exact ⟨narrows_endGeneration, rfl, fun _ => rfl⟩
    · simp only [scheduleExpiry] at taken
      split at taken
      · cases taken
        exact ⟨(same _).of_same_trans rfl rfl le_rfl, rfl, id⟩
      split at taken
      · obtain ⟨narrows, sent, token⟩ := ih _ next (.inl taken)
        exact ⟨narrows.of_same_trans rfl rfl le_rfl, sent, token⟩
      · cases taken
        exact ⟨(same _).of_same_trans rfl rfl le_rfl, rfl, id⟩

/-- No token is held, and what is in flight is of an earlier generation. -/
structure Revoked (client : SessionClient) : Prop where
  tokenless : client.activeToken = none
  late : ∀ id generation, client.creates id = some generation →
    generation < client.lifecycleGeneration

/-- The requests other than revocations. -/
def ordinary (client : SessionClient) : List SentRequest :=
  client.sent.filter fun request => !request.isRevocation

theorem step_spec (taken : sessionStep dateParse client event = some next)
    (other : event ≠ .create) : Narrows client next ∧
      (Revoked client → next.activeToken = none ∧ next.ordinary = client.ordinary) := by
  have same : Narrows client client := .of_same rfl rfl le_rfl
  cases event with
  | create => exact absurd rfl other
  | current =>
    cases taken
    unfold current
    split
    · exact ⟨same, fun revoked => ⟨revoked.tokenless, rfl⟩⟩
    · rename_i token held
      refine ⟨(narrows_await rfl).of_same_trans rfl rfl le_rfl, fun revoked => ?_⟩
      rw [revoked.tokenless] at held
      cases held
  | revoke =>
    cases taken
    unfold revoke
    split
    · exact ⟨narrows_endGeneration, fun _ => ⟨rfl, rfl⟩⟩
    · refine ⟨narrows_endGeneration.trans ((narrows_await rfl).of_same_trans rfl rfl le_rfl), ?_⟩
      exact fun _ => ⟨rfl, by simp [ordinary, await, send, endGeneration, clearLocalSession,
        SentRequest.isRevocation]⟩
  | attachSessionHeader =>
    obtain ⟨token, held, rfl⟩ := Option.map_eq_some_iff.mp taken
    refine ⟨.of_same rfl rfl le_rfl, fun revoked => ?_⟩
    rw [revoked.tokenless] at held
    cases held
  | expired readings =>
    simp only [sessionStep] at taken
    split at taken
    · cases taken
    · obtain ⟨narrows, sent, token⟩ := expiry_spec readings _ _ (.inl taken)
      refine ⟨narrows.of_same_trans rfl rfl le_rfl, fun revoked => ⟨token revoked.tokenless, ?_⟩⟩
      rw [ordinary, sent, ordinary]
  | answered id answer now readings =>
    simp only [sessionStep] at taken
    split at taken
    · cases taken
    · rename_i generation found
      have creating : client.creates id = some generation := by rw [creates, found]; rfl
      have stale (revoked : Revoked client) : client.lifecycleGeneration ≠ generation :=
        (revoked.late id generation creating).ne'
      simp only [answerCreate] at taken
      split at taken
      · split at taken
        · cases taken
          exact ⟨narrows_finishCreate.of_same_trans rfl rfl le_rfl, fun _ => ⟨rfl, rfl⟩⟩
        · cases taken
          exact ⟨narrows_finishCreate, fun revoked => ⟨revoked.tokenless, rfl⟩⟩
      split at taken
      · cases taken
        refine ⟨narrows_discard creating, fun revoked => ⟨revoked.tokenless, ?_⟩⟩
        simp [ordinary, discard, send, SentRequest.isRevocation]
      rename_i now_
      split at taken
      · cases taken
        exact ⟨narrows_endGeneration.trans (narrows_discard creating),
          fun revoked => absurd (stale revoked) now_⟩
      · obtain ⟨scheduled, expiry, rfl⟩ := Option.map_eq_some_iff.mp taken
        have narrows := (expiry_spec readings _ _ (.inr expiry)).1
        exact ⟨(narrows.trans narrows_finishCreate).of_same_trans rfl rfl le_rfl,
          fun revoked => absurd (stale revoked) now_⟩
    · cases taken
      exact ⟨narrows_finishCreate, fun revoked => ⟨revoked.tokenless, rfl⟩⟩
    · simp only [answerCurrent] at taken
      split at taken
      · rename_i held
        suffices Narrows (client.settle id) next from
          ⟨narrows_settle.trans this, fun revoked => by
            cases revoked.tokenless.symm.trans held.2⟩
        split at taken
        · cases taken
          exact narrows_endGeneration
        split at taken
        · cases taken
          exact narrows_endGeneration
        · exact (expiry_spec readings _ _ (.inr taken)).1.of_same_trans rfl rfl le_rfl
      · cases taken
        exact ⟨narrows_settle, fun revoked => ⟨revoked.tokenless, rfl⟩⟩
    · cases taken
      exact ⟨narrows_settle, fun revoked => ⟨revoked.tokenless, rfl⟩⟩

structure Sound (client : SessionClient) : Prop where
  owned : ∀ id generation, client.creates id = some generation →
    generation < client.lifecycleGeneration ∨
      generation = client.lifecycleGeneration ∧ client.createOperation = some (id, generation)
  distinct : ∀ first second generation, client.creates first = some generation →
    client.creates second = some generation → first = second

theorem Sound.narrows (sound : Sound client) (narrows : Narrows client next) : Sound next where
  owned id generation creating := by
    rcases sound.owned id generation (narrows.creates _ _ creating) with earlier | ⟨same, named⟩
    · exact .inl (earlier.trans_le narrows.generation)
    · rcases narrows.generation.lt_or_eq with grown | kept
      · exact .inl (same.trans_lt grown)
      · exact .inr ⟨same.trans kept, narrows.operation _ _ creating named⟩
  distinct first second generation one two :=
    sound.distinct first second generation (narrows.creates _ _ one) (narrows.creates _ _ two)

theorem Sound.create (sound : Sound client) : Sound client.create := by
  unfold SessionClient.create
  split
  · exact sound
  split
  · exact sound
  rename_i free
  have earlier : ∀ id generation, client.creates id = some generation →
      generation < client.lifecycleGeneration := by
    intro id generation creating
    rcases sound.owned id generation creating with earlier | ⟨same, named⟩
    · exact earlier
    · rw [named, same] at free
      exact absurd rfl free
  have cases_ : ∀ id generation,
      (Function.update client.calls client.made
        (some (.create client.lifecycleGeneration)) id).bind SessionCall.creating =
          some generation →
      id = client.made ∧ generation = client.lifecycleGeneration ∨
        client.creates id = some generation := by
    intro id generation creating
    by_cases new : id = client.made
    · rw [new, Function.update_self] at creating
      cases creating
      exact .inl ⟨new, rfl⟩
    · rw [Function.update_of_ne new] at creating
      exact .inr creating
  constructor
  · intro id generation creating
    rcases cases_ id generation creating with ⟨rfl, rfl⟩ | old
    · exact .inr ⟨rfl, rfl⟩
    · exact .inl (earlier id generation old)
  · intro first second generation one two
    rcases cases_ first generation one with ⟨isFirst, current⟩ | oldFirst <;>
      rcases cases_ second generation two with ⟨isSecond, same⟩ | oldSecond
    · exact isFirst.trans isSecond.symm
    · exact absurd current (earlier second generation oldSecond).ne
    · exact absurd same (earlier first generation oldFirst).ne
    · exact sound.distinct first second generation oldFirst oldSecond

theorem sound_of_run {events : List SessionEvent}
    (reached : run (sessionStep dateParse) {} events = some client) : Sound client := by
  have start : Sound {} := by
    constructor
    · intro id generation creating
      cases creating
    · intro first second generation creating
      cases creating
  apply run_invariant_of_step Sound _ start reached
  intro state event next sound taken
  cases event with
  | create =>
    cases taken
    exact sound.create
  | _ => exact sound.narrows (step_spec taken nofun).1

theorem unchanged_of_stale {answer : Option SessionPayload} {now : Int} {readings : List Int}
    {call : SessionCall} (found : client.calls id = some call)
    (stale : call.generation < client.lifecycleGeneration)
    (taken : sessionStep dateParse client (.answered id answer now readings) = some next) :
    next.activeToken = client.activeToken ∧ next.metadata = client.metadata ∧
      next.expiryTimer = client.expiryTimer := by
  simp only [sessionStep, found] at taken
  cases call with
  | create generation =>
    change generation < client.lifecycleGeneration at stale
    simp only [answerCreate] at taken
    split at taken
    · rw [if_neg stale.ne'] at taken
      cases taken
      exact ⟨rfl, rfl, rfl⟩
    · rw [if_pos stale.ne'] at taken
      cases taken
      exact ⟨rfl, rfl, rfl⟩
  | current generation secret =>
    simp only [answerCurrent] at taken
    rw [if_neg fun both => stale.ne' both.1] at taken
    cases taken
    exact ⟨rfl, rfl, rfl⟩
  | _ =>
    cases taken
    exact ⟨rfl, rfl, rfl⟩

theorem Sound.revoked (sound : Sound client) : Revoked client.revoke := by
  have taken : sessionStep (fun _ => none) client .revoke = some client.revoke := rfl
  have grown : client.lifecycleGeneration < client.revoke.lifecycleGeneration := by
    unfold revoke
    split <;> exact Nat.lt_succ_self _
  constructor
  · unfold revoke
    split <;> rfl
  · intro id generation creating
    have before := sound.owned id generation ((step_spec taken nofun).1.creates _ _ creating)
    omega

theorem run_revoked {events : List SessionEvent} (revoked : Revoked client)
    (quiet : ∀ event ∈ events, event ≠ .create)
    (reached : run (sessionStep dateParse) client events = some final) :
    final.activeToken = none ∧ final.ordinary = client.ordinary := by
  induction events generalizing client with
  | nil =>
    cases reached
    exact ⟨revoked.tokenless, rfl⟩
  | cons event rest ih =>
    obtain ⟨next, taken, reached⟩ := Option.bind_eq_some_iff.mp reached
    obtain ⟨narrows, still⟩ := step_spec taken (quiet event List.mem_cons_self)
    obtain ⟨tokenless, same⟩ := still revoked
    have later : Revoked next := ⟨tokenless, fun id generation creating =>
      (revoked.late id generation (narrows.creates _ _ creating)).trans_le narrows.generation⟩
    rw [← same]
    exact ih later (fun other among => quiet other (List.mem_cons_of_mem _ among)) reached

end SessionClient

theorem bearer_lifecycle (dateParse : Text → Option Int) {events : List SessionEvent}
    {client : SessionClient} (reached : run (sessionStep dateParse) {} events = some client) :
    (∀ id call answer now readings next, client.calls id = some call →
      call.generation < client.lifecycleGeneration →
      sessionStep dateParse client (.answered id answer now readings) = some next →
      next.activeToken = client.activeToken ∧ next.metadata = client.metadata ∧
        next.expiryTimer = client.expiryTimer) ∧
    (∀ later final, (∀ event ∈ later, event ≠ .create) →
      run (sessionStep dateParse) client.revoke later = some final →
      final.activeToken = none ∧ final.ordinary = client.revoke.ordinary) ∧
    (∀ first second generation, client.creates first = some generation →
      client.creates second = some generation → first = second) ∧
    (∀ id generation answer now readings token metadata,
      client.calls id = some (.create generation) → generation ≠ client.lifecycleGeneration →
      newSession dateParse answer = some (token, metadata) →
      ∃ next, sessionStep dateParse client (.answered id answer now readings) = some next ∧
        next.sent = client.sent ++ [.revocation token]) := by
  have sound := sound_of_run reached
  refine ⟨?_, ?_, sound.distinct, ?_⟩
  · intro id call answer now readings next found stale taken
    exact unchanged_of_stale found stale taken
  · intro later final quiet run
    exact run_revoked sound.revoked quiet run
  · intro id generation answer now readings token metadata found passed session
    refine ⟨client.discard id generation token, ?_, rfl⟩
    simp only [sessionStep, found, answerCreate, session, if_pos passed.symm]

def sampleToken : Text := List.replicate 43 97

def samplePayload (decoder : String) : SessionPayload where
  token := some sampleToken
  pathPrefix := some [47]
  decoder := some (literal decoder.toList)
  diagnosticHeaders := some false
  createdAt := some []
  expiresAt := some []
  idleTimeoutSeconds := some (.finite 60)

theorem bearer_lifecycle_late : ∃ next, sessionStep (fun _ => some 10) (revoke (create {}))
      (.answered 0 (some (samplePayload "raw")) 5 []) = some next ∧
    next.sent = [.creation, .revocation sampleToken] := by
  have session : newSession (fun _ => some 10) (some (samplePayload "raw")) =
      some (sampleToken, ⟨[47], literal "raw".toList, false, [], [], 10, .finite 60⟩) := by
    decide +kernel
  have reached : run (sessionStep fun _ => some 10) {} [.create, .revoke] =
      some (revoke (create {})) := rfl
  exact (bearer_lifecycle _ reached).2.2.2 0 0 _ 5 [] sampleToken _ rfl (by decide) session

theorem malformedSession_notRevoked : isToken sampleToken = true ∧
    ∃ client, run (sessionStep fun _ => some 10) {}
        [.create, .revoke, .answered 0 (some (samplePayload "cbor")) 5 []] = some client ∧
      client.calls 0 = none ∧ client.sent = [.creation] :=
  ⟨by decide +kernel, finishCreate (revoke (create {})) 0, rfl, rfl, rfl⟩

end XFerry.Ui
