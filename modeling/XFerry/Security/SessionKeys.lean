/-
The bounded session table of the ECDH key manager.

Each public operation reads the clock first and takes the lock afterwards, so
two threads can enter the lock in the opposite order of their readings.  The
table is scanned for expiry from its oldest entry and the scan stops at the
first fresh one.  The file models the operations on the table, the threads that
interleave around the lock, and the order of last-seen times the scan needs.
-/

import XFerry.EventMachine
import XFerry.OrderedDict

namespace XFerry.SessionKeys

open EventMachine List OrderedDict

abbrev SessionId := String

abbrev Key := List UInt8

structure SessionRecord (Time : Type) where
  key : Key
  lastSeen : Time

/-- The constructor arguments of the manager, with the bounds it checks.
`exchange` is the ECDH agreement and key derivation of the cryptography
library; it raises on a malformed public key. -/
structure Policy (Time : Type) [Zero Time] [LT Time] where
  sessionTtl : Time
  maxSessions : Nat
  exchange : List UInt8 → Option Key
  ttlPositive : 0 < sessionTtl
  maxPositive : 0 < maxSessions

abbrev Sessions (Time : Type) := OrderedDict SessionId (SessionRecord Time)

variable {Time : Type} [AddCommGroup Time] [LinearOrder Time]

/-- `_cleanup_sessions_unlocked`: drop the leading expired entries, then the
oldest ones above the cap. -/
def cleanupSessions (policy : Policy Time) (sessions : Sessions Time) (now : Time) :
    Sessions Time :=
  let expiryCutoff := now - policy.sessionTtl
  let fresh := sessions.popWhile fun entry => decide (entry.2.lastSeen ≤ expiryCutoff)
  fresh.popFirst (fresh.size - policy.maxSessions)

/-- The locked part of `derive_session`. -/
def storeSession (policy : Policy Time) (sessions : Sessions Time) (sessionId : SessionId)
    (key : Key) (now : Time) : Sessions Time :=
  let cleaned := cleanupSessions policy sessions now
  cleanupSessions policy (cleaned.assign sessionId { key := key, lastSeen := now }) now

/-- The locked part of `get_session_key`. -/
def getSessionKey (policy : Policy Time) (sessions : Sessions Time) (sessionId : SessionId)
    (now : Time) : Option Key × Sessions Time :=
  let cleaned := cleanupSessions policy sessions now
  match cleaned.lookup sessionId with
  | none => (none, cleaned)
  | some session =>
    (some session.key,
      (cleaned.assign sessionId { session with lastSeen := now }).moveToEnd sessionId)

/-- `active_session_count`, which reads the clock inside the lock. -/
def activeSessionCount (policy : Policy Time) (sessions : Sessions Time) (now : Time) :
    Nat × Sessions Time :=
  let cleaned := cleanupSessions policy sessions now
  (cleaned.size, cleaned)

inductive Call (Time : Type) where
  | deriveSession (clientPublic : List UInt8)
  | getSessionKey (sessionId : SessionId)
  | cleanup (now : Option Time)
  | activeSessionCount
  | removeSession (sessionId : SessionId)

inductive Pending (Time : Type) where
  | store (key : Key) (reading : Time)
  | lookup (sessionId : SessionId) (reading : Time)
  | cleanup (now : Option Time)
  | count
  | remove (sessionId : SessionId)

structure System (Time : Type) where
  clock : Time
  sessions : Sessions Time
  pending : Nat → Option (Pending Time)

/-- `locked` carries the session ID that `secrets.token_hex` returns. -/
inductive Event (Time : Type) where
  | advance (clock : Time)
  | enter (thread : Nat) (call : Call Time)
  | locked (thread : Nat) (token : SessionId)

def System.initial (clock : Time) : System Time :=
  { clock := clock, sessions := empty, pending := fun _ => none }

def beginCall (policy : Policy Time) (clock : Time) : Call Time → Option (Pending Time)
  | .deriveSession clientPublic =>
    (policy.exchange clientPublic).map fun key => .store key clock
  | .getSessionKey sessionId => some (.lookup sessionId clock)
  | .cleanup now => some (.cleanup now)
  | .activeSessionCount => some .count
  | .removeSession sessionId => some (.remove sessionId)

def lockedSessions (policy : Policy Time) (system : System Time) (token : SessionId) :
    Pending Time → Sessions Time
  | .store key reading => storeSession policy system.sessions token key reading
  | .lookup sessionId reading => (getSessionKey policy system.sessions sessionId reading).2
  | .cleanup now => cleanupSessions policy system.sessions (now.getD system.clock)
  | .count => (activeSessionCount policy system.sessions system.clock).2
  | .remove sessionId => system.sessions.erase sessionId

def System.step (policy : Policy Time) : Machine (System Time) (Event Time)
  | system, .advance clock =>
    if system.clock ≤ clock then some { system with clock := clock } else none
  | system, .enter thread call =>
    match system.pending thread with
    | some _ => none
    | none => some
        { system with
          pending := Function.update system.pending thread (beginCall policy system.clock call) }
  | system, .locked thread token =>
    match system.pending thread with
    | none => none
    | some pending => some
        { system with
          sessions := lockedSessions policy system token pending
          pending := Function.update system.pending thread none }

/-- `get_session_key` answers with the key of a session that has been idle for
at least the time to live at the caller's reading. -/
def answersStale (policy : Policy Time) (sessions : Sessions Time) (sessionId : SessionId)
    (reading : Time) : Bool :=
  match (getSessionKey policy sessions sessionId reading).1, sessions.lookup sessionId with
  | some _, some session => decide (policy.sessionTtl ≤ reading - session.lastSeen)
  | _, _ => false

def Pending.AnswersFresh (policy : Policy Time) (sessions : Sessions Time) : Pending Time → Prop
  | .lookup sessionId reading => answersStale policy sessions sessionId reading = false
  | _ => True

def isLive (policy : Policy Time) (now : Time) (session : SessionRecord Time) : Bool :=
  decide (now - policy.sessionTtl < session.lastSeen)

/-- A reading that is about to be stored is no older than the last-seen time of
any other session, and a new session gets an ID that is not in the table.  With
a cap of one session the new one is alone and has no order to break. -/
def Pending.InOrder (policy : Policy Time) (sessions : Sessions Time) (token : SessionId) :
    Pending Time → Prop
  | .store _ reading =>
    policy.maxSessions = 1 ∨
      ((∀ entry ∈ sessions.entries, entry.2.lastSeen ≤ reading) ∧
        sessions.lookup token = none)
  | .lookup sessionId reading =>
    (sessions.lookup sessionId).any (isLive policy reading) = true →
      ∀ entry ∈ (sessions.erase sessionId).entries, entry.2.lastSeen ≤ reading
  | _ => True

def NoStaleAnswer (policy : Policy Time) (system : System Time) : Event Time → Prop
  | .locked thread _ =>
    ∀ pending ∈ system.pending thread, pending.AnswersFresh policy system.sessions
  | _ => True

def ReadingInOrder (policy : Policy Time) (system : System Time) : Event Time → Prop
  | .locked thread token =>
    ∀ pending ∈ system.pending thread, pending.InOrder policy system.sessions token
  | _ => True

instance (policy : Policy Time) (sessions : Sessions Time) :
    ∀ pending : Pending Time, Decidable (pending.AnswersFresh policy sessions)
  | .lookup sessionId reading =>
    inferInstanceAs (Decidable (answersStale policy sessions sessionId reading = false))
  | .store .. | .cleanup .. | .count | .remove .. => isTrue trivial

instance (policy : Policy Time) (sessions : Sessions Time) (token : SessionId) :
    ∀ pending : Pending Time, Decidable (pending.InOrder policy sessions token)
  | .store _ reading =>
    inferInstanceAs (Decidable (policy.maxSessions = 1 ∨
      ((∀ entry ∈ sessions.entries, entry.2.lastSeen ≤ reading) ∧
        sessions.lookup token = none)))
  | .lookup sessionId reading =>
    inferInstanceAs (Decidable
      ((sessions.lookup sessionId).any (isLive policy reading) = true →
        ∀ entry ∈ (sessions.erase sessionId).entries, entry.2.lastSeen ≤ reading))
  | .cleanup .. | .count | .remove .. => isTrue trivial

instance (policy : Policy Time) (system : System Time) :
    ∀ event : Event Time, Decidable (NoStaleAnswer policy system event)
  | .locked thread _ =>
    inferInstanceAs (Decidable (∀ pending ∈ system.pending thread,
      pending.AnswersFresh policy system.sessions))
  | .advance .. | .enter .. => isTrue trivial

instance (policy : Policy Time) (system : System Time) :
    ∀ event : Event Time, Decidable (ReadingInOrder policy system event)
  | .locked thread token =>
    inferInstanceAs (Decidable (∀ pending ∈ system.pending thread,
      pending.InOrder policy system.sessions token))
  | .advance .. | .enter .. => isTrue trivial

def InLastSeenOrder (sessions : Sessions Time) : Prop :=
  sessions.entries.Pairwise fun left right => left.2.lastSeen ≤ right.2.lastSeen

theorem cleanupSessions_sublist (policy : Policy Time) (sessions : Sessions Time) (now : Time) :
    (cleanupSessions policy sessions now).entries.Sublist sessions.entries :=
  (drop_sublist _ _).trans (dropWhile_sublist _)

theorem cleanupSessions_size_le (policy : Policy Time) (sessions : Sessions Time) (now : Time) :
    (cleanupSessions policy sessions now).size ≤ policy.maxSessions := by
  simp only [cleanupSessions, size, popFirst, length_drop]
  omega

variable {policy : Policy Time} {sessions : Sessions Time} {sessionId : SessionId} {now : Time}

theorem lookup_of_lookup_cleanup {session : SessionRecord Time}
    (found : (cleanupSessions policy sessions now).lookup sessionId = some session) :
    sessions.lookup sessionId = some session :=
  lookup_eq_some.mpr
    ((cleanupSessions_sublist policy sessions now).subset (lookup_eq_some.mp found))

variable {entry : SessionId × SessionRecord Time}

section

variable (inOrder : InLastSeenOrder sessions)
include inOrder

theorem isLive_of_mem_cleanup (member : entry ∈ (cleanupSessions policy sessions now).entries) :
    isLive policy now entry.2 = true := by
  have kept := (drop_sublist _ _).subset member
  have monotone : sessions.entries.Pairwise fun left right =>
      decide (right.2.lastSeen ≤ now - policy.sessionTtl) = true →
        decide (left.2.lastSeen ≤ now - policy.sessionTtl) = true := by
    refine inOrder.imp ?_
    intro left right older expired
    simp only [decide_eq_true_eq] at expired ⊢
    exact older.trans expired
  have fresh := popWhile_not_expired_iff.mpr monotone entry kept
  simpa [isLive] using fresh

theorem InLastSeenOrder.cleanup (policy : Policy Time) (now : Time) :
    InLastSeenOrder (cleanupSessions policy sessions now) :=
  inOrder.sublist (cleanupSessions_sublist policy sessions now)

omit [AddCommGroup Time] in
theorem InLastSeenOrder.erase
    (sessionId : SessionId) : InLastSeenOrder (sessions.erase sessionId) :=
  inOrder.sublist filter_sublist

end

omit [AddCommGroup Time] in
theorem InLastSeenOrder.of_size_le_one (small : sessions.size ≤ 1) : InLastSeenOrder sessions := by
  unfold InLastSeenOrder
  unfold size at small
  match entriesEq : sessions.entries with
  | [] => exact List.Pairwise.nil
  | [entry] => exact pairwise_singleton _ entry
  | first :: second :: rest =>
    rw [entriesEq] at small
    simp at small

omit [AddCommGroup Time] in
theorem inLastSeenOrder_append {entries : List (SessionId × SessionRecord Time)}
    (inOrder : entries.Pairwise fun left right => left.2.lastSeen ≤ right.2.lastSeen)
    (newest : ∀ other ∈ entries, other.2.lastSeen ≤ entry.2.lastSeen) :
    (entries ++ [entry]).Pairwise fun left right => left.2.lastSeen ≤ right.2.lastSeen := by
  rw [pairwise_append]
  refine ⟨inOrder, pairwise_singleton _ _, ?_⟩
  intro left present right last
  rw [mem_singleton.mp last]
  exact newest left present

theorem storeSession_size_le (policy : Policy Time) (sessions : Sessions Time)
    (sessionId : SessionId) (key : Key) (now : Time) :
    (storeSession policy sessions sessionId key now).size ≤ policy.maxSessions :=
  cleanupSessions_size_le policy _ now

theorem getSessionKey_size_le (policy : Policy Time) (sessions : Sessions Time)
    (sessionId : SessionId) (now : Time) :
    (getSessionKey policy sessions sessionId now).2.size ≤ policy.maxSessions := by
  have cleaned := cleanupSessions_size_le policy sessions now
  cases found : (cleanupSessions policy sessions now).lookup sessionId with
  | none => simpa only [getSessionKey, found] using cleaned
  | some session =>
    simpa only [getSessionKey, found, size_assign_moveToEnd found] using cleaned

theorem lockedSessions_size_le (policy : Policy Time) (system : System Time) (token : SessionId)
    (pending : Pending Time) (within : system.sessions.size ≤ policy.maxSessions) :
    (lockedSessions policy system token pending).size ≤ policy.maxSessions := by
  cases pending with
  | store key reading => exact storeSession_size_le policy _ token key reading
  | lookup sessionId reading => exact getSessionKey_size_le policy _ sessionId reading
  | cleanup | count => exact cleanupSessions_size_le policy _ _
  | remove sessionId => exact (size_erase_le _ _).trans within

theorem storeSession_inLastSeenOrder (key : Key) (inOrder : InLastSeenOrder sessions)
    (newest : ∀ entry ∈ sessions.entries, entry.2.lastSeen ≤ now)
    (unused : sessions.lookup sessionId = none) :
    InLastSeenOrder (storeSession policy sessions sessionId key now) := by
  have absent : (cleanupSessions policy sessions now).lookup sessionId = none := by
    cases found : (cleanupSessions policy sessions now).lookup sessionId with
    | none => rfl
    | some session =>
      rw [lookup_of_lookup_cleanup found] at unused
      cases unused
  refine InLastSeenOrder.cleanup ?_ policy now
  rw [assign_of_absent absent]
  refine inLastSeenOrder_append (inOrder.cleanup policy now) ?_
  intro other present
  exact newest other ((cleanupSessions_sublist policy sessions now).subset present)

theorem getSessionKey_inLastSeenOrder (inOrder : InLastSeenOrder sessions)
    (newest : (sessions.lookup sessionId).any (isLive policy now) = true →
      ∀ entry ∈ (sessions.erase sessionId).entries, entry.2.lastSeen ≤ now) :
    InLastSeenOrder (getSessionKey policy sessions sessionId now).2 := by
  have cleanedOrder := inOrder.cleanup policy now
  cases found : (cleanupSessions policy sessions now).lookup sessionId with
  | none => simpa only [getSessionKey, found] using cleanedOrder
  | some session =>
    have live := isLive_of_mem_cleanup inOrder (lookup_eq_some.mp found)
    have stored := lookup_of_lookup_cleanup found
    have others := newest (by rw [stored]; exact live)
    simp only [getSessionKey, found]
    unfold InLastSeenOrder
    rw [assign_moveToEnd_entries found]
    refine inLastSeenOrder_append (cleanedOrder.erase sessionId) ?_
    intro other present
    have parts := mem_erase.mp present
    apply others other
    exact mem_erase.mpr ⟨(cleanupSessions_sublist policy sessions now).subset parts.1, parts.2⟩

theorem lockedSessions_inLastSeenOrder {system : System Time}
    {token : SessionId} {pending : Pending Time} (inOrder : InLastSeenOrder system.sessions)
    (reading : pending.InOrder policy system.sessions token) :
    InLastSeenOrder (lockedSessions policy system token pending) := by
  cases pending with
  | store key now =>
    rcases reading with alone | ⟨newest, unused⟩
    · apply InLastSeenOrder.of_size_le_one
      rw [← alone]
      exact storeSession_size_le policy _ token key now
    · exact storeSession_inLastSeenOrder key inOrder newest unused
  | lookup sessionId now => exact getSessionKey_inLastSeenOrder inOrder reading
  | cleanup | count => exact inOrder.cleanup policy _
  | remove sessionId => exact inOrder.erase sessionId

section Exactness

variable [IsOrderedAddMonoid Time]

theorem answersStale_of_inLastSeenOrder (policy : Policy Time)
    (inOrder : InLastSeenOrder sessions) (sessionId : SessionId) (reading : Time) :
    answersStale policy sessions sessionId reading = false := by
  cases found : (cleanupSessions policy sessions reading).lookup sessionId with
  | none => simp [answersStale, getSessionKey, found]
  | some session =>
    have stored := lookup_of_lookup_cleanup found
    have live := isLive_of_mem_cleanup inOrder (lookup_eq_some.mp found)
    have recent : reading - policy.sessionTtl < session.lastSeen := by
      simpa [isLive] using live
    have notIdle : ¬ policy.sessionTtl ≤ reading - session.lastSeen :=
      not_le.mpr (sub_lt_comm.mp recent)
    simp [answersStale, getSessionKey, found, stored, notIdle]

omit [IsOrderedAddMonoid Time] in
theorem cleanupSessions_entries_of_size_le
    (within : sessions.size ≤ policy.maxSessions) (now : Time) :
    (cleanupSessions policy sessions now).entries = (sessions.popWhile fun entry =>
        decide (entry.2.lastSeen ≤ now - policy.sessionTtl)).entries := by
  have shorter := (dropWhile_sublist (l := sessions.entries)
    fun entry => decide (entry.2.lastSeen ≤ now - policy.sessionTtl)).length_le
  unfold size at within
  have noExcess : (sessions.popWhile fun entry =>
      decide (entry.2.lastSeen ≤ now - policy.sessionTtl)).size - policy.maxSessions = 0 := by
    simp only [size, popWhile]
    omega
  simp only [cleanupSessions, noExcess, popFirst, drop_zero]

/-- Within the cap, the order of last-seen times is exactly what keeps every
later answer fresh. -/
theorem inLastSeenOrder_iff_not_answersStale (within : sessions.size ≤ policy.maxSessions) :
    InLastSeenOrder sessions ↔
      ∀ sessionId reading, answersStale policy sessions sessionId reading = false := by
  constructor
  · intro inOrder sessionId reading
    exact answersStale_of_inLastSeenOrder policy inOrder sessionId reading
  · intro fresh
    have monotone (cutoff : Time) : sessions.entries.Pairwise fun left right =>
        decide (right.2.lastSeen ≤ cutoff) = true → decide (left.2.lastSeen ≤ cutoff) = true := by
      rw [← popWhile_not_expired_iff]
      intro entry kept
      by_contra expired
      -- The reading whose cutoff is `cutoff` keeps the entry although it is idle.
      have cleanedEq := cleanupSessions_entries_of_size_le within (cutoff + policy.sessionTtl)
      rw [add_sub_cancel_right] at cleanedEq
      have member : (entry.1, entry.2) ∈
          (cleanupSessions policy sessions (cutoff + policy.sessionTtl)).entries := by
        rw [cleanedEq]
        exact kept
      have found := lookup_eq_some.mpr member
      have stored := lookup_of_lookup_cleanup found
      have idle : policy.sessionTtl ≤ cutoff + policy.sessionTtl - entry.2.lastSeen := by
        have older : entry.2.lastSeen ≤ cutoff := by simpa using expired
        rw [add_sub_right_comm, le_add_iff_nonneg_left, sub_nonneg]
        exact older
      have stale := fresh entry.1 (cutoff + policy.sessionTtl)
      simp [answersStale, getSessionKey, found, stored, idle] at stale
    unfold InLastSeenOrder
    rw [pairwise_iff_forall_sublist]
    intro left right pair
    have ordered := pairwise_pair.mp ((monotone right.2.lastSeen).sublist pair)
    simpa using ordered

end Exactness

variable {system next : System Time} {event : Event Time}

theorem System.step_sessions (taken : System.step policy system event = some next) :
    next.sessions = system.sessions ∨
      ∃ thread token pending, event = .locked thread token ∧
        system.pending thread = some pending ∧
        next.sessions = lockedSessions policy system token pending := by
  cases event with
  | advance clock =>
    simp only [System.step] at taken
    split at taken
    · cases taken
      exact .inl rfl
    · cases taken
  | enter thread call =>
    simp only [System.step] at taken
    split at taken
    · cases taken
    · cases taken
      exact .inl rfl
  | locked thread token =>
    cases waiting : system.pending thread with
    | none => simp [System.step, waiting] at taken
    | some pending =>
      simp only [System.step, waiting, Option.some.injEq] at taken
      subst taken
      exact .inr ⟨thread, token, pending, rfl, waiting, rfl⟩

theorem System.step_size_le (within : system.sessions.size ≤ policy.maxSessions)
    (taken : System.step policy system event = some next) :
    next.sessions.size ≤ policy.maxSessions := by
  rcases System.step_sessions taken with same | ⟨_, token, pending, _, _, stored⟩
  · rw [same]
    exact within
  · rw [stored]
    exact lockedSessions_size_le policy system token pending within

theorem System.step_inLastSeenOrder (inOrder : InLastSeenOrder system.sessions)
    (reading : ReadingInOrder policy system event)
    (taken : System.step policy system event = some next) :
    InLastSeenOrder next.sessions := by
  rcases System.step_sessions taken with same | ⟨_, token, pending, rfl, waiting, stored⟩
  · rw [same]
    exact inOrder
  · rw [stored]
    exact lockedSessions_inLastSeenOrder inOrder (reading pending waiting)

theorem noStaleAnswer_of_inLastSeenOrder [IsOrderedAddMonoid Time]
    {system : System Time} (inOrder : InLastSeenOrder system.sessions) (event : Event Time) :
    NoStaleAnswer policy system event := by
  cases event with
  | advance | enter => trivial
  | locked thread token =>
    intro pending _waiting
    cases pending with
    | lookup sessionId reading =>
      exact answersStale_of_inLastSeenOrder policy inOrder sessionId reading
    | store | cleanup | count | remove => trivial

/-- The cap holds in every interleaving.  The time to live holds in every one
whose readings reach the table in order. -/
theorem System.sessions_within_ttl_and_cap [IsOrderedAddMonoid Time] (policy : Policy Time)
    (clock : Time) (events : List (Event Time)) :
    (Along (System.step policy) (ReadingInOrder policy) (System.initial clock) events →
      Along (System.step policy) (NoStaleAnswer policy) (System.initial clock) events) ∧
    ∀ final, run (System.step policy) (System.initial clock) events = some final →
      final.sessions.size ≤ policy.maxSessions := by
  constructor
  · intro readings
    have start : InLastSeenOrder (System.initial clock).sessions := List.Pairwise.nil
    refine along_of_invariant (fun system : System Time => InLastSeenOrder system.sessions)
      ?_ ?_ start readings
    · intro system event next inOrder reading taken
      exact System.step_inLastSeenOrder inOrder reading taken
    · intro system event inOrder _reading
      exact noStaleAnswer_of_inLastSeenOrder inOrder event
  · intro final reached
    refine run_invariant_of_step
      (fun system : System Time => system.sessions.size ≤ policy.maxSessions) ?_ ?_ reached
    · intro system event next within taken
      exact System.step_size_le within taken
    · exact Nat.zero_le _

def overtakingPolicy : Policy Int :=
  { sessionTtl := 10
    maxSessions := 4
    exchange := fun clientPublic => some clientPublic
    ttlPositive := by decide
    maxPositive := by decide }

/-- Thread 0 reads the clock at 1 and thread 1 at 5.  Both lookups arrive in
the order of their readings. -/
def orderedThreads : List (Event Int) :=
  [.advance 1, .enter 0 (.deriveSession [1]), .locked 0 "a",
    .advance 5, .enter 1 (.deriveSession [2]), .locked 1 "b",
    .advance 12, .enter 2 (.getSessionKey "a"), .enter 3 (.getSessionKey "b"),
    .locked 2 "", .locked 3 ""]

def overtakingThreads : List (Event Int) :=
  [.advance 1, .enter 0 (.deriveSession [1]),
    .advance 5, .enter 1 (.deriveSession [2]), .locked 1 "b", .locked 0 "a",
    .advance 12, .enter 2 (.getSessionKey "a"), .locked 2 ""]

theorem orderedThreads_within_ttl_and_cap :
    Along (System.step overtakingPolicy) (NoStaleAnswer overtakingPolicy)
        (System.initial 0) orderedThreads ∧
      ∀ final, run (System.step overtakingPolicy) (System.initial 0) orderedThreads = some final →
        final.sessions.size ≤ 4 := by
  have both := System.sessions_within_ttl_and_cap overtakingPolicy 0 orderedThreads
  exact ⟨both.1 (by decide), both.2⟩

theorem storeSession_fresh_iff :
    let sessions := storeSession overtakingPolicy .empty "" [] 0
    InLastSeenOrder sessions ↔
      ∀ sessionId reading, answersStale overtakingPolicy sessions sessionId reading = false :=
  inLastSeenOrder_iff_not_answersStale (by decide)

theorem overtakingThreads_answer_stale :
    (run (System.step overtakingPolicy) (System.initial 0) overtakingThreads).isSome = true ∧
      ¬ Along (System.step overtakingPolicy) (NoStaleAnswer overtakingPolicy)
        (System.initial 0) overtakingThreads := by
  decide

end XFerry.SessionKeys
