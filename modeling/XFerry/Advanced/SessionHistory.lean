/-
Advanced sessions as their history promises them.

A tenure is one minted token with everything that happened to it.  Nothing is
ever removed from the history; whether a token is good at some time is read off
the tenure.  The store keeps only two times for each session, and the file shows
that these answer every question the same way.
-/

import XFerry.Advanced.SessionStore

namespace XFerry.AdvancedSessions

open EventMachine Python

/-- `number` tells the mints of one history apart. -/
structure Tenure where
  number : Nat
  token : Text
  settings : SessionSettings
  principal : AdvancedSessionPrincipal
  minted : Int
  activities : List Int
  ended : Bool

namespace Tenure

/-- The lifetime is not over and the session was never idle for too long. -/
def Lasts (tenure : Tenure) (now : Int) : Prop :=
  now < tenure.minted + absoluteLifetime ∧
    (tenure.minted :: tenure.activities ++ [now]).IsChain
      fun earlier later => later < earlier + idleTimeout

/-- Neither revoked nor invalidated, and still lasting. -/
def Valid (tenure : Tenure) (now : Int) : Prop :=
  tenure.ended = false ∧ tenure.Lasts now

instance (tenure : Tenure) (now : Int) : Decidable (tenure.Lasts now) :=
  inferInstanceAs (Decidable (_ ∧ _))

instance (tenure : Tenure) (now : Int) : Decidable (tenure.Valid now) :=
  inferInstanceAs (Decidable (_ ∧ _))

/-- The token was minted for the principal and is good at this time. -/
def Admits (tenure : Tenure) (token : Text) (principal : AdvancedSessionPrincipal)
    (now : Int) : Prop :=
  tenure.token = token ∧ tenure.principal = principal ∧ tenure.Valid now

instance (tenure : Tenure) (token : Text) (principal : AdvancedSessionPrincipal) (now : Int) :
    Decidable (tenure.Admits token principal now) :=
  inferInstanceAs (Decidable (_ ∧ _))

def active (tenure : Tenure) (now : Int) : Tenure :=
  { tenure with activities := tenure.activities ++ [now] }

def finished (tenure : Tenure) : Tenure := { tenure with ended := true }

end Tenure

/-- `dispatched` is, for each admitted request, the number of the tenure it was
resolved against. -/
structure History where
  tenures : List Tenure
  dispatched : List Nat

def History.initial : History := { tenures := [], dispatched := [] }

def History.Holds (history : History) (token : Text) (principal : AdvancedSessionPrincipal)
    (now : Int) : Prop :=
  ∃ tenure ∈ history.tenures, tenure.Admits token principal now

/-- The tenure that a request was resolved against is still good. -/
def History.DispatchHolds (history : History) (request : Nat) (now : Int) : Prop :=
  ∃ number, history.dispatched[request]? = some number ∧
    ∃ tenure ∈ history.tenures, tenure.number = number ∧ tenure.Valid now

def History.change (history : History) (changes : Tenure → Bool) (change : Tenure → Tenure) :
    History :=
  { history with
    tenures := history.tenures.map fun tenure =>
      if changes tenure then change tenure else tenure }

/-- What an operation adds to the history; `minted` is the token that a `create`
gave out. -/
def History.record (history : History) (event : Event) (minted : Option Text) : History :=
  match event.operation with
  | .create settings principal _ =>
    match minted with
    | none => history
    | some token =>
      { history with
        tenures := history.tenures ++
          [{ number := history.tenures.length
             token := token
             settings := settings
             principal := principal
             minted := event.now
             activities := []
             ended := false }] }
  | .resolve token principal touch =>
    if touch then
      history.change (fun tenure => decide (tenure.Admits token principal event.now))
        fun tenure => tenure.active event.now
    else
      history
  | .prepare token principal accepted =>
    if accepted then
      match history.tenures.find? fun tenure =>
          decide (tenure.Admits token principal event.now) with
      | none => history
      | some tenure => { history with dispatched := history.dispatched ++ [tenure.number] }
    else
      history
  | .touchDispatch request =>
    match history.dispatched[request]? with
    | none => history
    | some number =>
      history.change
        (fun tenure => decide (tenure.number = number ∧ tenure.Valid event.now))
        fun tenure => tenure.active event.now
  | .revoke token principal =>
    history.change (fun tenure => decide (tenure.Admits token principal event.now)) Tenure.finished
  | .invalidateAll => history.change (fun _ => true) Tenure.finished

variable {Digest : Type} [DecidableEq Digest] (digest : Text → Digest)

def Answer.minted : Answer → Option Text
  | .creation (.ok made) => some made.token
  | _ => none

@[simp] theorem minted_session (found : Option AdvancedSession) :
    (Answer.session found).minted = none := rfl

def step : Machine (System Digest × History) Event :=
  fun state event =>
    let performed := state.1.perform digest event
    some (performed.2, state.2.record event performed.1.minted)

def Tenure.stored (tenure : Tenure) : StoredAdvancedSession Digest :=
  { tokenDigest := digest tenure.token
    session :=
      { settings := tenure.settings
        createdAt := tenure.minted
        expiresAt := tenure.minted + absoluteLifetime
        lastActivityAt := (tenure.minted :: tenure.activities).getLast (List.cons_ne_nil _ _) }
    principal := tenure.principal }

/-- At each time from `clock` on, the sessions that have not expired are those of
the good tenures. -/
def Shows (clock : Int) (sessions : Sessions Digest) (tenures : List Tenure) : Prop :=
  ∀ now, clock ≤ now → ∀ entry : Digest × StoredAdvancedSession Digest,
    entry ∈ (purgeExpired now sessions).entries ↔
      ∃ tenure ∈ tenures, tenure.Valid now ∧ entry = (digest tenure.token, tenure.stored digest)

omit digest in
/-- Nothing that has not expired by `now` differs, at any later time. -/
def SameView (now : Int) (before after : Sessions Digest) : Prop :=
  ∀ later, now ≤ later → purgeExpired later after = purgeExpired later before

def freshSession (settings : SessionSettings) (now : Int) : AdvancedSession :=
  { settings := settings
    createdAt := now
    expiresAt := now + absoluteLifetime
    lastActivityAt := now }

/-- A session is given exactly if it is what the operation makes of that of a good tenure. -/
def Gives (answer : Answer) (tenures : List Tenure) (good : Tenure → Prop)
    (change : Tenure → Tenure) : Prop :=
  ∀ session, answer = .session (some session) ↔
    ∃ tenure ∈ tenures, good tenure ∧ session = ((change tenure).stored digest).session

/-- The answer to one operation is the one the history gives; an attempt that
the history does not admit changes no session. -/
def Answered (state : System Digest × History) (event : Event) : Prop :=
  let answer := (state.1.perform digest event).1
  let after := (state.1.perform digest event).2
  match event.operation with
  | .invalidateAll => True
  | .create settings principal _ =>
    ∀ made, answer = .creation (.ok made) →
      made.session = freshSession settings event.now ∧
      (digest made.token,
        { tokenDigest := digest made.token, session := made.session, principal := principal }) ∈
          after.sessions.entries
  | .resolve token principal touch =>
    Gives digest answer state.2.tenures (·.Admits token principal event.now)
      (fun tenure => if touch then tenure.active event.now else tenure) ∧
    (¬ state.2.Holds token principal event.now →
      SameView event.now state.1.sessions after.sessions)
  | .prepare token principal _ =>
    Gives digest answer state.2.tenures (·.Admits token principal event.now) id ∧
    (¬ state.2.Holds token principal event.now →
      SameView event.now state.1.sessions after.sessions)
  | .touchDispatch request =>
    Gives digest answer state.2.tenures
      (fun tenure => state.2.dispatched[request]? = some tenure.number ∧ tenure.Valid event.now)
      (·.active event.now) ∧
    (¬ state.2.DispatchHolds request event.now →
      SameView event.now state.1.sessions after.sessions)
  | .revoke token principal =>
    (answer = .revoked true ↔ state.2.Holds token principal event.now) ∧
    (¬ state.2.Holds token principal event.now →
      SameView event.now state.1.sessions after.sessions)

/-- The tenures whose activity the operation moves to its time. -/
def Touches (history : History) (event : Event) (tenure : Tenure) : Prop :=
  match event.operation with
  | .resolve token principal touch => touch = true ∧ tenure.Admits token principal event.now
  | .touchDispatch request =>
    history.dispatched[request]? = some tenure.number ∧ tenure.Valid event.now
  | _ => False

/-- Apart from a `create`, an operation adds nothing to the store: it drops
sessions and moves the last activity of those that it touches. -/
def Framed (state : System Digest × History) (event : Event) : Prop :=
  let before := state.1.sessions.entries
  let after := (state.1.perform digest event).2.sessions.entries
  match event.operation with
  | .create .. => True
  | _ =>
    ∀ entry ∈ after, entry ∈ before ∨
      ∃ tenure ∈ state.2.tenures, Touches state.2 event tenure ∧
        (digest tenure.token, tenure.stored digest) ∈ before ∧
        entry = (digest tenure.token,
          { tenure.stored digest with
            session := { (tenure.stored digest).session with lastActivityAt := event.now } })

end XFerry.AdvancedSessions
