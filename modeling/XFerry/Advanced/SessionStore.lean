/-
The in-memory store of advanced sessions and the requests that use it.

Every operation reads the clock under the lock, drops what has expired and then
acts.  A data-plane request resolves its session first and touches it only after
its handler has run, with a handle instead of the token; the requests in between
are part of the state.  The token digest is a parameter.
-/

import XFerry.Encoding.Base64Url
import XFerry.EventMachine
import XFerry.OrderedDict
import XFerry.Python.Text

namespace XFerry.AdvancedSessions

open EventMachine Python

def maxSessions : Nat := 64

def tokenBytes : Nat := 32

def maxCollisionAttempts : Nat := 3

def absoluteLifetime : Int := 60 * 60 * 1000000

def idleTimeout : Int := 15 * 60 * 1000000

inductive AdvancedSessionPrincipal where
  | basic (owner : Text)
  | noAuth
  deriving DecidableEq

structure SessionSettings where
  routePrefix : Text
  decoder : Text
  diagnosticHeaders : Bool

structure AdvancedSession where
  settings : SessionSettings
  createdAt : Int
  expiresAt : Int
  lastActivityAt : Int

structure StoredAdvancedSession (Digest : Type) where
  tokenDigest : Digest
  session : AdvancedSession
  principal : AdvancedSessionPrincipal

structure TouchHandle (Digest : Type) where
  tokenDigest : Digest
  createdAt : Int

structure AdvancedSessionDispatch (Digest : Type) where
  session : AdvancedSession
  principal : AdvancedSessionPrincipal
  touchHandle : Option (TouchHandle Digest)

structure AdvancedSessionCreation where
  token : Text
  session : AdvancedSession

inductive CreateFailure where
  | capacityExhausted
  | tokenCollision
  | randomSource

def CreateFailure.message : CreateFailure → String
  | .capacityExhausted => "advanced session capacity exhausted"
  | .tokenCollision => "advanced-session token collision"
  | .randomSource => "advanced-session random source must return 32 bytes"

def isExpired (session : AdvancedSession) (now : Int) : Bool :=
  session.expiresAt ≤ now || session.lastActivityAt + idleTimeout ≤ now

variable {Digest : Type} [DecidableEq Digest]

abbrev Sessions (Digest : Type) := OrderedDict Digest (StoredAdvancedSession Digest)

def purgeExpired (now : Int) (sessions : Sessions Digest) : Sessions Digest :=
  sessions.filter fun entry => !isExpired entry.2.session now

def locateDigest (sessions : Sessions Digest) (candidate : Digest) :
    Option (StoredAdvancedSession Digest) :=
  ((sessions.entries.map Prod.snd).filter fun stored => stored.tokenDigest = candidate).getLast?

variable (digest : Text → Digest)

/-- The attempts of `create`, one for each draw of the random source. -/
def mint (sessions : Sessions Digest) (settings : SessionSettings)
    (principal : AdvancedSessionPrincipal) (now : Int) :
    List (List UInt8) → Except CreateFailure AdvancedSessionCreation × Sessions Digest
  | [] => (.error .tokenCollision, sessions)
  | raw :: rest =>
    if raw.length ≠ tokenBytes then
      (.error .randomSource, sessions)
    else
      let token := Base64Url.encode raw
      match locateDigest sessions (digest token) with
      | some _ => mint sessions settings principal now rest
      | none =>
        let session : AdvancedSession :=
          { settings := settings
            createdAt := now
            expiresAt := now + absoluteLifetime
            lastActivityAt := now }
        (.ok { token := token, session := session },
          sessions.assign (digest token)
            { tokenDigest := digest token, session := session, principal := principal })

def create (sessions : Sessions Digest) (settings : SessionSettings)
    (principal : AdvancedSessionPrincipal) (draws : Fin maxCollisionAttempts → List UInt8)
    (now : Int) : Except CreateFailure AdvancedSessionCreation × Sessions Digest :=
  let sessions := purgeExpired now sessions
  if maxSessions ≤ sessions.size then
    (.error .capacityExhausted, sessions)
  else
    mint digest sessions settings principal now (List.ofFn draws)

/-- The activity of a stored session moves to `now`; nothing else changes. -/
def refresh (sessions : Sessions Digest) (stored : StoredAdvancedSession Digest) (now : Int) :
    AdvancedSession × Sessions Digest :=
  let refreshed := { stored.session with lastActivityAt := now }
  (refreshed, sessions.assign stored.tokenDigest { stored with session := refreshed })

def resolve (sessions : Sessions Digest) (token : Text) (principal : AdvancedSessionPrincipal)
    (touch : Bool) (now : Int) : Option AdvancedSession × Sessions Digest :=
  let sessions := purgeExpired now sessions
  match locateDigest sessions (digest token) with
  | none => (none, sessions)
  | some stored =>
    if stored.principal ≠ principal then
      (none, sessions)
    else if touch then
      let refreshed := refresh sessions stored now
      (some refreshed.1, refreshed.2)
    else
      (some stored.session, sessions)

def touchHandleForResolvedSession (token : Text) (session : AdvancedSession) : TouchHandle Digest :=
  { tokenDigest := digest token, createdAt := session.createdAt }

omit digest in
def touchDispatch (sessions : Sessions Digest) (dispatch : AdvancedSessionDispatch Digest)
    (now : Int) : Option AdvancedSession × Sessions Digest :=
  match dispatch.touchHandle with
  | none => (none, sessions)
  | some handle =>
    let sessions := purgeExpired now sessions
    match sessions.lookup handle.tokenDigest with
    | none => (none, sessions)
    | some stored =>
      if stored.session.createdAt ≠ handle.createdAt then
        (none, sessions)
      else
        let refreshed := { stored.session with lastActivityAt := now }
        (some refreshed,
          sessions.assign handle.tokenDigest { stored with session := refreshed })

def revoke (sessions : Sessions Digest) (token : Text) (principal : AdvancedSessionPrincipal)
    (now : Int) : Bool × Sessions Digest :=
  let sessions := purgeExpired now sessions
  match locateDigest sessions (digest token) with
  | none => (false, sessions)
  | some stored =>
    if stored.principal ≠ principal then
      (false, sessions)
    else
      (true, sessions.erase stored.tokenDigest)

omit digest in
def invalidateAll (_sessions : Sessions Digest) (_now : Int) : Sessions Digest :=
  OrderedDict.empty

/-- `prepare` is the admission of a data-plane request: `accepted` says whether
it passes the checks that come after the lookup.  `touchDispatch` is the end of
the handler of the request that was admitted as number `request`. -/
inductive Operation where
  | create (settings : SessionSettings) (principal : AdvancedSessionPrincipal)
      (draws : Fin maxCollisionAttempts → List UInt8)
  | resolve (token : Text) (principal : AdvancedSessionPrincipal) (touch : Bool)
  | prepare (token : Text) (principal : AdvancedSessionPrincipal) (accepted : Bool)
  | touchDispatch (request : Nat)
  | revoke (token : Text) (principal : AdvancedSessionPrincipal)
  | invalidateAll

structure Event where
  now : Int
  operation : Operation

structure System (Digest : Type) where
  sessions : Sessions Digest
  dispatches : List (AdvancedSessionDispatch Digest)

def System.initial : System Digest := { sessions := OrderedDict.empty, dispatches := [] }

/-- The store's part of `_prepare_advanced_session_dispatch`. -/
def System.prepare (system : System Digest) (token : Text) (principal : AdvancedSessionPrincipal)
    (accepted : Bool) (now : Int) : Option AdvancedSession × System Digest :=
  let result := resolve digest system.sessions token principal false now
  let system := { system with sessions := result.2 }
  match result.1 with
  | none => (none, system)
  | some session =>
    if accepted then
      let dispatch : AdvancedSessionDispatch Digest :=
        { session := session
          principal := principal
          touchHandle := some (touchHandleForResolvedSession digest token session) }
      (some session, { system with dispatches := system.dispatches ++ [dispatch] })
    else
      (some session, system)

inductive Answer where
  | creation (created : Except CreateFailure AdvancedSessionCreation)
  | session (found : Option AdvancedSession)
  | revoked (removed : Bool)
  | invalidated

def System.perform (system : System Digest) (event : Event) : Answer × System Digest :=
  match event.operation with
  | .create settings principal draws =>
    let result := create digest system.sessions settings principal draws event.now
    (.creation result.1, { system with sessions := result.2 })
  | .resolve token principal touch =>
    let result := resolve digest system.sessions token principal touch event.now
    (.session result.1, { system with sessions := result.2 })
  | .prepare token principal accepted =>
    let result := system.prepare digest token principal accepted event.now
    (.session result.1, result.2)
  | .touchDispatch request =>
    match system.dispatches[request]? with
    | none => (.session none, system)
    | some dispatch =>
      let result := touchDispatch system.sessions dispatch event.now
      (.session result.1, { system with sessions := result.2 })
  | .revoke token principal =>
    let result := revoke digest system.sessions token principal event.now
    (.revoked result.1, { system with sessions := result.2 })
  | .invalidateAll =>
    (.invalidated, { system with sessions := invalidateAll system.sessions event.now })

end XFerry.AdvancedSessions
