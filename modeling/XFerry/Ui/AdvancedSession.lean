/-
The Advanced session of the browser.

The script runs from an event of the page to its next `await` without a break.  An event
is a call, a timer, or the end of a request, with what each `Date.now()` on the way gives.
The phase and the error text, which the page only shows, are left out.
-/

import XFerry.EventMachine
import XFerry.JavaScript.Number
import XFerry.JavaScript.Text

namespace XFerry.Ui

open JavaScript (Number Text literal)

/-- The object `advanced_session` of an answer.  A field of another type is `none`. -/
structure SessionPayload where
  token : Option Text
  pathPrefix : Option Text
  decoder : Option Text
  diagnosticHeaders : Option Bool
  createdAt : Option Text
  expiresAt : Option Text
  idleTimeoutSeconds : Option Number

structure SessionMetadata where
  pathPrefix : Text
  decoder : Text
  diagnosticHeaders : Bool
  createdAt : Text
  expiresAt : Text
  expiresAtMs : Int
  idleTimeoutSeconds : Number
deriving DecidableEq

/-- `TOKEN_PATTERN`. -/
def isToken (text : Text) : Bool :=
  text.length == 43 && text.all fun unit => unit ∈ literal Base64Url.alphabet

def decoders : List Text :=
  ["auto", "raw", "json", "text", "form", "xml", "multipart"].map fun name => literal name.toList

/-- `dateParse` gives `none` for `NaN`, and the function where it throws. -/
def validateMetadata (dateParse : Text → Option Int) (tokenRequired : Bool)
    (value : SessionPayload) : Option SessionMetadata := do
  guard (tokenRequired = false ∨ value.token.any isToken = true)
  let pathPrefix ← value.pathPrefix.filter fun text => text.head? == some 47
  let decoder ← value.decoder.filter decoders.contains
  let diagnosticHeaders ← value.diagnosticHeaders
  let createdAt ← value.createdAt.filter fun text => (dateParse text).isSome
  let expiresAt ← value.expiresAt
  let expiresAtMs ← dateParse expiresAt
  let idleTimeoutSeconds ← value.idleTimeoutSeconds.filter fun seconds =>
    seconds.isInteger && Number.less (.finite 0) seconds
  return { pathPrefix, decoder, diagnosticHeaders, createdAt, expiresAt, expiresAtMs,
           idleTimeoutSeconds }

/-- `discard` is a create that waits for its `bestEffortRevokeToken`. -/
inductive SessionCall where
  | create (generation : Nat)
  | discard (generation : Nat)
  | current (generation : Nat) (secret : Text)
  | revoke (generation : Nat)

def SessionCall.generation : SessionCall → Nat
  | .create generation | .discard generation | .current generation _ | .revoke generation =>
    generation

/-- The generation of a create that is in flight. -/
def SessionCall.creating : SessionCall → Option Nat
  | .create generation | .discard generation => some generation
  | .current _ _ | .revoke _ => none

inductive SentRequest where
  | creation
  | check (token : Text)
  | revocation (token : Text)
  | payload (token : Text)

def SentRequest.isRevocation : SentRequest → Bool
  | .revocation _ => true
  | .creation | .check _ | .payload _ => false

structure SessionClient where
  activeToken : Option Text := none
  metadata : Option SessionMetadata := none
  createOperation : Option (Nat × Nat) := none
  lifecycleGeneration : Nat := 0
  expiryTimer : Option (Nat × Text) := none
  calls : Nat → Option SessionCall := fun _ => none
  made : Nat := 0
  sent : List SentRequest := []

/-- An answer that fails, is not `ok` or has no session is `none`. -/
inductive SessionEvent where
  | create
  | current
  | revoke
  | attachSessionHeader
  | expired (readings : List Int)
  | answered (id : Nat) (answer : Option SessionPayload) (now : Int) (readings : List Int)

namespace SessionClient

variable (client : SessionClient)

def clearLocalSession : SessionClient :=
  { client with expiryTimer := none, activeToken := none, metadata := none }

/-- `lifecycleGeneration += 1; clearLocalSession()`. -/
def endGeneration : SessionClient :=
  { client.clearLocalSession with lifecycleGeneration := client.lifecycleGeneration + 1 }

def heldFor (generation : Nat) (token : Text) : Option SessionMetadata :=
  if client.lifecycleGeneration = generation ∧ client.activeToken = some token then
    client.metadata
  else none

mutual

def expireLocalSession (generation : Nat) (token : Text) :
    List Int → SessionClient → Option SessionClient
  | [], _ => none
  | now :: later, client =>
    match client.heldFor generation token with
    | none => some client
    | some metadata =>
      if metadata.expiresAtMs > now then scheduleExpiry generation token later client
      else some client.endGeneration

def scheduleExpiry (generation : Nat) (token : Text) :
    List Int → SessionClient → Option SessionClient
  | [], _ => none
  | now :: later, client =>
    match client.heldFor generation token with
    | none => some { client with expiryTimer := none }
    | some metadata =>
      if metadata.expiresAtMs - now ≤ 0 then
        expireLocalSession generation token later { client with expiryTimer := none }
      else some { client with expiryTimer := some (generation, token) }

end

def send (request : SentRequest) : SessionClient := { client with sent := client.sent ++ [request] }

def await (call : SessionCall) : SessionClient :=
  { client with
    calls := Function.update client.calls client.made (some call)
    made := client.made + 1 }

def settle (id : Nat) : SessionClient :=
  { client with calls := Function.update client.calls id none }

def create : SessionClient :=
  if client.activeToken.isSome ∧ client.metadata.isSome then client
  else if client.createOperation.map Prod.snd = some client.lifecycleGeneration then client
  else
    { (client.send .creation).await (.create client.lifecycleGeneration) with
      createOperation := some (client.made, client.lifecycleGeneration) }

def current : SessionClient :=
  match client.activeToken with
  | none => client
  | some token => (client.send (.check token)).await (.current client.lifecycleGeneration token)

def revoke : SessionClient :=
  match client.activeToken with
  | none => client.endGeneration
  | some token =>
    (client.endGeneration.send (.revocation token)).await (.revoke (client.lifecycleGeneration + 1))

def attachSessionHeader : Option SessionClient :=
  client.activeToken.map fun token => client.send (.payload token)

/-- The `finally` clause of `create`. -/
def finishCreate (id : Nat) : SessionClient :=
  { client.settle id with
    createOperation := client.createOperation.filter fun operation => operation.1 ≠ id }

def discard (id generation : Nat) (token : Text) : SessionClient :=
  { client.send (.revocation token) with
    calls := Function.update client.calls id (some (.discard generation)) }

variable (dateParse : Text → Option Int)

/-- The token and the metadata that `create` takes from its answer. -/
def newSession (answer : Option SessionPayload) : Option (Text × SessionMetadata) := do
  let session ← answer
  let metadata ← validateMetadata dateParse true session
  let token ← session.token
  return (token, metadata)

def answerCreate (id generation : Nat) (answer : Option SessionPayload) (now : Int)
    (readings : List Int) : Option SessionClient :=
  match newSession dateParse answer with
  | none =>
    if client.lifecycleGeneration = generation then some (client.clearLocalSession.finishCreate id)
    else some (client.finishCreate id)
  | some (token, metadata) =>
    if client.lifecycleGeneration ≠ generation then some (client.discard id generation token)
    else if metadata.expiresAtMs ≤ now then
      some (client.endGeneration.discard id generation token)
    else
      (scheduleExpiry generation token readings
        { client with activeToken := some token, metadata := some metadata }).map
          fun scheduled => scheduled.finishCreate id

def answerCurrent (generation : Nat) (secret : Text) (answer : Option SessionPayload)
    (now : Int) (readings : List Int) : Option SessionClient :=
  if client.lifecycleGeneration = generation ∧ client.activeToken = some secret then
    match answer.bind (validateMetadata dateParse false) with
    | none => some client.endGeneration
    | some metadata =>
      if metadata.expiresAtMs ≤ now then some client.endGeneration
      else scheduleExpiry generation secret readings { client with metadata := some metadata }
  else some client

end SessionClient

open SessionClient

def sessionStep (dateParse : Text → Option Int) : EventMachine.Machine SessionClient SessionEvent
  | client, .create => some client.create
  | client, .current => some client.current
  | client, .revoke => some client.revoke
  | client, .attachSessionHeader => client.attachSessionHeader
  | client, .expired readings =>
    match client.expiryTimer with
    | none => none
    | some (generation, token) =>
      expireLocalSession generation token readings { client with expiryTimer := none }
  | client, .answered id answer now readings =>
    match client.calls id with
    | none => none
    | some (.create generation) => client.answerCreate dateParse id generation answer now readings
    | some (.discard _) => some (client.finishCreate id)
    | some (.current generation secret) =>
      (client.settle id).answerCurrent dateParse generation secret answer now readings
    | some (.revoke _) => some (client.settle id)

end XFerry.Ui
