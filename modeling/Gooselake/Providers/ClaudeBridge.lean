import Gooselake.Library.Exec
import Gooselake.Library.Numbered
import Gooselake.Library.Table

/-!
The Claude bridge process: its sessions, held under ids it counts itself, and the turn loops that run
on them. A turn is accepted first and its query created later; the query resumes what the session
refers to at that moment.
-/

namespace Gooselake.Providers

open Gooselake.Library Library.Exec

set_option autoImplicit false

inductive BridgeErrorCode where
  | badRequest
  | sessionNotFound
  | turnInProgress
  deriving DecidableEq, Repr

def BridgeErrorCode.asStr : BridgeErrorCode → String
  | .badRequest => "BAD_REQUEST"
  | .sessionNotFound => "SESSION_NOT_FOUND"
  | .turnInProgress => "TURN_IN_PROGRESS"

structure BridgeError where
  code : BridgeErrorCode
  message : String
  deriving DecidableEq, Repr

structure SessionState where
  /-- `options.ggMcpServer.callerAgentId`: the runtime session the bridge session was made for. -/
  callerAgentId : String
  providerSessionRef : String
  sdkSessionRef : Option String
  activeTurnId : Option String
  starting : ℕ
  queried : Bool
  deriving DecidableEq, Repr

structure Bridge where
  sessions : Table String SessionState
  nextSession : ℕ
  nextTurn : ℕ

/-- What `session.create` and `session.resume` answer. -/
structure BridgeSession where
  sessionId : String
  providerSessionRef : String
  claudeCanonicalSessionRef : Option String
  deriving DecidableEq, Repr

abbrev BridgeM : Type → Type := Exec Bridge BridgeError

namespace Bridge

def new : Bridge := ⟨∅, 1, 1⟩

def asOptionalString (value : Option String) : Option String := value.filter (· ≠ "")

def ensureString (value field : String) : BridgeM String :=
  if value = "" then throw ⟨.badRequest, s!"Invalid or missing string field: {field}"⟩ else return value

def requireSession (sessionId : String) : BridgeM SessionState := do
  orThrow ((← get).sessions.lookup sessionId) ⟨.sessionNotFound, s!"Session not found: {sessionId}"⟩

def putSession (sessionId : String) (session : SessionState) : BridgeM Unit :=
  modify fun b => { b with sessions := b.sessions.insert sessionId session }

/-- The id `session.create` gives next. -/
def nextSessionId (b : Bridge) : String := numbered "claude_sess" b.nextSession

/-- `session.create`: a session that may be there under the next id is replaced. -/
def createSession (callerAgentId : String) : BridgeM BridgeSession := do
  let sessionId := nextSessionId (← get)
  modify fun b => { b with nextSession := b.nextSession + 1 }
  putSession sessionId ⟨callerAgentId, sessionId, none, none, 0, false⟩
  return ⟨sessionId, sessionId, none⟩

/-- `session.resume`: the session's id is the reference itself. The loops of a session that is there
already go on. -/
def resumeSession (callerAgentId providerSessionRef : String) (claudeCanonicalSessionRef : Option String) :
    BridgeM BridgeSession := do
  let sessionId ← ensureString providerSessionRef "providerSessionRef"
  let canonicalSessionRef := (asOptionalString claudeCanonicalSessionRef).getD sessionId
  match (← get).sessions.lookup sessionId with
  | none => putSession sessionId ⟨callerAgentId, sessionId, some canonicalSessionRef, none, 0, false⟩
  | some state =>
    putSession sessionId { state with
      callerAgentId := callerAgentId
      providerSessionRef := sessionId
      sdkSessionRef := some canonicalSessionRef
      activeTurnId := none }
  return ⟨sessionId, sessionId, some canonicalSessionRef⟩

/-- `session.send`: an active turn takes the input when it is the expected one. -/
def sendInput (sessionId : String) (expectedTurnId : Option String) : BridgeM String := do
  let session ← requireSession sessionId
  match session.activeTurnId with
  | some active =>
    if asOptionalString expectedTurnId = some active then return active
    else throw ⟨.turnInProgress, s!"Turn already active in {sessionId}"⟩
  | none =>
    let b ← get
    let turnId := expectedTurnId.getD (numbered "turn" b.nextTurn)
    modify fun b => { b with nextTurn := if expectedTurnId.isSome then b.nextTurn else b.nextTurn + 1 }
    putSession sessionId { session with activeTurnId := some turnId, starting := session.starting + 1 }
    return turnId

/-- `session.close` -/
def closeSession (sessionId : String) : BridgeM Unit := do
  let _ ← requireSession sessionId
  modify fun b => { b with sessions := b.sessions.erase sessionId }

/-! ## Turn loops -/

def resumedRef (session : SessionState) : Option String := asOptionalString session.sdkSessionRef

def queryCreated (session : SessionState) : SessionState :=
  { session with starting := session.starting - 1, queried := true }

/-- `updateSessionSdkRef` -/
def sdkRefUpdated (sdkSessionId : String) (session : SessionState) : SessionState :=
  { session with sdkSessionRef := some sdkSessionId }

def turnCompleted (session : SessionState) : SessionState := { session with activeTurnId := none }

end Bridge

end Gooselake.Providers
