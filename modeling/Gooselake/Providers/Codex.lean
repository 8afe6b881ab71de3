import Gooselake.Core.Provider
import Gooselake.Library.Exec
import Gooselake.Library.Table

/-!
The Codex adapter. A turn is one `codex` process; which conversation it continues is decided by the
session's reference when the process is spawned, and the thread id the process reported is taken over
when it has ended.
-/

namespace Gooselake.Providers

open Gooselake.Core Data Library Library.Exec

set_option autoImplicit false

structure PendingApprovalTurn where
  turnId : String
  input : List Json
  expectedTurnId : Option String
  permissionMode : Option String
  deriving DecidableEq, Repr

structure CodexSessionState where
  providerSessionRef : String
  canonicalProviderSessionRef : Option String
  cwd : Option String
  model : Option String
  permissionMode : Option String
  activeTurns : List String
  pendingApprovals : Table String PendingApprovalTurn
  completedTurns : Table String ProviderTurnResult
  /-- The receivers that wait for a turn, by number. -/
  waiters : Table String (List ℕ)

/-- What a `codex` process was started with; `resumes` is the reference behind `exec resume`. -/
structure CodexProcess where
  runtimeSessionId : String
  turnId : String
  resumes : Option String
  input : List Json
  model : Option String
  permissionMode : Option String
  cwd : Option String
  exited : Bool
  deriving DecidableEq, Repr

structure Codex where
  sessions : Table String CodexSessionState
  processes : List CodexProcess

abbrev CodexM : Type → Type := Exec Codex RuntimeError

namespace Codex

def new : Codex := ⟨∅, []⟩

def isPlaceholderProviderRef (providerSessionRef : String) : Bool := startsWith "runtime:" providerSessionRef

def resumedRef (providerSessionRef : String) : Option String :=
  if isPlaceholderProviderRef providerSessionRef then none else some providerSessionRef

/-- `CodexSessionState::default()`. -/
def defaultState : CodexSessionState := ⟨"", none, none, none, none, [], ∅, ∅, ∅⟩

def getSession (runtimeSessionId : String) : CodexM CodexSessionState := do
  orThrow ((← get).sessions.lookup runtimeSessionId) (.notFound s!"codex session {runtimeSessionId}")

def putSession (runtimeSessionId : String) (session : CodexSessionState) : CodexM Unit :=
  modify fun c => { c with sessions := c.sessions.insert runtimeSessionId session }

/-! ## Sessions -/

def createdState (req : ProviderCreateSessionRequest) : CodexSessionState :=
  { defaultState with
    providerSessionRef := s!"runtime:{req.runtimeSessionId}"
    cwd := req.cwd
    model := req.model
    permissionMode := req.permissionMode }

def createSession (req : ProviderCreateSessionRequest) : CodexM ProviderSession := do
  let state := createdState req
  putSession req.runtimeSessionId state
  return ⟨req.runtimeSessionId, state.providerSessionRef, state.canonicalProviderSessionRef⟩

def resumedState (req : ProviderResumeSessionRequest) (session : CodexSessionState) : CodexSessionState :=
  { session with
    providerSessionRef := req.providerSessionRef
    canonicalProviderSessionRef := req.canonicalProviderSessionRef
    cwd := req.cwd }

def resumeSession (req : ProviderResumeSessionRequest) : CodexM ProviderSession := do
  let session := ((← get).sessions.lookup req.runtimeSessionId).getD defaultState
  putSession req.runtimeSessionId (resumedState req session)
  return ⟨req.runtimeSessionId, req.providerSessionRef, req.canonicalProviderSessionRef⟩

def closeSession (req : ProviderCloseSessionRequest) : CodexM Unit :=
  modify fun c => { c with sessions := c.sessions.erase req.runtimeSessionId }

/-! ## Turns -/

/-- `spawned` is the outcome of starting the process. -/
def spawnTurn (runtimeSessionId turnId : String) (input : List Json) (session : CodexSessionState)
    (spawned : Except RuntimeError Unit) : CodexM Unit := do
  ofExcept spawned
  modify fun c => { c with processes := c.processes ++ [
    { runtimeSessionId := runtimeSessionId, turnId := turnId,
      resumes := resumedRef session.providerSessionRef, input := input, model := session.model,
      permissionMode := session.permissionMode, cwd := session.cwd, exited := false }] }

def activate (turnId : String) (session : CodexSessionState) : CodexSessionState :=
  { session with activeTurns := turnId :: session.activeTurns }

def sendTurn (req : ProviderSendTurnRequest) (spawned : Except RuntimeError Unit) : CodexM ProviderTurnAck := do
  let session ← getSession req.runtimeSessionId
  if session.activeTurns ≠ [] ∨ session.pendingApprovals.keys ≠ [] then
    throw (.invalidState s!"codex session {req.runtimeSessionId} already has an active turn")
  match req.approvalId with
  | some approvalId =>
    putSession req.runtimeSessionId { session with
      pendingApprovals := session.pendingApprovals.insert approvalId
        ⟨req.turnId, req.input, req.expectedTurnId, req.permissionMode⟩ }
  | none =>
    spawnTurn req.runtimeSessionId req.turnId req.input session spawned
    putSession req.runtimeSessionId (activate req.turnId session)
  return ⟨req.runtimeSessionId, req.turnId⟩

def completedState (turnId : String) (result : ProviderTurnResult) (providerSessionRef : Option String)
    (session : CodexSessionState) : CodexSessionState :=
  { session with
    activeTurns := session.activeTurns.erase turnId
    pendingApprovals := session.pendingApprovals.eraseAll (session.pendingApprovals.keys.filter fun approvalId =>
      (session.pendingApprovals.lookup approvalId).any fun pending => pending.turnId = turnId)
    providerSessionRef := providerSessionRef.getD session.providerSessionRef
    canonicalProviderSessionRef :=
      if providerSessionRef.isSome then none else session.canonicalProviderSessionRef
    completedTurns := session.completedTurns.insert turnId result
    waiters := session.waiters.erase turnId }

def completeTurn (runtimeSessionId turnId : String) (result : ProviderTurnResult)
    (providerSessionRef : Option String) : CodexM (List ℕ) := do
  match (← get).sessions.lookup runtimeSessionId with
  | none => return []
  | some session =>
    putSession runtimeSessionId (completedState turnId result providerSessionRef session)
    return (session.waiters.lookup turnId).getD []

def declinedResult (req : ProviderApprovalResponseRequest) : ProviderTurnResult :=
  ⟨req.runtimeSessionId, req.turnId, .interrupted, none, some (.obj [("message", .str "approval declined")])⟩

def respondApproval (req : ProviderApprovalResponseRequest) (spawned : Except RuntimeError Unit) : CodexM Unit := do
  let decision ← ofExcept (ApprovalDecision.parse req.decision)
  match decision with
  | .decline =>
    let _ ← completeTurn req.runtimeSessionId req.turnId (declinedResult req) none
  | .accept =>
    let session ← getSession req.runtimeSessionId
    let pending ← orThrow (session.pendingApprovals.lookup req.approvalId) (.notFound s!"approval {req.approvalId}")
    if pending.turnId ≠ req.turnId then
      throw (.protocolViolation s!"approval {req.approvalId} turn mismatch (expected={pending.turnId}, actual={req.turnId})")
    spawnTurn req.runtimeSessionId pending.turnId pending.input session spawned
    putSession req.runtimeSessionId (activate pending.turnId
      { session with pendingApprovals := session.pendingApprovals.erase req.approvalId })

/-! ## The end of a process -/

/-- Process `n` ends after it named the thread `threadId`, if it did. -/
def processEnds (n : ℕ) (process : CodexProcess) (threadId : Option String) (result : ProviderTurnResult) :
    CodexM Unit := do
  modify fun c => { c with processes := c.processes.set n { process with exited := true } }
  let _ ← completeTurn process.runtimeSessionId process.turnId result threadId

end Codex

end Gooselake.Providers
