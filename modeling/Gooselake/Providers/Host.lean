import Gooselake.Providers.Claude
import Gooselake.Providers.Codex
import Gooselake.Runtime.Process

/-!
The runtime with its Codex and Claude adapters. A call that awaits one of them is answered by the
adapter's own code; what the agents themselves do, and what gets lost on the way, is up to the
environment. The host also keeps what an observer of the providers sees: the conversation reference
each session's provider reported last, and the launches of turns.
-/

namespace Gooselake.Providers

open Gooselake.Core Gooselake.Runtime Data Library Library.Exec

set_option autoImplicit false

/-! ## The adapters together -/

structure Adapters where
  codex : Codex
  claude : Claude

abbrev AdaptersM : Type → Type := Exec Adapters RuntimeError

def Adapters.new : Adapters := ⟨Codex.new, Claude.new⟩

def onCodex {α : Type} : CodexM α → AdaptersM α := zoom Adapters.codex fun c a => { a with codex := c }

def onClaude {α : Type} : ClaudeM α → AdaptersM α := zoom Adapters.claude fun c a => { a with claude := c }

/-- The providers whose adapters are here; the others answer as the environment says. -/
inductive Agent where
  | codex
  | claude
  deriving DecidableEq, Repr

def Agent.ofKind : ProviderKind → Option Agent
  | .codex => some .codex
  | .claude => some .claude
  | .acp => none

/-- Whether a `codex` process could be spawned. -/
def Transit.spawned (t : Transit) : Except RuntimeError Unit :=
  match t.lost with
  | none => .ok ()
  | some e => .error e

def Agent.createSession (agent : Agent) (req : ProviderCreateSessionRequest) (t : Transit) :
    AdaptersM ProviderSession :=
  match agent with
  | .codex => onCodex (Codex.createSession req)
  | .claude => onClaude (Claude.createSession req t)

def Agent.resumeSession (agent : Agent) (req : ProviderResumeSessionRequest) (t : Transit) :
    AdaptersM ProviderSession :=
  match agent with
  | .codex => onCodex (Codex.resumeSession req)
  | .claude => onClaude (Claude.resumeSession req t)

def Agent.sendTurn (agent : Agent) (req : ProviderSendTurnRequest) (t : Transit) : AdaptersM ProviderTurnAck :=
  match agent with
  | .codex => onCodex (Codex.sendTurn req t.spawned)
  | .claude => onClaude (Claude.sendTurn req t)

def Agent.closeSession (agent : Agent) (req : ProviderCloseSessionRequest) (t : Transit) : AdaptersM Unit :=
  match agent with
  | .codex => onCodex (Codex.closeSession req)
  | .claude => onClaude (Claude.closeSession req t)

structure Transits where
  first : Transit
  resume : Transit
  resend : Transit
  deriving DecidableEq, Repr

def resumeRequestOf (c : SendCall) (ref : String) : ProviderResumeSessionRequest :=
  ⟨c.sessionId, ref, c.session.canonicalProviderSessionRef, c.session.cwd, some c.session.metadata⟩

/-- `dispatch_send_turn_with_resume_fallback` over the adapter. -/
def Agent.dispatch (agent : Agent) (registered : Bool) (c : SendCall) (t : Transits) : AdaptersM ProviderTurnAck := do
  if !registered then throw (.providerNotRegistered c.providerKind.asStr)
  match ← attempt (agent.sendTurn c.request t.first) with
  | .ok ack => return ack
  | .error (.notFound _) =>
    let ref ← orThrow c.session.providerSessionRef
      (.notFound s!"provider session {c.sessionId} was not found and cannot be resumed")
    let _ ← agent.resumeSession (resumeRequestOf c ref) t.resume
    agent.sendTurn c.request t.resend
  | .error e => throw e

def agentOf (m : Manager) : Call → Option Agent
  | .create c => Agent.ofKind c.input.provider
  | .resume c => (ProviderKind.fromStr c.session.provider).bind Agent.ofKind
  | .send c => Agent.ofKind c.providerKind
  | .close sessionId _ =>
    ((m.sessions.lookup sessionId).bind fun session => ProviderKind.fromStr session.provider).bind Agent.ofKind
  | .respond _ c => if c.providerKind = .codex then some .codex else none
  | _ => none

def handle (m : Manager) (agent : Agent) (t : Transits) : Call → AdaptersM Answer
  | .create c => do return .session (← attempt (agent.createSession c.request t.first))
  | .resume c => do return .session (← attempt (agent.resumeSession c.request t.first))
  | .send c => do return .ack (← attempt (agent.dispatch (c.providerKind ∈ m.providers) c t))
  | .close sessionId reason => do return .done (← attempt (agent.closeSession ⟨sessionId, some reason⟩ t.first))
  | .respond approvalId c => do
    return .done (← attempt (onCodex (Codex.respondApproval (c.request approvalId) t.first.spawned)))
  | _ => return .lock

/-! ## The host -/

structure Conversation where
  agent : Agent
  ref : String
  deriving DecidableEq, Repr

/-- A turn handed to the agent: the conversation it was told to resume and, when it is the session's first
since a restart, the conversation that had been reported before. -/
structure Launch where
  sessionId : String
  resumes : Option Conversation
  awaited : Option Conversation
  deriving DecidableEq, Repr

structure Host where
  server : Server
  adapters : Adapters
  replies : Table ℕ Answer
  reported : Table String Conversation
  /-- What had been reported before the restart, for the sessions without a launch since. -/
  awaited : Table String Conversation
  launches : List Launch

inductive Deed where
  | serve (l : Label)
  /-- the adapter call `i` awaits handles its request -/
  | ask (i : ℕ) (t : Transits)
  /-- call `i` goes on with the adapter's answer -/
  | reply (i : ℕ)
  | codexEnds (n : ℕ) (threadId : Option String) (result : ProviderTurnResult)
  | queryCreated (bridge : ℕ) (bridgeSessionId : String)
  /-- a message of the agent carries its session id, and the bridge emits `session.updated` -/
  | sessionUpdated (bridge : ℕ) (bridgeSessionId sdkSessionId : String)
  | turnCompleted (bridge : ℕ) (bridgeSessionId : String)
  | bridgeFails (bridge : ℕ)
  /-- a change of the credentials drops the Claude sessions and bridges -/
  | recycle
  /-- the runtime is restarted and recovers; `answers` is what the providers without an adapter here say -/
  | restart (providers : List ProviderKind) (answers : RecoveryAnswers) (t : String → Transit)

namespace Host

def start (providers : List ProviderKind) (faults : List Bool) : Host :=
  ⟨Server.start (Manager.empty providers faults), Adapters.new, ∅, ∅, ∅, []⟩

/-! ### What the observer sees -/

def launch (h : Host) (agent : Agent) (sessionId : String) (resumes : Option String) : Host :=
  { h with
    launches := h.launches ++ [⟨sessionId, resumes.map (Conversation.mk agent), h.awaited.lookup sessionId⟩]
    awaited := h.awaited.erase sessionId }

def went (h : Host) (a : Adapters) : Host :=
  (a.codex.processes.drop h.adapters.codex.processes.length).foldl
    (fun h p => h.launch .codex p.runtimeSessionId p.resumes) { h with adapters := a }

def report (h : Host) (agent : Agent) (sessionId : String) (ref : Option String) : Host :=
  match ref with
  | none => h
  | some ref => { h with reported := h.reported.insert sessionId ⟨agent, ref⟩ }

def created (h : Host) (c : Call) : Host :=
  match c with
  | .create c => { h with reported := h.reported.erase c.sessionId, awaited := h.awaited.erase c.sessionId }
  | _ => h

def begun (h : Host) : Label → Host
  | .goOn i _ => (h.server.calls.lookup i).elim h h.created
  | _ => h

/-! ### The agents -/

def bridgeSession (h : Host) (bridge : ℕ) (bridgeSessionId : String) : Option SessionState :=
  (h.adapters.claude.bridges.lookup bridge).bind fun b => b.sessions.lookup bridgeSessionId

def setBridgeSession (h : Host) (bridge : ℕ) (bridgeSessionId : String) (session : SessionState) : Host :=
  { h with adapters := { h.adapters with claude := { h.adapters.claude with
    bridges := h.adapters.claude.bridges.update bridge fun b =>
      { b with sessions := b.sessions.insert bridgeSessionId session } } } }

/-- The session a bridge session's turns and events belong to: the one mapped to it, else the one it was
made for. -/
def ownerOf (h : Host) (bridge : ℕ) (bridgeSessionId : String) (session : SessionState) : String :=
  (h.adapters.claude.sessions.keys.find? fun k => (h.adapters.claude.sessions.lookup k).any fun s =>
    s.bridge = bridge && s.bridgeSessionId = bridgeSessionId).getD session.callerAgentId

/-- `handle_bridge_event` of a `session.updated`: the mapped handle takes the references over. -/
def handleSessionUpdated (sdkSessionId : String) (session : SessionState) (s : ClaudeSessionHandle) :
    ClaudeSessionHandle :=
  { s with
    providerSessionRef := session.providerSessionRef
    canonicalProviderSessionRef := (trimmedNonEmpty sdkSessionId).or s.canonicalProviderSessionRef }

def setHandle (h : Host) (sessionId : String) (f : ClaudeSessionHandle → ClaudeSessionHandle) : Host :=
  { h with adapters := { h.adapters with claude := { h.adapters.claude with
    sessions := h.adapters.claude.sessions.update sessionId f } } }

/-! ### Restarts -/

def recoveryRequest (m : Manager) (session : SessionRecord) : Option (Agent × ProviderResumeSessionRequest) :=
  if isClosedOrFailed session.status then none else do
    let ref ← session.providerSessionRef
    let kind ← ProviderKind.fromStr session.provider
    let agent ← Agent.ofKind kind
    if kind ∈ m.providers then
      some (agent, ⟨session.id, ref, session.canonicalProviderSessionRef, session.cwd, some session.metadata⟩)
    else none

def recoveryRequests (m : Manager) : List (Agent × ProviderResumeSessionRequest) :=
  m.sessions.values.filterMap (recoveryRequest m)

def resumeAll (t : String → Transit) : List (Agent × ProviderResumeSessionRequest) → Adapters →
    Adapters × Table String (Except RuntimeError ProviderSession)
  | [], a => (a, ∅)
  | (agent, req) :: rest, a =>
    let r := (agent.resumeSession req (t req.runtimeSessionId)).result a
    let (a', answered) := resumeAll t rest r.2
    (a', answered.insert req.runtimeSessionId r.1)

def answersWith (answered : Table String (Except RuntimeError ProviderSession)) (answers : RecoveryAnswers) :
    RecoveryAnswers where
  healthcheck := answers.healthcheck
  resume req := (answered.lookup req.runtimeSessionId).getD (answers.resume req)

def closedIds (store : Store) : List String :=
  (store.sessions.filter fun r => r.status = .closed).map SessionRecord.id

def restarted (h : Host) (providers : List ProviderKind) (answers : RecoveryAnswers) (t : String → Transit) : Host :=
  let store := h.server.manager.store
  let m := Manager.new store providers h.server.manager.clock
  let (a, answered) := resumeAll t (recoveryRequests m) Adapters.new
  { server := Server.start ((recoverStartup (answersWith answered answers)).result m).2
    adapters := a
    replies := ∅
    reported := h.reported
    awaited := h.reported.eraseAll (closedIds store)
    launches := h.launches }

/-! ### Steps -/

def callOf : Label → Option ℕ
  | .start i _ | .goOn i _ | .waitFailed _ i _ => some i
  | _ => none

def asksAdapter (h : Host) : Label → Bool
  | .goOn i _ => (h.server.calls.lookup i).any fun c => (agentOf h.server.manager c).isSome
  | _ => false

def step : Deed → Host → Option Host
  | .serve l, h =>
    if h.asksAdapter l || (callOf l).any (· ∈ h.replies) then none
    else (h.server.step l).map fun s => { h.begun l with server := s }
  | .ask i t, h => do
    let c ← h.server.calls.lookup i
    let agent ← agentOf h.server.manager c
    if i ∈ h.replies then none else
      let r := (handle h.server.manager agent t c).result h.adapters
      let answer ← r.1.toOption
      let h := (h.created c).went r.2
      some { h with replies := h.replies.insert i answer }
  | .reply i, h => do
    let answer ← h.replies.lookup i
    let s ← h.server.step (.goOn i answer)
    some { h with server := s, replies := h.replies.erase i }
  | .codexEnds n threadId result, h => do
    let p ← h.adapters.codex.processes[n]?
    if p.exited then none else
      let a := ((onCodex (Codex.processEnds n p threadId result)).result h.adapters).2
      some ({ h with adapters := a }.report .codex p.runtimeSessionId threadId)
  | .queryCreated bridge bridgeSessionId, h => do
    let session ← h.bridgeSession bridge bridgeSessionId
    if session.starting = 0 then none else
      some ((h.setBridgeSession bridge bridgeSessionId (Bridge.queryCreated session)).launch .claude
        (h.ownerOf bridge bridgeSessionId session) (Bridge.resumedRef session))
  | .sessionUpdated bridge bridgeSessionId sdkSessionId, h => do
    let session ← h.bridgeSession bridge bridgeSessionId
    if !session.queried || sdkSessionId = "" || session.sdkSessionRef = some sdkSessionId then none else
      let owner := h.ownerOf bridge bridgeSessionId session
      some (((h.setBridgeSession bridge bridgeSessionId (Bridge.sdkRefUpdated sdkSessionId session)).setHandle owner
        (handleSessionUpdated sdkSessionId session)).report .claude owner (trimmedNonEmpty sdkSessionId))
  | .turnCompleted bridge bridgeSessionId, h => do
    let session ← h.bridgeSession bridge bridgeSessionId
    some (h.setBridgeSession bridge bridgeSessionId (Bridge.turnCompleted session))
  | .bridgeFails bridge, h =>
    some { h with adapters := { h.adapters with claude := { h.adapters.claude with
      bridges := h.adapters.claude.bridges.erase bridge } } }
  | .recycle, h =>
    some { h with adapters := { h.adapters with claude := { h.adapters.claude with bridges := ∅, sessions := ∅ } } }
  | .restart providers answers t, h => some (h.restarted providers answers t)

end Host

end Gooselake.Providers
