import Gooselake.Providers.Codex
import Gooselake.Library.Runs

/-!
The ACP adapter. One agent process serves every session over a connection; a turn is a `session/prompt`
request, and what the agent has to say meanwhile arrives as `session/update` notifications that name the
session only. The calls, the tasks that carry the prompts, the readers of the connections and the agents
take turns; every step is one section under a lock of the source. The text of a prompt is for the agent
alone and is left out, as are the waiters for a result and what the agent writes to its error output.
-/

namespace Gooselake.Providers.Acp

open Gooselake.Core Data Library

set_option autoImplicit false

/-! ## What a turn collects -/

/-- What the updates of a turn leave in its `AcpActiveTurnState`. -/
structure Collected where
  assistantChunks : List String
  lastMessageId : Option String
  usageUpdate : Option Json
  toolCalls : Table String Json

def Collected.empty : Collected := ⟨[], none, none, ∅⟩

/-- The text of an `agent_message_chunk`. -/
def chunkText (update : Json) : Option String :=
  match update.get? "content" with
  | some content =>
    if (content.get? "type").bind Json.asStr = some "text" then (content.get? "text").bind Json.asStr else none
  | none => none

def Collected.separate (c : Collected) (messageId : Option String) : Collected :=
  match messageId with
  | none => c
  | some messageId =>
    { c with
      assistantChunks :=
        if (c.lastMessageId.any fun current => current ≠ messageId) && !c.assistantChunks.isEmpty then
          c.assistantChunks ++ ["\n\n"]
        else c.assistantChunks
      lastMessageId := some messageId }

def updateKind (update : Json) : Option String := (update.get? "sessionUpdate").bind Json.asStr

/-- The second half of `apply_session_update`. -/
def Collected.apply (c : Collected) (update : Json) : Collected :=
  match updateKind update with
  | some "agent_message_chunk" =>
    match chunkText update with
    | none => c
    | some text =>
      let c' := c.separate ((update.get? "messageId").bind Json.asStr)
      { c' with assistantChunks := c'.assistantChunks ++ [text] }
  | some "usage_update" => { c with usageUpdate := some update }
  | some "tool_call" | some "tool_call_update" =>
    match (update.get? "toolCallId").bind Json.asStr with
    | none => c
    | some toolCallId => { c with toolCalls := c.toolCalls.insert toolCallId update }
  | _ => c

def Collected.assistantText (c : Collected) : Option String := trimmedNonEmpty (String.join c.assistantChunks)

def Collected.toolCallValues (c : Collected) : List Json := c.toolCalls.sortedValues fun a b => decide (a ≤ b)

def collect (updates : List Json) : Collected := updates.foldl Collected.apply .empty

def isOutput (update : Json) : Bool :=
  updateKind update ∈ [some "agent_message_chunk", some "usage_update", some "tool_call", some "tool_call_update"]

theorem Collected.apply_of_not_output (c : Collected) {update : Json} (h : isOutput update = false) :
    c.apply update = c := by
  simp only [isOutput, List.mem_cons, List.not_mem_nil, or_false, decide_eq_false_iff_not, not_or] at h
  unfold Collected.apply
  split <;> simp_all

/-! ## Results -/

def promptStatus (stopReason : Option String) : ProviderTurnStatus :=
  match stopReason with
  | some "cancelled" => .interrupted
  | some "end_turn" => .completed
  | some "max_tokens" | some "max_turn_requests" | some "refusal" => .failed
  | some _ => .failed
  | none => .failed

def promptUsage (stopReason assistantText : Option String) (usageUpdate : Option Json) (toolCalls : List Json) :
    List (String × Json) :=
  (stopReason.toList.map fun reason => ("stop_reason", .str reason)) ++
    (assistantText.toList.flatMap fun text => [("assistant_text", .str text), ("last_message", .str text)]) ++
    (usageUpdate.toList.map fun update => ("usage_update", update)) ++
    if toolCalls = [] then [] else [("tool_calls", .arr toolCalls)]

def promptError (status : ProviderTurnStatus) (stopReason : Option String) (payload : Json) : Option Json :=
  match status, stopReason with
  | .failed, some reason =>
    if reason = "cancelled" then none
    else some (.obj [("message", .str s!"acp turn stopped with unsupported or failed stop reason '{reason}'")])
  | .failed, none =>
    some (.obj [("message", .str "acp prompt response missing stopReason"), ("raw", payload)])
  | _, _ => none

/-- What `build_prompt_result` makes of the values it has read. -/
def promptResult (runtimeSessionId turnId : String) (payload : Json) (assistantText : Option String)
    (usageUpdate : Option Json) (toolCalls : List Json) : ProviderTurnResult :=
  let stopReason := (payload.get? "stopReason").bind Json.asStr
  let status := promptStatus stopReason
  let usage := promptUsage stopReason assistantText usageUpdate toolCalls
  { runtimeSessionId := runtimeSessionId
    turnId := turnId
    status := status
    usage := if usage = [] then none else some (.obj usage)
    error := promptError status stopReason payload }

def messageResult (runtimeSessionId turnId : String) (status : ProviderTurnStatus) (message : String) :
    ProviderTurnResult :=
  ⟨runtimeSessionId, turnId, status, none, some (.obj [("message", .str message)])⟩

/-! ## Connections -/

/-- A `session/update` with what an observer of the agent knows: the prompt it is output of, and the prompts
of the session that were not answered when it was sent. -/
structure Update where
  ref : String
  body : Json
  outputOf : ℕ
  during : List ℕ
  deriving DecidableEq, Repr

inductive Reply where
  | error (message : String)
  | result (value : Json)
  | neither
  deriving DecidableEq, Repr

def Reply.outcome (request : ℕ) : Reply → Except RuntimeError Json
  | .error message => .error (.protocolViolation s!"acp request {request} failed: {message}")
  | .result value => .ok value
  | .neither => .error (.protocolViolation s!"acp response {request} missing result and error")

/-- What the reader takes off the agent's output. A notification carries no id, so it answers no request. -/
inductive Line where
  | update (u : Update)
  | requestPermission (ref : Option String)
  | response (request : ℕ) (reply : Reply)
  | other
  /-- the end of the output, a failure to read it or a line that is no JSON, with the error it is reported as -/
  | broken (error : RuntimeError)
  deriving DecidableEq, Repr

inductive Reader where
  | idle
  /-- `apply_session_update` has cloned the state of a turn -/
  | applying (turn : ℕ) (u : Update)
  /-- `fail_permission_request` has found the turn it is about -/
  | failing (runtimeSessionId turnId : String)
  /-- out of the loop, before `reap_connection_if_current_and_closed` -/
  | left
  /-- in `shutdown_connection` -/
  | reaping
  | stopped
  deriving DecidableEq, Repr

structure AcpConnection where
  closed : Bool
  nextRequestId : ℕ
  /-- The prompts that wait for a response, with the turn whose task waits. -/
  pendingRequests : Table ℕ ℕ
  stream : List Line
  reader : Reader
  /-- The agent's side: the prompts it has received and not answered, with the session they name. -/
  openPrompts : List (ℕ × String)
  sent : List Update

/-- A connection whose `initialize` request was answered, or never will be. -/
def AcpConnection.spawned (closed : Bool) : AcpConnection := ⟨closed, 2, ∅, [], .idle, [], []⟩

/-! ## Turns and sessions -/

structure ActiveTurn where
  runtimeTurnId : String
  turn : ℕ
  deriving DecidableEq, Repr

inductive Point where
  /-- before `ensure_connection` -/
  | connecting
  /-- in `send_request`, before it looks whether the connection is closed -/
  | connected (connection : ℕ)
  | unclosed (connection : ℕ)
  /-- the request is registered and not yet written -/
  | registered (connection request : ℕ)
  | waiting (connection request : ℕ)
  /-- in `build_prompt_result`, with the turn found active -/
  | located (payload : Json) (found : Option ActiveTurn)
  | textRead (payload : Json) (found : Option ActiveTurn) (assistantText : Option String)
  | usageRead (payload : Json) (found : Option ActiveTurn) (assistantText : Option String) (usageUpdate : Option Json)
  /-- before `complete_turn`, with the turn the result was built from -/
  | completing (result : ProviderTurnResult) (found : Option ActiveTurn)
  | done
  deriving DecidableEq, Repr

/-- An `AcpActiveTurnState` together with the task that `execute_turn` has spawned for it. -/
structure Turn where
  runtimeSessionId : String
  runtimeTurnId : String
  providerSessionRef : String
  cancelled : Bool
  collected : Collected
  /-- The connection and the number of its prompt, once registered. -/
  prompt : Option (ℕ × ℕ)
  reply : Option (Except RuntimeError Json)
  point : Point

structure AcpSessionState where
  providerSessionRef : String
  activeTurn : Option ActiveTurn
  pendingApprovals : Table String PendingApprovalTurn
  completedTurns : Table String ProviderTurnResult

def AcpSessionState.default : AcpSessionState := ⟨"", none, ∅, ∅⟩

/-! ## Calls -/

inductive Call where
  /-- `create_session` or, with a reference, `resume_session` has its slot -/
  | reserved (runtimeSessionId : String) (resumes : Option String)
  | connected (runtimeSessionId : String) (resumes : Option String)
  /-- `resume_session` waits for the agent -/
  | resuming (runtimeSessionId : String)
  | releasing (runtimeSessionId : String) (error : RuntimeError)
  /-- `send_turn` or `respond_approval` before `execute_turn` -/
  | executing (runtimeSessionId turnId : String)
  | declining (runtimeSessionId turnId : String)
  /-- `interrupt_turn` before it notifies the agent; a `close_session` goes on with its reason -/
  | cancelling (runtimeSessionId turnId : String) (closes : Option (Option String))
  /-- `close_session` before `interrupt_turn`, before `complete_turn`, before the session is removed, before
  the connection is shut down -/
  | closing (runtimeSessionId turnId : String) (reason : Option String)
  | ending (runtimeSessionId turnId : String) (reason : Option String)
  | removing (runtimeSessionId : String)
  | leaving
  | shutting
  | answered (outcome : Except RuntimeError Unit)
  deriving DecidableEq, Repr

inductive Request where
  | createSession (runtimeSessionId : String)
  | resumeSession (runtimeSessionId providerSessionRef : String)
  | sendTurn (req : ProviderSendTurnRequest)
  | interruptTurn (req : ProviderInterruptTurnRequest)
  | respondApproval (req : ProviderApprovalResponseRequest)
  | closeSession (req : ProviderCloseSessionRequest)
  deriving DecidableEq, Repr

structure AcpProvider where
  maxInstances : ℕ
  maxSessionsPerInstance : ℕ
  sessions : Table String AcpSessionState
  turns : List Turn
  connections : List AcpConnection
  connection : Option ℕ
  calls : List Call

def AcpProvider.new (maxInstances maxSessionsPerInstance : ℕ) : AcpProvider :=
  ⟨maxInstances, maxSessionsPerInstance, ∅, [], [], none, []⟩

namespace AcpProvider

/-! ## Shared sections -/

def putSession (runtimeSessionId : String) (session : AcpSessionState) (p : AcpProvider) : AcpProvider :=
  { p with sessions := p.sessions.insert runtimeSessionId session }

def onTurn (i : ℕ) (f : Turn → Turn) (p : AcpProvider) : AcpProvider := { p with turns := p.turns.modify i f }

def onConnection (c : ℕ) (f : AcpConnection → AcpConnection) (p : AcpProvider) : AcpProvider :=
  { p with connections := p.connections.modify c f }

def completedState (turnId : String) (result : ProviderTurnResult) (session : AcpSessionState) : AcpSessionState :=
  { session with
    activeTurn := session.activeTurn.filter fun turn => turn.runtimeTurnId ≠ turnId
    pendingApprovals := session.pendingApprovals.eraseAll (session.pendingApprovals.keys.filter fun approvalId =>
      (session.pendingApprovals.lookup approvalId).any fun pending => pending.turnId = turnId)
    completedTurns := session.completedTurns.insert turnId result }

def completeTurn (runtimeSessionId turnId : String) (result : ProviderTurnResult) (p : AcpProvider) : AcpProvider :=
  match p.sessions.lookup runtimeSessionId with
  | none => p
  | some session =>
    if (session.completedTurns.lookup turnId).isSome then p
    else p.putSession runtimeSessionId (completedState turnId result session)

def drain (c : ℕ) (e : RuntimeError) (p : AcpProvider) : AcpProvider :=
  match p.connections[c]? with
  | none => p
  | some connection =>
    { p.onConnection c (fun connection => { connection with closed := true, pendingRequests := ∅ }) with
      turns := p.turns.mapIdx fun i turn =>
        if i ∈ connection.pendingRequests.values then { turn with reply := some (.error e) } else turn }

/-- `mark_closed_io` and `mark_closed_protocol`. -/
def markClosed (c : ℕ) (e : RuntimeError) (p : AcpProvider) : AcpProvider :=
  if p.connections[c]?.any fun connection => connection.closed then p else p.drain c e

def shutdownConnection (p : AcpProvider) : AcpProvider :=
  match p.connection with
  | none => p
  | some c => { p.drain c (.io "acp connection shutting down") with connection := none }

def currentConnection (p : AcpProvider) : Option ℕ :=
  p.connection.filter fun c => p.connections[c]?.any fun connection => !connection.closed

/-- What the machine grants: everything, no access to the provider's directories, or no agent and no write. -/
inductive World where
  | fine
  | disabled (error : RuntimeError)
  | failed (error : RuntimeError)
  deriving DecidableEq, Repr

def ensureConnection (world : World) (p : AcpProvider) : Except RuntimeError ℕ × AcpProvider :=
  match world, p.currentConnection with
  | .disabled e, _ => (.error e, p)
  | _, some c => (.ok c, p)
  | .fine, none =>
    (.ok p.connections.length,
      { p with connections := p.connections ++ [.spawned false], connection := some p.connections.length })
  -- an agent that was shut down during the handshake
  | .failed e, none => (.error e, { p with connections := p.connections ++ [.spawned true] })

/-! ## The first section of a call -/

def reserveSessionSlot (runtimeSessionId : String) (p : AcpProvider) : Except RuntimeError AcpProvider :=
  if (p.sessions.lookup runtimeSessionId).isSome then .ok p
  else if p.maxInstances * p.maxSessionsPerInstance ≤ p.sessions.keys.length then
    .error (.invalidState s!"acp session capacity exceeded ({p.maxInstances * p.maxSessionsPerInstance} total sessions from max_instances={p.maxInstances} * max_sessions_per_instance={p.maxSessionsPerInstance})")
  else .ok (p.putSession runtimeSessionId .default)

def releaseSessionSlot (runtimeSessionId : String) (p : AcpProvider) : AcpProvider :=
  { p with sessions := p.sessions.erase runtimeSessionId }

def activateReservedSession (runtimeSessionId providerSessionRef : String) (p : AcpProvider) :
    Except RuntimeError AcpProvider :=
  match p.sessions.lookup runtimeSessionId with
  | none => .error (.invalidState s!"reserved acp session {runtimeSessionId} disappeared before activation")
  | some session => .ok (p.putSession runtimeSessionId { session with providerSessionRef := providerSessionRef })

def getSession (runtimeSessionId : String) (p : AcpProvider) : Except RuntimeError AcpSessionState :=
  match p.sessions.lookup runtimeSessionId with
  | none => .error (.notFound s!"acp session {runtimeSessionId}")
  | some session => .ok session

def idleSession (runtimeSessionId : String) (p : AcpProvider) : Except RuntimeError AcpSessionState := do
  let session ← p.getSession runtimeSessionId
  if session.activeTurn.isSome ∨ session.pendingApprovals.keys ≠ [] then
    throw (.invalidState s!"acp session {runtimeSessionId} already has an active turn")
  return session

def executeTurn (runtimeSessionId turnId : String) (p : AcpProvider) : Except RuntimeError AcpProvider := do
  let session ← p.idleSession runtimeSessionId
  let turn : Turn := ⟨runtimeSessionId, turnId, session.providerSessionRef, false, .empty, none, none, .connecting⟩
  return { p.putSession runtimeSessionId { session with activeTurn := some ⟨turnId, p.turns.length⟩ } with
    turns := p.turns ++ [turn] }

/-- The section of `interrupt_turn`. -/
def cancelActive (runtimeSessionId turnId : String) (p : AcpProvider) : Except RuntimeError AcpProvider := do
  let session ← p.getSession runtimeSessionId
  match session.activeTurn with
  | none => throw (.invalidState s!"turn {turnId} is not active for session {runtimeSessionId}")
  | some active =>
    if active.runtimeTurnId ≠ turnId then
      throw (.invalidState s!"turn {turnId} is not active for session {runtimeSessionId}")
    return p.onTurn active.turn fun turn => { turn with cancelled := true }

/-- The section of `send_turn`: a turn that needs an approval waits for it, any other is executed next. -/
def sendTurn (req : ProviderSendTurnRequest) (p : AcpProvider) : Except RuntimeError (AcpProvider × Call) := do
  let session ← p.idleSession req.runtimeSessionId
  match req.approvalId with
  | none => return (p, .executing req.runtimeSessionId req.turnId)
  | some approvalId =>
    let pending : PendingApprovalTurn := ⟨req.turnId, req.input, req.expectedTurnId, req.permissionMode⟩
    return (p.putSession req.runtimeSessionId
      { session with pendingApprovals := session.pendingApprovals.insert approvalId pending }, .answered (.ok ()))

def respondApproval (req : ProviderApprovalResponseRequest) (p : AcpProvider) :
    Except RuntimeError (AcpProvider × Call) := do
  let decision ← ApprovalDecision.parse req.decision
  let session ← p.getSession req.runtimeSessionId
  match session.pendingApprovals.lookup req.approvalId with
  | none => throw (.notFound s!"approval {req.approvalId}")
  | some pending =>
    if pending.turnId ≠ req.turnId then
      throw (.protocolViolation s!"approval {req.approvalId} turn mismatch (expected={pending.turnId}, actual={req.turnId})")
    let p' := p.putSession req.runtimeSessionId
      { session with pendingApprovals := session.pendingApprovals.erase req.approvalId }
    match decision with
    | .decline => return (p', .declining req.runtimeSessionId req.turnId)
    | .accept => return (p', .executing req.runtimeSessionId req.turnId)

def closeSession (req : ProviderCloseSessionRequest) (p : AcpProvider) : Except RuntimeError Call := do
  let session ← p.getSession req.runtimeSessionId
  match session.activeTurn with
  | none => return .removing req.runtimeSessionId
  | some active => return .closing req.runtimeSessionId active.runtimeTurnId req.reason

def begin (request : Request) (p : AcpProvider) : Except RuntimeError (AcpProvider × Call) :=
  match request with
  | .createSession runtimeSessionId => do
    return (← p.reserveSessionSlot runtimeSessionId, .reserved runtimeSessionId none)
  | .resumeSession runtimeSessionId ref => do
    return (← p.reserveSessionSlot runtimeSessionId, .reserved runtimeSessionId (some ref))
  | .sendTurn req => p.sendTurn req
  | .interruptTurn req => do
    return (← p.cancelActive req.runtimeSessionId req.turnId, .cancelling req.runtimeSessionId req.turnId none)
  | .respondApproval req => p.respondApproval req
  | .closeSession req => do return (p, ← p.closeSession req)

/-! ## The sections after it -/

/-- The next section of a call; `answer` is what the agent replies to the request it awaits, if it does. -/
def goOn (call : Call) (world : World) (answer : Except RuntimeError String) (p : AcpProvider) :
    AcpProvider × Call :=
  match call with
  | .reserved runtimeSessionId resumes =>
    match p.ensureConnection world with
    | (.ok _, p') => (p', .connected runtimeSessionId resumes)
    | (.error e, p') => (p', .releasing runtimeSessionId e)
  -- `session/new`, or the check that the agent can resume
  | .connected runtimeSessionId resumes =>
    match answer with
    | .error e => (p, .releasing runtimeSessionId e)
    | .ok ref =>
      match p.activateReservedSession runtimeSessionId (resumes.getD ref) with
      | .error e => (p, .releasing runtimeSessionId e)
      | .ok p' => (p', if resumes.isSome then .resuming runtimeSessionId else .answered (.ok ()))
  | .resuming runtimeSessionId =>
    match answer with
    | .error e => (p, .releasing runtimeSessionId e)
    | .ok _ => (p, .answered (.ok ()))
  | .releasing runtimeSessionId e => (p.releaseSessionSlot runtimeSessionId, .answered (.error e))
  | .executing runtimeSessionId turnId =>
    match p.executeTurn runtimeSessionId turnId with
    | .error e => (p, .answered (.error e))
    | .ok p' => (p', .answered (.ok ()))
  | .declining runtimeSessionId turnId =>
    (p.completeTurn runtimeSessionId turnId (messageResult runtimeSessionId turnId .interrupted "approval declined"),
      .answered (.ok ()))
  | .cancelling runtimeSessionId turnId closes =>
    -- the notification changes nothing here, and `close_session` ignores what comes of it
    match closes with
    | some reason => ((p.ensureConnection world).2, .ending runtimeSessionId turnId reason)
    | none => ((p.ensureConnection world).2, .answered ((p.ensureConnection world).1.map fun _ => ()))
  | .closing runtimeSessionId turnId reason =>
    match p.cancelActive runtimeSessionId turnId with
    | .error _ => (p, .ending runtimeSessionId turnId reason)
    | .ok p' => (p', .cancelling runtimeSessionId turnId (some reason))
  | .ending runtimeSessionId turnId reason =>
    (p.completeTurn runtimeSessionId turnId (messageResult runtimeSessionId turnId .interrupted
      (reason.getD "session closed before turn completion")), .removing runtimeSessionId)
  | .removing runtimeSessionId => (p.releaseSessionSlot runtimeSessionId, .leaving)
  | .leaving => (p, if p.sessions.keys = [] then .shutting else .answered (.ok ()))
  | .shutting => (p.shutdownConnection, .answered (.ok ()))
  | .answered outcome => (p, .answered outcome)

/-! ## The task of a turn -/

def readFound {α : Type} (p : AcpProvider) (found : Option ActiveTurn) (f : Collected → α) (absent : α) : α :=
  match found with
  | some active => (p.turns[active.turn]?.map fun turn => f turn.collected).getD absent
  | none => absent

def activeTurn (p : AcpProvider) (runtimeSessionId : String) : Option ActiveTurn :=
  (p.sessions.lookup runtimeSessionId).bind fun session => session.activeTurn

def atPoint (i : ℕ) (point : Point) (p : AcpProvider) : AcpProvider :=
  p.onTurn i fun turn => { turn with point := point }

def failedResult (turn : Turn) (e : RuntimeError) : ProviderTurnResult :=
  messageResult turn.runtimeSessionId turn.runtimeTurnId (if turn.cancelled then .interrupted else .failed) e.display

/-- The next step of task `i`. -/
def advance (i : ℕ) (turn : Turn) (world : World) (p : AcpProvider) : Option AcpProvider :=
  match turn.point with
  | .connecting =>
    match p.ensureConnection world with
    | (.ok c, p') => some (p'.atPoint i (.connected c))
    | (.error e, p') => some (p'.atPoint i
        (.completing (messageResult turn.runtimeSessionId turn.runtimeTurnId .failed e.display) none))
  | .connected c =>
    (p.connections[c]?).map fun connection =>
      if connection.closed then
        p.atPoint i (.completing (failedResult turn (.io "acp agent connection is closed")) none)
      else p.atPoint i (.unclosed c)
  | .unclosed c =>
    (p.connections[c]?).map fun connection =>
      (p.onConnection c fun connection => { connection with
        nextRequestId := connection.nextRequestId + 1
        pendingRequests := connection.pendingRequests.insert connection.nextRequestId i }).onTurn i fun turn =>
          { turn with prompt := some (c, connection.nextRequestId), point := .registered c connection.nextRequestId }
  | .registered c request =>
    match world with
    | .fine => some ((p.onConnection c fun connection => { connection with
        openPrompts := connection.openPrompts ++ [(request, turn.providerSessionRef)] }).atPoint i (.waiting c request))
    | .disabled e | .failed e => some ((p.onConnection c fun connection => { connection with
        pendingRequests := connection.pendingRequests.erase request }).atPoint i
          (.completing (failedResult turn e) none))
  | .waiting _ _ =>
    turn.reply.map fun
    | .ok payload => p.atPoint i (.located payload (p.activeTurn turn.runtimeSessionId))
    | .error e => p.atPoint i (.completing (failedResult turn e) none)
  | .located payload found =>
    some (p.atPoint i (.textRead payload found (p.readFound found Collected.assistantText none)))
  | .textRead payload found text =>
    some (p.atPoint i (.usageRead payload found text (p.readFound found Collected.usageUpdate none)))
  -- whether the turn was cancelled is read as well, but the result does not depend on it
  | .usageRead payload found text usage =>
    some (p.atPoint i (.completing (promptResult turn.runtimeSessionId turn.runtimeTurnId payload text usage
      (p.readFound found Collected.toolCallValues [])) found))
  | .completing result _ =>
    some ((p.completeTurn turn.runtimeSessionId turn.runtimeTurnId result).atPoint i .done)
  | .done => none

/-! ## The reader of a connection -/

/-- Whether `runtimeSessionId` is a session that a search for a reference may come upon. -/
def answersTo (ref : String) (p : AcpProvider) (runtimeSessionId : String) : Bool :=
  (p.sessions.lookup runtimeSessionId).any fun session => session.providerSessionRef = ref

/-- The sessions are searched in no particular order: `found` is the one that is found. -/
def searched (ref : String) (eligible : String → Bool) (found : Option String) (p : AcpProvider) : Bool :=
  match found with
  | some runtimeSessionId => p.answersTo ref runtimeSessionId && eligible runtimeSessionId
  | none => p.sessions.keys.all fun runtimeSessionId => !(p.answersTo ref runtimeSessionId && eligible runtimeSessionId)

def rest (connection : AcpConnection) : AcpConnection := { connection with stream := connection.stream.tail }

def readLine (c : ℕ) (connection : AcpConnection) (line : Line) (found : Option String) (p : AcpProvider) :
    Option AcpProvider :=
  let p' := p.onConnection c rest
  match line with
  | .update u =>
    if p.searched u.ref (fun _ => true) found then
      match found.bind p.activeTurn with
      | none => some p'
      | some active => some (p'.onConnection c fun connection => { connection with reader := .applying active.turn u })
    else none
  | .requestPermission none => some p'
  | .requestPermission (some ref) =>
    if p.searched ref (fun runtimeSessionId => (p.activeTurn runtimeSessionId).isSome) found then
      match found.bind fun runtimeSessionId => (p.activeTurn runtimeSessionId).map (runtimeSessionId, ·) with
      | none => some p'
      | some (runtimeSessionId, active) =>
        some (p'.onConnection c fun connection => { connection with
          reader := .failing runtimeSessionId active.runtimeTurnId })
    else none
  | .response request reply =>
    match connection.pendingRequests.lookup request with
    | none => some p'
    | some i => some ((p'.onConnection c fun connection => { connection with
        pendingRequests := connection.pendingRequests.erase request }).onTurn i fun turn =>
          { turn with reply := some (reply.outcome request) })
  | .other => some p'
  | .broken e => some ((p'.markClosed c e).onConnection c fun connection => { connection with reader := .left })

/-- The next step of the reader of connection `c`. -/
def read (c : ℕ) (found : Option String) (p : AcpProvider) : Option AcpProvider :=
  (p.connections[c]?).bind fun connection =>
    match connection.reader with
    | .idle =>
      match connection.stream with
      | [] => none
      | line :: _ => p.readLine c connection line found
    | .applying i u =>
      some ((p.onTurn i fun turn => { turn with collected := turn.collected.apply u.body }).onConnection c
        fun connection => { connection with reader := .idle })
    | .failing runtimeSessionId turnId => some ((p.completeTurn runtimeSessionId turnId
        (messageResult runtimeSessionId turnId .failed "ACP session/request_permission is unsupported in v1")).onConnection c
          fun connection => { connection with reader := .idle })
    | .left => some (p.onConnection c fun connection => { connection with
        reader := if p.connection = some c && connection.closed then .reaping else .stopped })
    | .reaping => some (p.shutdownConnection.onConnection c fun connection => { connection with reader := .stopped })
    | .stopped => none

/-! ## The agent -/

inductive Output where
  /-- a `session/update` that is output of the prompt `outputOf` -/
  | update (ref : String) (body : Json) (outputOf : ℕ)
  | requestPermission (ref : Option String)
  | response (request : ℕ) (reply : Reply)
  | other
  | broken (error : RuntimeError)
  deriving DecidableEq, Repr

def promptsOf (ref : String) (connection : AcpConnection) : List ℕ :=
  (connection.openPrompts.filter fun prompt => prompt.2 = ref).map Prod.fst

def writes (output : Output) (connection : AcpConnection) : AcpConnection :=
  match output with
  | .update ref body outputOf =>
    let u : Update := ⟨ref, body, outputOf, promptsOf ref connection⟩
    { connection with stream := connection.stream ++ [.update u], sent := connection.sent ++ [u] }
  | .requestPermission ref => { connection with stream := connection.stream ++ [.requestPermission ref] }
  | .response request reply =>
    { connection with
      stream := connection.stream ++ [.response request reply]
      openPrompts := connection.openPrompts.filter fun prompt => prompt.1 ≠ request }
  | .other => { connection with stream := connection.stream ++ [.other] }
  | .broken e => { connection with stream := connection.stream ++ [.broken e] }

/-! ## The machine -/

inductive Event where
  | call (request : Request)
  | goOn (i : ℕ) (world : World) (answer : Except RuntimeError String)
  | task (i : ℕ) (world : World)
  | read (c : ℕ) (found : Option String)
  | agent (c : ℕ) (output : Output)
  deriving DecidableEq

def step (event : Event) (p : AcpProvider) : Option AcpProvider :=
  match event with
  | .call request =>
    match p.begin request with
    | .error e => some { p with calls := p.calls ++ [.answered (.error e)] }
    | .ok (p', call) => some { p' with calls := p'.calls ++ [call] }
  | .goOn i world answer =>
    (p.calls[i]?).map fun call =>
      { (p.goOn call world answer).1 with calls := (p.goOn call world answer).1.calls.set i (p.goOn call world answer).2 }
  | .task i world => (p.turns[i]?).bind fun turn => p.advance i turn world
  | .read c found => p.read c found
  | .agent c output => if c < p.connections.length then some (p.onConnection c (writes output)) else none

end AcpProvider

end Gooselake.Providers.Acp
