import Gooselake.Core.Provider
import Gooselake.Data.Text
import Gooselake.Library.Numbered
import Gooselake.Library.Runs
import Gooselake.Library.Table

/-!
The client of the Claude bridge in SDK mode. A session is an object that its turn loops keep hold of; it has one
active turn, one current query and one gate for the `gg_team` tools. The requests of the runtime, the turn loops, the
permission requests of their queries and the waits take turns, and every step is what happens between two awaits.
Prompts, texts, usage and the ids of messages are left out, and so are the emitted events.
-/

namespace Gooselake.Providers.BridgeClient

open Gooselake.Core Data Library

set_option autoImplicit false

/-! ## Tool names -/

def ggTeamToolPrefix : String := "gg_team_"

def mcpToolPrefix : String := "mcp__"

/-- What `String.prototype.trim` takes off. -/
def isJsWhitespace (c : Char) : Bool := (isWhitespace c && c.toNat ≠ 0x85) || c.toNat = 0xFEFF

/-- What stands after the last `__`, if there is one. -/
def afterLastDunder : List Char → Option (List Char)
  | [] => none
  | c :: cs => (afterLastDunder cs).or (if c = '_' ∧ cs.head? = some '_' then some cs.tail else none)

def normalizeToolNameLeaf (toolName : String) : String :=
  let trimmed := (trimBy isJsWhitespace toolName).toList
  let afterServer :=
    if mcpToolPrefix.toList.isPrefixOf trimmed then (afterLastDunder trimmed).getD trimmed else trimmed
  toAsciiLowercase (trimBy isJsWhitespace (String.ofList (afterLast '.' afterServer)))

def isGgTeamMcpToolName (toolName : String) : Bool := startsWith ggTeamToolPrefix (normalizeToolNameLeaf toolName)

/-! ## Sessions, loops and calls -/

inductive TurnTerminalStatus where
  | completed
  | interrupted
  | failed
  deriving DecidableEq, Repr

structure TurnResult where
  turnId : String
  status : TurnTerminalStatus
  loop : ℕ
  deriving DecidableEq, Repr

/-- An approval that is asked for, with the permission request that waits for it. -/
structure PendingApproval where
  approvalId : String
  turnId : String
  call : ℕ
  deriving DecidableEq, Repr

structure SessionState where
  sessionId : String
  activeTurnId : Option String
  ggTeamToolApprovalPending : Bool
  ggTeamToolInFlight : Bool
  ggTeamToolInvocationId : Option String
  interruptedTurns : List String
  turnResults : Table String TurnResult
  turnOrder : List String
  /-- The waits for a turn, in the order in which they came. -/
  turnWaiters : Table String (List ℕ)
  pendingApprovals : List PendingApproval
  activeSdkQuery : Option ℕ
  /-- For each turn the names of the tools it used. -/
  turnToolItems : Table String (Table String String)
  turnPromptStreams : List String

def createSessionState (sessionId : String) : SessionState :=
  ⟨sessionId, none, false, false, none, [], ∅, [], ∅, [], none, ∅, []⟩

structure ToolUse where
  id : String
  name : String
  deriving DecidableEq, Repr

structure ToolResult where
  toolUseId : String
  status : Option String
  streamClosed : Bool
  deriving DecidableEq, Repr

inductive LoopPoint where
  | prewarming
  | creating
  | reading
  /-- the MCP server is being reconnected for a tool result; the results after it, with the names it looks up -/
  | reconnecting (toolItems : Option (Table String String)) (rest : List ToolResult)
  /-- the turn is completed and the iterator's `return` awaited -/
  | returning
  | done

structure Loop where
  object : ℕ
  turnId : String
  point : LoopPoint

inductive Permission where
  | allow (invocationId : Option String)
  | deny (message : String)
  deriving DecidableEq, Repr

inductive CallPoint where
  | pending (approvalId : String)
  | resolved (decision : ApprovalDecision)
  | returned (permission : Permission)
  deriving DecidableEq, Repr

def CallPoint.isReturned : CallPoint → Bool
  | .pending _ | .resolved _ => false
  | .returned _ => true

/-- A permission request of a loop's query for a tool use. An observer knows whether the tool use had its result since
the request was answered. -/
structure PermissionCall where
  loop : ℕ
  toolUseId : String
  toolName : String
  point : CallPoint
  resulted : Bool
  deriving DecidableEq, Repr

inductive WaitOutcome where
  | pending
  | resolved (result : TurnResult)
  | timedOut
  deriving DecidableEq, Repr

/-- A `waitForTurn` that was not answered at once, with the turn of the session that it asks for, if there is one. -/
structure Wait where
  object : ℕ
  turnId : String
  asks : Option ℕ
  outcome : WaitOutcome
  deriving DecidableEq, Repr

inductive Op where
  | closing (object : ℕ) (sessionId : String)
  | forking (object : ℕ)
  /-- it knows what to roll back -/
  | forked (object : ℕ) (rolledBackTurnIds : List String)
  | over
  deriving DecidableEq, Repr

structure Client where
  sessions : Table String ℕ
  objects : List SessionState
  loops : List Loop
  calls : List PermissionCall
  waits : List Wait
  ops : List Op
  nextSession : ℕ
  nextTurn : ℕ
  nextApproval : ℕ
  nextGgToolInvocation : ℕ

inductive ErrorCode where
  | badRequest
  | sessionNotFound
  | turnInProgress
  | turnNotInProgress
  | approvalNotFound
  | protocolViolation
  deriving DecidableEq, Repr

structure ClientError where
  code : ErrorCode
  message : String
  deriving DecidableEq, Repr

namespace Client

def new : Client := ⟨∅, [], [], [], [], [], 1, 1, 1, 1⟩

def onObject (o : ℕ) (f : SessionState → SessionState) (s : Client) : Client :=
  { s with objects := s.objects.modify o f }

def atPoint (i : ℕ) (point : LoopPoint) (s : Client) : Client :=
  { s with loops := s.loops.modify i fun l => { l with point := point } }

def requireSession (sessionId : String) (s : Client) : Except ClientError (ℕ × SessionState) :=
  match s.sessions.lookup sessionId with
  | none => .error ⟨.sessionNotFound, s!"Session not found: {sessionId}"⟩
  | some o =>
    match s.objects[o]? with
    | none => .error ⟨.sessionNotFound, s!"Session not found: {sessionId}"⟩
    | some session => .ok (o, session)

/-! ## Approvals -/

/-- The approvals that meet `p` are declined. -/
def resolveApprovals (o : ℕ) (p : PendingApproval → Bool) (s : Client) : Client :=
  match s.objects[o]? with
  | none => s
  | some session =>
    { s.onObject o fun session =>
        { session with pendingApprovals := session.pendingApprovals.filter fun a => !p a } with
      calls := s.calls.mapIdx fun k call =>
        if (session.pendingApprovals.filter p).any fun a => a.call = k then { call with point := .resolved .decline }
        else call }

def resolvePendingApprovalsForTurn (o : ℕ) (turnId : String) (s : Client) : Client :=
  s.resolveApprovals o fun a => a.turnId = turnId

def resolveAllPendingApprovals (o : ℕ) (s : Client) : Client := s.resolveApprovals o fun _ => true

/-! ## The end of a turn -/

/-- The waiters that are called: each one takes itself off the list that is being gone through, so the one behind it
is passed over. -/
def calledWaiters : List ℕ → List ℕ
  | [] => []
  | [w] => [w]
  | w :: _ :: rest => w :: calledWaiters rest

def completedState (result : TurnResult) (session : SessionState) : SessionState :=
  { session with
    turnOrder := if result.turnId ∈ session.turnOrder then session.turnOrder else session.turnOrder ++ [result.turnId]
    turnResults := session.turnResults.insert result.turnId result
    turnToolItems := session.turnToolItems.erase result.turnId
    turnPromptStreams := session.turnPromptStreams.filter (· ≠ result.turnId)
    activeTurnId := if session.activeTurnId = some result.turnId then none else session.activeTurnId
    turnWaiters := session.turnWaiters.erase result.turnId }

def answered (turnId : String) (session : SessionState) : List ℕ :=
  calledWaiters ((session.turnWaiters.lookup turnId).getD [])

def completeTurn (o : ℕ) (result : TurnResult) (s : Client) : Client :=
  match s.objects[o]? with
  | none => s
  | some session =>
    { (s.resolvePendingApprovalsForTurn o result.turnId).onObject o (completedState result) with
      waits := s.waits.mapIdx fun w wait =>
        if w ∈ answered result.turnId session then { wait with outcome := .resolved result } else wait }

def cleanedState (turnId : String) (session : SessionState) : SessionState :=
  { session with
    activeSdkQuery := none
    turnToolItems := session.turnToolItems.erase turnId
    ggTeamToolApprovalPending := false
    ggTeamToolInFlight := false
    ggTeamToolInvocationId := none }

/-- The `finally` block of loop `i`. -/
def cleanUp (i : ℕ) (l : Loop) (s : Client) : Client :=
  ((s.onObject l.object (cleanedState l.turnId)).resolvePendingApprovalsForTurn l.object l.turnId).atPoint i .done

def isInterrupted (l : Loop) (s : Client) : Bool :=
  (s.objects[l.object]?).any fun session => l.turnId ∈ session.interruptedTurns

/-- The turn is completed as interrupted if it was interrupted, else with `status`. -/
def endTurn (i : ℕ) (l : Loop) (status : TurnTerminalStatus) (s : Client) : Client :=
  let interrupted := s.isInterrupted l
  (s.onObject l.object fun session =>
    { session with interruptedTurns := session.interruptedTurns.filter (· ≠ l.turnId) }).completeTurn l.object
      ⟨l.turnId, if interrupted then .interrupted else status, i⟩

/-! ## Turn loops -/

def recordToolUses (turnId : String) (toolUses : List ToolUse) (session : SessionState) : SessionState :=
  { session with
    turnToolItems := session.turnToolItems.update turnId fun items =>
      toolUses.foldl (fun items toolUse => items.insert toolUse.id toolUse.name) items }

def ToolResult.final (r : ToolResult) : Bool := !r.streamClosed && r.status ≠ some "in_progress"

def isGgTeamResult (toolItems : Option (Table String String)) (r : ToolResult) : Bool :=
  isGgTeamMcpToolName ((toolItems.bind fun items => items.lookup r.toolUseId).getD "tool")

/-- The gate is opened by the final result of any `gg_team` tool. -/
def openGate (session : SessionState) : SessionState :=
  { session with ggTeamToolInFlight := false, ggTeamToolInvocationId := none }

def isResultOf (i : ℕ) (r : ToolResult) (call : PermissionCall) : Bool :=
  call.loop = i && call.toolUseId = r.toolUseId && call.point.isReturned && ToolResult.final r

/-- An observer notes the tool uses of loop `i` that have their result. -/
def noteResult (i : ℕ) (r : ToolResult) (s : Client) : Client :=
  { s with calls := s.calls.map fun call => if isResultOf i r call then { call with resulted := true } else call }

def processResults (i : ℕ) (l : Loop) (toolItems : Option (Table String String)) : List ToolResult → Client → Client
  | [], s => s.atPoint i .reading
  | r :: rest, s =>
    if isGgTeamResult toolItems r then
      if r.streamClosed then s.atPoint i (.reconnecting toolItems rest)
      else if ToolResult.final r then
        processResults i l toolItems rest ((s.noteResult i r).onObject l.object openGate)
      else processResults i l toolItems rest s
    else processResults i l toolItems rest (s.noteResult i r)

inductive Input where
  | resumed
  | assistant (toolUses : List ToolUse)
  | user (results : List ToolResult)
  | result (success : Bool)
  | other
  | ended
  | thrown
  deriving DecidableEq, Repr

def resultStatus (success : Bool) : TurnTerminalStatus := if success then .completed else .failed

/-- The next section of loop `i`. -/
def runLoop (i : ℕ) (l : Loop) (input : Input) (s : Client) : Option Client :=
  match l.point, input with
  | .prewarming, .resumed => some (s.atPoint i .creating)
  | .creating, .resumed =>
    some ((s.onObject l.object fun session => { session with activeSdkQuery := some i }).atPoint i .reading)
  | .creating, .thrown => some ((s.endTurn i l .failed).cleanUp i l)
  | .reading, .assistant toolUses => some (s.onObject l.object (recordToolUses l.turnId toolUses))
  | .reading, .user results =>
    some (s.processResults i l ((s.objects[l.object]?).bind
      fun session => session.turnToolItems.lookup l.turnId) results)
  | .reading, .result success => some ((s.endTurn i l (resultStatus success)).atPoint i .returning)
  | .reading, .other => some s
  | .reading, .ended => some ((s.endTurn i l .completed).cleanUp i l)
  | .reading, .thrown => some ((s.endTurn i l .failed).cleanUp i l)
  | .reconnecting toolItems rest, .resumed => some (s.processResults i l toolItems rest)
  | .returning, .resumed => some (s.cleanUp i l)
  | .returning, .thrown => some ((s.endTurn i l .failed).cleanUp i l)
  | _, _ => none

/-! ## Permission requests -/

def ggTeamToolInFlightDenyMessage : String :=
  "Another gg_team tool call is already in flight for this session. Retry this tool call after the current call completes."

def LoopPoint.hasQuery : LoopPoint → Bool
  | .prewarming | .creating | .done => false
  | .reading | .reconnecting _ _ | .returning => true

def addCall (i : ℕ) (toolUseId toolName : String) (point : CallPoint) (s : Client) : Client :=
  { s with calls := s.calls ++ [⟨i, toolUseId, toolName, point, false⟩] }

/-- `handleSdkToolApproval` until it waits for the approval. -/
def handleSdkToolApproval (i : ℕ) (l : Loop) (toolUseId toolName : String) (session : SessionState)
    (s : Client) : Client :=
  if l.turnId ∈ session.interruptedTurns then
    s.addCall i toolUseId toolName (.returned (.deny "Turn interrupted before tool approval"))
  else if isGgTeamMcpToolName toolName && (session.ggTeamToolApprovalPending || session.ggTeamToolInFlight) then
    s.addCall i toolUseId toolName (.returned (.deny ggTeamToolInFlightDenyMessage))
  else
    let approvalId := numbered "approval" s.nextApproval
    { (s.onObject l.object fun session =>
        { session with
          ggTeamToolApprovalPending := session.ggTeamToolApprovalPending || isGgTeamMcpToolName toolName
          pendingApprovals := session.pendingApprovals ++ [⟨approvalId, l.turnId, s.calls.length⟩] }).addCall
        i toolUseId toolName (.pending approvalId) with
      nextApproval := s.nextApproval + 1 }

def permit (i : ℕ) (toolUseId toolName : String) (s : Client) : Option Client :=
  match s.loops[i]? with
  | none => none
  | some l =>
    if LoopPoint.hasQuery l.point then
      (s.objects[l.object]?).map fun session => s.handleSdkToolApproval i l toolUseId toolName session
    else none

/-- The call of a `gg_team` tool is allowed under the invocation id that is set, or a new one. -/
def allowGgTeam (n : ℕ) (session : SessionState) : SessionState :=
  { session with
    ggTeamToolInvocationId := session.ggTeamToolInvocationId.or (some (numbered "ggtool" n))
    ggTeamToolInFlight := true
    ggTeamToolApprovalPending := false }

def declineGgTeam (session : SessionState) : SessionState :=
  { session with ggTeamToolApprovalPending := false, ggTeamToolInFlight := false }

def returnCall (k : ℕ) (permission : Permission) (s : Client) : Client :=
  { s with calls := s.calls.modify k fun call => { call with point := .returned permission } }

/-- The rest of `handleSdkToolApproval`, after the approval. -/
def proceed (k : ℕ) (s : Client) : Option Client :=
  match s.calls[k]? with
  | none => none
  | some call =>
    match call.point, (s.loops[call.loop]?).bind fun l => (s.objects[l.object]?).map fun session => (l, session) with
    | .resolved .accept, some (l, session) =>
      if isGgTeamMcpToolName call.toolName then
        some { (s.onObject l.object (allowGgTeam s.nextGgToolInvocation)).returnCall k
            (.allow (allowGgTeam s.nextGgToolInvocation session).ggTeamToolInvocationId) with
          nextGgToolInvocation :=
            if session.ggTeamToolInvocationId.isSome then s.nextGgToolInvocation else s.nextGgToolInvocation + 1 }
      else some (s.returnCall k (.allow none))
    | .resolved .decline, some (l, _) =>
      if isGgTeamMcpToolName call.toolName then
        some ((s.onObject l.object declineGgTeam).returnCall k (.deny "Tool execution declined by user"))
      else some (s.returnCall k (.deny "Tool execution declined by user"))
    | _, _ => none

/-! ## Requests -/

def createSession (s : Client) : Client :=
  let sessionId := numbered "claude_sess" s.nextSession
  { s with
    sessions := s.sessions.insert sessionId s.objects.length
    objects := s.objects ++ [createSessionState sessionId]
    nextSession := s.nextSession + 1 }

def resumedState (session : SessionState) : SessionState := createSessionState session.sessionId

def resumeSession (sessionId : String) (s : Client) : Client :=
  match s.sessions.lookup sessionId with
  | none =>
    { s with
      sessions := s.sessions.insert sessionId s.objects.length
      objects := s.objects ++ [createSessionState sessionId] }
  | some o => (s.resolveAllPendingApprovals o).onObject o resumedState

def SessionState.active (session : SessionState) : Option String := session.activeTurnId.filter (· ≠ "")

def startedState (turnId : String) (session : SessionState) : SessionState :=
  { session with
    activeTurnId := some turnId
    turnPromptStreams := if turnId ∈ session.turnPromptStreams then session.turnPromptStreams
      else session.turnPromptStreams ++ [turnId]
    turnToolItems := session.turnToolItems.insert turnId ∅ }

def startTurn (o : ℕ) (turnId : String) (s : Client) : Client :=
  { s.onObject o (startedState turnId) with loops := s.loops ++ [⟨o, turnId, .prewarming⟩] }

def sendInput (sessionId : String) (expectedTurnId : Option String) (s : Client) :
    Except ClientError (String × Client) := do
  let (o, session) ← s.requireSession sessionId
  match SessionState.active session with
  | some active =>
    if expectedTurnId ≠ some active then
      throw ⟨.turnInProgress, s!"Turn already active in {sessionId}"⟩
    if active ∉ session.turnPromptStreams then
      throw ⟨.protocolViolation, s!"Active streaming prompt is unavailable for {sessionId}"⟩
    return (active, s)
  | none =>
    match expectedTurnId with
    | some turnId => return (turnId, s.startTurn o turnId)
    | none => return (numbered "turn" s.nextTurn,
        { s.startTurn o (numbered "turn" s.nextTurn) with nextTurn := s.nextTurn + 1 })

def interruptTurn (sessionId turnId : String) (s : Client) : Except ClientError Client := do
  let (o, session) ← s.requireSession sessionId
  if session.activeTurnId ≠ some turnId then
    throw ⟨.turnNotInProgress, s!"Turn {turnId} is not in progress"⟩
  return (s.onObject o fun session =>
    { session with
      interruptedTurns := if turnId ∈ session.interruptedTurns then session.interruptedTurns
        else session.interruptedTurns ++ [turnId] }).resolvePendingApprovalsForTurn o turnId

def respondApproval (sessionId turnId approvalId : String) (decision : ApprovalDecision) (s : Client) :
    Except ClientError Client := do
  let (o, session) ← s.requireSession sessionId
  match session.pendingApprovals.find? fun a => a.approvalId = approvalId ∧ a.turnId = turnId with
  | none => throw ⟨.approvalNotFound, s!"Approval {approvalId} not found"⟩
  | some a =>
    return { s.onObject o fun session =>
        { session with pendingApprovals := session.pendingApprovals.filter fun a => a.approvalId ≠ approvalId } with
      calls := s.calls.modify a.call fun call => { call with point := .resolved decision } }

def lastTurn (sessionId turnId : String) (s : Client) : Option ℕ :=
  (List.range s.loops.length).reverse.find? fun i =>
    (s.loops[i]?).any fun l =>
      l.turnId = turnId && (s.objects[l.object]?).any fun session => session.sessionId = sessionId

def waitForTurn (sessionId turnId : String) (s : Client) : Except ClientError Client := do
  let (o, session) ← s.requireSession sessionId
  match session.turnResults.lookup turnId with
  | some completed =>
    return { s with waits := s.waits ++ [⟨o, turnId, s.lastTurn sessionId turnId, .resolved completed⟩] }
  | none =>
    return { s.onObject o fun session =>
        { session with
          turnWaiters := session.turnWaiters.insert turnId
            ((session.turnWaiters.lookup turnId).getD [] ++ [s.waits.length]) } with
      waits := s.waits ++ [⟨o, turnId, s.lastTurn sessionId turnId, .pending⟩] }

def removeTurnWaiter (turnId : String) (w : ℕ) (session : SessionState) : SessionState :=
  match session.turnWaiters.lookup turnId with
  | none => session
  | some waiters =>
    { session with
      turnWaiters := if waiters.erase w = [] then session.turnWaiters.erase turnId
        else session.turnWaiters.insert turnId (waiters.erase w) }

def timeOut (w : ℕ) (s : Client) : Option Client :=
  match s.waits[w]? with
  | none => none
  | some wait =>
    if wait.outcome = .pending then
      some { s.onObject wait.object (removeTurnWaiter wait.turnId w) with
        waits := s.waits.set w { wait with outcome := .timedOut } }
    else none

/-- The first section of `hardForkSession`; its boundary id is not blank. -/
def hardForkSession (sessionId : String) (s : Client) : Except ClientError Client := do
  let (o, session) ← s.requireSession sessionId
  match SessionState.active session with
  | some active => throw ⟨.turnInProgress, s!"Cannot hard-fork while turn {active} is active"⟩
  | none => return { s with ops := s.ops ++ [.forking o] }

/-- The first section of `closeSession`; without a query to interrupt it goes on at once. -/
def closeSession (sessionId : String) (s : Client) : Except ClientError Client := do
  let (o, _) ← s.requireSession sessionId
  return { s with ops := s.ops ++ [.closing o sessionId] }

def closedState (session : SessionState) : SessionState :=
  { session with
    turnPromptStreams := []
    turnToolItems := ∅
    turnResults := ∅
    turnWaiters := ∅
    turnOrder := []
    activeTurnId := none }

def finishClose (o : ℕ) (sessionId : String) (s : Client) : Client :=
  { (s.resolveAllPendingApprovals o).onObject o closedState with sessions := s.sessions.erase sessionId }

def forkedState (session : SessionState) : SessionState :=
  { session with
    activeTurnId := none
    ggTeamToolApprovalPending := false
    ggTeamToolInFlight := false
    ggTeamToolInvocationId := none }

def prunedState (rolledBackTurnIds : List String) (session : SessionState) : SessionState :=
  { session with
    turnOrder := session.turnOrder.filter fun turnId => turnId ∉ rolledBackTurnIds
    turnResults := session.turnResults.eraseAll rolledBackTurnIds
    turnWaiters := session.turnWaiters.eraseAll rolledBackTurnIds
    turnToolItems := session.turnToolItems.eraseAll rolledBackTurnIds
    turnPromptStreams := session.turnPromptStreams.filter fun turnId => turnId ∉ rolledBackTurnIds }

def finishFork (o : ℕ) (rolledBackTurnIds : List String) (s : Client) : Client :=
  ((s.onObject o forkedState).resolveAllPendingApprovals o).onObject o (prunedState rolledBackTurnIds)

/-- How the awaits of a fork end: the turns that are rolled back are completed ones of the session. -/
inductive ForkInput where
  | rollsBack (turnIds : List String)
  | proceeds
  | fails
  deriving DecidableEq, Repr

def advanceOp (k : ℕ) (input : ForkInput) (s : Client) : Option Client :=
  match s.ops[k]?, input with
  | some (.closing o sessionId), .proceeds => some { s.finishClose o sessionId with ops := s.ops.set k .over }
  | some (.forking o), .rollsBack turnIds =>
    if (s.objects[o]?).any fun session => turnIds.all fun turnId => turnId ∈ session.turnOrder then
      some { s with ops := s.ops.set k (.forked o turnIds) }
    else none
  | some (.forked o turnIds), .proceeds => some { s.finishFork o turnIds with ops := s.ops.set k .over }
  | some (.forking _), .fails | some (.forked _ _), .fails => some { s with ops := s.ops.set k .over }
  | _, _ => none

/-! ## The machine -/

inductive Event where
  | createSession
  | resumeSession (sessionId : String)
  | sendInput (sessionId : String) (expectedTurnId : Option String)
  | interruptTurn (sessionId turnId : String)
  | respondApproval (sessionId turnId approvalId : String) (decision : ApprovalDecision)
  | waitForTurn (sessionId turnId : String)
  | hardForkSession (sessionId : String)
  | closeSession (sessionId : String)
  | op (k : ℕ) (input : ForkInput)
  | loop (i : ℕ) (input : Input)
  | permit (i : ℕ) (toolUseId toolName : String)
  | proceed (k : ℕ)
  | timeOut (w : ℕ)
  deriving DecidableEq, Repr

def request (r : Except ClientError Client) (s : Client) : Client :=
  match r with
  | .ok s' => s'
  | .error _ => s

def step (e : Event) (s : Client) : Option Client :=
  match e with
  | .createSession => some s.createSession
  | .resumeSession sessionId => some (s.resumeSession sessionId)
  | .sendInput sessionId expectedTurnId => some (s.request ((s.sendInput sessionId expectedTurnId).map Prod.snd))
  | .interruptTurn sessionId turnId => some (s.request (s.interruptTurn sessionId turnId))
  | .respondApproval sessionId turnId approvalId decision =>
    some (s.request (s.respondApproval sessionId turnId approvalId decision))
  | .waitForTurn sessionId turnId => some (s.request (s.waitForTurn sessionId turnId))
  | .hardForkSession sessionId => some (s.request (s.hardForkSession sessionId))
  | .closeSession sessionId => some (s.request (s.closeSession sessionId))
  | .op k input => s.advanceOp k input
  | .loop i input => (s.loops[i]?).bind fun l => s.runLoop i l input
  | .permit i toolUseId toolName => s.permit i toolUseId toolName
  | .proceed k => s.proceed k
  | .timeOut w => s.timeOut w

end Client

end Gooselake.Providers.BridgeClient
