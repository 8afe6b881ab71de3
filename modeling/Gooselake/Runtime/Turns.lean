import Gooselake.Runtime.Helpers
import Gooselake.Runtime.Sessions

/-! The turn operations, cut at their awaits like the session operations. -/

namespace Gooselake.Runtime

open Gooselake.Core Data Library Library.Exec

set_option autoImplicit false

structure SendTurnInput where
  input : List Json
  expectedTurnId : Option String
  permissionMode : Option String
  deriving DecidableEq, Repr

structure ApprovalResponseInput where
  decision : String
  payload : Option Json
  deriving DecidableEq, Repr

structure SendTurnAccepted where
  sessionId : String
  turnId : String
  status : TurnStatus
  deriving DecidableEq, Repr

/-- `ready`, unless the status is one that stays. -/
def readyUnlessEnded (status : SessionStatus) : SessionStatus :=
  if status ≠ .closed ∧ status ≠ .failed then .ready else status

def errorJson (message : String) : Json := .obj [("message", .str message)]

/-! ## send_turn -/

/-- What a `send_turn` call has fixed when it awaits the provider: the session record it read, the
turn id it allocated and, when an approval is required, the approval id. -/
structure SendCall where
  sessionId : String
  session : SessionRecord
  providerKind : ProviderKind
  turnId : String
  now : ℤ
  input : SendTurnInput
  permissionMode : Option String
  approvalId : Option String
  deriving DecidableEq, Repr

def sendTurnBegin (sessionId : String) (input : SendTurnInput) : RuntimeM SendCall := do
  let session ← getSession sessionId
  if session.status = .closed ∨ session.status = .failed then
    throw (.invalidState s!"session {sessionId} is not writable in status {session.status.asStr}")
  if session.activeTurnId.isSome then
    throw (.invalidState s!"session {sessionId} already has an active turn")
  let kind ← providerKindOf session
  let turnId ← allocateId "turn" kind.asStr
  let now ← nowMs
  let effectivePermissionMode := input.permissionMode.or session.permissionMode
  if effectivePermissionMode = some "require_approval" then
    let approvalId ← allocateId "apr" kind.asStr
    return ⟨sessionId, session, kind, turnId, now, input, effectivePermissionMode, some approvalId⟩
  else
    return ⟨sessionId, session, kind, turnId, now, input, effectivePermissionMode, none⟩

def SendCall.request (c : SendCall) : ProviderSendTurnRequest where
  runtimeSessionId := c.sessionId
  turnId := c.turnId
  input := c.input.input
  expectedTurnId := c.input.expectedTurnId
  permissionMode := c.permissionMode
  approvalId := c.approvalId

/-- The provider's answers to the calls one `send_turn` may make. -/
structure SendAnswers where
  send : ProviderSendTurnRequest → Except RuntimeError ProviderTurnAck
  resume : ProviderResumeSessionRequest → Except RuntimeError ProviderSession
  resend : ProviderSendTurnRequest → Except RuntimeError ProviderTurnAck

def dispatchSendTurnWithResumeFallback (registered : Bool) (c : SendCall) (a : SendAnswers) :
    Except RuntimeError ProviderTurnAck :=
  if registered then
    match a.send c.request with
    | .ok ack => .ok ack
    | .error (.notFound _) =>
      match c.session.providerSessionRef with
      | none => .error (.notFound s!"provider session {c.sessionId} was not found and cannot be resumed")
      | some ref =>
        match a.resume ⟨c.sessionId, ref, c.session.canonicalProviderSessionRef, c.session.cwd,
          some c.session.metadata⟩ with
        | .error e => .error e
        | .ok _ => a.resend c.request
    | .error e => .error e
  else .error (.providerNotRegistered c.providerKind.asStr)

def SendCall.failedTurn (c : SendCall) (error : RuntimeError) (now : ℤ) : TurnRecord where
  id := c.turnId
  sessionId := c.sessionId
  providerTurnRef := none
  status := .failed
  input := .arr c.input.input
  source := some "user"
  startedAt := some c.now
  completedAt := some now
  usage := none
  error := some (errorJson error.display)

def SendCall.failedSession (c : SendCall) (now : ℤ) : SessionRecord :=
  { c.session with
    activeTurnId := none
    status := readyUnlessEnded c.session.status
    updatedAt := now }

def SendCall.turn (c : SendCall) : TurnRecord where
  id := c.turnId
  sessionId := c.sessionId
  providerTurnRef := none
  status := if c.approvalId.isSome then .waitingForApproval else .inProgress
  input := .arr c.input.input
  source := some "user"
  startedAt := some c.now
  completedAt := none
  usage := none
  error := none

def SendCall.updatedSession (c : SendCall) : SessionRecord :=
  { c.session with
    status := if c.approvalId.isSome then .waitingForApproval else .turnRunning
    activeTurnId := some c.turnId
    updatedAt := c.now }

def SendCall.approval (c : SendCall) (approvalId : String) : ApprovalRecord where
  id := approvalId
  sessionId := c.sessionId
  turnId := c.turnId
  toolCallId := none
  providerApprovalRef := some approvalId
  status := .pending
  request := .obj [("reason", .str "manual approval required before provider execution")]
  response := none
  createdAt := c.now
  resolvedAt := none

/-- A `send_turn` call the provider has answered; `failure` is the error of a rejected send and the
time it was seen. -/
structure SendWrite where
  call : SendCall
  failure : Option (RuntimeError × ℤ)
  deriving DecidableEq, Repr

def SendWrite.turn (w : SendWrite) : TurnRecord :=
  match w.failure with
  | none => w.call.turn
  | some (error, now) => w.call.failedTurn error now

/-- The session record the call writes: the one it read before the provider was awaited, changed. -/
def SendWrite.session (w : SendWrite) : SessionRecord :=
  match w.failure with
  | none => w.call.updatedSession
  | some (_, now) => w.call.failedSession now

def SendCall.settle (c : SendCall) (ack : Except RuntimeError ProviderTurnAck) (now : ℤ) :
    Except RuntimeError SendWrite :=
  match ack with
  | .ok ack =>
    if ack.runtimeSessionId ≠ c.sessionId ∨ ack.turnId ≠ c.turnId then
      .error (.protocolViolation s!"provider send_turn acknowledgement mismatch (expected_session={c.sessionId}, expected_turn={c.turnId}, actual_session={ack.runtimeSessionId}, actual_turn={ack.turnId})")
    else .ok ⟨c, none⟩
  | .error error => .ok ⟨c, some (error, now)⟩

def sendTurnStore (c : SendCall) (ack : Except RuntimeError ProviderTurnAck) : RuntimeM SendWrite := do
  let now ← nowMs
  let w ← ofExcept (c.settle ack now)
  onStore (Store.upsertTurn w.turn)
  onStore (Store.upsertSession w.session)
  return w

def sendTurnInsertTurn (w : SendWrite) : RuntimeM Unit :=
  insertTurn w.call.turnId w.turn

def sendTurnInsertSession (w : SendWrite) : RuntimeM (Option ApprovalRecord) := do
  insertSession w.call.sessionId w.session
  match w.failure, w.call.approvalId with
  | some (error, _), _ =>
    let _ ← appendSessionEvent w.call.sessionId (some w.call.turnId) "turn.failed"
      (.obj [("error", .str error.display)])
    throw error
  | none, some approvalId =>
    let approval := w.call.approval approvalId
    onStore (Store.upsertApproval approval)
    return some approval
  | none, none =>
    let _ ← appendSessionEvent w.call.sessionId (some w.call.turnId) "turn.started" (.obj [])
    spawnWaitForTurn w.call.providerKind w.call.sessionId w.call.turnId
    return none

def sendTurnInsertApproval (approval : ApprovalRecord) : RuntimeM Unit := do
  insertApproval approval.id approval
  let _ ← appendSessionEvent approval.sessionId (some approval.turnId) "approval.requested"
    (.obj [("approval_id", .str approval.id)])

def sendTurn (sessionId : String) (input : SendTurnInput) (provider : SendAnswers) :
    RuntimeM SendTurnAccepted := do
  let c ← sendTurnBegin sessionId input
  let registered := decide (c.providerKind ∈ (← get).providers)
  let w ← sendTurnStore c (dispatchSendTurnWithResumeFallback registered c provider)
  sendTurnInsertTurn w
  match ← sendTurnInsertSession w with
  | some approval => sendTurnInsertApproval approval
  | none => pure ()
  return ⟨sessionId, c.turnId, c.turn.status⟩

/-! ## interrupt_turn -/

def interruptTurnBegin (sessionId turnId : String) : RuntimeM Unit := do
  let session ← getSession sessionId
  if session.activeTurnId ≠ some turnId then
    throw (.invalidState s!"turn {turnId} is not active for session {sessionId}")
  let kind ← providerKindOf session
  requireProvider kind

def interruptTurnEnd (sessionId turnId : String) (answer : Except RuntimeError Unit) : RuntimeM Unit := do
  ofExcept answer
  let _ ← appendSessionEvent sessionId (some turnId) "turn.interrupt_requested" (.obj [])

def interruptTurn (sessionId turnId : String)
    (provider : ProviderInterruptTurnRequest → Except RuntimeError Unit) : RuntimeM Unit := do
  interruptTurnBegin sessionId turnId
  interruptTurnEnd sessionId turnId (provider ⟨sessionId, turnId⟩)

/-! ## respond_approval -/

def respondApprovalBegin (sessionId : String) : RuntimeM ProviderKind := do
  let session ← getSession sessionId
  let kind ← providerKindOf session
  requireProvider kind
  return kind

/-- What a `respond_approval` call has fixed when it awaits the provider, holding the approvals
lock. -/
structure RespondCall where
  sessionId : String
  providerKind : ProviderKind
  existing : ApprovalRecord
  decision : ApprovalDecision
  payload : Option Json
  deriving DecidableEq, Repr

def respondApprovalCheck (kind : ProviderKind) (sessionId approvalId : String)
    (input : ApprovalResponseInput) : RuntimeM RespondCall := do
  let existing ← orThrow ((← get).approvals.lookup approvalId) (.notFound s!"approval {approvalId}")
  if existing.sessionId ≠ sessionId then
    throw (.protocolViolation s!"approval {approvalId} does not belong to session {sessionId}")
  if existing.status ≠ .pending then
    throw (.invalidState s!"approval {approvalId} is not pending")
  let decision ← ofExcept (ApprovalDecision.parse input.decision)
  return ⟨sessionId, kind, existing, decision, input.payload⟩

def RespondCall.request (c : RespondCall) (approvalId : String) : ProviderApprovalResponseRequest where
  runtimeSessionId := c.sessionId
  turnId := c.existing.turnId
  approvalId := approvalId
  decision := c.decision.asStr
  payload := c.payload

def RespondCall.resolved (c : RespondCall) (now : ℤ) : ApprovalRecord :=
  { c.existing with
    status := c.decision.toStatus
    response := c.payload
    resolvedAt := some now }

def respondApprovalResolve (approvalId : String) (c : RespondCall) (answer : Except RuntimeError Unit) :
    RuntimeM ApprovalRecord := do
  ofExcept answer
  let now ← nowMs
  let resolved := c.resolved now
  onStore (Store.upsertApproval resolved)
  insertApproval approvalId resolved
  let _ ← appendSessionEvent c.sessionId (some resolved.turnId) "approval.resolved"
    (.obj [("approval_id", .str approvalId)])
  return resolved

/-- `turns.get_mut(key)` with a change, then the store write of the changed record. -/
def changeTurn (key : String) (f : TurnRecord → TurnRecord) : RuntimeM Unit := do
  match (← get).turns.lookup key with
  | some turn =>
    insertTurn key (f turn)
    onStore (Store.upsertTurn (f turn))
  | none => pure ()

def changeSession (key : String) (f : SessionRecord → SessionRecord) : RuntimeM Unit := do
  match (← get).sessions.lookup key with
  | some session =>
    insertSession key (f session)
    onStore (Store.upsertSession (f session))
  | none => pure ()

def acceptedTurn (turn : TurnRecord) : TurnRecord := { turn with status := .inProgress, error := none }

def acceptedSession (now : ℤ) (session : SessionRecord) : SessionRecord :=
  { session with status := .turnRunning, updatedAt := now }

def declinedTurn (now : ℤ) (turn : TurnRecord) : TurnRecord :=
  { turn with
    status := .interrupted
    completedAt := some now
    error := some (errorJson "approval declined") }

/-- The active marker without `turnId`. -/
def releaseTurn (turnId : String) (active : Option String) : Option String :=
  if active = some turnId then none else active

def declinedSession (turnId : String) (now : ℤ) (session : SessionRecord) : SessionRecord :=
  { session with
    activeTurnId := releaseTurn turnId session.activeTurnId
    status := readyUnlessEnded session.status
    updatedAt := now }

def respondApprovalApply (c : RespondCall) (resolved : ApprovalRecord) : RuntimeM ApprovalRecord := do
  let now ← nowMs
  match c.decision with
  | .accept =>
    changeTurn resolved.turnId acceptedTurn
    changeSession c.sessionId (acceptedSession now)
    let _ ← appendSessionEvent c.sessionId (some resolved.turnId) "turn.started"
      (.obj [("source", .str "approval.accepted")])
    spawnWaitForTurn c.providerKind c.sessionId resolved.turnId
  | .decline =>
    changeTurn resolved.turnId (declinedTurn now)
    changeSession c.sessionId (declinedSession resolved.turnId now)
    let _ ← appendSessionEvent c.sessionId (some resolved.turnId) "turn.interrupted"
      (.obj [("source", .str "approval.declined")])
  return resolved

def respondApproval (sessionId approvalId : String) (input : ApprovalResponseInput)
    (provider : ProviderApprovalResponseRequest → Except RuntimeError Unit) : RuntimeM ApprovalRecord := do
  let kind ← respondApprovalBegin sessionId
  let c ← respondApprovalCheck kind sessionId approvalId input
  let resolved ← respondApprovalResolve approvalId c (provider (c.request approvalId))
  respondApprovalApply c resolved

/-! ## Provider results -/

def finishedTurn (result : ProviderTurnResult) (now : ℤ) (turn : TurnRecord) : TurnRecord :=
  { turn with
    status := result.status.toTurnStatus
    completedAt := some now
    usage := result.usage
    error := result.error }

def transcribe (result : ProviderTurnResult) (turn : TurnRecord) (metadata : Json) : Json :=
  if result.status = .completed ∨ result.status = .interrupted then
    let metadata := match extractTurnUserText turn.input.asArray with
      | some text => appendSessionTranscript metadata "user" text
      | none => metadata
    match result.usage.bind extractAssistantTextFromUsage with
    | some text => appendSessionTranscript metadata "assistant" text
    | none => metadata
  else metadata

def finishedSession (result : ProviderTurnResult) (turn : TurnRecord) (now : ℤ)
    (session : SessionRecord) : SessionRecord :=
  { session with
    activeTurnId := releaseTurn result.turnId session.activeTurnId
    status := readyUnlessEnded session.status
    metadata := transcribe result turn session.metadata
    updatedAt := now }

def conflictedSession (conflict : String) (now : ℤ) (session : SessionRecord) : SessionRecord :=
  { session with
    status := .failed
    failureCode := some "terminal_conflict"
    failureMessage := some conflict
    updatedAt := now }

def resultEventKind : ProviderTurnStatus → String
  | .completed => "turn.completed"
  | .interrupted => "turn.interrupted"
  | .failed => "turn.failed"
  | .inProgress => "turn.in_progress"

def resultPayload (result : ProviderTurnResult) : Json :=
  .obj [("status", .str result.status.asStr), ("usage", result.usage.getD .null),
    ("error", result.error.getD .null),
    ("assistant_text", jsonOfOption (result.usage.bind extractAssistantTextFromUsage))]

def applyTerminalResult (result : ProviderTurnResult) : RuntimeM Unit := do
  let now ← nowMs
  let turn ← orThrow ((← get).turns.lookup result.turnId) (.notFound s!"turn {result.turnId}")
  if turn.sessionId ≠ result.runtimeSessionId then
    throw (.protocolViolation s!"provider turn ownership mismatch for turn {result.turnId}")
  if isTerminalTurnStatus turn.status then
    if turn.status = result.status.toTurnStatus then
      pure ()
    else
      let conflict := s!"conflicting terminal state for turn {result.turnId} (stored={turn.status.asStr}, incoming={result.status.asStr})"
      changeSession turn.sessionId (conflictedSession conflict now)
      throw (.protocolViolation conflict)
  else
    insertTurn result.turnId (finishedTurn result now turn)
    onStore (Store.upsertTurn (finishedTurn result now turn))
    let session ← getSession result.runtimeSessionId
    insertSession result.runtimeSessionId (finishedSession result turn now session)
    onStore (Store.upsertSession (finishedSession result turn now session))
    let _ ← appendSessionEvent result.runtimeSessionId (some result.turnId) (resultEventKind result.status)
      (resultPayload result)

def waitFailedTurn (error : RuntimeError) (now : ℤ) (turn : TurnRecord) : TurnRecord :=
  { turn with
    status := .failed
    completedAt := some now
    error := some (errorJson error.display) }

/-- The turns half of `apply_terminal_failure`. -/
def applyTerminalFailureTurn (turnId : String) (error : RuntimeError) : RuntimeM Unit := do
  let now ← nowMs
  match (← get).turns.lookup turnId with
  | some turn =>
    if isTerminalTurnStatus turn.status then pure () else
      changeTurn turnId (waitFailedTurn error now)
  | none => pure ()

def failedSession (turnId : String) (error : RuntimeError) (now : ℤ) (session : SessionRecord) :
    SessionRecord :=
  { session with
    activeTurnId := releaseTurn turnId session.activeTurnId
    status := .failed
    failureCode := some "provider_wait_failure"
    failureMessage := some error.display
    updatedAt := now }

/-- The sessions half of `apply_terminal_failure`. -/
def applyTerminalFailureSession (sessionId turnId : String) (error : RuntimeError) : RuntimeM Unit := do
  let now ← nowMs
  changeSession sessionId (failedSession turnId error now)
  let _ ← appendSessionEvent sessionId (some turnId) "provider.error" (.obj [("error", .str error.display)])

def applyTerminalFailure (sessionId turnId : String) (error : RuntimeError) : RuntimeM Unit := do
  applyTerminalFailureTurn turnId error
  applyTerminalFailureSession sessionId turnId error

end Gooselake.Runtime
