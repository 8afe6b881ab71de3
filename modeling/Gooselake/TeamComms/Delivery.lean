import Gooselake.Runtime.Server
import Gooselake.TeamComms.State

/-!
`inject_delivery` and the status changes of a delivery, cut at their awaits. A run of
`inject_delivery` is a point it has reached: before the recipient's guard, waiting for it, or at a
stage that holds it.
-/

namespace Gooselake.TeamComms

open Gooselake.Core Data Library Library.Exec
open Gooselake.Runtime (Manager RuntimeM isClosedOrFailed Operation Call Answer SendAnswers SendTurnInput)

set_option autoImplicit false

/-! ## transition_delivery_status -/

/-- The arguments of one `transition_delivery_status` call. -/
structure Change where
  current : TeamDeliveryRecord
  next : DeliveryStatus
  injectionStrategy : Option String
  lastErrorCode : Option String
  lastErrorMessage : Option String
  deriving DecidableEq, Repr

def Change.to (current : TeamDeliveryRecord) (next : DeliveryStatus) : Change :=
  ⟨current, next, none, none, none⟩

def Change.apply (c : Change) (now : ℤ) (delivery : TeamDeliveryRecord) : TeamDeliveryRecord :=
  { delivery with
    status := c.next
    updatedAt := now
    injectionStrategy := c.injectionStrategy.or delivery.injectionStrategy
    lastErrorCode := if c.next = .failed then c.lastErrorCode else none
    lastErrorMessage := if c.next = .failed then c.lastErrorMessage else none
    injectedTurnId := if c.next = .injected then delivery.injectedTurnId else none }

/-- How the write of a status ended: with the record as it is, or with the changed one. -/
inductive Written where
  | unchanged (delivery : TeamDeliveryRecord)
  | changed (delivery : TeamDeliveryRecord)
  deriving DecidableEq, Repr

def putDelivery (delivery : TeamDeliveryRecord) (s : TeamCommsState) : TeamCommsState :=
  { s with deliveries := s.deliveries.insert delivery.id delivery }

def deliveryPayload (delivery : TeamDeliveryRecord) : Json := .obj [("delivery", delivery.toJson)]

/-- `transition_delivery_status` up to `message_terminal_state`. A delivery whose status is no longer
the one of `current` is returned as it is. -/
def transitionWrite (trigger : DeliveryAttemptTrigger) (c : Change) : CommsM Written := do
  if isValidTransition c.current.status c.next then
    let delivery ← orThrow ((← get).state.deliveries.lookup c.current.id)
      (.notFound s!"delivery {c.current.id}")
    if delivery.status ≠ c.current.status then
      return .unchanged delivery
    else
      let now ← nowMs
      let updated := c.apply now delivery
      changeState fun s => { s with deliveries := s.deliveries.insert c.current.id updated }
      onStore (Store.upsertTeamDelivery updated)
      noteTeamEvent updated.teamId s!"team_delivery.{c.next.asStr}"
        (.obj [("delivery", updated.toJson), ("trigger", .str trigger.asStr)])
        (some c.current.recipientAgentId)
      return .changed updated
  else if c.current.status = c.next then
    return .unchanged c.current
  else
    throw (.invalidState s!"invalid delivery transition {c.current.status.asStr} -> {c.next.asStr}")

def messageTerminalState (s : TeamCommsState) (messageId : String) : Bool :=
  match s.messageDeliveryIds.lookup messageId with
  | none => true
  | some ids => ids.all fun id => (s.deliveries.lookup id).any fun d => isTerminalStatus d.status

/-- The rest of `transition_delivery_status`, after a changed record. -/
def transitionFinish (c : Change) : CommsM Unit := do
  if messageTerminalState (← get).state c.current.messageId then
    noteTeamEvent c.current.teamId "team_message.completed"
      (.obj [("message_id", .str c.current.messageId), ("team_id", .str c.current.teamId)])
      (some c.current.recipientAgentId)

def transitionDeliveryStatus (trigger : DeliveryAttemptTrigger) (c : Change) : CommsM TeamDeliveryRecord := do
  match ← transitionWrite trigger c with
  | .unchanged delivery => return delivery
  | .changed delivery =>
    transitionFinish c
    return delivery

def transitionDeliveryWithTurnId (deliveryId turnId : String) : CommsM Unit := do
  match (← get).state.deliveries.lookup deliveryId with
  | none => pure ()
  | some delivery =>
    let now ← nowMs
    let updated := { delivery with injectedTurnId := some turnId, updatedAt := now }
    changeState fun s => { s with deliveries := s.deliveries.insert deliveryId updated }
    onStore (Store.upsertTeamDelivery updated)
    noteTeamEvent updated.teamId "team_delivery.injected" (deliveryPayload updated)
      (some updated.recipientAgentId)

/-! ## What inject_delivery reads -/

def injectRecipient (deliveryId : String) : CommsM String := do
  let delivery ← orThrow ((← get).state.deliveries.lookup deliveryId) (.notFound s!"delivery {deliveryId}")
  return delivery.recipientAgentId

def injectSnapshot (deliveryId : String) : CommsM (TeamDeliveryRecord × TeamMessageRecord) := do
  let s := (← get).state
  let delivery ← orThrow (s.deliveries.lookup deliveryId) (.notFound s!"delivery {deliveryId}")
  let message ← orThrow (s.messages.lookup delivery.messageId)
    (.invalidState s!"delivery {delivery.id} references missing message {delivery.messageId}")
  return (delivery, message)

def isQueued (status : DeliveryStatus) : Bool := status = .pending || status = .deferred

/-- The first delivery before `deliveryId` in a recipient's queue that is not over. -/
def queueBlocker (deliveries : Table String TeamDeliveryRecord) (deliveryId : String) :
    List String → Option TeamDeliveryRecord
  | [] => none
  | candidateId :: ids =>
    if candidateId = deliveryId then none else
      match deliveries.lookup candidateId with
      | none => queueBlocker deliveries deliveryId ids
      | some candidate =>
        if isTerminalStatus candidate.status then queueBlocker deliveries deliveryId ids
        else some candidate

def findRecipientQueueBlocker (s : TeamCommsState) (delivery : TeamDeliveryRecord) : Option String :=
  (queueBlocker s.deliveries delivery.id
    ((s.recipientDeliveryIds.lookup delivery.recipientAgentId).getD [])).map TeamDeliveryRecord.id

def deliveryPolicy (delivery : TeamDeliveryRecord) (message : TeamMessageRecord) :
    Except RuntimeError DeliveryPolicy :=
  normalizePolicy (delivery.effectivePolicy.getD message.policy)

/-- What `inject_delivery` decides once it has the recipient's session. -/
inductive Plan where
  | change (c : Change)
  | interrupt (session : SessionRecord) (turnId : String)
  | inject (session : SessionRecord)
  deriving Repr

def planDelivery (delivery : TeamDeliveryRecord) (policy : DeliveryPolicy) (trigger : DeliveryAttemptTrigger)
    (found : Except RuntimeError SessionRecord) : Plan :=
  match found with
  | .error error =>
    .change ⟨delivery, .failed, none, some "recipient_session_not_found", some error.display⟩
  | .ok session =>
    if isClosedOrFailed session.status then
      .change ⟨delivery, .failed, none, some "recipient_session_closed",
        some s!"recipient session {session.id} unavailable in status {session.status.asStr}"⟩
    else
      match session.activeTurnId with
      | none => .inject session
      | some turnId =>
        match policy with
        | .nonInterrupting | .startNewTurnOnly => .change (.to delivery .deferred)
        | .interruptAfterToolBoundary =>
          if trigger ≠ .turnCompletedBoundary then .change (.to delivery .deferred)
          else .interrupt session turnId
        | .immediateInterrupt => .interrupt session turnId

def interruptError (policy : DeliveryPolicy) (delivery : TeamDeliveryRecord) (error : RuntimeError) :
    RuntimeError :=
  .invalidState s!"{policy.asStr} failed for delivery {delivery.id}: {error.display}"

def injectedTurn (message : TeamMessageRecord) (session : SessionRecord) : SendTurnInput :=
  ⟨buildInjectedInput message session.id, none, none⟩

def injectedChange (injecting : TeamDeliveryRecord) : Change :=
  ⟨injecting, .injected, some "runtime_send_turn", none, none⟩

def rejectedChange (injecting : TeamDeliveryRecord) (error : RuntimeError) : Change :=
  match error with
  | .invalidState _ => ⟨injecting, .deferred, none, some "turn_ownership_rejected", some error.display⟩
  | _ => ⟨injecting, .failed, none, some "provider_rejected", some error.display⟩

/-! ## inject_delivery without interruption -/

/-- The provider's answers to the calls one `inject_delivery` may make. -/
structure InjectAnswers where
  interrupt : Except RuntimeError Unit
  send : SendAnswers

def injectDelivery (deliveryId : String) (trigger : DeliveryAttemptTrigger) (answers : InjectAnswers) :
    CommsM TeamDeliveryRecord := do
  let _ ← injectRecipient deliveryId
  let (delivery, message) ← injectSnapshot deliveryId
  if ¬ isQueued delivery.status then return delivery
  if (findRecipientQueueBlocker (← get).state delivery).isSome then
    if delivery.status = .pending then
      return ← transitionDeliveryStatus trigger (.to delivery .deferred)
    else return delivery
  let policy ← ofExcept (deliveryPolicy delivery message)
  let found ← attempt (onRuntime (Runtime.getSession delivery.recipientAgentId))
  match planDelivery delivery policy trigger found with
  | .change c => transitionDeliveryStatus trigger c
  | .interrupt session turnId =>
    match ← attempt (onRuntime (Runtime.interruptTurn session.id turnId fun _ => answers.interrupt)) with
    | .error error => throw (interruptError policy delivery error)
    | .ok _ => injectInto session message delivery
  | .inject session => injectInto session message delivery
where
  injectInto (session : SessionRecord) (message : TeamMessageRecord) (delivery : TeamDeliveryRecord) :
      CommsM TeamDeliveryRecord := do
    let injecting ← transitionDeliveryStatus trigger (.to delivery .injecting)
    match ← attempt (onRuntime (Runtime.sendTurn session.id (injectedTurn message session) answers.send)) with
    | .ok ack =>
      let injected ← transitionDeliveryStatus trigger (injectedChange injecting)
      let _ ← attempt (transitionDeliveryWithTurnId injected.id ack.turnId)
      return injected
    | .error error => transitionDeliveryStatus trigger (rejectedChange injecting error)

/-! ## A run of inject_delivery -/

/-- A call of the session manager made by the service: not begun, or at an await of its own. -/
inductive RuntimeCall where
  | begin (op : Operation)
  | await (call : Call)
  deriving Repr

def RuntimeCall.goOn : RuntimeCall → Answer → Option (RuntimeM (Option Call))
  | .begin op, .lock => some op.begin
  | .await call, answer => call.goOn answer
  | _, _ => none

/-- The turn of a `send_turn` call. -/
def sentTurnId : RuntimeCall → Option String
  | .await (.send c) => some c.turnId
  | .await (.sendInsertTurn w) => some w.call.turnId
  | .await (.sendInsertSession w) => some w.call.turnId
  | .await (.sendInsertApproval approval) => some approval.turnId
  | _ => none

/-- What `inject_delivery` does with the record a status change returned. -/
inductive Then where
  | finish
  | send (message : TeamMessageRecord) (session : SessionRecord)
  | recordTurn (turnId : String)
  deriving Repr

/-- The awaits of `inject_delivery` while it holds the recipient's guard. -/
inductive Stage where
  | snapshot
  | blocker (delivery : TeamDeliveryRecord) (message : TeamMessageRecord)
  | lookup (delivery : TeamDeliveryRecord) (message : TeamMessageRecord) (policy : DeliveryPolicy)
  | interrupting (delivery : TeamDeliveryRecord) (message : TeamMessageRecord) (policy : DeliveryPolicy)
      (session : SessionRecord) (call : RuntimeCall)
  | transition (c : Change) (k : Then)
  | completing (c : Change) (updated : TeamDeliveryRecord) (k : Then)
  | sending (injecting : TeamDeliveryRecord) (call : RuntimeCall)
  | recordTurn (injected : TeamDeliveryRecord) (turnId : String)
  deriving Repr

def Then.next (delivery : TeamDeliveryRecord) : Then → Stage ⊕ TeamDeliveryRecord
  | .finish => .inr delivery
  | .send message session =>
    .inl (.sending delivery (.begin (.sendTurn session.id (injectedTurn message session))))
  | .recordTurn turnId => .inl (.recordTurn delivery turnId)

def Stage.inject (delivery : TeamDeliveryRecord) (message : TeamMessageRecord) (session : SessionRecord) : Stage :=
  .transition (.to delivery .injecting) (.send message session)

def Stage.goOn (deliveryId : String) (trigger : DeliveryAttemptTrigger) :
    Stage → Answer → Option (CommsM (Stage ⊕ TeamDeliveryRecord))
  | .snapshot, .lock => some do
    let (delivery, message) ← injectSnapshot deliveryId
    if isQueued delivery.status then return .inl (.blocker delivery message) else return .inr delivery
  | .blocker delivery message, .lock => some do
    if (findRecipientQueueBlocker (← get).state delivery).isSome then
      if delivery.status = .pending then return .inl (.transition (.to delivery .deferred) .finish)
      else return .inr delivery
    else
      let policy ← ofExcept (deliveryPolicy delivery message)
      return .inl (.lookup delivery message policy)
  | .lookup delivery message policy, .lock => some do
    let found ← attempt (onRuntime (Runtime.getSession delivery.recipientAgentId))
    match planDelivery delivery policy trigger found with
    | .change c => return .inl (.transition c .finish)
    | .interrupt session turnId =>
      return .inl (.interrupting delivery message policy session (.begin (.interruptTurn session.id turnId)))
    | .inject session => return .inl (.inject delivery message session)
  | .interrupting delivery message policy session call, answer => (call.goOn answer).map fun piece => do
    match ← attempt (onRuntime piece) with
    | .ok (some call) => return .inl (.interrupting delivery message policy session (.await call))
    | .ok none => return .inl (.inject delivery message session)
    | .error error => throw (interruptError policy delivery error)
  | .transition c k, .lock => some do
    match ← transitionWrite trigger c with
    | .unchanged delivery => return k.next delivery
    | .changed delivery => return .inl (.completing c delivery k)
  | .completing c updated k, .lock => some do
    transitionFinish c
    return k.next updated
  | .sending injecting call, answer => (call.goOn answer).map fun piece => do
    match ← attempt (onRuntime piece) with
    | .ok (some call) => return .inl (.sending injecting (.await call))
    | .ok none =>
      return .inl (.transition (injectedChange injecting) (.recordTurn ((sentTurnId call).getD "")))
    | .error error => return .inl (.transition (rejectedChange injecting error) .finish)
  | .recordTurn injected turnId, .lock => some do
    let _ ← attempt (transitionDeliveryWithTurnId injected.id turnId)
    return .inr injected
  | _, _ => none

/-- How far a run of `inject_delivery` is. -/
inductive Point where
  | start
  | waiting (recipient : String)
  | holding (recipient : String) (stage : Stage)
  deriving Repr

structure Inject where
  deliveryId : String
  trigger : DeliveryAttemptTrigger
  point : Point
  deriving Repr

def Inject.goOn (r : Inject) (answer : Answer) : Option (CommsM (Inject ⊕ TeamDeliveryRecord)) :=
  match r.point, answer with
  | .start, .lock => some do
    let recipient ← injectRecipient r.deliveryId
    return .inl { r with point := .waiting recipient }
  | .waiting recipient, .lock => some do
    return .inl { r with point := .holding recipient .snapshot }
  | .holding recipient stage, answer => (stage.goOn r.deliveryId r.trigger answer).map fun piece => do
    match ← piece with
    | .inl stage => return .inl { r with point := .holding recipient stage }
    | .inr delivery => return .inr delivery
  | _, _ => none

end Gooselake.TeamComms
