import Gooselake.TeamComms.Operations

/-!
The team service with any number of calls in flight, over a session manager that serves its own
calls at the same time. A step runs one piece of one call; the guard of a recipient is held by the
run of `inject_delivery` that is at a stage.
-/

namespace Gooselake.TeamComms

open Gooselake.Core Data Library Library.Exec
open Gooselake.Runtime (Manager RuntimeM Server Answer Call)

set_option autoImplicit false

/-- The operations a caller starts; the replay of a recipient's deferred deliveries is started by the
task that reads the events. -/
inductive Operation where
  | createTeam (request : TeamCreateRequest)
  | joinTeam (request : TeamJoinRequest)
  | removeTeamMember (teamId agentId : String)
  | setTeamLead (teamId leadAgentId : String)
  | deleteTeam (teamId : String)
  | sendDirect (request : TeamSendDirectRequest)
  | broadcast (request : TeamBroadcastRequest)
  | retryDelivery (teamId deliveryId : String)
  | cancelMessage (teamId messageId : String)
  | resumeDeferredForRecipient (recipient : String)
  | recoverStartupDeferredDeliveries

/-- What a call does when its `inject_delivery` has returned. -/
inductive Frame where
  | queue (rest : List String)
  | retry
  | replay (rest : List String)
  | recover (rest recipients : List String) (retried : ℕ)
  deriving Repr

inductive TeamCall where
  | createCheck (d : TeamDraft) (member : String) (todo : List String)
  | createWrite (d : TeamDraft)
  | createMembers (team : TeamRecord)
  | joinCheck (r : TeamJoinRequest)
  | joinWrite (r : TeamJoinRequest)
  | admitting (m : MessageDraft) (recipient : String) (todo : List String)
  | create (m : MessageDraft)
  | inject (r : Inject) (k : Frame)
  | recoverSession (recipient : String) (recipients : List String) (retried : ℕ)
  | recoverDeferred (recipient : String) (recipients : List String) (retried : ℕ)
  deriving Repr

/-! ## Where a call goes -/

def startInject (trigger : DeliveryAttemptTrigger) (k : List String → Frame) : List String → Option TeamCall
  | [] => none
  | id :: ids => some (.inject ⟨id, trigger, .start⟩ (k ids))

def nextRecipient (retried : ℕ) : List String → Option TeamCall
  | [] => none
  | recipient :: recipients => some (.recoverSession recipient recipients retried)

def nextDeferred (recipients : List String) (retried : ℕ) : List String → Option TeamCall
  | [] => nextRecipient retried recipients
  | id :: ids => some (.inject ⟨id, .startupRecovery, .start⟩ (.recover ids recipients retried))

def nextCheck (d : TeamDraft) : List String → TeamCall
  | [] => .createWrite d
  | member :: todo => .createCheck d member todo

def nextAdmit (m : MessageDraft) : List String → TeamCall
  | [] => .create m
  | recipient :: todo => .admitting m recipient todo

def countRetried (retried : ℕ) : Except RuntimeError TeamDeliveryRecord → ℕ
  | .ok updated => if updated.status ≠ .deferred then retried + 1 else retried
  | .error _ => retried

def Frame.next (result : Except RuntimeError TeamDeliveryRecord) : Frame → Option TeamCall
  | .queue rest => startInject .queue .queue rest
  | .retry => none
  | .replay rest => startInject .turnCompletedBoundary .replay rest
  | .recover rest recipients retried => nextDeferred recipients (countRetried retried result) rest

/-- After a piece of `inject_delivery`: its next one, or what follows its return. -/
def Frame.after (k : Frame) : Except RuntimeError (Inject ⊕ TeamDeliveryRecord) → Option TeamCall
  | .ok (.inl r) => some (.inject r k)
  | .ok (.inr delivery) => k.next (.ok delivery)
  | .error error => k.next (.error error)

/-! ## Pieces -/

def Operation.begin : Operation → CommsM (Option TeamCall)
  | .createTeam request => do
    let d ← createTeamBegin request
    return some (.createCheck d d.leadAgentId d.memberAgentIds)
  | .joinTeam request => do
    let r ← joinTeamBegin request
    return some (.joinCheck r)
  | .removeTeamMember teamId agentId => do
    let _ ← TeamComms.removeTeamMember teamId agentId
    return none
  | .setTeamLead teamId leadAgentId => do
    let _ ← TeamComms.setTeamLead teamId leadAgentId
    return none
  | .deleteTeam teamId => do
    TeamComms.deleteTeam teamId
    return none
  | .sendDirect request => do
    let (m, todo) ← sendDirectBegin request
    return some (nextAdmit m todo)
  | .broadcast request => do
    let (m, todo) ← broadcastBegin request
    return some (nextAdmit m todo)
  | .retryDelivery teamId deliveryId => do
    let id ← retryWrite teamId deliveryId
    return some (.inject ⟨id, .retry, .start⟩ .retry)
  | .cancelMessage teamId messageId => do
    let _ ← TeamComms.cancelMessage teamId messageId
    return none
  | .resumeDeferredForRecipient recipient => do
    return startInject .turnCompletedBoundary .replay (deferredFor (← get).state recipient)
  | .recoverStartupDeferredDeliveries => do
    ensureEnabled
    return nextRecipient 0 (← get).state.recipientDeliveryIds.keys

def TeamCall.goOn : TeamCall → Answer → Option (CommsM (Option TeamCall))
  | .createCheck d member todo, .lock => some do
    let _ ← requireSessionActive member
    return some (nextCheck d todo)
  | .createWrite d, .lock => some do
    let team ← TeamComms.createTeamWrite d
    return some (.createMembers team)
  | .createMembers team, .lock => some do
    let _ ← createTeamMembers team
    return none
  | .joinCheck r, .lock => some do
    let _ ← requireSessionActive r.agentId
    return some (.joinWrite r)
  | .joinWrite r, .lock => some do
    let _ ← joinTeamWrite r
    return none
  | .admitting m recipient todo, .lock => some do
    let m ← admitRecipient m recipient
    return some (nextAdmit m todo)
  | .create m, .lock => some do
    let ack ← createMessage m
    match ack.disposition with
    | .created => return startInject .queue .queue (ack.deliveries.map TeamDeliveryRecord.id)
    | .existing => return none
  | .inject r k, answer => (r.goOn answer).map fun piece => do
    return k.after (← attempt piece)
  | .recoverSession recipient recipients retried, .lock => some do
    match ← attempt (onRuntime (Runtime.getSession recipient)) with
    | .ok session =>
      if isIdle session then return some (.recoverDeferred recipient recipients retried)
      else return nextRecipient retried recipients
    | .error _ => return nextRecipient retried recipients
  | .recoverDeferred recipient recipients retried, .lock => some do
    return nextDeferred recipients retried (deferredFor (← get).state recipient)
  | _, _ => none

/-! ## Steps -/

structure Service where
  comms : Comms
  /-- The calls the session manager serves for others. -/
  runtimeCalls : Table ℕ Call
  calls : Table ℕ TeamCall

/-- The run of `inject_delivery` of a call. -/
def TeamCall.run : TeamCall → Option Inject
  | .inject r _ => some r
  | _ => none

def Inject.guard (r : Inject) : Option String :=
  match r.point with
  | .holding recipient _ => some recipient
  | _ => none

def Inject.waits (r : Inject) : Option String :=
  match r.point with
  | .waiting recipient => some recipient
  | _ => none

def Inject.runtimeCall (r : Inject) : Option RuntimeCall :=
  match r.point with
  | .holding _ (.interrupting _ _ _ _ call) => some call
  | .holding _ (.sending _ call) => some call
  | _ => none

def RuntimeCall.needsApprovals : RuntimeCall → Bool
  | .begin _ => false
  | .await call => call.needsApprovals

inductive Label where
  | runtime (l : Runtime.Label)
  | start (i : ℕ) (op : Operation)
  | goOn (i : ℕ) (answer : Answer)

namespace Service

def start (c : Comms) : Service := ⟨c, ∅, ∅⟩

def server (s : Service) : Server := ⟨s.comms.runtime, s.runtimeCalls⟩

def guardHeld (s : Service) (recipient : String) : Bool :=
  s.calls.values.any fun c => c.run.any fun r => r.guard = some recipient

def blocked (s : Service) (r : Inject) : Bool :=
  (r.waits.any fun recipient => s.guardHeld recipient) ||
    (r.runtimeCall.any RuntimeCall.needsApprovals && s.server.approvalsHeld)

def left : Except RuntimeError (Option TeamCall) → Option TeamCall
  | .ok after => after
  | .error _ => none

/-- The calls with call `i` at its next await, or over. -/
def put (calls : Table ℕ TeamCall) (i : ℕ) : Option TeamCall → Table ℕ TeamCall
  | some c => calls.insert i c
  | none => calls.erase i

/-- Run a piece of call `i`. -/
def settle (s : Service) (i : ℕ) (piece : CommsM (Option TeamCall)) : Service :=
  { s with
    comms := (piece.result s.comms).2
    calls := put s.calls i (left (piece.result s.comms).1) }

def step : Label → Service → Option Service
  | .runtime l, s => do
    let t ← s.server.step l
    some { s with comms := { s.comms with runtime := t.manager }, runtimeCalls := t.calls }
  | .start i op, s => if i ∈ s.calls then none else some (s.settle i op.begin)
  | .goOn i answer, s => do
    let c ← s.calls.lookup i
    let piece ← c.goOn answer
    if c.run.any s.blocked then none else some (s.settle i piece)

end Service

end Gooselake.TeamComms
