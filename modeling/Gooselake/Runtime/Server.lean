import Gooselake.Library.Runs
import Gooselake.Runtime.Turns

/-!
The session manager with any number of calls in flight. A step runs one piece of one call, from one
await to the next: the environment decides which call goes on and what its provider answers.
-/

namespace Gooselake.Runtime

open Gooselake.Core Data Library Library.Exec

set_option autoImplicit false

inductive Operation where
  | createSession (input : CreateSessionInput)
  | closeSession (sessionId : String) (reason : Option String)
  | forceCloseSession (sessionId : String) (reason : Option String)
  | resumeSession (sessionId : String) (input : ResumeSessionInput)
  | setSessionWorktreeId (sessionId : String) (worktreeId : Option String)
  | sendTurn (sessionId : String) (input : SendTurnInput)
  | interruptTurn (sessionId turnId : String)
  | respondApproval (sessionId approvalId : String) (input : ApprovalResponseInput)
  deriving Repr

/-- A call at an await: `create`, `close`, `resume`, `send`, `interrupt` and `respond` await the
provider, the others a lock. -/
inductive Call where
  | create (c : CreateCall)
  | createInsert (record : SessionRecord)
  | close (sessionId : String) (reason : String)
  | closeInsert (sessionId : String) (record : SessionRecord) (reason : String)
  | resume (c : ResumeCall)
  | resumeInsert (sessionId : String) (record : SessionRecord)
  | send (c : SendCall)
  | sendInsertTurn (w : SendWrite)
  | sendInsertSession (w : SendWrite)
  | sendInsertApproval (approval : ApprovalRecord)
  | interrupt (sessionId turnId : String)
  | respondLock (kind : ProviderKind) (sessionId approvalId : String) (input : ApprovalResponseInput)
  | respond (approvalId : String) (c : RespondCall)
  | respondApply (c : RespondCall) (resolved : ApprovalRecord)
  | failSession (sessionId turnId : String) (error : RuntimeError)
  deriving DecidableEq, Repr

/-- What a call gets when it goes on: the provider's answer, or the lock it waits for. -/
inductive Answer where
  | session (r : Except RuntimeError ProviderSession)
  | ack (r : Except RuntimeError ProviderTurnAck)
  | done (r : Except RuntimeError Unit)
  | lock

def Operation.begin : Operation → RuntimeM (Option Call)
  | .createSession input => do
    let c ← createSessionBegin input
    return some (.create c)
  | .closeSession sessionId reason => do
    closeSessionBegin sessionId
    return some (.close sessionId (reason.getD "closed_by_request"))
  | .forceCloseSession sessionId reason => do
    let updated ← finalizeSessionCloseStore sessionId
    return some (.closeInsert sessionId updated (reason.getD "closed_by_runtime_rollback"))
  | .resumeSession sessionId input => do
    let c ← resumeSessionBegin sessionId input
    return some (.resume c)
  | .setSessionWorktreeId sessionId worktreeId => do
    let _ ← Runtime.setSessionWorktreeId sessionId worktreeId
    return none
  | .sendTurn sessionId input => do
    let c ← sendTurnBegin sessionId input
    return some (.send c)
  | .interruptTurn sessionId turnId => do
    interruptTurnBegin sessionId turnId
    return some (.interrupt sessionId turnId)
  | .respondApproval sessionId approvalId input => do
    let kind ← respondApprovalBegin sessionId
    return some (.respondLock kind sessionId approvalId input)

def Call.goOn : Call → Answer → Option (RuntimeM (Option Call))
  | .create c, .session r => some do
    let record ← createSessionStore c r
    return some (.createInsert record)
  | .createInsert record, .lock => some do
    let _ ← createSessionInsert record
    return none
  | .close sessionId reason, .done r => some do
    ofExcept r
    let updated ← finalizeSessionCloseStore sessionId
    return some (.closeInsert sessionId updated reason)
  | .closeInsert sessionId record reason, .lock => some do
    let _ ← finalizeSessionCloseInsert sessionId record reason
    return none
  | .resume c, .session r => some do
    let record ← resumeSessionStore c r
    return some (.resumeInsert c.sessionId record)
  | .resumeInsert sessionId record, .lock => some do
    let _ ← resumeSessionInsert sessionId record
    return none
  | .send c, .ack r => some do
    let w ← sendTurnStore c r
    return some (.sendInsertTurn w)
  | .sendInsertTurn w, .lock => some do
    sendTurnInsertTurn w
    return some (.sendInsertSession w)
  | .sendInsertSession w, .lock => some do
    let approval ← sendTurnInsertSession w
    return approval.map .sendInsertApproval
  | .sendInsertApproval approval, .lock => some do
    sendTurnInsertApproval approval
    return none
  | .interrupt sessionId turnId, .done r => some do
    interruptTurnEnd sessionId turnId r
    return none
  | .respondLock kind sessionId approvalId input, .lock => some do
    let c ← respondApprovalCheck kind sessionId approvalId input
    return some (.respond approvalId c)
  | .respond approvalId c, .done r => some do
    let resolved ← respondApprovalResolve approvalId c r
    return some (.respondApply c resolved)
  | .respondApply c resolved, .lock => some do
    let _ ← respondApprovalApply c resolved
    return none
  | .failSession sessionId turnId error, .lock => some do
    applyTerminalFailureSession sessionId turnId error
    return none
  | _, _ => none

/-! ## Steps -/

structure Server where
  manager : Manager
  calls : Table ℕ Call

def Call.holdsApprovals : Call → Bool
  | .respond _ _ => true
  | _ => false

def Call.needsApprovals : Call → Bool
  | .respondLock _ _ _ _ | .sendInsertApproval _ => true
  | _ => false

inductive Label where
  | start (i : ℕ) (op : Operation)
  | goOn (i : ℕ) (answer : Answer)
  | waited (w : ℕ) (result : ProviderTurnResult)
  | waitFailed (w i : ℕ) (error : RuntimeError)
  | tick (now : ℤ)

namespace Server

def start (m : Manager) : Server := ⟨m, ∅⟩

def left : Except RuntimeError (Option Call) → Option Call
  | .ok after => after
  | .error _ => none

/-- The calls with call `i` at its next await, or over. -/
def put (calls : Table ℕ Call) (i : ℕ) : Option Call → Table ℕ Call
  | some c => calls.insert i c
  | none => calls.erase i

/-- Run a piece of call `i`. -/
def settle (s : Server) (i : ℕ) (piece : RuntimeM (Option Call)) : Server where
  manager := (piece.result s.manager).2
  calls := put s.calls i (left (piece.result s.manager).1)

def approvalsHeld (s : Server) : Bool := s.calls.values.any Call.holdsApprovals

/-- The waits without the `w`-th, which has its answer. -/
def dropWait (s : Server) (w : ℕ) : Server :=
  { s with manager := { s.manager with waits := s.manager.waits.eraseIdx w } }

def step : Label → Server → Option Server
  | .start i op, s => if i ∈ s.calls then none else some (s.settle i op.begin)
  | .goOn i answer, s => do
    let c ← s.calls.lookup i
    let piece ← c.goOn answer
    if c.needsApprovals && s.approvalsHeld then none else some (s.settle i piece)
  | .waited w result, s =>
    if w < s.manager.waits.length then
      some { s with manager := ((applyTerminalResult result).result (s.dropWait w).manager).2 }
    else none
  | .waitFailed w i error, s => do
    let task ← s.manager.waits[w]?
    if i ∈ s.calls then none
    else some ((s.dropWait w).settle i do
      applyTerminalFailureTurn task.turnId error
      return some (.failSession task.sessionId task.turnId error))
  | .tick now, s => some { s with manager := { s.manager with clock := now } }

end Server

end Gooselake.Runtime
