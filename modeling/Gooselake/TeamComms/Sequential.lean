import Gooselake.TeamComms.Operations

/-!
The operations of the team service in one run each, with the provider's answers to the calls they
make: what a caller sees when nothing else happens meanwhile.
-/

namespace Gooselake.TeamComms

open Gooselake.Core Data Library Library.Exec

set_option autoImplicit false

abbrev Answers := String → InjectAnswers

/-! ## Sends -/

inductive SendRequest where
  | direct (request : TeamSendDirectRequest)
  | broadcast (request : TeamBroadcastRequest)
  deriving DecidableEq, Repr

def SendRequest.begin : SendRequest → CommsM (MessageDraft × List String)
  | .direct request => sendDirectBegin request
  | .broadcast request => broadcastBegin request

def SendRequest.draft (r : SendRequest) : CommsM MessageDraft := do
  let (m, recipients) ← r.begin
  recipients.foldlM admitRecipient m

def queueAndAttemptDelivery (answers : Answers) (deliveries : List TeamDeliveryRecord) : CommsM Unit :=
  deliveries.forM fun delivery => do
    let _ ← attempt (injectDelivery delivery.id .queue (answers delivery.recipientAgentId))

/-- `send_direct` and `broadcast`. -/
def send (r : SendRequest) (answers : Answers) : CommsM TeamMessageAck := do
  let m ← r.draft
  let ack ← createMessage m
  match ack.disposition with
  | .created =>
    queueAndAttemptDelivery answers ack.deliveries
    return ack
  | .existing => return ack

/-! ## Retries and replays -/

def retryDelivery (teamId deliveryId : String) (answers : InjectAnswers) : CommsM TeamDeliveryRecord := do
  let id ← retryWrite teamId deliveryId
  injectDelivery id .retry answers

def resumeDeferredForRecipient (recipient : String) (answers : InjectAnswers) : CommsM Unit := do
  (deferredFor (← get).state recipient).forM fun id => do
    let _ ← attempt (injectDelivery id .turnCompletedBoundary answers)

/-- A round of the recovery: the delivery is tried, and counted when it does not stay deferred. -/
def recoverDelivery (answers : Answers) (recipient : String) (retried : ℕ) (id : String) : CommsM ℕ := do
  match ← attempt (injectDelivery id .startupRecovery (answers recipient)) with
  | .ok updated => return if updated.status ≠ .deferred then retried + 1 else retried
  | .error _ => return retried

def recoverRecipient (answers : Answers) (retried : ℕ) (recipient : String) : CommsM ℕ := do
  match ← attempt (onRuntime (Runtime.getSession recipient)) with
  | .error _ => return retried
  | .ok session =>
    if isIdle session then
      (deferredFor (← get).state recipient).foldlM (recoverDelivery answers recipient) retried
    else return retried

def recoverStartupDeferredDeliveries (answers : Answers) : CommsM ℕ := do
  ensureEnabled
  (← get).state.recipientDeliveryIds.keys.foldlM (recoverRecipient answers) 0

end Gooselake.TeamComms
