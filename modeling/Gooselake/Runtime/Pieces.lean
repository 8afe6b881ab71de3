import Gooselake.Runtime.Moves

/-!
What holds from before to after every piece of a call, because it holds of the few things that pieces do. The pieces
that write a turn's row or append one of its events are left out, but for those that only do what the relation allows.
-/

namespace Gooselake.Runtime

open Gooselake.Core Data Library Library.Exec

set_option autoImplicit false

def endKinds : List String := ["turn.completed", "turn.interrupted", "turn.failed"]

def turnKinds : List String := "turn.started" :: endKinds

/-- The relation allows what pieces do to ids, sessions and approvals, the inserts of turns, and the events that
neither start nor end a turn. -/
structure Allows (R : Manager → Manager → Prop) : Prop where
  allocates : ∀ stem suffix, Within R (allocateId stem suffix)
  upsertsSession : ∀ r, Within R (onStore (Store.upsertSession r))
  upsertsApproval : ∀ r, Within R (onStore (Store.upsertApproval r))
  insertsSession : ∀ key r, Within R (insertSession key r)
  insertsTurn : ∀ key r, Within R (insertTurn key r)
  insertsApproval : ∀ key r, Within R (insertApproval key r)
  appends : ∀ sessionId turnId kind payload, turnId = none ∨ kind ∉ turnKinds →
    Within R (appendSessionEvent sessionId turnId kind payload)

section

variable {R : Manager → Manager → Prop} [Std.Refl R] [Trans R R R] {α β : Type}

omit [Trans R R R] in
theorem within_pure (a : α) : Within R (pure a : RuntimeM α) := (ReadOnly.pure a).within

theorem within_nowMs : Within R nowMs := .bind ReadOnly.get.within fun _ => within_pure _

theorem within_getSession (sessionId : String) : Within R (getSession sessionId) :=
  .bind ReadOnly.get.within fun _ => (ReadOnly.orThrow _ _).within

omit [Trans R R R] in
theorem within_providerKindOf (session : SessionRecord) : Within R (providerKindOf session) :=
  (ReadOnly.orThrow _ _).within

theorem within_requireProvider (kind : ProviderKind) : Within R (requireProvider kind) :=
  .bind ReadOnly.get.within fun _ => .ite (within_pure _) (ReadOnly.throw _).within

theorem within_then {x : RuntimeM α} {f : α → β} (h : Within R x) : Within R (do return f (← x)) :=
  .bind h fun _ => within_pure _

namespace Allows

theorem changeSession (h : Allows R) (key : String) (f : SessionRecord → SessionRecord) :
    Within R (changeSession key f) := by
  refine .bind ReadOnly.get.within fun m => ?_
  split
  · exact .bind (h.insertsSession _ _) fun _ => h.upsertsSession _
  · exact within_pure _

theorem insertsWithEvent (h : Allows R) (key : String) (r : SessionRecord) (kind : String) (payload : Json) (a : α) :
    Within R (do
      insertSession key r
      let _ ← appendSessionEvent key none kind payload
      return a) :=
  .bind (h.insertsSession _ _) fun _ => .bind (h.appends _ _ _ _ (.inl rfl)) fun _ => within_pure _

theorem finalizeSessionCloseStore (h : Allows R) (sessionId : String) : Within R (finalizeSessionCloseStore sessionId) :=
  .bind (within_getSession _) fun _ => .bind within_nowMs fun _ => .bind (h.upsertsSession _) fun _ => within_pure _

theorem sendTurnBegin (h : Allows R) (sessionId : String) (input : SendTurnInput) :
    Within R (sendTurnBegin sessionId input) := by
  refine .bind (within_getSession _) fun session => .ite (ReadOnly.throw _).within (.ite (ReadOnly.throw _).within ?_)
  refine .bind (within_providerKindOf _) fun kind => .bind (h.allocates _ _) fun _ => .bind within_nowMs fun _ =>
    .ite ?_ (within_pure _)
  exact .bind (h.allocates _ _) fun _ => within_pure _

theorem begin (h : Allows R) (op : Operation) : Within R op.begin := by
  -- the provider is looked up and nothing else is done
  have hlookup : ∀ session, Within R (do requireProvider (← providerKindOf session)) := fun session =>
    .bind (within_providerKindOf _) fun _ => within_requireProvider _
  cases op with
  | createSession input =>
    refine within_then ?_
    exact .bind (within_requireProvider _) fun _ => .bind within_nowMs fun _ => .bind (h.allocates _ _) fun _ =>
      within_pure _
  | closeSession sessionId reason => exact within_then (.bind (within_getSession _) hlookup)
  | forceCloseSession sessionId reason => exact within_then (h.finalizeSessionCloseStore _)
  | resumeSession sessionId input =>
    refine within_then (.bind (within_getSession _) fun _ => .bind (within_providerKindOf _) fun _ => ?_)
    exact .bind (within_requireProvider _) fun _ => .bind (ReadOnly.orThrow _ _).within fun _ => within_pure _
  | setSessionWorktreeId sessionId worktreeId =>
    refine within_then (.bind (within_getSession _) fun _ => .bind within_nowMs fun _ => ?_)
    exact .bind (h.insertsSession _ _) fun _ => .bind (h.upsertsSession _) fun _ => within_pure _
  | sendTurn sessionId input => exact within_then (h.sendTurnBegin _ _)
  | interruptTurn sessionId turnId =>
    exact within_then (.bind (within_getSession _) fun _ => .ite (ReadOnly.throw _).within (hlookup _))
  | respondApproval sessionId approvalId input =>
    refine within_then (.bind (within_getSession _) fun _ => .bind (within_providerKindOf _) fun _ => ?_)
    exact .bind (within_requireProvider _) fun _ => within_pure _

theorem respondApprovalCheck (kind : ProviderKind) (sessionId approvalId : String) (input : ApprovalResponseInput) :
    Within R (respondApprovalCheck kind sessionId approvalId input) :=
  .bind ReadOnly.get.within fun _ => .bind (ReadOnly.orThrow _ _).within fun _ => .ite (ReadOnly.throw _).within
    (.ite (ReadOnly.throw _).within (within_then (ReadOnly.ofExcept _).within))

theorem respondApprovalResolve (h : Allows R) (approvalId : String) (c : RespondCall)
    (answer : Except RuntimeError Unit) : Within R (respondApprovalResolve approvalId c answer) :=
  .bind (ReadOnly.ofExcept _).within fun _ => .bind within_nowMs fun _ => .bind (h.upsertsApproval _) fun _ =>
    .bind (h.insertsApproval _ _) fun _ => .bind (h.appends _ _ _ _ (.inr (by decide))) fun _ => within_pure _

theorem applyTerminalFailureSession (h : Allows R) (sessionId turnId : String) (error : RuntimeError) :
    Within R (applyTerminalFailureSession sessionId turnId error) :=
  .bind within_nowMs fun _ => .bind (h.changeSession _ _) fun _ =>
    .bind (h.appends _ _ _ _ (.inr (by decide))) fun _ => within_pure _

theorem goOn (h : Allows R) {c : Call} {piece : RuntimeM (Option Call)} (hp : Piece c piece)
    (hsend : ∀ d, c = .send d → ∀ r, Within R (sendTurnStore d r))
    (hinsert : ∀ w, c = .sendInsertSession w → Within R (sendTurnInsertSession w))
    (happly : ∀ d resolved, c ≠ .respondApply d resolved) : Within R piece := by
  cases hp with
  | create c r =>
    refine within_then (.bind (ReadOnly.ofExcept _).within fun _ => .ite (ReadOnly.throw _).within ?_)
    exact .bind (h.upsertsSession _) fun _ => within_pure _
  | createInsert | closeInsert | resumeInsert => exact .bind (h.insertsWithEvent _ _ _ _ _) fun _ => within_pure _
  | close sessionId reason r =>
    exact .bind (ReadOnly.ofExcept _).within fun _ => within_then (h.finalizeSessionCloseStore _)
  | resume c r =>
    refine within_then (.bind (ReadOnly.ofExcept _).within fun _ => .ite (ReadOnly.throw _).within ?_)
    exact .bind within_nowMs fun _ => .bind (h.upsertsSession _) fun _ => within_pure _
  | send c r => exact within_then (hsend c rfl r)
  | sendInsertTurn w => exact .bind (h.insertsTurn _ _) fun _ => within_pure _
  | sendInsertSession w => exact within_then (hinsert w rfl)
  | sendInsertApproval approval =>
    refine .bind (.bind (h.insertsApproval _ _) fun _ => ?_) fun _ => within_pure _
    exact .bind (h.appends _ _ _ _ (.inr (by decide))) fun _ => within_pure _
  | interrupt sessionId turnId r =>
    refine .bind (.bind (ReadOnly.ofExcept _).within fun _ => ?_) fun _ => within_pure _
    exact .bind (h.appends _ _ _ _ (.inr (by decide))) fun _ => within_pure _
  | respondLock kind sessionId approvalId input => exact within_then (respondApprovalCheck _ _ _ _)
  | respond approvalId c r => exact within_then (h.respondApprovalResolve _ _ _)
  | respondApply c resolved => exact absurd rfl (happly c resolved)
  | failSession sessionId turnId error => exact .bind (h.applyTerminalFailureSession _ _ _) fun _ => within_pure _

end Allows

end

end Gooselake.Runtime
