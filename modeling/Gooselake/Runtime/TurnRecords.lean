import Gooselake.Runtime.Pieces
import Gooselake.Runtime.SessionRecords

/-!
What holds of the turn rows of the store. Most pieces write none; a property of turn records that the
few writing ones establish holds of every row, through restarts and recovery.
-/

namespace Gooselake.Runtime

open Gooselake.Core Data Library Library.Exec

set_option autoImplicit false

def turnRows (m : Manager) : List TurnRecord := m.store.turns

/-! ## Pieces that write no turn row -/

section

variable {α : Type}

def SameTurnRows (m m' : Manager) : Prop := turnRows m' = turnRows m

instance : Std.Refl SameTurnRows := ⟨fun _ => rfl⟩

instance : Trans SameTurnRows SameTurnRows SameTurnRows := ⟨fun h h' => Eq.trans h' h⟩

theorem preserves_allocateId (stem suffix : String) : Preserves turnRows (allocateId stem suffix) :=
  .bind .get fun _ => .bind (.modify fun _ => rfl) fun _ => .pure _

theorem preserves_onStore {f : Store → Except RuntimeError α × Store} (h : ∀ st, (f st).2.turns = st.turns) :
    Preserves turnRows (onStore f) := fun m => (after_onStore f _).mpr (h m.store)

theorem preserves_event (sessionId : String) (turnId : Option String) (kind : String) (payload : Json) :
    Preserves turnRows (appendSessionEvent sessionId turnId kind payload) := by
  refine .bind (preserves_allocateId _ _) fun _ => .bind (.bind .get fun _ => .pure _) fun _ => .bind
    (preserves_onStore ?_) fun _ => .bind (.modify fun _ => rfl) fun _ => .pure _
  exact Store.appendRuntimeEvent_keeps (g := Store.turns) (fun _ _ => rfl) (fun _ _ => rfl) _

theorem allows_sameTurnRows : Allows SameTurnRows where
  allocates := preserves_allocateId
  upsertsSession _ := preserves_onStore (Store.write_keeps (g := Store.turns) (fun _ _ => rfl) fun _ => rfl)
  upsertsApproval _ := preserves_onStore (Store.write_keeps (g := Store.turns) (fun _ _ => rfl) fun _ => rfl)
  insertsSession _ _ := .modify fun _ => rfl
  insertsTurn _ _ := .modify fun _ => rfl
  insertsApproval _ _ := .modify fun _ => rfl
  appends _ _ _ _ _ := preserves_event _ _ _ _

theorem preserves_spawnWaitForTurn (provider : ProviderKind) (sessionId turnId : String) :
    Within SameTurnRows (spawnWaitForTurn provider sessionId turnId) :=
  .modify fun m => by
    unfold SameTurnRows
    split <;> rfl

def Call.writesTurn : Call → Bool
  | .send _ | .respondApply _ _ => true
  | _ => false

theorem preserves_goOn {c : Call} {piece : RuntimeM (Option Call)} (hp : Piece c piece) (hc : c.writesTurn = false) :
    Within SameTurnRows piece := by
  refine allows_sameTurnRows.goOn hp (fun d hd => ?_) (fun w _ => ?_) fun d resolved hd => ?_
  · subst hd
    cases hc
  · refine .bind (allows_sameTurnRows.insertsSession _ _) fun _ => ?_
    split
    · exact .bind (preserves_event _ _ _ _) fun _ => (ReadOnly.throw _).within
    · exact within_then (allows_sameTurnRows.upsertsApproval _)
    · exact .bind (preserves_event _ _ _ _) fun _ => within_then (preserves_spawnWaitForTurn _ _ _)
  · subst hd
    cases hc

end

/-! ## Turns completed when they are over -/

/-- A turn has a time of completion when it is over, and only then. -/
def CompletedWhenOver (turn : TurnRecord) : Prop := turn.completedAt.isSome = isTerminalTurnStatus turn.status

def RowsCompleted (m : Manager) : Prop := ∀ r ∈ turnRows m, CompletedWhenOver r

section

variable {α : Type} {m : Manager}

theorem SendWrite.completedWhenOver (w : SendWrite) : CompletedWhenOver w.turn := by
  obtain ⟨c, _ | ⟨error, now⟩⟩ := w
  · cases h : c.approvalId.isSome <;> simp [CompletedWhenOver, SendWrite.turn, SendCall.turn, isTerminalTurnStatus, h]
  · rfl

theorem rowsCompleted_of_same {x : RuntimeM α} (h : Within SameTurnRows x) (hm : RowsCompleted m) :
    After x m fun _ m' => RowsCompleted m' :=
  (h m).mono fun _ _ hr => by rwa [RowsCompleted, show turnRows _ = turnRows m from hr]

theorem rowsCompleted_upsertTurn (hm : RowsCompleted m) {turn : TurnRecord} (ht : CompletedWhenOver turn) :
    After (onStore (Store.upsertTurn turn)) m fun _ m' => RowsCompleted m' := by
  rw [after_onStore]
  have hup : ∀ r ∈ upsert TurnRecord.id (fun _ new => new) turn m.store.turns, CompletedWhenOver r := by
    intro r hr
    rcases mem_upsert hr with hr | rfl | ⟨old, -, -, rfl⟩
    · exact hm r hr
    · exact ht
    · exact ht
  intro r hr
  simp only [turnRows, Store.upsertTurn, Store.write] at hr
  split at hr
  · exact hm r hr
  · exact hup r hr
  · exact hup r hr

theorem rowsCompleted_bind {β : Type} {x : RuntimeM α} {f : α → RuntimeM β}
    (hx : After x m fun _ m' => RowsCompleted m')
    (hf : ∀ a m', RowsCompleted m' → After (f a) m' fun _ m' => RowsCompleted m') :
    After (x >>= f) m fun _ m' => RowsCompleted m' :=
  after_bind hx hf fun _ _ h => h

theorem rowsCompleted_changeTurn (hm : RowsCompleted m) {key : String} {f : TurnRecord → TurnRecord}
    (hf : ∀ turn, m.turns.lookup key = some turn → CompletedWhenOver (f turn)) :
    After (changeTurn key f) m fun _ m' => RowsCompleted m' := by
  simp only [changeTurn, after_bind_iff, after_get]
  cases ht : m.turns.lookup key with
  | none => exact (after_pure _ _ _).mpr hm
  | some turn =>
    simp only [after_bind_iff, after_insertTurn]
    have hins : RowsCompleted { m with turns := m.turns.insert key (f turn) } := hm
    exact rowsCompleted_upsertTurn hins (hf turn ht)

theorem sendTurnStore_rowsCompleted (hm : RowsCompleted m) (c : SendCall) (ack : Except RuntimeError ProviderTurnAck) :
    After (sendTurnStore c ack) m fun _ m' => RowsCompleted m' := by
  simp only [sendTurnStore, after_bind_iff, after_nowMs, after_ofExcept]
  cases c.settle ack m.clock with
  | error e => exact hm
  | ok w =>
    refine (rowsCompleted_upsertTurn hm w.completedWhenOver).elim (fun _ m' h => ?_) fun _ _ h => h
    exact (rowsCompleted_of_same (allows_sameTurnRows.upsertsSession _) h).elim (fun _ _ h => (after_pure _ _ _).mpr h)
      fun _ _ h => h

theorem respondApprovalApply_rowsCompleted (hm : RowsCompleted m) (c : RespondCall) (resolved : ApprovalRecord)
    (hopen : ∀ turn, m.turns.lookup resolved.turnId = some turn → turn.completedAt = none) :
    After (respondApprovalApply c resolved) m fun _ m' => RowsCompleted m' := by
  simp only [respondApprovalApply]
  rw [after_bind_iff, after_nowMs]
  cases c.decision with
  | accept =>
    refine rowsCompleted_bind (rowsCompleted_changeTurn hm fun turn ht => ?_) fun _ _ h => ?_
    · simp [CompletedWhenOver, acceptedTurn, hopen turn ht, isTerminalTurnStatus]
    · refine rowsCompleted_of_same ?_ h
      exact .bind (allows_sameTurnRows.changeSession _ _) fun _ => .bind (preserves_event _ _ _ _) fun _ =>
        .bind (preserves_spawnWaitForTurn _ _ _) fun _ => within_pure _
  | decline =>
    refine rowsCompleted_bind (rowsCompleted_changeTurn hm fun turn ht => rfl) fun _ _ h => ?_
    refine rowsCompleted_of_same ?_ h
    exact .bind (allows_sameTurnRows.changeSession _ _) fun _ => .bind (preserves_event _ _ _ _) fun _ => within_pure _

theorem applyTerminalResult_rowsCompleted (hm : RowsCompleted m) (result : ProviderTurnResult)
    (hover : ∀ turn, Ends m result turn → result.status ≠ .inProgress) :
    After (applyTerminalResult result) m fun _ m' => RowsCompleted m' := by
  simp only [applyTerminalResult, after_bind_iff, after_nowMs, after_get, after_orThrow]
  refine ⟨fun turn ht => ?_, fun _ => hm⟩
  split
  · exact (after_throw _ _ _).mpr hm
  next howner =>
  split
  · split
    · exact (after_pure _ _ _).mpr hm
    · refine rowsCompleted_of_same ?_ hm
      exact .bind (allows_sameTurnRows.changeSession _ _) fun _ => (ReadOnly.throw _).within
  · next hopen =>
    have hstatus := hover turn ⟨ht, by simpa using howner, by simpa using hopen⟩
    have hturn : CompletedWhenOver (finishedTurn result m.clock turn) := by
      cases hst : result.status <;>
        simp [CompletedWhenOver, finishedTurn, ProviderTurnStatus.toTurnStatus, isTerminalTurnStatus, hst] at hstatus ⊢
    have hins : RowsCompleted { m with turns := m.turns.insert result.turnId (finishedTurn result m.clock turn) } := hm
    rw [after_bind_iff, after_insertTurn]
    refine rowsCompleted_bind (rowsCompleted_upsertTurn hins hturn) fun _ _ h => ?_
    refine rowsCompleted_of_same ?_ h
    exact .bind (within_getSession _) fun _ => .bind (allows_sameTurnRows.insertsSession _ _) fun _ =>
      .bind (allows_sameTurnRows.upsertsSession _) fun _ => .bind (preserves_event _ _ _ _) fun _ => within_pure _

theorem applyTerminalFailureTurn_rowsCompleted (hm : RowsCompleted m) (turnId : String) (error : RuntimeError) :
    After (applyTerminalFailureTurn turnId error) m fun _ m' => RowsCompleted m' := by
  simp only [applyTerminalFailureTurn, after_bind_iff, after_nowMs, after_get]
  split
  · split
    · exact (after_pure _ _ _).mpr hm
    · exact rowsCompleted_changeTurn hm fun _ _ => rfl
  · exact (after_pure _ _ _).mpr hm

theorem goOn_rowsCompleted (hm : RowsCompleted m) {c : Call} {answer : Answer} {piece : RuntimeM (Option Call)}
    (hgo : c.goOn answer = some piece) (hopen : ∀ d resolved turn, c = .respondApply d resolved →
      m.turns.lookup resolved.turnId = some turn → turn.completedAt = none) :
    After piece m fun _ m' => RowsCompleted m' := by
  have hp := Call.piece_of_goOn hgo
  cases hc : c.writesTurn with
  | false => exact rowsCompleted_of_same (preserves_goOn hp hc) hm
  | true =>
    cases c with
    | send c =>
      cases hp
      exact rowsCompleted_bind (sendTurnStore_rowsCompleted hm c _) fun _ _ h => (after_pure _ _ _).mpr h
    | respondApply d resolved =>
      cases hp
      exact rowsCompleted_bind (respondApprovalApply_rowsCompleted hm d resolved fun turn => hopen d resolved turn rfl)
        fun _ _ h => (after_pure _ _ _).mpr h
    | _ => cases hc

/-! ## Recovery -/

theorem repairProviderRef_preserves (answers : RecoveryAnswers) (session : SessionRecord)
    (summary : StartupRecoverySummary) : Within SameTurnRows (repairProviderRef answers session summary) := fun _ =>
  (repairProviderRef_after answers session summary).mono fun _ _ h => congrArg turnRows h.1

theorem repairActiveTurn_rowsCompleted (hm : RowsCompleted m) (turns : Table String TurnRecord)
    (approvals : Table String ApprovalRecord) (session : SessionRecord) (r : Repair) :
    After (repairActiveTurn turns approvals session r) m fun _ m' => RowsCompleted m' := by
  simp only [repairActiveTurn]
  rw [after_bind_iff, after_nowMs]
  dsimp only
  split
  · exact rowsCompleted_of_same (.ite (within_pure _) (within_pure _)) hm
  split
  · exact (after_pure _ _ _).mpr hm
  split
  · exact (after_pure _ _ _).mpr hm
  split
  · exact (after_pure _ _ _).mpr hm
  split
  · split
    · exact (after_pure _ _ _).mpr hm
    · refine rowsCompleted_bind (rowsCompleted_upsertTurn hm rfl) fun _ _ h => rowsCompleted_of_same ?_ h
      exact .bind (.modify fun _ => rfl) fun _ => within_pure _
  · refine rowsCompleted_of_same ?_ hm
    exact .bind (within_providerKindOf _) fun _ => .bind (preserves_spawnWaitForTurn _ _ _) fun _ => within_pure _

theorem recoverSession_rowsCompleted (hm : RowsCompleted m) (answers : RecoveryAnswers)
    (turns : Table String TurnRecord) (approvals : Table String ApprovalRecord)
    (summary : StartupRecoverySummary) (sessionId : String) :
    After (recoverSession answers turns approvals summary sessionId) m fun _ m' => RowsCompleted m' := by
  refine rowsCompleted_bind (rowsCompleted_of_same ReadOnly.get.within hm) fun m₀ m₁ h => ?_
  split
  · exact (after_pure _ _ _).mpr h
  refine rowsCompleted_bind (rowsCompleted_of_same (repairProviderRef_preserves _ _ _) h) fun r m₂ h => ?_
  refine rowsCompleted_bind (repairActiveTurn_rowsCompleted h _ _ _ _) fun r' m₃ h => rowsCompleted_of_same ?_ h
  refine .ite ?_ (within_pure _)
  exact .bind within_nowMs fun _ => .bind (allows_sameTurnRows.upsertsSession _) fun _ =>
    .bind (allows_sameTurnRows.insertsSession _ _) fun _ => within_pure _

theorem recoverApproval_preserves (turns : Table String TurnRecord) (summary : StartupRecoverySummary)
    (approval : ApprovalRecord) : Within SameTurnRows (recoverApproval turns summary approval) := by
  refine .bind within_nowMs fun _ => .ite ?_ (within_pure _)
  exact .bind (allows_sameTurnRows.upsertsApproval _) fun _ =>
    .bind (allows_sameTurnRows.insertsApproval _ _) fun _ => within_pure _

theorem recoverStartup_rowsCompleted (hm : RowsCompleted m) (answers : RecoveryAnswers) :
    After (recoverStartup answers) m fun _ m' => RowsCompleted m' := by
  simp only [recoverStartup, after_bind_iff, after_nowMs, after_get, after_pure]
  refine (after_foldlM _ _ (fun summary k _ m h => ?_) hm).elim (fun _ m' h => ?_) fun _ _ h => h
  · exact recoverSession_rowsCompleted h answers _ _ summary k
  · refine (after_foldlM _ _ (fun summary a _ m h => ?_) h).elim (fun _ _ h => h) fun _ _ h => h
    exact rowsCompleted_of_same (recoverApproval_preserves _ summary a) h

end

end Gooselake.Runtime
