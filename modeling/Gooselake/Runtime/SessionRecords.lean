import Gooselake.Runtime.Moves
import Gooselake.Runtime.Process

/-!
What holds of every session record. The manager makes session records in a few ways only, and keeps
them in three places: its map, the calls in flight and the store. A property of records that all
these ways keep holds of every record in every run, restarts and recovery included.
-/

namespace Gooselake.Runtime

open Gooselake.Core Data Library Library.Exec

set_option autoImplicit false

inductive Remade (r : SessionRecord) : SessionRecord → Prop where
  | stamped (createdAt : ℤ) : Remade r { r with createdAt := createdAt }
  | touched (now : ℤ) : Remade r { r with updatedAt := now }
  | worktree (worktreeId : Option String) (now : ℤ) :
      Remade r { r with worktreeId := worktreeId, updatedAt := now }
  | closed (now : ℤ) : Remade r (closedRecord r now)
  | referred (ref canonical : Option String) :
      Remade r { r with providerSessionRef := ref, canonicalProviderSessionRef := canonical }
  | readied : r.status ≠ .closed → Remade r { r with status := .ready }
  | started (turnId : String) (status : SessionStatus) (now : ℤ) :
      status ≠ .closed → Remade r { r with status := status, activeTurnId := some turnId, updatedAt := now }
  | restarted (status : SessionStatus) : status ≠ .closed → Remade r { r with status := status }
  | released (active : Option String) (metadata : Json) (now : ℤ) : active = none ∨ active = r.activeTurnId →
      Remade r { r with
        activeTurnId := active, status := readyUnlessEnded r.status, metadata := metadata, updatedAt := now }
  | failed (active code message : Option String) (now : ℤ) : active = none ∨ active = r.activeTurnId →
      Remade r { r with
        status := .failed, failureCode := code, failureMessage := message, activeTurnId := active,
        updatedAt := now }

/-- A property of the records under a key that is there from the start and stays. -/
structure Lasting (ok : String → SessionRecord → Prop) : Prop where
  key : ∀ k r, ok k r → r.id = k
  created : ∀ (c : CreateCall) (created : ProviderSession), ok c.sessionId (c.record created)
  remade : ∀ k r r', Remade r r' → ok k r → ok k r'

theorem keyed_lasting : Lasting (fun k r => r.id = k) where
  key _ _ h := h
  created _ _ := rfl
  remade k r r' hm h := by
    cases hm <;> exact h

structure Each (ok : String → SessionRecord → Prop) (m : Manager) : Prop where
  table : ∀ k r, m.sessions.lookup k = some r → ok k r
  rows : ∀ r ∈ m.store.sessions, ok r.id r

def Call.records : Call → List (String × SessionRecord)
  | .createInsert record => [(record.id, record)]
  | .closeInsert sessionId record _ => [(sessionId, record)]
  | .resume c => [(c.sessionId, c.session)]
  | .resumeInsert sessionId record => [(sessionId, record)]
  | .send c => [(c.sessionId, c.session)]
  | .sendInsertTurn w | .sendInsertSession w => [(w.call.sessionId, w.session)]
  | _ => []

theorem releaseTurn_cases (turnId : String) (active : Option String) :
    releaseTurn turnId active = none ∨ releaseTurn turnId active = active := by
  unfold releaseTurn
  split
  · exact .inl rfl
  · exact .inr rfl

section

variable {ok : String → SessionRecord → Prop} {m : Manager} {k : String} {r : SessionRecord}

/-! ## Each change of a record is one of the ways -/

theorem Lasting.closed (h : Lasting ok) (hr : ok k r) (now : ℤ) : ok k (closedRecord r now) :=
  h.remade k r _ (.closed now) hr

theorem Lasting.resumed (h : Lasting ok) {c : ResumeCall} (hr : ok c.sessionId c.session)
    (resumed : ProviderSession) (now : ℤ) : ok c.sessionId (c.record resumed now) := by
  have h₁ := h.remade _ _ _ (.touched now) (h.remade _ _ _
    (.referred (some resumed.providerSessionRef) resumed.canonicalProviderSessionRef) hr)
  unfold ResumeCall.record
  by_cases hc : c.session.status = .closed
  · simpa [hc] using h₁
  · simpa [hc] using h.remade _ _ _ (.readied (by simpa using hc)) h₁

theorem Lasting.sent (h : Lasting ok) {w : SendWrite} (hr : ok w.call.sessionId w.call.session) :
    ok w.call.sessionId w.session := by
  obtain ⟨c, _ | ⟨error, now⟩⟩ := w
  · refine h.remade _ _ _ (.started c.turnId _ c.now ?_) hr
    split <;> decide
  · exact h.remade _ _ _ (.released none c.session.metadata now (.inl rfl)) hr

theorem Lasting.accepted (h : Lasting ok) (hr : ok k r) (now : ℤ) : ok k (acceptedSession now r) :=
  h.remade _ _ _ (.touched now) (h.remade _ _ _ (.restarted .turnRunning (by decide)) hr)

theorem Lasting.declined (h : Lasting ok) (hr : ok k r) (turnId : String) (now : ℤ) :
    ok k (declinedSession turnId now r) :=
  h.remade _ _ _ (.released _ r.metadata now (releaseTurn_cases turnId _)) hr

theorem Lasting.finished (h : Lasting ok) (hr : ok k r) (result : ProviderTurnResult) (turn : TurnRecord)
    (now : ℤ) : ok k (finishedSession result turn now r) :=
  h.remade _ _ _ (.released _ _ now (releaseTurn_cases result.turnId _)) hr

theorem Lasting.conflicted (h : Lasting ok) (hr : ok k r) (conflict : String) (now : ℤ) :
    ok k (conflictedSession conflict now r) :=
  h.remade _ _ _ (.failed _ _ _ now (.inr rfl)) hr

theorem Lasting.waitFailed (h : Lasting ok) (hr : ok k r) (turnId : String) (error : RuntimeError)
    (now : ℤ) : ok k (failedSession turnId error now r) :=
  h.remade _ _ _ (.failed _ _ _ now (releaseTurn_cases turnId _)) hr

/-! ## The primitive actions -/

theorem Each.congr {m' : Manager} (h : Each ok m) (hs : m'.sessions = m.sessions)
    (hr : m'.store.sessions = m.store.sessions) : Each ok m' :=
  ⟨by rw [hs]; exact h.table, by rw [hr]; exact h.rows⟩

theorem Each.insert (h : Each ok m) (hr : ok k r) :
    Each ok { m with sessions := m.sessions.insert k r } where
  table k' r' hk := by
    simp only [Table.lookup_insert] at hk
    split at hk
    · next he =>
      obtain rfl := Option.some.inj hk
      exact he ▸ hr
    · exact h.table k' r' hk
  rows := h.rows

theorem each_event (h : Each ok m) (sessionId : String) (turnId : Option String) (kind : String)
    (payload : Json) : After (appendSessionEvent sessionId turnId kind payload) m fun _ m' => Each ok m' := by
  simp only [appendSessionEvent, appendEvent, after_bind_iff, after_allocateId, after_nowMs, after_onStore]
  generalize hst : Store.appendRuntimeEvent _ _ = o
  have hr : o.2.sessions = m.store.sessions := hst ▸ Store.appendRuntimeEvent_sessions _ _
  obtain ⟨e | record, st⟩ := o
  · exact h.congr rfl hr
  · simp only [after_modify, after_pure]
    exact h.congr rfl hr

theorem each_write (h : Each ok m) {f : Store → Except RuntimeError Unit × Store}
    (hf : ∀ s, (f s).2.sessions = s.sessions) : After (onStore f) m fun _ m' => Each ok m' := by
  rw [after_onStore]
  exact h.congr rfl (hf m.store)

theorem each_upsertSession (hl : Lasting ok) (h : Each ok m) (hr : ok k r) :
    After (onStore (Store.upsertSession r)) m fun _ m' => Each ok m' := by
  rw [after_onStore]
  refine ⟨h.table, fun r' hr' => ?_⟩
  have hrow : ok r.id r := (hl.key k r hr).symm ▸ hr
  have hup : ∀ r' ∈ upsert SessionRecord.id
      (fun old new : SessionRecord => { new with createdAt := old.createdAt }) r m.store.sessions, ok r'.id r' := by
    intro r' hr'
    rcases mem_upsert hr' with hr' | rfl | ⟨old, -, -, rfl⟩
    · exact h.rows r' hr'
    · exact hrow
    · exact hl.remade _ _ _ (.stamped old.createdAt) hrow
  simp only [Store.upsertSession, Store.write] at hr'
  split at hr'
  · exact h.rows r' hr'
  · exact hup r' hr'
  · exact hup r' hr'

theorem each_bind {α β : Type} {x : RuntimeM α} {f : α → RuntimeM β}
    (hx : After x m fun _ m' => Each ok m') (hf : ∀ a m', Each ok m' → After (f a) m' fun _ m' => Each ok m') :
    After (x >>= f) m fun _ m' => Each ok m' :=
  after_bind hx hf fun _ _ h => h

/-! ## The pieces of the operations -/

theorem each_insert_event (h : Each ok m) (hr : ok k r) (kind : String) (payload : Json) {α : Type} (a : α) :
    After (do
      insertSession k r
      let _ ← appendSessionEvent k none kind payload
      return a) m fun _ m' => Each ok m' := by
  simp only [after_bind_iff, after_insertSession, after_pure]
  exact (each_event (h.insert hr) _ _ _ _).elim (fun _ _ h => h) fun _ _ h => h

theorem each_changeSession (hl : Lasting ok) (h : Each ok m) {key : String} {f : SessionRecord → SessionRecord}
    (hf : ∀ r, ok key r → ok key (f r)) : After (changeSession key f) m fun _ m' => Each ok m' := by
  simp only [changeSession, after_bind_iff, after_get]
  cases hs : m.sessions.lookup key with
  | none => exact (after_pure _ _ _).mpr h
  | some session =>
    have hr := hf session (h.table key session hs)
    simp only [after_bind_iff, after_insertSession]
    exact each_upsertSession hl (h.insert hr) hr

theorem each_changeTurn (h : Each ok m) {key : String} {f : TurnRecord → TurnRecord} :
    After (changeTurn key f) m fun _ m' => Each ok m' := by
  simp only [changeTurn, after_bind_iff, after_get]
  cases m.turns.lookup key with
  | none => exact (after_pure _ _ _).mpr h
  | some turn =>
    simp only [after_bind_iff, after_insertTurn]
    refine each_write ?_ (Store.upsertTurn_sessions _)
    exact h.congr rfl rfl

theorem each_spawn (h : Each ok m) (provider : ProviderKind) (sessionId turnId : String) :
    After (spawnWaitForTurn provider sessionId turnId) m fun _ m' => Each ok m' := by
  rw [after_spawnWaitForTurn]
  split
  · exact h.congr rfl rfl
  · exact h

theorem finalizeSessionCloseStore_each (hl : Lasting ok) (h : Each ok m) (sessionId : String) :
    After (finalizeSessionCloseStore sessionId) m fun _ m' => Each ok m' := by
  simp only [finalizeSessionCloseStore, after_bind_iff, after_getSession, after_nowMs, after_pure]
  refine ⟨fun session hs => ?_, fun _ => h⟩
  exact (each_upsertSession hl h (hl.closed (h.table _ _ hs) m.clock)).elim (fun _ _ h => h) fun _ _ h => h

theorem setSessionWorktreeId_each (hl : Lasting ok) (h : Each ok m) (sessionId : String)
    (worktreeId : Option String) : After (setSessionWorktreeId sessionId worktreeId) m fun _ m' => Each ok m' := by
  simp only [setSessionWorktreeId, after_bind_iff, after_getSession, after_nowMs, after_insertSession, after_pure]
  refine ⟨fun session hs => ?_, fun _ => h⟩
  have hr := hl.remade _ _ _ (.worktree worktreeId m.clock) (h.table _ _ hs)
  exact (each_upsertSession hl (h.insert hr) hr).elim (fun _ _ h => h) fun _ _ h => h

theorem sendTurnBegin_each (h : Each ok m) (sessionId : String) (input : SendTurnInput) :
    After (sendTurnBegin sessionId input) m fun _ m' => Each ok m' := by
  simp only [sendTurnBegin, after_bind_iff, after_getSession]
  refine ⟨fun session hs => ?_, fun _ => h⟩
  split
  · exact (after_throw _ _ _).mpr h
  · split
    · exact (after_throw _ _ _).mpr h
    · simp only [after_bind_iff, after_allocateId, after_nowMs]
      refine after_providerKindOf _ fun r => ?_
      cases r with
      | error e => exact h
      | ok kind =>
        dsimp only
        split
        · simp only [after_bind_iff, after_allocateId, after_pure]
          exact h.congr rfl rfl
        · exact (after_pure _ _ _).mpr (h.congr rfl rfl)

theorem begin_each (hl : Lasting ok) (h : Each ok m) (op : Operation) :
    After op.begin m fun _ m' => Each ok m' := by
  cases op with
  | createSession input =>
    refine after_return ?_
    simp only [createSessionBegin, after_bind_iff, after_requireProvider, after_nowMs, after_allocateId, after_pure]
    exact ⟨fun _ => h.congr rfl rfl, fun _ => h⟩
  | closeSession sessionId reason => exact after_return ((closeSessionBegin_after sessionId).mono fun _ _ hm => hm.1 ▸ h)
  | forceCloseSession sessionId reason => exact after_return (finalizeSessionCloseStore_each hl h sessionId)
  | resumeSession sessionId input =>
    exact after_return ((resumeSessionBegin_after sessionId input).mono fun _ _ hm => hm.1 ▸ h)
  | setSessionWorktreeId sessionId worktreeId => exact after_return (setSessionWorktreeId_each hl h sessionId worktreeId)
  | sendTurn sessionId input => exact after_return (sendTurnBegin_each h sessionId input)
  | interruptTurn sessionId turnId =>
    exact after_return ((interruptTurnBegin_after sessionId turnId).mono fun _ _ hm => hm.1 ▸ h)
  | respondApproval sessionId approvalId input =>
    exact after_return ((respondApprovalBegin_after sessionId).mono fun _ _ hm => hm.1 ▸ h)

theorem createSessionStore_each (hl : Lasting ok) (h : Each ok m) (c : CreateCall)
    (answer : Except RuntimeError ProviderSession) :
    After (createSessionStore c answer) m fun _ m' => Each ok m' := by
  simp only [createSessionStore, after_bind_iff, after_ofExcept]
  cases answer with
  | error e => exact h
  | ok created =>
    dsimp only
    split
    · exact (after_throw _ _ _).mpr h
    · exact after_return (each_upsertSession hl h (hl.created c created))

theorem resumeSessionStore_each (hl : Lasting ok) (h : Each ok m) {c : ResumeCall}
    (hr : ok c.sessionId c.session) (answer : Except RuntimeError ProviderSession) :
    After (resumeSessionStore c answer) m fun _ m' => Each ok m' := by
  simp only [resumeSessionStore, after_bind_iff, after_ofExcept]
  cases answer with
  | error e => exact h
  | ok resumed =>
    dsimp only
    split
    · exact (after_throw _ _ _).mpr h
    · simp only [after_bind_iff, after_nowMs, after_pure]
      exact (each_upsertSession hl h (hl.resumed hr resumed m.clock)).elim (fun _ _ h => h) fun _ _ h => h

theorem sendTurnStore_each (hl : Lasting ok) (h : Each ok m) {c : SendCall} (hr : ok c.sessionId c.session)
    (ack : Except RuntimeError ProviderTurnAck) : After (sendTurnStore c ack) m fun _ m' => Each ok m' := by
  simp only [sendTurnStore, after_bind_iff, after_nowMs, after_ofExcept]
  cases hw : c.settle ack m.clock with
  | error e => exact h
  | ok w =>
    obtain rfl := SendCall.settle_call hw
    refine (each_write h (Store.upsertTurn_sessions _)).elim (fun _ m' h => ?_) fun _ _ h => h
    exact (each_upsertSession hl h (hl.sent hr)).elim (fun _ _ h => (after_pure _ _ _).mpr h) fun _ _ h => h

theorem sendTurnInsertSession_each (h : Each ok m) {w : SendWrite} (hr : ok w.call.sessionId w.session) :
    After (sendTurnInsertSession w) m fun _ m' => Each ok m' := by
  simp only [sendTurnInsertSession, after_bind_iff, after_insertSession]
  have hins := h.insert hr
  cases w.failure with
  | some f => exact each_bind (each_event hins _ _ _ _) fun _ _ h => (after_throw _ _ _).mpr h
  | none =>
    cases w.call.approvalId with
    | some approvalId =>
      exact after_return (each_write hins (Store.upsertApproval_sessions _))
    | none =>
      refine each_bind (each_event hins _ _ _ _) fun _ _ h => ?_
      exact after_return (each_spawn h _ _ _)

theorem sendTurnInsertApproval_each (h : Each ok m) (approval : ApprovalRecord) :
    After (sendTurnInsertApproval approval) m fun _ m' => Each ok m' := by
  simp only [sendTurnInsertApproval, after_bind_iff, after_insertApproval, after_pure]
  have hins : Each ok { m with approvals := m.approvals.insert approval.id approval } := h.congr rfl rfl
  exact (each_event hins _ _ _ _).elim (fun _ _ h => h) fun _ _ h => h

theorem interruptTurnEnd_each (h : Each ok m) (sessionId turnId : String) (answer : Except RuntimeError Unit) :
    After (interruptTurnEnd sessionId turnId answer) m fun _ m' => Each ok m' := by
  simp only [interruptTurnEnd, after_bind_iff, after_ofExcept, after_pure]
  cases answer with
  | error e => exact h
  | ok _ => exact (each_event h _ _ _ _).elim (fun _ _ h => h) fun _ _ h => h

theorem respondApprovalResolve_each (h : Each ok m) (approvalId : String) (c : RespondCall)
    (answer : Except RuntimeError Unit) :
    After (respondApprovalResolve approvalId c answer) m fun _ m' => Each ok m' := by
  simp only [respondApprovalResolve, after_bind_iff, after_ofExcept]
  cases answer with
  | error e => exact h
  | ok _ =>
    simp only [after_nowMs, after_insertApproval, after_pure]
    refine (each_write h (Store.upsertApproval_sessions _)).elim (fun _ m' h => ?_) fun _ _ h => h
    have hins : Each ok { m' with approvals := m'.approvals.insert approvalId (c.resolved m.clock) } :=
      h.congr rfl rfl
    exact (each_event hins _ _ _ _).elim (fun _ _ h => h) fun _ _ h => h

theorem respondApprovalApply_each (hl : Lasting ok) (h : Each ok m) (c : RespondCall) (resolved : ApprovalRecord) :
    After (respondApprovalApply c resolved) m fun _ m' => Each ok m' := by
  simp only [respondApprovalApply]
  rw [after_bind_iff, after_nowMs]
  cases c.decision with
  | accept =>
    refine each_bind (each_changeTurn h) fun _ _ h => ?_
    refine each_bind (each_changeSession hl h fun r hr => hl.accepted hr m.clock) fun _ _ h => ?_
    refine each_bind (each_event h _ _ _ _) fun _ _ h => ?_
    exact after_return (each_spawn h _ _ _)
  | decline =>
    refine each_bind (each_changeTurn h) fun _ _ h => ?_
    refine each_bind (each_changeSession hl h fun r hr => hl.declined hr _ m.clock) fun _ _ h => ?_
    exact after_return (each_event h _ _ _ _)

theorem applyTerminalResult_each (hl : Lasting ok) (h : Each ok m) (result : ProviderTurnResult) :
    After (applyTerminalResult result) m fun _ m' => Each ok m' := by
  simp only [applyTerminalResult, after_bind_iff, after_nowMs, after_get, after_orThrow]
  refine ⟨fun turn ht => ?_, fun _ => h⟩
  split
  · exact (after_throw _ _ _).mpr h
  · split
    · split
      · exact (after_pure _ _ _).mpr h
      · exact each_bind (each_changeSession hl h fun r hr => hl.conflicted hr _ _) fun _ _ h =>
          (after_throw _ _ _).mpr h
    · simp only [after_bind_iff, after_insertTurn, after_getSession, after_insertSession, after_pure]
      have hins : Each ok { m with turns := m.turns.insert result.turnId (finishedTurn result m.clock turn) } :=
        h.congr rfl rfl
      refine (each_write hins (Store.upsertTurn_sessions _)).elim (fun _ m' h => ?_) fun _ _ h => h
      refine ⟨fun session hs => ?_, fun _ => h⟩
      have hr := hl.finished (h.table _ _ hs) result turn m.clock
      refine (each_upsertSession hl (h.insert hr) hr).elim (fun _ m' h => ?_) fun _ _ h => h
      exact (each_event h _ _ _ _).elim (fun _ _ h => h) fun _ _ h => h

theorem applyTerminalFailureTurn_each (h : Each ok m) (turnId : String) (error : RuntimeError) :
    After (applyTerminalFailureTurn turnId error) m fun _ m' => Each ok m' := by
  simp only [applyTerminalFailureTurn, after_bind_iff, after_nowMs, after_get]
  cases m.turns.lookup turnId with
  | none => exact (after_pure _ _ _).mpr h
  | some turn =>
    dsimp only
    split
    · exact (after_pure _ _ _).mpr h
    · exact each_changeTurn h

theorem applyTerminalFailureSession_each (hl : Lasting ok) (h : Each ok m) (sessionId turnId : String)
    (error : RuntimeError) : After (applyTerminalFailureSession sessionId turnId error) m fun _ m' => Each ok m' := by
  simp only [applyTerminalFailureSession]
  rw [after_bind_iff, after_nowMs]
  refine each_bind (each_changeSession hl h fun r hr => hl.waitFailed hr turnId error m.clock) fun _ _ h => ?_
  exact after_return (each_event h _ _ _ _)

theorem goOn_each (hl : Lasting ok) (h : Each ok m) {c : Call} {answer : Answer}
    {piece : RuntimeM (Option Call)} (hc : ∀ p ∈ c.records, ok p.1 p.2) (hp : c.goOn answer = some piece) :
    After piece m fun _ m' => Each ok m' := by
  cases Call.piece_of_goOn hp with
  | create c r =>
    exact after_return (createSessionStore_each hl h c _)
  | createInsert record =>
    exact after_return (each_insert_event h (hc (record.id, record) (by simp [Call.records])) _ _ record)
  | close sessionId reason r =>
    rw [after_bind_iff, after_ofExcept]
    split
    · exact after_return (finalizeSessionCloseStore_each hl h sessionId)
    · exact h
  | closeInsert sessionId record reason =>
    exact after_return (each_insert_event h (hc (sessionId, record) (by simp [Call.records])) _ _ record)
  | resume c r =>
    exact after_return (resumeSessionStore_each hl h (hc (c.sessionId, c.session) (by simp [Call.records])) _)
  | resumeInsert sessionId record =>
    exact after_return (each_insert_event h (hc (sessionId, record) (by simp [Call.records])) _ _ record)
  | send c r =>
    exact after_return (sendTurnStore_each hl h (hc (c.sessionId, c.session) (by simp [Call.records])) _)
  | sendInsertTurn w =>
    refine after_return ?_
    rw [sendTurnInsertTurn, after_insertTurn]
    exact h.congr rfl rfl
  | sendInsertSession w =>
    exact after_return (sendTurnInsertSession_each h (hc (w.call.sessionId, w.session) (by simp [Call.records])))
  | sendInsertApproval approval =>
    exact after_return (sendTurnInsertApproval_each h approval)
  | interrupt sessionId turnId r =>
    exact after_return (interruptTurnEnd_each h sessionId turnId _)
  | respondLock kind sessionId approvalId input =>
    exact after_return ((respondApprovalCheck_after kind sessionId approvalId input).mono fun _ _ hm => hm.1 ▸ h)
  | respond approvalId c r =>
    exact after_return (respondApprovalResolve_each h approvalId c _)
  | respondApply c resolved =>
    exact after_return (respondApprovalApply_each hl h c resolved)
  | failSession sessionId turnId error =>
    exact after_return (applyTerminalFailureSession_each hl h sessionId turnId error)

theorem Moves.records (hl : Lasting ok) {before after : Option Call} {m' : Manager} (h : Each ok m)
    (hm : Moves m before after m') (hb : ∀ c, before = some c → ∀ p ∈ c.records, ok p.1 p.2) :
    ∀ c, after = some c → ∀ p ∈ c.records, ok p.1 p.2 := by
  intro c hc p hp
  cases hm with
  | stopped | createInserted | closeInserted | resumeInserted | worktreeSet | approvalInserted | acceptApplied
  | declineApplied | sessionFailed => cases hc
  | createBegun | closeBegun | interruptBegun | respondBegun | respondChecked =>
    cases hc
    cases hp
  | @createStored c created =>
    cases hc
    obtain rfl := List.mem_singleton.mp hp
    exact hl.created c created
  | closeStored quiet found was =>
    cases hc
    obtain rfl := List.mem_singleton.mp hp
    exact hl.closed (h.table _ _ found) _
  | resumeBegun quiet found =>
    cases hc
    obtain rfl := List.mem_singleton.mp hp
    exact h.table _ _ found
  | @resumeStored c resumed =>
    cases hc
    obtain rfl := List.mem_singleton.mp hp
    exact hl.resumed (hb _ rfl (c.sessionId, c.session) (by simp [Call.records])) resumed _
  | @sendBegun c _ quiet began next =>
    cases hc
    obtain rfl := List.mem_singleton.mp hp
    exact h.table _ _ began.session
  | @sendSettled w =>
    cases hc
    obtain rfl := List.mem_singleton.mp hp
    exact hl.sent (hb _ rfl (w.call.sessionId, w.call.session) (by simp [Call.records]))
  | turnInserted =>
    cases hc
    exact hb _ rfl p hp
  | @sessionInserted w r =>
    rcases r with e | (_ | a) <;> simp only [Except.map, Server.left, Option.map] at hc <;> cases hc
    cases hp
  | respondResolved sets next =>
    rcases next with rfl | rfl <;> cases hc
    cases hp

/-! ## Recovery -/

/-- A session under repair stays made of the session read; a closed session that names no turn is
left as it is. -/
structure Repaired (before after : Repair) : Prop where
  remade : Relation.ReflTransGen Remade before.session after.session
  closed : before.session.status = .closed → before.session.activeTurnId = none →
    after.session = before.session ∧ after.changed = before.changed

theorem Lasting.reflTransGen (hl : Lasting ok) {r' : SessionRecord} (h : Relation.ReflTransGen Remade r r')
    (hr : ok k r) : ok k r' := by
  induction h with
  | refl => exact hr
  | tail _ hstep ih => exact hl.remade _ _ _ hstep ih

theorem Repaired.refl (r : Repair) : Repaired r r := ⟨.refl, fun _ _ => ⟨rfl, rfl⟩⟩

theorem Repaired.note {r r' : Repair} (h : Repaired r r') (text : String) : Repaired r (r'.note text) :=
  ⟨h.remade, h.closed⟩

theorem failRepair_repaired {r : Repair} (h : r.session.status ≠ .closed ∨ r.session.activeTurnId ≠ none)
    (code message : String) : Repaired r (failRepair r code message) :=
  ⟨.single (.failed none _ _ r.session.updatedAt (.inl rfl)), fun hc ha => absurd ha (h.resolve_left (absurd hc))⟩

theorem clearActive_repaired {r : Repair} (h : r.session.activeTurnId ≠ none) : Repaired r (clearActive r) :=
  ⟨.single (.released none r.session.metadata r.session.updatedAt (.inl rfl)), fun _ ha => absurd ha h⟩

theorem repairProviderRef_after (answers : RecoveryAnswers) (session : SessionRecord)
    (summary : StartupRecoverySummary) :
    After (repairProviderRef answers session summary) m fun r m' => m' = m ∧
      ∀ repair, r = .ok repair → Repaired ⟨session, false, summary⟩ repair := by
  have hpure : ∀ {repair : Repair}, Repaired ⟨session, false, summary⟩ repair →
      After (pure repair : RuntimeM Repair) m fun r m' => m' = m ∧
        ∀ repair, r = .ok repair → Repaired ⟨session, false, summary⟩ repair := by
    intro repair h
    refine (after_pure _ _ _).mpr ⟨rfl, fun repair' he => ?_⟩
    obtain rfl := Except.ok.inj he
    exact h
  unfold repairProviderRef
  split
  · exact hpure (.refl _)
  · next hopen =>
    have hne : session.status ≠ .closed := by
      rintro hc
      simp [isClosedOrFailed, hc] at hopen
    split
    · exact hpure (failRepair_repaired (.inl hne) _ _)
    · next ref _ =>
      rw [after_bind_iff]
      refine after_providerKindOf _ fun r => ?_
      cases r with
      | error e => exact ⟨rfl, fun _ h => by cases h⟩
      | ok kind =>
        simp only [after_bind_iff, after_get]
        split
        · exact hpure (.refl _)
        · split
          · next resumed _ =>
            exact hpure ⟨.single (.referred _ _), fun hc => absurd hc hne⟩
          · exact hpure ((failRepair_repaired (.inl hne) _ _).note _)

def SameSessions (m m' : Manager) : Prop :=
  m'.sessions = m.sessions ∧ m'.store.sessions = m.store.sessions

theorem after_upsertTurn_same (m : Manager) (turn : TurnRecord) :
    After (onStore (Store.upsertTurn turn)) m fun _ m' => SameSessions m m' := by
  rw [after_onStore]
  exact ⟨rfl, Store.upsertTurn_sessions _ _⟩

theorem repairActiveTurn_after (turns : Table String TurnRecord) (approvals : Table String ApprovalRecord)
    (session : SessionRecord) (r : Repair) :
    After (repairActiveTurn turns approvals session r) m fun res m' => SameSessions m m' ∧
      ∀ repair, res = .ok repair → Repaired r repair := by
  have hpure : ∀ {m' : Manager} {repair : Repair}, SameSessions m m' → Repaired r repair →
      After (pure repair : RuntimeM Repair) m' fun res m' => SameSessions m m' ∧
        ∀ repair, res = .ok repair → Repaired r repair := by
    intro m' repair hm h
    refine (after_pure _ _ _).mpr ⟨hm, fun repair' he => ?_⟩
    obtain rfl := Except.ok.inj he
    exact h
  have hsame : SameSessions m m := ⟨rfl, rfl⟩
  simp only [repairActiveTurn]
  rw [after_bind_iff, after_nowMs]
  dsimp only
  split
  · split
    · next hst =>
      have hne : r.session.status ≠ .closed := by
        rintro hc
        simp [hc] at hst
      exact hpure hsame ⟨.single (.readied hne), fun hc => absurd hc hne⟩
    · exact hpure hsame (.refl _)
  · next t ha =>
    have hne : r.session.activeTurnId ≠ none := by simp [ha]
    split
    · exact hpure hsame ((clearActive_repaired hne).note _)
    · next turn _ =>
      split
      · exact hpure hsame (failRepair_repaired (.inr hne) _ _)
      split
      · exact hpure hsame (clearActive_repaired hne)
      split
      · split
        · exact hpure hsame
            ⟨.single (.restarted .waitingForApproval (by decide)), fun _ h => absurd h hne⟩
        · simp only [after_bind_iff, after_insertTurn]
          refine (after_upsertTurn_same m _).elim (fun _ m₁ h₁ => ?_) fun _ _ h => ⟨h, fun _ he => by cases he⟩
          have hr := clearActive_repaired hne
          exact hpure ⟨h₁.1, h₁.2⟩ ⟨hr.remade, hr.closed⟩
      · rw [after_bind_iff]
        refine after_providerKindOf _ fun res => ?_
        cases res with
        | error e => exact ⟨hsame, fun _ he => by cases he⟩
        | ok kind =>
          simp only [after_bind_iff, after_spawnWaitForTurn]
          have hr : Repaired r { r with
              session := { r.session with
                status := if isClosedOrFailed r.session.status then r.session.status else .turnRunning }
              summary := { r.summary with resumedWaits := r.summary.resumedWaits + 1 } } := by
            refine ⟨?_, fun _ h => absurd h hne⟩
            by_cases hc : isClosedOrFailed r.session.status = true
            · simp only [hc, if_true]
              exact .refl
            · simp only [hc]
              exact .single (.restarted .turnRunning (by decide))
          refine hpure ?_ hr
          split <;> exact ⟨rfl, rfl⟩

theorem recoverSession_each (hl : Lasting ok) (h : Each ok m) (answers : RecoveryAnswers)
    (turns : Table String TurnRecord) (approvals : Table String ApprovalRecord)
    (summary : StartupRecoverySummary) (sessionId : String) :
    After (recoverSession answers turns approvals summary sessionId) m fun _ m' => Each ok m' := by
  simp only [recoverSession, after_bind_iff, after_get]
  cases hs : m.sessions.lookup sessionId with
  | none => exact (after_pure _ _ _).mpr h
  | some session =>
    simp only [after_bind_iff]
    refine (repairProviderRef_after answers session summary).elim (fun r m₁ h₁ => ?_) fun e m₁ h₁ => h₁.1 ▸ h
    obtain ⟨rfl, h₁⟩ := h₁
    have hr := hl.reflTransGen (h₁ r rfl).remade (h.table _ _ hs)
    refine (repairActiveTurn_after turns approvals session r).elim (fun r' m₂ h₂ => ?_)
      fun e m₂ h₂ => h.congr h₂.1.1 h₂.1.2
    obtain ⟨hm, h₂⟩ := h₂
    have hr' := hl.remade _ _ _ (.touched m₂.clock) (hl.reflTransGen (h₂ r' rfl).remade hr)
    have h₂ : Each ok m₂ := h.congr hm.1 hm.2
    dsimp only
    split
    · simp only [after_bind_iff, after_nowMs, after_insertSession, after_pure]
      refine (each_upsertSession hl h₂ hr').elim (fun _ m₃ h₃ => ?_) fun _ _ h => h
      exact h₃.insert ((hl.key _ _ hr').symm ▸ hr')
    · exact (after_pure _ _ _).mpr h₂

theorem recoverApproval_each (h : Each ok m) (turns : Table String TurnRecord)
    (summary : StartupRecoverySummary) (approval : ApprovalRecord) :
    After (recoverApproval turns summary approval) m fun _ m' => Each ok m' := by
  simp only [recoverApproval, after_bind_iff, after_nowMs]
  split_ifs
  · simp only [after_bind_iff, after_insertApproval, after_pure]
    exact (each_write h (Store.upsertApproval_sessions _)).elim (fun _ m' h => h.congr rfl rfl) fun _ _ h => h
  · exact (after_pure _ _ _).mpr h

theorem recoverStartup_each (hl : Lasting ok) (h : Each ok m) (answers : RecoveryAnswers) :
    After (recoverStartup answers) m fun _ m' => Each ok m' := by
  simp only [recoverStartup, after_bind_iff, after_nowMs, after_get, after_pure]
  refine (after_foldlM _ _ (fun summary k _ m h => ?_) h).elim (fun _ m' h => ?_) fun _ _ h => h
  · exact recoverSession_each hl h answers _ _ summary k
  · refine (after_foldlM _ _ (fun summary a _ m h => ?_) h).elim (fun _ _ h => h) fun _ _ h => h
    exact recoverApproval_each h _ summary a

/-! ## Runs -/

/-- The property holds of the records of the map, of the store and of the calls in flight. -/
structure Lasts (ok : String → SessionRecord → Prop) (s : Server) : Prop where
  each : Each ok s.manager
  calls : ∀ i c, s.calls.lookup i = some c → ∀ p ∈ c.records, ok p.1 p.2

theorem Lasts.move {s : Server} {i : ℕ} {before after : Option Call} {m' : Manager} (hl : Lasting ok)
    (h : Lasts ok s) (hi : s.calls.lookup i = before) (hm : Moves s.manager before after m')
    (hm' : Each ok m') : Lasts ok ⟨m', Server.put s.calls i after⟩ := by
  refine ⟨hm', fun j c hj => ?_⟩
  rw [Server.lookup_put] at hj
  split at hj
  · exact hm.records hl h.each (fun c hc => h.calls i c (hi.trans hc)) c hj
  · exact h.calls j c hj

theorem lasts_step {s s' : Server} {l : Label} (hl : Lasting ok) (h : Lasts ok s)
    (hs : Server.step l s = some s') : Lasts ok s' := by
  cases l with
  | start i op =>
    simp only [Server.step] at hs
    split at hs
    · cases hs
    · next hi =>
      obtain rfl := Option.some.inj hs
      exact h.move hl (AList.lookup_eq_none.mpr hi) (begin_moves op).out (begin_each hl h.each op).out
  | goOn i answer =>
    simp only [Server.step, Option.bind_eq_bind, Option.bind_eq_some_iff] at hs
    obtain ⟨c, hc, piece, hp, hs⟩ := hs
    split at hs
    · cases hs
    · obtain rfl := Option.some.inj hs
      exact h.move hl hc (goOn_moves hp).out (goOn_each hl h.each (h.calls i c hc) hp).out
  | waited w result =>
    simp only [Server.step] at hs
    split at hs
    · obtain rfl := Option.some.inj hs
      have hdrop : Each ok (s.dropWait w).manager := h.each.congr rfl rfl
      exact ⟨(applyTerminalResult_each hl hdrop result).out, h.calls⟩
    · cases hs
  | waitFailed w i error =>
    have heach : Each ok s'.manager := by
      simp only [Server.step, Option.bind_eq_bind, Option.bind_eq_some_iff] at hs
      obtain ⟨task, -, hs⟩ := hs
      split at hs
      · cases hs
      · obtain rfl := Option.some.inj hs
        have hdrop : Each ok (s.dropWait w).manager := h.each.congr rfl rfl
        exact (each_bind (applyTerminalFailureTurn_each hdrop task.turnId error) fun _ _ h =>
          (after_pure (some (Call.failSession task.sessionId task.turnId error)) _ _).mpr h).out
    obtain ⟨task, after, m', -, -, hf, rfl⟩ := Server.step_waitFailed hs
    refine ⟨heach, fun j c hj p hp => ?_⟩
    rw [Server.lookup_put] at hj
    split at hj
    · cases hf with
      | wasOver quiet ended =>
        cases hj
        cases hp
      | failed sets next =>
        rcases next with rfl | rfl <;> cases hj
        cases hp
    · exact h.calls j c hj p hp
  | tick now =>
    rw [Server.step_tick hs]
    exact ⟨h.each.congr rfl rfl, h.calls⟩

theorem lasts_live {s s' : Server} {e : Event} (hl : Lasting ok) (h : Lasts ok s)
    (hs : Server.live e s = some s') : Lasts ok s' := by
  cases e with
  | serve l => exact lasts_step hl h hs
  | recover answers =>
    obtain rfl := Option.some.inj hs
    exact ⟨(recoverStartup_each hl h.each answers).out, h.calls⟩
  | restart providers =>
    obtain rfl := Option.some.inj hs
    refine ⟨⟨fun k r hr => ?_, h.each.rows⟩, fun i c hi => by simp [Server.start] at hi⟩
    obtain ⟨hmem, rfl⟩ := Manager.new_sessions hr
    exact h.each.rows r hmem

theorem lasts_start (ok : String → SessionRecord → Prop) (providers : List ProviderKind) (faults : List Bool) :
    Lasts ok (Server.start (Manager.empty providers faults)) := by
  refine ⟨⟨fun k r hr => ?_, fun r hr => ?_⟩, fun i c hi => ?_⟩
  · simp [Server.start, Manager.empty] at hr
  · simp [Server.start, Manager.empty, Store.empty] at hr
  · simp [Server.start] at hi

/-- A lasting property holds of every session record in every run. -/
theorem lasts_of_reaches {P : Event → Server → Prop} {providers : List ProviderKind} {faults : List Bool}
    {s : Server} (hl : Lasting ok) (h : Reaches Server.live P (Server.start (Manager.empty providers faults)) s) :
    Lasts ok s :=
  h.invariant (lasts_start ok providers faults) fun _ _ _ hi _ hs => lasts_live hl hi hs

end

end Gooselake.Runtime
