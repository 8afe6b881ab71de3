import Gooselake.Runtime.Outcomes
import Gooselake.Runtime.Server

/-!
What one step of the server can do. `Moves m before after m'` lists every way a piece of a call can
go: the await it starts from, the one it reaches and the maps it leaves. Invariants of runs are
proved by cases on it.
-/

namespace Gooselake.Runtime

open Gooselake.Core Data Library Library.Exec

set_option autoImplicit false

inductive Moves (m : Manager) : Option Call → Option Call → Manager → Prop where
  /-- the call ends before it inserts its session, with the maps as they were -/
  | stopped {before : Option Call} {m' : Manager} (quiet : Quiet m m')
      (was : ∀ w, before ≠ some (.sendInsertSession w)) : Moves m before none m'
  | createBegun {c : CreateCall} {m' : Manager} (quiet : Quiet m m')
      (fresh : ∃ stem, c.sessionId = numbered stem m.nextId) (next : m.nextId < m'.nextId) :
      Moves m none (some (.create c)) m'
  | createStored {c : CreateCall} {created : ProviderSession} {m' : Manager} (quiet : Quiet m m') :
      Moves m (some (.create c)) (some (.createInsert (c.record created))) m'
  | createInserted {record : SessionRecord} {m' : Manager}
      (sets : Sets m m' (m.sessions.insert record.id record) m.turns m.approvals m.waits) :
      Moves m (some (.createInsert record)) none m'
  | closeBegun {sessionId reason : String} {session : SessionRecord} {m' : Manager} (quiet : Quiet m m')
      (found : m.sessions.lookup sessionId = some session) :
      Moves m none (some (.close sessionId reason)) m'
  | closeStored {before : Option Call} {sessionId reason : String} {session : SessionRecord} {m' : Manager}
      (quiet : Quiet m m') (found : m.sessions.lookup sessionId = some session)
      (was : before = none ∨ before = some (.close sessionId reason)) :
      Moves m before (some (.closeInsert sessionId (closedRecord session m.clock) reason)) m'
  | closeInserted {sessionId reason : String} {record : SessionRecord} {m' : Manager}
      (sets : Sets m m' (m.sessions.insert sessionId record) m.turns m.approvals m.waits) :
      Moves m (some (.closeInsert sessionId record reason)) none m'
  | resumeBegun {c : ResumeCall} {m' : Manager} (quiet : Quiet m m')
      (found : m.sessions.lookup c.sessionId = some c.session) : Moves m none (some (.resume c)) m'
  | resumeStored {c : ResumeCall} {resumed : ProviderSession} {m' : Manager} (quiet : Quiet m m') :
      Moves m (some (.resume c)) (some (.resumeInsert c.sessionId (c.record resumed m.clock))) m'
  | resumeInserted {sessionId : String} {record : SessionRecord} {m' : Manager}
      (sets : Sets m m' (m.sessions.insert sessionId record) m.turns m.approvals m.waits) :
      Moves m (some (.resumeInsert sessionId record)) none m'
  | worktreeSet {sessionId : String} {worktreeId : Option String} {m' : Manager}
      (sets : Sets m m' (m.sessions.update sessionId fun session =>
        { session with worktreeId := worktreeId, updatedAt := m.clock }) m.turns m.approvals m.waits) :
      Moves m none none m'
  | sendBegun {c : SendCall} {m' : Manager} (quiet : Quiet m m') (began : Began m c.sessionId c)
      (next : m.nextId < m'.nextId) : Moves m none (some (.send c)) m'
  | sendSettled {w : SendWrite} {m' : Manager} (quiet : Quiet m m') :
      Moves m (some (.send w.call)) (some (.sendInsertTurn w)) m'
  | turnInserted {w : SendWrite} {m' : Manager}
      (sets : Sets m m' m.sessions (m.turns.insert w.call.turnId w.turn) m.approvals m.waits) :
      Moves m (some (.sendInsertTurn w)) (some (.sendInsertSession w)) m'
  | sessionInserted {w : SendWrite} {r : Except RuntimeError (Option ApprovalRecord)}
      {waits : List WaitTask} {m' : Manager}
      (sets : Sets m m' (m.sessions.insert w.call.sessionId w.session) m.turns m.approvals waits)
      (inserted : SessionInserted m w r waits) :
      Moves m (some (.sendInsertSession w)) (Server.left (r.map (Option.map .sendInsertApproval))) m'
  | approvalInserted {approval : ApprovalRecord} {m' : Manager}
      (sets : Sets m m' m.sessions m.turns (m.approvals.insert approval.id approval) m.waits) :
      Moves m (some (.sendInsertApproval approval)) none m'
  | interruptBegun {sessionId turnId : String} {session : SessionRecord} {m' : Manager} (quiet : Quiet m m')
      (found : m.sessions.lookup sessionId = some session) (active : session.activeTurnId = some turnId) :
      Moves m none (some (.interrupt sessionId turnId)) m'
  | respondBegun {kind : ProviderKind} {sessionId approvalId : String} {input : ApprovalResponseInput}
      {session : SessionRecord} {m' : Manager} (quiet : Quiet m m')
      (found : m.sessions.lookup sessionId = some session) :
      Moves m none (some (.respondLock kind sessionId approvalId input)) m'
  | respondChecked {kind : ProviderKind} {sessionId approvalId : String} {input : ApprovalResponseInput}
      {c : RespondCall} {m' : Manager} (quiet : Quiet m m') (checked : Checked m sessionId approvalId c) :
      Moves m (some (.respondLock kind sessionId approvalId input)) (some (.respond approvalId c)) m'
  | respondResolved {approvalId : String} {c : RespondCall} {after : Option Call} {m' : Manager}
      (sets : Sets m m' m.sessions m.turns (m.approvals.insert approvalId (c.resolved m.clock)) m.waits)
      (next : after = none ∨ after = some (.respondApply c (c.resolved m.clock))) :
      Moves m (some (.respond approvalId c)) after m'
  | acceptApplied {c : RespondCall} {resolved : ApprovalRecord} {m' : Manager} (decision : c.decision = .accept)
      (applied : Applied m m' c resolved.turnId acceptedTurn (acceptedSession m.clock)) :
      Moves m (some (.respondApply c resolved)) none m'
  | declineApplied {c : RespondCall} {resolved : ApprovalRecord} {m' : Manager} (decision : c.decision = .decline)
      (applied : Applied m m' c resolved.turnId (declinedTurn m.clock)
        (declinedSession resolved.turnId m.clock)) :
      Moves m (some (.respondApply c resolved)) none m'
  | sessionFailed {sessionId turnId : String} {error : RuntimeError} {m' : Manager}
      (sets : Sets m m' (m.sessions.update sessionId (failedSession turnId error m.clock)) m.turns
        m.approvals m.waits) :
      Moves m (some (.failSession sessionId turnId error)) none m'

/-- What the first half of a failed wait can do: its turn is absent, over already or made failed. -/
inductive TurnFails (m : Manager) (task : WaitTask) (error : RuntimeError) : Option Call → Manager → Prop where
  | wasOver {m' : Manager} (quiet : Quiet m m')
      (ended : ∀ turn, m.turns.lookup task.turnId = some turn → isTerminalTurnStatus turn.status = true) :
      TurnFails m task error (some (.failSession task.sessionId task.turnId error)) m'
  | failed {after : Option Call} {m' : Manager}
      (sets : Sets m m' m.sessions (m.turns.update task.turnId (waitFailedTurn error m.clock)) m.approvals m.waits)
      (next : after = none ∨ after = some (.failSession task.sessionId task.turnId error)) :
      TurnFails m task error after m'

section

variable {m : Manager} {α : Type}

theorem after_then {x : RuntimeM α} {f : α → Option Call} {Q : Except RuntimeError α → Manager → Prop}
    {R : Option Call → Manager → Prop} (hx : After x m Q) (hok : ∀ a m', Q (.ok a) m' → R (f a) m')
    (herr : ∀ e m', Q (.error e) m' → R none m') :
    After (do let a ← x; return f a) m fun r m' => R (Server.left r) m' :=
  after_bind hx (fun a m' h => (after_pure _ _ _).mpr (hok a m' h)) (fun e m' h => herr e m' h)

theorem begin_moves (op : Operation) :
    After op.begin m fun r m' => Moves m none (Server.left r) m' := by
  cases op with
  | createSession input =>
    refine after_then (createSessionBegin_after input) (fun c m' h => ?_)
      (fun e m' h => .stopped h.1 (fun _ h => by cases h))
    obtain ⟨hq, hc⟩ := h
    obtain ⟨-, hstem, hnext⟩ := hc c rfl
    exact .createBegun hq hstem (by omega)
  | closeSession sessionId reason =>
    refine after_then (closeSessionBegin_after sessionId) (fun _ m' h => ?_) (fun e m' h => ?_)
    · obtain ⟨rfl, h⟩ := h
      obtain ⟨session, hs⟩ := h rfl
      exact .closeBegun (Quiet.refl _) hs
    · obtain ⟨rfl, -⟩ := h
      exact .stopped (Quiet.refl _) (fun _ h => by cases h)
  | forceCloseSession sessionId reason =>
    refine after_then (finalizeSessionCloseStore_after sessionId) (fun updated m' h => ?_)
      (fun e m' h => .stopped h.1 (fun _ h => by cases h))
    obtain ⟨hq, hu⟩ := h
    obtain ⟨session, hs, rfl⟩ := hu updated rfl
    exact .closeStored hq hs (.inl rfl)
  | resumeSession sessionId input =>
    refine after_then (resumeSessionBegin_after sessionId input) (fun c m' h => ?_) (fun e m' h => ?_)
    · obtain ⟨rfl, h⟩ := h
      have hc := h c rfl
      exact .resumeBegun (Quiet.refl _) (hc.sessionId ▸ hc.session)
    · obtain ⟨rfl, -⟩ := h
      exact .stopped (Quiet.refl _) (fun _ h => by cases h)
  | setSessionWorktreeId sessionId worktreeId =>
    exact after_then (setSessionWorktreeId_after sessionId worktreeId) (fun _ m' h => .worktreeSet h)
      (fun e m' h => .worktreeSet h)
  | sendTurn sessionId input =>
    refine after_then (sendTurnBegin_after sessionId input) (fun c m' h => ?_)
      (fun e m' h => .stopped h.1 (fun _ h => by cases h))
    obtain ⟨hq, hc⟩ := h
    obtain ⟨hb, -, hnext, -⟩ := hc c rfl
    exact .sendBegun hq (hb.sessionId ▸ hb) hnext
  | interruptTurn sessionId turnId =>
    refine after_then (interruptTurnBegin_after sessionId turnId) (fun _ m' h => ?_) (fun e m' h => ?_)
    · obtain ⟨rfl, h⟩ := h
      obtain ⟨session, hs, hactive⟩ := h rfl
      exact .interruptBegun (Quiet.refl _) hs hactive
    · exact h.1 ▸ .stopped (Quiet.refl _) (fun _ h => by cases h)
  | respondApproval sessionId approvalId input =>
    refine after_then (respondApprovalBegin_after sessionId) (fun kind m' h => ?_) (fun e m' h => ?_)
    · obtain ⟨rfl, h⟩ := h
      obtain ⟨session, hs⟩ := h kind rfl
      exact .respondBegun (Quiet.refl _) hs
    · obtain ⟨rfl, -⟩ := h
      exact .stopped (Quiet.refl _) (fun _ h => by cases h)

inductive Piece : Call → RuntimeM (Option Call) → Prop where
  | create (c : CreateCall) (r : Except RuntimeError ProviderSession) :
      Piece (.create c) (do return some (.createInsert (← createSessionStore c r)))
  | createInsert (record : SessionRecord) :
      Piece (.createInsert record) (do let _ ← createSessionInsert record; return none)
  | close (sessionId reason : String) (r : Except RuntimeError Unit) :
      Piece (.close sessionId reason) do
        ofExcept r
        return some (.closeInsert sessionId (← finalizeSessionCloseStore sessionId) reason)
  | closeInsert (sessionId : String) (record : SessionRecord) (reason : String) :
      Piece (.closeInsert sessionId record reason)
        (do let _ ← finalizeSessionCloseInsert sessionId record reason; return none)
  | resume (c : ResumeCall) (r : Except RuntimeError ProviderSession) :
      Piece (.resume c) (do return some (.resumeInsert c.sessionId (← resumeSessionStore c r)))
  | resumeInsert (sessionId : String) (record : SessionRecord) :
      Piece (.resumeInsert sessionId record) (do let _ ← resumeSessionInsert sessionId record; return none)
  | send (c : SendCall) (r : Except RuntimeError ProviderTurnAck) :
      Piece (.send c) (do return some (.sendInsertTurn (← sendTurnStore c r)))
  | sendInsertTurn (w : SendWrite) :
      Piece (.sendInsertTurn w) (do sendTurnInsertTurn w; return some (.sendInsertSession w))
  | sendInsertSession (w : SendWrite) :
      Piece (.sendInsertSession w) (do return (← sendTurnInsertSession w).map .sendInsertApproval)
  | sendInsertApproval (approval : ApprovalRecord) :
      Piece (.sendInsertApproval approval) (do sendTurnInsertApproval approval; return none)
  | interrupt (sessionId turnId : String) (r : Except RuntimeError Unit) :
      Piece (.interrupt sessionId turnId) (do interruptTurnEnd sessionId turnId r; return none)
  | respondLock (kind : ProviderKind) (sessionId approvalId : String) (input : ApprovalResponseInput) :
      Piece (.respondLock kind sessionId approvalId input)
        (do return some (.respond approvalId (← respondApprovalCheck kind sessionId approvalId input)))
  | respond (approvalId : String) (c : RespondCall) (r : Except RuntimeError Unit) :
      Piece (.respond approvalId c) (do return some (.respondApply c (← respondApprovalResolve approvalId c r)))
  | respondApply (c : RespondCall) (resolved : ApprovalRecord) :
      Piece (.respondApply c resolved) (do let _ ← respondApprovalApply c resolved; return none)
  | failSession (sessionId turnId : String) (error : RuntimeError) :
      Piece (.failSession sessionId turnId error) (do applyTerminalFailureSession sessionId turnId error; return none)

theorem Call.piece_of_goOn {c : Call} {answer : Answer} {piece : RuntimeM (Option Call)}
    (h : c.goOn answer = some piece) : Piece c piece := by
  cases c <;> cases answer <;> simp only [Call.goOn, reduceCtorEq, Option.some.injEq] at h <;> subst h <;> constructor

theorem goOn_moves {c : Call} {answer : Answer} {piece : RuntimeM (Option Call)}
    (h : c.goOn answer = some piece) :
    After piece m fun r m' => Moves m (some c) (Server.left r) m' := by
  cases Call.piece_of_goOn h with
  | create c r =>
    refine after_then (createSessionStore_after c _) (fun record m' h => ?_)
      (fun e m' h => .stopped h.1 (fun _ h => by cases h))
    obtain ⟨hq, hr⟩ := h
    obtain ⟨created, -, -, rfl⟩ := hr record rfl
    exact .createStored hq
  | createInsert record =>
    exact after_then (createSessionInsert_after record) (fun _ m' h => .createInserted h.1)
      (fun e m' h => .createInserted h.1)
  | close sessionId reason r =>
    rw [after_bind_iff, after_ofExcept]
    split
    · refine after_then (finalizeSessionCloseStore_after sessionId) (fun updated m' h => ?_)
        (fun e m' h => .stopped h.1 (fun _ h => by cases h))
      obtain ⟨hq, hu⟩ := h
      obtain ⟨session, hs, rfl⟩ := hu updated rfl
      exact .closeStored hq hs (.inr rfl)
    · exact .stopped (Quiet.refl m) (fun _ h => by cases h)
  | closeInsert sessionId record reason =>
    exact after_then (finalizeSessionCloseInsert_after sessionId record reason)
      (fun _ m' h => .closeInserted h.1) (fun e m' h => .closeInserted h.1)
  | resume c r =>
    refine after_then (resumeSessionStore_after c _) (fun record m' h => ?_)
      (fun e m' h => .stopped h.1 (fun _ h => by cases h))
    obtain ⟨hq, hr⟩ := h
    obtain ⟨resumed, -, -, rfl⟩ := hr record rfl
    exact .resumeStored hq
  | resumeInsert sessionId record =>
    exact after_then (resumeSessionInsert_after sessionId record) (fun _ m' h => .resumeInserted h.1)
      (fun e m' h => .resumeInserted h.1)
  | send c r =>
    refine after_then (sendTurnStore_after c _) (fun w m' h => ?_) (fun e m' h => .stopped h.1 (fun _ h => by cases h))
    obtain ⟨hq, hw, -⟩ := h
    obtain rfl := SendCall.settle_call (hw w rfl)
    exact .sendSettled hq
  | sendInsertTurn w =>
    refine after_then (sendTurnInsertTurn_after w) (fun _ m' h => .turnInserted h.2) (fun e m' h => ?_)
    cases h.1
  | sendInsertSession w =>
    refine after_then (sendTurnInsertSession_after w) (fun a m' h => ?_) (fun e m' h => ?_)
    · obtain ⟨waits, hs, hi, -⟩ := h
      exact .sessionInserted hs hi
    · obtain ⟨waits, hs, hi, -⟩ := h
      exact .sessionInserted hs hi
  | sendInsertApproval approval =>
    exact after_then (sendTurnInsertApproval_after approval) (fun _ m' h => .approvalInserted h.1)
      (fun e m' h => .approvalInserted h.1)
  | interrupt sessionId turnId r =>
    exact after_then (interruptTurnEnd_after sessionId turnId _) (fun _ m' h => .stopped h (fun _ h => by cases h))
      (fun e m' h => .stopped h (fun _ h => by cases h))
  | respondLock kind sessionId approvalId input =>
    refine after_then (respondApprovalCheck_after kind sessionId approvalId input) (fun c m' h => ?_)
      (fun e m' h => ?_)
    · obtain ⟨rfl, hc⟩ := h
      exact .respondChecked (Quiet.refl _) (hc c rfl)
    · obtain ⟨rfl, -⟩ := h
      exact .stopped (Quiet.refl _) (fun _ h => by cases h)
  | respond approvalId c r =>
    refine after_then (respondApprovalResolve_after approvalId c _) (fun resolved m' h => ?_)
      (fun e m' h => ?_)
    · rcases h with ⟨-, hne, -⟩ | ⟨hs, -, hr, -⟩
      · exact absurd rfl (hne resolved)
      · obtain rfl := hr resolved rfl
        exact .respondResolved hs (.inr rfl)
    · rcases h with ⟨hq, -, -⟩ | ⟨hs, -, -, -⟩
      · exact .stopped hq (fun _ h => by cases h)
      · exact .respondResolved hs (.inl rfl)
  | respondApply c resolved =>
    cases hd : c.decision with
    | accept =>
      exact after_then (respondApprovalApply_accept_after c resolved hd) (fun _ m' h => .acceptApplied hd h)
        (fun e m' h => .acceptApplied hd h)
    | decline =>
      exact after_then (respondApprovalApply_decline_after c resolved hd) (fun _ m' h => .declineApplied hd h)
        (fun e m' h => .declineApplied hd h)
  | failSession sessionId turnId error =>
    exact after_then (applyTerminalFailureSession_after sessionId turnId error)
      (fun _ m' h => .sessionFailed h) (fun e m' h => .sessionFailed h)

end

/-! ## Steps -/

namespace Server

variable {s s' : Server}

theorem lookup_put (calls : Table ℕ Call) (i j : ℕ) (after : Option Call) :
    (put calls i after).lookup j = if j = i then after else calls.lookup j := by
  cases after with
  | some c => exact Table.lookup_insert calls i j c
  | none => exact Table.lookup_erase calls i j

theorem step_start {i : ℕ} {op : Operation} (h : step (.start i op) s = some s') :
    s.calls.lookup i = none ∧ ∃ after m', Moves s.manager none after m' ∧ s' = ⟨m', put s.calls i after⟩ := by
  simp only [step] at h
  split at h
  · cases h
  · next hi =>
    obtain rfl := Option.some.inj h
    exact ⟨AList.lookup_eq_none.mpr hi, _, _, (begin_moves op).out, rfl⟩

theorem step_goOn {i : ℕ} {answer : Answer} (h : step (.goOn i answer) s = some s') :
    ∃ c after m', s.calls.lookup i = some c ∧ (∃ piece, c.goOn answer = some piece) ∧
      Moves s.manager (some c) after m' ∧ s' = ⟨m', put s.calls i after⟩ := by
  simp only [step, Option.bind_eq_bind, Option.bind_eq_some_iff] at h
  obtain ⟨c, hc, piece, hp, h⟩ := h
  split at h
  · cases h
  · obtain rfl := Option.some.inj h
    exact ⟨c, _, _, hc, ⟨piece, hp⟩, (goOn_moves hp).out, rfl⟩

theorem step_waited {w : ℕ} {result : ProviderTurnResult} (h : step (.waited w result) s = some s') :
    ∃ m', ResultApplied (s.dropWait w).manager result m' ∧ s' = ⟨m', s.calls⟩ := by
  simp only [step] at h
  split at h
  · obtain rfl := Option.some.inj h
    exact ⟨_, (applyTerminalResult_after result).out, rfl⟩
  · cases h

theorem step_waitFailed {w i : ℕ} {error : RuntimeError} (h : step (.waitFailed w i error) s = some s') :
    ∃ task after m', task ∈ s.manager.waits ∧ s.calls.lookup i = none ∧
      TurnFails (s.dropWait w).manager task error after m' ∧ s' = ⟨m', put s.calls i after⟩ := by
  simp only [step, Option.bind_eq_bind, Option.bind_eq_some_iff] at h
  obtain ⟨task, ht, h⟩ := h
  split at h
  · cases h
  · next hi =>
    obtain rfl := Option.some.inj h
    have hp := after_then (f := fun _ => some (.failSession task.sessionId task.turnId error))
      (R := TurnFails (s.dropWait w).manager task error)
      (applyTerminalFailureTurn_after (m := (s.dropWait w).manager) task.turnId error)
      (fun _ m' h => ?_) (fun e m' h => ?_)
    · exact ⟨task, _, _, List.mem_of_getElem? ht, AList.lookup_eq_none.mpr hi, hp.out, rfl⟩
    · rcases h with ⟨hq, -, hover⟩ | ⟨hs, -⟩
      · exact .wasOver hq hover
      · exact .failed hs (.inr rfl)
    · rcases h with ⟨-, he, -⟩ | ⟨hs, -⟩
      · cases he
      · exact .failed hs (.inl rfl)

theorem step_tick {now : ℤ} (h : step (.tick now) s = some s') :
    s' = { s with manager := { s.manager with clock := now } } := by
  simpa [step] using h.symm

end Server

end Gooselake.Runtime
