import Gooselake.Runtime.SessionRecords

/-!
A closed session stays closed. Every record with status `closed` names no turn and has a closing
time; no guard keeps the status itself, so it stays through the steps that do not write the session
from an older clone or from a failure.
-/

namespace Gooselake.Runtime

open Gooselake.Core Data Library Library.Exec

set_option autoImplicit false

def IsClosed (m : Manager) (sessionId : String) : Prop :=
  ∃ session, m.sessions.lookup sessionId = some session ∧ session.status = .closed

def ClosedForGood (m : Manager) (sessionId : String) : Prop :=
  ∃ session, m.sessions.lookup sessionId = some session ∧ session.status = .closed ∧
    session.activeTurnId = none ∧ session.closedAt.isSome

/-! ## The shape of closed records -/

/-- A closed session has no active turn and a time of its close. -/
structure WellClosed (k : String) (r : SessionRecord) : Prop where
  key : r.id = k
  shape : r.status = .closed → r.activeTurnId = none ∧ r.closedAt.isSome

theorem readyUnlessEnded_closed {status : SessionStatus} : readyUnlessEnded status = .closed ↔ status = .closed := by
  cases status <;> decide

theorem wellClosed_lasting : Lasting WellClosed where
  key _ _ h := h.key
  created c created := ⟨rfl, fun h => by cases h⟩
  remade k r r' hm h := by
    cases hm with
    | stamped | touched | worktree | referred => exact ⟨h.key, h.shape⟩
    | closed now => exact ⟨h.key, fun _ => ⟨rfl, rfl⟩⟩
    | readied hne => exact ⟨h.key, fun hc => by cases hc⟩
    | started turnId status now hne => exact ⟨h.key, fun hc => absurd hc hne⟩
    | restarted status hne => exact ⟨h.key, fun hc => absurd hc hne⟩
    | released active metadata now hactive =>
      refine ⟨h.key, fun hc => ?_⟩
      obtain ⟨ha, hat⟩ := h.shape (readyUnlessEnded_closed.mp hc)
      exact ⟨hactive.elim id fun he => he.trans ha, hat⟩
    | failed active code message now hactive => exact ⟨h.key, fun hc => by cases hc⟩

theorem IsClosed.forGood {m : Manager} {sessionId : String} (he : Each WellClosed m) (h : IsClosed m sessionId) :
    ClosedForGood m sessionId := by
  obtain ⟨session, hs, hc⟩ := h
  exact ⟨session, hs, hc, (he.table _ _ hs).shape hc⟩

/-! ## The steps that leave a closed session closed -/

def Call.leavesClosed (sessionId : String) : Call → Bool
  | .createInsert record => record.id ≠ sessionId
  | .resumeInsert id record => id ≠ sessionId || record.status = .closed
  | .sendInsertSession w => w.call.sessionId ≠ sessionId
  | .respondApply c _ => c.decision = .decline || c.sessionId ≠ sessionId
  | .failSession id _ _ => id ≠ sessionId
  | _ => true

def conflicts (m : Manager) (sessionId : String) (result : ProviderTurnResult) : Bool :=
  (m.turns.lookup result.turnId).any fun turn =>
    turn.sessionId = sessionId && isTerminalTurnStatus turn.status && turn.status ≠ result.status.toTurnStatus

def storedClosed (store : Store) (sessionId : String) : Bool :=
  store.sessions.any (fun r => r.id = sessionId) &&
    store.sessions.all fun r => r.id ≠ sessionId || r.status = .closed

/-- The step writes no older copy of the session, takes no conflicting result and restarts with its closed row. -/
def leavesClosed (sessionId : String) : Event → Server → Bool
  | .serve (.goOn i _), s => (s.calls.lookup i).all fun c => c.leavesClosed sessionId
  | .serve (.waited _ result), s => !conflicts s.manager sessionId result
  | .restart _, s => storedClosed s.manager.store sessionId
  | _, _ => true

section

variable {m m' : Manager} {sessionId : String}

theorem IsClosed.congr (h : IsClosed m sessionId) (hs : m'.sessions = m.sessions) : IsClosed m' sessionId := by
  rwa [IsClosed, hs]

theorem IsClosed.insert (h : IsClosed m sessionId) {k : String} {r : SessionRecord}
    (hs : m'.sessions = m.sessions.insert k r) (hr : k = sessionId → r.status = .closed) :
    IsClosed m' sessionId := by
  obtain ⟨session, hl, hc⟩ := h
  by_cases he : sessionId = k
  · exact ⟨r, by rw [hs, Table.lookup_insert, if_pos he], hr he.symm⟩
  · exact ⟨session, by rw [hs, Table.lookup_insert, if_neg he]; exact hl, hc⟩

theorem IsClosed.update (h : IsClosed m sessionId) {k : String} {f : SessionRecord → SessionRecord}
    (hs : m'.sessions = m.sessions.update k f)
    (hf : k = sessionId → ∀ r : SessionRecord, r.status = .closed → (f r).status = .closed) :
    IsClosed m' sessionId := by
  obtain ⟨session, hl, hc⟩ := h
  by_cases he : sessionId = k
  · refine ⟨f session, ?_, hf he.symm session hc⟩
    rw [hs, Table.lookup_update, if_pos he, ← he, hl]
    rfl
  · exact ⟨session, by rw [hs, Table.lookup_update, if_neg he]; exact hl, hc⟩

def ClosesOnly (calls : Table ℕ Call) : Prop :=
  ∀ i id record reason, calls.lookup i = some (.closeInsert id record reason) → record.status = .closed

theorem Moves.closesOnly {before after : Option Call} {calls : Table ℕ Call} {i : ℕ} (h : ClosesOnly calls)
    (hm : Moves m before after m') : ClosesOnly (Server.put calls i after) := by
  intro j id record reason hj
  rw [Server.lookup_put] at hj
  split at hj
  · cases hm with
    | closeStored => cases hj; rfl
    | @sessionInserted w r =>
      rcases r with e | (_ | a) <;> simp only [Except.map, Server.left, Option.map] at hj <;> cases hj
    | respondResolved sets next => rcases next with rfl | rfl <;> cases hj
    | _ => cases hj
  · exact h j id record reason hj

theorem Moves.isClosed {before after : Option Call} (h : IsClosed m sessionId) (hm : Moves m before after m')
    (hb : ∀ c, before = some c → c.leavesClosed sessionId = true)
    (hclose : ∀ id record reason, before = some (.closeInsert id record reason) → record.status = .closed) :
    IsClosed m' sessionId := by
  cases hm with
  | stopped quiet | createBegun quiet | createStored quiet | closeBegun quiet | closeStored quiet
  | resumeBegun quiet | resumeStored quiet | sendBegun quiet | sendSettled quiet | interruptBegun quiet
  | respondBegun quiet | respondChecked quiet => exact h.congr quiet.sessions
  | turnInserted sets | approvalInserted sets | respondResolved sets => exact h.congr sets.sessions
  | createInserted sets =>
    exact h.insert sets.sessions fun he => absurd he (by simpa [Call.leavesClosed] using hb _ rfl)
  | closeInserted sets => exact h.insert sets.sessions fun _ => hclose _ _ _ rfl
  | resumeInserted sets =>
    have hr := hb _ rfl
    simp only [Call.leavesClosed, ne_eq, decide_not, Bool.or_eq_true, Bool.not_eq_eq_eq_not, Bool.not_true,
      decide_eq_false_iff_not, decide_eq_true_eq] at hr
    exact h.insert sets.sessions fun he => hr.resolve_left (absurd he)
  | worktreeSet sets => exact h.update sets.sessions fun _ _ hc => hc
  | sessionInserted sets =>
    exact h.insert sets.sessions fun he => absurd he (by simpa [Call.leavesClosed] using hb _ rfl)
  | @acceptApplied c resolved _ decision applied =>
    obtain ⟨sessions, waits, sets, hss, -⟩ := applied.writes
    have hne : c.sessionId ≠ sessionId := by simpa [Call.leavesClosed, decision] using hb _ rfl
    rcases hss with rfl | rfl
    · exact h.congr sets.sessions
    · exact h.update sets.sessions fun he => absurd he hne
  | declineApplied decision applied =>
    obtain ⟨sessions, waits, sets, hss, -⟩ := applied.writes
    rcases hss with rfl | rfl
    · exact h.congr sets.sessions
    · exact h.update sets.sessions fun _ _ hc => readyUnlessEnded_closed.mpr hc
  | sessionFailed sets =>
    exact h.update sets.sessions fun he => absurd he (by simpa [Call.leavesClosed] using hb _ rfl)

theorem ResultApplied.isClosed {result : ProviderTurnResult} (h : IsClosed m sessionId)
    (hr : ResultApplied m result m') (hc : conflicts m sessionId result = false) : IsClosed m' sessionId := by
  cases hr with
  | nothing quiet => exact h.congr quiet.sessions
  | conflict turn _ found owner ended differs sets =>
    refine h.update sets.sessions fun he => ?_
    simp [conflicts, found, he, ended, differs] at hc
  | ended turn sessions ends sets session =>
    rcases session with rfl | rfl
    · exact h.congr sets.sessions
    · exact h.update sets.sessions fun _ _ hc => readyUnlessEnded_closed.mpr hc

/-! ## Recovery -/

theorem onStore_sessions {α : Type} (f : Store → Except RuntimeError α × Store) :
    After (onStore f) m fun _ m' => m'.sessions = m.sessions :=
  (after_onStore _ _).mpr rfl

theorem recoverSession_isClosed (he : Each WellClosed m) (h : IsClosed m sessionId) (answers : RecoveryAnswers)
    (turns : Table String TurnRecord) (approvals : Table String ApprovalRecord)
    (summary : StartupRecoverySummary) (k : String) :
    After (recoverSession answers turns approvals summary k) m fun _ m' => IsClosed m' sessionId := by
  simp only [recoverSession, after_bind_iff, after_get]
  cases hs : m.sessions.lookup k with
  | none => exact (after_pure _ _ _).mpr h
  | some session =>
    simp only [after_bind_iff]
    refine (repairProviderRef_after answers session summary).elim (fun r m₁ h₁ => ?_) fun e m₁ h₁ => h₁.1 ▸ h
    obtain ⟨rfl, h₁⟩ := h₁
    have h₁ := h₁ r rfl
    refine (repairActiveTurn_after turns approvals session r).elim (fun r' m₂ h₂ => ?_)
      fun e m₂ h₂ => h.congr h₂.1.1
    obtain ⟨hm, h₂⟩ := h₂
    have h₂ := h₂ r' rfl
    have hkey : r'.session.id = k := (wellClosed_lasting.reflTransGen (h₁.remade.trans h₂.remade)
      (he.table _ _ hs)).key
    -- a closed session that names no turn is not changed by the repair
    have hother : r'.changed = true → k ≠ sessionId := by
      rintro hchanged rfl
      obtain ⟨closed, hl, hc⟩ := h
      obtain rfl := Option.some.inj (hs.symm.trans hl)
      have hactive := ((he.table _ _ hs).shape hc).1
      obtain ⟨hs₁, hc₁⟩ := h₁.closed hc hactive
      obtain ⟨-, hc₂⟩ := h₂.closed (hs₁ ▸ hc) (hs₁ ▸ hactive)
      rw [hc₂, hc₁] at hchanged
      cases hchanged
    dsimp only
    split
    · next hchanged =>
      simp only [after_bind_iff, after_nowMs, after_insertSession, after_pure]
      refine (onStore_sessions _).elim (fun _ m₃ h₃ => ?_) fun _ _ h₃ => h.congr (h₃.trans hm.1)
      exact (h.congr (h₃.trans hm.1)).insert rfl fun hk => absurd (hkey.symm.trans hk) (hother hchanged)
    · exact (after_pure _ _ _).mpr (h.congr hm.1)

theorem recoverApproval_sessions (turns : Table String TurnRecord) (summary : StartupRecoverySummary)
    (approval : ApprovalRecord) :
    After (recoverApproval turns summary approval) m fun _ m' => m'.sessions = m.sessions := by
  simp only [recoverApproval, after_bind_iff, after_nowMs]
  split_ifs
  · simp only [after_bind_iff, after_insertApproval, after_pure]
    exact (onStore_sessions _).elim (fun _ _ h => h) fun _ _ h => h
  · exact (after_pure _ _ _).mpr rfl

theorem recoverStartup_isClosed (he : Each WellClosed m) (h : IsClosed m sessionId) (answers : RecoveryAnswers) :
    After (recoverStartup answers) m fun _ m' => IsClosed m' sessionId := by
  simp only [recoverStartup, after_bind_iff, after_nowMs, after_get, after_pure]
  refine (after_foldlM (I := fun m => Each WellClosed m ∧ IsClosed m sessionId) _ _
    (fun summary k _ m h => ?_) ⟨he, h⟩).elim (fun _ m' h => ?_) fun _ _ h => h.2
  · exact (recoverSession_each wellClosed_lasting h.1 answers _ _ summary k).and
      (recoverSession_isClosed h.1 h.2 answers _ _ summary k)
  · refine (after_foldlM (I := fun m => IsClosed m sessionId) _ _ (fun summary a _ m h => ?_) h.2).elim
      (fun _ _ h => h) fun _ _ h => h
    exact (recoverApproval_sessions _ summary a).mono fun _ _ hs => h.congr hs

end

/-! ## Runs -/

section

variable {sessionId : String} {s s' : Server}

theorem isClosed_step {l : Label} (h : IsClosed s.manager sessionId) (hclose : ClosesOnly s.calls)
    (hl : leavesClosed sessionId (.serve l) s = true) (hs : Server.step l s = some s') :
    IsClosed s'.manager sessionId := by
  cases l with
  | start i op =>
    obtain ⟨-, after, m', hm, rfl⟩ := Server.step_start hs
    exact hm.isClosed h (fun _ hc => by cases hc) (fun _ _ _ hc => by cases hc)
  | goOn i answer =>
    obtain ⟨c, after, m', hi, -, hm, rfl⟩ := Server.step_goOn hs
    refine hm.isClosed h (fun c' hc => ?_) (fun id record reason hc => ?_)
    · cases hc
      simpa [leavesClosed, hi] using hl
    · cases hc
      exact hclose i id record reason hi
  | waited w result =>
    obtain ⟨m', hr, rfl⟩ := Server.step_waited hs
    have hdrop : IsClosed (s.dropWait w).manager sessionId := h
    have hl : conflicts s.manager sessionId result = false := by simpa [leavesClosed] using hl
    exact hr.isClosed hdrop hl
  | waitFailed w i error =>
    obtain ⟨task, after, m', -, -, hf, rfl⟩ := Server.step_waitFailed hs
    cases hf with
    | wasOver quiet ended => exact h.congr quiet.sessions
    | failed sets next => exact h.congr sets.sessions
  | tick now =>
    rw [Server.step_tick hs]
    exact h

theorem closesOnly_step {l : Label} (h : ClosesOnly s.calls) (hs : Server.step l s = some s') :
    ClosesOnly s'.calls := by
  cases l with
  | start i op =>
    obtain ⟨-, after, m', hm, rfl⟩ := Server.step_start hs
    exact hm.closesOnly h
  | goOn i answer =>
    obtain ⟨c, after, m', -, -, hm, rfl⟩ := Server.step_goOn hs
    exact hm.closesOnly h
  | waited w result =>
    obtain ⟨m', -, rfl⟩ := Server.step_waited hs
    exact h
  | waitFailed w i error =>
    obtain ⟨task, after, m', -, -, hf, rfl⟩ := Server.step_waitFailed hs
    intro j id record reason hj
    rw [Server.lookup_put] at hj
    split at hj
    · cases hf with
      | wasOver quiet ended => cases hj
      | failed sets next => rcases next with rfl | rfl <;> cases hj
    · exact h j id record reason hj
  | tick now =>
    rw [Server.step_tick hs]
    exact h

/-- What a run keeps: the shape of every record, and that a close under way inserts a closed one. -/
structure Closable (s : Server) : Prop where
  lasts : Lasts WellClosed s
  closes : ClosesOnly s.calls

theorem closable_live {e : Event} (h : Closable s) (hs : Server.live e s = some s') : Closable s' := by
  refine ⟨lasts_live wellClosed_lasting h.lasts hs, ?_⟩
  cases e with
  | serve l => exact closesOnly_step h.closes hs
  | recover answers =>
    obtain rfl := Option.some.inj hs
    exact h.closes
  | restart providers =>
    obtain rfl := Option.some.inj hs
    intro i id record reason hi
    simp [Server.start] at hi

theorem isClosed_live {e : Event} (h : IsClosed s.manager sessionId) (hinv : Closable s)
    (hl : leavesClosed sessionId e s = true) (hs : Server.live e s = some s') : IsClosed s'.manager sessionId := by
  cases e with
  | serve l => exact isClosed_step h hinv.closes hl hs
  | recover answers =>
    obtain rfl := Option.some.inj hs
    exact (recoverStartup_isClosed hinv.lasts.each h answers).out
  | restart providers =>
    obtain rfl := Option.some.inj hs
    simp only [leavesClosed, storedClosed, Bool.and_eq_true, List.any_eq_true, List.all_eq_true, ne_eq,
      decide_not, Bool.or_eq_true, Bool.not_eq_eq_eq_not, Bool.not_true, decide_eq_false_iff_not,
      decide_eq_true_eq] at hl
    obtain ⟨⟨row, hrow, rfl⟩, hall⟩ := hl
    obtain ⟨r, hr⟩ := Option.isSome_iff_exists.mp
      (Manager.new_sessions_isSome providers s.manager.clock hrow)
    obtain ⟨hmem, hid⟩ := Manager.new_sessions hr
    exact ⟨r, hr, (hall r hmem).resolve_left fun hne => hne hid⟩

end

/-- A closed session stays closed, without an active turn, in every run whose steps leave it closed. -/
theorem closed_absorbing {P : Event → Server → Prop} {providers : List ProviderKind} {faults : List Bool}
    {sessionId : String} {s t : Server}
    (hs : Reaches Server.live P (Server.start (Manager.empty providers faults)) s)
    (hc : IsClosed s.manager sessionId)
    (ht : Reaches Server.live (fun e s => leavesClosed sessionId e s = true) s t) :
    ClosedForGood t.manager sessionId := by
  have hinv : Closable s := hs.invariant
    ⟨lasts_start WellClosed providers faults, fun i id record reason hi => by simp [Server.start] at hi⟩
    fun _ _ _ hi _ hs => closable_live hi hs
  have hend : Closable t ∧ IsClosed t.manager sessionId :=
    ht.invariant (I := fun s => Closable s ∧ IsClosed s.manager sessionId) ⟨hinv, hc⟩
      fun _ _ _ hi hl hs => ⟨closable_live hi.1 hs, isClosed_live hi.2 hi.1 hl hs⟩
  exact hend.2.forGood hend.1.lasts.each

def closeRun : List Event :=
  [.serve (.start 0 (.createSession ⟨.codex, none, none, none, none⟩)),
    .serve (.goOn 0 (.session (.ok ⟨"sess_codex_0_1", "ref", none⟩))), .serve (.goOn 0 .lock),
    .serve (.start 1 (.sendTurn "sess_codex_0_1" ⟨[], none, none⟩)),
    .serve (.goOn 1 (.ack (.ok ⟨"sess_codex_0_1", "turn_codex_0_3"⟩))), .serve (.goOn 1 .lock),
    .serve (.goOn 1 .lock),
    .serve (.start 2 (.closeSession "sess_codex_0_1" none)), .serve (.goOn 2 (.done (.ok ()))),
    .serve (.goOn 2 .lock)]

def Manager.isClosed (m : Manager) (sessionId : String) : Bool :=
  (m.sessions.lookup sessionId).any fun session => session.status = .closed

theorem isClosed_iff {m : Manager} {sessionId : String} : m.isClosed sessionId = true ↔ IsClosed m sessionId := by
  simp [Manager.isClosed, IsClosed, Option.any_eq_true]

/-- After the close its turn ends, the process restarts and recovers and the session is closed again. -/
def afterClose : List Event :=
  [.serve (.waited 0 ⟨"sess_codex_0_1", "turn_codex_0_3", .interrupted, none, none⟩),
    .restart [.codex], .recover ⟨fun _ => .ok (), fun _ => .error (.invalidState "gone")⟩,
    .serve (.start 3 (.forceCloseSession "sess_codex_0_1" none)), .serve (.goOn 3 .lock)]

theorem closed_absorbing_afterClose : ∃ t : Server, t.manager.turns.keys = ["turn_codex_0_3"] ∧
    ClosedForGood t.manager "sess_codex_0_1" := by
  obtain ⟨s, hs, he⟩ := exists_reaches_of_runAll Server.live (fun _ _ => true) closeRun
    (fun s => (s.manager.isClosed "sess_codex_0_1",
      (runAll (guarded Server.live (leavesClosed "sess_codex_0_1")) afterClose s).map
        fun t => t.manager.turns.keys)) (true, some ["turn_codex_0_3"])
    (s := Server.start (Manager.empty [.codex] [])) (by decide +kernel)
  obtain ⟨hc, hrun⟩ := Prod.mk.inj he
  obtain ⟨t, ht, hkeys⟩ := exists_reaches_of_runAll Server.live _ _ _ _ hrun
  exact ⟨t, hkeys, closed_absorbing hs (isClosed_iff.mp hc) ht⟩

/-- Whatever happens in a life, no record of a closed session names a turn or is without a closing time, be it in
memory, in the store or with a call in flight. -/
theorem closed_sessions_idle {P : Event → Server → Prop} {providers : List ProviderKind} {faults : List Bool}
    {s : Server} (h : Reaches Server.live P (Server.start (Manager.empty providers faults)) s) : Lasts WellClosed s :=
  lasts_of_reaches wellClosed_lasting h

theorem closed_sessions_idle_afterClose : ∃ s : Server, s.manager.isClosed "sess_codex_0_1" = true ∧ Lasts WellClosed s := by
  obtain ⟨s, hs, he⟩ := exists_reaches_of_runAll Server.live (fun _ _ => true) closeRun
    (fun s => s.manager.isClosed "sess_codex_0_1") true (s := Server.start (Manager.empty [.codex] [])) (by decide +kernel)
  exact ⟨s, he, closed_sessions_idle hs⟩

def waitFailsAfterClose : List Event :=
  [.serve (.waitFailed 0 3 (.invalidState "process exited")), .serve (.goOn 3 .lock)]

theorem not_closed_absorbing : ¬ ∀ (providers : List ProviderKind) (faults : List Bool) (sessionId : String)
    (s t : Server), Reaches Server.live (fun _ _ => True) (Server.start (Manager.empty providers faults)) s →
      IsClosed s.manager sessionId → Reaches Server.live (fun _ _ => True) s t →
        ClosedForGood t.manager sessionId := by
  intro hall
  obtain ⟨s, hs, he⟩ := exists_reaches_of_runAll Server.live (fun _ _ => true) closeRun
    (fun s => (s.manager.isClosed "sess_codex_0_1",
      (runAll (guarded Server.live fun _ _ => true) waitFailsAfterClose s).map
        fun t => t.manager.isClosed "sess_codex_0_1")) (true, some false)
    (s := Server.start (Manager.empty [.codex] [])) (by decide +kernel)
  obtain ⟨hc, hrun⟩ := Prod.mk.inj he
  obtain ⟨t, ht, hopen⟩ := exists_reaches_of_runAll Server.live _ _ _ _ hrun
  obtain ⟨session, hl, hclosed, -⟩ := hall [.codex] [] "sess_codex_0_1" s t (hs.mono fun _ _ _ => trivial)
    (isClosed_iff.mp hc) (ht.mono fun _ _ _ => trivial)
  rw [isClosed_iff.mpr ⟨session, hl, hclosed⟩] at hopen
  cases hopen

end Gooselake.Runtime
