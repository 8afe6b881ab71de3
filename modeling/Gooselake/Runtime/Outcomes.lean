import Gooselake.Runtime.Turns

/-!
What each piece of an operation can do to the maps, for every outcome of its store writes. Proofs
about runs use these facts and never unfold a piece again.
-/

namespace Gooselake.Runtime

open Gooselake.Core Data Library Library.Exec

set_option autoImplicit false

/-- `m'` has the given maps and waits and otherwise differs from `m` in its store, its events and
the ids it has issued. -/
structure Sets (m m' : Manager) (sessions : Table String SessionRecord) (turns : Table String TurnRecord)
    (approvals : Table String ApprovalRecord) (waits : List WaitTask) : Prop where
  providers : m'.providers = m.providers
  clock : m'.clock = m.clock
  nextId : m.nextId ≤ m'.nextId
  faults : m.store.faults = [] → m'.store.faults = []
  sessions : m'.sessions = sessions
  turns : m'.turns = turns
  approvals : m'.approvals = approvals
  waits : m'.waits = waits

abbrev Quiet (m m' : Manager) : Prop := Sets m m' m.sessions m.turns m.approvals m.waits

theorem Quiet.refl (m : Manager) : Quiet m m := ⟨rfl, rfl, le_rfl, id, rfl, rfl, rfl, rfl⟩

theorem Sets.trans {m m' m'' : Manager} {ss ss' : Table String SessionRecord}
    {ts ts' : Table String TurnRecord} {as as' : Table String ApprovalRecord} {ws ws' : List WaitTask}
    (h : Sets m m' ss ts as ws) (h' : Sets m' m'' ss' ts' as' ws') : Sets m m'' ss' ts' as' ws' :=
  ⟨h'.providers.trans h.providers, h'.clock.trans h.clock, h.nextId.trans h'.nextId,
    fun hf => h'.faults (h.faults hf), h'.sessions, h'.turns, h'.approvals, h'.waits⟩

theorem Sets.quiet {m m' m'' : Manager} {ss : Table String SessionRecord} {ts : Table String TurnRecord}
    {as : Table String ApprovalRecord} {ws : List WaitTask} (h : Sets m m' ss ts as ws)
    (h' : Quiet m' m'') : Sets m m'' ss ts as ws := by
  obtain ⟨h1, h2, h3, h4, rfl, rfl, rfl, rfl⟩ := h
  exact (⟨h1, h2, h3, h4, rfl, rfl, rfl, rfl⟩ : Sets m m' _ _ _ _).trans h'

section

variable {m : Manager}

/-! ## Primitive actions -/

theorem after_event {sessionId : String} {turnId : Option String} {kind : String} {payload : Json}
    {Q : Except RuntimeError RuntimeEventRecord → Manager → Prop}
    (h : ∀ r m', Quiet m m' → (m.store.faults = [] → ∃ record, r = .ok record) → Q r m') :
    After (appendSessionEvent sessionId turnId kind payload) m Q :=
  after_appendSessionEvent fun r _ _ hf =>
    h r _ ⟨rfl, rfl, Nat.le_succ _, fun hs => (hf hs).2, rfl, rfl, rfl, rfl⟩ fun hs => (hf hs).1

theorem after_quiet {f : Store → Store} {Q : Except RuntimeError Unit → Manager → Prop}
    (h : ∀ r m', Quiet m m' → (m.store.faults = [] → r = .ok ()) → Q r m') :
    After (onStore (Store.write f)) m Q :=
  after_write fun r _ hf =>
    h r _ ⟨rfl, rfl, le_rfl, fun hs => (hf hs).2, rfl, rfl, rfl, rfl⟩ fun hs => (hf hs).1

/-- A change of a turn in place; only its store write can fail. -/
theorem after_changeTurn {key : String} {f : TurnRecord → TurnRecord}
    {Q : Except RuntimeError Unit → Manager → Prop}
    (h : ∀ r m', Sets m m' m.sessions (m.turns.update key f) m.approvals m.waits →
      (m.store.faults = [] → r = .ok ()) → Q r m') :
    After (changeTurn key f) m Q := by
  simp only [changeTurn, after_bind_iff, after_get]
  cases hl : m.turns.lookup key with
  | none =>
    refine (after_pure _ _ _).mpr (h _ m ?_ fun _ => rfl)
    have hu : m.turns.update key f = m.turns := by simp [Table.update, hl]
    rw [hu]
    exact Quiet.refl m
  | some turn =>
    have hu : m.turns.update key f = m.turns.insert key (f turn) := by simp [Table.update, hl]
    simp only [after_bind_iff, after_insertTurn]
    refine after_quiet fun r m' hq hf => h r m' ?_ hf
    rw [hu]
    exact ⟨hq.providers, hq.clock, hq.nextId, hq.faults, hq.sessions, hq.turns, hq.approvals, hq.waits⟩

/-- A change of a session in place; only its store write can fail. -/
theorem after_changeSession {key : String} {f : SessionRecord → SessionRecord}
    {Q : Except RuntimeError Unit → Manager → Prop}
    (h : ∀ r m', Sets m m' (m.sessions.update key f) m.turns m.approvals m.waits →
      (m.store.faults = [] → r = .ok ()) → Q r m') :
    After (changeSession key f) m Q := by
  simp only [changeSession, after_bind_iff, after_get]
  cases hl : m.sessions.lookup key with
  | none =>
    refine (after_pure _ _ _).mpr (h _ m ?_ fun _ => rfl)
    have hu : m.sessions.update key f = m.sessions := by simp [Table.update, hl]
    rw [hu]
    exact Quiet.refl m
  | some session =>
    have hu : m.sessions.update key f = m.sessions.insert key (f session) := by simp [Table.update, hl]
    simp only [after_bind_iff, after_insertSession]
    refine after_quiet fun r m' hq hf => h r m' ?_ hf
    rw [hu]
    exact ⟨hq.providers, hq.clock, hq.nextId, hq.faults, hq.sessions, hq.turns, hq.approvals, hq.waits⟩

/-! ## Sessions -/

theorem createSessionBegin_after (input : CreateSessionInput) :
    After (createSessionBegin input) m fun r m' => Quiet m m' ∧
      ∀ c, r = .ok c → c.input = input ∧ (∃ stem, c.sessionId = numbered stem m.nextId) ∧
        m'.nextId = m.nextId + 1 := by
  simp only [createSessionBegin, after_bind_iff, after_requireProvider, after_nowMs, after_allocateId, after_pure]
  refine ⟨fun _ => ⟨⟨rfl, rfl, Nat.le_succ _, id, rfl, rfl, rfl, rfl⟩, ?_⟩, fun _ => ⟨Quiet.refl m, fun _ h => by cases h⟩⟩
  rintro c h
  obtain rfl := Except.ok.inj h
  exact ⟨rfl, ⟨_, rfl⟩, trivial⟩

theorem createSessionStore_after (c : CreateCall) (answer : Except RuntimeError ProviderSession) :
    After (createSessionStore c answer) m fun r m' => Quiet m m' ∧
      (∀ record, r = .ok record → ∃ created, answer = .ok created ∧
        created.runtimeSessionId = c.sessionId ∧ record = c.record created) := by
  rw [createSessionStore, after_bind_iff, after_ofExcept]
  cases answer with
  | error e =>
    refine ⟨Quiet.refl m, fun _ h => ?_⟩
    cases h
  | ok created =>
    by_cases h : created.runtimeSessionId = c.sessionId
    · simp only [h, ne_eq, not_true_eq_false, if_false]
      rw [after_bind_iff]
      refine after_quiet fun r m' hq _ => ?_
      cases r with
      | error e => exact ⟨hq, fun _ h => by cases h⟩
      | ok _ =>
        refine ⟨hq, fun record hr => ?_⟩
        obtain rfl := Except.ok.inj hr
        exact ⟨created, rfl, h, rfl⟩
    · simp only [ne_eq, h, not_false_eq_true, if_true]
      exact ⟨Quiet.refl m, fun _ h => by cases h⟩

theorem insert_session_event_after {α : Type} (key : String) (r : SessionRecord) (kind : String)
    (payload : Json) (a : α) :
    After (do
      insertSession key r
      let _ ← appendSessionEvent key none kind payload
      return a) m fun res m' =>
        Sets m m' (m.sessions.insert key r) m.turns m.approvals m.waits ∧
          (m.store.faults = [] → res = .ok a) := by
  simp only [after_bind_iff, after_insertSession]
  refine after_event fun res m' hq hf => ?_
  have hs : Sets m m' (m.sessions.insert key r) m.turns m.approvals m.waits :=
    ⟨hq.providers, hq.clock, hq.nextId, hq.faults, hq.sessions, hq.turns, hq.approvals, hq.waits⟩
  cases res with
  | error e => exact ⟨hs, fun h => by obtain ⟨_, h⟩ := hf h; cases h⟩
  | ok _ => exact ⟨hs, fun _ => rfl⟩

theorem createSessionInsert_after (record : SessionRecord) :
    After (createSessionInsert record) m fun r m' =>
      Sets m m' (m.sessions.insert record.id record) m.turns m.approvals m.waits ∧
        (m.store.faults = [] → r = .ok record) :=
  insert_session_event_after _ _ _ _ _

theorem finalizeSessionCloseInsert_after (sessionId : String) (updated : SessionRecord) (reason : String) :
    After (finalizeSessionCloseInsert sessionId updated reason) m fun r m' =>
      Sets m m' (m.sessions.insert sessionId updated) m.turns m.approvals m.waits ∧
        (m.store.faults = [] → r = .ok updated) :=
  insert_session_event_after _ _ _ _ _

theorem resumeSessionInsert_after (sessionId : String) (updated : SessionRecord) :
    After (resumeSessionInsert sessionId updated) m fun r m' =>
      Sets m m' (m.sessions.insert sessionId updated) m.turns m.approvals m.waits ∧
        (m.store.faults = [] → r = .ok updated) :=
  insert_session_event_after _ _ _ _ _

theorem after_providerKindOf (session : SessionRecord) {Q : Except RuntimeError ProviderKind → Manager → Prop}
    (h : ∀ r, Q r m) : After (providerKindOf session) m Q := by
  simp only [providerKindOf, after_orThrow]
  exact ⟨fun _ _ => h _, fun _ => h _⟩

theorem after_require {kind : ProviderKind} {Q : Except RuntimeError Unit → Manager → Prop}
    (h : ∀ r, Q r m) : After (requireProvider kind) m Q := by
  rw [after_requireProvider]
  exact ⟨fun _ => h _, fun _ => h _⟩

theorem closeSessionBegin_after (sessionId : String) :
    After (closeSessionBegin sessionId) m fun r m' => m' = m ∧
      (r = .ok () → ∃ session, m.sessions.lookup sessionId = some session) := by
  rw [closeSessionBegin, after_bind_iff, after_getSession]
  refine ⟨fun session hs => ?_, fun _ => ⟨rfl, fun h => by cases h⟩⟩
  simp only [after_bind_iff]
  refine after_providerKindOf _ fun r => ?_
  cases r with
  | error e => exact ⟨rfl, fun h => by cases h⟩
  | ok kind => exact after_require fun r => ⟨rfl, fun _ => ⟨session, hs⟩⟩

theorem finalizeSessionCloseStore_after (sessionId : String) :
    After (finalizeSessionCloseStore sessionId) m fun r m' => Quiet m m' ∧
      (∀ updated, r = .ok updated → ∃ session, m.sessions.lookup sessionId = some session ∧
        updated = closedRecord session m.clock) := by
  rw [finalizeSessionCloseStore, after_bind_iff, after_getSession]
  refine ⟨fun session hs => ?_, fun _ => ⟨Quiet.refl m, fun _ h => by cases h⟩⟩
  simp only [after_bind_iff, after_nowMs]
  refine after_quiet fun r m' hq _ => ?_
  cases r with
  | error e => exact ⟨hq, fun _ h => by cases h⟩
  | ok _ =>
    refine ⟨hq, fun updated hr => ?_⟩
    obtain rfl := Except.ok.inj hr
    exact ⟨session, hs, rfl⟩

/-- What a `resume_session` call knows when it awaits the provider. -/
structure Resumes (m : Manager) (sid : String) (input : ResumeSessionInput) (c : ResumeCall) : Prop where
  sessionId : c.sessionId = sid
  session : m.sessions.lookup sid = some c.session
  ref : input.providerSessionRef.or c.session.providerSessionRef = some c.providerSessionRef
  canonical : c.canonicalProviderSessionRef =
    input.canonicalProviderSessionRef.or c.session.canonicalProviderSessionRef

theorem resumeSessionBegin_after (sessionId : String) (input : ResumeSessionInput) :
    After (resumeSessionBegin sessionId input) m fun r m' => m' = m ∧
      ∀ c, r = .ok c → Resumes m sessionId input c := by
  rw [resumeSessionBegin, after_bind_iff, after_getSession]
  refine ⟨fun session hs => ?_, fun _ => ⟨rfl, fun _ h => by cases h⟩⟩
  simp only [after_bind_iff]
  refine after_providerKindOf _ fun r => ?_
  cases r with
  | error e => exact ⟨rfl, fun _ h => by cases h⟩
  | ok kind =>
    refine after_require fun r => ?_
    cases r with
    | error e => exact ⟨rfl, fun _ h => by cases h⟩
    | ok _ =>
      rw [after_orThrow]
      refine ⟨fun ref hr => ⟨rfl, fun c hc => ?_⟩, fun _ => ⟨rfl, fun _ h => by cases h⟩⟩
      obtain rfl := Except.ok.inj hc
      exact ⟨rfl, hs, hr, rfl⟩

theorem resumeSessionStore_after (c : ResumeCall) (answer : Except RuntimeError ProviderSession) :
    After (resumeSessionStore c answer) m fun r m' => Quiet m m' ∧
      (∀ record, r = .ok record → ∃ resumed, answer = .ok resumed ∧
        resumed.runtimeSessionId = c.sessionId ∧ record = c.record resumed m.clock) := by
  rw [resumeSessionStore, after_bind_iff, after_ofExcept]
  cases answer with
  | error e => exact ⟨Quiet.refl m, fun _ h => by cases h⟩
  | ok resumed =>
    by_cases h : resumed.runtimeSessionId = c.sessionId
    · simp only [h, ne_eq, not_true_eq_false, if_false]
      simp only [after_bind_iff, after_nowMs]
      refine after_quiet fun r m' hq _ => ?_
      cases r with
      | error e => exact ⟨hq, fun _ h => by cases h⟩
      | ok _ =>
        refine ⟨hq, fun record hr => ?_⟩
        obtain rfl := Except.ok.inj hr
        exact ⟨resumed, rfl, h, rfl⟩
    · simp only [ne_eq, h, not_false_eq_true, if_true]
      exact ⟨Quiet.refl m, fun _ h => by cases h⟩

theorem setSessionWorktreeId_after (sessionId : String) (worktreeId : Option String) :
    After (setSessionWorktreeId sessionId worktreeId) m fun _ m' =>
      Sets m m' (m.sessions.update sessionId fun session =>
        { session with worktreeId := worktreeId, updatedAt := m.clock }) m.turns m.approvals m.waits := by
  rw [setSessionWorktreeId, after_bind_iff, after_getSession]
  constructor
  · intro session hs
    simp only [after_bind_iff, after_nowMs, after_insertSession, Table.update, hs]
    refine after_quiet fun r m' hq _ => ?_
    cases r <;>
      exact ⟨hq.providers, hq.clock, hq.nextId, hq.faults, hq.sessions, hq.turns, hq.approvals, hq.waits⟩
  · intro hs
    simp only [Table.update, hs]
    exact Quiet.refl m

/-! ## Turns -/

/-- What a `send_turn` call knows when it awaits the provider. -/
structure Began (m : Manager) (sid : String) (c : SendCall) : Prop where
  sessionId : c.sessionId = sid
  session : m.sessions.lookup sid = some c.session
  notClosed : c.session.status ≠ .closed
  notFailed : c.session.status ≠ .failed
  noActive : c.session.activeTurnId = none
  turnId : ∃ stem, c.turnId = numbered stem m.nextId
  approvalId : ∀ a, c.approvalId = some a → ∃ stem, a = numbered stem (m.nextId + 1)

theorem sendTurnBegin_after (sessionId : String) (input : SendTurnInput) :
    After (sendTurnBegin sessionId input) m fun r m' => Quiet m m' ∧
      ∀ c, r = .ok c → Began m sessionId c ∧ c.input = input ∧ m.nextId < m'.nextId ∧
        (c.approvalId.isSome → m.nextId + 1 < m'.nextId) := by
  rw [sendTurnBegin, after_bind_iff, after_getSession]
  refine ⟨fun session hs => ?_, fun _ => ⟨Quiet.refl m, fun _ h => by cases h⟩⟩
  by_cases hst : session.status = .closed ∨ session.status = .failed
  · simp only [hst, if_true]
    exact (after_throw _ _ _).mpr ⟨Quiet.refl m, fun _ h => by cases h⟩
  simp only [hst, if_false]
  by_cases hact : session.activeTurnId.isSome = true
  · simp only [hact, if_true]
    exact (after_throw _ _ _).mpr ⟨Quiet.refl m, fun _ h => by cases h⟩
  simp only [hact]
  push Not at hst
  rw [if_neg (by simp), after_bind_iff]
  refine after_providerKindOf _ fun r => ?_
  cases r with
  | error e => exact ⟨Quiet.refl m, fun _ h => by cases h⟩
  | ok kind =>
    simp only [after_bind_iff, after_allocateId, after_nowMs]
    by_cases hp : input.permissionMode.or session.permissionMode = some "require_approval"
    · simp only [hp, if_true, after_bind_iff, after_allocateId, after_pure]
      refine ⟨⟨rfl, rfl, Nat.le_add_right m.nextId 2, id, rfl, rfl, rfl, rfl⟩, fun c hc => ?_⟩
      obtain rfl := Except.ok.inj hc
      refine ⟨⟨rfl, hs, hst.1, hst.2, by simpa using hact, ⟨_, rfl⟩, ?_⟩, rfl, by omega, fun _ => by omega⟩
      intro a ha
      exact ⟨_, (Option.some.inj ha).symm⟩
    · simp only [hp, if_false, after_pure]
      refine ⟨⟨rfl, rfl, Nat.le_succ _, id, rfl, rfl, rfl, rfl⟩, fun c hc => ?_⟩
      obtain rfl := Except.ok.inj hc
      exact ⟨⟨rfl, hs, hst.1, hst.2, by simpa using hact, ⟨_, rfl⟩, fun _ h => (by cases h)⟩, rfl, Nat.lt_succ_self _,
        fun h => by cases h⟩

theorem sendTurnStore_after (c : SendCall) (ack : Except RuntimeError ProviderTurnAck) :
    After (sendTurnStore c ack) m fun r m' => Quiet m m' ∧
      (∀ w, r = .ok w → c.settle ack m.clock = .ok w) ∧
      (m.store.faults = [] → r = c.settle ack m.clock) := by
  simp only [sendTurnStore, after_bind_iff, after_nowMs, after_ofExcept]
  cases hw : c.settle ack m.clock with
  | error e => exact ⟨Quiet.refl m, fun _ h => h, fun _ => rfl⟩
  | ok w =>
    refine after_quiet fun r m₁ hq hf => ?_
    cases r with
    | error e => exact ⟨hq, fun _ h => (by cases h), fun h => by cases hf h⟩
    | ok _ =>
      refine after_quiet fun r m₂ hq' hf' => ?_
      cases r with
      | error e => exact ⟨hq.quiet hq', fun _ h => (by cases h), fun h => by cases hf' (hq.faults h)⟩
      | ok _ => exact (after_pure _ _ _).mpr ⟨hq.quiet hq', fun _ h => h, fun _ => rfl⟩

theorem SendCall.settle_call {c : SendCall} {ack : Except RuntimeError ProviderTurnAck} {now : ℤ}
    {w : SendWrite} (h : c.settle ack now = .ok w) : w.call = c := by
  unfold SendCall.settle at h
  split at h
  · split at h
    · cases h
    · cases h; rfl
  · cases h; rfl

theorem sendTurnInsertTurn_after (w : SendWrite) :
    After (sendTurnInsertTurn w) m fun r m' => r = .ok () ∧
      Sets m m' m.sessions (m.turns.insert w.call.turnId w.turn) m.approvals m.waits := by
  rw [sendTurnInsertTurn, after_insertTurn]
  exact ⟨rfl, rfl, rfl, le_rfl, id, rfl, rfl, rfl, rfl⟩

/-- The waits after a wait for `turnId` may have been spawned. -/
def Spawned (m : Manager) (kind : ProviderKind) (sessionId turnId : String) (waits : List WaitTask) : Prop :=
  waits = m.waits ∨ waits = m.waits ++ [⟨kind, sessionId, turnId⟩]

/-- What inserting the session of a `send_turn` leaves: the wait of a turn that runs, or the approval
of one that waits. -/
structure SessionInserted (m : Manager) (w : SendWrite) (r : Except RuntimeError (Option ApprovalRecord))
    (waits : List WaitTask) : Prop where
  waits : waits = m.waits ∨ (w.failure = none ∧ w.call.approvalId = none ∧
    Spawned m w.call.providerKind w.call.sessionId w.call.turnId waits)
  approval : ∀ a, r = .ok (some a) → w.failure = none ∧
    ∃ id, w.call.approvalId = some id ∧ a = w.call.approval id

theorem sendTurnInsertSession_after (w : SendWrite) :
    After (sendTurnInsertSession w) m fun r m' => ∃ waits,
      Sets m m' (m.sessions.insert w.call.sessionId w.session) m.turns m.approvals waits ∧
        SessionInserted m w r waits ∧
        (m.store.faults = [] → w.failure = none →
          r = .ok (w.call.approvalId.map w.call.approval)) := by
  simp only [sendTurnInsertSession, after_bind_iff, after_insertSession]
  have hset : ∀ {m' : Manager},
      Quiet { m with sessions := m.sessions.insert w.call.sessionId w.session } m' →
        Sets m m' (m.sessions.insert w.call.sessionId w.session) m.turns m.approvals m.waits :=
    fun hq => ⟨hq.providers, hq.clock, hq.nextId, hq.faults, hq.sessions, hq.turns, hq.approvals, hq.waits⟩
  cases hfail : w.failure with
  | some f =>
    obtain ⟨error, now⟩ := f
    simp only [after_bind_iff]
    refine after_event fun r m' hq _ => ?_
    cases r <;> simp only [after_throw] <;>
      exact ⟨m.waits, hset hq, ⟨.inl rfl, fun _ h => by cases h⟩, fun _ h => by cases h⟩
  | none =>
    cases happ : w.call.approvalId with
    | some approvalId =>
      simp only [after_bind_iff]
      refine after_quiet fun r m' hq hf => ?_
      cases r with
      | error e =>
        exact ⟨m.waits, hset hq, ⟨.inl rfl, fun _ h => by cases h⟩, fun h => by cases hf h⟩
      | ok _ =>
        refine ⟨m.waits, hset hq, ⟨.inl rfl, fun a ha => ⟨hfail, approvalId, happ, ?_⟩⟩, fun _ _ => rfl⟩
        exact (Option.some.inj (Except.ok.inj ha)).symm
    | none =>
      simp only [after_bind_iff]
      refine after_event fun r m' hq hf => ?_
      cases r with
      | error e =>
        exact ⟨m.waits, hset hq, ⟨.inl rfl, fun _ h => by cases h⟩, fun h => by obtain ⟨_, h⟩ := hf h; cases h⟩
      | ok _ =>
        simp only [after_spawnWaitForTurn, after_pure]
        have hs := hset hq
        split
        · refine ⟨_, ⟨hs.providers, hs.clock, hs.nextId, hs.faults, hs.sessions, hs.turns, hs.approvals, rfl⟩,
            ⟨.inr ⟨hfail, happ, .inr ?_⟩, fun _ h => by cases h⟩, fun _ _ => rfl⟩
          rw [hs.waits]
        · exact ⟨m.waits, hs, ⟨.inl rfl, fun _ h => by cases h⟩, fun _ _ => rfl⟩

theorem sendTurnInsertApproval_after (approval : ApprovalRecord) :
    After (sendTurnInsertApproval approval) m fun r m' =>
      Sets m m' m.sessions m.turns (m.approvals.insert approval.id approval) m.waits ∧
        (m.store.faults = [] → r = .ok ()) := by
  simp only [sendTurnInsertApproval, after_bind_iff, after_insertApproval]
  refine after_event fun r m' hq hf => ?_
  have hs : Sets m m' m.sessions m.turns (m.approvals.insert approval.id approval) m.waits :=
    ⟨hq.providers, hq.clock, hq.nextId, hq.faults, hq.sessions, hq.turns, hq.approvals, hq.waits⟩
  cases r with
  | error e => exact ⟨hs, fun h => by obtain ⟨_, h⟩ := hf h; cases h⟩
  | ok _ => exact ⟨hs, fun _ => rfl⟩

theorem interruptTurnBegin_after (sessionId turnId : String) :
    After (interruptTurnBegin sessionId turnId) m fun r m' => m' = m ∧ (r = .ok () →
      ∃ session, m.sessions.lookup sessionId = some session ∧ session.activeTurnId = some turnId) := by
  rw [interruptTurnBegin, after_bind_iff, after_getSession]
  refine ⟨fun session hs => ?_, fun _ => ⟨rfl, fun h => by cases h⟩⟩
  by_cases h : session.activeTurnId = some turnId
  · simp only [h, ne_eq, not_true_eq_false, if_false]
    rw [after_bind_iff]
    refine after_providerKindOf _ fun r => ?_
    cases r with
    | error e => exact ⟨rfl, fun h => by cases h⟩
    | ok kind => exact after_require fun _ => ⟨rfl, fun _ => ⟨session, hs, h⟩⟩
  · simp only [h, ne_eq, not_false_eq_true, if_true]
    exact (after_throw _ _ _).mpr ⟨rfl, fun h => by cases h⟩

theorem interruptTurnEnd_after (sessionId turnId : String) (answer : Except RuntimeError Unit) :
    After (interruptTurnEnd sessionId turnId answer) m fun _ m' => Quiet m m' := by
  simp only [interruptTurnEnd, after_bind_iff, after_ofExcept]
  cases answer with
  | error e => exact Quiet.refl m
  | ok _ =>
    refine after_event fun r m' hq _ => ?_
    cases r <;> simpa using hq

/-! ## Approvals -/

theorem respondApprovalBegin_after (sessionId : String) :
    After (respondApprovalBegin sessionId) m fun r m' => m' = m ∧
      ∀ kind, r = .ok kind → ∃ session, m.sessions.lookup sessionId = some session := by
  rw [respondApprovalBegin, after_bind_iff, after_getSession]
  refine ⟨fun session hs => ?_, fun _ => ⟨rfl, fun _ h => by cases h⟩⟩
  simp only [after_bind_iff]
  refine after_providerKindOf _ fun r => ?_
  cases r with
  | error e => exact ⟨rfl, fun _ h => by cases h⟩
  | ok kind =>
    refine after_require fun r => ?_
    cases r with
    | error e => exact ⟨rfl, fun _ h => by cases h⟩
    | ok _ => exact (after_pure _ _ _).mpr ⟨rfl, fun _ _ => ⟨session, hs⟩⟩

/-- What a `respond_approval` call knows when it awaits the provider. -/
structure Checked (m : Manager) (sid approvalId : String) (c : RespondCall) : Prop where
  sessionId : c.sessionId = sid
  existing : m.approvals.lookup approvalId = some c.existing
  owner : c.existing.sessionId = sid
  pending : c.existing.status = .pending

theorem respondApprovalCheck_after (kind : ProviderKind) (sessionId approvalId : String)
    (input : ApprovalResponseInput) :
    After (respondApprovalCheck kind sessionId approvalId input) m fun r m' => m' = m ∧
      ∀ c, r = .ok c → Checked m sessionId approvalId c := by
  simp only [respondApprovalCheck, after_bind_iff, after_get, after_orThrow]
  refine ⟨fun existing he => ?_, fun _ => ⟨trivial, fun _ h => by cases h⟩⟩
  by_cases hs : existing.sessionId = sessionId
  · simp only [hs, ne_eq, not_true_eq_false, if_false]
    by_cases hp : existing.status = .pending
    · simp only [hp, not_true_eq_false, if_false]
      refine after_checked (fun d _ => ?_) fun _ _ => ⟨rfl, fun _ h => by cases h⟩
      refine (after_pure _ _ _).mpr ⟨rfl, fun c hc => ?_⟩
      obtain rfl := Except.ok.inj hc
      exact ⟨rfl, he, hs, hp⟩
    · simp only [hp, not_false_eq_true, if_true]
      exact (after_throw _ _ _).mpr ⟨rfl, fun _ h => by cases h⟩
  · simp only [hs, ne_eq, not_false_eq_true, if_true]
    exact (after_throw _ _ _).mpr ⟨rfl, fun _ h => by cases h⟩

theorem respondApprovalResolve_after (approvalId : String) (c : RespondCall) (answer : Except RuntimeError Unit) :
    After (respondApprovalResolve approvalId c answer) m fun r m' =>
      (Quiet m m' ∧ (∀ resolved, r ≠ .ok resolved) ∧ (m.store.faults = [] → answer ≠ .ok ())) ∨
      (Sets m m' m.sessions m.turns (m.approvals.insert approvalId (c.resolved m.clock)) m.waits ∧
        answer = .ok () ∧ (∀ resolved, r = .ok resolved → resolved = c.resolved m.clock) ∧
        (m.store.faults = [] → r = .ok (c.resolved m.clock))) := by
  simp only [respondApprovalResolve, after_bind_iff, after_ofExcept]
  cases answer with
  | error e => exact .inl ⟨Quiet.refl m, fun _ h => (by cases h), fun _ h => by cases h⟩
  | ok _ =>
    simp only [after_nowMs]
    refine after_quiet fun r m₁ hq hf => ?_
    cases r with
    | error e => exact .inl ⟨hq, fun _ h => (by cases h), fun h => by cases hf h⟩
    | ok _ =>
      simp only [after_insertApproval]
      refine after_event fun r m₂ hq' hf' => ?_
      have hs : Sets m m₂ m.sessions m.turns (m.approvals.insert approvalId (c.resolved m.clock)) m.waits :=
        hq.trans ⟨hq'.providers, hq'.clock, hq'.nextId, hq'.faults, hq'.sessions.trans hq.sessions,
          hq'.turns.trans hq.turns, by rw [hq'.approvals, hq.approvals], hq'.waits.trans hq.waits⟩
      cases r with
      | error e =>
        refine .inr ⟨hs, trivial, fun _ h => (by cases h), fun h => ?_⟩
        obtain ⟨_, h⟩ := hf' (hq.faults h)
        cases h
      | ok _ =>
        exact (after_pure _ _ _).mpr (.inr ⟨hs, trivial, fun _ h => (Except.ok.inj h).symm, fun _ => rfl⟩)

/-- The turns, the sessions and the waits after a decision is applied, as far as the writes went. -/
structure Applied (m m' : Manager) (c : RespondCall) (turnId : String) (turn : TurnRecord → TurnRecord)
    (session : SessionRecord → SessionRecord) : Prop where
  writes : ∃ sessions waits, Sets m m' sessions (m.turns.update turnId turn) m.approvals waits ∧
    (sessions = m.sessions ∨ sessions = m.sessions.update c.sessionId session) ∧
    Spawned m c.providerKind c.sessionId turnId waits
  complete : m.store.faults = [] → m'.sessions = m.sessions.update c.sessionId session

/-- The turn and the session change one after the other; what follows only adds events and waits. -/
theorem change_both_after {α : Type} (c : RespondCall) (turnId : String) (turn : TurnRecord → TurnRecord)
    (session : SessionRecord → SessionRecord) (rest : RuntimeM α)
    (hrest : ∀ m₂, After rest m₂ fun _ m' => ∃ waits,
      Sets m₂ m' m₂.sessions m₂.turns m₂.approvals waits ∧ Spawned m₂ c.providerKind c.sessionId turnId waits) :
    After (do
      changeTurn turnId turn
      changeSession c.sessionId session
      rest) m fun _ m' => Applied m m' c turnId turn session := by
  rw [after_bind_iff]
  refine after_changeTurn fun r m₁ h₁ hf₁ => ?_
  have w₁ : ∃ sessions waits, Sets m m₁ sessions (m.turns.update turnId turn) m.approvals waits ∧
      (sessions = m.sessions ∨ sessions = m.sessions.update c.sessionId session) ∧
      Spawned m c.providerKind c.sessionId turnId waits := ⟨_, _, h₁, .inl rfl, .inl rfl⟩
  cases r with
  | error e => exact ⟨w₁, fun h => by cases hf₁ h⟩
  | ok _ =>
    simp only [after_bind_iff]
    refine after_changeSession fun r m₂ h₂ hf₂ => ?_
    have h₁₂ : Sets m m₂ (m.sessions.update c.sessionId session) (m.turns.update turnId turn)
        m.approvals m.waits := by
      have h := h₁.trans h₂
      rwa [h₁.sessions, h₁.turns, h₁.approvals, h₁.waits] at h
    cases r with
    | error e => exact ⟨⟨_, _, h₁₂, .inr rfl, .inl rfl⟩, fun h => by cases hf₂ (h₁.faults h)⟩
    | ok _ =>
      refine (hrest m₂).mono fun _ m' h => ?_
      obtain ⟨waits, hs, hw⟩ := h
      rw [h₁₂.sessions, h₁₂.turns, h₁₂.approvals] at hs
      refine ⟨⟨_, waits, h₁₂.trans hs, .inr rfl, ?_⟩, fun _ => hs.sessions⟩
      rwa [Spawned, h₁₂.waits] at hw

theorem respondApprovalApply_accept_after (c : RespondCall) (resolved : ApprovalRecord)
    (hd : c.decision = .accept) :
    After (respondApprovalApply c resolved) m fun _ m' =>
      Applied m m' c resolved.turnId acceptedTurn (acceptedSession m.clock) := by
  simp only [respondApprovalApply, hd]
  rw [after_bind_iff, after_nowMs]
  refine change_both_after c resolved.turnId _ _ _ fun m₂ => ?_
  simp only [after_bind_iff]
  refine after_event fun r m₃ hq _ => ?_
  cases r with
  | error e => exact ⟨_, hq, .inl rfl⟩
  | ok _ =>
    simp only [after_spawnWaitForTurn, after_pure]
    split
    · refine ⟨_, ⟨hq.providers, hq.clock, hq.nextId, hq.faults, hq.sessions, hq.turns, hq.approvals, rfl⟩, ?_⟩
      rw [hq.waits]
      exact .inr rfl
    · exact ⟨_, hq, .inl rfl⟩

theorem respondApprovalApply_decline_after (c : RespondCall) (resolved : ApprovalRecord)
    (hd : c.decision = .decline) :
    After (respondApprovalApply c resolved) m fun _ m' =>
      Applied m m' c resolved.turnId (declinedTurn m.clock) (declinedSession resolved.turnId m.clock) := by
  simp only [respondApprovalApply, hd]
  rw [after_bind_iff, after_nowMs]
  refine change_both_after c resolved.turnId _ _ _ fun m₂ => ?_
  simp only [after_bind_iff]
  refine after_event fun r m₃ hq _ => ?_
  cases r with
  | error e => exact ⟨_, hq, .inl rfl⟩
  | ok _ => exact (after_pure _ _ _).mpr ⟨_, hq, .inl rfl⟩

/-! ## Provider results -/

structure Ends (m : Manager) (result : ProviderTurnResult) (turn : TurnRecord) : Prop where
  found : m.turns.lookup result.turnId = some turn
  owner : turn.sessionId = result.runtimeSessionId
  running : isTerminalTurnStatus turn.status = false

inductive ResultApplied (m : Manager) (result : ProviderTurnResult) (m' : Manager) : Prop where
  | nothing (quiet : Quiet m m')
      (why : ∀ turn, m.turns.lookup result.turnId = some turn → turn.sessionId = result.runtimeSessionId →
        turn.status = result.status.toTurnStatus ∧ isTerminalTurnStatus turn.status = true)
  | conflict (turn : TurnRecord) (conflict : String) (found : m.turns.lookup result.turnId = some turn)
      (owner : turn.sessionId = result.runtimeSessionId) (ended : isTerminalTurnStatus turn.status = true)
      (differs : turn.status ≠ result.status.toTurnStatus)
      (sets : Sets m m' (m.sessions.update turn.sessionId (conflictedSession conflict m.clock)) m.turns
        m.approvals m.waits)
  | ended (turn : TurnRecord) (sessions : Table String SessionRecord) (ends : Ends m result turn)
      (sets : Sets m m' sessions (m.turns.insert result.turnId (finishedTurn result m.clock turn))
        m.approvals m.waits)
      (session : sessions = m.sessions ∨
        sessions = m.sessions.update result.runtimeSessionId (finishedSession result turn m.clock))
      (complete : m.store.faults = [] →
        sessions = m.sessions.update result.runtimeSessionId (finishedSession result turn m.clock))

theorem applyTerminalResult_after (result : ProviderTurnResult) :
    After (applyTerminalResult result) m fun _ m' => ResultApplied m result m' := by
  simp only [applyTerminalResult, after_bind_iff, after_nowMs, after_get, after_orThrow]
  refine ⟨fun turn ht => ?_, fun hn => .nothing (Quiet.refl m) fun turn ht => by simp [hn] at ht⟩
  by_cases ho : turn.sessionId = result.runtimeSessionId
  swap
  · simp only [ho, ne_eq, not_false_eq_true, if_true]
    refine (after_throw _ _ _).mpr (.nothing (Quiet.refl m) fun turn' ht' ho' => ?_)
    obtain rfl := Option.some.inj (ht.symm.trans ht')
    exact absurd ho' ho
  simp only [ho, ne_eq, not_true_eq_false, if_false]
  cases hterm : isTerminalTurnStatus turn.status with
  | true =>
    simp only [if_true]
    by_cases hsame : turn.status = result.status.toTurnStatus
    · simp only [hsame, if_true, after_pure]
      refine .nothing (Quiet.refl m) fun turn' ht' _ => ?_
      obtain rfl := Option.some.inj (ht.symm.trans ht')
      exact ⟨hsame, hterm⟩
    · simp only [hsame, if_false]
      rw [after_bind_iff]
      refine after_changeSession fun r m' hs _ => ?_
      rw [← ho] at hs
      cases r with
      | error e => exact .conflict turn _ ht ho hterm hsame hs
      | ok _ => exact (after_throw _ _ _).mpr (.conflict turn _ ht ho hterm hsame hs)
  | false =>
    have hends : Ends m result turn := ⟨ht, ho, hterm⟩
    simp only [Bool.false_eq_true, if_false, after_bind_iff, after_insertTurn]
    refine after_quiet fun r m₁ h₁ hf₁ => ?_
    have hs₁ : Sets m m₁ m.sessions (m.turns.insert result.turnId (finishedTurn result m.clock turn))
        m.approvals m.waits :=
      ⟨h₁.providers, h₁.clock, h₁.nextId, h₁.faults, h₁.sessions, h₁.turns, h₁.approvals, h₁.waits⟩
    cases r with
    | error e => exact .ended turn _ hends hs₁ (.inl rfl) fun h => by cases hf₁ h
    | ok _ =>
      rw [after_getSession, hs₁.sessions]
      constructor
      · intro session hses
        have hup : m.sessions.update result.runtimeSessionId (finishedSession result turn m.clock) =
            m.sessions.insert result.runtimeSessionId (finishedSession result turn m.clock session) := by
          simp [Table.update, hses]
        simp only [after_insertSession]
        refine after_quiet fun r m₂ h₂ hf₂ => ?_
        have hs₂ : Sets m m₂ (m.sessions.update result.runtimeSessionId (finishedSession result turn m.clock))
            (m.turns.insert result.turnId (finishedTurn result m.clock turn)) m.approvals m.waits :=
          hs₁.trans ⟨h₂.providers, h₂.clock, h₂.nextId, h₂.faults, by rw [h₂.sessions, hs₁.sessions, hup],
            h₂.turns.trans hs₁.turns, h₂.approvals.trans hs₁.approvals, h₂.waits.trans hs₁.waits⟩
        cases r with
        | error e => exact .ended turn _ hends hs₂ (.inr rfl) fun _ => rfl
        | ok _ =>
          refine after_event fun r m₃ h₃ _ => ?_
          cases r with
          | error e => exact .ended turn _ hends (hs₂.quiet h₃) (.inr rfl) fun _ => rfl
          | ok _ => exact (after_pure _ _ _).mpr (.ended turn _ hends (hs₂.quiet h₃) (.inr rfl) fun _ => rfl)
      · intro hnone
        have hup : m.sessions.update result.runtimeSessionId (finishedSession result turn m.clock) =
            m.sessions := by simp [Table.update, hnone]
        exact .ended turn _ hends hs₁ (.inl rfl) fun _ => hup.symm

theorem applyTerminalFailureTurn_after (turnId : String) (error : RuntimeError) :
    After (applyTerminalFailureTurn turnId error) m fun r m' =>
      (Quiet m m' ∧ r = .ok () ∧
        ∀ turn, m.turns.lookup turnId = some turn → isTerminalTurnStatus turn.status = true) ∨
      (Sets m m' m.sessions (m.turns.update turnId (waitFailedTurn error m.clock)) m.approvals m.waits ∧
        (m.store.faults = [] → r = .ok ()) ∧
        ∃ turn, m.turns.lookup turnId = some turn ∧ isTerminalTurnStatus turn.status = false) := by
  simp only [applyTerminalFailureTurn, after_bind_iff, after_nowMs, after_get]
  cases ht : m.turns.lookup turnId with
  | none => exact (after_pure _ _ _).mpr (.inl ⟨Quiet.refl m, rfl, fun _ h => by cases h⟩)
  | some turn =>
    cases hterm : isTerminalTurnStatus turn.status with
    | true =>
      simp only [hterm, if_true, after_pure]
      refine .inl ⟨Quiet.refl m, trivial, fun turn' h => ?_⟩
      obtain rfl := Option.some.inj h
      exact hterm
    | false =>
      simp only [hterm, Bool.false_eq_true, if_false]
      exact after_changeTurn fun r m' hs hf => .inr ⟨hs, hf, turn, rfl, hterm⟩

theorem applyTerminalFailureSession_after (sessionId turnId : String) (error : RuntimeError) :
    After (applyTerminalFailureSession sessionId turnId error) m fun _ m' =>
      Sets m m' (m.sessions.update sessionId (failedSession turnId error m.clock)) m.turns m.approvals m.waits := by
  simp only [applyTerminalFailureSession, after_bind_iff, after_nowMs]
  refine after_changeSession fun r m₁ h₁ _ => ?_
  cases r with
  | error e => exact h₁
  | ok _ =>
    refine after_event fun r m₂ h₂ _ => ?_
    cases r with
    | error e => exact h₁.quiet h₂
    | ok _ => exact (after_pure _ _ _).mpr (h₁.quiet h₂)

end

end Gooselake.Runtime
