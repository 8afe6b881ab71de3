import Gooselake.Runtime.Coherence

/-!
Memory and store after one completed operation whose store writes may fail. From a state in which the
maps are what hydration would load, an operation leaves such a state exactly when no write fails after
its record, or the record it belongs to, is already on the other side.
-/

namespace Gooselake.Runtime

open Gooselake.Core Data Library Library.Exec

set_option autoImplicit false

/-- An operation that is carried out as a whole. -/
inductive Performed where
  | request (req : Request)
  | setSessionWorktreeId (sessionId : String) (worktreeId : Option String)

namespace Manager

def perform : Performed → Manager → Option Manager
  | .request req, m => m.serve req
  | .setSessionWorktreeId sessionId worktreeId, m =>
    some (m.complete (Runtime.setSessionWorktreeId sessionId worktreeId))

def hydrated (m : Manager) : Manager := Manager.new m.store m.providers m.clock

end Manager

/-- The maps are what a restart would read from the store. -/
structure Agrees (m : Manager) : Prop where
  sessions : ∀ k, m.sessions.lookup k = m.hydrated.sessions.lookup k
  turns : ∀ k, m.turns.lookup k = m.hydrated.turns.lookup k
  approvals : ∀ k, m.approvals.lookup k = m.hydrated.approvals.lookup k

/-- No two rows of a table have one id. -/
structure PrimaryKeys (s : Store) : Prop where
  sessions : (s.sessions.map SessionRecord.id).Nodup
  turns : (s.turns.map TurnRecord.id).Nodup
  approvals : (s.approvals.map ApprovalRecord.id).Nodup

/-! ## The operations that keep it -/

namespace Manager

/-- The `n`-th of the coming writes fails. -/
def fails (m : Manager) (n : ℕ) : Bool := m.store.faults[n]? = some true

/-- A session changed in memory is stored by the `n`-th write, or the change is none. -/
def sessionKept (m : Manager) (n : ℕ) (sid : String) (f : SessionRecord → SessionRecord) : Bool :=
  (m.sessions.lookup sid).all fun session => !m.fails n || f session = session

def changesKept (m : Manager) (n : ℕ) (turnId : String) (f : TurnRecord → TurnRecord) (sid : String)
    (g : SessionRecord → SessionRecord) : Bool :=
  match m.turns.lookup turnId with
  | some turn => if m.fails n then f turn = turn else m.sessionKept (n + 1) sid g
  | none => m.sessionKept n sid g

/-- The id a call gets when `n` ids were issued before it. -/
def idFor (m : Manager) (stem suffix : String) (n : ℕ) : String :=
  numbered s!"{stem}_{suffix}_{m.clock}" (m.nextId + n)

def createKept (m : Manager) (input : CreateSessionInput)
    (provider : ProviderCreateSessionRequest → Except RuntimeError ProviderSession) : Bool :=
  let c : CreateCall := ⟨input, m.idFor "sess" input.provider.asStr 0, m.clock⟩
  input.provider ∉ m.providers || m.fails 0 ||
    (provider c.request).toOption.all (fun created => created.runtimeSessionId ≠ c.sessionId) ||
    (m.sessions.lookup c.sessionId).all fun session => session.createdAt = m.clock

/-- The `send_turn` call of a session that may get a turn. -/
def sendCall (m : Manager) (sid : String) (input : SendTurnInput) : Option SendCall := do
  let session ← m.sessions.lookup sid
  let kind ← ProviderKind.fromStr session.provider
  let permissionMode := input.permissionMode.or session.permissionMode
  if session.status = .closed ∨ session.status = .failed ∨ session.activeTurnId.isSome then none else
    some ⟨sid, session, kind, m.idFor "turn" kind.asStr 0, m.clock, input, permissionMode,
      if permissionMode = some "require_approval" then some (m.idFor "apr" kind.asStr 1) else none⟩

def sendWrite (m : Manager) (sid : String) (input : SendTurnInput) (provider : SendAnswers) : Option SendWrite := do
  let c ← m.sendCall sid input
  let ack := dispatchSendTurnWithResumeFallback (decide (c.providerKind ∈ m.providers)) c provider
  (c.settle ack m.clock).toOption

/-- A send stores its turn and then its session, or fails on the turn; the approval id it gets is not
stored with another time. -/
def sendKept (m : Manager) (sid : String) (input : SendTurnInput) (provider : SendAnswers) : Bool :=
  (m.sendWrite sid input provider).all fun w =>
    m.fails 0 ||
      if m.fails 1 then m.turns.lookup w.call.turnId = some w.turn
      else w.failure.isSome || m.fails 2 ||
        w.call.approvalId.all fun approvalId =>
          (m.approvals.lookup approvalId).all fun approval => approval.createdAt = w.call.now

/-- The `respond_approval` call of a pending approval of the session. -/
def respondCall (m : Manager) (sid approvalId : String) (input : ApprovalResponseInput) : Option RespondCall := do
  let session ← m.sessions.lookup sid
  let kind ← ProviderKind.fromStr session.provider
  let existing ← m.approvals.lookup approvalId
  let decision ← (ApprovalDecision.parse input.decision).toOption
  if kind ∉ m.providers ∨ existing.sessionId ≠ sid ∨ existing.status ≠ .pending then none else
    some ⟨sid, kind, existing, decision, input.payload⟩

/-- An answered approval is not stored or not announced, or its turn and its session are stored too. -/
def respondKept (m : Manager) (sid approvalId : String) (input : ApprovalResponseInput)
    (provider : ProviderApprovalResponseRequest → Except RuntimeError Unit) : Bool :=
  (m.respondCall sid approvalId input).all fun c =>
    !(provider (c.request approvalId)).isOk || m.fails 0 || m.fails 1 ||
      match c.decision with
      | .accept => m.changesKept 2 c.existing.turnId acceptedTurn sid (acceptedSession m.clock)
      | .decline =>
        m.changesKept 2 c.existing.turnId (declinedTurn m.clock) sid (declinedSession c.existing.turnId m.clock)

def conflictText (result : ProviderTurnResult) (turn : TurnRecord) : String :=
  s!"conflicting terminal state for turn {result.turnId} (stored={turn.status.asStr}, incoming={result.status.asStr})"

def resultKept (m : Manager) (result : ProviderTurnResult) : Bool :=
  (m.turns.lookup result.turnId).all fun turn =>
    turn.sessionId ≠ result.runtimeSessionId ||
      if isTerminalTurnStatus turn.status then
        turn.status = result.status.toTurnStatus ||
          m.sessionKept 0 turn.sessionId (conflictedSession (conflictText result turn) m.clock)
      else m.changesKept 0 result.turnId (finishedTurn result m.clock) result.runtimeSessionId
        (finishedSession result turn m.clock)

def failureKept (m : Manager) (sid turnId : String) (error : RuntimeError) : Bool :=
  if (m.turns.lookup turnId).any fun turn => isTerminalTurnStatus turn.status then
    m.sessionKept 0 sid (failedSession turnId error m.clock)
  else m.changesKept 0 turnId (waitFailedTurn error m.clock) sid (failedSession turnId error m.clock)

end Manager

/-- Memory and store agree after the operation: no write fails that comes after its record, or the
record before it, has reached the other side. -/
def kept : Performed → Manager → Bool
  | .setSessionWorktreeId sid worktreeId, m =>
    m.sessionKept 0 sid fun session => { session with worktreeId := worktreeId, updatedAt := m.clock }
  | .request (.createSession input provider), m => m.createKept input provider
  | .request (.sendTurn sid input provider), m => m.sendKept sid input provider
  | .request (.respondApproval sid approvalId input provider), m => m.respondKept sid approvalId input provider
  | .request (.result _ result), m => m.resultKept result
  | .request (.waitFailure w error), m =>
    (m.waits[w]?).all fun task => m.failureKept task.sessionId task.turnId error
  | _, _ => true

/-! ## Records that mirror the store -/

structure Mirrored (m : Manager) : Prop where
  sessions : Mirrors SessionRecord.id m.sessions m.store.sessions
  turns : Mirrors TurnRecord.id m.turns m.store.turns
  approvals : Mirrors ApprovalRecord.id m.approvals m.store.approvals

theorem agrees_iff {m : Manager} (h : PrimaryKeys m.store) : Agrees m ↔ Mirrored m := by
  have hs : Mirrors SessionRecord.id m.hydrated.sessions m.store.sessions := mirrors_foldl_insert h.sessions
  have ht : Mirrors TurnRecord.id m.hydrated.turns m.store.turns := mirrors_foldl_insert h.turns
  have ha : Mirrors ApprovalRecord.id m.hydrated.approvals m.store.approvals := mirrors_foldl_insert h.approvals
  constructor
  · intro hagrees
    exact ⟨fun k => (hagrees.sessions k).trans (hs k), fun k => (hagrees.turns k).trans (ht k),
      fun k => (hagrees.approvals k).trans (ha k)⟩
  · intro hm
    exact ⟨fun k => (hm.sessions k).trans (hs k).symm, fun k => (hm.turns k).trans (ht k).symm,
      fun k => (hm.approvals k).trans (ha k).symm⟩

structure Settled (m : Manager) : Prop where
  keys : PrimaryKeys m.store
  mirrored : Mirrored m

/-- The ids are still keys, and memory mirrors the store exactly when `p` holds. -/
structure Ended (p : Prop) (m : Manager) : Prop where
  keys : PrimaryKeys m.store
  mirrored : Mirrored m ↔ p

theorem Settled.ended {m : Manager} (h : Settled m) : Ended True m := ⟨h.keys, iff_of_true h.mirrored trivial⟩

theorem Ended.settled {m : Manager} {p : Prop} (h : Ended p m) (hp : p) : Settled m := ⟨h.keys, h.mirrored.mpr hp⟩

theorem Ended.congr {m : Manager} {p q : Prop} (h : Ended p m) (hpq : p ↔ q) : Ended q m :=
  ⟨h.keys, h.mirrored.trans hpq⟩

/-- The records of `m'` are those of `m`, in memory and in the store. -/
structure SameRecords (m m' : Manager) : Prop where
  sessions : m'.sessions = m.sessions
  turns : m'.turns = m.turns
  approvals : m'.approvals = m.approvals
  storedSessions : m'.store.sessions = m.store.sessions
  storedTurns : m'.store.turns = m.store.turns
  storedApprovals : m'.store.approvals = m.store.approvals

theorem Ended.same {m m' : Manager} {p : Prop} (h : Ended p m) (hs : SameRecords m m') : Ended p m' := by
  obtain ⟨h1, h2, h3, h4, h5, h6⟩ := hs
  have hkeys : PrimaryKeys m'.store :=
    ⟨h4 ▸ h.keys.sessions, h5 ▸ h.keys.turns, h6 ▸ h.keys.approvals⟩
  refine ⟨hkeys, Iff.trans ?_ h.mirrored⟩
  constructor <;> intro hm
  · exact ⟨h1 ▸ h4 ▸ hm.sessions, h2 ▸ h5 ▸ hm.turns, h3 ▸ h6 ▸ hm.approvals⟩
  · exact ⟨h1.symm ▸ h4.symm ▸ hm.sessions, h2.symm ▸ h5.symm ▸ hm.turns, h3.symm ▸ h6.symm ▸ hm.approvals⟩

theorem Settled.same {m m' : Manager} (h : Settled m) (hs : SameRecords m m') : Settled m' :=
  (h.ended.same hs).settled trivial

/-! ## Writes -/

/-- The state after a write of `f` that takes place; after one that fails it is `m.stored id`. -/
def Manager.stored (m : Manager) (f : Store → Store) : Manager :=
  { m with store := { f m.store with faults := m.store.faults.tail } }

section

variable {m : Manager}

theorem fails_tail {m' : Manager} (h : m'.store.faults = m.store.faults.tail) (n : ℕ) :
    m'.fails n = m.fails (n + 1) := by
  rw [Manager.fails, h, List.getElem?_tail, Manager.fails]

theorem fails_stored (f : Store → Store) (n : ℕ) : (m.stored f).fails n = m.fails (n + 1) := fails_tail rfl n

theorem after_store {f : Store → Store} {Q : Except RuntimeError Unit → Manager → Prop}
    (hfail : m.fails 0 = true → Q (.error Store.writeError) (m.stored id))
    (hok : m.fails 0 = false → Q (.ok ()) (m.stored f)) : After (onStore (Store.write f)) m Q := by
  rw [after_onStore]
  unfold Manager.fails at hfail hok
  unfold Store.write
  unfold Manager.stored at hfail hok
  cases hfaults : m.store.faults with
  | nil =>
    rw [hfaults] at hok
    exact hok rfl
  | cons fault rest =>
    rw [hfaults] at hfail hok
    cases fault with
    | true => exact hfail rfl
    | false => exact hok rfl

theorem after_announce {sessionId : String} {turnId : Option String} {kind : String} {payload : Json}
    {Q : Except RuntimeError RuntimeEventRecord → Manager → Prop}
    (h : ∀ r m', SameRecords m m' → (∀ n, m'.fails n = m.fails (n + 1)) → m'.clock = m.clock →
      m'.providers = m.providers → (r.isOk = !m.fails 0) → Q r m') :
    After (appendSessionEvent sessionId turnId kind payload) m Q := by
  unfold appendSessionEvent appendEvent
  simp only [after_bind_iff, after_allocateId, after_nowMs, after_onStore]
  generalize hst : Store.appendRuntimeEvent _ _ = o
  have hkeeps : o.2.sessions = m.store.sessions ∧ o.2.turns = m.store.turns ∧
      o.2.approvals = m.store.approvals ∧ o.2.faults = m.store.faults.tail ∧ o.1.isOk = !m.fails 0 := by
    rw [← hst]
    unfold Store.appendRuntimeEvent Store.write Manager.fails
    cases hfaults : m.store.faults with
    | nil => split <;> exact ⟨rfl, rfl, rfl, by simp [hfaults], rfl⟩
    | cons fault rest => cases fault <;> split <;> exact ⟨rfl, rfl, rfl, rfl, rfl⟩
  obtain ⟨r, st⟩ := o
  obtain ⟨h1, h2, h3, h4, h5⟩ := hkeeps
  have hfails : ∀ n, decide (st.faults[n]? = some true) = m.fails (n + 1) := by
    intro n
    change st.faults = m.store.faults.tail at h4
    rw [h4, List.getElem?_tail, Manager.fails]
  cases r with
  | error e => exact h (.error e) _ ⟨rfl, rfl, rfl, h1, h2, h3⟩ hfails rfl rfl h5
  | ok record =>
    simp only [after_modify, after_pure]
    exact h (.ok record) _ ⟨rfl, rfl, rfl, h1, h2, h3⟩ hfails rfl rfl h5

end

/-! ## One record -/

section

variable {m : Manager}

theorem PrimaryKeys.session (h : PrimaryKeys m.store) (r : SessionRecord) :
    PrimaryKeys (m.stored fun s => { s with
      sessions := upsert SessionRecord.id (fun old new => { new with createdAt := old.createdAt }) r s.sessions }).store :=
  ⟨nodup_upsert (fun _ => rfl) h.sessions, h.turns, h.approvals⟩

theorem PrimaryKeys.turn (h : PrimaryKeys m.store) (r : TurnRecord) :
    PrimaryKeys (m.stored fun s => { s with turns := upsert TurnRecord.id (fun _ new => new) r s.turns }).store :=
  ⟨h.sessions, nodup_upsert (fun _ => rfl) h.turns, h.approvals⟩

theorem Settled.session (h : Settled m) (r : SessionRecord) :
    Ended (∀ old, m.sessions.lookup r.id = some old → old.createdAt = r.createdAt)
      { m.stored fun s => { s with
          sessions := upsert SessionRecord.id (fun old new => { new with createdAt := old.createdAt }) r s.sessions } with
        sessions := m.sessions.insert r.id r } := by
  refine ⟨h.keys.session r, ?_⟩
  have hiff := h.mirrored.sessions.upsert_iff (fun old new => { new with createdAt := old.createdAt }) r
    fun _ => rfl
  constructor
  · intro hm old hold
    have hsame := hiff.mp hm.sessions old hold
    rw [← hsame]
  · intro hold
    refine ⟨hiff.mpr fun old ho => ?_, h.mirrored.turns, h.mirrored.approvals⟩
    rw [hold old ho]

theorem Settled.sessionAhead (h : Settled m) (key : String) (r : SessionRecord) :
    Ended (m.sessions.lookup key = some r) { m.stored id with sessions := m.sessions.insert key r } := by
  refine ⟨⟨h.keys.sessions, h.keys.turns, h.keys.approvals⟩,
    fun hm => h.mirrored.sessions.insert_iff.mp hm.sessions, fun hr => ?_⟩
  exact ⟨h.mirrored.sessions.insert_iff.mpr hr, h.mirrored.turns, h.mirrored.approvals⟩

theorem Settled.turn (h : Settled m) (r : TurnRecord) :
    Settled { m.stored fun s => { s with turns := upsert TurnRecord.id (fun _ new => new) r s.turns } with
      turns := m.turns.insert r.id r } := by
  refine ⟨h.keys.turn r, h.mirrored.sessions, ?_, h.mirrored.approvals⟩
  exact (h.mirrored.turns.upsert_iff _ _ fun _ => rfl).mpr fun _ _ => rfl

theorem Settled.turnAhead (h : Settled m) (key : String) (r : TurnRecord) :
    Ended (m.turns.lookup key = some r) { m.stored id with turns := m.turns.insert key r } := by
  refine ⟨⟨h.keys.sessions, h.keys.turns, h.keys.approvals⟩,
    fun hm => h.mirrored.turns.insert_iff.mp hm.turns, fun hr => ?_⟩
  exact ⟨h.mirrored.sessions, h.mirrored.turns.insert_iff.mpr hr, h.mirrored.approvals⟩

end

/-! ## Changes in memory first -/

section

variable {m : Manager}

theorem after_sessionBehind {key : String} {session r : SessionRecord} {Q : Except RuntimeError Unit → Manager → Prop}
    (h : Settled m) (hl : m.sessions.lookup key = some session) (hid : r.id = session.id)
    (hcreated : r.createdAt = session.createdAt)
    (hfail : m.fails 0 = true → ∀ m', Ended (r = session) m' → Q (.error Store.writeError) m')
    (hok : m.fails 0 = false → ∀ m', Settled m' → Q (.ok ()) m') :
    After (onStore (Store.upsertSession r)) { m with sessions := m.sessions.insert key r } Q := by
  have hkey : r.id = key := hid.trans (h.mirrored.sessions.key_eq hl)
  refine after_store (fun hf => hfail hf _ ?_) fun hf => hok hf _ ?_
  · refine (h.sessionAhead key r).congr ?_
    rw [hl, Option.some.injEq, eq_comm]
  · subst hkey
    refine (h.session r).settled fun old hold => ?_
    obtain rfl := Option.some.inj (hl.symm.trans hold)
    exact hcreated.symm

theorem after_turnBehind {key : String} {turn r : TurnRecord} {Q : Except RuntimeError Unit → Manager → Prop}
    (h : Settled m) (hl : m.turns.lookup key = some turn) (hid : r.id = turn.id)
    (hfail : m.fails 0 = true → ∀ m', Ended (r = turn) m' → Q (.error Store.writeError) m')
    (hok : m.fails 0 = false → ∀ m', Settled m' → m'.sessions = m.sessions → m'.clock = m.clock →
      (∀ n, m'.fails n = m.fails (n + 1)) → Q (.ok ()) m') :
    After (onStore (Store.upsertTurn r)) { m with turns := m.turns.insert key r } Q := by
  have hkey : r.id = key := hid.trans (h.mirrored.turns.key_eq hl)
  refine after_store (fun hf => hfail hf _ ?_) fun hf => hok hf _ ?_ rfl rfl fun n => ?_
  · refine (h.turnAhead key r).congr ?_
    rw [hl, Option.some.injEq, eq_comm]
  · subst hkey
    exact h.turn r
  · exact fails_stored _ n

theorem sessionKept_congr {m' : Manager} {n n' : ℕ} {sid : String} {f : SessionRecord → SessionRecord}
    (hs : m'.sessions = m.sessions) (hn : m'.fails n = m.fails n') : m'.sessionKept n sid f = m.sessionKept n' sid f := by
  rw [Manager.sessionKept, hs, hn, Manager.sessionKept]

theorem changeSession_ended {α : Type} {key : String} {f : SessionRecord → SessionRecord} {rest : RuntimeM α}
    (h : Settled m) (hf : ∀ r, (f r).id = r.id ∧ (f r).createdAt = r.createdAt)
    (hrest : ∀ m', Settled m' → After rest m' fun _ m'' => Settled m'') :
    After (do changeSession key f; rest) m fun _ m' => Ended (m.sessionKept 0 key f = true) m' := by
  unfold Manager.sessionKept
  rw [after_bind_iff]
  simp only [changeSession, after_bind_iff, after_get]
  cases hl : m.sessions.lookup key with
  | none => exact (after_pure _ _ _).mpr ((hrest m h).mono fun _ _ he => he.ended.congr (by simp))
  | some session =>
    simp only [after_bind_iff, after_insertSession]
    refine after_sessionBehind h hl (hf session).1 (hf session).2 (fun hfail m' he => ?_) fun hok m' hm' => ?_
    · exact he.congr (by simp [hfail])
    · exact (hrest m' hm').mono fun _ _ he => he.ended.congr (by simp [hok])

theorem changeTurn_ended {key : String} {f : TurnRecord → TurnRecord} (h : Settled m) (hf : ∀ r, (f r).id = r.id) :
    After (changeTurn key f) m fun r m' =>
      (∀ e, r = .error e → ∀ sid g, Ended (m.changesKept 0 key f sid g = true) m') ∧
      (r = .ok () → Settled m' ∧ m'.clock = m.clock ∧
        ∀ sid g, m'.sessionKept 0 sid g = m.changesKept 0 key f sid g) := by
  unfold Manager.changesKept
  simp only [changeTurn, after_bind_iff, after_get]
  cases hl : m.turns.lookup key with
  | none => exact (after_pure _ _ _).mpr ⟨fun _ hr => (by cases hr), fun _ => ⟨h, rfl, fun _ _ => rfl⟩⟩
  | some turn =>
    simp only [after_bind_iff, after_insertTurn]
    refine after_turnBehind h hl (hf turn) (fun hfail m' he => ?_) fun hok m' hm' hs hclock hn => ?_
    · exact ⟨fun _ _ _ _ => he.congr (by simp [hfail]), fun hr => by cases hr⟩
    · refine ⟨fun _ hr => (by cases hr), fun _ => ⟨hm', hclock, fun sid g => ?_⟩⟩
      rw [sessionKept_congr hs (hn 0)]
      simp [hok]

theorem Settled.announce {α : Type} {sessionId : String} {turnId : Option String} {kind : String} {payload : Json}
    {rest : RuntimeM α} (h : Settled m) (hrest : ∀ m', Settled m' → After rest m' fun _ m'' => Settled m'') :
    After (do let _ ← appendSessionEvent sessionId turnId kind payload; rest) m fun _ m' => Settled m' := by
  rw [after_bind_iff]
  refine after_announce fun r m' hs _ _ _ _ => ?_
  cases r with
  | error e => exact h.same hs
  | ok _ => exact hrest m' (h.same hs)

end

/-! ## Operations -/

section

variable {m : Manager}

theorem Settled.failed (h : Settled m) : Settled (m.stored id) := h.same ⟨rfl, rfl, rfl, rfl, rfl, rfl⟩

theorem Settled.replace (h : Settled m) {key : String} {session r : SessionRecord}
    (hl : m.sessions.lookup key = some session) (hid : r.id = session.id) (hcreated : r.createdAt = session.createdAt) :
    Settled { m.stored fun s => { s with
        sessions := upsert SessionRecord.id (fun old new => { new with createdAt := old.createdAt }) r s.sessions } with
      sessions := m.sessions.insert key r } := by
  have hkey : r.id = key := hid.trans (h.mirrored.sessions.key_eq hl)
  subst hkey
  refine (h.session r).settled fun old hold => ?_
  obtain rfl := Option.some.inj (hl.symm.trans hold)
  exact hcreated.symm

theorem setSessionWorktreeId_ended (h : Settled m) (sid : String) (worktreeId : Option String) :
    After (setSessionWorktreeId sid worktreeId) m fun _ m' =>
      Ended (kept (.setSessionWorktreeId sid worktreeId) m = true) m' := by
  unfold kept Manager.sessionKept
  rw [setSessionWorktreeId, after_bind_iff, after_getSession]
  constructor
  · intro session hl
    simp only [after_bind_iff, after_nowMs, after_insertSession, hl]
    refine after_sessionBehind h hl rfl rfl (fun hfail m' he => ?_) fun hok m' hm' => ?_
    · exact he.congr (by simp [hfail])
    · exact (after_pure _ _ _).mpr (hm'.ended.congr (by simp [hok]))
  · intro hl
    exact h.ended.congr (by simp [hl])

theorem created_ended (h : Settled m) (c : CreateCall) (answer : Except RuntimeError ProviderSession) :
    After (do let record ← createSessionStore c answer; createSessionInsert record) m fun _ m' =>
      Ended ((m.fails 0 || answer.toOption.all (fun created => created.runtimeSessionId ≠ c.sessionId) ||
        (m.sessions.lookup c.sessionId).all fun session => session.createdAt = c.now) = true) m' := by
  simp only [createSessionStore, after_bind_iff, after_ofExcept]
  cases answer with
  | error e => exact h.ended.congr (by simp [Except.toOption])
  | ok created =>
    by_cases hsession : created.runtimeSessionId = c.sessionId
    · simp only [hsession, ne_eq, not_true_eq_false, if_false, after_bind_iff]
      refine after_store (fun hfail => h.failed.ended.congr (by simp [hfail])) fun hok => ?_
      simp only [after_pure, createSessionInsert, after_bind_iff, after_insertSession]
      refine after_announce fun r m' hs _ _ _ _ => ?_
      have hend := ((h.session (c.record created)).same hs).congr (q := (m.fails 0 ||
        (Except.ok created : Except RuntimeError ProviderSession).toOption.all (fun created =>
          ¬ created.runtimeSessionId = c.sessionId) ||
        (m.sessions.lookup c.sessionId).all fun session => session.createdAt = c.now) = true) (by
          simp [hok, hsession, Except.toOption, Option.all_eq_true, CreateCall.record])
      cases r <;> exact hend
    · simp only [hsession, ne_eq, not_false_eq_true, if_true, after_bind_iff, after_throw]
      exact h.ended.congr (by simp [hsession, Except.toOption])

theorem createSession_ended (h : Settled m) (input : CreateSessionInput)
    (provider : ProviderCreateSessionRequest → Except RuntimeError ProviderSession) :
    After (createSession input provider) m fun _ m' => Ended (m.createKept input provider = true) m' := by
  have hnoted : Settled { m with nextId := m.nextId + 1 } := h.same ⟨rfl, rfl, rfl, rfl, rfl, rfl⟩
  rw [createSession, after_bind_iff]
  simp only [createSessionBegin, after_bind_iff, after_requireProvider, after_nowMs, after_allocateId, after_pure]
  refine ⟨fun hregistered => ?_, fun hunregistered => h.ended.congr (by simp [Manager.createKept, hunregistered])⟩
  rw [← after_bind_iff]
  refine (created_ended hnoted _ _).mono fun _ _ he => he.congr ?_
  unfold Manager.createKept
  rw [decide_eq_false (not_not_intro hregistered), Bool.false_or]
  rfl

theorem finalizeSessionClose_settled (h : Settled m) (sid reason : String) :
    After (finalizeSessionClose sid reason) m fun _ m' => Settled m' := by
  simp only [finalizeSessionClose, finalizeSessionCloseStore, after_bind_iff, after_getSession]
  refine ⟨fun session hl => ?_, fun _ => h⟩
  simp only [after_nowMs]
  refine after_store (fun _ => h.failed) fun _ => ?_
  have hreplaced := h.replace (r := closedRecord session m.clock) hl rfl rfl
  simp only [after_pure, finalizeSessionCloseInsert]
  rw [after_bind_iff, after_insertSession]
  exact hreplaced.announce fun m' hm' => (after_pure _ _ _).mpr hm'

theorem closeSession_settled (h : Settled m) (sid : String) (reason : Option String)
    (provider : ProviderCloseSessionRequest → Except RuntimeError Unit) :
    After (closeSession sid reason provider) m fun _ m' => Settled m' := by
  rw [closeSession, after_bind_iff]
  refine (closeSessionBegin_after sid).mono fun r m' hm' => ?_
  obtain rfl := hm'.1
  cases r with
  | error e => exact h
  | ok _ =>
    simp only [after_bind_iff, after_ofExcept]
    cases provider ⟨sid, reason⟩ with
    | error e => exact h
    | ok _ => exact finalizeSessionClose_settled h _ _

theorem interruptTurn_settled (h : Settled m) (sid turnId : String)
    (provider : ProviderInterruptTurnRequest → Except RuntimeError Unit) :
    After (interruptTurn sid turnId provider) m fun _ m' => Settled m' := by
  rw [interruptTurn, after_bind_iff]
  refine (interruptTurnBegin_after sid turnId).mono fun r m' hm' => ?_
  obtain rfl := hm'.1
  cases r with
  | error e => exact h
  | ok _ =>
    rw [interruptTurnEnd, after_bind_iff, after_ofExcept]
    cases provider ⟨sid, turnId⟩ with
    | error e => exact h
    | ok _ => exact h.announce fun m' hm' => (after_pure _ _ _).mpr hm'

theorem resumeSession_settled (h : Settled m) (sid : String) (input : ResumeSessionInput)
    (provider : ProviderResumeSessionRequest → Except RuntimeError ProviderSession) :
    After (resumeSession sid input provider) m fun _ m' => Settled m' := by
  rw [resumeSession, after_bind_iff]
  refine (resumeSessionBegin_after sid input).mono fun r m' hm' => ?_
  obtain ⟨rfl, hbegan⟩ := hm'
  cases r with
  | error e => exact h
  | ok c =>
    have hl := (hbegan c rfl).session
    simp only [resumeSessionStore, after_bind_iff, after_ofExcept]
    cases provider c.request with
    | error e => exact h
    | ok resumed =>
      by_cases hsession : resumed.runtimeSessionId = c.sessionId
      · simp only [hsession, ne_eq, not_true_eq_false, if_false, after_bind_iff, after_nowMs]
        refine after_store (fun _ => h.failed) fun _ => ?_
        have hreplaced := h.replace (r := c.record resumed m'.clock) hl rfl rfl
        simp only [after_pure, resumeSessionInsert]
        rw [after_bind_iff, after_insertSession]
        exact hreplaced.announce fun m' hm' => (after_pure _ _ _).mpr hm'
      · simp only [hsession, ne_eq, not_false_eq_true, if_true, after_bind_iff, after_throw]
        exact h

end

/-! ## send_turn -/

section

variable {m : Manager}

theorem sendTurnBegin_call (sid : String) (input : SendTurnInput) :
    After (sendTurnBegin sid input) m fun r m' =>
      r.toOption = m.sendCall sid input ∧ ∃ n, m' = { m with nextId := n } := by
  rw [sendTurnBegin, after_bind_iff, after_getSession]
  refine ⟨fun session hl => ?_, fun hl => ⟨by simp [Manager.sendCall, hl, Except.toOption], m.nextId, rfl⟩⟩
  have hcall : m.sendCall sid input = (ProviderKind.fromStr session.provider).bind fun kind =>
      if session.status = .closed ∨ session.status = .failed ∨ session.activeTurnId.isSome then none else
        some ⟨sid, session, kind, m.idFor "turn" kind.asStr 0, m.clock, input,
          input.permissionMode.or session.permissionMode,
          if input.permissionMode.or session.permissionMode = some "require_approval" then
            some (m.idFor "apr" kind.asStr 1) else none⟩ := by
    simp [Manager.sendCall, hl]
  rw [hcall]
  by_cases hended : session.status = .closed ∨ session.status = .failed
  · simp only [hended, if_true, after_bind_iff, after_throw]
    refine ⟨?_, m.nextId, rfl⟩
    have hor : session.status = .closed ∨ session.status = .failed ∨ session.activeTurnId.isSome = true :=
      hended.elim .inl fun h => .inr (.inl h)
    simp [hor, Except.toOption]
  · by_cases hactive : session.activeTurnId.isSome = true
    · simp only [hended, if_false, hactive, if_true, after_bind_iff, after_throw]
      exact ⟨by simp [Except.toOption], m.nextId, rfl⟩
    · have hnone : ¬ (session.status = .closed ∨ session.status = .failed ∨ session.activeTurnId.isSome = true) :=
        fun h => h.elim (fun h => hended (.inl h)) fun h => h.elim (fun h => hended (.inr h)) hactive
      simp only [if_neg hended, if_neg hactive, if_neg hnone, after_bind_iff, providerKindOf, after_orThrow]
      refine ⟨fun kind hkind => ?_, fun hkind => ⟨by simp [hkind, Except.toOption], m.nextId, rfl⟩⟩
      simp only [after_allocateId, after_nowMs, hkind, Option.bind_some]
      by_cases happroval : input.permissionMode.or session.permissionMode = some "require_approval"
      · simp only [happroval, if_true, after_bind_iff, after_allocateId, after_pure]
        exact ⟨rfl, m.nextId + 1 + 1, rfl⟩
      · simp only [happroval, if_false, after_pure]
        exact ⟨rfl, m.nextId + 1, rfl⟩

theorem settle_call {c : SendCall} {ack : Except RuntimeError ProviderTurnAck} {now : ℤ} {w : SendWrite}
    (h : c.settle ack now = .ok w) : w.call = c := by
  unfold SendCall.settle at h
  split at h
  · split at h
    · cases h
    · exact Except.ok.inj h ▸ rfl
  · exact Except.ok.inj h ▸ rfl

theorem SendWrite.turn_id (w : SendWrite) : w.turn.id = w.call.turnId := by
  unfold SendWrite.turn
  split <;> rfl

theorem SendWrite.session_id (w : SendWrite) :
    w.session.id = w.call.session.id ∧ w.session.createdAt = w.call.session.createdAt := by
  unfold SendWrite.session
  split <;> exact ⟨rfl, rfl⟩

theorem Settled.turnStored (h : Settled m) (r : TurnRecord) :
    Ended (m.turns.lookup r.id = some r) ((m.stored fun s => { s with
      turns := upsert TurnRecord.id (fun _ new => new) r s.turns }).stored id) := by
  have hiff := h.mirrored.turns.row_iff (fun _ new => new) r fun _ => rfl
  have hself : ((m.turns.lookup r.id).map fun _ => r).getD r = r := by cases m.turns.lookup r.id <;> rfl
  rw [hself] at hiff
  have hkeys := h.keys.turn r
  refine ⟨⟨hkeys.sessions, hkeys.turns, hkeys.approvals⟩, fun hm => hiff.mp hm.turns, fun hr => ?_⟩
  exact ⟨h.mirrored.sessions, hiff.mpr hr, h.mirrored.approvals⟩

theorem Settled.approval (h : Settled m) (r : ApprovalRecord) :
    Ended (∀ old, m.approvals.lookup r.id = some old → old.createdAt = r.createdAt)
      { m.stored fun s => { s with
          approvals := upsert ApprovalRecord.id (fun old new => { new with createdAt := old.createdAt }) r s.approvals } with
        approvals := m.approvals.insert r.id r } := by
  refine ⟨⟨h.keys.sessions, h.keys.turns, nodup_upsert (fun _ => rfl) h.keys.approvals⟩, ?_⟩
  have hiff := h.mirrored.approvals.upsert_iff (fun old new => { new with createdAt := old.createdAt }) r
    fun _ => rfl
  constructor
  · intro hm old hold
    have hsame := hiff.mp hm.approvals old hold
    rw [← hsame]
  · intro hold
    refine ⟨h.mirrored.sessions, h.mirrored.turns, hiff.mpr fun old ho => ?_⟩
    rw [hold old ho]

end

section

variable {m : Manager}

theorem sentSession_ended {w : SendWrite} {a : SendTurnAccepted}
    (hset : Settled { m with sessions := m.sessions.insert w.call.sessionId w.session }) :
    After (do
      match ← sendTurnInsertSession w with
      | some approval => sendTurnInsertApproval approval
      | none => pure ()
      return a) m fun _ m' =>
        Ended ((w.failure.isSome || m.fails 0 || w.call.approvalId.all fun approvalId =>
          (m.approvals.lookup approvalId).all fun approval => approval.createdAt = w.call.now) = true) m' := by
  simp only [sendTurnInsertSession, after_bind_iff, after_insertSession]
  cases hfailure : w.failure with
  | some failure =>
    simp only [after_bind_iff]
    refine after_announce fun r m' hs _ _ _ _ => ?_
    have hend : Settled m' := hset.same hs
    cases r with
    | error e => exact hend.ended.congr (by simp)
    | ok _ =>
      simp only [after_throw]
      exact hend.ended.congr (by simp)
  | none =>
    cases hrequired : w.call.approvalId with
    | none =>
      simp only [after_bind_iff]
      refine after_announce fun r m' hs _ _ _ _ => ?_
      have hend : Settled m' := hset.same hs
      cases r with
      | error e => exact hend.ended.congr (by simp)
      | ok _ =>
        simp only [after_spawnWaitForTurn, after_pure]
        refine (hend.ended.same ?_).congr (by simp)
        split <;> exact ⟨rfl, rfl, rfl, rfl, rfl, rfl⟩
    | some approvalId =>
      simp only [after_bind_iff]
      have hstored := hset.approval (w.call.approval approvalId)
      refine after_store (fun hfail => ?_) fun hok => ?_
      · have hfails : m.fails 0 = true := hfail
        exact hset.failed.ended.congr (by simp [hfails])
      · have hfails : m.fails 0 = false := hok
        simp only [after_pure, sendTurnInsertApproval, after_bind_iff, after_insertApproval]
        refine after_announce fun r m' hs _ _ _ _ => ?_
        have hend := (hstored.same hs).congr (q := (false || m.fails 0 || (some approvalId).all fun approvalId =>
          (m.approvals.lookup approvalId).all fun approval => approval.createdAt = w.call.now) = true) (by
            simp [hfails, SendCall.approval, Option.all_eq_true])
        cases r <;> exact hend

theorem sendTurnStore_ended (h : Settled m) {c : SendCall} (hl : m.sessions.lookup c.sessionId = some c.session)
    (ack : Except RuntimeError ProviderTurnAck) :
    After (sendTurnStore c ack) m fun r m' =>
      (∀ e, r = .error e → ∀ later : SendWrite → Bool, Ended ((c.settle ack m.clock).toOption.all (fun w => m.fails 0 ||
        if m.fails 1 then m.turns.lookup w.call.turnId = some w.turn else later w) = true) m') ∧
      ∀ w, r = .ok w → c.settle ack m.clock = .ok w ∧ m.fails 0 = false ∧ m.fails 1 = false ∧
        m'.approvals = m.approvals ∧ m'.fails 0 = m.fails 2 ∧
        Settled { m' with
          turns := m'.turns.insert w.call.turnId w.turn
          sessions := m'.sessions.insert w.call.sessionId w.session } := by
  simp only [sendTurnStore, after_bind_iff, after_nowMs, after_ofExcept]
  cases hsettle : c.settle ack m.clock with
  | error e => exact ⟨fun _ _ _ => h.ended.congr (by simp [Except.toOption]), fun _ hr => by cases hr⟩
  | ok w =>
    have hcall := settle_call hsettle
    subst hcall
    refine after_store (fun hfail => ⟨fun _ _ _ => ?_, fun _ hr => (by cases hr)⟩) fun hok => ?_
    · exact h.failed.ended.congr (by simp [Except.toOption, hfail])
    refine after_store (fun hfail => ⟨fun _ _ _ => ?_, fun _ hr => (by cases hr)⟩) fun hok' => ?_
    · have hfails : m.fails 1 = true := (fails_stored _ 0).symm.trans hfail
      refine (h.turnStored w.turn).congr ?_
      rw [w.turn_id]
      simp [Except.toOption, hok, hfails]
    · have hset := (h.turn w.turn).replace (r := w.session) hl w.session_id.1 w.session_id.2
      rw [w.turn_id] at hset
      refine (after_pure _ _ _).mpr ⟨fun _ hr => (by cases hr), fun w' hr => ?_⟩
      obtain rfl := Except.ok.inj hr
      exact ⟨rfl, hok, (fails_stored _ 0).symm.trans hok', rfl, (fails_stored _ 0).trans (fails_stored _ 1), hset⟩

theorem sendTurn_ended (h : Settled m) (sid : String) (input : SendTurnInput) (provider : SendAnswers) :
    After (sendTurn sid input provider) m fun _ m' => Ended (m.sendKept sid input provider = true) m' := by
  rw [sendTurn]
  refine after_bind ((sendTurnBegin_call sid input).and (sendTurnBegin_after sid input)) (fun c m₁ h₁ => ?_) ?_
  · obtain ⟨⟨hcall, n, rfl⟩, -, hbegan⟩ := h₁
    have hb := (hbegan c rfl).1
    have hl : m.sessions.lookup c.sessionId = some c.session := by rw [hb.sessionId]; exact hb.session
    have hkept : m.sendKept sid input provider = ((c.settle (dispatchSendTurnWithResumeFallback
        (decide (c.providerKind ∈ m.providers)) c provider) m.clock).toOption.all fun w => m.fails 0 ||
          if m.fails 1 then m.turns.lookup w.call.turnId = some w.turn
          else w.failure.isSome || m.fails 2 || w.call.approvalId.all fun approvalId =>
            (m.approvals.lookup approvalId).all fun approval => approval.createdAt = w.call.now) := by
      rw [Manager.sendKept, Manager.sendWrite, ← hcall]
      rfl
    rw [hkept]
    rw [after_bind_iff, after_get]
    have hnoted : Settled { m with nextId := n } := h.same ⟨rfl, rfl, rfl, rfl, rfl, rfl⟩
    refine after_bind (sendTurnStore_ended hnoted hl _) (fun w m₂ h₂ => ?_) fun e m₂ h₂ => ?_
    · obtain ⟨hsettle, hfirst, hsecond, happrovals, hthird, hset⟩ := h₂.2 w rfl
      have hfirst' : m.fails 0 = false := hfirst
      have hsecond' : m.fails 1 = false := hsecond
      have hthird' : m₂.fails 0 = m.fails 2 := hthird
      have hsettle' : c.settle (dispatchSendTurnWithResumeFallback (decide (c.providerKind ∈ m.providers)) c provider)
        m.clock = .ok w := hsettle
      rw [after_bind_iff, sendTurnInsertTurn, after_insertTurn]
      refine (sentSession_ended hset).mono fun _ _ he => he.congr ?_
      have hfails : ({ m₂ with turns := m₂.turns.insert w.call.turnId w.turn } : Manager).fails 0 = m.fails 2 := hthird'
      have hpending : m₂.approvals = m.approvals := happrovals
      rw [hsettle', hfails, hpending]
      simp [Except.toOption, hfirst', hsecond']
    · exact h₂.1 e rfl _
  · intro e m₁ h₁
    obtain ⟨⟨hcall, n, rfl⟩, -⟩ := h₁
    have hnone : m.sendCall sid input = none := hcall.symm
    have hnoted : Settled { m with nextId := n } := h.same ⟨rfl, rfl, rfl, rfl, rfl, rfl⟩
    refine hnoted.ended.congr ?_
    simp [Manager.sendKept, Manager.sendWrite, hnone]

end

/-! ## respond_approval -/

section

variable {m : Manager}

theorem respondApprovalBegin_kind (sid : String) :
    After (respondApprovalBegin sid) m fun r m' => m' = m ∧ r.toOption =
      (m.sessions.lookup sid).bind fun session => (ProviderKind.fromStr session.provider).bind fun kind =>
        if kind ∈ m.providers then some kind else none := by
  rw [respondApprovalBegin, after_bind_iff, after_getSession]
  refine ⟨fun session hl => ?_, fun hl => ⟨rfl, by simp [hl, Except.toOption]⟩⟩
  simp only [after_bind_iff, providerKindOf, after_orThrow, after_requireProvider, after_pure, hl]
  refine ⟨fun kind hkind => ⟨fun hin => ⟨trivial, ?_⟩, fun hout => ⟨trivial, ?_⟩⟩, fun hkind => ⟨trivial, ?_⟩⟩
  · simp [hkind, hin, Except.toOption]
  · simp [hkind, hout, Except.toOption]
  · simp [hkind, Except.toOption]

theorem respondApprovalCheck_call (kind : ProviderKind) (sid approvalId : String) (input : ApprovalResponseInput) :
    After (respondApprovalCheck kind sid approvalId input) m fun r m' => m' = m ∧ r.toOption =
      (m.approvals.lookup approvalId).bind fun existing => (ApprovalDecision.parse input.decision).toOption.bind
        fun decision => if existing.sessionId ≠ sid ∨ existing.status ≠ .pending then none else
          some ⟨sid, kind, existing, decision, input.payload⟩ := by
  simp only [respondApprovalCheck, after_bind_iff, after_get, after_orThrow]
  refine ⟨fun existing hl => ?_, fun hl => ⟨trivial, by simp [hl, Except.toOption]⟩⟩
  rw [hl, Option.bind_some]
  by_cases hsession : existing.sessionId = sid
  · by_cases hpending : existing.status = .pending
    · simp only [hsession, hpending, ne_eq, not_true_eq_false, if_false, after_bind_iff, after_ofExcept]
      cases ApprovalDecision.parse input.decision with
      | error e => exact ⟨trivial, rfl⟩
      | ok decision => exact (after_pure _ _ _).mpr ⟨rfl, by simp [Except.toOption]⟩
    · simp only [hsession, ne_eq, not_true_eq_false, if_false, hpending, not_false_eq_true, if_true, after_bind_iff,
        after_throw]
      exact ⟨trivial, by simp [Except.toOption]⟩
  · simp only [ne_eq, hsession, not_false_eq_true, if_true, after_bind_iff, after_throw]
    exact ⟨trivial, by simp [Except.toOption]⟩

theorem respondCall_eq (sid approvalId : String) (input : ApprovalResponseInput) :
    m.respondCall sid approvalId input =
      ((m.sessions.lookup sid).bind fun session => (ProviderKind.fromStr session.provider).bind fun kind =>
        if kind ∈ m.providers then some kind else none).bind fun kind =>
          (m.approvals.lookup approvalId).bind fun existing => (ApprovalDecision.parse input.decision).toOption.bind
            fun decision => if existing.sessionId ≠ sid ∨ existing.status ≠ .pending then none else
              some ⟨sid, kind, existing, decision, input.payload⟩ := by
  unfold Manager.respondCall
  cases m.sessions.lookup sid with
  | none => rfl
  | some session =>
    cases hkind : ProviderKind.fromStr session.provider with
    | none => simp [hkind]
    | some kind =>
      by_cases hin : kind ∈ m.providers
      · simp [hkind, hin]
      · cases m.approvals.lookup approvalId with
        | none => simp [hkind, hin]
        | some existing => cases (ApprovalDecision.parse input.decision).toOption <;> simp [hkind, hin]

theorem Settled.resolve (h : Settled m) {key : String} {existing r : ApprovalRecord}
    (hl : m.approvals.lookup key = some existing) (hid : r.id = existing.id) (hcreated : r.createdAt = existing.createdAt) :
    Settled { m.stored fun s => { s with
        approvals := upsert ApprovalRecord.id (fun old new => { new with createdAt := old.createdAt }) r s.approvals } with
      approvals := m.approvals.insert key r } := by
  have hkey : r.id = key := hid.trans (h.mirrored.approvals.key_eq hl)
  subst hkey
  refine (h.approval r).settled fun old hold => ?_
  obtain rfl := Option.some.inj (hl.symm.trans hold)
  exact hcreated.symm

theorem respondApprovalResolve_settled (h : Settled m) {approvalId : String} {c : RespondCall}
    (hl : m.approvals.lookup approvalId = some c.existing) (answer : Except RuntimeError Unit) :
    After (respondApprovalResolve approvalId c answer) m fun r m' => Settled m' ∧
      (∀ e, r = .error e → !answer.isOk || m.fails 0 || m.fails 1) ∧
      ∀ resolved, r = .ok resolved → answer.isOk = true ∧ m.fails 0 = false ∧ m.fails 1 = false ∧
        resolved.turnId = c.existing.turnId ∧ m'.sessions = m.sessions ∧ m'.turns = m.turns ∧ m'.clock = m.clock ∧
          ∀ n, m'.fails n = m.fails (n + 2) := by
  rw [respondApprovalResolve, after_bind_iff, after_ofExcept]
  cases answer with
  | error e => exact ⟨h, fun _ _ => rfl, fun _ hr => by cases hr⟩
  | ok _ =>
    simp only [after_bind_iff, after_nowMs]
    refine after_store (fun hfail => ⟨h.failed, fun _ _ => ?_, fun _ hr => (by cases hr)⟩) fun hok => ?_
    · simp [hfail]
    have hresolved := h.resolve (r := c.resolved m.clock) hl rfl rfl
    simp only [after_insertApproval]
    refine after_announce fun r m' hs hn hclock hproviders hr => ?_
    have hend : Settled m' := hresolved.same hs
    have hsecond : ∀ n, m'.fails n = m.fails (n + 2) := fun n => (hn n).trans (fails_tail rfl (n + 1))
    have hfirst : r.isOk = !m.fails 1 := by
      rw [hr]
      exact congrArg Bool.not (fails_tail rfl 0)
    cases r with
    | error e =>
      have hfails : m.fails 1 = true := by simpa [Except.isOk, Except.toBool] using hfirst
      exact ⟨hend, fun _ _ => (by simp [hfails]), fun _ hr => by cases hr⟩
    | ok _ =>
      have hfails : m.fails 1 = false := by simpa [Except.isOk, Except.toBool] using hfirst
      refine (after_pure _ _ _).mpr ⟨hend, fun _ hr => (by cases hr), fun resolved hr => ?_⟩
      obtain rfl := Except.ok.inj hr
      exact ⟨rfl, hok, hfails, rfl, hs.sessions, hs.turns, hclock, hsecond⟩

end

section

variable {m : Manager}

theorem respondApprovalApply_ended (h : Settled m) (c : RespondCall) (resolved : ApprovalRecord) :
    After (respondApprovalApply c resolved) m fun _ m' => Ended ((match c.decision with
      | .accept => m.changesKept 0 resolved.turnId acceptedTurn c.sessionId (acceptedSession m.clock)
      | .decline => m.changesKept 0 resolved.turnId (declinedTurn m.clock) c.sessionId
          (declinedSession resolved.turnId m.clock)) = true) m' := by
  rw [respondApprovalApply, after_bind_iff, after_nowMs]
  cases c.decision with
  | accept =>
    refine after_bind (changeTurn_ended h fun _ => rfl) (fun _ m₁ h₁ => ?_) fun e m₁ h₁ => h₁.1 e rfl _ _
    obtain ⟨hm₁, -, hkept⟩ := h₁.2 rfl
    dsimp only
    rw [← hkept]
    refine changeSession_ended hm₁ (fun _ => ⟨rfl, rfl⟩) fun m₂ hm₂ => hm₂.announce fun m₃ hm₃ => ?_
    rw [after_bind_iff, after_spawnWaitForTurn]
    refine (after_pure _ _ _).mpr (hm₃.same ?_)
    split <;> exact ⟨rfl, rfl, rfl, rfl, rfl, rfl⟩
  | decline =>
    refine after_bind (changeTurn_ended h fun _ => rfl) (fun _ m₁ h₁ => ?_) fun e m₁ h₁ => h₁.1 e rfl _ _
    obtain ⟨hm₁, -, hkept⟩ := h₁.2 rfl
    dsimp only
    rw [← hkept]
    exact changeSession_ended hm₁ (fun _ => ⟨rfl, rfl⟩) fun m₂ hm₂ => hm₂.announce fun m₃ hm₃ =>
      (after_pure _ _ _).mpr hm₃

theorem changesKept_congr {m' : Manager} (hs : m'.sessions = m.sessions) (ht : m'.turns = m.turns)
    (hn : ∀ n, m'.fails n = m.fails (n + 2)) (key sid : String) (f : TurnRecord → TurnRecord)
    (g : SessionRecord → SessionRecord) : m'.changesKept 0 key f sid g = m.changesKept 2 key f sid g := by
  unfold Manager.changesKept
  rw [ht, hn 0]
  cases m.turns.lookup key with
  | none => exact sessionKept_congr hs (hn 0)
  | some turn =>
    dsimp only
    rw [sessionKept_congr hs (hn 1)]

theorem respondApproval_ended (h : Settled m) (sid approvalId : String) (input : ApprovalResponseInput)
    (provider : ProviderApprovalResponseRequest → Except RuntimeError Unit) :
    After (respondApproval sid approvalId input provider) m fun _ m' =>
      Ended (m.respondKept sid approvalId input provider = true) m' := by
  rw [respondApproval]
  unfold Manager.respondKept
  rw [respondCall_eq]
  refine after_bind (respondApprovalBegin_kind sid) (fun kind m₁ h₁ => ?_) fun e m₁ h₁ => ?_
  · obtain ⟨rfl, hkind⟩ := h₁
    rw [← hkind, toOption_ok, Option.bind_some]
    refine after_bind (respondApprovalCheck_call kind sid approvalId input) (fun c m₂ h₂ => ?_) fun e m₂ h₂ => ?_
    · obtain ⟨rfl, hcall⟩ := h₂
      rw [← hcall]
      have hc : m₂.approvals.lookup approvalId = some c.existing ∧ c.sessionId = sid := by
        cases hl : m₂.approvals.lookup approvalId with
        | none => rw [hl] at hcall; cases hcall
        | some existing =>
          rw [hl, Option.bind_some] at hcall
          obtain ⟨decision, -, hcall⟩ := Option.bind_eq_some_iff.mp hcall.symm
          split at hcall
          · cases hcall
          · obtain rfl := Option.some.inj hcall
            exact ⟨rfl, rfl⟩
      rw [toOption_ok, Option.all_some]
      refine after_bind (respondApprovalResolve_settled h hc.1 _) (fun resolved m₃ h₃ => ?_) fun e m₃ h₃ => ?_
      · obtain ⟨hm₃, -, hok⟩ := h₃
        obtain ⟨hanswer, hfirst, hsecond, hturn, hs, ht, hclock, hn⟩ := hok resolved rfl
        refine (respondApprovalApply_ended hm₃ c resolved).mono fun _ _ he => he.congr ?_
        rw [hanswer, hfirst, hsecond, hturn, hclock, hc.2]
        cases c.decision <;> simp [changesKept_congr hs ht hn]
      · refine h₃.1.ended.congr (iff_of_true trivial ?_)
        rw [h₃.2.1 e rfl, Bool.true_or]
    · obtain ⟨rfl, hcall⟩ := h₂
      rw [← hcall]
      exact h.ended.congr (by simp [Except.toOption])
  · obtain ⟨rfl, hkind⟩ := h₁
    rw [← hkind]
    exact h.ended.congr (by simp [Except.toOption])

/-! ## Results and failures of a wait -/

theorem applyTerminalResult_ended (h : Settled m) (result : ProviderTurnResult) :
    After (applyTerminalResult result) m fun _ m' => Ended (m.resultKept result = true) m' := by
  simp only [applyTerminalResult, after_bind_iff, after_nowMs, after_get, after_orThrow]
  refine ⟨fun turn hl => ?_, fun hl => h.ended.congr (by simp [Manager.resultKept, hl])⟩
  by_cases howner : turn.sessionId = result.runtimeSessionId
  · simp only [howner, ne_eq, not_true_eq_false, if_false]
    cases hterminal : isTerminalTurnStatus turn.status with
    | true =>
      simp only [if_true]
      by_cases hsame : turn.status = result.status.toTurnStatus
      · rw [if_pos hsame]
        have hkept : m.resultKept result = true := by simp [Manager.resultKept, hl, hterminal, hsame.symm]
        exact (after_pure _ _ _).mpr (h.ended.congr (iff_of_true trivial hkept))
      · rw [if_neg hsame]
        have hkept : m.resultKept result = m.sessionKept 0 result.runtimeSessionId
            (conflictedSession (Manager.conflictText result turn) m.clock) := by
          simp [Manager.resultKept, hl, howner, hterminal, hsame]
        rw [hkept]
        exact changeSession_ended h (fun _ => ⟨rfl, rfl⟩) fun m₁ hm₁ => (after_throw _ _ _).mpr hm₁
    | false =>
      have hkept : m.resultKept result = if m.fails 0 then decide (finishedTurn result m.clock turn = turn)
          else m.sessionKept 1 result.runtimeSessionId (finishedSession result turn m.clock) := by
        simp [Manager.resultKept, Manager.changesKept, hl, howner, hterminal]
      rw [hkept]
      simp only [Bool.false_eq_true, if_false, after_bind_iff, after_insertTurn]
      refine after_turnBehind h hl rfl (fun hfail m₁ he => he.congr (by simp [hfail])) fun hok m₁ hm₁ hs _ hn => ?_
      rw [hok, if_neg Bool.false_ne_true, Manager.sessionKept, ← hs, ← hn 0]
      simp only [after_getSession]
      refine ⟨fun session hsession => ?_, fun hnone => hm₁.ended.congr (by simp [hnone])⟩
      rw [hsession, Option.all_some]
      simp only [after_insertSession]
      refine after_sessionBehind hm₁ hsession rfl rfl (fun hfail m₂ he => he.congr (by simp [hfail])) fun hok' m₂ hm₂ => ?_
      refine after_announce fun r m₃ hsame _ _ _ _ => ?_
      have hend : Settled m₃ := hm₂.same hsame
      cases r with
      | error e => exact hend.ended.congr (by simp [hok'])
      | ok _ => exact (after_pure _ _ _).mpr (hend.ended.congr (by simp [hok']))
  · simp only [howner, ne_eq, not_false_eq_true, if_true, after_bind_iff, after_throw]
    exact h.ended.congr (by simp [Manager.resultKept, hl, howner])

theorem applyTerminalFailure_ended (h : Settled m) (sid turnId : String) (error : RuntimeError) :
    After (applyTerminalFailure sid turnId error) m fun _ m' =>
      Ended (m.failureKept sid turnId error = true) m' := by
  have hsession : ∀ m₁ : Manager, Settled m₁ → m₁.clock = m.clock → After (applyTerminalFailureSession sid turnId error) m₁
      fun _ m' => Ended (m₁.sessionKept 0 sid (failedSession turnId error m.clock) = true) m' := by
    intro m₁ hm₁ hclock
    rw [applyTerminalFailureSession, after_bind_iff, after_nowMs, hclock]
    exact changeSession_ended hm₁ (fun _ => ⟨rfl, rfl⟩) fun m₂ hm₂ => hm₂.announce fun m₃ hm₃ => (after_pure _ _ _).mpr hm₃
  have hchange : After (do
      changeTurn turnId (waitFailedTurn error m.clock)
      applyTerminalFailureSession sid turnId error) m fun _ m' => Ended (m.changesKept 0 turnId
        (waitFailedTurn error m.clock) sid (failedSession turnId error m.clock) = true) m' := by
    refine after_bind (changeTurn_ended h fun _ => rfl) (fun _ m₁ h₁ => ?_) fun e m₁ h₁ => h₁.1 e rfl _ _
    obtain ⟨hm₁, hclock, hkept⟩ := h₁.2 rfl
    rw [← hkept]
    exact hsession m₁ hm₁ hclock
  rw [applyTerminalFailure, after_bind_iff, applyTerminalFailureTurn, after_bind_iff, after_nowMs]
  dsimp only
  rw [after_bind_iff, after_get]
  dsimp only
  unfold Manager.failureKept
  cases hl : m.turns.lookup turnId with
  | none =>
    have hkept : m.changesKept 0 turnId (waitFailedTurn error m.clock) sid (failedSession turnId error m.clock) =
        m.sessionKept 0 sid (failedSession turnId error m.clock) := by rw [Manager.changesKept, hl]
    rw [Option.any_none, if_neg Bool.false_ne_true, hkept]
    exact (after_pure _ _ _).mpr (hsession m h rfl)
  | some turn =>
    rw [Option.any_some]
    cases hterminal : isTerminalTurnStatus turn.status with
    | true =>
      simp only [hterminal, if_true, after_pure]
      exact (hsession m h rfl)
    | false =>
      simp only [hterminal, Bool.false_eq_true, if_false]
      exact (after_bind_iff _ _ _ _).mp hchange

end

/-! ## The operations -/

theorem perform_ended {m m' : Manager} (h : Settled m) (op : Performed) (hs : Manager.perform op m = some m') :
    Ended (kept op m = true) m' := by
  cases op with
  | setSessionWorktreeId sid worktreeId =>
    obtain rfl := Option.some.inj hs
    exact (setSessionWorktreeId_ended h sid worktreeId).out
  | request req =>
    have hsettled : Settled m' → kept (.request req) m = true → Ended (kept (.request req) m = true) m' :=
      fun hm' hk => hm'.ended.congr (iff_of_true trivial hk)
    cases req with
    | createSession input provider =>
      obtain rfl := Option.some.inj hs
      exact (createSession_ended h input provider).out
    | closeSession sid reason provider =>
      obtain rfl := Option.some.inj hs
      exact hsettled (closeSession_settled h sid reason provider).out rfl
    | forceCloseSession sid reason =>
      obtain rfl := Option.some.inj hs
      exact hsettled (finalizeSessionClose_settled h sid _).out rfl
    | resumeSession sid input provider =>
      obtain rfl := Option.some.inj hs
      exact hsettled (resumeSession_settled h sid input provider).out rfl
    | sendTurn sid input provider =>
      obtain rfl := Option.some.inj hs
      exact (sendTurn_ended h sid input provider).out
    | interruptTurn sid turnId provider =>
      obtain rfl := Option.some.inj hs
      exact hsettled (interruptTurn_settled h sid turnId provider).out rfl
    | respondApproval sid approvalId input provider =>
      obtain rfl := Option.some.inj hs
      exact (respondApproval_ended h sid approvalId input provider).out
    | result w result =>
      simp only [Manager.perform, Manager.serve, Option.ite_none_right_eq_some, Option.some.injEq] at hs
      obtain ⟨-, rfl⟩ := hs
      have hdropped : Settled (m.dropWait w) := h.same ⟨rfl, rfl, rfl, rfl, rfl, rfl⟩
      exact (applyTerminalResult_ended hdropped result).out
    | waitFailure w error =>
      simp only [Manager.perform, Manager.serve, Option.bind_eq_bind, Option.bind_eq_some_iff, Option.some.injEq] at hs
      obtain ⟨task, htask, rfl⟩ := hs
      have hdropped : Settled (m.dropWait w) := h.same ⟨rfl, rfl, rfl, rfl, rfl, rfl⟩
      refine ((applyTerminalFailure_ended hdropped task.sessionId task.turnId error).out).congr ?_
      rw [kept, htask]
      rfl
    | tick now =>
      obtain rfl := Option.some.inj hs
      exact hsettled (h.same ⟨rfl, rfl, rfl, rfl, rfl, rfl⟩) rfl

/-- From a state in which memory and store agree, they agree after an operation exactly when it is kept. -/
theorem agrees_iff_kept (m m' : Manager) (op : Performed) (hkeys : PrimaryKeys m.store) (h : Agrees m)
    (hs : Manager.perform op m = some m') : Agrees m' ↔ kept op m = true := by
  have hended := perform_ended ⟨hkeys, (agrees_iff hkeys).mp h⟩ op hs
  exact (agrees_iff hended.keys).trans hended.mirrored

/-- A session is stored; its event is not. -/
theorem agrees_created : Agrees ((Manager.empty [.codex] [false, true]).complete
    (createSession ⟨.codex, none, none, none, none⟩ fun r => .ok ⟨r.runtimeSessionId, "ref", none⟩)) :=
  (agrees_iff_kept (Manager.empty [.codex] [false, true]) _
    (.request (.createSession ⟨.codex, none, none, none, none⟩ fun r => .ok ⟨r.runtimeSessionId, "ref", none⟩))
    ⟨List.nodup_nil, List.nodup_nil, List.nodup_nil⟩ ⟨fun _ => rfl, fun _ => rfl, fun _ => rfl⟩ rfl).mpr
    (by decide +kernel)

def failingOnce : Manager :=
  Manager.new { Store.empty [true] with
    sessions := [(⟨⟨.codex, none, none, none, none⟩, "s", 0⟩ : CreateCall).record ⟨"s", "ref", none⟩] } [.codex] 0

theorem not_agrees : ¬ ∀ (m m' : Manager) (op : Performed), PrimaryKeys m.store → Agrees m →
    Manager.perform op m = some m' → Agrees m' := by
  intro hall
  have hkeys : PrimaryKeys failingOnce.store := ⟨List.nodup_singleton _, List.nodup_nil, List.nodup_nil⟩
  have hagrees := hall failingOnce _ (.setSessionWorktreeId "s" (some "w")) hkeys
    ⟨fun _ => rfl, fun _ => rfl, fun _ => rfl⟩ rfl
  exact absurd (congrArg (Option.map SessionRecord.worktreeId) (hagrees.sessions "s")) (by decide +kernel)

end Gooselake.Runtime
