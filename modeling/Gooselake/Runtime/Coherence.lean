import Gooselake.Runtime.ActiveTurns
import Gooselake.Runtime.Identifiers

/-!
Sessions, turns and approvals after completed operations, one at a time: the active turn of a session
is its one unfinished turn, with the session's status, and a pending approval waits for a waiting
turn. Operations that touch one side only keep this when the session has no active turn.
-/

namespace Gooselake.Runtime

open Gooselake.Core Data Library Library.Exec

set_option autoImplicit false

/-- An operation with the answers of its provider, or the end of the `w`-th wait. -/
inductive Request where
  | createSession (input : CreateSessionInput)
      (provider : ProviderCreateSessionRequest → Except RuntimeError ProviderSession)
  | closeSession (sessionId : String) (reason : Option String)
      (provider : ProviderCloseSessionRequest → Except RuntimeError Unit)
  | forceCloseSession (sessionId : String) (reason : Option String)
  | resumeSession (sessionId : String) (input : ResumeSessionInput)
      (provider : ProviderResumeSessionRequest → Except RuntimeError ProviderSession)
  | sendTurn (sessionId : String) (input : SendTurnInput) (provider : SendAnswers)
  | interruptTurn (sessionId turnId : String)
      (provider : ProviderInterruptTurnRequest → Except RuntimeError Unit)
  | respondApproval (sessionId approvalId : String) (input : ApprovalResponseInput)
      (provider : ProviderApprovalResponseRequest → Except RuntimeError Unit)
  | result (w : ℕ) (result : ProviderTurnResult)
  | waitFailure (w : ℕ) (error : RuntimeError)
  | tick (now : ℤ)

namespace Manager

def complete {α : Type} (x : RuntimeM α) (m : Manager) : Manager := (x.result m).2

def dropWait (m : Manager) (w : ℕ) : Manager := { m with waits := m.waits.eraseIdx w }

def serve : Request → Manager → Option Manager
  | .createSession input provider, m => some (m.complete (Runtime.createSession input provider))
  | .closeSession sessionId reason provider, m =>
    some (m.complete (Runtime.closeSession sessionId reason provider))
  | .forceCloseSession sessionId reason, m => some (m.complete (Runtime.forceCloseSession sessionId reason))
  | .resumeSession sessionId input provider, m =>
    some (m.complete (Runtime.resumeSession sessionId input provider))
  | .sendTurn sessionId input provider, m => some (m.complete (Runtime.sendTurn sessionId input provider))
  | .interruptTurn sessionId turnId provider, m =>
    some (m.complete (Runtime.interruptTurn sessionId turnId provider))
  | .respondApproval sessionId approvalId input provider, m =>
    some (m.complete (Runtime.respondApproval sessionId approvalId input provider))
  | .result w result, m =>
    if w < m.waits.length then some ((m.dropWait w).complete (applyTerminalResult result)) else none
  | .waitFailure w error, m => do
    let task ← m.waits[w]?
    some ((m.dropWait w).complete (applyTerminalFailure task.sessionId task.turnId error))
  | .tick now, m => some { m with clock := now }

end Manager

/-! ## Coherence -/

def Agree (session : SessionRecord) (turn : TurnRecord) : Prop :=
  (turn.status = .inProgress ∧ session.status = .turnRunning) ∨
    (turn.status = .waitingForApproval ∧ session.status = .waitingForApproval)

/-- Sessions, turns and approvals name one another, and their statuses agree. -/
structure Coherent (m : Manager) : Prop where
  active : ∀ sid session t, m.sessions.lookup sid = some session → session.activeTurnId = some t →
    ∃ turn, m.turns.lookup t = some turn ∧ turn.sessionId = sid ∧ Agree session turn
  unfinished : ∀ t turn, m.turns.lookup t = some turn → isTerminalTurnStatus turn.status = false →
    Names m turn.sessionId t
  pending : ∀ a approval, m.approvals.lookup a = some approval → approval.status = .pending →
    ∃ turn, m.turns.lookup approval.turnId = some turn ∧ turn.status = .waitingForApproval

/-- Turn `t` is a stored turn of the session. -/
def Owned (m : Manager) (sid t : String) : Prop := ∃ turn, m.turns.lookup t = some turn ∧ turn.sessionId = sid

/-- What coherence rests on: ids are issued once, waits and approvals are for stored turns of their
session, a turn has at most one pending approval, and no store write fails. -/
structure Books (m : Manager) : Prop where
  issued : ∀ id, Stored m id → Issued m.nextId id
  waits : ∀ task ∈ m.waits, Owned m task.sessionId task.turnId
  approvals : ∀ a r, m.approvals.lookup a = some r → Owned m r.sessionId r.turnId
  pendingOnce : ∀ a a' r r', m.approvals.lookup a = some r → m.approvals.lookup a' = some r' →
    r.status = .pending → r'.status = .pending → r.turnId = r'.turnId → a = a'
  faults : m.store.faults = []

structure Sound (m : Manager) : Prop where
  coherent : Coherent m
  books : Books m

/-! ## The operations that keep it -/

def Manager.idle (m : Manager) (sid : String) : Bool :=
  (m.sessions.lookup sid).all fun session => session.activeTurnId = none

def Manager.noPending (m : Manager) (t : String) : Bool :=
  m.approvals.values.all fun a => a.turnId ≠ t || a.status ≠ .pending

/-- A result for an unfinished turn ends it, and no approval of it is pending; a result that
contradicts a finished turn finds its session idle. -/
def Manager.calmResult (m : Manager) (result : ProviderTurnResult) : Bool :=
  (m.turns.lookup result.turnId).all fun turn =>
    turn.sessionId ≠ result.runtimeSessionId ||
      if isTerminalTurnStatus turn.status then
        turn.status = result.status.toTurnStatus || m.idle turn.sessionId
      else result.status ≠ .inProgress && m.noPending result.turnId

def Manager.calmFailure (m : Manager) (task : WaitTask) : Bool :=
  match m.turns.lookup task.turnId with
  | some turn => if isTerminalTurnStatus turn.status then m.idle task.sessionId else m.noPending task.turnId
  | none => m.idle task.sessionId

/-- A session that is closed or resumed is idle, and the end of a turn leaves no approval pending. -/
def calm : Request → Manager → Bool
  | .closeSession sid reason provider, m => m.idle sid || !(provider ⟨sid, reason⟩).isOk
  | .forceCloseSession sid _, m => m.idle sid
  | .resumeSession sid input provider, m => m.idle sid ||
      (m.sessions.lookup sid).all fun session =>
        (input.providerSessionRef.or session.providerSessionRef).all fun ref =>
          !(provider ⟨sid, ref, input.canonicalProviderSessionRef.or session.canonicalProviderSessionRef,
            session.cwd, some session.metadata⟩).isOk
  | .result _ result, m => m.calmResult result
  | .waitFailure w _, m => (m.waits[w]?).all m.calmFailure
  | _, _ => true

theorem idle_iff {m : Manager} {sid : String} :
    m.idle sid = true ↔ ∀ session, m.sessions.lookup sid = some session → session.activeTurnId = none := by
  simp [Manager.idle, Option.all_eq_true]

theorem idle_congr {m m' : Manager} (h : m'.sessions = m.sessions) (sid : String) : m'.idle sid = m.idle sid := by
  rw [Manager.idle, h, Manager.idle]

theorem noPending_iff {m : Manager} {t : String} :
    m.noPending t = true ↔ ∀ a r, m.approvals.lookup a = some r → r.status = .pending → r.turnId ≠ t := by
  simp only [Manager.noPending, List.all_eq_true, Table.mem_values, Bool.or_eq_true, decide_eq_true_eq, ne_eq]
  constructor
  · intro h a r hr hp ht
    exact (h r ⟨a, hr⟩).elim (fun hne => hne ht) fun hne => hne hp
  · rintro h r ⟨a, hr⟩
    by_cases hp : r.status = .pending
    · exact .inl (h a r hr hp)
    · exact .inr hp

/-! ## Changes that keep it -/

section

variable {m m' : Manager} {sid t : String}

theorem owned_congr (h : m'.turns = m.turns) : Owned m' sid t ↔ Owned m sid t := by
  rw [Owned, Owned, h]

theorem owned_insert {key : String} {turn : TurnRecord} (h : m'.turns = m.turns.insert key turn)
    (hkey : ∀ old, m.turns.lookup key = some old → old.sessionId = turn.sessionId) (ho : Owned m sid t) :
    Owned m' sid t := by
  obtain ⟨old, hl, rfl⟩ := ho
  by_cases he : t = key
  · exact ⟨turn, by rw [h, Table.lookup_insert, if_pos he], (hkey old (he ▸ hl)).symm⟩
  · exact ⟨old, by rw [h, Table.lookup_insert, if_neg he]; exact hl, rfl⟩

/-- A change of one session and one of its turns, the only one it may have named. -/
structure Focus (m m' : Manager) (sid t : String) : Prop where
  sessions : ∀ k, k ≠ sid → m'.sessions.lookup k = m.sessions.lookup k
  turns : ∀ k, k ≠ t → m'.turns.lookup k = m.turns.lookup k
  old : ∀ turn, m.turns.lookup t = some turn → turn.sessionId = sid
  new : ∀ turn, m'.turns.lookup t = some turn → turn.sessionId = sid
  was : ∀ session t', m.sessions.lookup sid = some session → session.activeTurnId = some t' → t' = t

theorem Coherent.focus (h : Coherent m) (hf : Focus m m' sid t)
    (hactive : ∀ session t', m'.sessions.lookup sid = some session → session.activeTurnId = some t' →
      t' = t ∧ ∃ turn, m'.turns.lookup t = some turn ∧ Agree session turn)
    (hunfinished : ∀ turn, m'.turns.lookup t = some turn → isTerminalTurnStatus turn.status = false → Names m' sid t)
    (hpending : ∀ a r, m'.approvals.lookup a = some r → r.status = .pending →
      (r.turnId ≠ t ∧ m.approvals.lookup a = some r) ∨
        (r.turnId = t ∧ ∃ turn, m'.turns.lookup t = some turn ∧ turn.status = .waitingForApproval)) :
    Coherent m' := by
  constructor
  · intro k session t' hs ha
    by_cases hk : k = sid
    · subst hk
      obtain ⟨rfl, turn, hturn, hagree⟩ := hactive session t' hs ha
      exact ⟨turn, hturn, hf.new turn hturn, hagree⟩
    · rw [hf.sessions k hk] at hs
      obtain ⟨turn, hturn, ho, hagree⟩ := h.active k session t' hs ha
      have hne : t' ≠ t := by
        rintro rfl
        exact hk (ho.symm.trans (hf.old turn hturn))
      exact ⟨turn, by rw [hf.turns t' hne]; exact hturn, ho, hagree⟩
  · intro t' turn hturn hopen
    by_cases ht : t' = t
    · subst ht
      rw [hf.new turn hturn]
      exact hunfinished turn hturn hopen
    · rw [hf.turns t' ht] at hturn
      obtain ⟨session, hs, ha⟩ := h.unfinished t' turn hturn hopen
      have hne : turn.sessionId ≠ sid := by
        intro he
        exact ht (hf.was session t' (he ▸ hs) ha)
      exact ⟨session, by rw [hf.sessions _ hne]; exact hs, ha⟩
  · intro a r hr hp
    rcases hpending a r hr hp with ⟨hne, hr⟩ | ⟨rfl, hturn⟩
    · obtain ⟨turn, hturn, hw⟩ := h.pending a r hr hp
      exact ⟨turn, by rw [hf.turns _ hne]; exact hturn, hw⟩
    · exact hturn

theorem Coherent.idle (h : Coherent m) (hs : ∀ k, k ≠ sid → m'.sessions.lookup k = m.sessions.lookup k)
    (hturns : m'.turns = m.turns) (happrovals : m'.approvals = m.approvals) (hwas : m.idle sid = true)
    (hnow : m'.idle sid = true) : Coherent m' := by
  constructor
  · intro k session t' hl ha
    have hne : k ≠ sid := by
      rintro rfl
      rw [idle_iff.mp hnow session hl] at ha
      cases ha
    rw [hs k hne] at hl
    rw [hturns]
    exact h.active k session t' hl ha
  · intro t' turn hturn hopen
    rw [hturns] at hturn
    obtain ⟨session, hl, ha⟩ := h.unfinished t' turn hturn hopen
    have hne : turn.sessionId ≠ sid := by
      intro he
      rw [idle_iff.mp hwas session (he ▸ hl)] at ha
      cases ha
    exact ⟨session, by rw [hs _ hne]; exact hl, ha⟩
  · intro a r hr hp
    rw [happrovals] at hr
    rw [hturns]
    exact h.pending a r hr hp

theorem Books.keep (h : Books m) (fresh : String)
    (hstored : ∀ id, Stored m' id → Stored m id ∨ Issued m'.nextId id) (hnext : m.nextId ≤ m'.nextId)
    (howned : ∀ sid t, Owned m sid t → Owned m' sid t)
    (hwaits : ∀ task ∈ m'.waits, task ∈ m.waits ∨ Owned m' task.sessionId task.turnId)
    (happrovals : ∀ a r, m'.approvals.lookup a = some r →
      (∃ r₀, m.approvals.lookup a = some r₀ ∧ r₀.sessionId = r.sessionId ∧ r₀.turnId = r.turnId ∧
        (r.status = .pending → r₀.status = .pending)) ∨
      (a = fresh ∧ Owned m' r.sessionId r.turnId ∧
        ∀ a' r', m.approvals.lookup a' = some r' → r'.turnId ≠ r.turnId))
    (hfaults : m'.store.faults = []) : Books m' := by
  constructor
  · intro id hid
    exact (hstored id hid).elim (fun hs => (h.issued id hs).mono hnext) fun hi => hi
  · intro task ht
    exact (hwaits task ht).elim (fun hw => howned _ _ (h.waits task hw)) id
  · intro a r hr
    rcases happrovals a r hr with ⟨r₀, hr₀, hs, ht, -⟩ | ⟨-, ho, -⟩
    · exact hs ▸ ht ▸ howned _ _ (h.approvals a r₀ hr₀)
    · exact ho
  · intro a a' r r' hr hr' hp hp' ht
    rcases happrovals a r hr with ⟨r₀, hr₀, -, ht₀, hp₀⟩ | ⟨rfl, -, hnone⟩ <;>
      rcases happrovals a' r' hr' with ⟨r₀', hr₀', -, ht₀', hp₀'⟩ | ⟨rfl, -, hnone'⟩
    · exact h.pendingOnce a a' r₀ r₀' hr₀ hr₀' (hp₀ hp) (hp₀' hp') (by rw [ht₀, ht, ht₀'])
    · exact absurd (ht₀.trans ht) (hnone' a r₀ hr₀)
    · exact absurd (ht₀'.trans ht.symm) (hnone a' r₀' hr₀')
    · rfl
  · exact hfaults

theorem Books.same (h : Books m) (hstored : ∀ id, Stored m' id → Stored m id ∨ Issued m'.nextId id)
    (hnext : m.nextId ≤ m'.nextId) (howned : ∀ sid t, Owned m sid t → Owned m' sid t)
    (hwaits : ∀ task ∈ m'.waits, task ∈ m.waits ∨ Owned m' task.sessionId task.turnId)
    (happrovals : m'.approvals = m.approvals) (hfaults : m'.store.faults = []) : Books m' :=
  h.keep "" hstored hnext howned hwaits
    (fun _ r hr => .inl ⟨r, happrovals ▸ hr, rfl, rfl, id⟩) hfaults

theorem Sound.quiet (h : Sound m) (hq : Quiet m m') : Sound m' := by
  refine ⟨⟨fun k session t' hs ha => ?_, fun t' turn hturn hopen => ?_, fun a r hr hp => ?_⟩, ?_⟩
  · rw [hq.sessions] at hs
    rw [hq.turns]
    exact h.coherent.active k session t' hs ha
  · rw [hq.turns] at hturn
    exact (names_congr hq.sessions).mpr (h.coherent.unfinished t' turn hturn hopen)
  · rw [hq.approvals] at hr
    rw [hq.turns]
    exact h.coherent.pending a r hr hp
  · exact h.books.same (fun id hid => .inl ((hq.stored_iff id).mp hid)) hq.nextId
      (fun _ _ ho => (owned_congr hq.turns).mpr ho) (fun task ht => .inl (hq.waits ▸ ht)) hq.approvals
      (hq.faults h.books.faults)

/-! ## What the operations change -/

theorem Sound.idle {ss : Table String SessionRecord} (h : Sound m)
    (sets : Sets m m' ss m.turns m.approvals m.waits) (hs : ∀ k, k ≠ sid → ss.lookup k = m.sessions.lookup k)
    (hids : ∀ id, (ss.lookup id).isSome → Stored m id ∨ Issued m.nextId id) (hwas : m.idle sid = true)
    (hnow : ∀ session, ss.lookup sid = some session → session.activeTurnId = none) : Sound m' := by
  constructor
  · refine h.coherent.idle (fun k hk => by rw [sets.sessions, hs k hk]) sets.turns sets.approvals hwas ?_
    rw [idle_iff, sets.sessions]
    exact hnow
  · refine h.books.same (fun id hid => ?_) sets.nextId (fun _ _ ho => (owned_congr sets.turns).mpr ho)
      (fun task ht => .inl (sets.waits ▸ ht)) sets.approvals (sets.faults h.books.faults)
    rcases (sets.stored_iff id).mp hid with hid | hid
    · exact (hids id hid).imp_right fun hi => hi.mono sets.nextId
    · exact .inl (.inr hid)

theorem Sound.sessionInsert {record : SessionRecord} (h : Sound m)
    (sets : Sets m m' (m.sessions.insert sid record) m.turns m.approvals m.waits)
    (hid : Stored m sid ∨ Issued m.nextId sid) (hwas : m.idle sid = true) (hnow : record.activeTurnId = none) :
    Sound m' := by
  refine h.idle sets (fun k hk => by rw [Table.lookup_insert, if_neg hk]) (fun id hs => ?_) hwas fun r hr => ?_
  · rcases (Table.isSome_insert _ _ _ _).mp hs with rfl | hs
    · exact hid
    · exact .inl (.inl hs)
  · rw [Table.lookup_insert, if_pos rfl] at hr
    obtain rfl := Option.some.inj hr
    exact hnow

theorem Sound.sessionUpdate {f : SessionRecord → SessionRecord} (h : Sound m)
    (sets : Sets m m' (m.sessions.update sid f) m.turns m.approvals m.waits) (hwas : m.idle sid = true)
    (hnow : ∀ session, session.activeTurnId = none → (f session).activeTurnId = none) : Sound m' := by
  refine h.idle sets (fun k hk => by rw [Table.lookup_update, if_neg hk])
    (fun id hs => .inl (.inl ((Table.isSome_update _ _ _ _).mp hs))) hwas fun r hr => ?_
  rw [Table.lookup_update, if_pos rfl] at hr
  obtain ⟨session, hs, rfl⟩ := Option.map_eq_some_iff.mp hr
  exact hnow session (idle_iff.mp hwas session hs)

theorem Sound.sent {session : SessionRecord} {turn : TurnRecord} {waits : List WaitTask} (h : Sound m)
    (hsession : (m.sessions.lookup sid).isSome) (hwas : m.idle sid = true) (hfresh : ¬ Stored m t)
    (hissued : Issued m.nextId t) (howner : turn.sessionId = sid)
    (sets : Sets m m' (m.sessions.insert sid session) (m.turns.insert t turn) m.approvals waits)
    (hactive : ∀ t', session.activeTurnId = some t' → t' = t ∧ Agree session turn)
    (hopen : isTerminalTurnStatus turn.status = false → session.activeTurnId = some t)
    (hwaits : ∀ task ∈ waits, task ∈ m.waits ∨ (task.sessionId = sid ∧ task.turnId = t)) : Sound m' := by
  have hnone : ∀ old, m.turns.lookup t ≠ some old := fun old hold => hfresh (stored_turn hold)
  have hturn : m'.turns.lookup t = some turn := by rw [sets.turns, Table.lookup_insert, if_pos rfl]
  have hses : m'.sessions.lookup sid = some session := by rw [sets.sessions, Table.lookup_insert, if_pos rfl]
  have howned : ∀ sid' t', Owned m sid' t' → Owned m' sid' t' :=
    fun _ _ => owned_insert sets.turns fun old hold => absurd hold (hnone old)
  constructor
  · refine h.coherent.focus (show Focus m m' sid t from ⟨fun k hk => ?_, fun k hk => ?_, fun old hold => ?_,
      fun new hnew => ?_, fun r t' hr ha => ?_⟩) (fun r t' hr ha => ?_) (fun new hnew ho => ?_) fun a r hr hp => ?_
    · rw [sets.sessions, Table.lookup_insert, if_neg hk]
    · rw [sets.turns, Table.lookup_insert, if_neg hk]
    · exact absurd hold (hnone old)
    · obtain rfl := Option.some.inj (hturn.symm.trans hnew)
      exact howner
    · rw [idle_iff.mp hwas r hr] at ha
      cases ha
    · obtain rfl := Option.some.inj (hses.symm.trans hr)
      obtain ⟨he, hagree⟩ := hactive t' ha
      exact ⟨he, turn, hturn, hagree⟩
    · obtain rfl := Option.some.inj (hturn.symm.trans hnew)
      exact ⟨session, hses, hopen ho⟩
    · rw [sets.approvals] at hr
      refine .inl ⟨?_, hr⟩
      rintro rfl
      obtain ⟨old, hold, -⟩ := h.books.approvals a r hr
      exact hnone old hold
  · refine h.books.same (fun id hid => ?_) sets.nextId howned (fun task ht => ?_) sets.approvals
      (sets.faults h.books.faults)
    · rcases (sets.stored_iff id).mp hid with hid | hid
      · rcases (Table.isSome_insert _ _ _ _).mp hid with rfl | hid
        · exact .inl (.inl hsession)
        · exact .inl (.inl hid)
      · rcases (Table.isSome_insert _ _ _ _).mp hid with rfl | hid
        · exact .inr (hissued.mono sets.nextId)
        · exact .inl (.inr hid)
    · rw [sets.waits] at ht
      refine (hwaits task ht).imp_right fun hw => ?_
      obtain ⟨hw, ht⟩ := hw
      exact hw ▸ ht ▸ ⟨turn, hturn, howner⟩

theorem Sound.asked {approval : ApprovalRecord} {turn : TurnRecord} (h : Sound m)
    (sets : Sets m m' m.sessions m.turns (m.approvals.insert approval.id approval) m.waits)
    (hturn : m.turns.lookup approval.turnId = some turn) (howner : turn.sessionId = approval.sessionId)
    (hwaiting : turn.status = .waitingForApproval)
    (hnone : ∀ a r, m.approvals.lookup a = some r → r.turnId ≠ approval.turnId) : Sound m' := by
  have hcases : ∀ a r, m'.approvals.lookup a = some r →
      (a = approval.id ∧ r = approval) ∨ m.approvals.lookup a = some r := by
    intro a r hr
    rw [sets.approvals, Table.lookup_insert] at hr
    split at hr
    · next he => exact .inl ⟨he, (Option.some.inj hr).symm⟩
    · exact .inr hr
  refine ⟨⟨fun k session t' hs ha => ?_, fun t' turn hturn hopen => ?_, fun a r hr hp => ?_⟩, ?_⟩
  · rw [sets.sessions] at hs
    rw [sets.turns]
    exact h.coherent.active k session t' hs ha
  · rw [sets.turns] at hturn
    exact (names_congr sets.sessions).mpr (h.coherent.unfinished t' turn hturn hopen)
  · rw [sets.turns]
    rcases hcases a r hr with ⟨-, rfl⟩ | hr
    · exact ⟨turn, hturn, hwaiting⟩
    · exact h.coherent.pending a r hr hp
  · refine h.books.keep approval.id (fun id hid => .inl ((sets.stored_iff id).mp hid)) sets.nextId
      (fun _ _ ho => (owned_congr sets.turns).mpr ho) (fun task ht => .inl (sets.waits ▸ ht))
      (fun a r hr => ?_) (sets.faults h.books.faults)
    rcases hcases a r hr with ⟨he, rfl⟩ | hr
    · exact .inr ⟨he, (owned_congr sets.turns).mpr ⟨turn, hturn, howner⟩, hnone⟩
    · exact .inl ⟨r, hr, rfl, rfl, id⟩

theorem Sound.resolved {a : String} {old approval : ApprovalRecord} (h : Sound m)
    (sets : Sets m m' m.sessions m.turns (m.approvals.insert a approval) m.waits)
    (hold : m.approvals.lookup a = some old) (hsession : old.sessionId = approval.sessionId)
    (hturn : old.turnId = approval.turnId) (hdone : approval.status ≠ .pending) : Sound m' := by
  have hcases : ∀ a' r, m'.approvals.lookup a' = some r →
      (a' = a ∧ r = approval) ∨ m.approvals.lookup a' = some r := by
    intro a' r hr
    rw [sets.approvals, Table.lookup_insert] at hr
    split at hr
    · next he => exact .inl ⟨he, (Option.some.inj hr).symm⟩
    · exact .inr hr
  refine ⟨⟨fun k session t' hs ha => ?_, fun t' turn hturn hopen => ?_, fun a' r hr hp => ?_⟩, ?_⟩
  · rw [sets.sessions] at hs
    rw [sets.turns]
    exact h.coherent.active k session t' hs ha
  · rw [sets.turns] at hturn
    exact (names_congr sets.sessions).mpr (h.coherent.unfinished t' turn hturn hopen)
  · rw [sets.turns]
    rcases hcases a' r hr with ⟨-, rfl⟩ | hr
    · exact absurd hp hdone
    · exact h.coherent.pending a' r hr hp
  · refine h.books.keep "" (fun id hid => .inl ((sets.stored_iff id).mp hid)) sets.nextId
      (fun _ _ ho => (owned_congr sets.turns).mpr ho) (fun task ht => .inl (sets.waits ▸ ht))
      (fun a' r hr => .inl ?_) (sets.faults h.books.faults)
    rcases hcases a' r hr with ⟨rfl, rfl⟩ | hr
    · exact ⟨old, hold, hsession, hturn, fun hp => absurd hp hdone⟩
    · exact ⟨r, hr, rfl, rfl, id⟩

theorem Sound.changed {turn turn' : TurnRecord} {g : SessionRecord → SessionRecord} {waits : List WaitTask}
    (h : Sound m) (hturn : m.turns.lookup t = some turn) (howner : turn.sessionId = sid)
    (hopen : isTerminalTurnStatus turn.status = false)
    (sets : Sets m m' (m.sessions.update sid g) (m.turns.insert t turn') m.approvals waits)
    (howner' : turn'.sessionId = sid)
    (hactive : ∀ session, session.activeTurnId = some t →
      (isTerminalTurnStatus turn'.status = true ∧ (g session).activeTurnId = none) ∨
        ((g session).activeTurnId = some t ∧ Agree (g session) turn'))
    (hpending : ∀ a r, m.approvals.lookup a = some r → r.status = .pending → r.turnId ≠ t)
    (hwaits : ∀ task ∈ waits, task ∈ m.waits ∨ (task.sessionId = sid ∧ task.turnId = t)) : Sound m' := by
  obtain ⟨session, hsession, hnames⟩ := h.coherent.unfinished t turn hturn hopen
  rw [howner] at hsession
  have hturn' : m'.turns.lookup t = some turn' := by rw [sets.turns, Table.lookup_insert, if_pos rfl]
  have hses : m'.sessions.lookup sid = some (g session) := by
    rw [sets.sessions, Table.lookup_update, if_pos rfl, hsession]
    rfl
  have howned : ∀ sid' t', Owned m sid' t' → Owned m' sid' t' := fun _ _ => owned_insert sets.turns fun old hold => by
    obtain rfl := Option.some.inj (hturn.symm.trans hold)
    rw [howner, howner']
  constructor
  · refine h.coherent.focus (show Focus m m' sid t from ⟨fun k hk => ?_, fun k hk => ?_, fun old hold => ?_,
      fun new hnew => ?_, fun r t' hr ha => ?_⟩) (fun r t' hr ha => ?_) (fun new hnew ho => ?_) fun a r hr hp => ?_
    · rw [sets.sessions, Table.lookup_update, if_neg hk]
    · rw [sets.turns, Table.lookup_insert, if_neg hk]
    · obtain rfl := Option.some.inj (hturn.symm.trans hold)
      exact howner
    · obtain rfl := Option.some.inj (hturn'.symm.trans hnew)
      exact howner'
    · obtain rfl := Option.some.inj (hsession.symm.trans hr)
      exact Option.some.inj (ha.symm.trans hnames)
    · obtain rfl := Option.some.inj (hses.symm.trans hr)
      rcases hactive session hnames with ⟨-, hnone⟩ | ⟨hsame, hagree⟩
      · rw [hnone] at ha
        cases ha
      · exact ⟨Option.some.inj (ha.symm.trans hsame), turn', hturn', hagree⟩
    · obtain rfl := Option.some.inj (hturn'.symm.trans hnew)
      rcases hactive session hnames with ⟨hterm, -⟩ | ⟨hsame, -⟩
      · rw [hterm] at ho
        cases ho
      · exact ⟨g session, hses, hsame⟩
    · rw [sets.approvals] at hr
      exact .inl ⟨hpending a r hr hp, hr⟩
  · refine h.books.same (fun id hid => .inl ?_) sets.nextId howned (fun task ht => ?_) sets.approvals
      (sets.faults h.books.faults)
    · rcases (sets.stored_iff id).mp hid with hid | hid
      · exact .inl ((Table.isSome_update _ _ _ _).mp hid)
      · rcases (Table.isSome_insert _ _ _ _).mp hid with rfl | hid
        · exact stored_turn hturn
        · exact .inr hid
    · rw [sets.waits] at ht
      refine (hwaits task ht).imp_right fun hw => ?_
      obtain ⟨hw, ht⟩ := hw
      exact hw ▸ ht ▸ ⟨turn', hturn', howner'⟩

/-! ## The operations -/

theorem createSession_sound (h : Sound m) (input : CreateSessionInput)
    (provider : ProviderCreateSessionRequest → Except RuntimeError ProviderSession) :
    After (createSession input provider) m fun _ m' => Sound m' := by
  refine after_bind (createSessionBegin_after input) (fun c m₁ h₁ => ?_) fun e m₁ h₁ => h.quiet h₁.1
  obtain ⟨hq₁, hc⟩ := h₁
  obtain ⟨-, ⟨stem, hstem⟩, hnext⟩ := hc c rfl
  refine after_bind (createSessionStore_after c _) (fun record m₂ h₂ => ?_)
    fun e m₂ h₂ => (h.quiet hq₁).quiet h₂.1
  obtain ⟨hq₂, hr⟩ := h₂
  obtain ⟨created, -, -, rfl⟩ := hr record rfl
  have hq : Quiet m m₂ := hq₁.quiet hq₂
  have hid : (c.record created).id = numbered stem m.nextId := hstem
  have hfresh : ¬ Stored m₂ (c.record created).id := by
    rw [hid]
    exact fun hs => not_issued_numbered _ _ (h.books.issued _ ((hq.stored_iff _).mp hs))
  have hissued : Issued m₂.nextId (c.record created).id := by
    have := hq₂.nextId
    exact ⟨stem, m.nextId, by omega, hid⟩
  refine (createSessionInsert_after (c.record created)).mono fun r m₃ h₃ => ?_
  refine (h.quiet hq).sessionInsert h₃.1 (.inr hissued) ?_ rfl
  exact idle_iff.mpr fun session hs => absurd (stored_session hs) hfresh

theorem finalizeSessionClose_sound (h : Sound m) {sid : String} (hidle : m.idle sid = true) (reason : String) :
    After (finalizeSessionClose sid reason) m fun _ m' => Sound m' := by
  refine after_bind (finalizeSessionCloseStore_after sid) (fun updated m₁ h₁ => ?_) fun e m₁ h₁ => h.quiet h₁.1
  obtain ⟨hq, hu⟩ := h₁
  obtain ⟨session, hs, rfl⟩ := hu updated rfl
  refine (finalizeSessionCloseInsert_after sid _ reason).mono fun r m₂ h₂ => ?_
  refine (h.quiet hq).sessionInsert h₂.1 (.inl ((hq.stored_iff sid).mpr (stored_session hs))) ?_ rfl
  rw [idle_congr hq.sessions]
  exact hidle

theorem closeSession_sound (h : Sound m) {sid : String} {reason : Option String}
    {provider : ProviderCloseSessionRequest → Except RuntimeError Unit}
    (hcalm : m.idle sid = true ∨ (provider ⟨sid, reason⟩).isOk = false) :
    After (closeSession sid reason provider) m fun _ m' => Sound m' := by
  refine after_bind (closeSessionBegin_after sid) (fun _ m₁ h₁ => ?_) fun e m₁ h₁ => h₁.1 ▸ h
  obtain ⟨rfl, -⟩ := h₁
  refine after_checked (fun _ hp => ?_) fun _ _ => h
  refine finalizeSessionClose_sound h (hcalm.resolve_right ?_) _
  simp [hp, Except.isOk, Except.toBool]

theorem resumeSession_sound (h : Sound m) {sid : String} {input : ResumeSessionInput}
    {provider : ProviderResumeSessionRequest → Except RuntimeError ProviderSession}
    (hcalm : calm (.resumeSession sid input provider) m = true) :
    After (resumeSession sid input provider) m fun _ m' => Sound m' := by
  refine after_bind (resumeSessionBegin_after sid input) (fun c m₁ h₁ => ?_) fun e m₁ h₁ => h₁.1 ▸ h
  obtain ⟨rfl, hc⟩ := h₁
  obtain ⟨rfl, hs, href, hcanonical⟩ := hc c rfl
  refine after_bind (resumeSessionStore_after c _) (fun record m₂ h₂ => ?_) fun e m₂ h₂ => h.quiet h₂.1
  obtain ⟨hq, hr⟩ := h₂
  obtain ⟨resumed, hok, -, rfl⟩ := hr record rfl
  have hidle : m₁.idle c.sessionId = true := by
    have hok : provider ⟨c.sessionId, c.providerSessionRef, c.canonicalProviderSessionRef, c.session.cwd,
      some c.session.metadata⟩ = .ok resumed := hok
    simpa [calm, hs, href, ← hcanonical, hok, Except.isOk, Except.toBool] using hcalm
  refine (resumeSessionInsert_after c.sessionId _).mono fun r m₃ h₃ => ?_
  refine (h.quiet hq).sessionInsert h₃.1 (.inl ((hq.stored_iff _).mpr (stored_session hs))) ?_
    (idle_iff.mp hidle c.session hs)
  rw [idle_congr hq.sessions]
  exact hidle

theorem interruptTurn_sound (h : Sound m) (sid turnId : String)
    (provider : ProviderInterruptTurnRequest → Except RuntimeError Unit) :
    After (interruptTurn sid turnId provider) m fun _ m' => Sound m' := by
  refine after_bind (interruptTurnBegin_after sid turnId) (fun _ m₁ h₁ => ?_) fun e m₁ h₁ => h₁.1 ▸ h
  obtain rfl := h₁.1
  exact (interruptTurnEnd_after sid turnId _).mono fun _ _ hq => h.quiet hq

theorem SendWrite.agree (w : SendWrite) (h : w.failure = none) : Agree w.session w.turn := by
  obtain ⟨c, _ | f⟩ := w
  · cases ha : c.approvalId.isSome <;>
      simp [Agree, SendWrite.session, SendWrite.turn, SendCall.updatedSession, SendCall.turn, ha]
  · cases h

theorem sendTurn_sound (h : Sound m) (sid : String) (input : SendTurnInput) (provider : SendAnswers) :
    After (sendTurn sid input provider) m fun _ m' => Sound m' := by
  refine after_bind (sendTurnBegin_after sid input) (fun c m₁ h₁ => ?_) fun e m₁ h₁ => h.quiet h₁.1
  obtain ⟨hq₁, hc⟩ := h₁
  obtain ⟨hbegan, -, hnext, -⟩ := hc c rfl
  rw [after_bind_iff, after_get]
  refine after_bind (sendTurnStore_after c _) (fun w m₂ h₂ => ?_) fun e m₂ h₂ => (h.quiet hq₁).quiet h₂.1
  obtain ⟨hq₂, hw, -⟩ := h₂
  obtain rfl := SendCall.settle_call (hw w rfl)
  have hq : Quiet m m₂ := hq₁.quiet hq₂
  have h₂ : Sound m₂ := h.quiet hq
  obtain ⟨stem, hstem⟩ := hbegan.turnId
  have hfresh : ¬ Stored m₂ w.call.turnId := by
    rw [hstem]
    exact fun hs => not_issued_numbered _ _ (h.books.issued _ ((hq.stored_iff _).mp hs))
  have hissued : Issued m₂.nextId w.call.turnId := by
    have := hq₂.nextId
    exact ⟨stem, m.nextId, by omega, hstem⟩
  have hsession : m₂.sessions.lookup w.call.sessionId = some w.call.session := by
    rw [hq.sessions, hbegan.sessionId]
    exact hbegan.session
  have hidle : m₂.idle w.call.sessionId = true := by
    rw [idle_iff]
    intro session hs
    obtain rfl := Option.some.inj (hsession.symm.trans hs)
    exact hbegan.noActive
  rw [after_bind_iff]
  refine (sendTurnInsertTurn_after w).mono fun r m₃ h₃ => ?_
  obtain ⟨rfl, hs₃⟩ := h₃
  dsimp only
  rw [after_bind_iff]
  refine (sendTurnInsertSession_after w).mono fun r m₄ h₄ => ?_
  obtain ⟨waits, hs₄, hinserted, hdone⟩ := h₄
  have hs : Sets m₂ m₄ (m₂.sessions.insert w.call.sessionId w.session)
      (m₂.turns.insert w.call.turnId w.turn) m₂.approvals waits := by
    have hs := hs₃.trans hs₄
    rwa [hs₃.sessions, hs₃.turns, hs₃.approvals] at hs
  have h₄ : Sound m₄ := by
    refine h₂.sent (by rw [hsession]; rfl) hidle hfresh hissued w.turn_sessionId hs (fun t' ha => ?_)
      (fun hopen => SendWrite.session_activeTurnId (w.turn_unfinished.mp hopen)) fun task ht => ?_
    · have hf : w.failure = none := by
        obtain ⟨c, _ | f⟩ := w
        · rfl
        · cases ha
      rw [SendWrite.session_activeTurnId hf] at ha
      exact ⟨(Option.some.inj ha).symm, w.agree hf⟩
    · rcases hinserted.waits with rfl | ⟨-, -, rfl | rfl⟩
      · exact .inl (hs₃.waits ▸ ht)
      · exact .inl (hs₃.waits ▸ ht)
      · rw [hs₃.waits] at ht
        rcases List.mem_append.mp ht with ht | ht
        · exact .inl ht
        · obtain rfl := List.mem_singleton.mp ht
          exact .inr ⟨rfl, rfl⟩
  -- the approval of a turn that waits for one
  rcases r with e | (_ | approval)
  · exact h₄
  · simpa using h₄
  · obtain ⟨hf, approvalId, hid, rfl⟩ := hinserted.approval approval rfl
    have hturn : m₄.turns.lookup w.call.turnId = some w.turn := by
      rw [hs.turns, Table.lookup_insert, if_pos rfl]
    have hwaiting : w.turn.status = .waitingForApproval := by
      simp [SendWrite.turn, hf, SendCall.turn, hid]
    simp only [after_bind_iff, after_pure]
    refine (sendTurnInsertApproval_after _).elim (fun _ m₅ h₅ => ?_) fun e m₅ h₅ => ?_ <;>
    · refine h₄.asked h₅.1 hturn w.turn_sessionId hwaiting fun a r hr ht => ?_
      rw [hs.approvals] at hr
      obtain ⟨old, hold, -⟩ := h₂.books.approvals a r hr
      rw [ht] at hold
      exact hfresh (stored_turn hold)

theorem toStatus_ne_pending (d : ApprovalDecision) : d.toStatus ≠ .pending := by
  cases d <;> decide

theorem respondApprovalApply_sound (h : Sound m) {c : RespondCall} {resolved : ApprovalRecord} {turn : TurnRecord}
    (hturn : m.turns.lookup resolved.turnId = some turn) (howner : turn.sessionId = c.sessionId)
    (hwaiting : turn.status = .waitingForApproval)
    (hpending : ∀ a r, m.approvals.lookup a = some r → r.status = .pending → r.turnId ≠ resolved.turnId) :
    After (respondApprovalApply c resolved) m fun _ m' => Sound m' := by
  have hopen : isTerminalTurnStatus turn.status = false := by rw [hwaiting]; rfl
  have hup : ∀ f : TurnRecord → TurnRecord,
      m.turns.update resolved.turnId f = m.turns.insert resolved.turnId (f turn) :=
    fun f => by simp [Table.update, hturn]
  have happlied : ∀ {m' : Manager} {f : TurnRecord → TurnRecord} {g : SessionRecord → SessionRecord},
      Applied m m' c resolved.turnId f g → (f turn).sessionId = c.sessionId →
      (∀ session, session.activeTurnId = some resolved.turnId →
        (isTerminalTurnStatus (f turn).status = true ∧ (g session).activeTurnId = none) ∨
          ((g session).activeTurnId = some resolved.turnId ∧ Agree (g session) (f turn))) → Sound m' := by
    intro m' f g ha ho hactive
    obtain ⟨sessions, waits, sets, -, hw⟩ := ha.writes
    obtain rfl := sets.sessions.symm.trans (ha.complete h.books.faults)
    rw [hup] at sets
    refine h.changed hturn howner hopen sets ho hactive hpending fun task ht => ?_
    rcases hw with rfl | rfl
    · exact .inl ht
    · rcases List.mem_append.mp ht with ht | ht
      · exact .inl ht
      · obtain rfl := List.mem_singleton.mp ht
        exact .inr ⟨rfl, rfl⟩
  cases hd : c.decision with
  | accept =>
    refine (respondApprovalApply_accept_after c resolved hd).mono fun _ m' ha => ?_
    exact happlied ha howner fun session hs => .inr ⟨hs, .inl ⟨rfl, rfl⟩⟩
  | decline =>
    refine (respondApprovalApply_decline_after c resolved hd).mono fun _ m' ha => ?_
    refine happlied ha howner fun session hs => .inl ⟨rfl, ?_⟩
    simp [declinedSession, releaseTurn, hs]

theorem respondApproval_sound (h : Sound m) (sid approvalId : String) (input : ApprovalResponseInput)
    (provider : ProviderApprovalResponseRequest → Except RuntimeError Unit) :
    After (respondApproval sid approvalId input provider) m fun _ m' => Sound m' := by
  refine after_bind (respondApprovalBegin_after sid) (fun kind m₁ h₁ => ?_) fun e m₁ h₁ => h₁.1 ▸ h
  obtain ⟨rfl, -⟩ := h₁
  refine after_bind (respondApprovalCheck_after kind sid approvalId input) (fun c m₂ h₂ => ?_)
    fun e m₂ h₂ => h₂.1 ▸ h
  obtain ⟨rfl, hc⟩ := h₂
  obtain ⟨hsid, hexisting, howner, hpending⟩ := hc c rfl
  have hresolved : ∀ {m₃ : Manager}, Sets m₂ m₃ m₂.sessions m₂.turns
      (m₂.approvals.insert approvalId (c.resolved m₂.clock)) m₂.waits → Sound m₃ :=
    fun sets => h.resolved sets hexisting rfl rfl (toStatus_ne_pending _)
  refine after_bind (respondApprovalResolve_after approvalId c _) (fun resolved m₃ h₃ => ?_) fun e m₃ h₃ => ?_
  · rcases h₃ with ⟨-, hne, -⟩ | ⟨sets, -, hr, -⟩
    · exact absurd rfl (hne resolved)
    · obtain rfl := hr resolved rfl
      obtain ⟨turn, hturn, hwaiting⟩ := h.coherent.pending approvalId c.existing hexisting hpending
      obtain ⟨turn', hturn', ho⟩ := h.books.approvals approvalId c.existing hexisting
      obtain rfl := Option.some.inj (hturn.symm.trans hturn')
      refine respondApprovalApply_sound (hresolved sets) (by rw [sets.turns]; exact hturn)
        (ho.trans (howner.trans hsid.symm)) hwaiting fun a r hr hp ht => ?_
      rw [sets.approvals, Table.lookup_insert] at hr
      split at hr
      · obtain rfl := Option.some.inj hr
        exact toStatus_ne_pending _ hp
      · next hne => exact hne (h.books.pendingOnce a approvalId r c.existing hr hexisting hp hpending ht)
  · rcases h₃ with ⟨hq, -, -⟩ | ⟨sets, -, -, -⟩
    · exact h.quiet hq
    · exact hresolved sets

theorem applyTerminalResult_sound (h : Sound m) {result : ProviderTurnResult}
    (hcalm : m.calmResult result = true) : After (applyTerminalResult result) m fun _ m' => Sound m' := by
  refine (applyTerminalResult_after result).mono fun _ m' hr => ?_
  cases hr with
  | nothing quiet => exact h.quiet quiet
  | conflict turn text found owner ended differs sets =>
    have hidle : m.idle turn.sessionId = true := by
      simpa [Manager.calmResult, found, owner, ended, differs] using hcalm
    exact h.sessionUpdate sets hidle fun session hs => hs
  | ended turn sessions ends sets session complete =>
    obtain rfl := complete h.books.faults
    have hok : result.status ≠ .inProgress ∧ m.noPending result.turnId = true := by
      simpa [Manager.calmResult, ends.found, ends.owner, ends.running] using hcalm
    refine h.changed ends.found ends.owner ends.running sets ends.owner (fun session hs => .inl ⟨?_, ?_⟩)
      (noPending_iff.mp hok.2) fun task ht => .inl ht
    · cases hst : result.status <;>
        simp [finishedTurn, hst, ProviderTurnStatus.toTurnStatus, isTerminalTurnStatus] at hok ⊢
    · simp [finishedSession, releaseTurn, hs]

theorem applyTerminalFailure_sound (h : Sound m) {task : WaitTask} {error : RuntimeError}
    (howned : Owned m task.sessionId task.turnId) (hcalm : m.calmFailure task = true) :
    After (applyTerminalFailure task.sessionId task.turnId error) m fun _ m' => Sound m' := by
  obtain ⟨turn, hturn, howner⟩ := howned
  refine after_bind (applyTerminalFailureTurn_after task.turnId error) (fun _ m₁ h₁ => ?_) fun e m₁ h₁ => ?_
  · refine (applyTerminalFailureSession_after task.sessionId task.turnId error).mono fun _ m₂ h₂ => ?_
    rcases h₁ with ⟨hq, -, hended⟩ | ⟨hs, -, turn', hturn', hopen⟩
    · have hidle : m₁.idle task.sessionId = true := by
        rw [idle_congr hq.sessions]
        simpa [Manager.calmFailure, hturn, hended turn hturn] using hcalm
      refine (h.quiet hq).sessionUpdate h₂ hidle fun session hs => ?_
      simp [failedSession, releaseTurn, hs]
    · obtain rfl := Option.some.inj (hturn.symm.trans hturn')
      have hpending : m.noPending task.turnId = true := by
        simpa [Manager.calmFailure, hturn, hopen] using hcalm
      have hsets : Sets m m₂ (m.sessions.update task.sessionId (failedSession task.turnId error m₁.clock))
          (m.turns.insert task.turnId (waitFailedTurn error m.clock turn)) m.approvals m.waits := by
        have hs' := hs.trans h₂
        rw [hs.sessions, hs.turns, hs.approvals, hs.waits] at hs'
        simpa only [Table.update, hturn] using hs'
      refine h.changed hturn howner hopen hsets howner (fun session hs => .inl ⟨rfl, ?_⟩)
        (noPending_iff.mp hpending) fun task ht => .inl ht
      simp [failedSession, releaseTurn, hs]
  · rcases h₁ with ⟨-, he, -⟩ | ⟨-, hok, -⟩
    · cases he
    · cases hok h.books.faults

theorem Sound.dropWait (h : Sound m) (w : ℕ) : Sound (m.dropWait w) :=
  ⟨⟨h.coherent.active, h.coherent.unfinished, h.coherent.pending⟩,
    ⟨h.books.issued, fun task ht => h.books.waits task (List.mem_of_mem_eraseIdx ht), h.books.approvals,
      h.books.pendingOnce, h.books.faults⟩⟩

theorem sound_serve {req : Request} (h : Sound m) (hcalm : calm req m = true) (hs : Manager.serve req m = some m') :
    Sound m' := by
  cases req with
  | createSession input provider =>
    obtain rfl := Option.some.inj hs
    exact (createSession_sound h input provider).out
  | closeSession sid reason provider =>
    obtain rfl := Option.some.inj hs
    refine (closeSession_sound h ?_).out
    simpa [calm] using hcalm
  | forceCloseSession sid reason =>
    obtain rfl := Option.some.inj hs
    exact (finalizeSessionClose_sound h hcalm _).out
  | resumeSession sid input provider =>
    obtain rfl := Option.some.inj hs
    exact (resumeSession_sound h hcalm).out
  | sendTurn sid input provider =>
    obtain rfl := Option.some.inj hs
    exact (sendTurn_sound h sid input provider).out
  | interruptTurn sid turnId provider =>
    obtain rfl := Option.some.inj hs
    exact (interruptTurn_sound h sid turnId provider).out
  | respondApproval sid approvalId input provider =>
    obtain rfl := Option.some.inj hs
    exact (respondApproval_sound h sid approvalId input provider).out
  | result w result =>
    simp only [Manager.serve, Option.ite_none_right_eq_some, Option.some.injEq] at hs
    obtain ⟨-, rfl⟩ := hs
    exact (applyTerminalResult_sound (h.dropWait w) hcalm).out
  | waitFailure w error =>
    simp only [Manager.serve, Option.bind_eq_bind, Option.bind_eq_some_iff, Option.some.injEq] at hs
    obtain ⟨task, htask, rfl⟩ := hs
    have hc : m.calmFailure task = true := by simpa [calm, htask] using hcalm
    have ho : Owned m task.sessionId task.turnId := h.books.waits task (List.mem_of_getElem? htask)
    exact (applyTerminalFailure_sound (h.dropWait w) ho hc).out
  | tick now =>
    obtain rfl := Option.some.inj hs
    exact ⟨⟨h.coherent.active, h.coherent.unfinished, h.coherent.pending⟩,
      ⟨h.books.issued, h.books.waits, h.books.approvals, h.books.pendingOnce, h.books.faults⟩⟩

end

/-! ## Runs -/

theorem sound_empty (providers : List ProviderKind) : Sound (Manager.empty providers []) := by
  constructor <;> constructor <;> intros <;> simp_all [Manager.empty, Store.empty, Stored]

/-- Sessions, turns and approvals agree after every run of calm operations. -/
theorem coherent_of_calm {providers : List ProviderKind} {m : Manager}
    (h : Reaches Manager.serve (fun req m => calm req m = true) (Manager.empty providers []) m) : Coherent m :=
  (h.invariant (sound_empty providers) fun _ _ _ hi hc hs => sound_serve hi hc hs).coherent

def acceptingSends : SendAnswers :=
  ⟨fun r => .ok ⟨r.runtimeSessionId, r.turnId⟩, fun _ => .error (.invalidState "unused"),
    fun _ => .error (.invalidState "unused")⟩

def approvedTurn : List Request :=
  [.createSession ⟨.codex, none, none, none, none⟩ fun r => .ok ⟨r.runtimeSessionId, "ref", none⟩,
    .sendTurn "sess_codex_0_1" ⟨[], none, some "require_approval"⟩ acceptingSends,
    .respondApproval "sess_codex_0_1" "apr_codex_0_4" ⟨"accept", none⟩ fun _ => .ok ()]

theorem coherent_approvedTurn : ∃ m : Manager, Coherent m ∧ Names m "sess_codex_0_1" "turn_codex_0_3" := by
  obtain ⟨m, hm, he⟩ := exists_reaches_of_runAll Manager.serve calm approvedTurn
    (fun m => (m.sessions.lookup "sess_codex_0_1").bind SessionRecord.activeTurnId) (some "turn_codex_0_3")
    (s := Manager.empty [.codex] []) (by decide +kernel)
  obtain ⟨session, hs, ha⟩ := Option.bind_eq_some_iff.mp he
  exact ⟨m, coherent_of_calm hm, session, hs, ha⟩

def closedWhileRunning : List Request :=
  [.createSession ⟨.codex, none, none, none, none⟩ fun r => .ok ⟨r.runtimeSessionId, "ref", none⟩,
    .sendTurn "sess_codex_0_1" ⟨[], none, none⟩ acceptingSends,
    .closeSession "sess_codex_0_1" none fun _ => .ok ()]

theorem not_coherent : ¬ ∀ (providers : List ProviderKind) (m : Manager),
    Reaches Manager.serve (fun _ _ => True) (Manager.empty providers []) m → Coherent m := by
  intro hall
  obtain ⟨m, hm, he⟩ := exists_reaches_of_runAll Manager.serve (fun _ _ => true) closedWhileRunning
    (fun m => ((m.turns.lookup "turn_codex_0_3").map fun turn => (turn.sessionId, turn.status),
      (m.sessions.lookup "sess_codex_0_1").map SessionRecord.activeTurnId))
    (some ("sess_codex_0_1", .inProgress), some none)
    (s := Manager.empty [.codex] []) (by decide +kernel)
  simp only [Prod.mk.injEq, Option.map_eq_some_iff] at he
  obtain ⟨⟨turn, hturn, ho, hrunning⟩, session, hs, hnone⟩ := he
  obtain ⟨session', hs', ha⟩ := (hall [.codex] m (hm.mono fun _ _ _ => trivial)).unfinished _ turn hturn
    (by rw [hrunning]; rfl)
  rw [ho] at hs'
  obtain rfl := Option.some.inj (hs.symm.trans hs')
  rw [hnone] at ha
  cases ha

end Gooselake.Runtime
