import Gooselake.Runtime.ActiveTurns
import Gooselake.Runtime.Identifiers

/-!
At most one unfinished turn in a session, and the session names it, whenever no `send_turn` of the
session is under way. Calls that write an older clone of the session back can break this; it holds
in every run in which no such write meets a turn that runs.
-/

namespace Gooselake.Runtime

open Gooselake.Core Data Library Library.Exec

set_option autoImplicit false

/-- A session has at most one unfinished turn, and names it. -/
structure OneActiveTurn (m : Manager) (sessionId : String) : Prop where
  atMostOne : ∀ t t', Unfinished m sessionId t → Unfinished m sessionId t' → t = t'
  named : ∀ t, Unfinished m sessionId t → Names m sessionId t

/-- The session a `send_turn` call is for. -/
def Call.sendsTo : Call → Option String
  | .send c => some c.sessionId
  | .sendInsertTurn w | .sendInsertSession w => some w.call.sessionId
  | .sendInsertApproval approval => some approval.sessionId
  | _ => none

/-- No `send_turn` of the session is under way. -/
def NoSend (s : Server) (sessionId : String) : Prop :=
  ∀ i c, s.calls.lookup i = some c → c.sendsTo ≠ some sessionId

/-! ## The steps that disturb no running turn -/

/-- The unfinished turn that the session names. -/
def Manager.runningTurn (m : Manager) (sessionId : String) : Option String := do
  let session ← m.sessions.lookup sessionId
  let t ← session.activeTurnId
  let turn ← m.turns.lookup t
  if turn.sessionId = sessionId ∧ isTerminalTurnStatus turn.status = false then some t else none

def Call.startsTurn (sessionId : String) : Call → Option String
  | .sendInsertSession w =>
    if w.failure = none ∧ w.call.sessionId = sessionId then some w.call.turnId else none
  | _ => none

/-- A piece that inserts a turn or an older session record finds no running turn it would displace,
and an approval is not accepted for a turn that is over. -/
def Call.spares (s : Server) (sessionId : String) : Call → Bool
  | .sendInsertTurn w => !(w.failure = none && w.call.sessionId = sessionId) ||
      (s.manager.runningTurn sessionId = none && s.calls.values.all fun c => c.startsTurn sessionId = none)
  | .sendInsertSession w => !(w.failure ≠ none && w.call.sessionId = sessionId) ||
      s.manager.runningTurn sessionId = none
  | .closeInsert id _ _ => id ≠ sessionId || s.manager.runningTurn sessionId = none
  | .resumeInsert id record => id ≠ sessionId || s.manager.runningTurn sessionId = none ||
      s.manager.runningTurn sessionId = record.activeTurnId
  | .respondApply c resolved => c.decision = .decline ||
      match s.manager.turns.lookup resolved.turnId with
      | some turn => turn.sessionId ≠ sessionId || !isTerminalTurnStatus turn.status
      | none => true
  | _ => true

/-- The step displaces no running turn and starts none beside it. -/
def undisturbed (sessionId : String) : Label → Server → Bool
  | .goOn i _, s => match s.calls.lookup i with
    | some c => c.spares s sessionId
    | none => true
  | .waited _ result, s => result.status ≠ .inProgress || result.runtimeSessionId ≠ sessionId ||
      s.manager.runningTurn sessionId ≠ some result.turnId
  | _, _ => true

theorem runningTurn_eq {m : Manager} {sessionId t : String} :
    m.runningTurn sessionId = some t ↔ Names m sessionId t ∧ Unfinished m sessionId t := by
  simp only [Manager.runningTurn, Option.bind_eq_bind, Option.bind_eq_some_iff]
  constructor
  · rintro ⟨session, hs, t', ht', turn, hturn, h⟩
    split at h
    · next hc =>
      obtain rfl := Option.some.inj h
      exact ⟨⟨session, hs, ht'⟩, turn, hturn, hc⟩
    · cases h
  · rintro ⟨⟨session, hs, ht⟩, turn, hturn, hc⟩
    exact ⟨session, hs, t, ht, turn, hturn, if_pos hc⟩

theorem startsTurn_eq {c : Call} {sessionId t : String} :
    c.startsTurn sessionId = some t ↔ ∃ w, c = .sendInsertSession w ∧ w.failure = none ∧
      w.call.sessionId = sessionId ∧ w.call.turnId = t := by
  cases c with
  | sendInsertSession w =>
    simp only [Call.startsTurn, Option.ite_none_right_eq_some, Option.some.injEq, Call.sendInsertSession.injEq,
      exists_eq_left', and_assoc]
  | _ => simp [Call.startsTurn]

/-! ## The invariant -/

/-- Every unfinished turn of the session is named by it, or a call is about to name it; then it is
the only one. The session half of a failed wait has only turns that are over. -/
structure Tracked (s : Server) (sessionId : String) : Prop where
  named : ∀ t, Unfinished s.manager sessionId t → Names s.manager sessionId t ∨
    ∃ i c, s.calls.lookup i = some c ∧ c.startsTurn sessionId = some t
  alone : ∀ i c t t', s.calls.lookup i = some c → c.startsTurn sessionId = some t →
    Unfinished s.manager sessionId t' → t' = t
  failing : ∀ i t error, s.calls.lookup i = some (.failSession sessionId t error) →
    ¬ Unfinished s.manager sessionId t

theorem tracked_start (providers : List ProviderKind) (faults : List Bool) (sessionId : String) :
    Tracked (Server.start (Manager.empty providers faults)) sessionId := by
  constructor <;> intros <;> simp_all [Server.start, Manager.empty, Unfinished]

section

variable {s : Server} {sessionId : String} {i : ℕ} {before after : Option Call} {m' : Manager}

theorem Tracked.keep (h : Tracked s sessionId) (hi : s.calls.lookup i = before)
    (hturns : ∀ t, Unfinished m' sessionId t → Unfinished s.manager sessionId t)
    (hnames : ∀ t, Unfinished m' sessionId t → Names s.manager sessionId t → Names m' sessionId t)
    (hbefore : ∀ c, before = some c → c.startsTurn sessionId = none)
    (hafter : ∀ c, after = some c → c.startsTurn sessionId = none)
    (hfail : ∀ t error, after = some (.failSession sessionId t error) → ¬ Unfinished m' sessionId t) :
    Tracked ⟨m', Server.put s.calls i after⟩ sessionId := by
  constructor
  · intro t ht
    rcases h.named t (hturns t ht) with hn | ⟨j, c, hj, hc⟩
    · exact .inl (hnames t ht hn)
    · refine .inr ⟨j, c, ?_, hc⟩
      rw [Server.lookup_put, if_neg]
      · exact hj
      · rintro rfl
        rw [hbefore c (hi.symm.trans hj)] at hc
        cases hc
  · intro j c t t' hj hc ht'
    rw [Server.lookup_put] at hj
    split at hj
    · rw [hafter c hj] at hc
      cases hc
    · exact h.alone j c t t' hj hc (hturns t' ht')
  · intro j t error hj ht
    rw [Server.lookup_put] at hj
    split at hj
    · exact hfail t error hj ht
    · exact h.failing j t error hj (hturns t ht)

theorem Tracked.same (h : Tracked s sessionId)
    (hturns : ∀ t, Unfinished m' sessionId t → Unfinished s.manager sessionId t)
    (hnames : ∀ t, Unfinished m' sessionId t → Names s.manager sessionId t → Names m' sessionId t) :
    Tracked ⟨m', s.calls⟩ sessionId where
  named t ht := (h.named t (hturns t ht)).imp (hnames t ht) id
  alone i c t t' hi hc ht' := h.alone i c t t' hi hc (hturns t' ht')
  failing i t error hi ht := h.failing i t error hi (hturns t ht)

/-! ## Every undisturbed step keeps it -/

theorem not_running {m : Manager} {t : String} (h : m.runningTurn sessionId = none)
    (hn : Names m sessionId t) : ¬ Unfinished m sessionId t := by
  intro ht
  rw [runningTurn_eq.mpr ⟨hn, ht⟩] at h
  cases h

theorem Tracked.keep_quiet (h : Tracked s sessionId) (hi : s.calls.lookup i = before)
    (hq : Quiet s.manager m') (hbefore : ∀ c, before = some c → c.startsTurn sessionId = none)
    (hafter : ∀ c, after = some c → c.startsTurn sessionId = none)
    (hfail : ∀ t error, after = some (.failSession sessionId t error) → ¬ Unfinished m' sessionId t) :
    Tracked ⟨m', Server.put s.calls i after⟩ sessionId :=
  h.keep hi (fun _ ht => (unfinished_congr hq.turns).mp ht) (fun _ _ hn => (names_congr hq.sessions).mpr hn)
    hbefore hafter hfail

theorem Tracked.keep_turns (h : Tracked s sessionId) (hi : s.calls.lookup i = before)
    (hturns : m'.turns = s.manager.turns) (hbefore : ∀ c, before = some c → c.startsTurn sessionId = none)
    (hafter : ∀ c, after = some c → c.startsTurn sessionId = none ∧ ∀ t error, c ≠ .failSession sessionId t error)
    (hnames : ∀ t, Unfinished s.manager sessionId t → Names s.manager sessionId t → Names m' sessionId t) :
    Tracked ⟨m', Server.put s.calls i after⟩ sessionId :=
  h.keep hi (fun _ ht => (unfinished_congr hturns).mp ht)
    (fun t ht hn => hnames t ((unfinished_congr hturns).mp ht) hn) hbefore (fun c hc => (hafter c hc).1)
    (fun t error hc => absurd rfl ((hafter _ hc).2 t error))

theorem Tracked.turnInserted {w : SendWrite} (hid : Identified s) (h : Tracked s sessionId)
    (hi : s.calls.lookup i = some (.sendInsertTurn w)) (haccepted : w.failure = none)
    (hsession : w.call.sessionId = sessionId) (hrun : s.manager.runningTurn sessionId = none)
    (hstart : ∀ j c, s.calls.lookup j = some c → c.startsTurn sessionId = none)
    (sets : Sets s.manager m' s.manager.sessions (s.manager.turns.insert w.call.turnId w.turn)
      s.manager.approvals s.manager.waits) :
    Tracked ⟨m', Server.put s.calls i (some (.sendInsertSession w))⟩ sessionId := by
  have hnone : ∀ t, ¬ Unfinished s.manager sessionId t := by
    intro t ht
    rcases h.named t ht with hn | ⟨j, c, hj, hc⟩
    · exact not_running hrun hn ht
    · rw [hstart j c hj] at hc
      cases hc
  have honly : ∀ t, Unfinished m' sessionId t → t = w.call.turnId := by
    intro t ht
    rcases unfinished_insert sets.turns ht with ⟨he, -⟩ | ⟨-, ht⟩
    · exact he
    · exact absurd ht (hnone t)
  have hnew : (Call.sendInsertSession w).startsTurn sessionId = some w.call.turnId :=
    startsTurn_eq.mpr ⟨w, rfl, haccepted, hsession, rfl⟩
  have hfresh : ¬ Stored s.manager w.call.turnId := hid.reservedFresh i _ _ hi rfl
  constructor
  · intro t ht
    obtain rfl := honly t ht
    refine .inr ⟨i, _, ?_, hnew⟩
    rw [Server.lookup_put, if_pos rfl]
  · intro j c t t' hj hc ht'
    rw [Server.lookup_put] at hj
    split at hj
    · obtain rfl := Option.some.inj hj
      rw [hnew] at hc
      exact (honly t' ht').trans (Option.some.inj hc)
    · rw [hstart j c hj] at hc
      cases hc
  · intro j t error hj ht
    rw [Server.lookup_put] at hj
    split at hj
    · cases hj
    · obtain rfl := honly t ht
      exact hfresh (.inr (hid.usesIn j _ (.turn w.call.turnId) hj (by simp [Call.uses])))

theorem Tracked.sessionInserted {w : SendWrite} {waits : List WaitTask} (h : Tracked s sessionId)
    (hi : s.calls.lookup i = some (.sendInsertSession w)) (haccepted : w.failure = none)
    (hsession : w.call.sessionId = sessionId)
    (sets : Sets s.manager m' (s.manager.sessions.insert w.call.sessionId w.session) s.manager.turns
      s.manager.approvals waits)
    (hafter : ∀ c, after = some c → c.startsTurn sessionId = none ∧ ∀ t error, c ≠ .failSession sessionId t error) :
    Tracked ⟨m', Server.put s.calls i after⟩ sessionId := by
  have hstarts : (Call.sendInsertSession w).startsTurn sessionId = some w.call.turnId :=
    startsTurn_eq.mpr ⟨w, rfl, haccepted, hsession, rfl⟩
  have hturns : ∀ t, Unfinished m' sessionId t → Unfinished s.manager sessionId t :=
    fun _ ht => (unfinished_congr sets.turns).mp ht
  constructor
  · intro t ht
    obtain rfl := h.alone i _ _ t hi hstarts (hturns t ht)
    refine .inl ⟨w.session, ?_, SendWrite.session_activeTurnId haccepted⟩
    rw [sets.sessions, Table.lookup_insert, if_pos hsession.symm]
  · intro j c t t' hj hc ht'
    rw [Server.lookup_put] at hj
    split at hj
    · rw [(hafter c hj).1] at hc
      cases hc
    · exact h.alone j c t t' hj hc (hturns t' ht')
  · intro j t error hj ht
    rw [Server.lookup_put] at hj
    split at hj
    · exact (hafter _ hj).2 t error rfl
    · exact h.failing j t error hj (hturns t ht)

theorem Tracked.applied {c : RespondCall} {resolved : ApprovalRecord} {turn : TurnRecord → TurnRecord}
    {session : SessionRecord → SessionRecord} (h : Tracked s sessionId)
    (hi : s.calls.lookup i = some (.respondApply c resolved))
    (ha : Applied s.manager m' c resolved.turnId turn session)
    (hturn : ∀ r, s.manager.turns.lookup resolved.turnId = some r → (turn r).sessionId = sessionId →
      isTerminalTurnStatus (turn r).status = false → Unfinished s.manager sessionId resolved.turnId)
    (hsession : ∀ t r, Unfinished m' sessionId t → r.activeTurnId = some t → (session r).activeTurnId = some t) :
    Tracked ⟨m', Server.put s.calls i none⟩ sessionId := by
  obtain ⟨sessions, waits, sets, hss, -⟩ := ha.writes
  refine h.keep hi (fun t ht => ?_) (fun t ht hn => ?_) (fun d hd => by cases hd; rfl) (fun _ hd => by cases hd)
    (fun _ _ hd => by cases hd)
  · rcases unfinished_update sets.turns ht with ⟨rfl, r, hr, ho, hterm⟩ | ⟨-, ht⟩
    · exact hturn r hr ho hterm
    · exact ht
  · rcases hss with rfl | rfl
    · exact (names_congr sets.sessions).mpr hn
    · exact names_update sets.sessions hn fun _ r hr => hsession t r ht hr

theorem Moves.tracked (hid : Identified s) (h : Tracked s sessionId) (hm : Moves s.manager before after m')
    (hi : s.calls.lookup i = before) (hspare : ∀ c, before = some c → c.spares s sessionId = true) :
    Tracked ⟨m', Server.put s.calls i after⟩ sessionId := by
  cases hm with
  | stopped quiet was =>
    refine h.keep_quiet hi quiet (fun c hc => ?_) (fun _ hc => by cases hc) (fun _ _ hc => by cases hc)
    cases c with
    | sendInsertSession w => exact absurd hc (was w)
    | _ => rfl
  | createBegun quiet | closeBegun quiet | resumeBegun quiet | sendBegun quiet | interruptBegun quiet
  | respondBegun quiet =>
    exact h.keep_quiet hi quiet (fun _ hc => by cases hc) (fun _ hc => by cases hc; rfl) (fun _ _ hc => by cases hc)
  | createStored quiet | resumeStored quiet | sendSettled quiet | respondChecked quiet =>
    exact h.keep_quiet hi quiet (fun _ hc => by cases hc; rfl) (fun _ hc => by cases hc; rfl)
      (fun _ _ hc => by cases hc)
  | closeStored quiet found was =>
    refine h.keep_quiet hi quiet (fun c hc => ?_) (fun _ hc => by cases hc; rfl) (fun _ _ hc => by cases hc)
    rcases was with rfl | rfl <;> cases hc
    rfl
  | @createInserted record _ sets =>
    refine h.keep_turns hi sets.turns (fun _ hc => by cases hc; rfl) (fun _ hc => by cases hc) (fun t _ hn => ?_)
    refine names_insert sets.sessions hn fun he => ?_
    obtain ⟨session, hs, -⟩ := hn
    exact absurd (stored_session hs) (he ▸ hid.reservedFresh i _ record.id hi rfl)
  | closeInserted sets =>
    have hsp := hspare _ rfl
    simp only [Call.spares, ne_eq, decide_not, Bool.or_eq_true, Bool.not_eq_eq_eq_not, Bool.not_true,
      decide_eq_false_iff_not, decide_eq_true_eq] at hsp
    refine h.keep_turns hi sets.turns (fun _ hc => by cases hc; rfl) (fun _ hc => by cases hc) (fun t ht hn => ?_)
    refine names_insert sets.sessions hn fun he => ?_
    rcases hsp with hne | hrun
    · exact absurd he hne
    · exact absurd ht (not_running hrun hn)
  | @resumeInserted _ record _ sets =>
    have hsp := hspare _ rfl
    simp only [Call.spares, ne_eq, decide_not, Bool.or_eq_true, Bool.not_eq_eq_eq_not, Bool.not_true,
      decide_eq_false_iff_not, decide_eq_true_eq] at hsp
    refine h.keep_turns hi sets.turns (fun _ hc => by cases hc; rfl) (fun _ hc => by cases hc) (fun t ht hn => ?_)
    refine names_insert sets.sessions hn fun he => ?_
    rcases hsp with (hne | hrun) | hrec
    · exact absurd he hne
    · exact absurd ht (not_running hrun hn)
    · exact hrec ▸ runningTurn_eq.mpr ⟨hn, ht⟩
  | worktreeSet sets =>
    exact h.keep_turns hi sets.turns (fun _ hc => by cases hc) (fun _ hc => by cases hc)
      (fun t _ hn => names_update sets.sessions hn fun _ _ hr => hr)
  | @turnInserted w _ sets =>
    have hsp := hspare _ rfl
    simp only [Call.spares, Bool.or_eq_true, Bool.not_eq_eq_eq_not, Bool.not_true, Bool.and_eq_false_imp,
      Bool.and_eq_true, decide_eq_true_eq, decide_eq_false_iff_not, List.all_eq_true] at hsp
    by_cases hc : w.failure = none ∧ w.call.sessionId = sessionId
    · obtain ⟨hrun, hall⟩ := hsp.resolve_left fun hn => hn hc.1 hc.2
      exact Tracked.turnInserted hid h hi hc.1 hc.2 hrun
        (fun j c hj => hall c (Table.mem_values.mpr ⟨j, hj⟩)) sets
    · refine h.keep hi (fun t ht => ?_) (fun _ _ hn => (names_congr sets.sessions).mpr hn)
        (fun _ hd => by cases hd; rfl) (fun d hd => ?_) (fun _ _ hd => by cases hd)
      · rcases unfinished_insert sets.turns ht with ⟨-, ho, hterm⟩ | ⟨-, ht⟩
        · exact absurd ⟨w.turn_unfinished.mp hterm, w.turn_sessionId ▸ ho⟩ hc
        · exact ht
      · cases hd
        exact if_neg hc
  | @sessionInserted w r waits _ sets inserted =>
    have hsp := hspare _ rfl
    simp only [Call.spares, Bool.or_eq_true, Bool.not_eq_eq_eq_not, Bool.not_true, Bool.and_eq_false_imp,
      decide_eq_true_eq, decide_eq_false_iff_not, ne_eq, decide_not] at hsp
    have hafter : ∀ c, Server.left (r.map (Option.map Call.sendInsertApproval)) = some c →
        c.startsTurn sessionId = none ∧ ∀ t error, c ≠ .failSession sessionId t error := by
      intro c hc
      rcases r with e | (_ | a) <;> simp only [Except.map, Server.left, Option.map] at hc <;> cases hc
      exact ⟨rfl, fun _ _ h => by cases h⟩
    by_cases hw : w.call.sessionId = sessionId
    · by_cases hf : w.failure = none
      · exact h.sessionInserted hi hf hw sets hafter
      · refine h.keep_turns hi sets.turns (fun c hc => ?_) hafter (fun t ht hn => ?_)
        · cases hc
          exact if_neg fun hc => hf hc.1
        · exact absurd ht (not_running (hsp.resolve_left fun hn => hn hf hw) hn)
    · refine h.keep_turns hi sets.turns (fun c hc => ?_) hafter (fun t ht hn => ?_)
      · cases hc
        exact if_neg fun hc => hw hc.2
      · exact names_insert sets.sessions hn fun he => absurd he hw
  | approvalInserted sets =>
    exact h.keep_turns hi sets.turns (fun _ hc => by cases hc; rfl) (fun _ hc => by cases hc)
      (fun t _ hn => (names_congr sets.sessions).mpr hn)
  | respondResolved sets next =>
    refine h.keep_turns hi sets.turns (fun _ hc => by cases hc; rfl) (fun c hc => ?_)
      (fun t _ hn => (names_congr sets.sessions).mpr hn)
    rcases next with rfl | rfl <;> cases hc
    exact ⟨rfl, fun _ _ h => by cases h⟩
  | @acceptApplied c resolved _ decision applied =>
    have hsp := hspare _ rfl
    refine h.applied hi applied (fun r hr ho hterm => ⟨r, hr, ho, ?_⟩) (fun t r _ hr => hr)
    simp only [Call.spares, decision, hr] at hsp
    simpa [show r.sessionId = sessionId from ho] using hsp
  | @declineApplied c resolved _ decision applied =>
    refine h.applied hi applied (fun r hr ho hterm => by cases hterm) (fun t r ht hr => ?_)
    obtain ⟨sessions, waits, sets, -, -⟩ := applied.writes
    have hne : t ≠ resolved.turnId := by
      rcases unfinished_update sets.turns ht with ⟨-, r, -, -, hterm⟩ | ⟨hne, -⟩
      · cases hterm
      · exact hne
    rw [declinedSession, hr]
    exact releaseTurn_of_ne hne
  | @sessionFailed id turnId error _ sets =>
    refine h.keep_turns hi sets.turns (fun _ hc => by cases hc; rfl) (fun _ hc => by cases hc) (fun t ht hn => ?_)
    refine names_update sets.sessions hn fun he r hr => ?_
    have hne : t ≠ turnId := by
      rintro rfl
      exact h.failing i t error (he ▸ hi) ht
    rw [failedSession, hr]
    exact releaseTurn_of_ne hne

theorem ResultApplied.tracked {result : ProviderTurnResult} (h : Tracked s sessionId)
    (hr : ResultApplied s.manager result m')
    (hspare : result.status = .inProgress → result.runtimeSessionId = sessionId →
      s.manager.runningTurn sessionId ≠ some result.turnId) : Tracked ⟨m', s.calls⟩ sessionId := by
  cases hr with
  | nothing quiet =>
    exact h.same (fun _ ht => (unfinished_congr quiet.turns).mp ht)
      (fun _ _ hn => (names_congr quiet.sessions).mpr hn)
  | conflict turn _ found owner ended differs sets =>
    exact h.same (fun _ ht => (unfinished_congr sets.turns).mp ht)
      (fun _ _ hn => names_update sets.sessions hn fun _ _ hr => hr)
  | ended turn sessions ends sets session =>
    -- the turn stays unfinished only under the result that says it is in progress
    have hturns : ∀ t, Unfinished m' sessionId t → Unfinished s.manager sessionId t ∧
        (t = result.turnId → result.status = .inProgress ∧ result.runtimeSessionId = sessionId) := by
      intro t ht
      rcases unfinished_insert sets.turns ht with ⟨rfl, ho, hterm⟩ | ⟨hne, ht⟩
      · refine ⟨⟨turn, ends.found, ho, ends.running⟩, fun _ => ⟨?_, ends.owner.symm.trans ho⟩⟩
        cases hst : result.status <;>
          simp [finishedTurn, hst, ProviderTurnStatus.toTurnStatus, isTerminalTurnStatus] at hterm ⊢
      · exact ⟨ht, fun he => absurd he hne⟩
    refine h.same (fun t ht => (hturns t ht).1) (fun t ht hn => ?_)
    obtain ⟨hold, hsame⟩ := hturns t ht
    rcases session with rfl | rfl
    · exact (names_congr sets.sessions).mpr hn
    · refine names_update sets.sessions hn fun _ r hr => ?_
      have hne : t ≠ result.turnId := by
        rintro rfl
        obtain ⟨hst, ho⟩ := hsame rfl
        exact hspare hst ho (runningTurn_eq.mpr ⟨hn, hold⟩)
      rw [finishedSession, hr]
      exact releaseTurn_of_ne hne

theorem TurnFails.tracked {task : WaitTask} {error : RuntimeError} (h : Tracked s sessionId)
    (hi : s.calls.lookup i = none) (hf : TurnFails s.manager task error after m') :
    Tracked ⟨m', Server.put s.calls i after⟩ sessionId := by
  cases hf with
  | wasOver quiet ended =>
    refine h.keep_quiet hi quiet (fun _ hc => by cases hc) (fun _ hc => by cases hc; rfl) (fun t error hc ht => ?_)
    cases hc
    obtain ⟨turn, hturn, -, hterm⟩ := (unfinished_congr quiet.turns).mp ht
    rw [ended turn hturn] at hterm
    cases hterm
  | failed sets next =>
    have hne : ∀ t, Unfinished m' sessionId t → t ≠ task.turnId ∧ Unfinished s.manager sessionId t := by
      intro t ht
      rcases unfinished_update sets.turns ht with ⟨-, _, -, -, hterm⟩ | ht
      · cases hterm
      · exact ht
    refine h.keep hi (fun t ht => (hne t ht).2) (fun _ _ hn => (names_congr sets.sessions).mpr hn)
      (fun _ hc => by cases hc) (fun c hc => ?_) (fun t error hc ht => ?_)
    · rcases next with rfl | rfl <;> cases hc
      rfl
    · rcases next with rfl | rfl <;> cases hc
      exact (hne _ ht).1 rfl

theorem tracked_step {l : Label} {s' : Server} (hid : Identified s) (h : Tracked s sessionId)
    (hl : undisturbed sessionId l s = true) (hs : Server.step l s = some s') : Tracked s' sessionId := by
  cases l with
  | start i op =>
    obtain ⟨hi, after, m', hm, rfl⟩ := Server.step_start hs
    exact hm.tracked hid h hi (fun _ hc => by cases hc)
  | goOn i answer =>
    obtain ⟨c, after, m', hi, -, hm, rfl⟩ := Server.step_goOn hs
    refine hm.tracked hid h hi fun c' hc => ?_
    cases hc
    simpa only [undisturbed, hi] using hl
  | waited w result =>
    obtain ⟨m', hr, rfl⟩ := Server.step_waited hs
    have hdrop : Tracked (s.dropWait w) sessionId := h.same (fun _ ht => ht) (fun _ _ hn => hn)
    refine ResultApplied.tracked (s := s.dropWait w) hdrop hr fun hst ho hrun => ?_
    have hrun : s.manager.runningTurn sessionId = some result.turnId := hrun
    simp [undisturbed, hst, ho, hrun] at hl
  | waitFailed w i error =>
    obtain ⟨task, after, m', -, hi, hf, rfl⟩ := Server.step_waitFailed hs
    have hdrop : Tracked (s.dropWait w) sessionId := h.same (fun _ ht => ht) (fun _ _ hn => hn)
    exact TurnFails.tracked (s := s.dropWait w) hdrop hi hf
  | tick now =>
    rw [Server.step_tick hs]
    exact h.same (fun _ ht => ht) (fun _ _ hn => hn)

theorem Tracked.oneActiveTurn (h : Tracked s sessionId) (hsend : NoSend s sessionId) :
    OneActiveTurn s.manager sessionId := by
  have hnamed : ∀ t, Unfinished s.manager sessionId t → Names s.manager sessionId t := by
    intro t ht
    rcases h.named t ht with hn | ⟨i, c, hi, hc⟩
    · exact hn
    · obtain ⟨w, rfl, -, ho, -⟩ := startsTurn_eq.mp hc
      exact absurd (congrArg some ho) (hsend i _ hi)
  refine ⟨fun t t' ht ht' => ?_, hnamed⟩
  obtain ⟨r, hr, ha⟩ := hnamed t ht
  obtain ⟨r', hr', ha'⟩ := hnamed t' ht'
  obtain rfl := Option.some.inj (hr.symm.trans hr')
  exact Option.some.inj (ha.symm.trans ha')

end

/-! ## Runs -/

/-- No run whose steps leave a session undisturbed gives it two turns that are not over. -/
theorem one_active_turn {providers : List ProviderKind} {faults : List Bool} {sessionId : String} {s : Server}
    (h : Reaches Server.step (fun l s => undisturbed sessionId l s = true)
      (Server.start (Manager.empty providers faults)) s)
    (hsend : NoSend s sessionId) : OneActiveTurn s.manager sessionId := by
  have hinv : Identified s ∧ Tracked s sessionId :=
    h.invariant (I := fun s => Identified s ∧ Tracked s sessionId)
      ⟨identified_start providers faults, tracked_start providers faults sessionId⟩
      fun _ _ _ hi hl hs => ⟨identified_step hi.1 hs, tracked_step hi.1 hi.2 hl hs⟩
  exact hinv.2.oneActiveTurn hsend

theorem noSend_of_keys {s : Server} {sessionId : String} (h : s.calls.keys = []) : NoSend s sessionId := by
  intro i c hi
  have hmem := AList.mem_keys.mp (Table.lookup_isSome hi)
  rw [h] at hmem
  cases hmem

def oneSend : List Label :=
  [.start 0 (.createSession ⟨.codex, none, none, none, none⟩),
    .goOn 0 (.session (.ok ⟨"sess_codex_0_1", "ref", none⟩)), .goOn 0 .lock,
    .start 1 (.sendTurn "sess_codex_0_1" ⟨[], none, none⟩),
    .goOn 1 (.ack (.ok ⟨"sess_codex_0_1", "turn_codex_0_3"⟩)), .goOn 1 .lock, .goOn 1 .lock]

theorem one_active_turn_oneSend : ∃ s : Server, s.manager.runningTurn "sess_codex_0_1" = some "turn_codex_0_3" ∧
    OneActiveTurn s.manager "sess_codex_0_1" := by
  obtain ⟨s, hs, he⟩ := exists_reaches_of_runAll Server.step (undisturbed "sess_codex_0_1") oneSend
    (fun s => (s.calls.keys, s.manager.runningTurn "sess_codex_0_1")) ([], some "turn_codex_0_3")
    (s := Server.start (Manager.empty [.codex] [])) (by decide +kernel)
  obtain ⟨hkeys, hrun⟩ := Prod.mk.inj he
  exact ⟨s, hrun, one_active_turn hs (noSend_of_keys hkeys)⟩

def twoSends : List Label :=
  [.start 0 (.createSession ⟨.codex, none, none, none, none⟩),
    .goOn 0 (.session (.ok ⟨"sess_codex_0_1", "ref", none⟩)), .goOn 0 .lock,
    .start 1 (.sendTurn "sess_codex_0_1" ⟨[], none, none⟩),
    .start 2 (.sendTurn "sess_codex_0_1" ⟨[], none, none⟩),
    .goOn 1 (.ack (.ok ⟨"sess_codex_0_1", "turn_codex_0_3"⟩)), .goOn 1 .lock, .goOn 1 .lock,
    .goOn 2 (.ack (.ok ⟨"sess_codex_0_1", "turn_codex_0_4"⟩)), .goOn 2 .lock, .goOn 2 .lock]

/-- Whether turn `t` is an unfinished turn of the session, computed. -/
def Manager.isUnfinished (m : Manager) (sessionId t : String) : Bool :=
  (m.turns.lookup t).any fun turn => turn.sessionId = sessionId && !isTerminalTurnStatus turn.status

theorem isUnfinished_iff {m : Manager} {sessionId t : String} :
    m.isUnfinished sessionId t = true ↔ Unfinished m sessionId t := by
  simp [Manager.isUnfinished, Unfinished, Option.any_eq_true]

theorem not_one_active_turn : ¬ ∀ (providers : List ProviderKind) (faults : List Bool) (sessionId : String)
    (s : Server), Reaches Server.step (fun _ _ => True) (Server.start (Manager.empty providers faults)) s →
      NoSend s sessionId → OneActiveTurn s.manager sessionId := by
  intro hall
  obtain ⟨s, hs, he⟩ := exists_reaches_of_runAll Server.step (fun _ _ => true) twoSends
    (fun s => (s.calls.keys, s.manager.isUnfinished "sess_codex_0_1" "turn_codex_0_3",
      s.manager.isUnfinished "sess_codex_0_1" "turn_codex_0_4")) ([], true, true)
    (s := Server.start (Manager.empty [.codex] [])) (by decide +kernel)
  simp only [Prod.mk.injEq, isUnfinished_iff] at he
  obtain ⟨hkeys, h3, h4⟩ := he
  have hone := hall [.codex] [] "sess_codex_0_1" s (hs.mono fun _ _ _ => trivial) (noSend_of_keys hkeys)
  exact absurd (hone.atMostOne _ _ h3 h4) (by decide)

end Gooselake.Runtime
