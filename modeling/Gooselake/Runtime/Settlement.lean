import Gooselake.Runtime.Repairs
import Gooselake.Runtime.TurnRecords

/-!
The settlement of a turn: its first terminal status stays, with usage and error, the completion time
marks exactly that, and the session lets go of the turn only then. Five paths write a turn's status;
the law holds in the runs in which a result ends the turn it is for, an approval answers an unfinished
turn and recovery fails no session whose turn still runs.
-/

namespace Gooselake.Runtime

open Gooselake.Core Data Library Library.Exec

set_option autoImplicit false

/-- An event of the server's life, or a result or a failure applied to a turn without a wait. -/
inductive Incident where
  | live (e : Event)
  | result (result : ProviderTurnResult)
  | waitFailure (sessionId turnId : String) (error : RuntimeError)

def Server.incident : Incident → Server → Option Server
  | .live e, s => s.live e
  | .result result, s => some { s with manager := s.manager.complete (applyTerminalResult result) }
  | .waitFailure sessionId turnId error, s =>
    some { s with manager := s.manager.complete (applyTerminalFailure sessionId turnId error) }

/-! ## The steps that settle turns once -/

/-- The result, if it is for an unfinished turn of its session, is not `in_progress`. -/
def Manager.endsTurn (m : Manager) (result : ProviderTurnResult) : Bool :=
  (m.turns.lookup result.turnId).all fun turn =>
    turn.sessionId ≠ result.runtimeSessionId || isTerminalTurnStatus turn.status || result.status ≠ .inProgress

def Manager.unfinished (m : Manager) (t : String) : Bool :=
  (m.turns.lookup t).all fun turn => !isTerminalTurnStatus turn.status

def Manager.keepsTurns (m : Manager) (answers : RecoveryAnswers) : Bool :=
  m.sessions.keys.all fun k => (m.sessions.lookup k).all fun session =>
    !refused answers m.providers session || session.activeTurnId.all fun t =>
      (m.turns.lookup t).all fun turn => turn.sessionId ≠ k || isTerminalTurnStatus turn.status

def Manager.storesFinished (m : Manager) : Bool :=
  m.turns.keys.all fun t => (m.turns.lookup t).all fun turn => !isTerminalTurnStatus turn.status ||
    (m.store.turns.any fun r => r.id = t) && m.store.turns.all fun r => r.id ≠ t || r = turn

def Call.fails (t : String) : Call → Bool
  | .failSession _ turnId _ => turnId = t
  | _ => false

def Call.settlesOnce (s : Server) : Call → Bool
  | .sendInsertTurn w => (s.manager.turns.lookup w.call.turnId).isNone &&
      s.calls.values.all fun c => !c.fails w.call.turnId
  | .respondApply _ resolved => s.manager.unfinished resolved.turnId
  | _ => true

/-- The step brings back no finished turn, and a result for an unfinished one ends it. -/
def settlesOnce : Incident → Server → Bool
  | .live (.serve (.goOn i _)), s => (s.calls.lookup i).all fun c => c.settlesOnce s
  | .live (.serve (.waited _ result)), s => s.manager.endsTurn result
  | .live (.recover answers), s => s.manager.keepsTurns answers
  | .live (.restart _), s => s.manager.storesFinished
  | .result result, s => s.manager.endsTurn result
  | _, _ => true

/-! ## What a settlement may do -/

def Incident.result? : Incident → Option ProviderTurnResult
  | .live (.serve (.waited _ r)) => some r
  | .result r => some r
  | _ => none

def settlement : Incident → Server → Bool
  | .live (.serve (.start _ (.respondApproval _ _ _))), _ => true
  | .live (.serve (.goOn i _)), s => (s.calls.lookup i).any fun
    | .respondLock _ _ _ _ | .respond _ _ | .respondApply _ _ | .failSession _ _ _ => true
    | _ => false
  | .live (.serve (.waited _ _)), _ | .live (.serve (.waitFailed _ _ _)), _ | .live (.recover _), _ => true
  | .result _, _ | .waitFailure _ _ _, _ => true
  | _, _ => false

/-- Session `sid` named turn `t` and does no more. -/
def LetsGo (m m' : Manager) (sid t : String) : Prop := Names m sid t ∧ ¬ Names m' sid t

structure Settles (e : Incident) (s s' : Server) : Prop where
  /-- the active marker is released only when the turn is over -/
  released : settlement e s = true → ∀ sid t turn, LetsGo s.manager s'.manager sid t →
    s'.manager.turns.lookup t = some turn → turn.sessionId = sid → isTerminalTurnStatus turn.status = true
  /-- a repeated result changes nothing but the wait it answers -/
  repeated : ∀ result turn, e.result? = some result → s.manager.turns.lookup result.turnId = some turn →
    isTerminalTurnStatus turn.status = true → turn.status = result.status.toTurnStatus →
      s' = { s with manager := { s.manager with waits := s'.manager.waits } }
  conflicting : ∀ result turn, e.result? = some result → s.manager.turns.lookup result.turnId = some turn →
    isTerminalTurnStatus turn.status = true → turn.status ≠ result.status.toTurnStatus →
      s'.manager.turns = s.manager.turns

/-! ## How turns change -/

/-- Turn `t` is new or changed, from an unfinished record to a well-formed one. -/
structure TurnChanges (m m' : Manager) (before : Option Call) (t : String) (turn' : TurnRecord) : Prop where
  stored : m'.turns.lookup t = some turn'
  key : turn'.id = t
  completed : CompletedWhenOver turn'
  was : ∀ turn, m.turns.lookup t = some turn → isTerminalTurnStatus turn.status = false
  born : m.turns.lookup t = none → ∃ w, before = some (.sendInsertTurn w) ∧ w.call.turnId = t

def TurnsSettle (m m' : Manager) (before : Option Call) : Prop :=
  ∀ t, m'.turns.lookup t = m.turns.lookup t ∨ ∃ turn', TurnChanges m m' before t turn'

structure TurnsSound (m : Manager) : Prop where
  key : ∀ t turn, m.turns.lookup t = some turn → turn.id = t
  completed : ∀ t turn, m.turns.lookup t = some turn → CompletedWhenOver turn

section

variable {m m' : Manager} {before : Option Call}

theorem turnsSettle_congr (h : m'.turns = m.turns) : TurnsSettle m m' before := fun t => .inl (by rw [h])

theorem TurnsSettle.sound (h : TurnsSettle m m' before) (hm : TurnsSound m) : TurnsSound m' := by
  constructor <;> intro t turn ht <;> rcases h t with hsame | ⟨turn', hc⟩
  · exact hm.key t turn (hsame ▸ ht)
  · obtain rfl := Option.some.inj (hc.stored.symm.trans ht)
    exact hc.key
  · exact hm.completed t turn (hsame ▸ ht)
  · obtain rfl := Option.some.inj (hc.stored.symm.trans ht)
    exact hc.completed

theorem TurnsSettle.stays (h : TurnsSettle m m' before) {t : String} {turn : TurnRecord}
    (ht : m.turns.lookup t = some turn) (hover : isTerminalTurnStatus turn.status = true) :
    m'.turns.lookup t = some turn := by
  rcases h t with hsame | ⟨turn', hc⟩
  · exact hsame.trans ht
  · rw [hc.was turn ht] at hover
    cases hover

theorem TurnsSound.completedAt (hm : TurnsSound m) {t : String} {turn : TurnRecord}
    (ht : m.turns.lookup t = some turn) (hopen : isTerminalTurnStatus turn.status = false) :
    turn.completedAt = none := by
  have h := hm.completed t turn ht
  rw [CompletedWhenOver, hopen] at h
  simpa using h

theorem turnsSettle_insert {key : String} {turn : TurnRecord} (h : m'.turns = m.turns.insert key turn)
    (hkey : turn.id = key) (hcompleted : CompletedWhenOver turn)
    (hwas : ∀ old, m.turns.lookup key = some old → isTerminalTurnStatus old.status = false)
    (hborn : m.turns.lookup key = none → ∃ w, before = some (.sendInsertTurn w) ∧ w.call.turnId = key) :
    TurnsSettle m m' before := by
  intro t
  rw [h, Table.lookup_insert]
  by_cases ht : t = key
  · subst ht
    exact .inr ⟨turn, by rw [h, Table.lookup_insert, if_pos rfl], hkey, hcompleted, hwas, hborn⟩
  · exact .inl (if_neg ht)

theorem turnsSettle_update {key : String} {f : TurnRecord → TurnRecord} (h : m'.turns = m.turns.update key f)
    (hf : ∀ turn, m.turns.lookup key = some turn →
      (f turn).id = key ∧ CompletedWhenOver (f turn) ∧ isTerminalTurnStatus turn.status = false) :
    TurnsSettle m m' before := by
  cases hl : m.turns.lookup key with
  | none =>
    refine turnsSettle_congr (h.trans ?_)
    simp [Table.update, hl]
  | some turn =>
    obtain ⟨hkey, hcompleted, hopen⟩ := hf turn hl
    have hset : m'.turns = m.turns.insert key (f turn) := by
      rw [h]
      simp [Table.update, hl]
    refine turnsSettle_insert hset hkey hcompleted (fun old hold => ?_) fun hnone => ?_
    · obtain rfl := Option.some.inj (hl.symm.trans hold)
      exact hopen
    · rw [hl] at hnone
      cases hnone

theorem unfinished_iff {t : String} : m.unfinished t = true ↔
    ∀ turn, m.turns.lookup t = some turn → isTerminalTurnStatus turn.status = false := by
  simp [Manager.unfinished, Option.all_eq_true]

/-! ## Each incident settles turns -/

theorem Moves.turnsSettle (hm : TurnsSound m) {after : Option Call} (h : Moves m before after m')
    (hnew : ∀ w, before = some (.sendInsertTurn w) → m.turns.lookup w.call.turnId = none)
    (happlies : ∀ c resolved, before = some (.respondApply c resolved) → m.unfinished resolved.turnId = true) :
    TurnsSettle m m' before := by
  cases h with
  | stopped quiet | createBegun quiet | createStored quiet | closeBegun quiet | closeStored quiet
  | resumeBegun quiet | resumeStored quiet | sendBegun quiet | sendSettled quiet | interruptBegun quiet
  | respondBegun quiet | respondChecked quiet => exact turnsSettle_congr quiet.turns
  | createInserted sets | closeInserted sets | resumeInserted sets | worktreeSet sets | sessionInserted sets
  | approvalInserted sets | respondResolved sets | sessionFailed sets => exact turnsSettle_congr sets.turns
  | @turnInserted w _ sets =>
    refine turnsSettle_insert sets.turns ?_ w.completedWhenOver (fun old hold => ?_) fun _ => ⟨w, rfl, rfl⟩
    · obtain ⟨c, _ | ⟨e, now⟩⟩ := w <;> rfl
    · rw [hnew w rfl] at hold
      cases hold
  | @acceptApplied c resolved _ decision applied =>
    obtain ⟨sessions, waits, sets, -, -⟩ := applied.writes
    refine turnsSettle_update sets.turns fun turn ht => ?_
    have hopen := unfinished_iff.mp (happlies c resolved rfl) turn ht
    refine ⟨hm.key _ turn ht, ?_, hopen⟩
    simp [CompletedWhenOver, acceptedTurn, hm.completedAt ht hopen, isTerminalTurnStatus]
  | @declineApplied c resolved _ decision applied =>
    obtain ⟨sessions, waits, sets, -, -⟩ := applied.writes
    refine turnsSettle_update sets.turns fun turn ht => ⟨hm.key _ turn ht, rfl, ?_⟩
    exact unfinished_iff.mp (happlies c resolved rfl) turn ht

theorem endsTurn_iff {result : ProviderTurnResult} : m.endsTurn result = true ↔
    ∀ turn, Ends m result turn → result.status ≠ .inProgress := by
  simp only [Manager.endsTurn, Option.all_eq_true, Bool.or_eq_true, decide_eq_true_eq]
  constructor
  · intro h turn hends
    refine (h turn hends.found).resolve_left ?_
    rw [hends.running]
    simp [hends.owner]
  · intro h turn ht
    by_cases ho : turn.sessionId = result.runtimeSessionId
    · by_cases hover : isTerminalTurnStatus turn.status = true
      · exact .inl (.inr hover)
      · exact .inr (h turn ⟨ht, ho, by simpa using hover⟩)
    · exact .inl (.inl ho)

theorem finishedTurn_over {result : ProviderTurnResult} (h : result.status ≠ .inProgress) (now : ℤ)
    (turn : TurnRecord) : isTerminalTurnStatus (finishedTurn result now turn).status = true := by
  cases hst : result.status <;>
    simp [finishedTurn, hst, ProviderTurnStatus.toTurnStatus, isTerminalTurnStatus] at h ⊢

theorem ResultApplied.turnsSettle {result : ProviderTurnResult} (hm : TurnsSound m) (h : ResultApplied m result m')
    (hends : m.endsTurn result = true) : TurnsSettle m m' none := by
  cases h with
  | nothing quiet => exact turnsSettle_congr quiet.turns
  | conflict _ _ _ _ _ _ sets => exact turnsSettle_congr sets.turns
  | ended turn sessions ends sets =>
    have hover := finishedTurn_over (endsTurn_iff.mp hends turn ends) m.clock turn
    refine turnsSettle_insert sets.turns (hm.key _ turn ends.found) ?_ (fun old hold => ?_) fun hnone => ?_
    · rw [CompletedWhenOver, hover]
      rfl
    · obtain rfl := Option.some.inj (ends.found.symm.trans hold)
      exact ends.running
    · rw [ends.found] at hnone
      cases hnone

theorem waitFails_turnsSettle (hm : TurnsSound m) (turnId : String) (error : RuntimeError) :
    After (applyTerminalFailureTurn turnId error) m fun _ m' => TurnsSettle m m' none ∧ m'.sessions = m.sessions ∧
      ∀ turn, m'.turns.lookup turnId = some turn → isTerminalTurnStatus turn.status = true := by
  refine (applyTerminalFailureTurn_after turnId error).mono fun _ m' h => ?_
  rcases h with ⟨quiet, -, hover⟩ | ⟨sets, -, turn₀, ht₀, hopen⟩
  · exact ⟨turnsSettle_congr quiet.turns, quiet.sessions, fun turn ht => hover turn (quiet.turns ▸ ht)⟩
  · refine ⟨turnsSettle_update sets.turns fun turn ht => ?_, sets.sessions, fun turn ht => ?_⟩
    · obtain rfl := Option.some.inj (ht₀.symm.trans ht)
      exact ⟨hm.key _ turn₀ ht₀, rfl, hopen⟩
    · rw [sets.turns, Table.lookup_update, if_pos rfl, ht₀] at ht
      obtain rfl := Option.some.inj ht
      rfl

theorem Kept.turn {answers : RecoveryAnswers} (hk : Keyed m) (h : Kept answers m m') (t : String) :
    m'.turns.lookup t = m.turns.lookup t ∨ ∃ turn, m.turns.lookup t = some turn ∧ turn.id = t ∧
      turn.status = .waitingForApproval ∧ m'.turns.lookup t = some (unapprovedTurn m.clock turn) := by
  obtain ⟨ds, dt, da, cur, -, hstage, -, hturns⟩ := h
  rw [hturns, hstage.turns t]
  cases hl : m.turns.lookup t with
  | none => exact .inl rfl
  | some turn =>
    rw [Option.map_some]
    by_cases hfails : dt turn.sessionId = true ∧
        (m.sessions.lookup turn.sessionId).bind (turnToFail answers m) = some turn
    · obtain ⟨session, -, hfail⟩ := Option.bind_eq_some_iff.mp hfails.2
      refine .inr ⟨turn, rfl, hk.turns t turn hl, (turnToFail_spec hk hfail).2.2.1, ?_⟩
      rw [if_pos hfails.1, turnAfter, if_pos hfails.2]
    · left
      split
      · next hd => rw [turnAfter, if_neg fun hf => hfails ⟨hd, hf⟩]
      · rfl

theorem Kept.turnsSettle {answers : RecoveryAnswers} (hk : Keyed m) (h : Kept answers m m') :
    TurnsSettle m m' none := by
  intro t
  rcases h.turn hk t with hsame | ⟨turn, hfound, rfl, hwaiting, hl⟩
  · exact .inl hsame
  · refine .inr ⟨unapprovedTurn m.clock turn, hl, rfl, rfl, fun old hold => ?_, fun hnone => ?_⟩
    · obtain rfl := Option.some.inj (hfound.symm.trans hold)
      rw [hwaiting]
      rfl
    · rw [hfound] at hnone
      cases hnone

/-! ## Active markers -/

theorem letsGo_update {key tid : String} {f : SessionRecord → SessionRecord}
    (h : m'.sessions = m.sessions.update key f) (hf : ∀ r, (f r).activeTurnId = releaseTurn tid r.activeTurnId)
    {sid t : String} (hl : LetsGo m m' sid t) : t = tid := by
  by_contra hne
  refine hl.2 (names_update h hl.1 fun _ session ha => ?_)
  rw [hf, ha]
  exact releaseTurn_of_ne hne

theorem not_letsGo (h : m'.sessions = m.sessions) (sid t : String) : ¬ LetsGo m m' sid t :=
  fun hl => hl.2 ((names_congr h).mpr hl.1)

theorem ResultApplied.released {result : ProviderTurnResult} (h : ResultApplied m result m')
    (hends : m.endsTurn result = true) {sid t : String} {turn : TurnRecord} (hl : LetsGo m m' sid t)
    (ht : m'.turns.lookup t = some turn) : isTerminalTurnStatus turn.status = true := by
  cases h with
  | nothing quiet => exact absurd hl (not_letsGo quiet.sessions sid t)
  | conflict _ _ _ _ _ _ sets =>
    exact absurd (names_update sets.sessions hl.1 fun _ _ ha => ha) hl.2
  | ended turn₀ sessions ends sets session =>
    have hover := finishedTurn_over (endsTurn_iff.mp hends turn₀ ends) m.clock turn₀
    have htid : t = result.turnId := by
      rcases session with rfl | rfl
      · exact absurd hl (not_letsGo sets.sessions sid t)
      · exact letsGo_update sets.sessions (fun _ => rfl) hl
    rw [sets.turns, Table.lookup_insert, if_pos htid] at ht
    obtain rfl := Option.some.inj ht
    exact hover

theorem keepsTurns_iff {answers : RecoveryAnswers} : m.keepsTurns answers = true ↔
    ∀ k session t turn, m.sessions.lookup k = some session → refused answers m.providers session = true →
      session.activeTurnId = some t → m.turns.lookup t = some turn → turn.sessionId = k →
        isTerminalTurnStatus turn.status = true := by
  simp only [Manager.keepsTurns, List.all_eq_true, Option.all_eq_true, Bool.or_eq_true, Bool.not_eq_true',
    decide_eq_true_eq]
  constructor
  · intro h k session t turn hs hr ha ht ho
    rcases h k (AList.mem_keys.mp (Table.lookup_isSome hs)) session hs with hnot | h
    · rw [hr] at hnot
      cases hnot
    · exact (h t ha turn ht).resolve_left (absurd ho)
  · intro h k _ session hs
    by_cases hr : refused answers m.providers session = true
    · refine .inr fun t ha turn ht => ?_
      by_cases ho : turn.sessionId = k
      · exact .inr (h k session t turn hs hr ha ht ho)
      · exact .inl ho
    · exact .inl (by simpa using hr)

/-- A session that is not refused and names an unfinished turn of its own keeps naming it, unless the turn fails. -/
theorem sessionAfter_names {answers : RecoveryAnswers} {session : SessionRecord} {t : String} {turn : TurnRecord}
    (ha : session.activeTurnId = some t) (hrefused : refused answers m.providers session = false)
    (ht : m.turns.lookup t = some turn) (ho : turn.sessionId = session.id)
    (hopen : isTerminalTurnStatus turn.status = false) :
    (sessionAfter answers m session).activeTurnId = some t ∨ turnToFail answers m session = some turn := by
  have hres := resumed answers m.providers session
  have hactive : (resumedSession answers m.providers session).activeTurnId = some t := by
    simp only [refused, Bool.and_eq_false_iff, Bool.or_eq_false_iff, Bool.not_eq_false'] at hrefused
    unfold resumedSession
    split
    · exact ha
    · next hended =>
      obtain ⟨href, hanswer⟩ := hrefused.resolve_left hended
      split
      · next hnone =>
        rw [hnone] at href
        cases href
      · exact ha
      · exact ha
      · next herror =>
        rw [herror] at hanswer
        cases hanswer
  have howner : turn.sessionId = (resumedSession answers m.providers session).id := ho.trans hres.origin.id.symm
  have hkeeps : (repairedSession answers m session).activeTurnId = some t ∨ turnToFail answers m session = some turn := by
    by_cases hwaiting : turn.status = .waitingForApproval
    · cases hpending : pendingApprovalForTurn m.approvals (resumedSession answers m.providers session).id turn.id with
      | true => simp [repairedSession, reconciledSession, hactive, ht, howner, isTerminalTurnStatus, hwaiting, hpending]
      | false => simp [turnToFail, unapprovedTurnOf, hactive, ht, howner, hwaiting, hpending]
    · left
      simp only [repairedSession, reconciledSession, hactive, ht, howner, ne_eq, not_true_eq_false, if_false, hopen,
        Bool.false_eq_true, hwaiting]
      split
      · exact ha
      · rfl
  refine hkeeps.imp_left fun hnamed => ?_
  unfold sessionAfter
  split
  · exact ha
  · exact hnamed

theorem Kept.released {answers : RecoveryAnswers} (hk : Keyed m) (h : Kept answers m m')
    (hcond : m.keepsTurns answers = true) {sid t : String} {turn : TurnRecord} (hl : LetsGo m m' sid t)
    (ht : m'.turns.lookup t = some turn) (ho : turn.sessionId = sid) : isTerminalTurnStatus turn.status = true := by
  obtain ⟨⟨session₀, hs₀, ha₀⟩, hnot⟩ := hl
  by_contra hopen
  have hopen : isTerminalTurnStatus turn.status = false := by simpa using hopen
  -- the turn was not changed
  have hfound : m.turns.lookup t = some turn := by
    rcases h.turn hk t with hsame | ⟨turn', -, -, -, hl'⟩
    · exact hsame ▸ ht
    · obtain rfl := Option.some.inj (hl'.symm.trans ht)
      cases hopen
  have hrefused : refused answers m.providers session₀ = false := by
    by_contra hr
    rw [keepsTurns_iff.mp hcond sid session₀ t turn hs₀ (by simpa using hr) ha₀ hfound ho] at hopen
    cases hopen
  have hid := hk.sessions sid session₀ hs₀
  obtain ⟨ds, dt, da, cur, horder, hstage, hsessions, hturns⟩ := h
  have hs' := hstage.sessions sid
  rw [← hsessions, hs₀, Option.map_some] at hs'
  split at hs'
  · next hd =>
    rcases sessionAfter_names ha₀ hrefused hfound (ho.trans hid.symm) hopen with hnamed | hfails
    · exact hnot ⟨_, hs', hnamed⟩
    · have hafter : turnAfter answers m turn = unapprovedTurn m.clock turn := by
        rw [turnAfter, ho, hs₀]
        exact if_pos hfails
      rw [hturns, hstage.turns t, hfound, Option.map_some, ho, if_pos (horder sid hd), hafter] at ht
      rw [← Option.some.inj ht] at hopen
      cases hopen
  · exact hnot ⟨session₀, hs', ha₀⟩

theorem Applied.letsGo {c : RespondCall} {key : String} {f : TurnRecord → TurnRecord}
    {g : SessionRecord → SessionRecord} (h : Applied m m' c key f g) {sid t : String} (hl : LetsGo m m' sid t) :
    ∃ r, (g r).activeTurnId ≠ r.activeTurnId ∧ r.activeTurnId = some t := by
  obtain ⟨sessions, waits, sets, hss, -⟩ := h.writes
  rcases hss with rfl | rfl
  · exact absurd hl (not_letsGo sets.sessions sid t)
  · by_contra hnone
    push Not at hnone
    refine hl.2 (names_update sets.sessions hl.1 fun _ session ha => ?_)
    by_contra hne
    exact hnone session (fun heq => hne (heq.trans ha)) ha

theorem releaseTurn_changes {tid : String} {active : Option String} (h : releaseTurn tid active ≠ active) :
    active = some tid := by
  unfold releaseTurn at h
  split at h
  · assumption
  · exact absurd rfl h

theorem Moves.released {c : Call} {after : Option Call} (h : Moves m (some c) after m')
    (hc : (∃ kind sid a input, c = .respondLock kind sid a input) ∨ (∃ a d, c = .respond a d) ∨
      (∃ d resolved, c = .respondApply d resolved) ∨ ∃ sid t e, c = .failSession sid t e)
    (hfailing : ∀ sid t e, c = .failSession sid t e → ∀ turn, m.turns.lookup t = some turn →
      isTerminalTurnStatus turn.status = true)
    {sid t : String} {turn : TurnRecord} (hl : LetsGo m m' sid t) (ht : m'.turns.lookup t = some turn) :
    isTerminalTurnStatus turn.status = true := by
  rcases hc with ⟨kind, sid', a, input, rfl⟩ | ⟨a, d, rfl⟩ | ⟨d, resolved, rfl⟩ | ⟨sid', t', e, rfl⟩
  · cases h with
    | stopped quiet | respondChecked quiet | closeStored quiet => exact absurd hl (not_letsGo quiet.sessions sid t)
  · cases h with
    | stopped quiet | closeStored quiet => exact absurd hl (not_letsGo quiet.sessions sid t)
    | respondResolved sets => exact absurd hl (not_letsGo sets.sessions sid t)
  · cases h with
    | stopped quiet | closeStored quiet => exact absurd hl (not_letsGo quiet.sessions sid t)
    | acceptApplied decision applied =>
      obtain ⟨r, hr, -⟩ := applied.letsGo hl
      exact absurd rfl hr
    | declineApplied decision applied =>
      obtain ⟨r, hr, ha⟩ := applied.letsGo hl
      obtain rfl : t = resolved.turnId := Option.some.inj (ha.symm.trans (releaseTurn_changes hr))
      obtain ⟨sessions, waits, sets, -, -⟩ := applied.writes
      rw [sets.turns, Table.lookup_update, if_pos rfl] at ht
      obtain ⟨old, -, rfl⟩ := Option.map_eq_some_iff.mp ht
      rfl
  · cases h with
    | stopped quiet | closeStored quiet => exact absurd hl (not_letsGo quiet.sessions sid t)
    | sessionFailed sets =>
      obtain rfl := letsGo_update sets.sessions (fun _ => rfl) hl
      exact hfailing _ _ _ rfl turn (sets.turns ▸ ht)

/-! ## Results that change nothing -/

theorem applyTerminalResult_repeated {result : ProviderTurnResult} {turn : TurnRecord}
    (ht : m.turns.lookup result.turnId = some turn) (hover : isTerminalTurnStatus turn.status = true)
    (hsame : turn.status = result.status.toTurnStatus) : m.complete (applyTerminalResult result) = m := by
  have h : After (applyTerminalResult result) m fun _ m' => m' = m := by
    simp only [applyTerminalResult, after_bind_iff, after_nowMs, after_get, after_orThrow]
    refine ⟨fun turn' ht' => ?_, fun _ => trivial⟩
    obtain rfl := Option.some.inj (ht.symm.trans ht')
    split
    · exact (after_throw _ _ _).mpr rfl
    · exact (after_pure _ _ _).mpr rfl
  exact h.out

theorem ResultApplied.turns_of_over {result : ProviderTurnResult} (h : ResultApplied m result m') {turn : TurnRecord}
    (ht : m.turns.lookup result.turnId = some turn) (hover : isTerminalTurnStatus turn.status = true) :
    m'.turns = m.turns := by
  cases h with
  | nothing quiet => exact quiet.turns
  | conflict _ _ _ _ _ _ sets => exact sets.turns
  | ended turn' sessions ends =>
    obtain rfl := Option.some.inj (ht.symm.trans ends.found)
    rw [ends.running] at hover
    cases hover

end

/-! ## Runs -/

structure Settling (s : Server) : Prop where
  sessions : Lasts (fun k r => r.id = k) s
  turns : TurnsSound s.manager
  rows : RowsCompleted s.manager
  failing : ∀ i sid t e, s.calls.lookup i = some (.failSession sid t e) →
    ∀ turn, s.manager.turns.lookup t = some turn → isTerminalTurnStatus turn.status = true

/-- Finished turns stay as they are. -/
def FinishedStay (m m' : Manager) : Prop :=
  ∀ t turn, m.turns.lookup t = some turn → isTerminalTurnStatus turn.status = true →
    m'.turns.lookup t = some turn

section

variable {s s' : Server}

theorem TurnsSettle.overStays {m m' : Manager} {before : Option Call} {t : String} (h : TurnsSettle m m' before)
    (hover : ∀ turn, m.turns.lookup t = some turn → isTerminalTurnStatus turn.status = true)
    (hborn : ∀ w, before = some (.sendInsertTurn w) → w.call.turnId ≠ t) :
    ∀ turn, m'.turns.lookup t = some turn → isTerminalTurnStatus turn.status = true := by
  intro turn ht
  rcases h t with hsame | ⟨turn', hc⟩
  · exact hover turn (hsame ▸ ht)
  · cases hold : m.turns.lookup t with
    | none =>
      obtain ⟨w, hw, hid⟩ := hc.born hold
      exact absurd hid (hborn w hw)
    | some old =>
      have hopen := hc.was old hold
      rw [hover old hold] at hopen
      cases hopen

theorem Moves.not_fails {m m' : Manager} {before after : Option Call} (h : Moves m before after m') {sid t : String}
    {e : RuntimeError} : after ≠ some (.failSession sid t e) := by
  rintro rfl
  generalize hafter : some (Call.failSession sid t e) = after at h
  cases h with
  | @sessionInserted w r =>
    rcases r with e | (_ | a) <;> simp only [Except.map, Server.left, Option.map] at hafter <;> cases hafter
  | respondResolved sets next => rcases next with rfl | rfl <;> cases hafter
  | _ => cases hafter

theorem Settling.piece {i : ℕ} {before after : Option Call} {m' : Manager} (h : Settling s)
    (hm : Moves s.manager before after m')
    (hsessions : Lasts (fun k r => r.id = k) ⟨m', Server.put s.calls i after⟩) (hrows : RowsCompleted m')
    (hc : ∀ c, before = some c → c.settlesOnce s = true) :
    Settling ⟨m', Server.put s.calls i after⟩ ∧ FinishedStay s.manager m' := by
  have hturns : TurnsSettle s.manager m' before := by
    refine hm.turnsSettle h.turns (fun w hw => ?_) (fun c resolved hr => hc _ hr)
    have hnew := hc _ hw
    simp only [Call.settlesOnce, Bool.and_eq_true, Option.isNone_iff_eq_none] at hnew
    exact hnew.1
  refine ⟨⟨hsessions, hturns.sound h.turns, hrows, fun j sid t e hj => ?_⟩,
    fun t turn ht hover => hturns.stays ht hover⟩
  rw [Server.lookup_put] at hj
  split at hj
  · exact absurd hj hm.not_fails
  · refine hturns.overStays (h.failing j sid t e hj) fun w hw hid => ?_
    have hnew := hc _ hw
    simp only [Call.settlesOnce, Bool.and_eq_true, List.all_eq_true, Table.mem_values] at hnew
    have hfails := hnew.2 _ ⟨j, hj⟩
    simp [Call.fails, hid] at hfails

/-! ### Events -/

theorem Settling.keyed (h : Settling s) : Keyed s.manager := ⟨h.sessions.each.table, h.turns.key⟩

theorem Settling.same {m' : Manager} (h : Settling s) (hturns : TurnsSettle s.manager m' none)
    (heach : Each (fun k r => r.id = k) m') (hrows : RowsCompleted m') :
    Settling ⟨m', s.calls⟩ ∧ FinishedStay s.manager m' := by
  refine ⟨⟨⟨heach, h.sessions.calls⟩, hturns.sound h.turns, hrows, fun i sid t e hi => ?_⟩,
    fun t turn ht hover => hturns.stays ht hover⟩
  exact hturns.overStays (h.failing i sid t e hi) fun _ hw => (by cases hw)

theorem Settling.dropWait (h : Settling s) (w : ℕ) : Settling (s.dropWait w) :=
  ⟨⟨h.sessions.each.congr rfl rfl, h.sessions.calls⟩, ⟨h.turns.key, h.turns.completed⟩, h.rows, h.failing⟩

theorem settling_result {result : ProviderTurnResult} (h : Settling s) (hends : s.manager.endsTurn result = true) :
    Settling ⟨s.manager.complete (applyTerminalResult result), s.calls⟩ ∧
      FinishedStay s.manager (s.manager.complete (applyTerminalResult result)) := by
  have happlied : ResultApplied s.manager result (s.manager.complete (applyTerminalResult result)) :=
    (applyTerminalResult_after result).out
  exact h.same (happlied.turnsSettle h.turns hends) (applyTerminalResult_each keyed_lasting h.sessions.each result).out
    (applyTerminalResult_rowsCompleted h.rows result (endsTurn_iff.mp hends)).out

theorem waitFailure_after (h : Settling s) (sid t : String) (error : RuntimeError) :
    After (applyTerminalFailure sid t error) s.manager fun _ m' => TurnsSettle s.manager m' none ∧
      ∀ k t' turn, LetsGo s.manager m' k t' → m'.turns.lookup t' = some turn →
        isTerminalTurnStatus turn.status = true := by
  rw [applyTerminalFailure]
  refine after_bind (waitFails_turnsSettle h.turns t error) (fun _ m₁ h₁ => ?_) fun _ m₁ h₁ => ?_
  · obtain ⟨hturns, hsessions, hover⟩ := h₁
    refine (applyTerminalFailureSession_after sid t error).mono fun _ m₂ sets => ⟨fun t' => ?_, ?_⟩
    · have hst := hturns t'
      rw [← sets.turns] at hst
      refine hst.imp id fun hsettled => ?_
      obtain ⟨turn', hc⟩ := hsettled
      exact ⟨turn', sets.turns ▸ hc.stored, hc.key, hc.completed, hc.was, hc.born⟩
    · intro k t' turn hl ht
      have hset : m₂.sessions = s.manager.sessions.update sid (failedSession t error m₁.clock) := by
        rw [sets.sessions, hsessions]
      obtain rfl := letsGo_update hset (fun _ => rfl) hl
      exact hover turn (sets.turns ▸ ht)
  · exact ⟨h₁.1, fun k t' turn hl => absurd hl (not_letsGo h₁.2.1 k t')⟩

theorem applyTerminalFailure_each (h : Settling s) (sid t : String) (error : RuntimeError) :
    After (applyTerminalFailure sid t error) s.manager fun _ m' =>
      Each (fun k r => r.id = k) m' ∧ RowsCompleted m' := by
  have hturn := (applyTerminalFailureTurn_each h.sessions.each t error).and
    (applyTerminalFailureTurn_rowsCompleted h.rows t error)
  refine after_bind hturn (fun _ m' h => ?_) fun _ _ h => h
  exact (applyTerminalFailureSession_each keyed_lasting h.1 sid t error).and
    (rowsCompleted_of_same (allows_sameTurnRows.applyTerminalFailureSession sid t error) h.2)

theorem settling_serve {l : Label} (h : Settling s) (hp : settlesOnce (.live (.serve l)) s = true)
    (hs : Server.step l s = some s') : Settling s' ∧ FinishedStay s.manager s'.manager := by
  have hlasts : Lasts (fun k r => r.id = k) s' := lasts_step keyed_lasting h.sessions hs
  cases l with
  | start i op =>
    simp only [Server.step] at hs
    split at hs
    · cases hs
    · next hi =>
      obtain rfl := Option.some.inj hs
      exact h.piece (begin_moves op).out hlasts (rowsCompleted_of_same (allows_sameTurnRows.begin op) h.rows).out
        fun _ hc => (by cases hc)
  | goOn i answer =>
    simp only [Server.step, Option.bind_eq_bind, Option.bind_eq_some_iff] at hs
    obtain ⟨c, hc, piece, hpiece, hs⟩ := hs
    have hcall : c.settlesOnce s = true := by
      simpa [settlesOnce, hc] using hp
    split at hs
    · cases hs
    · obtain rfl := Option.some.inj hs
      refine h.piece (goOn_moves hpiece).out hlasts (goOn_rowsCompleted h.rows hpiece ?_).out
        fun _ he => Option.some.inj he ▸ hcall
      rintro d resolved turn rfl ht
      exact h.turns.completedAt ht (unfinished_iff.mp hcall turn ht)
  | waited w result =>
    simp only [Server.step] at hs
    split at hs
    · obtain rfl := Option.some.inj hs
      exact settling_result (h.dropWait w) hp
    · cases hs
  | waitFailed w i error =>
    simp only [Server.step, Option.bind_eq_bind, Option.bind_eq_some_iff] at hs
    obtain ⟨task, -, hs⟩ := hs
    split at hs
    · cases hs
    obtain rfl := Option.some.inj hs
    have hd := h.dropWait w
    have hpiece := (waitFails_turnsSettle hd.turns task.turnId error).and
      (applyTerminalFailureTurn_rowsCompleted hd.rows task.turnId error)
    have hafter := after_then (f := fun _ => some (.failSession task.sessionId task.turnId error))
      (R := fun after m' => (TurnsSettle (s.dropWait w).manager m' none ∧ RowsCompleted m') ∧
        ∀ sid t e, after = some (.failSession sid t e) → ∀ turn, m'.turns.lookup t = some turn →
          isTerminalTurnStatus turn.status = true) hpiece
      (fun _ m' hq => ⟨⟨hq.1.1, hq.2⟩, fun _ _ _ he => ?_⟩)
      (fun _ m' hq => ⟨⟨hq.1.1, hq.2⟩, fun _ _ _ he => (by cases he)⟩)
    · obtain ⟨⟨hturns, hrows⟩, hfails⟩ := hafter.out
      refine ⟨⟨hlasts, hturns.sound hd.turns, hrows, fun j sid t e hj => ?_⟩,
        fun t turn ht hover => hturns.stays ht hover⟩
      simp only [Server.settle, Server.lookup_put] at hj
      split at hj
      · exact hfails sid t e hj
      · exact hturns.overStays (h.failing j sid t e hj) fun _ hw => (by cases hw)
    · obtain ⟨rfl, rfl, rfl⟩ := Call.failSession.inj (Option.some.inj he)
      exact hq.1.2.2
  | tick now =>
    obtain rfl := Server.step_tick hs
    exact h.same (turnsSettle_congr rfl) hlasts.each h.rows

theorem settling_incident {e : Incident} (h : Settling s) (hp : settlesOnce e s = true)
    (hs : Server.incident e s = some s') : Settling s' ∧ FinishedStay s.manager s'.manager := by
  cases e with
  | result result =>
    obtain rfl := Option.some.inj hs
    exact settling_result h hp
  | waitFailure sid t error =>
    obtain rfl := Option.some.inj hs
    have heach := (applyTerminalFailure_each h sid t error).out
    exact h.same (waitFailure_after h sid t error).out.1 heach.1 heach.2
  | live ev =>
    cases ev with
    | serve l => exact settling_serve h hp hs
    | recover answers =>
      obtain rfl := Option.some.inj hs
      exact h.same ((recoverStartup_kept h.keyed).out.turnsSettle h.keyed)
        (recoverStartup_each keyed_lasting h.sessions.each answers).out
        (recoverStartup_rowsCompleted h.rows answers).out
    | restart providers =>
      have hlasts := lasts_live (e := .restart providers) keyed_lasting h.sessions hs
      obtain rfl := Option.some.inj hs
      have hsound : TurnsSound (Manager.new s.manager.store providers s.manager.clock) :=
        ⟨fun t turn ht => (Manager.new_turns ht).2, fun t turn ht => h.rows turn (Manager.new_turns ht).1⟩
      refine ⟨⟨hlasts, hsound, h.rows, fun i _ _ _ hi => by simp [Server.start] at hi⟩, fun t turn ht hover => ?_⟩
      simp only [settlesOnce, Manager.storesFinished, List.all_eq_true, Option.all_eq_true] at hp
      have hstored := hp t (AList.mem_keys.mp (Table.lookup_isSome ht)) turn ht
      simp only [hover, Bool.not_true, Bool.false_or, Bool.and_eq_true, List.any_eq_true, List.all_eq_true,
        Bool.or_eq_true, decide_eq_true_eq] at hstored
      obtain ⟨⟨r, hr, rfl⟩, hall⟩ := hstored
      obtain ⟨turn', ht'⟩ := Option.isSome_iff_exists.mp (Manager.new_turns_isSome providers s.manager.clock hr)
      obtain ⟨hmem, hid⟩ := Manager.new_turns ht'
      obtain rfl := (hall turn' hmem).resolve_left (absurd hid)
      exact ht'

/-! ### What an incident does -/

theorem settles_of_no_result {e : Incident} (hresult : e.result? = none)
    (hreleased : settlement e s = true → ∀ sid t turn, LetsGo s.manager s'.manager sid t →
      s'.manager.turns.lookup t = some turn → turn.sessionId = sid → isTerminalTurnStatus turn.status = true) :
    Settles e s s' := by
  refine ⟨hreleased, fun result turn he => ?_, fun result turn he => ?_⟩
  · rw [hresult] at he
    cases he
  · rw [hresult] at he
    cases he

theorem settles_serve {l : Label} (h : Settling s) (hp : settlesOnce (.live (.serve l)) s = true)
    (hs : Server.step l s = some s') : Settles (.live (.serve l)) s s' := by
  cases l with
  | start i op =>
    refine settles_of_no_result rfl fun hsettlement sid t turn hl => ?_
    cases op with
    | respondApproval sessionId approvalId input =>
      simp only [Server.step] at hs
      split at hs
      · cases hs
      · obtain rfl := Option.some.inj hs
        have hsame := after_then (f := fun kind => some (Call.respondLock kind sessionId approvalId input))
          (R := fun _ m' => m' = s.manager) (respondApprovalBegin_after (m := s.manager) sessionId)
          (fun _ m' hm => hm.1) fun _ m' hm => hm.1
        exact absurd hl (not_letsGo (congrArg Manager.sessions hsame.out) sid t)
    | _ => cases hsettlement
  | goOn i answer =>
    refine settles_of_no_result rfl fun hsettlement sid t turn hl ht _ => ?_
    obtain ⟨c, after, m', hc, -, hmoves, rfl⟩ := Server.step_goOn hs
    refine hmoves.released ?_ (fun sid t e he => h.failing i sid t e (he ▸ hc)) hl ht
    simp only [settlement, hc, Option.any_some] at hsettlement
    cases c with
    | respondLock kind sid a input => exact .inl ⟨kind, sid, a, input, rfl⟩
    | respond a d => exact .inr (.inl ⟨a, d, rfl⟩)
    | respondApply d resolved => exact .inr (.inr (.inl ⟨d, resolved, rfl⟩))
    | failSession sid t e => exact .inr (.inr (.inr ⟨sid, t, e, rfl⟩))
    | _ => cases hsettlement
  | waited w result =>
    simp only [Server.step] at hs
    split at hs
    · obtain rfl := Option.some.inj hs
      have happlied : ResultApplied (s.dropWait w).manager result ((s.dropWait w).manager.complete
        (applyTerminalResult result)) := (applyTerminalResult_after result).out
      refine ⟨fun _ sid t turn hl ht _ => happlied.released hp hl ht, fun r turn he ht hover hsame => ?_,
        fun r turn he ht hover _ => ?_⟩
      · obtain rfl := Option.some.inj he
        have hrepeated := applyTerminalResult_repeated (m := (s.dropWait w).manager) ht hover hsame
        rw [Manager.complete] at hrepeated
        rw [hrepeated]
        rfl
      · obtain rfl := Option.some.inj he
        exact happlied.turns_of_over ht hover
    · cases hs
  | waitFailed w i error =>
    refine settles_of_no_result rfl fun _ sid t turn hl => ?_
    obtain ⟨task, after, m', -, -, hf, rfl⟩ := Server.step_waitFailed hs
    cases hf with
    | wasOver quiet => exact absurd hl (not_letsGo quiet.sessions sid t)
    | failed sets => exact absurd hl (not_letsGo sets.sessions sid t)
  | tick now => exact settles_of_no_result rfl fun hsettlement => by cases hsettlement

theorem settles_incident {e : Incident} (h : Settling s) (hp : settlesOnce e s = true)
    (hs : Server.incident e s = some s') : Settles e s s' := by
  cases e with
  | result result =>
    obtain rfl := Option.some.inj hs
    have happlied : ResultApplied s.manager result (s.manager.complete (applyTerminalResult result)) :=
      (applyTerminalResult_after result).out
    refine ⟨fun _ sid t turn hl ht _ => happlied.released hp hl ht, fun r turn he ht hover hsame => ?_,
      fun r turn he ht hover _ => ?_⟩
    · obtain rfl := Option.some.inj he
      rw [applyTerminalResult_repeated ht hover hsame]
    · obtain rfl := Option.some.inj he
      exact happlied.turns_of_over ht hover
  | waitFailure sid t error =>
    obtain rfl := Option.some.inj hs
    exact settles_of_no_result rfl fun _ k t' turn hl ht _ => (waitFailure_after h sid t error).out.2 k t' turn hl ht
  | live ev =>
    cases ev with
    | serve l => exact settles_serve h hp hs
    | recover answers =>
      obtain rfl := Option.some.inj hs
      exact settles_of_no_result rfl fun _ sid t turn hl ht ho =>
        (recoverStartup_kept h.keyed).out.released h.keyed hp hl ht ho
    | restart providers => exact settles_of_no_result rfl fun hsettlement => by cases hsettlement

theorem settling_start (providers : List ProviderKind) (faults : List Bool) :
    Settling (Server.start (Manager.empty providers faults)) := by
  refine ⟨lasts_start _ providers faults, ⟨fun t turn ht => ?_, fun t turn ht => ?_⟩, fun r hr => ?_,
    fun i sid t e hi => ?_⟩
  · simp [Server.start, Manager.empty] at ht
  · simp [Server.start, Manager.empty] at ht
  · simp [turnRows, Server.start, Manager.empty, Store.empty] at hr
  · simp [Server.start] at hi

end

/-- A turn is settled once: what is over keeps its record, and every step that ends a turn settles it. -/
theorem settled_once {providers : List ProviderKind} {faults : List Bool} {s s' : Server}
    (hs : Reaches Server.incident (fun e s => settlesOnce e s = true)
      (Server.start (Manager.empty providers faults)) s)
    (hs' : Reaches Server.incident (fun e s => settlesOnce e s = true) s s') :
    (∀ t turn, s'.manager.turns.lookup t = some turn → CompletedWhenOver turn) ∧
      FinishedStay s.manager s'.manager ∧
        ∀ e u, settlesOnce e s' = true → Server.incident e s' = some u → Settles e s' u := by
  have hsettling : Settling s :=
    hs.invariant (settling_start providers faults) fun _ _ _ h hp hi => (settling_incident h hp hi).1
  have hlater : Settling s' ∧ FinishedStay s.manager s'.manager := by
    refine hs'.invariant (I := fun u => Settling u ∧ FinishedStay s.manager u.manager)
      ⟨hsettling, fun _ _ ht _ => ht⟩ fun e u v h hp hi => ?_
    obtain ⟨hv, hstay⟩ := settling_incident h.1 hp hi
    exact ⟨hv, fun t turn ht hover => hstay t turn (h.2 t turn ht hover) hover⟩
  exact ⟨hlater.1.turns.completed, hlater.2, fun e u hp hi => settles_incident hlater.1 hp hi⟩

def runningTurn : List Incident :=
  [.live (.serve (.start 0 (.createSession ⟨.codex, none, none, none, none⟩))),
    .live (.serve (.goOn 0 (.session (.ok ⟨"sess_codex_0_1", "ref", none⟩)))), .live (.serve (.goOn 0 .lock)),
    .live (.serve (.start 1 (.sendTurn "sess_codex_0_1" ⟨[], none, none⟩))),
    .live (.serve (.goOn 1 (.ack (.ok ⟨"sess_codex_0_1", "turn_codex_0_3"⟩)))), .live (.serve (.goOn 1 .lock)),
    .live (.serve (.goOn 1 .lock)),
    .live (.serve (.waited 0 ⟨"sess_codex_0_1", "turn_codex_0_3", .completed, none, none⟩))]

/-- Later the process restarts, recovers and gets the result once more, then one that conflicts. -/
def laterResults : List Incident :=
  [.live (.restart [.codex]), .live (.recover ⟨fun _ => .ok (), fun _ => .error (.invalidState "gone")⟩),
    .result ⟨"sess_codex_0_1", "turn_codex_0_3", .completed, none, none⟩,
    .result ⟨"sess_codex_0_1", "turn_codex_0_3", .failed, none, none⟩]

theorem settled_once_runningTurn : ∃ s s' : Server,
    ((s.manager.turns.lookup "turn_codex_0_3").map TurnRecord.status = some .completed) ∧
      FinishedStay s.manager s'.manager := by
  obtain ⟨s, hs, he⟩ := exists_reaches_of_runAll Server.incident settlesOnce runningTurn
    (fun s => ((s.manager.turns.lookup "turn_codex_0_3").map TurnRecord.status,
      (runAll (guarded Server.incident settlesOnce) laterResults s).map fun t => t.manager.turns.keys))
    (some .completed, some ["turn_codex_0_3"]) (s := Server.start (Manager.empty [.codex] [])) (by decide +kernel)
  obtain ⟨hst, hrun⟩ := Prod.mk.inj he
  obtain ⟨t, ht, -⟩ := exists_reaches_of_runAll Server.incident settlesOnce _ _ _ hrun
  exact ⟨s, t, hst, (settled_once hs ht).2.1⟩

/-- The turn gets an `in_progress` result. -/
def unrecognizedResult : List Incident :=
  runningTurn.dropLast ++ [.live (.serve (.waited 0 ⟨"sess_codex_0_1", "turn_codex_0_3", .inProgress, none, none⟩))]

theorem not_settled_once : ¬ ∀ (providers : List ProviderKind) (faults : List Bool) (s : Server),
    Reaches Server.incident (fun _ _ => True) (Server.start (Manager.empty providers faults)) s →
      ∀ t turn, s.manager.turns.lookup t = some turn → CompletedWhenOver turn := by
  intro hall
  obtain ⟨s, hs, he⟩ := exists_reaches_of_runAll Server.incident (fun _ _ => true) unrecognizedResult
    (fun s => (s.manager.turns.lookup "turn_codex_0_3").map fun turn => (turn.status, turn.completedAt))
    (some (.inProgress, some 0)) (s := Server.start (Manager.empty [.codex] [])) (by decide +kernel)
  obtain ⟨turn, ht, hturn⟩ := Option.map_eq_some_iff.mp he
  obtain ⟨hstatus, hcompleted⟩ := Prod.mk.inj hturn
  have hover := hall [.codex] [] s (hs.mono fun _ _ _ => trivial) "turn_codex_0_3" turn ht
  rw [CompletedWhenOver, hstatus, hcompleted] at hover
  cases hover

end Gooselake.Runtime
