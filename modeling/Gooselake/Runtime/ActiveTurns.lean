import Gooselake.Runtime.Turns

/-! Unfinished turns and the turn a session names, after each kind of change of the maps. -/

namespace Gooselake.Runtime

open Gooselake.Core Data Library Library.Exec

set_option autoImplicit false

/-- Turn `t` is a stored turn of the session and not over. -/
def Unfinished (m : Manager) (sessionId t : String) : Prop :=
  ∃ turn, m.turns.lookup t = some turn ∧ turn.sessionId = sessionId ∧ isTerminalTurnStatus turn.status = false

/-- The session's active turn id is `t`. -/
def Names (m : Manager) (sessionId t : String) : Prop :=
  ∃ session, m.sessions.lookup sessionId = some session ∧ session.activeTurnId = some t

section

variable {m m' : Manager} {sessionId t : String}

theorem unfinished_congr (h : m'.turns = m.turns) :
    Unfinished m' sessionId t ↔ Unfinished m sessionId t := by
  rw [Unfinished, Unfinished, h]

theorem unfinished_insert {key : String} {turn : TurnRecord}
    (h : m'.turns = m.turns.insert key turn) (ht : Unfinished m' sessionId t) :
    (t = key ∧ turn.sessionId = sessionId ∧ isTerminalTurnStatus turn.status = false) ∨
      (t ≠ key ∧ Unfinished m sessionId t) := by
  obtain ⟨turn', hl, hc⟩ := ht
  rw [h, Table.lookup_insert] at hl
  split at hl
  · next he =>
    obtain rfl := Option.some.inj hl
    exact .inl ⟨he, hc⟩
  · next he => exact .inr ⟨he, turn', hl, hc⟩

theorem unfinished_update {key : String} {f : TurnRecord → TurnRecord}
    (h : m'.turns = m.turns.update key f) (ht : Unfinished m' sessionId t) :
    (t = key ∧ ∃ turn, m.turns.lookup key = some turn ∧ (f turn).sessionId = sessionId ∧
        isTerminalTurnStatus (f turn).status = false) ∨
      (t ≠ key ∧ Unfinished m sessionId t) := by
  obtain ⟨turn', hl, hc⟩ := ht
  rw [h, Table.lookup_update] at hl
  split at hl
  · next he =>
    obtain ⟨turn, hturn, rfl⟩ := Option.map_eq_some_iff.mp hl
    exact .inl ⟨he, turn, hturn, hc⟩
  · next he => exact .inr ⟨he, turn', hl, hc⟩

theorem names_congr (h : m'.sessions = m.sessions) :
    Names m' sessionId t ↔ Names m sessionId t := by
  rw [Names, Names, h]

theorem names_insert {key : String} {record : SessionRecord}
    (h : m'.sessions = m.sessions.insert key record) (hn : Names m sessionId t)
    (hrecord : key = sessionId → record.activeTurnId = some t) : Names m' sessionId t := by
  obtain ⟨session, hs, ha⟩ := hn
  by_cases he : sessionId = key
  · exact ⟨record, by rw [h, Table.lookup_insert, if_pos he], hrecord he.symm⟩
  · exact ⟨session, by rw [h, Table.lookup_insert, if_neg he]; exact hs, ha⟩

theorem names_update {key : String} {f : SessionRecord → SessionRecord}
    (h : m'.sessions = m.sessions.update key f) (hn : Names m sessionId t)
    (hf : key = sessionId → ∀ session, session.activeTurnId = some t → (f session).activeTurnId = some t) :
    Names m' sessionId t := by
  obtain ⟨session, hs, ha⟩ := hn
  by_cases he : sessionId = key
  · refine ⟨f session, ?_, hf he.symm session ha⟩
    rw [h, Table.lookup_update, if_pos he, ← he, hs]
    rfl
  · exact ⟨session, by rw [h, Table.lookup_update, if_neg he]; exact hs, ha⟩

theorem releaseTurn_of_ne {t t' : String} (h : t ≠ t') : releaseTurn t' (some t) = some t := by
  simp [releaseTurn, h]

theorem SendWrite.turn_sessionId (w : SendWrite) : w.turn.sessionId = w.call.sessionId := by
  obtain ⟨c, _ | ⟨e, now⟩⟩ := w <;> rfl

theorem SendWrite.turn_unfinished (w : SendWrite) :
    isTerminalTurnStatus w.turn.status = false ↔ w.failure = none := by
  obtain ⟨c, _ | ⟨e, now⟩⟩ := w
  · cases h : c.approvalId.isSome <;> simp [SendWrite.turn, SendCall.turn, isTerminalTurnStatus, h]
  · simp [SendWrite.turn, SendCall.failedTurn, isTerminalTurnStatus]

theorem SendWrite.session_activeTurnId {w : SendWrite} (h : w.failure = none) :
    w.session.activeTurnId = some w.call.turnId := by
  simp [SendWrite.session, h, SendCall.updatedSession]

end

end Gooselake.Runtime
