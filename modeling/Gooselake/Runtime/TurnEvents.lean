import Gooselake.Runtime.TurnLog
import Gooselake.Runtime.Identifiers

/-!
The events of a turn over a run. A turn is owed its first event by one call or one pending approval at a
time, and as long as it is owed the event its log is empty; a turn whose log has started ends in one event.
-/

namespace Gooselake.Runtime

open Gooselake.Core Data Library Library.Exec

set_option autoImplicit false

/-- The events of the turn: after its start at most one end, and one when the turn is over. -/
structure EndsOnce (m : Manager) (sid turnId : String) : Prop where
  once : ((m.turnLog sid turnId).filter (· ∈ endKinds)).length ≤ 1
  after : ∀ first rest kind, m.turnLog sid turnId = first ++ kind :: rest → kind ∈ endKinds → "turn.started" ∈ first
  ended : ∀ turn, m.turns.lookup turnId = some turn → isTerminalTurnStatus turn.status = true →
    ((m.turnLog sid turnId).filter (· ∈ endKinds)).length = 1

/-- A result that ends its turn finds it started and reaches the event; a wait fails only for a turn that is
absent or over. -/
def endsAnnounced : Label → Server → Bool
  | .waited _ result, s => (s.manager.turns.lookup result.turnId).all fun turn =>
    turn.sessionId ≠ result.runtimeSessionId || isTerminalTurnStatus turn.status || result.status = .inProgress ||
      (decide ("turn.started" ∈ s.manager.turnLog result.runtimeSessionId result.turnId) && s.manager.announces result)
  | .waitFailed w _ _, s => (s.manager.waits[w]?).all fun task =>
    (s.manager.turns.lookup task.turnId).all fun turn => isTerminalTurnStatus turn.status
  | _, _ => true

/-! ## What is owed -/

def Call.owes : Call → Option (String × String)
  | .sendInsertSession w => some (w.call.sessionId, w.call.turnId)
  | .sendInsertApproval approval => some (approval.sessionId, approval.turnId)
  | .respondApply c resolved => some (c.sessionId, resolved.turnId)
  | _ => none

def Server.owes (s : Server) : ℕ ⊕ String → Option (String × String)
  | .inl i => (s.calls.lookup i).bind Call.owes
  | .inr a => ((s.manager.approvals.lookup a).filter fun r => r.status = .pending).map fun r => (r.sessionId, r.turnId)

/-- A turn owed its first event is stored and owed it once; the one call that answers an approval has read it. -/
structure Owing (s : Server) : Prop where
  once : ∀ p q v, s.owes p = some v → s.owes q = some v → p = q
  stored : ∀ p sid t, s.owes p = some (sid, t) → ∃ turn, s.manager.turns.lookup t = some turn ∧ turn.sessionId = sid
  answers : ∀ i a c, s.calls.lookup i = some (.respond a c) → Checked s.manager c.sessionId a c
  alone : ∀ i j a b c d, s.calls.lookup i = some (.respond a c) → s.calls.lookup j = some (.respond b d) → i = j

section

variable {s : Server} {m' : Manager} {i : ℕ} {after : Option Call}

def Retains (ts ts' : Table String TurnRecord) : Prop :=
  ∀ t turn, ts.lookup t = some turn → ∃ turn', ts'.lookup t = some turn' ∧ turn'.sessionId = turn.sessionId

theorem Retains.refl (ts : Table String TurnRecord) : Retains ts ts := fun _ turn h => ⟨turn, h, rfl⟩

theorem Retains.update (ts : Table String TurnRecord) (key : String) {f : TurnRecord → TurnRecord}
    (hf : ∀ turn, (f turn).sessionId = turn.sessionId) : Retains ts (ts.update key f) := by
  intro t turn h
  by_cases hk : t = key
  · refine ⟨f turn, ?_, hf turn⟩
    rw [Table.lookup_update, if_pos hk, ← hk, h, Option.map_some]
  · refine ⟨turn, ?_, rfl⟩
    rw [Table.lookup_update, if_neg hk, h]

theorem owes_call (j : ℕ) : (⟨m', Server.put s.calls i after⟩ : Server).owes (.inl j) =
    if j = i then after.bind Call.owes else s.owes (.inl j) := by
  simp only [Server.owes, Server.lookup_put]
  split <;> rfl

theorem owes_paid (happrovals : m'.approvals = s.manager.approvals) (hafter : after.bind Call.owes = none)
    {p : ℕ ⊕ String} {v : String × String} (hp : (⟨m', Server.put s.calls i after⟩ : Server).owes p = some v) :
    s.owes p = some v ∧ p ≠ .inl i := by
  cases p with
  | inl j =>
    rw [owes_call] at hp
    split at hp
    · rw [hafter] at hp
      cases hp
    · next hne => exact ⟨hp, fun he => hne (Sum.inl.inj he)⟩
  | inr a =>
    simp only [Server.owes, happrovals] at hp
    exact ⟨hp, fun he => by cases he⟩

def Passes (s s' : Server) : Prop :=
  ∃ σ : ℕ ⊕ String → ℕ ⊕ String, Function.Injective σ ∧ ∀ p v, s'.owes p = some v → s.owes (σ p) = some v

theorem Passes.of_owes {s' : Server} (h : ∀ p v, s'.owes p = some v → s.owes p = some v) : Passes s s' :=
  ⟨id, Function.injective_id, h⟩

theorem Passes.swap {s' : Server} {x y : ℕ ⊕ String} (hx : s'.owes x = none)
    (hy : s'.owes y = s.owes x ∨ s'.owes y = none)
    (hother : ∀ p v, p ≠ x → p ≠ y → s'.owes p = some v → s.owes p = some v) : Passes s s' := by
  refine ⟨Equiv.swap x y, (Equiv.swap x y).injective, fun p v hp => ?_⟩
  by_cases hpx : p = x
  · rw [hpx, hx] at hp
    cases hp
  by_cases hpy : p = y
  · rw [hpy, Equiv.swap_apply_right]
    rw [hpy] at hp
    rcases hy with hy | hy
    · rw [← hy, hp]
    · rw [hy] at hp
      cases hp
  · rw [Equiv.swap_apply_of_ne_of_ne hpx hpy]
    exact hother p v hpx hpy hp

theorem Owing.pass {s' : Server} (h : Owing s) (hpass : Passes s s') (hturns : Retains s.manager.turns s'.manager.turns)
    (hanswers : ∀ i a c, s'.calls.lookup i = some (.respond a c) → Checked s'.manager c.sessionId a c)
    (halone : ∀ i j a b c d, s'.calls.lookup i = some (.respond a c) →
      s'.calls.lookup j = some (.respond b d) → i = j) :
    Owing s' := by
  obtain ⟨σ, hσ, hp⟩ := hpass
  refine ⟨fun p q v hpv hqv => hσ (h.once _ _ v (hp p v hpv) (hp q v hqv)), fun p sid t hv => ?_, hanswers, halone⟩
  obtain ⟨turn, hl, hsid⟩ := h.stored _ sid t (hp p _ hv)
  obtain ⟨turn', hl', hsid'⟩ := hturns t turn hl
  exact ⟨turn', hl', hsid'.trans hsid⟩

theorem Passes.sameCalls (happrovals : m'.approvals = s.manager.approvals) : Passes s ⟨m', s.calls⟩ := by
  refine .of_owes fun p v hp => ?_
  cases p with
  | inl j => exact hp
  | inr a =>
    simp only [Server.owes, happrovals] at hp
    exact hp

theorem Owing.sameCalls (h : Owing s) (happrovals : m'.approvals = s.manager.approvals)
    (hturns : Retains s.manager.turns m'.turns) : Owing ⟨m', s.calls⟩ := by
  refine h.pass (.sameCalls happrovals) hturns (fun i a c hi => ?_) h.alone
  obtain ⟨hsid, hexisting, howner, hpending⟩ := h.answers i a c hi
  exact ⟨hsid, (congrArg (AList.lookup a) happrovals).trans hexisting, howner, hpending⟩

theorem Owing.keep (h : Owing s) (hpass : Passes s ⟨m', Server.put s.calls i after⟩)
    (happrovals : m'.approvals = s.manager.approvals) (hturns : Retains s.manager.turns m'.turns)
    (hnot : ∀ a c, after ≠ some (.respond a c)) : Owing ⟨m', Server.put s.calls i after⟩ := by
  have hold : ∀ {j a c}, (Server.put s.calls i after).lookup j = some (.respond a c) →
      s.calls.lookup j = some (.respond a c) := by
    intro j a c hj
    rw [Server.lookup_put] at hj
    split at hj
    · exact absurd hj (hnot a c)
    · exact hj
  refine h.pass hpass hturns (fun j a c hj => ?_) fun j k a b c d hj hk => h.alone j k a b c d (hold hj) (hold hk)
  obtain ⟨hsid, hexisting, howner, hpending⟩ := h.answers j a c (hold hj)
  exact ⟨hsid, (congrArg (AList.lookup a) happrovals).trans hexisting, howner, hpending⟩

theorem Owing.inserted {w : SendWrite} (h : Owing s) (hfresh : s.manager.turns.lookup w.call.turnId = none)
    (hturns : m'.turns = s.manager.turns.insert w.call.turnId w.turn)
    (happrovals : m'.approvals = s.manager.approvals) :
    Owing ⟨m', Server.put s.calls i (some (.sendInsertSession w))⟩ := by
  have hsid : w.turn.sessionId = w.call.sessionId := by
    unfold SendWrite.turn
    split <;> rfl
  -- the call `i`, or an owner there was before of another turn
  have howes : ∀ p v, (⟨m', Server.put s.calls i (some (.sendInsertSession w))⟩ : Server).owes p = some v →
      (p = .inl i ∧ v = (w.call.sessionId, w.call.turnId)) ∨ (s.owes p = some v ∧ v.2 ≠ w.call.turnId) := by
    intro p v hp
    have hold : s.owes p = some v → v.2 ≠ w.call.turnId := by
      intro hv he
      obtain ⟨turn, hl, -⟩ := h.stored p v.1 v.2 hv
      rw [he, hfresh] at hl
      cases hl
    cases p with
    | inl j =>
      rw [owes_call] at hp
      split at hp
      · next hj => exact .inl ⟨congrArg Sum.inl hj, (Option.some.inj hp).symm⟩
      · exact .inr ⟨hp, hold hp⟩
    | inr a =>
      simp only [Server.owes, happrovals] at hp
      exact .inr ⟨hp, hold hp⟩
  have hrespond : ∀ {j a c}, (Server.put s.calls i (some (.sendInsertSession w))).lookup j = some (.respond a c) →
      s.calls.lookup j = some (.respond a c) := by
    intro j a c hj
    rw [Server.lookup_put] at hj
    split at hj
    · cases hj
    · exact hj
  refine ⟨fun p q v hp hq => ?_, fun p sid t hp => ?_, fun j a c hj => ?_, fun j k a b c d hj hk => ?_⟩
  · rcases howes p v hp with ⟨rfl, hv⟩ | ⟨hpv, hne⟩ <;> rcases howes q v hq with ⟨rfl, hv'⟩ | ⟨hqv, hne'⟩
    · rfl
    · exact absurd (congrArg Prod.snd hv) hne'
    · exact absurd (congrArg Prod.snd hv') hne
    · exact h.once p q v hpv hqv
  · simp only [hturns, Table.lookup_insert]
    rcases howes p (sid, t) hp with ⟨-, hv⟩ | ⟨hpv, hne⟩
    · obtain ⟨rfl, rfl⟩ := Prod.mk.inj hv
      exact ⟨w.turn, if_pos rfl, hsid⟩
    · rw [if_neg hne]
      exact h.stored p sid t hpv
  · obtain ⟨hc, hexisting, howner, hpending⟩ := h.answers j a c (hrespond hj)
    exact ⟨hc, (congrArg (AList.lookup a) happrovals).trans hexisting, howner, hpending⟩
  · exact h.alone j k a b c d (hrespond hj) (hrespond hk)

theorem Moves.passes {before : Option Call} (h : Owing s) (hi : s.calls.lookup i = before)
    (hm : Moves s.manager before after m') (hnew : ∀ w, before ≠ some (.sendInsertTurn w)) :
    Passes s ⟨m', Server.put s.calls i after⟩ := by
  have hpaid : m'.approvals = s.manager.approvals → after.bind Call.owes = none →
      Passes s ⟨m', Server.put s.calls i after⟩ := fun happ hnone => .of_owes fun p v hp => (owes_paid happ hnone hp).1
  cases hm with
  | stopped quiet | createBegun quiet | createStored quiet | closeBegun quiet | closeStored quiet
  | resumeBegun quiet | resumeStored quiet | sendBegun quiet | sendSettled quiet | interruptBegun quiet
  | respondBegun quiet | respondChecked quiet => exact hpaid quiet.approvals rfl
  | createInserted sets | closeInserted sets | resumeInserted sets | worktreeSet sets | sessionFailed sets =>
    exact hpaid sets.approvals rfl
  | turnInserted => exact absurd rfl (hnew _)
  | @sessionInserted w r _ _ sets inserted =>
    have howed : s.owes (.inl i) = some (w.call.sessionId, w.call.turnId) := by rw [Server.owes, hi]; rfl
    refine .of_owes fun p v hp => ?_
    cases p with
    | inl j =>
      rw [owes_call] at hp
      split at hp
      · next hj =>
        subst hj
        -- the approval to insert is one of the turn
        rcases r with e | (_ | a)
        · cases hp
        · cases hp
        · obtain ⟨-, id, -, rfl⟩ := inserted.approval a rfl
          rw [howed]
          exact hp
      · exact hp
    | inr a =>
      simp only [Server.owes, sets.approvals] at hp
      exact hp
  | @approvalInserted approval _ sets =>
    have howed : s.owes (.inl i) = some (approval.sessionId, approval.turnId) := by rw [Server.owes, hi]; rfl
    refine .swap (x := .inl i) (y := .inr approval.id) ?_ ?_ fun p v hpx hpy hp => ?_
    · rw [owes_call, if_pos rfl]
      rfl
    · rw [howed]
      simp only [Server.owes, sets.approvals, Table.lookup_insert, if_true]
      by_cases hpending : approval.status = .pending
      · simp [hpending]
      · simp [hpending]
    · cases p with
      | inl j =>
        rw [owes_call, if_neg (fun he => hpx (congrArg Sum.inl he))] at hp
        exact hp
      | inr a =>
        simp only [Server.owes, sets.approvals, Table.lookup_insert, if_neg (fun he => hpy (congrArg Sum.inr he))] at hp
        exact hp
  | @respondResolved approvalId c after _ sets next =>
    have hchecked := h.answers i approvalId c hi
    have hstatus : (c.resolved s.manager.clock).status ≠ .pending := by
      cases hd : c.decision <;> simp [RespondCall.resolved, ApprovalDecision.toStatus, hd]
    refine .swap (x := .inr approvalId) (y := .inl i) ?_ ?_ fun p v hpx hpy hp => ?_
    · simp [Server.owes, sets.approvals, hstatus]
    · rw [owes_call, if_pos rfl]
      rcases next with rfl | rfl
      · exact .inr rfl
      · left
        simp [Server.owes, hchecked.existing, hchecked.pending, hchecked.owner, Call.owes, RespondCall.resolved]
    · cases p with
      | inl j =>
        rw [owes_call, if_neg (fun he => hpy (congrArg Sum.inl he))] at hp
        exact hp
      | inr a =>
        simp only [Server.owes, sets.approvals, Table.lookup_insert, if_neg (fun he => hpx (congrArg Sum.inr he))] at hp
        exact hp
  | acceptApplied decision applied =>
    obtain ⟨sessions, waits, sets, -, -⟩ := applied.writes
    exact hpaid sets.approvals rfl
  | declineApplied decision applied =>
    obtain ⟨sessions, waits, sets, -, -⟩ := applied.writes
    exact hpaid sets.approvals rfl

theorem Moves.retains {before : Option Call} (hm : Moves s.manager before after m')
    (hnew : ∀ w, before ≠ some (.sendInsertTurn w)) : Retains s.manager.turns m'.turns := by
  cases hm with
  | stopped quiet | createBegun quiet | createStored quiet | closeBegun quiet | closeStored quiet
  | resumeBegun quiet | resumeStored quiet | sendBegun quiet | sendSettled quiet | interruptBegun quiet
  | respondBegun quiet | respondChecked quiet => exact quiet.turns ▸ Retains.refl _
  | createInserted sets | closeInserted sets | resumeInserted sets | worktreeSet sets | sessionFailed sets
  | sessionInserted sets | approvalInserted sets | respondResolved sets => exact sets.turns ▸ Retains.refl _
  | turnInserted => exact absurd rfl (hnew _)
  | acceptApplied decision applied =>
    obtain ⟨sessions, waits, sets, -, -⟩ := applied.writes
    rw [sets.turns]
    exact Retains.update _ _ fun _ => rfl
  | declineApplied decision applied =>
    obtain ⟨sessions, waits, sets, -, -⟩ := applied.writes
    rw [sets.turns]
    exact Retains.update _ _ fun _ => rfl

theorem Identified.fresh_turn {w : SendWrite} (hid : Identified s) (hi : s.calls.lookup i = some (.sendInsertTurn w)) :
    s.manager.turns.lookup w.call.turnId = none := by
  have hfresh := hid.reservedFresh i _ w.call.turnId hi rfl
  exact Option.not_isSome_iff_eq_none.mp fun hs => hfresh (.inr hs)

theorem Owing.move {before : Option Call} (h : Owing s) (hid : Identified s) (hi : s.calls.lookup i = before)
    (hm : Moves s.manager before after m') (hlock : ∀ c, before = some c → c.needsApprovals = true →
      ∀ j a d, s.calls.lookup j ≠ some (.respond a d)) : Owing ⟨m', Server.put s.calls i after⟩ := by
  by_cases hnew : ∃ w, before = some (.sendInsertTurn w)
  · obtain ⟨w, rfl⟩ := hnew
    cases hm with
    | stopped quiet =>
      exact h.keep (.of_owes fun p v hp => (owes_paid quiet.approvals rfl hp).1) quiet.approvals
        (quiet.turns ▸ Retains.refl _) fun _ _ he => by cases he
    | closeStored quiet found was => rcases was with was | was <;> cases was
    | turnInserted sets => exact h.inserted (hid.fresh_turn hi) sets.turns sets.approvals
  have hnew : ∀ w, before ≠ some (.sendInsertTurn w) := fun w he => hnew ⟨w, he⟩
  have hpass := hm.passes h hi hnew
  have hretains := hm.retains hnew
  cases hm with
  | stopped quiet | createBegun quiet | createStored quiet | closeBegun quiet | closeStored quiet
  | resumeBegun quiet | resumeStored quiet | sendBegun quiet | sendSettled quiet | interruptBegun quiet
  | respondBegun quiet => exact h.keep hpass quiet.approvals hretains fun _ _ he => by cases he
  | createInserted sets | closeInserted sets | resumeInserted sets | worktreeSet sets | sessionFailed sets =>
    exact h.keep hpass sets.approvals hretains fun _ _ he => by cases he
  | turnInserted => exact absurd rfl (hnew _)
  | @sessionInserted w r _ _ sets inserted =>
    refine h.keep hpass sets.approvals hretains ?_
    rcases r with e | (_ | a) <;> exact fun _ _ he => by cases he
  | approvalInserted sets =>
    have hnone := hlock _ rfl rfl
    have hcalls : ∀ {j a c}, (Server.put s.calls i none).lookup j ≠ some (.respond a c) := by
      intro j a c hj
      rw [Server.lookup_put] at hj
      split at hj
      · cases hj
      · exact hnone j a c hj
    exact h.pass hpass hretains (fun j a c hj => absurd hj hcalls) fun j k a b c d hj => absurd hj hcalls
  | @respondChecked kind sid approvalId input c _ quiet checked =>
    have hnone := hlock _ rfl rfl
    have hcalls : ∀ {j a d}, (Server.put s.calls i (some (.respond approvalId c))).lookup j = some (.respond a d) →
        j = i ∧ a = approvalId ∧ d = c := by
      intro j a d hj
      rw [Server.lookup_put] at hj
      split at hj
      · next he =>
        cases hj
        exact ⟨he, rfl, rfl⟩
      · exact absurd hj (hnone j a d)
    refine h.pass hpass hretains (fun j a d hj => ?_) fun j k a b c d hj hk => (hcalls hj).1.trans (hcalls hk).1.symm
    obtain ⟨-, rfl, rfl⟩ := hcalls hj
    obtain ⟨hsid, hexisting, howner, hpending⟩ := checked
    exact ⟨rfl, (congrArg (AList.lookup a) quiet.approvals).trans hexisting, howner.trans hsid.symm, hpending⟩
  | @respondResolved approvalId c after _ sets next =>
    have hcalls : ∀ {j a d}, (Server.put s.calls i after).lookup j ≠ some (.respond a d) := by
      intro j a d hj
      rw [Server.lookup_put] at hj
      split at hj
      · rcases next with rfl | rfl <;> cases hj
      · next hne => exact hne (h.alone j i a approvalId d c hj hi)
    exact h.pass hpass hretains (fun j a c hj => absurd hj hcalls) fun j k a b c d hj => absurd hj hcalls
  | acceptApplied decision applied =>
    obtain ⟨sessions, waits, sets, -, -⟩ := applied.writes
    exact h.keep hpass sets.approvals hretains fun _ _ he => by cases he
  | declineApplied decision applied =>
    obtain ⟨sessions, waits, sets, -, -⟩ := applied.writes
    exact h.keep hpass sets.approvals hretains fun _ _ he => by cases he

end

/-! ## The logs -/

/-- The log of a turn in this status: not opened, opened and as far as the status says, or ended at once. -/
inductive ProperLog (status : TurnStatus) : List String → Prop where
  | unopened : ProperLog status []
  | running (unfinished : isTerminalTurnStatus status = false) : ProperLog status ["turn.started"]
  | ended {kind : String} (ends : kind ∈ endKinds) (finished : isTerminalTurnStatus status = true) :
      ProperLog status ["turn.started", kind]
  | neverRan {kind : String} (ends : kind ∈ endKinds) : ProperLog status [kind]

theorem ProperLog.of_opens {status : TurnStatus} {runs : Prop} {kind : String} (h : Opens runs kind)
    (hruns : runs → isTerminalTurnStatus status = false) : ProperLog status [kind] := by
  rcases h with ⟨rfl, hr⟩ | hk
  · exact .running (hruns hr)
  · exact .neverRan hk

theorem ProperLog.unfinished {status status' : TurnStatus} {log : List String} (h : ProperLog status log)
    (hrunning : isTerminalTurnStatus status = false) (hunfinished : isTerminalTurnStatus status' = false) :
    ProperLog status' log := by
  cases h with
  | unopened => exact .unopened
  | running => exact .running hunfinished
  | ended _ finished => rw [hrunning] at finished; cases finished
  | neverRan ends => exact .neverRan ends

theorem ProperLog.begun {status : TurnStatus} {log : List String} (h : ProperLog status log)
    (hrunning : isTerminalTurnStatus status = false) (hstarted : "turn.started" ∈ log) : log = ["turn.started"] := by
  cases h with
  | unopened => cases hstarted
  | running => rfl
  | ended _ finished => rw [hrunning] at finished; cases finished
  | neverRan ends =>
    rw [← List.mem_singleton.mp hstarted] at ends
    exact absurd ends (by decide)

/-- Logs are of stored turns and proper, and empty while the first event is owed. -/
structure InLog (s : Server) : Prop where
  numbered : EventsNumbered s.manager
  known : ∀ sid t, s.manager.turnLog sid t ≠ [] → ∃ turn, s.manager.turns.lookup t = some turn ∧ turn.sessionId = sid
  proper : ∀ t turn, s.manager.turns.lookup t = some turn → ProperLog turn.status (s.manager.turnLog turn.sessionId t)
  unopened : ∀ p sid t, s.owes p = some (sid, t) → s.manager.turnLog sid t = []
  running : ∀ i w turn, s.calls.lookup i = some (.sendInsertSession w) → w.failure = none →
    s.manager.turns.lookup w.call.turnId = some turn → isTerminalTurnStatus turn.status = false

section

variable {s s' : Server}

theorem InLog.silent (h : InLog s) (hsilent : Silent s.manager s'.manager) (hturns : s'.manager.turns = s.manager.turns)
    (hpass : Passes s s') (hsends : ∀ i w, s'.calls.lookup i = some (.sendInsertSession w) →
      s.calls.lookup i = some (.sendInsertSession w)) : InLog s' := by
  obtain ⟨hn, hlog⟩ := hsilent h.numbered
  obtain ⟨σ, -, hp⟩ := hpass
  refine ⟨hn, fun sid t hne => ?_, fun t turn hl => ?_, fun p sid t hv => ?_, fun i w turn hi hw hl => ?_⟩
  · rw [hlog] at hne
    rw [hturns]
    exact h.known sid t hne
  · rw [hturns] at hl
    rw [hlog]
    exact h.proper t turn hl
  · rw [hlog]
    exact h.unopened _ sid t (hp p _ hv)
  · rw [hturns] at hl
    exact h.running i w turn (hsends i w hi) hw hl

theorem InLog.pay (h : InLog s) (ho : Owing s) {x : ℕ ⊕ String} {sid turnId : String} {runs : Prop}
    (howed : s.owes x = some (sid, turnId)) (hpaid : ∀ p v, s'.owes p = some v → s.owes p = some v ∧ p ≠ x)
    (hlog : Silent s.manager s'.manager ∨ ∃ kind, Opens runs kind ∧ Records sid turnId kind s.manager s'.manager)
    (hturns : Retains s.manager.turns s'.manager.turns)
    (hother : ∀ t, t ≠ turnId → s'.manager.turns.lookup t = s.manager.turns.lookup t)
    (hruns : runs → ∀ turn, s'.manager.turns.lookup turnId = some turn → isTerminalTurnStatus turn.status = false)
    (hsends : ∀ i w, s'.calls.lookup i = some (.sendInsertSession w) → s.calls.lookup i = some (.sendInsertSession w)) :
    InLog s' := by
  obtain ⟨turn₀, hl₀, hsid₀⟩ := ho.stored x sid turnId howed
  have hempty := h.unopened x sid turnId howed
  have hsid : ∀ turn, s'.manager.turns.lookup turnId = some turn → turn.sessionId = sid := by
    intro turn hl
    obtain ⟨turn', hl', hsid'⟩ := hturns turnId turn₀ hl₀
    obtain rfl := Option.some.inj (hl.symm.trans hl')
    exact hsid'.trans hsid₀
  -- what is owed afterwards is owed for another turn
  have howes : ∀ p sid' t, s'.owes p = some (sid', t) → s.owes p = some (sid', t) ∧ t ≠ turnId := by
    intro p sid' t hp
    obtain ⟨hp, hne⟩ := hpaid p _ hp
    refine ⟨hp, ?_⟩
    rintro rfl
    obtain ⟨turn, hl, rfl⟩ := ho.stored p sid' t hp
    obtain rfl := Option.some.inj (hl.symm.trans hl₀)
    exact hne (ho.once p x _ hp (hsid₀ ▸ howed))
  -- the log of the turn has at most its first event, the other logs are as before
  obtain ⟨hn, first, hfirst, hlogs⟩ : EventsNumbered s'.manager ∧ ∃ first, (first = [] ∨ ∃ kind, first = [kind] ∧
      Opens runs kind) ∧ ∀ sid' t, s'.manager.turnLog sid' t =
        s.manager.turnLog sid' t ++ if sid' = sid ∧ t = turnId then first else [] := by
    rcases hlog with hs | ⟨kind, hopens, hr⟩
    · obtain ⟨hn, hs⟩ := hs h.numbered
      refine ⟨hn, [], .inl rfl, fun sid' t => ?_⟩
      rw [hs, ite_self, List.append_nil]
    · obtain ⟨hn, hr⟩ := hr h.numbered
      exact ⟨hn, [kind], .inr ⟨kind, rfl, hopens⟩, hr⟩
  have hlogOther : ∀ sid' t, t ≠ turnId → s'.manager.turnLog sid' t = s.manager.turnLog sid' t := by
    intro sid' t hne
    rw [hlogs, if_neg (fun he => hne he.2), List.append_nil]
  refine ⟨hn, fun sid' t hne => ?_, fun t turn hl => ?_, fun p sid' t hp => ?_, fun i w turn hi hw hl => ?_⟩
  · by_cases ht : t = turnId
    · subst ht
      have hsid' : sid' = sid := by
        by_contra hother'
        rw [hlogs, if_neg (fun he => hother' he.1), List.append_nil] at hne
        obtain ⟨turn, hl, rfl⟩ := h.known sid' t hne
        obtain rfl := Option.some.inj (hl.symm.trans hl₀)
        exact hother' hsid₀
      obtain ⟨turn, hl, -⟩ := hturns t turn₀ hl₀
      exact ⟨turn, hl, (hsid turn hl).trans hsid'.symm⟩
    · rw [hlogOther sid' t ht] at hne
      rw [hother t ht]
      exact h.known sid' t hne
  · by_cases ht : t = turnId
    · subst ht
      rw [hsid turn hl, hlogs, if_pos ⟨rfl, rfl⟩, hempty, List.nil_append]
      rcases hfirst with rfl | ⟨kind, rfl, hopens⟩
      · exact .unopened
      · exact .of_opens hopens fun hr => hruns hr turn hl
    · rw [hlogOther _ t ht]
      rw [hother t ht] at hl
      exact h.proper t turn hl
  · obtain ⟨hp, hne⟩ := howes p sid' t hp
    rw [hlogOther sid' t hne]
    exact h.unopened p sid' t hp
  · have hne : w.call.turnId ≠ turnId := by
      refine (howes (.inl i) w.call.sessionId w.call.turnId ?_).2
      simp only [Server.owes, hi, Option.bind_some, Call.owes]
    rw [hother _ hne] at hl
    exact h.running i w turn (hsends i w hi) hw hl

theorem InLog.inserted (h : InLog s) {m' : Manager} {i : ℕ} {w : SendWrite}
    (hfresh : s.manager.turns.lookup w.call.turnId = none) (hsilent : Silent s.manager m')
    (hturns : m'.turns = s.manager.turns.insert w.call.turnId w.turn) (happrovals : m'.approvals = s.manager.approvals)
    (honly : ∀ j w', s.calls.lookup j = some (.sendInsertSession w') → w'.call.turnId ≠ w.call.turnId) :
    InLog ⟨m', Server.put s.calls i (some (.sendInsertSession w))⟩ := by
  obtain ⟨hn, hlog⟩ := hsilent h.numbered
  have hempty : ∀ sid, m'.turnLog sid w.call.turnId = [] := by
    intro sid
    rw [hlog]
    by_contra hne
    obtain ⟨turn, hl, -⟩ := h.known sid _ hne
    rw [hfresh] at hl
    cases hl
  have hother : ∀ t, t ≠ w.call.turnId → m'.turns.lookup t = s.manager.turns.lookup t := by
    intro t hne
    rw [hturns, Table.lookup_insert, if_neg hne]
  refine ⟨hn, fun sid t hne => ?_, fun t turn hl => ?_, fun p sid t hp => ?_, fun j w' turn hj hw hl => ?_⟩
  · have ht : t ≠ w.call.turnId := by
      rintro rfl
      exact hne (hempty sid)
    have hne' : s.manager.turnLog sid t ≠ [] := by rwa [← hlog]
    obtain ⟨turn, hl, hsid⟩ := h.known sid t hne'
    exact ⟨turn, (hother t ht).trans hl, hsid⟩
  · by_cases ht : t = w.call.turnId
    · subst ht
      change ProperLog turn.status (m'.turnLog _ _)
      rw [hempty]
      exact .unopened
    · change ProperLog turn.status (m'.turnLog _ _)
      rw [hlog]
      exact h.proper t turn ((hother t ht).symm.trans hl)
  · change m'.turnLog sid t = []
    cases p with
    | inl j =>
      rw [owes_call] at hp
      split at hp
      · obtain ⟨-, rfl⟩ := Prod.mk.inj (Option.some.inj hp)
        exact hempty sid
      · rw [hlog]
        exact h.unopened _ sid t hp
    | inr a =>
      simp only [Server.owes, happrovals] at hp
      rw [hlog]
      exact h.unopened (.inr a) sid t hp
  · have hlookup := Server.lookup_put s.calls i j (some (.sendInsertSession w))
    rw [hlookup] at hj
    split at hj
    · obtain rfl : w = w' := Call.sendInsertSession.inj (Option.some.inj hj)
      change m'.turns.lookup _ = some turn at hl
      rw [hturns, Table.lookup_insert, if_pos rfl] at hl
      obtain rfl := Option.some.inj hl
      unfold SendWrite.turn SendCall.turn
      rw [hw]
      dsimp only
      split <;> rfl
    · exact h.running j w' turn hj hw ((hother _ (honly j w' hj)).symm.trans hl)

theorem InLog.result (h : InLog s) (ho : Owing s) {m' : Manager} {result : ProviderTurnResult} {turn : TurnRecord}
    (hends : Ends s.manager result turn) (happrovals : m'.approvals = s.manager.approvals)
    (hturns : m'.turns = s.manager.turns.insert result.turnId (finishedTurn result s.manager.clock turn))
    (hstarted : result.status ≠ .inProgress → "turn.started" ∈ s.manager.turnLog result.runtimeSessionId result.turnId)
    (hlog : (Silent s.manager m' ∧ result.status = .inProgress) ∨ (result.status ≠ .inProgress ∧
      Records result.runtimeSessionId result.turnId (resultEventKind result.status) s.manager m')) :
    InLog ⟨m', s.calls⟩ := by
  have howes : ∀ p v, (⟨m', s.calls⟩ : Server).owes p = some v → s.owes p = some v := by
    intro p v hp
    cases p with
    | inl j => exact hp
    | inr a =>
      simp only [Server.owes, happrovals] at hp
      exact hp
  have hretains : Retains s.manager.turns m'.turns := by
    have hupdate : m'.turns = s.manager.turns.update result.turnId (finishedTurn result s.manager.clock) := by
      rw [hturns, Table.update, hends.found]
    rw [hupdate]
    exact Retains.update _ _ fun _ => rfl
  have hother : ∀ t, t ≠ result.turnId → m'.turns.lookup t = s.manager.turns.lookup t := by
    intro t hne
    rw [hturns, Table.lookup_insert, if_neg hne]
  have hself : m'.turns.lookup result.turnId = some (finishedTurn result s.manager.clock turn) := by
    rw [hturns, Table.lookup_insert, if_pos rfl]
  have hproper := h.proper result.turnId turn hends.found
  rw [hends.owner] at hproper
  -- the turn stays unfinished and its log as it is, or its end follows its start and no one owes it an event
  obtain ⟨hn, added, hlogs, hnew, hrest⟩ : EventsNumbered m' ∧ ∃ added, (∀ sid t, m'.turnLog sid t =
      s.manager.turnLog sid t ++ if sid = result.runtimeSessionId ∧ t = result.turnId then added else []) ∧
      ProperLog (finishedTurn result s.manager.clock turn).status
        (s.manager.turnLog result.runtimeSessionId result.turnId ++ added) ∧
      ((isTerminalTurnStatus (finishedTurn result s.manager.clock turn).status = false ∧ added = []) ∨
        ∀ p sid, s.owes p ≠ some (sid, result.turnId)) := by
    rcases hlog with ⟨hsilent, hstatus⟩ | ⟨hstatus, hrecords⟩
    · obtain ⟨hn, hlog⟩ := hsilent h.numbered
      have hunfinished : isTerminalTurnStatus (finishedTurn result s.manager.clock turn).status = false := by
        simp [finishedTurn, hstatus, ProviderTurnStatus.toTurnStatus, isTerminalTurnStatus]
      refine ⟨hn, [], fun sid t => ?_, ?_, .inl ⟨hunfinished, rfl⟩⟩
      · rw [hlog, ite_self, List.append_nil]
      · rw [List.append_nil]
        exact hproper.unfinished hends.running hunfinished
    · obtain ⟨hn, hlog⟩ := hrecords h.numbered
      have hbegun := hproper.begun hends.running (hstarted hstatus)
      refine ⟨hn, _, hlog, ?_, .inr fun p sid hp => ?_⟩
      · rw [hbegun]
        refine .ended ?_ ?_
        · cases hst : result.status <;> simp [resultEventKind, endKinds, hst] at hstatus ⊢
        · cases hst : result.status <;>
            simp [finishedTurn, ProviderTurnStatus.toTurnStatus, isTerminalTurnStatus, hst] at hstatus ⊢
      · have hempty := h.unopened p sid _ hp
        obtain ⟨turn', hl, hsid⟩ := ho.stored p sid _ hp
        obtain rfl := Option.some.inj (hends.found.symm.trans hl)
        rw [← hsid, hends.owner, hbegun] at hempty
        cases hempty
  have hlogOther : ∀ sid t, t ≠ result.turnId → m'.turnLog sid t = s.manager.turnLog sid t := by
    intro sid t hne
    rw [hlogs, if_neg (fun he => hne he.2), List.append_nil]
  refine ⟨hn, fun sid t hne => ?_, fun t turn' hl => ?_, fun p sid t hp => ?_, fun i w turn' hi hw hl => ?_⟩
  · change m'.turnLog sid t ≠ [] at hne
    rw [hlogs] at hne
    by_cases ht : sid = result.runtimeSessionId ∧ t = result.turnId
    · obtain ⟨rfl, rfl⟩ := ht
      exact ⟨_, hself, hends.owner⟩
    · rw [if_neg ht, List.append_nil] at hne
      obtain ⟨turn', hl, hsid⟩ := h.known sid t hne
      obtain ⟨turn'', hl', hsid'⟩ := hretains t turn' hl
      exact ⟨turn'', hl', hsid'.trans hsid⟩
  · change ProperLog turn'.status (m'.turnLog _ _)
    change m'.turns.lookup t = some turn' at hl
    by_cases ht : t = result.turnId
    · subst ht
      obtain rfl := Option.some.inj (hself.symm.trans hl)
      have hsid : (finishedTurn result s.manager.clock turn).sessionId = result.runtimeSessionId := hends.owner
      rw [hsid, hlogs, if_pos ⟨rfl, rfl⟩]
      exact hnew
    · rw [hlogOther _ t ht]
      exact h.proper t turn' ((hother t ht).symm.trans hl)
  · change m'.turnLog sid t = []
    have hp := howes p _ hp
    rcases hrest with ⟨-, rfl⟩ | hnone
    · rw [hlogs, ite_self, List.append_nil]
      exact h.unopened p sid t hp
    · rw [hlogOther sid t (fun ht => hnone p sid (ht ▸ hp))]
      exact h.unopened p sid t hp
  · change m'.turns.lookup _ = some turn' at hl
    have hi' : s.calls.lookup i = some (.sendInsertSession w) := hi
    by_cases ht : w.call.turnId = result.turnId
    · rw [ht] at hl
      obtain rfl := Option.some.inj (hself.symm.trans hl)
      rcases hrest with ⟨hunfinished, -⟩ | hnone
      · exact hunfinished
      · refine absurd ?_ (hnone (.inl i) w.call.sessionId)
        simp only [Server.owes, hi', Option.bind_some, Call.owes, ht]
    · exact h.running i w turn' hi' hw ((hother _ ht).symm.trans hl)

end

/-! ## Steps -/

section

variable {s : Server} {m' : Manager} {i : ℕ} {before after : Option Call}

theorem Moves.sends (hm : Moves s.manager before after m') (hnew : ∀ w, before ≠ some (.sendInsertTurn w)) {j : ℕ}
    {w : SendWrite} (hj : (Server.put s.calls i after).lookup j = some (.sendInsertSession w)) :
    s.calls.lookup j = some (.sendInsertSession w) := by
  rw [Server.lookup_put] at hj
  split at hj
  · cases hm with
    | turnInserted => exact absurd rfl (hnew _)
    | @sessionInserted w r => rcases r with e | (_ | a) <;> cases hj
    | respondResolved sets next => rcases next with rfl | rfl <;> cases hj
    | _ => cases hj
  · exact hj

theorem Applied.pay {c : RespondCall} {resolved : ApprovalRecord} {turn : TurnRecord → TurnRecord}
    {session : SessionRecord → SessionRecord} (h : InLog s) (ho : Owing s)
    (hi : s.calls.lookup i = some (.respondApply c resolved))
    (happlied : Applied s.manager m' c resolved.turnId turn session) {runs : Prop}
    (hlog : Silent s.manager m' ∨ ∃ kind, Opens runs kind ∧ Records c.sessionId resolved.turnId kind s.manager m')
    (hsid : ∀ r, (turn r).sessionId = r.sessionId) (hruns : runs → ∀ r, isTerminalTurnStatus (turn r).status = false)
    (hsends : ∀ j w, (Server.put s.calls i none).lookup j = some (.sendInsertSession w) →
      s.calls.lookup j = some (.sendInsertSession w)) : InLog ⟨m', Server.put s.calls i none⟩ := by
  obtain ⟨sessions, waits, sets, -, -⟩ := happlied.writes
  have howed : s.owes (.inl i) = some (c.sessionId, resolved.turnId) := by rw [Server.owes, hi]; rfl
  refine h.pay ho howed (fun p v hp => owes_paid sets.approvals rfl hp) hlog ?_ (fun t hne => ?_)
    (fun hr r hl => ?_) hsends
  · dsimp only
    rw [sets.turns]
    exact Retains.update _ _ hsid
  · dsimp only
    rw [sets.turns, Table.lookup_update, if_neg hne]
  · dsimp only at hl
    rw [sets.turns, Table.lookup_update, if_pos rfl] at hl
    obtain ⟨r, -, rfl⟩ := Option.map_eq_some_iff.mp hl
    exact hruns hr r

theorem InLog.move (h : InLog s) (ho : Owing s) (hid : Identified s) (hi : s.calls.lookup i = before)
    (hm : Moves s.manager before after m') (hlogs : Logs s.manager before after m') :
    InLog ⟨m', Server.put s.calls i after⟩ := by
  by_cases hnew : ∃ w, before = some (.sendInsertTurn w)
  · obtain ⟨w, rfl⟩ := hnew
    have hsilent : Silent s.manager m' := by
      cases hlogs with
      | none silent => exact silent
      | sent w kind was => cases was
      | answered d resolved kind was => cases was
    cases hm with
    | stopped quiet =>
      refine h.silent hsilent quiet.turns (.of_owes fun p v hp => (owes_paid quiet.approvals rfl hp).1)
        fun j w' hj => ?_
      rw [Server.lookup_put] at hj
      split at hj
      · cases hj
      · exact hj
    | closeStored quiet found was => rcases was with was | was <;> cases was
    | turnInserted sets =>
      refine h.inserted (hid.fresh_turn hi) hsilent sets.turns sets.approvals fun j w' hj he => ?_
      have hfresh := hid.reservedFresh i _ w.call.turnId hi rfl
      exact hfresh (.inr (hid.usesIn j _ (.turn w.call.turnId) hj (by simp [Call.uses, he])))
  have hnew : ∀ w, before ≠ some (.sendInsertTurn w) := fun w he => hnew ⟨w, he⟩
  have hsends : ∀ j w, (Server.put s.calls i after).lookup j = some (.sendInsertSession w) →
      s.calls.lookup j = some (.sendInsertSession w) := fun j w hj => hm.sends hnew hj
  have hpass := hm.passes ho hi hnew
  cases hlogs with
  | none silent =>
    cases hm with
    | stopped quiet | createBegun quiet | createStored quiet | closeBegun quiet | closeStored quiet
    | resumeBegun quiet | resumeStored quiet | sendBegun quiet | sendSettled quiet | interruptBegun quiet
    | respondBegun quiet | respondChecked quiet => exact h.silent silent quiet.turns hpass hsends
    | createInserted sets | closeInserted sets | resumeInserted sets | worktreeSet sets | sessionFailed sets
    | sessionInserted sets | approvalInserted sets | respondResolved sets =>
        exact h.silent silent sets.turns hpass hsends
    | turnInserted => exact absurd rfl (hnew _)
    | acceptApplied decision applied =>
      exact applied.pay h ho hi (.inl silent) (fun _ => rfl) (False.elim : False → _) hsends
    | declineApplied decision applied =>
      exact applied.pay h ho hi (.inl silent) (fun _ => rfl) (False.elim : False → _) hsends
  | sent w kind was gone opens records =>
    rw [was] at hm hi
    have howed : s.owes (.inl i) = some (w.call.sessionId, w.call.turnId) := by rw [Server.owes, hi]; rfl
    have hpay : m'.turns = s.manager.turns → m'.approvals = s.manager.approvals →
        InLog ⟨m', Server.put s.calls i after⟩ := by
      intro hturns happrovals
      refine h.pay ho howed (fun p v hp => owes_paid happrovals (by rw [gone]; rfl) hp) (.inr ⟨kind, opens, records⟩)
        (hturns ▸ Retains.refl _) (fun t _ => congrArg (AList.lookup t) hturns) (fun hw turn hl => ?_) hsends
      exact h.running i w turn hi hw ((congrArg (AList.lookup _) hturns).symm.trans hl)
    cases hm with
    | stopped quiet => exact hpay quiet.turns quiet.approvals
    | closeStored quiet found was => rcases was with was | was <;> cases was
    | sessionInserted sets => exact hpay sets.turns sets.approvals
  | answered d resolved kind was gone decided opens records =>
    subst gone
    rw [was] at hi
    obtain ⟨turn, session, happlied, hsid, hruns⟩ := decided
    exact happlied.pay h ho hi (.inr ⟨kind, opens, records⟩) hsid hruns hsends

end

structure Evented (s : Server) : Prop where
  identified : Identified s
  owing : Owing s
  inLog : InLog s

theorem evented_start (providers : List ProviderKind) (faults : List Bool) :
    Evented (Server.start (Manager.empty providers faults)) := by
  have hnone : ∀ p, (Server.start (Manager.empty providers faults)).owes p = none := by
    intro p
    cases p <;> rfl
  have hcalls : ∀ i c, (Server.start (Manager.empty providers faults)).calls.lookup i ≠ some c :=
    fun _ _ h => by cases h
  have hturns : ∀ t turn, (Manager.empty providers faults).turns.lookup t ≠ some turn := fun _ _ h => by cases h
  refine ⟨identified_start providers faults, ⟨fun p q v hp => ?_, fun p sid t hp => ?_, fun i a c hi => ?_,
    fun i j a b c d hi => ?_⟩, ⟨fun e he => (by cases he), fun sid t hne => absurd rfl hne, fun t turn hl => ?_,
      fun p sid t hp => rfl, fun i w turn hi => ?_⟩⟩
  · rw [hnone] at hp
    cases hp
  · rw [hnone] at hp
    cases hp
  · exact absurd hi (hcalls _ _)
  · exact absurd hi (hcalls _ _)
  · exact absurd hl (hturns _ _)
  · exact absurd hi (hcalls _ _)

section

variable {s s' : Server} {m' : Manager} {i : ℕ}

theorem Evented.quiet (h : Evented s) (hid : Identified ⟨m', s.calls⟩) (hsilent : Silent s.manager m')
    (hturns : m'.turns = s.manager.turns) (happrovals : m'.approvals = s.manager.approvals) : Evented ⟨m', s.calls⟩ :=
  ⟨hid, h.owing.sameCalls happrovals (hturns ▸ Retains.refl _),
    h.inLog.silent hsilent hturns (.sameCalls happrovals) fun _ _ hj => hj⟩

theorem approvalsHeld_of_respond {j : ℕ} {a : String} {c : RespondCall} (hj : s.calls.lookup j = some (.respond a c)) :
    s.approvalsHeld = true := by
  rw [Server.approvalsHeld, List.any_eq_true]
  exact ⟨_, Table.mem_values.mpr ⟨j, hj⟩, rfl⟩

theorem result_evented (h : Evented s) {result : ProviderTurnResult} (hid : Identified ⟨m', s.calls⟩)
    (hcond : ∀ turn, Ends s.manager result turn → result.status ≠ .inProgress →
      "turn.started" ∈ s.manager.turnLog result.runtimeSessionId result.turnId)
    (happlied : ResultApplied s.manager result m')
    (hlog : (Silent s.manager m' ∧ ∀ turn, Ends s.manager result turn → result.status = .inProgress) ∨
      ((∃ turn, Ends s.manager result turn) ∧ result.status ≠ .inProgress ∧
        Records result.runtimeSessionId result.turnId (resultEventKind result.status) s.manager m')) :
    Evented ⟨m', s.calls⟩ := by
  have hsame : m'.turns = s.manager.turns → m'.approvals = s.manager.approvals →
    (∀ turn, ¬ Ends s.manager result turn) →
      Evented ⟨m', s.calls⟩ := by
    intro hturns happrovals hnot
    rcases hlog with ⟨hsilent, -⟩ | ⟨⟨turn, hends⟩, -⟩
    · exact h.quiet hid hsilent hturns happrovals
    · exact absurd hends (hnot turn)
  cases happlied with
  | nothing quiet why =>
    refine hsame quiet.turns quiet.approvals fun turn hends => ?_
    obtain ⟨-, hover⟩ := why turn hends.found hends.owner
    rw [hends.running] at hover
    cases hover
  | conflict turn _ found owner ended differs sets =>
    refine hsame sets.turns sets.approvals fun turn' hends => ?_
    obtain rfl := Option.some.inj (found.symm.trans hends.found)
    rw [hends.running] at ended
    cases ended
  | ended turn sessions ends sets =>
    have hlog' : (Silent s.manager m' ∧ result.status = .inProgress) ∨ (result.status ≠ .inProgress ∧
        Records result.runtimeSessionId result.turnId (resultEventKind result.status) s.manager m') := by
      rcases hlog with ⟨hsilent, hstatus⟩ | ⟨-, hrecords⟩
      · exact .inl ⟨hsilent, hstatus turn ends⟩
      · exact .inr hrecords
    have hretains : Retains s.manager.turns m'.turns := by
      have hupdate : m'.turns = s.manager.turns.update result.turnId (finishedTurn result s.manager.clock) := by
        rw [sets.turns, Table.update, ends.found]
      rw [hupdate]
      exact Retains.update _ _ fun _ => rfl
    exact ⟨hid, h.owing.sameCalls sets.approvals hretains,
      h.inLog.result h.owing ends sets.approvals sets.turns (hcond turn ends) hlog'⟩

theorem move_evented (h : Evented s) {before after : Option Call} (hid : Identified ⟨m', Server.put s.calls i after⟩)
    (hi : s.calls.lookup i = before) (hm : Moves s.manager before after m') (hlogs : Logs s.manager before after m')
    (hlock : ∀ c, before = some c → c.needsApprovals = true → ∀ j a d, s.calls.lookup j ≠ some (.respond a d)) :
    Evented ⟨m', Server.put s.calls i after⟩ :=
  ⟨hid, h.owing.move h.identified hi hm hlock, h.inLog.move h.owing h.identified hi hm hlogs⟩

theorem evented_step {l : Label} (h : Evented s) (hcond : endsAnnounced l s = true) (hs : Server.step l s = some s') :
    Evented s' := by
  have hid := identified_step h.identified hs
  cases l with
  | start i op =>
    simp only [Server.step] at hs
    split at hs
    · cases hs
    next hi =>
    obtain rfl := Option.some.inj hs
    have hmoves := (begin_moves (m := s.manager) op).out
    exact move_evented h hid (AList.lookup_eq_none.mpr hi) hmoves (.none (allows_silent.begin op s.manager).out)
      fun _ he => by cases he
  | goOn i answer =>
    simp only [Server.step, Option.bind_eq_bind, Option.bind_eq_some_iff] at hs
    obtain ⟨c, hc, piece, hp, hs⟩ := hs
    split at hs
    · cases hs
    next hfree =>
    obtain rfl := Option.some.inj hs
    refine move_evented h hid hc (goOn_moves hp).out (goOn_logs hp).out fun c' he hneeds j a d hj => ?_
    obtain rfl := Option.some.inj he
    rw [hneeds, approvalsHeld_of_respond hj] at hfree
    exact hfree rfl
  | waited w result =>
    simp only [Server.step] at hs
    split at hs
    swap
    · cases hs
    obtain rfl := Option.some.inj hs
    have hdropped : Evented (s.dropWait w) := h.quiet (h.identified.dropWait w) (.of_events rfl le_rfl) rfl rfl
    -- the condition, at the turn the result ends
    have hstarted : ∀ turn, Ends (s.dropWait w).manager result turn → result.status ≠ .inProgress →
        "turn.started" ∈ s.manager.turnLog result.runtimeSessionId result.turnId ∧
            s.manager.announces result = true := by
      intro turn hends hstatus
      have hl : s.manager.turns.lookup result.turnId = some turn := hends.found
      simpa [endsAnnounced, hl, hends.owner, hends.running, hstatus] using hcond
    exact result_evented (s := s.dropWait w) hdropped hid (fun turn he hst => (hstarted turn he hst).1)
      (applyTerminalResult_after result).out
      (applyTerminalResult_log result fun turn he hst => (hstarted turn he hst).2).out
  | waitFailed w i error =>
    simp only [Server.step, Option.bind_eq_bind, Option.bind_eq_some_iff] at hs
    obtain ⟨task, ht, hs⟩ := hs
    split at hs
    · cases hs
    next hi =>
    obtain rfl := Option.some.inj hs
    have hover : ∀ turn, s.manager.turns.lookup task.turnId = some turn → isTerminalTurnStatus turn.status = true := by
      intro turn hl
      simpa [endsAnnounced, ht, hl] using hcond
    have hdropped : Evented (s.dropWait w) := h.quiet (h.identified.dropWait w) (.of_events rfl le_rfl) rfl rfl
    have hquiet : After (do
        applyTerminalFailureTurn task.turnId error
        return some (Call.failSession task.sessionId task.turnId error)) (s.dropWait w).manager fun r m' =>
          Quiet (s.dropWait w).manager m' ∧ Server.left r = some (.failSession task.sessionId task.turnId error) := by
      refine after_bind (applyTerminalFailureTurn_after task.turnId error) (fun _ m' h => ?_) fun e m' h => ?_
      all_goals rcases h with ⟨hq, hr, -⟩ | ⟨-, -, turn, hl, hrunning⟩
      · exact (after_pure _ _ _).mpr ⟨hq, rfl⟩
      · rw [hover turn hl] at hrunning
        cases hrunning
      · cases hr
      · rw [hover turn hl] at hrunning
        cases hrunning
    have hsilent := (Within.bind (silent_applyTerminalFailureTurn task.turnId error) (fun _ => (ReadOnly.pure
      (some (Call.failSession task.sessionId task.turnId error))).within) (s.dropWait w).manager).out
    obtain ⟨hq, hleft⟩ := hquiet.out
    have hpass : Passes (s.dropWait w) ((s.dropWait w).settle i (do
        applyTerminalFailureTurn task.turnId error
        return some (.failSession task.sessionId task.turnId error))) := by
      refine .of_owes fun p v hp => (owes_paid hq.approvals ?_ hp).1
      rw [hleft]
      rfl
    refine ⟨hid, hdropped.owing.keep hpass hq.approvals (hq.turns ▸ Retains.refl _) fun a c he => ?_,
      hdropped.inLog.silent hsilent hq.turns hpass fun j w' hj => ?_⟩
    · rw [hleft] at he
      cases he
    · change (Server.put s.calls i (Server.left _)).lookup j = some (.sendInsertSession w') at hj
      rw [hleft, Server.lookup_put] at hj
      split at hj
      · cases hj
      · exact hj
  | tick now =>
    obtain rfl := Server.step_tick hs
    exact h.quiet hid (.of_events rfl le_rfl) rfl rfl

end

/-! ## Runs -/

theorem started_before {tail first rest : List String} {kind : String}
    (he : "turn.started" :: tail = first ++ kind :: rest) (hk : kind ∈ endKinds) : "turn.started" ∈ first := by
  cases first with
  | nil =>
    obtain ⟨rfl, -⟩ := List.cons.inj he
    exact absurd hk (by decide)
  | cons a first =>
    obtain ⟨rfl, -⟩ := List.cons.inj he
    exact List.mem_cons_self

theorem ProperLog.endsOnce {m : Manager} {sid turnId : String} {turn : TurnRecord}
    (hl : m.turns.lookup turnId = some turn) (h : ProperLog turn.status (m.turnLog sid turnId))
    (hstarted : "turn.started" ∈ m.turnLog sid turnId) : EndsOnce m sid turnId := by
  have hturn : ∀ turn', m.turns.lookup turnId = some turn' → turn' = turn := fun turn' hl' =>
    Option.some.inj (hl'.symm.trans hl)
  generalize hlog : m.turnLog sid turnId = log at h hstarted
  cases h with
  | unopened => cases hstarted
  | running unfinished =>
    refine ⟨?_, fun first rest kind he hk => started_before (hlog.symm.trans he) hk, fun turn' hl' hover => ?_⟩
    · rw [hlog]
      decide
    · rw [hturn turn' hl', unfinished] at hover
      cases hover
  | @ended kind ends finished =>
    have hends : (["turn.started", kind].filter (· ∈ endKinds)).length = 1 := by
      rw [List.filter_cons_of_neg (by decide), List.filter_cons_of_pos (by simpa using ends)]
      rfl
    rw [← hlog] at hends
    exact ⟨hends.le, fun first rest kind he hk => started_before (hlog.symm.trans he) hk, fun _ _ _ => hends⟩
  | neverRan ends =>
    rw [← List.mem_singleton.mp hstarted] at ends
    exact absurd ends (by decide)

/-- In a run whose results end started turns with an event and whose waits fail for no unfinished turn, every
started turn ends once. -/
theorem turn_ends_once {providers : List ProviderKind} {faults : List Bool} {s : Server}
    (h : Reaches Server.step (fun l s => endsAnnounced l s = true) (Server.start (Manager.empty providers faults)) s)
    (sid turnId : String) (hstarted : "turn.started" ∈ s.manager.turnLog sid turnId) :
    EndsOnce s.manager sid turnId := by
  have hinv := h.invariant (evented_start providers faults) fun _ _ _ hi hc hs => evented_step hi hc hs
  obtain ⟨turn, hl, rfl⟩ := hinv.inLog.known sid turnId (List.ne_nil_of_mem hstarted)
  exact (hinv.inLog.proper turnId turn hl).endsOnce hl hstarted

def untilWaited : List Label :=
  [.start 0 (.createSession ⟨.codex, none, none, none, none⟩),
    .goOn 0 (.session (.ok ⟨"sess_codex_0_1", "ref", none⟩)), .goOn 0 .lock,
    .start 1 (.sendTurn "sess_codex_0_1" ⟨[], none, none⟩),
    .goOn 1 (.ack (.ok ⟨"sess_codex_0_1", "turn_codex_0_3"⟩)), .goOn 1 .lock, .goOn 1 .lock]

theorem turn_ends_once_completed : ∃ s : Server,
    s.manager.turnLog "sess_codex_0_1" "turn_codex_0_3" = ["turn.started", "turn.completed"] ∧
      EndsOnce s.manager "sess_codex_0_1" "turn_codex_0_3" := by
  obtain ⟨s, hs, he⟩ := exists_reaches_of_runAll Server.step endsAnnounced
    (untilWaited ++ [.waited 0 ⟨"sess_codex_0_1", "turn_codex_0_3", .completed, none, none⟩])
    (fun s => s.manager.turnLog "sess_codex_0_1" "turn_codex_0_3") ["turn.started", "turn.completed"]
    (s := Server.start (Manager.empty [.codex] [])) (by decide +kernel)
  exact ⟨s, he, turn_ends_once hs _ _ (by rw [he]; decide)⟩

/-- The wait of a running turn fails: no write does, and the log has no end of the turn. -/
theorem not_turn_ends_once : ¬ ∀ (providers : List ProviderKind) (s : Server),
    Reaches Server.step (fun _ _ => True) (Server.start (Manager.empty providers [])) s → ∀ sid turnId,
      "turn.started" ∈ s.manager.turnLog sid turnId → EndsOnce s.manager sid turnId := by
  intro hall
  obtain ⟨s, hs, he⟩ := exists_reaches_of_runAll Server.step (fun _ _ => true)
    (untilWaited ++ [.waitFailed 0 2 (.notFound "turn"), .goOn 2 .lock])
    (fun s => (s.manager.turnLog "sess_codex_0_1" "turn_codex_0_3",
      (s.manager.turns.lookup "turn_codex_0_3").map TurnRecord.status)) (["turn.started"], some .failed)
    (s := Server.start (Manager.empty [.codex] [])) (by decide +kernel)
  obtain ⟨hlog, hfailed⟩ := Prod.mk.inj he
  obtain ⟨turn, hl, hstatus⟩ := Option.map_eq_some_iff.mp hfailed
  have hends := hall [.codex] s (hs.mono fun _ _ _ => trivial) "sess_codex_0_1" "turn_codex_0_3" (by rw [hlog]; decide)
  have hone := hends.ended turn hl (by rw [hstatus]; rfl)
  rw [hlog] at hone
  exact absurd hone (by decide)

end Gooselake.Runtime
