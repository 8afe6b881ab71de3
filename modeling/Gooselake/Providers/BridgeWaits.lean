import Gooselake.Providers.BridgeTurns

/-!
What the waits for the turns of a bridge session are answered with. A turn answers the waits that are registered under
its id when it completes; its id has to be its own, and the tables of its session must not be cleared while a wait is
registered there.
-/

namespace Gooselake.Providers.BridgeClient

open Gooselake.Core Data Library

set_option autoImplicit false

def LoopPoint.isRunning : LoopPoint → Bool
  | .prewarming | .creating | .reading | .reconnecting _ _ => true
  | .returning | .done => false

structure Board where
  sessionId : String
  turnResults : Table String TurnResult
  turnOrder : List String
  turnWaiters : Table String (List ℕ)

def SessionState.board (session : SessionState) : Board :=
  ⟨session.sessionId, session.turnResults, session.turnOrder, session.turnWaiters⟩

def Board.registered (b : Board) (turnId : String) : List ℕ := (b.turnWaiters.lookup turnId).getD []

namespace Client

variable {s s' s'' : Client} {i j o w : ℕ} {l : Loop} {b : Board} {turnId : String} {R R' : ℕ → Prop}

def board (o : ℕ) (s : Client) : Option Board := (s.objects[o]?).map SessionState.board

/-- The session object and the turn id of loop `j`. -/
def keyOf (j : ℕ) (s : Client) : Option (ℕ × String) := (s.loops[j]?).map fun l => (l.object, l.turnId)

def isRunning (j : ℕ) (s : Client) : Bool := (s.loops[j]?).any fun l => LoopPoint.isRunning l.point

/-! ## What holds of the waits -/

/-- The turns have their own ids, results and completed turns belong to loops, and a wait that is pending is registered
with its turn, which is one of the running turns `R`. -/
structure Waits (R : ℕ → Prop) (s : Client) : Prop where
  names : ∀ (sessionId : String) (o : ℕ), s.sessions.lookup sessionId = some o →
    ∃ b, s.board o = some b ∧ b.sessionId = sessionId
  ids : ∀ (i j o o' : ℕ) (turnId : String) (b b' : Board), s.keyOf i = some (o, turnId) →
    s.keyOf j = some (o', turnId) →
    s.board o = some b → s.board o' = some b' → b.sessionId = b'.sessionId → i = j
  boards : ∀ (j o : ℕ) (turnId : String), s.keyOf j = some (o, turnId) → ∃ b, s.board o = some b
  counter : ∀ (j o k : ℕ) (turnId : String), s.keyOf j = some (o, turnId) → s.nextTurn ≤ k → turnId ≠ numbered "turn" k
  results : ∀ (o : ℕ) (b : Board) (turnId : String) (r : TurnResult), s.board o = some b →
    b.turnResults.lookup turnId = some r → s.keyOf r.loop = some (o, turnId)
  order : ∀ (o : ℕ) (b : Board) (turnId : String), s.board o = some b → turnId ∈ b.turnOrder →
    ∃ j, s.keyOf j = some (o, turnId) ∧ ¬ R j
  ops : ∀ (o : ℕ) (turnIds : List String) (turnId : String), .forked o turnIds ∈ s.ops → turnId ∈ turnIds →
    ∃ j, s.keyOf j = some (o, turnId) ∧ ¬ R j
  nodup : ∀ (o : ℕ) (b : Board) (turnId : String), s.board o = some b → (b.registered turnId).Nodup
  waiters : ∀ (o : ℕ) (b : Board) (turnId : String) (w : ℕ), s.board o = some b → w ∈ b.registered turnId →
    ∃ asks, s.waits[w]? = some ⟨o, turnId, asks, .pending⟩
  pending : ∀ (w o i : ℕ) (turnId : String), s.waits[w]? = some ⟨o, turnId, some i, .pending⟩ →
    R i ∧ s.keyOf i = some (o, turnId) ∧ ∃ b, s.board o = some b ∧ w ∈ b.registered turnId
  resolved : ∀ (w o i : ℕ) (turnId : String) (r : TurnResult), s.waits[w]? = some ⟨o, turnId, some i, .resolved r⟩ →
    r.loop = i

theorem Waits.congr (h : Waits R s) (hR : ∀ j, R j ↔ R' j) : Waits R' s := by
  have he : R = R' := by
    funext j
    exact propext (hR j)
  exact he ▸ h

/-! ## Sections that leave the waits alone -/

/-- Boards, keys, waits, requests and the counter of the turns are as before, and no session is new. -/
structure Steady (s s' : Client) : Prop where
  sessions : ∀ (sessionId : String) (o : ℕ), s'.sessions.lookup sessionId = some o →
    s.sessions.lookup sessionId = some o
  boards : ∀ o, s'.board o = s.board o
  keys : ∀ j, s'.keyOf j = s.keyOf j
  waits : s'.waits = s.waits
  ops : s'.ops = s.ops
  nextTurn : s'.nextTurn = s.nextTurn

theorem Steady.refl (s : Client) : Steady s s := ⟨fun _ _ h => h, fun _ => rfl, fun _ => rfl, rfl, rfl, rfl⟩

theorem Steady.trans (h : Steady s s') (h' : Steady s' s'') : Steady s s'' :=
  ⟨fun n o hn => h.sessions n o (h'.sessions n o hn), fun o => (h'.boards o).trans (h.boards o), fun j =>
    (h'.keys j).trans (h.keys j), h'.waits.trans h.waits,
    h'.ops.trans h.ops, h'.nextTurn.trans h.nextTurn⟩

theorem board_onObject (o o' : ℕ) (f : SessionState → SessionState) (s : Client) :
    (s.onObject o f).board o' =
      (s.objects[o']?).map fun session => if o = o' then (f session).board else session.board := by
  change ((s.objects.modify o f)[o']?).map _ = _
  rw [List.getElem?_modify, Option.map_eq_map, Option.map_map]
  congr 1
  funext session
  by_cases ho : o = o' <;> simp [ho]

theorem steady_onObject (o : ℕ) (f : SessionState → SessionState) (hf : ∀ session, (f session).board = session.board) :
    Steady s (s.onObject o f) := by
  refine ⟨fun _ _ h => h, fun o' => ?_, fun _ => rfl, rfl, rfl, rfl⟩
  rw [board_onObject]
  simp [hf, board]

theorem keyOf_atPoint (i j : ℕ) (point : LoopPoint) (s : Client) : (s.atPoint i point).keyOf j = s.keyOf j := by
  change ((s.loops.modify i _)[j]?).map _ = _
  rw [List.getElem?_modify, Option.map_eq_map, Option.map_map]
  unfold keyOf
  congr 1
  funext l
  by_cases hj : i = j <;> simp [hj]

theorem steady_atPoint (i : ℕ) (point : LoopPoint) : Steady s (s.atPoint i point) :=
  ⟨fun _ _ h => h, fun _ => rfl, fun j => keyOf_atPoint i j point s, rfl, rfl, rfl⟩

theorem isRunning_atPoint (hi : s.loops[i]? = some l) (point : LoopPoint) (j : ℕ) :
    (s.atPoint i point).isRunning j = if j = i then LoopPoint.isRunning point else s.isRunning j := by
  change ((s.loops.modify i _)[j]?).any _ = _
  rw [List.getElem?_modify]
  by_cases hj : j = i
  · subst hj
    simp [hi]
  · simp only [hj, if_false, isRunning]
    cases s.loops[j]? with
    | none => rfl
    | some l => simp [Ne.symm hj]

theorem steady_resolveApprovals (o : ℕ) (p : PendingApproval → Bool) : Steady s (s.resolveApprovals o p) := by
  unfold resolveApprovals
  split
  · exact .refl s
  · have hobject := steady_onObject (s := s) o (fun session =>
      { session with pendingApprovals := session.pendingApprovals.filter fun a => !p a }) fun _ => rfl
    exact ⟨fun _ _ h => h, hobject.boards, hobject.keys, rfl, rfl, rfl⟩

theorem Waits.of_same (h : Waits R s)
    (hsessions : ∀ (sessionId : String) (o : ℕ), s'.sessions.lookup sessionId = some o →
      s.sessions.lookup sessionId = some o)
    (hboards : ∀ o, s'.board o = s.board o) (hkeys : ∀ j, s'.keyOf j = s.keyOf j)
    (hwaits : s'.waits = s.waits) (hnext : s'.nextTurn = s.nextTurn)
    (hops : ∀ (o : ℕ) (turnIds : List String) (turnId : String), .forked o turnIds ∈ s'.ops → turnId ∈ turnIds →
      ∃ j, s.keyOf j = some (o, turnId) ∧ ¬ R j) : Waits R s' := by
  refine ⟨?_, ?_, ?_, ?_, ?_, ?_, ?_, ?_, ?_, ?_, ?_⟩ <;> simp only [hboards, hkeys, hwaits, hnext]
  · exact fun n o hn => h.names n o (hsessions n o hn)
  · exact h.ids
  · exact h.boards
  · exact h.counter
  · exact h.results
  · exact h.order
  · exact hops
  · exact h.nodup
  · exact h.waiters
  · exact h.pending
  · exact h.resolved

theorem Waits.steady (h : Waits R s) (hs : Steady s s') : Waits R s' :=
  h.of_same hs.sessions hs.boards hs.keys hs.waits hs.nextTurn
    fun o turnIds turnId hop hid => h.ops o turnIds turnId (hs.ops ▸ hop) hid

/-! ## Boards that change -/

theorem Waits.change (h : Waits R s) {g : Board → Board} (hb : s.board o = some b) (hid : (g b).sessionId = b.sessionId)
    (hsessions : ∀ (sessionId : String) (o : ℕ), s'.sessions.lookup sessionId = some o →
      s.sessions.lookup sessionId = some o)
    (hboards : ∀ o', s'.board o' = if o' = o then some (g b) else s.board o') (hkeys : ∀ j, s'.keyOf j = s.keyOf j)
    (hnext : s'.nextTurn = s.nextTurn) (hR : ∀ j, R' j → R j)
    (hresults : ∀ turnId r, (g b).turnResults.lookup turnId = some r → s.keyOf r.loop = some (o, turnId))
    (horder : ∀ turnId ∈ (g b).turnOrder, ∃ j, s.keyOf j = some (o, turnId) ∧ ¬ R' j)
    (hops : ∀ (o : ℕ) (turnIds : List String) (turnId : String), .forked o turnIds ∈ s'.ops → turnId ∈ turnIds →
      ∃ j, s.keyOf j = some (o, turnId) ∧ ¬ R' j)
    (hnodup : ∀ turnId, ((g b).registered turnId).Nodup)
    (hwaiters : ∀ (o' : ℕ) (b' : Board) (turnId : String) (w : ℕ), s'.board o' = some b' → w ∈ b'.registered turnId →
      ∃ asks, s'.waits[w]? = some ⟨o', turnId, asks, .pending⟩)
    (hpending : ∀ (w o' i : ℕ) (turnId : String), s'.waits[w]? = some ⟨o', turnId, some i, .pending⟩ →
      R' i ∧ s.keyOf i = some (o', turnId) ∧ ∃ b', s'.board o' = some b' ∧ w ∈ b'.registered turnId)
    (hresolved : ∀ (w o' i : ℕ) (turnId : String) (r : TurnResult),
      s'.waits[w]? = some ⟨o', turnId, some i, .resolved r⟩ → r.loop = i) : Waits R' s' := by
  have hold : ∀ o' b', s'.board o' = some b' → ∃ b₀, s.board o' = some b₀ ∧ b₀.sessionId = b'.sessionId := by
    intro o' b' hb'
    rw [hboards] at hb'
    split at hb'
    · next he =>
      obtain rfl := Option.some.inj hb'
      exact ⟨b, he ▸ hb, hid.symm⟩
    · exact ⟨b', hb', rfl⟩
  refine ⟨?_, ?_, ?_, ?_, ?_, ?_, ?_, ?_, hwaiters, ?_, hresolved⟩ <;> try simp only [hkeys, hnext]
  · intro n o' hn
    obtain ⟨b', hb', he⟩ := h.names n o' (hsessions n o' hn)
    rw [hboards]
    split
    · next he' =>
      subst he'
      obtain rfl := Option.some.inj (hb.symm.trans hb')
      exact ⟨g b, rfl, hid.trans he⟩
    · exact ⟨b', hb', he⟩
  · intro i j o₁ o₂ turnId b₁ b₂ hi hj hb₁ hb₂ he
    obtain ⟨c₁, hc₁, he₁⟩ := hold o₁ b₁ hb₁
    obtain ⟨c₂, hc₂, he₂⟩ := hold o₂ b₂ hb₂
    exact h.ids i j o₁ o₂ turnId c₁ c₂ hi hj hc₁ hc₂ (by rw [he₁, he₂, he])
  · intro j o' turnId hj
    obtain ⟨b', hb'⟩ := h.boards j o' turnId hj
    rw [hboards]
    split
    · exact ⟨g b, rfl⟩
    · exact ⟨b', hb'⟩
  · exact h.counter
  · intro o' b' turnId r hb' hr
    rw [hboards] at hb'
    split at hb'
    · next he =>
      obtain rfl := Option.some.inj hb'
      exact he ▸ hresults turnId r hr
    · exact h.results o' b' turnId r hb' hr
  · intro o' b' turnId hb' hmem
    rw [hboards] at hb'
    split at hb'
    · next he =>
      obtain rfl := Option.some.inj hb'
      exact he ▸ horder turnId hmem
    · obtain ⟨j, hj, hnot⟩ := h.order o' b' turnId hb' hmem
      exact ⟨j, hj, fun hr => hnot (hR j hr)⟩
  · exact hops
  · intro o' b' turnId hb'
    rw [hboards] at hb'
    split at hb'
    · obtain rfl := Option.some.inj hb'
      exact hnodup turnId
    · exact h.nodup o' b' turnId hb'
  · exact hpending

theorem Waits.key_unique (h : Waits R s) (hi : s.keyOf i = some (o, turnId))
    (hj : s.keyOf j = some (o, turnId)) : i = j := by
  obtain ⟨b, hb⟩ := h.boards i o turnId hi
  exact h.ids i j o o turnId b b hi hj hb hb rfl

theorem board_of_modify {f : SessionState → SessionState} {g : Board → Board} (hb : s.board o = some b)
    (hf : ∀ session, (f session).board = g session.board) (o' : ℕ) :
    (s.onObject o f).board o' = if o' = o then some (g b) else s.board o' := by
  rw [board_onObject]
  unfold board at hb ⊢
  by_cases ho : o' = o
  · subst ho
    obtain ⟨session, hs, rfl⟩ := Option.map_eq_some_iff.mp hb
    simp [hs, hf]
  · simp [ho, Ne.symm ho]

/-! ## Completed turns -/

theorem calledWaiters_of_length {ws : List ℕ} (h : ws.length ≤ 1) : calledWaiters ws = ws := by
  match ws with
  | [] | [w] => rfl
  | _ :: _ :: _ => simp at h

def Board.completed (result : TurnResult) (b : Board) : Board :=
  { b with
    turnOrder := if result.turnId ∈ b.turnOrder then b.turnOrder else b.turnOrder ++ [result.turnId]
    turnResults := b.turnResults.insert result.turnId result
    turnWaiters := b.turnWaiters.erase result.turnId }

theorem registered_completed (result : TurnResult) (b : Board) (turnId : String) :
    Board.registered (Board.completed result b) turnId = if turnId = result.turnId then [] else
      b.registered turnId := by
  unfold Board.registered
  simp only [Board.completed, Table.lookup_erase]
  by_cases h : turnId = result.turnId <;> simp [h]

theorem completeTurn_steadyButWaits (hs : s.board o = some b) (result : TurnResult) :
    (s.completeTurn o result).sessions = s.sessions ∧
    (∀ o', (s.completeTurn o result).board o' = if o' = o then some (Board.completed result b) else s.board o') ∧
      (∀ j, (s.completeTurn o result).keyOf j = s.keyOf j) ∧ (s.completeTurn o result).ops = s.ops ∧
      (s.completeTurn o result).nextTurn = s.nextTurn ∧
      ∀ w, (s.completeTurn o result).waits[w]? = (s.waits[w]?).map fun wait =>
        if w ∈ calledWaiters (b.registered result.turnId) then { wait with outcome := .resolved result } else wait := by
  obtain ⟨session, hsession, rfl⟩ := Option.map_eq_some_iff.mp hs
  have hresolve := steady_resolveApprovals (s := s) o fun a => a.turnId = result.turnId
  have hboard := board_of_modify (g := Board.completed result) (f := completedState result)
    ((hresolve.boards o).trans hs) fun _ => rfl
  simp only [completeTurn, hsession]
  refine ⟨?_, fun o' => ?_, hresolve.keys, hresolve.ops, hresolve.nextTurn, fun w => List.getElem?_mapIdx ..⟩
  · simp [resolvePendingApprovalsForTurn, resolveApprovals, onObject, hsession]
  refine (hboard o').trans ?_
  rw [hresolve.boards]

theorem Waits.completeTurn (h : Waits R s) (result : TurnResult) (hkey : s.keyOf result.loop = some (o, result.turnId))
    (hb : s.board o = some b) (hone : (b.registered result.turnId).length ≤ 1) :
    Waits (fun j => R j ∧ j ≠ result.loop) (s.completeTurn o result) := by
  obtain ⟨hsessions, hboards, hkeys, hops, hnext, hwaits⟩ := completeTurn_steadyButWaits hb result
  rw [calledWaiters_of_length hone] at hwaits
  refine h.change (g := Board.completed result) hb rfl (fun n o hn => hsessions ▸ hn) hboards hkeys hnext
    (fun _ hj => hj.1) ?_ ?_ ?_ ?_ ?_ ?_ ?_
  · intro turnId r hr
    simp only [Board.completed, Table.lookup_insert] at hr
    split at hr
    · next he =>
      obtain rfl := Option.some.inj hr
      exact he ▸ hkey
    · exact h.results o b turnId r hb hr
  · intro turnId hmem
    have hcases : turnId ∈ b.turnOrder ∨ turnId = result.turnId := by
      simp only [Board.completed] at hmem
      split at hmem
      · exact .inl hmem
      · simpa using hmem
    obtain hold | rfl := hcases
    · obtain ⟨j, hj, hnot⟩ := h.order o b turnId hb hold
      exact ⟨j, hj, fun hr => hnot hr.1⟩
    · exact ⟨result.loop, hkey, fun hr => hr.2 rfl⟩
  · intro o' turnIds turnId hop hid
    obtain ⟨j, hj, hnot⟩ := h.ops o' turnIds turnId (hops ▸ hop) hid
    exact ⟨j, hj, fun hr => hnot hr.1⟩
  · intro turnId
    rw [registered_completed]
    split
    · exact List.nodup_nil
    · exact h.nodup o b turnId hb
  · intro o' b' turnId w hb' hw
    rw [hboards] at hb'
    have hother : (∃ b₀, s.board o' = some b₀ ∧ w ∈ b₀.registered turnId) ∧ (o' = o → turnId ≠ result.turnId) := by
      split at hb'
      · next he =>
        obtain rfl := Option.some.inj hb'
        rw [registered_completed] at hw
        split at hw
        · exact absurd hw (by simp)
        · next hne => exact ⟨⟨b, he ▸ hb, hw⟩, fun _ => hne⟩
      · next hne => exact ⟨⟨b', hb', hw⟩, fun he => absurd he hne⟩
    obtain ⟨⟨b₀, hb₀, hw₀⟩, hne⟩ := hother
    obtain ⟨asks, hwait⟩ := h.waiters o' b₀ turnId w hb₀ hw₀
    have hnot : w ∉ b.registered result.turnId := by
      intro hmem
      obtain ⟨asks', hwait'⟩ := h.waiters o b result.turnId w hb hmem
      have he := Option.some.inj (hwait.symm.trans hwait')
      simp only [Wait.mk.injEq] at he
      exact hne he.1 he.2.1
    exact ⟨asks, by rw [hwaits, hwait, Option.map_some, if_neg hnot]⟩
  · intro w o' i turnId hwait
    rw [hwaits] at hwait
    obtain ⟨wait, hwait₀, he⟩ := Option.map_eq_some_iff.mp hwait
    split at he
    · exact absurd (congrArg Wait.outcome he) (by simp)
    next hnot =>
    subst he
    obtain ⟨hr, hi, b₀, hb₀, hw₀⟩ := h.pending w o' i turnId hwait₀
    have hne : ¬ (o' = o ∧ turnId = result.turnId) := by
      rintro ⟨rfl, rfl⟩
      obtain rfl := Option.some.inj (hb.symm.trans hb₀)
      exact hnot hw₀
    refine ⟨⟨hr, ?_⟩, hi, ?_⟩
    · rintro rfl
      have he := Option.some.inj (hi.symm.trans hkey)
      exact hne (Prod.mk.inj he)
    · rw [hboards]
      split
      · next he =>
        subst he
        obtain rfl := Option.some.inj (hb.symm.trans hb₀)
        refine ⟨_, rfl, ?_⟩
        rw [registered_completed, if_neg fun hid => hne ⟨rfl, hid⟩]
        exact hw₀
      · exact ⟨b₀, hb₀, hw₀⟩
  · intro w o' i turnId r hwait
    rw [hwaits] at hwait
    obtain ⟨wait, hwait₀, he⟩ := Option.map_eq_some_iff.mp hwait
    split at he
    · next hmem =>
      -- the wait asked for the turn that is completed
      obtain ⟨asks, hpending⟩ := h.waiters o b result.turnId w hb hmem
      obtain rfl := Option.some.inj (hwait₀.symm.trans hpending)
      simp only [Wait.mk.injEq, WaitOutcome.resolved.injEq] at he
      obtain ⟨-, -, rfl, rfl⟩ := he
      obtain ⟨-, hi, -⟩ := h.pending w o i result.turnId hpending
      exact h.key_unique hkey hi
    · subst he
      exact h.resolved w o' i turnId r hwait₀

theorem Waits.endTurn (h : Waits R s) (hi : s.loops[i]? = some l) (hb : s.board l.object = some b)
    (hone : (b.registered l.turnId).length ≤ 1) (status : TurnTerminalStatus) :
    Waits (fun j => R j ∧ j ≠ i) (s.endTurn i l status) := by
  have hsteady := steady_onObject (s := s) l.object (fun session =>
    { session with interruptedTurns := session.interruptedTurns.filter (· ≠ l.turnId) }) fun _ => rfl
  have hkey : s.keyOf i = some (l.object, l.turnId) := by simp [keyOf, hi]
  exact (h.steady hsteady).completeTurn ⟨l.turnId, _, i⟩ hkey ((hsteady.boards _).trans hb) hone

/-! ## Sessions and turns that are added -/

theorem Waits.addObject (h : Waits R s) (sessionId : String) (nextSession : ℕ) :
    Waits R { s with
      sessions := s.sessions.insert sessionId s.objects.length
      objects := s.objects ++ [createSessionState sessionId]
      nextSession := nextSession } := by
  generalize hs' : ({ s with
    sessions := s.sessions.insert sessionId s.objects.length
    objects := s.objects ++ [createSessionState sessionId]
    nextSession := nextSession } : Client) = s'
  have hold : ∀ o b, s'.board o = some b → s.board o = some b ∨ b = (createSessionState sessionId).board := by
    intro o b hb
    obtain ⟨session, hsession, rfl⟩ := Option.map_eq_some_iff.mp hb
    rw [← hs', List.getElem?_append] at hsession
    split at hsession
    · exact .inl (by simp [board, hsession])
    · exact .inr (by rw [List.mem_singleton.mp (List.mem_of_getElem? hsession)])
  have hkeep : ∀ o b, s.board o = some b → s'.board o = some b := by
    intro o b hb
    obtain ⟨session, hsession, rfl⟩ := Option.map_eq_some_iff.mp hb
    have hlt := (List.getElem?_eq_some_iff.mp hsession).1
    rw [← hs', board, List.getElem?_append_left hlt, hsession, Option.map_some]
  have hkeys : ∀ j, s'.keyOf j = s.keyOf j := fun j => by rw [← hs']; rfl
  have hwaits : s'.waits = s.waits := by rw [← hs']
  have hops : s'.ops = s.ops := by rw [← hs']
  have hnext : s'.nextTurn = s.nextTurn := by rw [← hs']
  have hboard : ∀ j o turnId b, s.keyOf j = some (o, turnId) → s'.board o = some b → s.board o = some b := by
    intro j o turnId b hj hb
    obtain ⟨b₀, hb₀⟩ := h.boards j o turnId hj
    rw [hkeep o b₀ hb₀] at hb
    exact hb ▸ hb₀
  refine ⟨?_, ?_, ?_, ?_, ?_, ?_, ?_, ?_, ?_, ?_, ?_⟩ <;> try simp only [hkeys, hwaits, hops, hnext]
  · intro n o hn
    rw [← hs', Table.lookup_insert] at hn
    split at hn
    · next he =>
      obtain rfl := Option.some.inj hn
      exact ⟨(createSessionState sessionId).board, by simp [← hs', board], he.symm⟩
    · obtain ⟨b, hb, he⟩ := h.names n o hn
      exact ⟨b, hkeep o b hb, he⟩
  · intro i j o₁ o₂ turnId b₁ b₂ hi hj hb₁ hb₂ he
    exact h.ids i j o₁ o₂ turnId b₁ b₂ hi hj (hboard i o₁ turnId b₁ hi hb₁) (hboard j o₂ turnId b₂ hj hb₂) he
  · intro j o turnId hj
    obtain ⟨b, hb⟩ := h.boards j o turnId hj
    exact ⟨b, hkeep o b hb⟩
  · exact h.counter
  · intro o b turnId r hb hr
    obtain hb | rfl := hold o b hb
    · exact h.results o b turnId r hb hr
    · exact absurd hr (by simp [SessionState.board, createSessionState])
  · intro o b turnId hb hmem
    obtain hb | rfl := hold o b hb
    · exact h.order o b turnId hb hmem
    · exact absurd hmem (by simp [SessionState.board, createSessionState])
  · exact h.ops
  · intro o b turnId hb
    obtain hb | rfl := hold o b hb
    · exact h.nodup o b turnId hb
    · exact List.nodup_nil
  · intro o b turnId w hb hw
    obtain hb | rfl := hold o b hb
    · exact h.waiters o b turnId w hb hw
    · exact absurd hw (by simp [Board.registered, SessionState.board, createSessionState])
  · intro w o i turnId hwait
    obtain ⟨hr, hi, b, hb, hw⟩ := h.pending w o i turnId hwait
    exact ⟨hr, hi, b, hkeep o b hb, hw⟩
  · exact h.resolved

def isFreeId (o : ℕ) (turnId : String) (s : Client) : Bool :=
  (s.loops.all fun l => l.turnId ≠ turnId ||
    decide ((s.board l.object).map Board.sessionId ≠ (s.board o).map Board.sessionId)) &&
  (turnId ≠ numbered "turn" (counterOf turnId) || decide (counterOf turnId < s.nextTurn))

theorem not_numbered_of_isFreeId (h : s.isFreeId o turnId = true) {k : ℕ} (hk : s.nextTurn ≤ k) :
    turnId ≠ numbered "turn" k := by
  rintro rfl
  simp only [isFreeId, counterOf_numbered, Bool.and_eq_true, Bool.or_eq_true, decide_eq_true_eq] at h
  obtain hne | hlt := h.2
  · exact hne rfl
  · omega

theorem Waits.start (h : Waits R s) (hb : s.board o = some b) (expectedTurnId : Option String)
    (hid : turnId = expectedTurnId.getD (numbered "turn" s.nextTurn))
    (hfree : ∀ given, expectedTurnId = some given → s.isFreeId o given = true) :
    Waits (fun j => R j ∨ j = s.loops.length) (s.withTurn o turnId expectedTurnId) := by
  have hsteady : Steady s (s.onObject o (startedState turnId)) := steady_onObject o _ fun _ => rfl
  generalize hs' : s.withTurn o turnId expectedTurnId = s'
  have hboards : ∀ o', s'.board o' = s.board o' := by
    rw [← hs']
    exact hsteady.boards
  have hsessions : s'.sessions = s.sessions := by rw [← hs']; rfl
  have hwaits : s'.waits = s.waits := by rw [← hs']; rfl
  have hops : s'.ops = s.ops := by rw [← hs']; rfl
  have hkeys : ∀ j, s'.keyOf j = if j = s.loops.length then some (o, turnId) else s.keyOf j := by
    intro j
    rw [← hs']
    show ((s.loops ++ [(⟨o, turnId, .prewarming⟩ : Loop)])[j]?).map _ = _
    by_cases hj : j = s.loops.length
    · simp [hj]
    · rw [if_neg hj, keyOf]
      obtain hlt | hle := Nat.lt_or_ge j s.loops.length
      · rw [List.getElem?_append_left hlt]
      · rw [List.getElem?_eq_none hle, List.getElem?_eq_none (by simp; omega)]
  have hkeep : ∀ j key, s.keyOf j = some key → s'.keyOf j = some key ∧ j ≠ s.loops.length := by
    intro j key hj
    have hne : j ≠ s.loops.length := by
      rintro rfl
      simp [keyOf] at hj
    exact ⟨by rw [hkeys, if_neg hne, hj], hne⟩
  -- the new id is not that of another turn of the session
  have hnew : ∀ j o' b', s.keyOf j = some (o', turnId) → s.board o' = some b' → b'.sessionId ≠ b.sessionId := by
    intro j o' b' hj hb' he
    cases hgiven : expectedTurnId with
    | none =>
      rw [hgiven] at hid
      exact h.counter j o' s.nextTurn turnId hj (Nat.le_refl _) hid
    | some given =>
      rw [hgiven] at hid
      obtain rfl : turnId = given := hid
      have hall := hfree turnId hgiven
      simp only [isFreeId, Bool.and_eq_true, List.all_eq_true] at hall
      obtain ⟨l, hl, hkey⟩ := Option.map_eq_some_iff.mp hj
      obtain ⟨rfl, hid'⟩ := Prod.mk.inj hkey
      have hl := hall.1 l (List.mem_of_getElem? hl)
      simp [hid', hb', hb, he] at hl
  refine ⟨?_, ?_, ?_, ?_, ?_, ?_, ?_, ?_, ?_, ?_, ?_⟩ <;> try simp only [hsessions, hboards, hwaits, hops]
  · exact h.names
  · intro i j o₁ o₂ id b₁ b₂ hi hj hb₁ hb₂ he
    rw [hkeys] at hi hj
    split at hi
    · next hi' =>
      obtain ⟨rfl, rfl⟩ := Prod.mk.inj (Option.some.inj hi)
      obtain rfl := Option.some.inj (hb.symm.trans hb₁)
      split at hj
      · next hj' => rw [hi', hj']
      · exact absurd he.symm (hnew j o₂ b₂ hj hb₂)
    · split at hj
      · obtain ⟨rfl, rfl⟩ := Prod.mk.inj (Option.some.inj hj)
        obtain rfl := Option.some.inj (hb.symm.trans hb₂)
        exact absurd he (hnew i o₁ b₁ hi hb₁)
      · exact h.ids i j o₁ o₂ id b₁ b₂ hi hj hb₁ hb₂ he
  · intro j o' id hj
    rw [hkeys] at hj
    split at hj
    · obtain ⟨rfl, rfl⟩ := Prod.mk.inj (Option.some.inj hj)
      exact ⟨b, hb⟩
    · exact h.boards j o' id hj
  · intro j o' k id hj hk
    have hnext : s'.nextTurn = if expectedTurnId.isSome then s.nextTurn else s.nextTurn + 1 := by rw [← hs']; rfl
    have hle : s.nextTurn ≤ k := by
      rw [hnext] at hk
      split at hk <;> omega
    rw [hkeys] at hj
    split at hj
    · obtain ⟨rfl, rfl⟩ := Prod.mk.inj (Option.some.inj hj)
      cases hgiven : expectedTurnId with
      | none =>
        rw [hgiven] at hid hnext
        rintro rfl
        have hk' : k = s.nextTurn := numbered_inj hid
        simp only [Option.isSome_none, Bool.false_eq_true, if_false] at hnext
        omega
      | some given =>
        rw [hgiven] at hid
        obtain rfl : turnId = given := hid
        exact not_numbered_of_isFreeId (hfree turnId hgiven) hle
    · exact h.counter j o' k id hj hle
  · intro o' b' id r hb' hr
    exact (hkeep _ _ (h.results o' b' id r hb' hr)).1
  · intro o' b' id hb' hmem
    obtain ⟨j, hj, hnot⟩ := h.order o' b' id hb' hmem
    obtain ⟨hj', hne⟩ := hkeep j _ hj
    exact ⟨j, hj', fun hr => hr.elim hnot hne⟩
  · intro o' turnIds id hop hid
    obtain ⟨j, hj, hnot⟩ := h.ops o' turnIds id hop hid
    obtain ⟨hj', hne⟩ := hkeep j _ hj
    exact ⟨j, hj', fun hr => hr.elim hnot hne⟩
  · exact h.nodup
  · exact h.waiters
  · intro w o' i id hwait
    obtain ⟨hr, hi, hrest⟩ := h.pending w o' i id hwait
    exact ⟨.inl hr, (hkeep i _ hi).1, hrest⟩
  · exact h.resolved

/-! ## Tables that are cleared -/

def waitedOn (o : ℕ) (s : Client) : Bool :=
  s.waits.any fun wait => wait.object = o && wait.asks.isSome && wait.outcome = .pending

def Board.cleared (b : Board) : Board := ⟨b.sessionId, ∅, [], ∅⟩

theorem Waits.clear (h : Waits R s) (hb : s.board o = some b) (hfree : s.waitedOn o = false)
    (hsessions : ∀ (sessionId : String) (o : ℕ), s'.sessions.lookup sessionId = some o →
      s.sessions.lookup sessionId = some o)
    (hboards : ∀ o', s'.board o' = if o' = o then some (Board.cleared b) else s.board o')
    (hkeys : ∀ j, s'.keyOf j = s.keyOf j) (hwaits : s'.waits = s.waits) (hnext : s'.nextTurn = s.nextTurn)
    (hops : ∀ op ∈ s'.ops, op ∈ s.ops ∨ op = .over) : Waits R s' := by
  refine h.change (g := Board.cleared) hb rfl hsessions hboards hkeys hnext (fun _ hj => hj) ?_ ?_ ?_ ?_ ?_ ?_ ?_
  · intro turnId r hr
    exact absurd hr (by simp [Board.cleared])
  · intro turnId hmem
    exact absurd hmem (by simp [Board.cleared])
  · intro o' turnIds turnId hop hid
    obtain hop | hop := hops _ hop
    · exact h.ops o' turnIds turnId hop hid
    · exact absurd hop (by simp)
  · exact fun turnId => List.nodup_nil
  · intro o' b' turnId w hb' hw
    rw [hboards] at hb'
    split at hb'
    · obtain rfl := Option.some.inj hb'
      exact absurd hw (by simp [Board.registered, Board.cleared])
    · exact hwaits ▸ h.waiters o' b' turnId w hb' hw
  · intro w o' i turnId hwait
    rw [hwaits] at hwait
    obtain ⟨hr, hi, b', hb', hw⟩ := h.pending w o' i turnId hwait
    refine ⟨hr, hi, ?_⟩
    have hne : o' ≠ o := by
      rintro rfl
      simp only [waitedOn, List.any_eq_false] at hfree
      exact absurd (hfree _ (List.mem_of_getElem? hwait)) (by simp)
    rw [hboards, if_neg hne]
    exact ⟨b', hb', hw⟩
  · exact hwaits ▸ h.resolved

theorem Waits.resume (h : Waits R s) {sessionId : String}
    (hfree : ∀ o, s.sessions.lookup sessionId = some o → s.waitedOn o = false) :
    Waits R (s.resumeSession sessionId) := by
  unfold resumeSession
  split
  · exact h.addObject sessionId s.nextSession
  · next o ho =>
    obtain ⟨b, hb, -⟩ := h.names sessionId o ho
    have hresolve : Steady s (s.resolveAllPendingApprovals o) := steady_resolveApprovals o _
    have hboard := (hresolve.boards o).trans hb
    refine (h.steady hresolve).clear hboard ?_ (fun _ _ hn => hn)
      (board_of_modify (g := Board.cleared) hboard fun _ => rfl) (fun _ => rfl) rfl rfl fun op hop => .inl hop
    rw [waitedOn, hresolve.waits]
    exact hfree o ho

theorem mem_set_over {ops : List Op} {k : ℕ} {op : Op} (h : op ∈ ops.set k .over) : op ∈ ops ∨ op = .over := by
  obtain h | h := List.mem_or_eq_of_mem_set h
  · exact .inl h
  · exact .inr h

theorem Waits.close (h : Waits R s) {k : ℕ} (sessionId : String) (hfree : s.waitedOn o = false) :
    Waits R { s.finishClose o sessionId with ops := s.ops.set k .over } := by
  have hresolve : Steady s (s.resolveAllPendingApprovals o) := steady_resolveApprovals o _
  have hsessions : ∀ (n : String) (o' : ℕ), (s.sessions.erase sessionId).lookup n = some o' →
      s.sessions.lookup n = some o' := by
    intro n o' hn
    rw [Table.lookup_erase] at hn
    split at hn
    · exact absurd hn (by simp)
    · exact hn
  cases hb : s.board o with
  | none =>
    have hobject := board_onObject o (s := s.resolveAllPendingApprovals o) (f := closedState)
    refine h.of_same hsessions (fun o' => ?_) hresolve.keys hresolve.waits hresolve.nextTurn ?_
    · refine (hobject o').trans ?_
      rw [← hresolve.boards o']
      unfold board
      by_cases ho : o = o'
      · have hnone := (hresolve.boards o).trans hb
        rw [board, Option.map_eq_none_iff] at hnone
        rw [← ho, hnone]
        rfl
      · simp [ho]
    · intro o' turnIds turnId hop hid
      obtain hop | hop := mem_set_over hop
      · exact h.ops o' turnIds turnId hop hid
      · exact absurd hop (by simp)
  | some b =>
    have hboard := (hresolve.boards o).trans hb
    refine h.clear hb hfree hsessions (fun o' => ?_) hresolve.keys hresolve.waits hresolve.nextTurn fun op hop =>
      mem_set_over hop
    refine (board_of_modify (f := closedState) (g := Board.cleared) hboard (fun _ => rfl) o').trans ?_
    rw [hresolve.boards]

def Board.pruned (turnIds : List String) (b : Board) : Board :=
  { b with
    turnOrder := b.turnOrder.filter fun turnId => turnId ∉ turnIds
    turnResults := b.turnResults.eraseAll turnIds
    turnWaiters := b.turnWaiters.eraseAll turnIds }

theorem registered_pruned (turnIds : List String) (b : Board) (turnId : String) :
    Board.registered (Board.pruned turnIds b) turnId = if turnId ∈ turnIds then [] else b.registered turnId := by
  unfold Board.registered
  simp only [Board.pruned, Table.lookup_eraseAll]
  by_cases h : turnId ∈ turnIds <;> simp [h]

theorem Waits.prune (h : Waits R s) {turnIds : List String} (hb : s.board o = some b)
    (hdone : ∀ turnId ∈ turnIds, ∃ j, s.keyOf j = some (o, turnId) ∧ ¬ R j) :
    Waits R (s.onObject o (prunedState turnIds)) := by
  have hboards := board_of_modify (f := prunedState turnIds) (g := Board.pruned turnIds) hb fun _ => rfl
  refine h.change (g := Board.pruned turnIds) hb rfl (fun _ _ hn => hn) hboards (fun _ => rfl) rfl (fun _ hj => hj)
    ?_ ?_ h.ops ?_ ?_ ?_ h.resolved
  · intro turnId r hr
    simp only [Board.pruned, Table.lookup_eraseAll] at hr
    split at hr
    · exact absurd hr (by simp)
    · exact h.results o b turnId r hb hr
  · intro turnId hmem
    exact h.order o b turnId hb (List.mem_filter.mp hmem).1
  · intro turnId
    rw [registered_pruned]
    split
    · exact List.nodup_nil
    · exact h.nodup o b turnId hb
  · intro o' b' turnId w hb' hw
    rw [hboards] at hb'
    split at hb'
    · next he =>
      obtain rfl := Option.some.inj hb'
      rw [registered_pruned] at hw
      split at hw
      · exact absurd hw (by simp)
      · exact h.waiters o' b turnId w (he ▸ hb) hw
    · exact h.waiters o' b' turnId w hb' hw
  · intro w o' i turnId hwait
    obtain ⟨hr, hi, b', hb', hw⟩ := h.pending w o' i turnId hwait
    refine ⟨hr, hi, ?_⟩
    rw [hboards]
    split
    · next he =>
      subst he
      obtain rfl := Option.some.inj (hb.symm.trans hb')
      have hnot : turnId ∉ turnIds := by
        intro hmem
        obtain ⟨j, hj, hnot⟩ := hdone turnId hmem
        obtain rfl := h.key_unique hi hj
        exact hnot hr
      refine ⟨_, rfl, ?_⟩
      rw [registered_pruned, if_neg hnot]
      exact hw
    · exact ⟨b', hb', hw⟩

/-! ## Waits -/

theorem lastTurn_spec {sessionId : String} (h : s.lastTurn sessionId turnId = some i) :
    ∃ o b, s.keyOf i = some (o, turnId) ∧ s.board o = some b ∧ b.sessionId = sessionId := by
  have hfound := List.find?_some h
  obtain ⟨l, hl, hmeet⟩ := (Option.any_eq_true _ _).mp hfound
  simp only [Bool.and_eq_true, decide_eq_true_eq] at hmeet
  obtain ⟨session, hs, hname⟩ := (Option.any_eq_true _ _).mp hmeet.2
  refine ⟨l.object, session.board, ?_, ?_, ?_⟩
  · simp [keyOf, hl, hmeet.1]
  · simp [board, hs]
  · simpa [SessionState.board] using hname

def canBeAnswered (sessionId turnId : String) (s : Client) : Bool :=
  match s.requireSession sessionId with
  | .error _ => true
  | .ok (o, session) => (session.turnResults.lookup turnId).isSome ||
      (s.lastTurn sessionId turnId).all fun i => s.isRunning i && (s.keyOf i).any fun key => key.1 = o

theorem getElem?_concat_wait {waits : List Wait} {wait wait' : Wait} (h : (waits ++ [wait])[w]? = some wait') :
    waits[w]? = some wait' ∨ (w = waits.length ∧ wait' = wait) := by
  rw [List.getElem?_append] at h
  split at h
  · exact .inl h
  · have hlt := (List.getElem?_eq_some_iff.mp h).1
    rw [List.length_singleton] at hlt
    exact .inr ⟨by omega, List.mem_singleton.mp (List.mem_of_getElem? h)⟩

theorem getElem?_wait_of_lt {waits : List Wait} {wait wait' : Wait} (h : waits[w]? = some wait) :
    (waits ++ [wait'])[w]? = some wait := by
  rw [List.getElem?_append_left (List.getElem?_eq_some_iff.mp h).1, h]

theorem Waits.answerNow (h : Waits R s) {asks : Option ℕ} {result : TurnResult}
    (hasks : ∀ i, asks = some i → result.loop = i) :
    Waits R { s with waits := s.waits ++ [⟨o, turnId, asks, .resolved result⟩] } := by
  refine ⟨h.names, h.ids, h.boards, h.counter, h.results, h.order, h.ops, h.nodup, ?_, ?_, ?_⟩
  · intro o' b' turnId' w hb' hw
    obtain ⟨asks', hwait⟩ := h.waiters o' b' turnId' w hb' hw
    exact ⟨asks', getElem?_wait_of_lt hwait⟩
  · intro w o' i turnId' hwait
    obtain hwait | ⟨-, he⟩ := getElem?_concat_wait hwait
    · exact h.pending w o' i turnId' hwait
    · exact absurd (congrArg Wait.outcome he) (by simp)
  · intro w o' i turnId' r hwait
    obtain hwait | ⟨-, he⟩ := getElem?_concat_wait hwait
    · exact h.resolved w o' i turnId' r hwait
    · simp only [Wait.mk.injEq, WaitOutcome.resolved.injEq] at he
      obtain ⟨-, -, hi, rfl⟩ := he
      exact hasks i hi.symm

def Board.await (turnId : String) (w : ℕ) (b : Board) : Board :=
  { b with turnWaiters := b.turnWaiters.insert turnId ((b.turnWaiters.lookup turnId).getD [] ++ [w]) }

theorem registered_await (turnId : String) (w : ℕ) (b : Board) (turnId' : String) :
    Board.registered (Board.await turnId w b) turnId' =
      if turnId' = turnId then b.registered turnId ++ [w] else b.registered turnId' := by
  unfold Board.registered
  simp only [Board.await, Table.lookup_insert]
  by_cases h : turnId' = turnId <;> simp [h]

theorem Waits.await (h : Waits R s) (o : ℕ) (turnId : String) (asks : Option ℕ) (hb : s.board o = some b)
    (hasks : ∀ i, asks = some i → R i ∧ s.keyOf i = some (o, turnId))
    (hboards : ∀ o', s'.board o' = if o' = o then some (Board.await turnId s.waits.length b) else s.board o')
    (hsessions : s'.sessions = s.sessions) (hkeys : ∀ j, s'.keyOf j = s.keyOf j) (hnext : s'.nextTurn = s.nextTurn)
    (hops : s'.ops = s.ops) (hwaits : s'.waits = s.waits ++ [⟨o, turnId, asks, .pending⟩]) : Waits R s' := by
  refine h.change (g := Board.await turnId s.waits.length) hb rfl (fun _ _ hn => hsessions ▸ hn) hboards hkeys hnext
    (fun _ hj => hj) (h.results o b · · hb) (h.order o b · hb) (fun o' ids id hop => h.ops o' ids id (hops ▸ hop))
    ?_ ?_ ?_ ?_
  · intro turnId'
    rw [registered_await]
    split
    · refine List.Nodup.append (h.nodup o b turnId hb) (List.nodup_singleton _) ?_
      rw [List.disjoint_singleton]
      intro hmem
      obtain ⟨asks', hwait⟩ := h.waiters o b turnId _ hb hmem
      simp at hwait
    · exact h.nodup o b turnId' hb
  · intro o' b' turnId' w hb' hw
    rw [hwaits]
    have hcases : (∃ b₀, s.board o' = some b₀ ∧ w ∈ b₀.registered turnId') ∨
        (w = s.waits.length ∧ o' = o ∧ turnId' = turnId) := by
      rw [hboards] at hb'
      split at hb'
      · next he =>
        obtain rfl := Option.some.inj hb'
        rw [registered_await] at hw
        split at hw
        · next hid =>
          obtain hw | hw := List.mem_append.mp hw
          · exact .inl ⟨b, he ▸ hb, hid ▸ hw⟩
          · exact .inr ⟨List.mem_singleton.mp hw, he, hid⟩
        · exact .inl ⟨b, he ▸ hb, hw⟩
      · exact .inl ⟨b', hb', hw⟩
    obtain ⟨b₀, hb₀, hw₀⟩ | ⟨rfl, rfl, rfl⟩ := hcases
    · obtain ⟨asks', hwait⟩ := h.waiters o' b₀ turnId' w hb₀ hw₀
      exact ⟨asks', getElem?_wait_of_lt hwait⟩
    · exact ⟨asks, by simp⟩
  · intro w o' i turnId' hwait
    rw [hwaits] at hwait
    obtain hwait | ⟨rfl, he⟩ := getElem?_concat_wait hwait
    · obtain ⟨hr, hi, b', hb', hw⟩ := h.pending w o' i turnId' hwait
      refine ⟨hr, hi, ?_⟩
      rw [hboards]
      split
      · next he =>
        subst he
        obtain rfl := Option.some.inj (hb.symm.trans hb')
        refine ⟨_, rfl, ?_⟩
        rw [registered_await]
        split
        · next hid => exact List.mem_append_left _ (hid ▸ hw)
        · exact hw
      · exact ⟨b', hb', hw⟩
    · simp only [Wait.mk.injEq] at he
      obtain ⟨rfl, rfl, hi, -⟩ := he
      obtain ⟨hr, hkey⟩ := hasks i hi.symm
      refine ⟨hr, hkey, _, by rw [hboards, if_pos rfl], ?_⟩
      rw [registered_await, if_pos rfl]
      simp
  · intro w o' i turnId' r hwait
    rw [hwaits] at hwait
    obtain hwait | ⟨-, he⟩ := getElem?_concat_wait hwait
    · exact h.resolved w o' i turnId' r hwait
    · exact absurd (congrArg Wait.outcome he) (by simp)

theorem Waits.waitForTurn (h : Waits (fun j => s.isRunning j = true) s) {sessionId : String}
    (hcan : s.canBeAnswered sessionId turnId = true) (hs : s.waitForTurn sessionId turnId = .ok s') :
    Waits (fun j => s.isRunning j = true) s' := by
  obtain ⟨o, session, ho, hsession, hcases⟩ := waitForTurn_spec hs
  obtain ⟨b, hb, hname⟩ := h.names sessionId o ho
  have hboard : session.board = b := by
    rw [board, hsession, Option.map_some] at hb
    exact Option.some.inj hb
  obtain ⟨result, hresult, rfl⟩ | ⟨hnone, rfl⟩ := hcases
  · refine h.answerNow fun i hasks => ?_
    obtain ⟨o', b', hi, hb', hname'⟩ := lastTurn_spec hasks
    have hkey := h.results o b turnId result hb (hboard ▸ hresult)
    exact h.ids result.loop i o o' turnId b b' hkey hi hb hb' (hname.trans hname'.symm)
  · refine h.await o turnId (s.lastTurn sessionId turnId) hb ?_ ?_ rfl (fun _ => rfl) rfl rfl rfl
    · intro i hasks
      have hfound : s.requireSession sessionId = .ok (o, session) := by simp [requireSession, ho, hsession]
      simp only [canBeAnswered, hfound, hnone, Option.isSome_none, Bool.false_or, hasks, Option.all_some,
        Bool.and_eq_true] at hcan
      obtain ⟨o', -, hi, -⟩ := lastTurn_spec hasks
      have hobject : o' = o := by simpa [hi] using hcan.2
      exact ⟨hcan.1, hobject ▸ hi⟩
    · exact board_of_modify (g := Board.await turnId s.waits.length) hb fun _ => rfl

def Board.unawait (turnId : String) (w : ℕ) (b : Board) : Board :=
  match b.turnWaiters.lookup turnId with
  | none => b
  | some waiters =>
    { b with
      turnWaiters := if waiters.erase w = [] then b.turnWaiters.erase turnId else
        b.turnWaiters.insert turnId (waiters.erase w) }

theorem board_removeTurnWaiter (turnId : String) (w : ℕ) (session : SessionState) :
    (removeTurnWaiter turnId w session).board = Board.unawait turnId w session.board := by
  unfold removeTurnWaiter Board.unawait SessionState.board
  cases hlookup : session.turnWaiters.lookup turnId with
  | none => simp
  | some waiters => simp

theorem unawait_same (turnId : String) (w : ℕ) (b : Board) :
    (Board.unawait turnId w b).sessionId = b.sessionId ∧ (Board.unawait turnId w b).turnResults = b.turnResults ∧
      (Board.unawait turnId w b).turnOrder = b.turnOrder := by
  unfold Board.unawait
  split <;> exact ⟨rfl, rfl, rfl⟩

theorem registered_unawait (turnId : String) (w : ℕ) (b : Board) (turnId' : String) :
    Board.registered (Board.unawait turnId w b) turnId' =
      if turnId' = turnId then (b.registered turnId).erase w else b.registered turnId' := by
  unfold Board.unawait Board.registered
  cases hlookup : b.turnWaiters.lookup turnId with
  | none =>
    dsimp only
    split
    · next h => rw [h, hlookup]; rfl
    · rfl
  | some waiters =>
    dsimp only
    by_cases hempty : waiters.erase w = []
    · rw [if_pos hempty, Table.lookup_erase]
      by_cases h : turnId' = turnId <;> simp [h, hempty]
    · rw [if_neg hempty, Table.lookup_insert]
      by_cases h : turnId' = turnId <;> simp [h]

theorem wait_of_set {waits : List Wait} {wait x : Wait} {v : ℕ}
    (h : (waits.set w { wait with outcome := .timedOut })[v]? = some x) :
    (v ≠ w ∧ waits[v]? = some x) ∨ x.outcome = .timedOut := by
  rw [List.getElem?_set] at h
  split at h
  · split at h
    · obtain rfl := Option.some.inj h
      exact .inr rfl
    · exact absurd h (by simp)
  · next hne => exact .inl ⟨Ne.symm hne, h⟩

theorem Waits.settle (h : Waits R s) {wait : Wait} (hwait : s.waits[w]? = some wait) (hb : s.board wait.object = some b)
    (hboards : ∀ o', s'.board o' = if o' = wait.object then some (Board.unawait wait.turnId w b) else s.board o')
    (hsessions : s'.sessions = s.sessions) (hkeys : ∀ j, s'.keyOf j = s.keyOf j) (hnext : s'.nextTurn = s.nextTurn)
    (hops : s'.ops = s.ops) (hwaits : s'.waits = s.waits.set w { wait with outcome := .timedOut }) : Waits R s' := by
  obtain ⟨hname, hresults, horder⟩ := unawait_same wait.turnId w b
  have hset : ∀ v x, s'.waits[v]? = some x → (v ≠ w ∧ s.waits[v]? = some x) ∨ x.outcome = .timedOut :=
    fun v x hx => wait_of_set (hwaits ▸ hx)
  have hother : ∀ v, v ≠ w → s'.waits[v]? = s.waits[v]? := by
    intro v hne
    rw [hwaits, List.getElem?_set_ne (Ne.symm hne)]
  refine h.change (g := Board.unawait wait.turnId w) hb hname (fun _ _ hn => hsessions ▸ hn) hboards hkeys hnext
    (fun _ hj => hj) ?_ ?_ (fun o' ids id hop => h.ops o' ids id (hops ▸ hop)) ?_ ?_ ?_ ?_
  · intro turnId r hr
    rw [hresults] at hr
    exact h.results wait.object b turnId r hb hr
  · intro turnId hmem
    rw [horder] at hmem
    exact h.order wait.object b turnId hb hmem
  · intro turnId
    rw [registered_unawait]
    split
    · exact (h.nodup wait.object b wait.turnId hb).erase w
    · exact h.nodup wait.object b turnId hb
  · intro o' b' turnId v hb' hv
    have hold : (∃ b₀, s.board o' = some b₀ ∧ v ∈ b₀.registered turnId) ∧
        (v = w → ¬ (o' = wait.object ∧ turnId = wait.turnId)) := by
      rw [hboards] at hb'
      split at hb'
      · next he =>
        obtain rfl := Option.some.inj hb'
        rw [registered_unawait] at hv
        split at hv
        · next hid =>
          obtain ⟨hne, hmem⟩ := (h.nodup wait.object b wait.turnId hb).mem_erase_iff.mp hv
          exact ⟨⟨b, he ▸ hb, hid ▸ hmem⟩, fun hvw => absurd hvw hne⟩
        · next hid => exact ⟨⟨b, he ▸ hb, hv⟩, fun _ hboth => hid hboth.2⟩
      · next hne => exact ⟨⟨b', hb', hv⟩, fun _ hboth => hne hboth.1⟩
    obtain ⟨⟨b₀, hb₀, hmem⟩, hnot⟩ := hold
    obtain ⟨asks, hv⟩ := h.waiters o' b₀ turnId v hb₀ hmem
    have hne : v ≠ w := by
      rintro rfl
      obtain rfl := Option.some.inj (hwait.symm.trans hv)
      exact hnot rfl ⟨rfl, rfl⟩
    exact ⟨asks, (hother v hne).trans hv⟩
  · intro v o' i turnId hv
    obtain ⟨hne, hv⟩ | htimed := hset v _ hv
    · obtain ⟨hr, hi, b', hb', hmem⟩ := h.pending v o' i turnId hv
      refine ⟨hr, hi, ?_⟩
      rw [hboards]
      split
      · next he =>
        subst he
        obtain rfl := Option.some.inj (hb.symm.trans hb')
        refine ⟨_, rfl, ?_⟩
        rw [registered_unawait]
        split
        · next hid => exact (List.mem_erase_of_ne hne).mpr (hid ▸ hmem)
        · exact hmem
      · exact ⟨b', hb', hmem⟩
    · exact absurd htimed (by simp)
  · intro v o' i turnId r hv
    obtain ⟨-, hv⟩ | htimed := hset v _ hv
    · exact h.resolved v o' i turnId r hv
    · exact absurd htimed (by simp)

theorem Waits.settleUnregistered (h : Waits R s) {wait : Wait} (hwait : s.waits[w]? = some wait)
    (hb : s.board wait.object = none) :
    Waits R { s with waits := s.waits.set w { wait with outcome := .timedOut } } := by
  refine ⟨h.names, h.ids, h.boards, h.counter, h.results, h.order, h.ops, h.nodup, ?_, ?_, ?_⟩
  · intro o b turnId v hb' hv
    obtain ⟨asks, hv⟩ := h.waiters o b turnId v hb' hv
    have hne : v ≠ w := by
      rintro rfl
      obtain rfl := Option.some.inj (hwait.symm.trans hv)
      exact absurd (hb.symm.trans hb') (by simp)
    exact ⟨asks, by rw [List.getElem?_set_ne (Ne.symm hne), hv]⟩
  · intro v o i turnId hv
    obtain ⟨-, hv⟩ | htimed := wait_of_set hv
    · exact h.pending v o i turnId hv
    · exact absurd htimed (by simp)
  · intro v o i turnId r hv
    obtain ⟨-, hv⟩ | htimed := wait_of_set hv
    · exact h.resolved v o i turnId r hv
    · exact absurd htimed (by simp)

theorem Waits.timeOut (h : Waits R s) (hs : s.timeOut w = some s') : Waits R s' := by
  obtain ⟨wait, hwait, -, rfl⟩ := timeOut_spec hs
  cases hb : s.board wait.object with
  | none =>
    have hnone : s.objects[wait.object]? = none := by simpa [board] using hb
    have hlen := List.getElem?_eq_none_iff.mp hnone
    have hsame : s.onObject wait.object (removeTurnWaiter wait.turnId w) = s := by
      simp [onObject, List.modify_eq_self hlen]
    rw [hsame]
    exact h.settleUnregistered hwait hb
  | some b =>
    have hboards := board_of_modify (f := removeTurnWaiter wait.turnId w) (g := Board.unawait wait.turnId w) hb
      (board_removeTurnWaiter wait.turnId w)
    exact h.settle hwait hb hboards rfl (fun _ => rfl) rfl rfl rfl

/-! ## The sections of a turn -/

theorem isRunning_of_loops (h : s'.loops = s.loops) (j : ℕ) : s'.isRunning j = s.isRunning j := by simp [isRunning, h]

theorem steady_noteResult (i : ℕ) (r : ToolResult) : Steady s (s.noteResult i r) :=
  ⟨fun _ _ h => h, fun _ => rfl, fun _ => rfl, rfl, rfl, rfl⟩

theorem steady_processResults (hi : s.loops[i]? = some l) (hrunning : LoopPoint.isRunning l.point = true)
    (toolItems : Option (Table String String)) (results : List ToolResult) :
    Steady s (s.processResults i l toolItems results) ∧
      ∀ j, (s.processResults i l toolItems results).isRunning j = s.isRunning j := by
  have hat : ∀ (s : Client) (point : LoopPoint), s.loops[i]? = some l → LoopPoint.isRunning point = true →
      Steady s (s.atPoint i point) ∧ ∀ j, (s.atPoint i point).isRunning j = s.isRunning j := by
    intro s point hi hpoint
    refine ⟨steady_atPoint i point, fun j => ?_⟩
    rw [isRunning_atPoint hi]
    split
    · next he =>
      rw [he]
      simp [isRunning, hi, hrunning, hpoint]
    · rfl
  induction results generalizing s with
  | nil => exact hat s .reading hi rfl
  | cons r rest ih =>
    unfold processResults
    split
    · split
      · exact hat s _ hi rfl
      · split
        · have hopen : Steady s ((s.noteResult i r).onObject l.object openGate) :=
            (steady_noteResult i r).trans (steady_onObject l.object openGate fun _ => rfl)
          obtain ⟨hsteady, hsame⟩ := ih (s := (s.noteResult i r).onObject l.object openGate) hi
          exact ⟨hopen.trans hsteady, hsame⟩
        · exact ih hi
    · obtain ⟨hsteady, hsame⟩ := ih (s := s.noteResult i r) hi
      exact ⟨(steady_noteResult i r).trans hsteady, hsame⟩

theorem steady_cleanUp (i : ℕ) (l : Loop) : Steady s (s.cleanUp i l) :=
  ((steady_onObject l.object (cleanedState l.turnId) fun _ => rfl).trans (steady_resolveApprovals _ _)).trans
    (steady_atPoint i .done)

theorem isRunning_cleanUp (hi : s.loops[i]? = some l) (j : ℕ) :
    (s.cleanUp i l).isRunning j = if j = i then false else s.isRunning j := by
  have hloops : ((s.onObject l.object (cleanedState l.turnId)).resolvePendingApprovalsForTurn l.object l.turnId).loops =
      s.loops := resolveApprovals_loops _ _
  rw [cleanUp, isRunning_atPoint (hloops ▸ hi), isRunning_of_loops hloops]
  rfl

def completes (l : Loop) (input : Input) : Bool :=
  match l.point, input with
  | .returning, .resumed => false
  | _, _ => ends l input

theorem Waits.runLoop {input : Input} (h : Waits (fun j => s.isRunning j = true) s) (hi : s.loops[i]? = some l)
    (hone : completes l input = true → ∀ b, s.board l.object = some b → (b.registered l.turnId).length ≤ 1)
    (hs : s.runLoop i l input = some s') : Waits (fun j => s'.isRunning j = true) s' := by
  have hkey : s.keyOf i = some (l.object, l.turnId) := by simp [keyOf, hi]
  obtain ⟨b, hb⟩ := h.boards i l.object l.turnId hkey
  have hself : s.isRunning i = LoopPoint.isRunning l.point := by simp [isRunning, hi]
  -- a loop that runs goes to a point where it still runs
  have hgoes : ∀ point, LoopPoint.isRunning point = LoopPoint.isRunning l.point →
      ∀ {t : Client}, Steady s t → t.loops = s.loops →
          Waits (fun j => (t.atPoint i point).isRunning j = true) (t.atPoint i point) := by
    intro point hpoint t ht hloops
    refine ((h.steady ht).steady (steady_atPoint i point)).congr fun j => ?_
    rw [isRunning_atPoint (hloops ▸ hi), isRunning_of_loops hloops]
    split
    · next he => rw [he, hself, hpoint]
    · rfl
  have hcompletes : completes l input = true →
      ∀ status, Waits (fun j => s.isRunning j = true ∧ j ≠ i) (s.endTurn i l status) :=
    fun hc status => h.endTurn hi hb (hone hc b hb) status
  have hends : completes l input = true →
    ∀ status, Waits (fun j => ((s.endTurn i l status).cleanUp i l).isRunning j = true)
      ((s.endTurn i l status).cleanUp i l) := by
    intro hc status
    have hi' : (s.endTurn i l status).loops[i]? = some l := by rw [endTurn_loops, hi]
    refine ((hcompletes hc status).steady (steady_cleanUp i l)).congr fun j => ?_
    rw [isRunning_cleanUp hi', isRunning_of_loops (endTurn_loops i l status)]
    by_cases hj : j = i <;> simp [hj]
  unfold Client.runLoop at hs
  split at hs
  case h_1 hpoint =>
    obtain rfl := Option.some.inj hs
    exact hgoes .creating (by simp [hpoint, LoopPoint.isRunning]) (.refl s) rfl
  case h_2 hpoint =>
    obtain rfl := Option.some.inj hs
    exact hgoes .reading (by simp [hpoint, LoopPoint.isRunning]) (steady_onObject _ _ fun _ => rfl) rfl
  case h_4 =>
    obtain rfl := Option.some.inj hs
    exact h.steady (steady_onObject _ _ fun _ => rfl)
  case h_5 results hpoint =>
    obtain rfl := Option.some.inj hs
    obtain ⟨hsteady, hsame⟩ := steady_processResults hi (by simp [hpoint, LoopPoint.isRunning]) _ results
    exact (h.steady hsteady).congr fun j => by rw [hsame]
  case h_6 success hpoint =>
    obtain rfl := Option.some.inj hs
    have hi' : (s.endTurn i l (resultStatus success)).loops[i]? = some l := by rw [endTurn_loops, hi]
    refine ((hcompletes (by simp [completes, ends, hpoint]) _).steady (steady_atPoint i .returning)).congr fun j => ?_
    rw [isRunning_atPoint hi', isRunning_of_loops (endTurn_loops i l _)]
    by_cases hj : j = i <;> simp [hj, LoopPoint.isRunning]
  case h_7 =>
    obtain rfl := Option.some.inj hs
    exact h
  case h_10 toolItems rest hpoint =>
    obtain rfl := Option.some.inj hs
    obtain ⟨hsteady, hsame⟩ := steady_processResults hi (by simp [hpoint, LoopPoint.isRunning]) toolItems rest
    exact (h.steady hsteady).congr fun j => by rw [hsame]
  case h_11 hpoint =>
    obtain rfl := Option.some.inj hs
    refine (h.steady (steady_cleanUp i l)).congr fun j => ?_
    rw [isRunning_cleanUp hi]
    by_cases hj : j = i
    · simp [hj, hself, hpoint, LoopPoint.isRunning]
    · simp [hj]
  case h_13 => exact absurd hs (by simp)
  -- the turn is completed and cleaned up in one section
  all_goals
    next hpoint =>
      obtain rfl := Option.some.inj hs
      exact hends (by simp [completes, ends, cleansUp, hpoint]) _

/-! ## The machine -/

/-- Turns are started under ids of their own, the tables of a session are cleared while no turn of it is waited for, a
turn is waited for while it runs on the session or has its result, and completed while one wait at most is registered. -/
def waitsInTime (e : Event) (s : Client) : Bool :=
  match e with
  | .sendInput sessionId expectedTurnId =>
    (s.startedBy sessionId expectedTurnId).all fun started => expectedTurnId.all fun given => s.isFreeId started.1 given
  | .resumeSession sessionId => (s.sessions.lookup sessionId).all fun o => !s.waitedOn o
  | .op k .proceeds =>
    match s.ops[k]? with
    | some (.closing o _) => !s.waitedOn o
    | _ => true
  | .waitForTurn sessionId turnId => s.canBeAnswered sessionId turnId
  | .loop i input => (s.loops[i]?).all fun l => !completes l input ||
      (s.board l.object).all fun b => decide ((b.registered l.turnId).length ≤ 1)
  | _ => true

theorem steady_interruptTurn {sessionId : String} (h : s.interruptTurn sessionId turnId = .ok s') :
    Steady s s' ∧ s'.loops = s.loops := by
  obtain ⟨o, f, hf, rfl⟩ := interruptTurn_spec h
  refine ⟨Steady.trans ?_ (steady_resolveApprovals o _), resolveApprovals_loops o _⟩
  refine steady_onObject o f fun session => ?_
  rw [hf session]
  rfl

theorem steady_respondApproval {sessionId approvalId : String} {decision : ApprovalDecision}
    (h : s.respondApproval sessionId turnId approvalId decision = .ok s') : Steady s s' ∧ s'.loops = s.loops := by
  obtain ⟨o, session, a, -, -, rfl⟩ := respondApproval_spec h
  have hobject := steady_onObject (s := s) o (fun session =>
    { session with pendingApprovals := session.pendingApprovals.filter fun a => a.approvalId ≠ approvalId }) fun _ => rfl
  exact ⟨⟨fun _ _ h => h, hobject.boards, hobject.keys, rfl, rfl, rfl⟩, rfl⟩

theorem steady_permit {toolUseId toolName : String} (hs : s.permit i toolUseId toolName = some s') :
    Steady s s' ∧ s'.loops = s.loops := by
  obtain ⟨l, session, -, -, -, ⟨message, rfl⟩ | ⟨-, rfl⟩⟩ := permit_spec hs
  · exact ⟨⟨fun _ _ h => h, fun _ => rfl, fun _ => rfl, rfl, rfl, rfl⟩, rfl⟩
  · have hobject := steady_onObject (s := s) l.object (fun session =>
      { session with
        ggTeamToolApprovalPending := session.ggTeamToolApprovalPending || isGgTeamMcpToolName toolName
        pendingApprovals := session.pendingApprovals ++
          [⟨numbered "approval" s.nextApproval, l.turnId, s.calls.length⟩] }) fun _ => rfl
    exact ⟨⟨fun _ _ h => h, hobject.boards, hobject.keys, rfl, rfl, rfl⟩, rfl⟩

theorem steady_proceed {k : ℕ} (hs : s.proceed k = some s') : Steady s s' ∧ s'.loops = s.loops := by
  obtain ⟨call, decision, l, session, -, -, -, -, ⟨-, rfl⟩ | ⟨-, rfl⟩ | ⟨-, permission, rfl⟩⟩ := proceed_spec hs
  · have hobject := steady_onObject (s := s) l.object (allowGgTeam s.nextGgToolInvocation) fun _ => rfl
    exact ⟨⟨fun _ _ h => h, hobject.boards, hobject.keys, rfl, rfl, rfl⟩, rfl⟩
  · have hobject := steady_onObject (s := s) l.object declineGgTeam fun _ => rfl
    exact ⟨⟨fun _ _ h => h, hobject.boards, hobject.keys, rfl, rfl, rfl⟩, rfl⟩
  · exact ⟨⟨fun _ _ h => h, fun _ => rfl, fun _ => rfl, rfl, rfl, rfl⟩, rfl⟩

theorem Waits.addOp (h : Waits R s) {op : Op} (hop : ∀ o turnIds, op ≠ .forked o turnIds) :
    Waits R { s with ops := s.ops ++ [op] } := by
  refine h.of_same (fun _ _ hn => hn) (fun _ => rfl) (fun _ => rfl) rfl rfl fun o turnIds turnId hmem hid => ?_
  obtain hmem | hmem := List.mem_append.mp hmem
  · exact h.ops o turnIds turnId hmem hid
  · exact absurd (List.mem_singleton.mp hmem).symm (hop o turnIds)

theorem Waits.setOp (h : Waits R s) {k : ℕ} {op : Op}
    (hop : ∀ o turnIds turnId, op = .forked o turnIds → turnId ∈ turnIds →
    ∃ j, s.keyOf j = some (o, turnId) ∧ ¬ R j) : Waits R { s with ops := s.ops.set k op } := by
  refine h.of_same (fun _ _ hn => hn) (fun _ => rfl) (fun _ => rfl) rfl rfl fun o turnIds turnId hmem hid => ?_
  obtain hmem | hmem := List.mem_or_eq_of_mem_set hmem
  · exact h.ops o turnIds turnId hmem hid
  · exact hop o turnIds turnId hmem.symm hid

theorem Waits.finishFork (h : Waits R s) {turnIds : List String} (hop : .forked o turnIds ∈ s.ops) :
    Waits R (s.finishFork o turnIds) := by
  have hcleared : Steady s ((s.onObject o forkedState).resolveAllPendingApprovals o) :=
    (steady_onObject o forkedState fun _ => rfl).trans (steady_resolveApprovals o _)
  cases hb : s.board o with
  | none =>
    have hnone : ((s.onObject o forkedState).resolveAllPendingApprovals o).objects[o]? = none := by
      have hboard := (hcleared.boards o).trans hb
      simpa [board] using hboard
    have hsame : s.finishFork o turnIds = (s.onObject o forkedState).resolveAllPendingApprovals o := by
      rw [Client.finishFork, onObject, List.modify_eq_self (List.getElem?_eq_none_iff.mp hnone)]
    exact hsame ▸ h.steady hcleared
  | some b =>
    refine (h.steady hcleared).prune ((hcleared.boards o).trans hb) fun turnId hid => ?_
    obtain ⟨j, hj, hnot⟩ := h.ops o turnIds turnId hop hid
    exact ⟨j, (hcleared.keys j).trans hj, hnot⟩

theorem Waits.advanceOp (h : Waits R s) {k : ℕ} {input : ForkInput} (htime : waitsInTime (.op k input) s = true)
    (hs : s.advanceOp k input = some s') : Waits R s' := by
  obtain ⟨o, sessionId, hop, rfl, rfl⟩ | ⟨o, turnIds, session, hsession, hkept, rfl⟩ |
      ⟨o, turnIds, hop, -, rfl⟩ | rfl :=
    advanceOp_spec hs
  · refine h.close sessionId ?_
    simpa [waitsInTime, hop] using htime
  · refine h.setOp fun o' ids turnId he hid => ?_
    obtain ⟨rfl, rfl⟩ := Op.forked.inj he
    exact h.order o session.board turnId (by simp [board, hsession]) (hkept turnId hid)
  · have hfork := h.finishFork (List.mem_of_getElem? hop)
    have hops : (s.finishFork o turnIds).ops = s.ops :=
      (steady_resolveApprovals (s := s.onObject o forkedState) o _).ops
    have hset : Waits R { s.finishFork o turnIds with ops := (s.finishFork o turnIds).ops.set k .over } :=
      hfork.setOp fun _ _ _ he => absurd he (by simp)
    rwa [hops] at hset
  · exact h.setOp fun _ _ _ he => absurd he (by simp)

theorem advanceOp_loops {k : ℕ} {input : ForkInput} (hs : s.advanceOp k input = some s') : s'.loops = s.loops := by
  obtain ⟨o, sessionId, -, -, rfl⟩ | ⟨o, turnIds, session, -, -, rfl⟩ | ⟨o, turnIds, -, -, rfl⟩ | rfl :=
    advanceOp_spec hs
  · exact resolveApprovals_loops _ _
  · rfl
  · exact resolveApprovals_loops _ _
  · rfl

theorem Waits.same_loops (h : Waits (fun j => s.isRunning j = true) s') (hloops : s'.loops = s.loops) :
    Waits (fun j => s'.isRunning j = true) s' :=
  h.congr fun j => by rw [isRunning_of_loops hloops]

theorem Waits.request {r : Except ClientError Client} (h : Waits (fun j => s.isRunning j = true) s)
    (hok : ∀ q, r = .ok q → Waits (fun j => s.isRunning j = true) q ∧ q.loops = s.loops) :
    Waits (fun j => (s.request r).isRunning j = true) (s.request r) := by
  cases r with
  | error e => exact h
  | ok q =>
    obtain ⟨hwaits, hloops⟩ := hok q rfl
    exact hwaits.same_loops hloops

theorem Waits.step {e : Event} (h : Waits (fun j => s.isRunning j = true) s) (htime : waitsInTime e s = true)
    (hs : s.step e = some s') : Waits (fun j => s'.isRunning j = true) s' := by
  cases e with
  | createSession =>
    obtain rfl := Option.some.inj hs
    exact (h.addObject _ _).same_loops rfl
  | resumeSession sessionId =>
    obtain rfl := Option.some.inj hs
    have hfree : ∀ o, s.sessions.lookup sessionId = some o → s.waitedOn o = false := by
      intro o ho
      simpa [waitsInTime, ho] using htime
    refine (h.resume hfree).same_loops ?_
    unfold resumeSession
    split
    · rfl
    · exact resolveApprovals_loops _ _
  | sendInput sessionId expectedTurnId =>
    have hs' := Option.some.inj hs
    rw [sendInput_cases] at hs'
    cases hstarted : s.startedBy sessionId expectedTurnId with
    | none =>
      rw [hstarted] at hs'
      exact hs' ▸ h
    | some started =>
      rw [hstarted] at hs'
      obtain rfl := hs'
      obtain ⟨ho, -, hid⟩ := startedBy_object hstarted
      obtain ⟨b, hb, -⟩ := h.names sessionId started.1 ho
      have hfree : ∀ given, expectedTurnId = some given → s.isFreeId started.1 given = true := by
        rintro given rfl
        simp only [waitsInTime, hstarted, Option.all_some] at htime
        exact htime
      refine (h.start hb expectedTurnId hid hfree).congr fun j => ?_
      show _ ↔ ((s.loops ++ [(⟨started.1, started.2, .prewarming⟩ : Loop)])[j]?).any _ = true
      obtain hlt | rfl | hlt := Nat.lt_trichotomy j s.loops.length
      · have hne : j ≠ s.loops.length := by omega
        simp [List.getElem?_append_left hlt, hne, isRunning]
      · simp [LoopPoint.isRunning]
      · have hne : j ≠ s.loops.length := by omega
        rw [List.getElem?_eq_none (by simp; omega)]
        simp [isRunning, List.getElem?_eq_none (Nat.le_of_lt hlt), hne]
  | interruptTurn sessionId turnId =>
    obtain rfl := Option.some.inj hs
    refine h.request fun q hq => ?_
    obtain ⟨hsteady, hloops⟩ := steady_interruptTurn hq
    exact ⟨h.steady hsteady, hloops⟩
  | respondApproval sessionId turnId approvalId decision =>
    obtain rfl := Option.some.inj hs
    refine h.request fun q hq => ?_
    obtain ⟨hsteady, hloops⟩ := steady_respondApproval hq
    exact ⟨h.steady hsteady, hloops⟩
  | waitForTurn sessionId turnId =>
    obtain rfl := Option.some.inj hs
    refine h.request fun q hq => ⟨h.waitForTurn htime hq, ?_⟩
    obtain ⟨o, session, -, -, ⟨completed, -, rfl⟩ | ⟨-, rfl⟩⟩ := waitForTurn_spec hq <;> rfl
  | hardForkSession sessionId =>
    obtain rfl := Option.some.inj hs
    refine h.request fun q hq => ?_
    obtain ⟨o, rfl⟩ := hardForkSession_spec hq
    exact ⟨h.addOp fun _ _ => by simp, rfl⟩
  | closeSession sessionId =>
    obtain rfl := Option.some.inj hs
    refine h.request fun q hq => ?_
    obtain ⟨o, rfl⟩ := closeSession_spec hq
    exact ⟨h.addOp fun _ _ => by simp, rfl⟩
  | op k input => exact (h.advanceOp htime hs).same_loops (advanceOp_loops hs)
  | loop i input =>
    obtain ⟨l, hi, hrun⟩ := Option.bind_eq_some_iff.mp hs
    refine h.runLoop hi (fun hc b hb => ?_) hrun
    simpa [waitsInTime, hi, hc, hb] using htime
  | permit i toolUseId toolName =>
    obtain ⟨hsteady, hloops⟩ := steady_permit hs
    exact (h.steady hsteady).same_loops hloops
  | proceed k =>
    obtain ⟨hsteady, hloops⟩ := steady_proceed hs
    exact (h.steady hsteady).same_loops hloops
  | timeOut w =>
    refine (h.timeOut hs).same_loops ?_
    obtain ⟨wait, -, -, rfl⟩ := timeOut_spec hs
    rfl

theorem waits_new (R : ℕ → Prop) : Waits R new where
  names := fun n o hn => absurd hn (by simp [new])
  ids := fun i j o o' turnId b b' hi => absurd hi (by simp [keyOf, new])
  boards := fun j o turnId hj => absurd hj (by simp [keyOf, new])
  counter := fun j o k turnId hj => absurd hj (by simp [keyOf, new])
  results := fun o b turnId r hb => absurd hb (by simp [board, new])
  order := fun o b turnId hb => absurd hb (by simp [board, new])
  ops := fun o turnIds turnId hop => absurd hop (by simp [new])
  nodup := fun o b turnId hb => absurd hb (by simp [board, new])
  waiters := fun o b turnId w hb => absurd hb (by simp [board, new])
  pending := fun w o i turnId hw => absurd hw (by simp [new])
  resolved := fun w o i turnId r hw => absurd hw (by simp [new])

/-- The turns of a session have different ids, and a wait for a turn has the result of that turn or stands with it while
it runs. -/
structure AnswersItsOwn (s : Client) : Prop where
  ids : ∀ (i j : ℕ) (l l' : Loop) (session session' : SessionState), s.loops[i]? = some l → s.loops[j]? = some l' →
    s.objects[l.object]? = some session → s.objects[l'.object]? = some session' →
    session.sessionId = session'.sessionId → l.turnId = l'.turnId → i = j
  resolved : ∀ wait ∈ s.waits, ∀ (i : ℕ) (result : TurnResult), wait.asks = some i → wait.outcome = .resolved result →
    result.loop = i
  pending : ∀ (w : ℕ) (wait : Wait) (i : ℕ), s.waits[w]? = some wait → wait.asks = some i → wait.outcome = .pending →
    ∃ l session, s.loops[i]? = some l ∧ l.object = wait.object ∧ l.turnId = wait.turnId ∧
      LoopPoint.isRunning l.point = true ∧ s.objects[wait.object]? = some session ∧
      w ∈ (session.turnWaiters.lookup wait.turnId).getD []

theorem Waits.answersItsOwn (h : Waits (fun j => s.isRunning j = true) s) : AnswersItsOwn s where
  ids := by
    intro i j l l' session session' hi hj hs hs' hname hid
    exact h.ids i j l.object l'.object l.turnId session.board session'.board (by simp [keyOf, hi])
      (by simp [keyOf, hj, hid]) (by simp [board, hs]) (by simp [board, hs']) hname
  resolved := by
    intro wait hmem i result hasks houtcome
    obtain ⟨w, hw⟩ := List.mem_iff_getElem?.mp hmem
    obtain ⟨o, turnId, asks, outcome⟩ := wait
    obtain rfl : asks = some i := hasks
    obtain rfl : outcome = .resolved result := houtcome
    exact h.resolved w o i turnId result hw
  pending := by
    intro w wait i hw hasks houtcome
    obtain ⟨o, turnId, asks, outcome⟩ := wait
    obtain rfl : asks = some i := hasks
    obtain rfl : outcome = .pending := houtcome
    obtain ⟨hrunning, hkey, b, hb, hmem⟩ := h.pending w o i turnId hw
    obtain ⟨l, hl, hkey⟩ := Option.map_eq_some_iff.mp hkey
    obtain ⟨hobject, hid⟩ := Prod.mk.inj hkey
    obtain ⟨session, hs, rfl⟩ := Option.map_eq_some_iff.mp hb
    exact ⟨l, session, hl, hobject, hid, by simpa [isRunning, hl] using hrunning, hs, hmem⟩

/-- A wait for a turn of a bridge session is answered with the result of that turn. -/
theorem wait_returns_its_own_turn (hs : Reaches Client.step (fun e s => waitsInTime e s = true) new s) :
    AnswersItsOwn s :=
  (hs.invariant (I := fun s => Waits (fun j => s.isRunning j = true) s) (waits_new _) fun _ _ _ h htime hstep =>
    h.step htime hstep).answersItsOwn

def turnOver : List Event :=
  [.createSession, .sendInput "claude_sess_1" none, .loop 0 .resumed, .loop 0 .resumed, .loop 0 (.result true),
    .loop 0 .resumed]

theorem wait_returns_its_own_turn_twice :
    ∃ s, Reaches Client.step (fun e s => waitsInTime e s = true) new s ∧ AnswersItsOwn s ∧
      s.waits = [⟨0, "turn_1", some 0, .resolved ⟨"turn_1", .completed, 0⟩⟩,
        ⟨0, "turn_2", some 1, .resolved ⟨"turn_2", .failed, 1⟩⟩] := by
  -- one wait finds the result, the other one stands until the turn fails
  obtain ⟨s, hs, hwaits⟩ := exists_reaches_of_runAll (s := new) Client.step waitsInTime
    (turnOver ++ [.waitForTurn "claude_sess_1" "turn_1", .sendInput "claude_sess_1" none,
      .waitForTurn "claude_sess_1" "turn_2", .loop 1 .resumed, .loop 1 .thrown]) Client.waits
    [⟨0, "turn_1", some 0, .resolved ⟨"turn_1", .completed, 0⟩⟩,
      ⟨0, "turn_2", some 1, .resolved ⟨"turn_2", .failed, 1⟩⟩]
    (by decide +kernel)
  exact ⟨s, hs, wait_returns_its_own_turn hs, hwaits⟩

/-- An input that expects the turn that is over starts another one under its id, and the wait for it has the old result. -/
theorem not_wait_returns_its_own_turn :
    ¬ ∀ s, Reaches Client.step (fun _ _ => True) new s → AnswersItsOwn s := by
  intro h
  obtain ⟨s, hs, hwaits⟩ := exists_reaches_of_runAll (s := new) Client.step (fun _ _ => true)
    (turnOver ++ [.sendInput "claude_sess_1" (some "turn_1"), .waitForTurn "claude_sess_1" "turn_1"]) Client.waits
    [⟨0, "turn_1", some 1, .resolved ⟨"turn_1", .completed, 0⟩⟩] (by decide +kernel)
  have hown := (h s (hs.mono fun _ _ _ => trivial)).resolved _
    (by rw [hwaits]; exact List.mem_singleton_self _) 1 _ rfl rfl
  exact absurd hown (by decide)

end Client

end Gooselake.Providers.BridgeClient
