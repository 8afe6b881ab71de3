import Gooselake.Library.Slots
import Gooselake.Providers.ClaudeTurns

/-!
Whether a turn that the bridge has completed is ever reported as failed. The condition names the orders in which it is;
the invariant has three parts: what holds of the handle (`Ground`), of the event in the lane (`LaneSound`) and of each
call (`CallSound`).
-/

namespace Gooselake.Providers.ClaudeTurns

open Gooselake.Core Data Library

set_option autoImplicit false

/-! ## Turns and their ids -/

def Call.acked : Call → Option (String × String)
  | .send turnId (.mapRuntime b) | .send turnId (.mapBridge b) | .send turnId (.activating b)
  | .send turnId (.sent b) => some (turnId, b)
  | _ => none

def Call.sending : Call → Option String
  | .send _ (.mapRuntime b) | .send _ (.mapBridge b) | .send _ (.activating b) => some b
  | _ => none

def Call.unanswered : Call → Option String
  | .wait turnId .resolving | .wait turnId (.request _ _) => some turnId
  | _ => none

namespace Turns

def acked (s : Turns) : List (String × String) := s.calls.filterMap Call.acked

def through (s : Turns) (turnId : String) : Bool :=
  s.calls.any fun
    | .send t (.sent _) => t = turnId
    | _ => false

def isFinished (s : Turns) (turnId : String) : Bool :=
  s.acked.any fun p => p.1 = turnId && s.finished.any fun f => f.1 = p.2

end Turns

/-- No wait that returned when the turn was finished returned anything but the status of the turn, and a finished turn
was not recorded as failed. -/
def FinishedKept (s : Turns) : Prop :=
  ∀ turnId b status, (turnId, b) ∈ s.acked →
    (∀ result finished, Call.wait turnId (.returned result finished) ∈ s.calls → (b, status) ∈ finished →
      ∃ r, result = .ok r ∧ r.status = status) ∧
    ((b, status) ∈ s.finished → turnId ∉ s.recorded)

/-! ## The condition on steps -/

namespace Turns

/-- No wait for a finished turn is without its answer. -/
def sparesFinished (s : Turns) : Bool := s.calls.all fun call => call.unanswered.all fun t => !s.isFinished t

/-- What is asked of the answer to a send: it brings together ids that no other turn has, and nothing was taken up under
them but the start of the bridge turn. -/
def fresh (s : Turns) (turnId b : String) : Bool :=
  decide (b ∉ s.ended) && decide (turnId ∉ s.ended) && (decide (turnId = b) || decide (turnId ∉ s.begun)) &&
    s.acked.all fun p => p.1 ≠ turnId && p.2 ≠ b

/-- The event fails the bridge. -/
def breaks (s : Turns) (payload : Json) : Bool :=
  match readEvent payload with
  | none => true
  | some e => decide (e.seq ≤ s.lastSeq e.sessionId)

/-- The sends that were answered with the bridge turn are through. -/
def settled (s : Turns) (b : String) : Bool := s.calls.all fun call => decide (call.sending ≠ some b)

/-- The id of the bridge turn is the runtime id of no other turn. -/
def owns (s : Turns) (b : String) : Bool := s.acked.all fun p => p.1 ≠ b || p.2 = b

/-- What is asked of an event of a bridge turn: its id is the runtime id of no other turn, it is not started when it is
finished, and its completion and its error come when the sends that the turn belongs to are through, the one with the
outcome of the turn and the other only when that is its failure. -/
def admits (outcome : String → ProviderTurnStatus) (s : Turns) (name b : String) (body : Json) : Bool :=
  match name with
  | "turn.started" => s.owns b && s.finished.all fun f => f.1 ≠ b
  | "turn.completed" => s.owns b && s.settled b && decide (extractTurnStatus (body.get? "status") = outcome b)
  | "error" => s.owns b && s.settled b && decide (outcome b = .failed)
  | _ => true

/-- The condition on a step; the bridge gives every turn its `outcome`. -/
def meets (outcome : String → ProviderTurnStatus) : Label → Turns → Bool
  | .event payload _, s =>
    if s.breaks payload then s.sparesFinished
    else (readEvent payload).all fun e => e.sessionId ≠ s.bridgeSessionId || e.turnId.all
      fun b => s.admits outcome e.name b e.body
  | .lane, s =>
    match s.lane with
    | .starting b turnId => decide (turnId = b) || (s.handle.completedTurns.lookup turnId).isNone
    | _ => true
  | .wait turnId, s => s.through turnId
  | .goOn i, s =>
    match s.calls[i]? with
    | some (.wait turnId .resolving) =>
      (s.handle.bridgeTurnByRuntimeTurn.lookup turnId).isSome || decide ((turnId, turnId) ∈ s.acked)
    | _ => true
  | .answer i response, s =>
    match s.calls[i]?, response with
    | some (.send turnId _), .ok body => s.fresh turnId ((turnIdOf body).getD turnId)
    | some (.wait _ (.request b _)), .ok body =>
      decide (turnIdOf body = some b) && decide (extractTurnStatus (body.get? "status") = outcome b)
    | some (.wait turnId _), .error _ => !s.isFinished turnId
    | _, _ => true
  | .timeout i, s | .lost i, s =>
    match s.calls[i]? with
    | some (.wait turnId _) => !s.isFinished turnId
    | _ => true
  | .fail _, s => s.closed || s.sparesFinished
  | .send _, _ | .failing, _ => true

end Turns

/-! ## The invariant -/

def Turns.Unfinished (s : Turns) (b : String) : Prop := ∀ status, (b, status) ∉ s.finished

def Lane.turn : Lane → Option (String × String)
  | .idle => none
  | .starting b turnId => some (b, turnId)
  | .storing b _ result | .clearing b _ result | .unmapping b _ result => some (b, result.turnId)

def Lane.ending : Lane → Option (String × String)
  | .idle | .starting _ _ => none
  | .storing b _ result | .clearing b _ result | .unmapping b _ result => some (b, result.turnId)

theorem Lane.turn_of_ending {lane : Lane} {p : String × String} (h : lane.ending = some p) : lane.turn = some p := by
  cases lane with
  | idle | starting => cases h
  | storing | clearing | unmapping => exact h

/-- What the condition on an answer to a send says. -/
structure Fresh (s : Turns) (acked : List (String × String)) (turnId b : String) : Prop where
  bridge : b ∉ s.ended
  runtime : turnId ∉ s.ended
  begun : turnId ∈ s.begun → turnId = b
  new : ∀ p ∈ acked, p.1 ≠ turnId ∧ p.2 ≠ b

structure Ground (outcome : String → ProviderTurnStatus) (acked : List (String × String)) (s : Turns) : Prop where
  runtimeIds : (acked.map Prod.fst).Nodup
  bridgeIds : (acked.map Prod.snd).Nodup
  finished : ∀ f ∈ s.finished, f.1 ∈ s.ended ∧ f.2 = outcome f.1
  runtimeMap : ∀ turnId b, s.handle.bridgeTurnByRuntimeTurn.lookup turnId = some b → (turnId, b) ∈ acked
  bridgeMap : ∀ turnId b, s.handle.runtimeTurnByBridgeTurn.lookup b = some turnId → (turnId, b) ∈ acked
  results : ∀ turnId b r, (turnId, b) ∈ acked → s.handle.completedTurns.lookup turnId = some r →
    r.status = outcome b ∨ turnId ∈ s.recorded
  stored : ∀ turnId b, (turnId, b) ∈ acked → ¬ s.Unfinished b → (s.handle.completedTurns.lookup turnId).isSome
  active : ∀ turnId b, (turnId, b) ∈ acked → s.handle.activeTurnId = some turnId →
    s.Unfinished b ∧ (turnId ≠ b → s.handle.runtimeTurnByBridgeTurn.lookup b = some turnId)
  /-- Nothing is kept for a turn that no event and no send was about. -/
  known : ∀ turnId, (s.handle.completedTurns.lookup turnId).isSome ∨ s.handle.activeTurnId = some turnId ∨
    (∃ message, s.failing = .recording message turnId) ∨ turnId ∈ s.recorded →
      turnId ∈ s.ended ∨ turnId ∈ s.begun ∨ ∃ b, (turnId, b) ∈ acked
  kept : ∀ turnId, (s.handle.completedTurns.lookup turnId).isSome →
    turnId ∈ s.ended ∨ turnId ∈ s.recorded ∨ ∃ b, (turnId, b) ∈ acked
  recorded : s.recorded ≠ [] → s.closed = true
  spared : ∀ turnId b, (turnId, b) ∈ acked →
    (∃ message, s.failing = .recording message turnId) ∨ turnId ∈ s.recorded → s.Unfinished b

structure LaneSound (outcome : String → ProviderTurnStatus) (acked : List (String × String)) (s : Turns) : Prop where
  known : ∀ b turnId, s.lane.turn = some (b, turnId) → turnId = b ∨ ∃ b', (turnId, b') ∈ acked
  own : ∀ b turnId b', s.lane.turn = some (b, turnId) → (turnId, b') ∈ acked → b' = b
  ended : ∀ b turnId, s.lane.ending = some (b, turnId) → b ∈ s.ended
  /-- The turn of the event is the one it changes something for, or it was unmapped. -/
  found : ∀ b turnId turnId', s.lane.ending = some (b, turnId) → (turnId', b) ∈ acked →
    turnId' = turnId ∨ turnId = b ∧ s.handle.runtimeTurnByBridgeTurn.lookup b = none
  starting : ∀ b turnId, s.lane = .starting b turnId → b ∈ s.begun ∧ s.Unfinished b ∧
    (turnId = b ∨ s.handle.runtimeTurnByBridgeTurn.lookup b = some turnId ∨
      (s.handle.completedTurns.lookup turnId).isSome)
  storing : ∀ b completes r, s.lane = .storing b completes r → r.status = outcome b
  clearing : ∀ b completes r, s.lane = .clearing b completes r →
    r.status = outcome b ∧ (s.handle.completedTurns.lookup r.turnId).isSome
  unmapping : ∀ b completes r, s.lane = .unmapping b completes r →
    r.status = outcome b ∧ (s.handle.completedTurns.lookup r.turnId).isSome ∧ s.handle.activeTurnId ≠ some r.turnId

def WaitSound (outcome : String → ProviderTurnStatus) (s : Turns) (turnId b : String) : WaitPoint → Prop
  | .checking => True
  | .resolving => s.closed = true → s.Unfinished b
  | .request asked _ => asked = b ∧ (s.closed = true → s.Unfinished b)
  | .answered body => turnIdOf body = some b ∧ extractTurnStatus (body.get? "status") = outcome b
  | .storing r => r.turnId = turnId ∧ r.status = outcome b
  | .clearing r => r.turnId = turnId ∧ r.status = outcome b ∧ (s.handle.completedTurns.lookup turnId).isSome
  | .unmapping r => r.turnId = turnId ∧ r.status = outcome b ∧ (s.handle.completedTurns.lookup turnId).isSome ∧
      (turnId ≠ b → s.handle.activeTurnId ≠ some turnId)
  | .returned result finished => ∀ status, (b, status) ∈ finished → ∃ r, result = .ok r ∧ r.status = status

def Handle.Mapped (h : Handle) (turnId b : String) : Prop :=
  h.bridgeTurnByRuntimeTurn.lookup turnId = some b ∧ h.runtimeTurnByBridgeTurn.lookup b = some turnId

def CallSound (outcome : String → ProviderTurnStatus) (calls : List Call) (s : Turns) : Call → Prop
  | .send _ (.mapRuntime b) => b ∉ s.ended
  | .send turnId (.mapBridge b) => b ∉ s.ended ∧ s.handle.bridgeTurnByRuntimeTurn.lookup turnId = some b
  | .send turnId (.activating b) => b ∉ s.ended ∧ s.handle.Mapped turnId b
  | .send turnId (.sent b) => s.handle.Mapped turnId b ∨ (s.handle.completedTurns.lookup turnId).isSome
  | .send _ _ => True
  | .wait turnId point => ∃ b, Call.send turnId (.sent b) ∈ calls ∧ WaitSound outcome s turnId b point

structure Sound (outcome : String → ProviderTurnStatus) (s : Turns) : Prop where
  ground : Ground outcome s.acked s
  lane : LaneSound outcome s.acked s
  calls : ∀ call ∈ s.calls, CallSound outcome s.calls s call

/-! ## The handle -/

section

variable {outcome : String → ProviderTurnStatus} {acked : List (String × String)} {s s' : Turns}

theorem bridge_eq {turnId b b' : String} (hn : (acked.map Prod.fst).Nodup) (h : (turnId, b) ∈ acked)
    (h' : (turnId, b') ∈ acked) : b' = b :=
  (Prod.mk.inj (List.inj_on_of_nodup_map hn h' h rfl)).2

theorem turn_eq {turnId turnId' b : String} (hn : (acked.map Prod.snd).Nodup) (h : (turnId, b) ∈ acked)
    (h' : (turnId', b) ∈ acked) : turnId' = turnId :=
  (Prod.mk.inj (List.inj_on_of_nodup_map hn h' h rfl)).1

namespace Handle

variable {h : Handle} {x y turnId b : String}

theorem lookup_store (r : ProviderTurnResult) :
    (h.store r).completedTurns.lookup turnId = if turnId = r.turnId then some r else h.completedTurns.lookup turnId :=
  Table.lookup_insert _ _ _ _

theorem isSome_store (r : ProviderTurnResult) (hs : (h.completedTurns.lookup turnId).isSome) :
    ((h.store r).completedTurns.lookup turnId).isSome := by
  rw [lookup_store]
  split
  · rfl
  · exact hs

theorem clear_active (hs : (h.clear x).activeTurnId = some turnId) : h.activeTurnId = some turnId ∧ turnId ≠ x := by
  simp only [clear] at hs
  split at hs
  · cases hs
  · next hne => exact ⟨hs, fun he => hne (he ▸ hs)⟩

theorem unmap_completed : (h.unmap x).completedTurns = h.completedTurns := by
  unfold unmap
  split <;> rfl

theorem unmap_active : (h.unmap x).activeTurnId = h.activeTurnId := by
  unfold unmap
  split <;> rfl

theorem unmap_runtime (hs : (h.unmap x).bridgeTurnByRuntimeTurn.lookup turnId = some b) :
    h.bridgeTurnByRuntimeTurn.lookup turnId = some b := by
  unfold unmap at hs
  split at hs
  · exact hs
  · rw [Table.lookup_erase] at hs
    split at hs
    · cases hs
    · exact hs

theorem unmap_bridge (hs : (h.unmap x).runtimeTurnByBridgeTurn.lookup b = some turnId) :
    h.runtimeTurnByBridgeTurn.lookup b = some turnId := by
  unfold unmap at hs
  split at hs
  · exact hs
  · rw [Table.lookup_erase] at hs
    split at hs
    · cases hs
    · exact hs

theorem unmap_runtime_ne (hs : h.bridgeTurnByRuntimeTurn.lookup turnId = some b) (hne : turnId ≠ x) :
    (h.unmap x).bridgeTurnByRuntimeTurn.lookup turnId = some b := by
  unfold unmap
  split
  · exact hs
  · rw [Table.lookup_erase, if_neg hne]
    exact hs

theorem unmap_bridge_ne (hs : h.runtimeTurnByBridgeTurn.lookup b = some turnId)
    (hne : h.bridgeTurnByRuntimeTurn.lookup x ≠ some b) :
    (h.unmap x).runtimeTurnByBridgeTurn.lookup b = some turnId := by
  unfold unmap
  split
  · exact hs
  · next b' hb' =>
    rw [Table.lookup_erase, if_neg fun he => hne (by rw [hb', he])]
    exact hs

end Handle

namespace Ground

theorem same (h : Ground outcome acked s) (hhandle : s'.handle = s.handle) (hfailing : s'.failing = s.failing)
    (hbegun : s'.begun = s.begun) (hended : s'.ended = s.ended) (hfinished : s'.finished = s.finished)
    (hrecorded : s'.recorded = s.recorded) : Ground outcome acked s' := by
  cases s
  cases s'
  dsimp only at *
  subst hhandle hfailing hbegun hended hfinished hrecorded
  exact { h with }

theorem begin (h : Ground outcome acked s) (b : String) : Ground outcome acked { s with begun := b :: s.begun } :=
  { h with
    known turnId hk := (h.known turnId hk).imp_right (Or.imp_left (List.mem_cons_of_mem b)) }

theorem take (h : Ground outcome acked s) (b : String) : Ground outcome acked { s with ended := b :: s.ended } :=
  { h with
    finished f hf := ⟨List.mem_cons_of_mem b (h.finished f hf).1, (h.finished f hf).2⟩
    known turnId hk := (h.known turnId hk).imp_left (List.mem_cons_of_mem b)
    kept turnId hk := (h.kept turnId hk).imp_left (List.mem_cons_of_mem b) }

theorem activate (h : Ground outcome acked s) {x : String}
    (hknown : x ∈ s.ended ∨ x ∈ s.begun ∨ ∃ b, (x, b) ∈ acked)
    (hx : ∀ b, (x, b) ∈ acked → s.Unfinished b ∧ (x ≠ b → s.handle.runtimeTurnByBridgeTurn.lookup b = some x)) :
    Ground outcome acked { s with handle := s.handle.activate x } :=
  { h with
    active turnId b hacked hactive := by
      obtain rfl := Option.some.inj hactive
      exact hx b hacked
    known turnId hk := by
      rcases hk with hk | hk | hk | hk
      · exact h.known turnId (.inl hk)
      · obtain rfl := Option.some.inj hk
        exact hknown
      · exact h.known turnId (.inr (.inr (.inl hk)))
      · exact h.known turnId (.inr (.inr (.inr hk))) }

theorem store (h : Ground outcome acked s) {r : ProviderTurnResult}
    (hknown : r.turnId ∈ s.ended ∨ ∃ b, (r.turnId, b) ∈ acked)
    (hr : ∀ b, (r.turnId, b) ∈ acked → r.status = outcome b ∨ r.turnId ∈ s.recorded) :
    Ground outcome acked { s with handle := s.handle.store r } :=
  { h with
    results turnId b r' hacked hr' := by
      change (s.handle.store r).completedTurns.lookup turnId = some r' at hr'
      rw [Handle.lookup_store] at hr'
      split at hr'
      · next he =>
        subst he
        obtain rfl := Option.some.inj hr'
        exact hr b hacked
      · exact h.results turnId b r' hacked hr'
    stored turnId b hacked hf := Handle.isSome_store r (h.stored turnId b hacked hf)
    known turnId hk := by
      rcases hk with hk | hk
      · change ((s.handle.store r).completedTurns.lookup turnId).isSome at hk
        rw [Handle.lookup_store] at hk
        split at hk
        · next he =>
          subst he
          exact hknown.imp_right .inr
        · exact h.known turnId (.inl hk)
      · exact h.known turnId (.inr hk)
    kept turnId hk := by
      change ((s.handle.store r).completedTurns.lookup turnId).isSome at hk
      rw [Handle.lookup_store] at hk
      split at hk
      · next he =>
        subst he
        exact hknown.imp_right .inr
      · exact h.kept turnId hk }

theorem clear (h : Ground outcome acked s) (x : String) :
    Ground outcome acked { s with handle := s.handle.clear x } :=
  { h with
    active turnId b hacked hactive := h.active turnId b hacked (Handle.clear_active hactive).1
    known turnId hk := by
      rcases hk with hk | hk | hk
      · exact h.known turnId (.inl hk)
      · exact h.known turnId (.inr (.inl (Handle.clear_active hk).1))
      · exact h.known turnId (.inr (.inr hk)) }

theorem unmap (h : Ground outcome acked s) {x : String}
    (hx : ∀ b, (x, b) ∈ acked → x ≠ b → s.handle.activeTurnId ≠ some x) :
    Ground outcome acked { s with handle := s.handle.unmap x } :=
  { h with
    runtimeMap turnId b hm := h.runtimeMap turnId b (Handle.unmap_runtime hm)
    bridgeMap turnId b hm := h.bridgeMap turnId b (Handle.unmap_bridge hm)
    results turnId b r hacked hr := h.results turnId b r hacked (by rw [← Handle.unmap_completed (x := x)]; exact hr)
    stored turnId b hacked hf := by
      change ((s.handle.unmap x).completedTurns.lookup turnId).isSome
      rw [Handle.unmap_completed]
      exact h.stored turnId b hacked hf
    active turnId b hacked hactive := by
      change (s.handle.unmap x).activeTurnId = some turnId at hactive
      rw [Handle.unmap_active] at hactive
      obtain ⟨hunfinished, hmap⟩ := h.active turnId b hacked hactive
      refine ⟨hunfinished, fun hne => Handle.unmap_bridge_ne (hmap hne) fun hxb => ?_⟩
      -- the turn that is unmapped is the active one
      have he := turn_eq h.bridgeIds hacked (h.runtimeMap x b hxb)
      subst he
      exact hx b hacked hne hactive
    known turnId hk := by
      refine h.known turnId ?_
      change (((s.handle.unmap x).completedTurns.lookup turnId).isSome = true ∨
        (s.handle.unmap x).activeTurnId = some turnId ∨ _) at hk
      rw [Handle.unmap_completed, Handle.unmap_active] at hk
      exact hk
    kept turnId hk := h.kept turnId (by rw [← Handle.unmap_completed (x := x)]; exact hk) }

theorem mapRuntime (h : Ground outcome acked s) {turnId b : String} (hacked : (turnId, b) ∈ acked) :
    Ground outcome acked { s with handle := s.handle.mapRuntime turnId b } :=
  { h with
    runtimeMap turnId' b' hm := by
      change (s.handle.bridgeTurnByRuntimeTurn.insert turnId b).lookup turnId' = some b' at hm
      rw [Table.lookup_insert] at hm
      split at hm
      · next he =>
        subst he
        obtain rfl := Option.some.inj hm
        exact hacked
      · exact h.runtimeMap turnId' b' hm }

theorem mapBridge (h : Ground outcome acked s) {turnId b : String} (hacked : (turnId, b) ∈ acked) :
    Ground outcome acked { s with handle := s.handle.mapBridge turnId b } :=
  { h with
    bridgeMap turnId' b' hm := by
      change (s.handle.runtimeTurnByBridgeTurn.insert b turnId).lookup b' = some turnId' at hm
      rw [Table.lookup_insert] at hm
      split at hm
      · next he =>
        subst he
        obtain rfl := Option.some.inj hm
        exact hacked
      · exact h.bridgeMap turnId' b' hm
    active turnId' b' hacked' hactive := by
      obtain ⟨hunfinished, hmap⟩ := h.active turnId' b' hacked' hactive
      refine ⟨hunfinished, fun hne => ?_⟩
      change (s.handle.runtimeTurnByBridgeTurn.insert b turnId).lookup b' = some turnId'
      rw [Table.lookup_insert]
      split
      · next he =>
        subst he
        rw [turn_eq h.bridgeIds hacked' hacked]
      · exact hmap hne }

theorem finish (h : Ground outcome acked s) {b : String} (status : ProviderTurnStatus) (hopen : s.closed = false)
    (hended : b ∈ s.ended) (hstatus : status = outcome b)
    (hb : ∀ turnId, (turnId, b) ∈ acked →
      (s.handle.completedTurns.lookup turnId).isSome ∧ s.handle.activeTurnId ≠ some turnId) :
    Ground outcome acked { s with finished := (b, status) :: s.finished } := by
  have hnone : s.recorded = [] := by
    by_contra hne
    rw [h.recorded hne] at hopen
    cases hopen
  have hidle : ∀ message turnId, s.failing ≠ .recording message turnId := by
    intro message turnId hf
    rw [Turns.closed, hf] at hopen
    cases hopen
  have hunfinished : ∀ b', b' ≠ b → s.Unfinished b' →
      Turns.Unfinished { s with finished := (b, status) :: s.finished } b' := by
    intro b' hne hu status' hmem
    rcases List.mem_cons.mp hmem with he | hmem
    · exact hne (Prod.mk.inj he).1
    · exact hu status' hmem
  exact
    { runtimeIds := h.runtimeIds
      bridgeIds := h.bridgeIds
      finished := fun f hf => by
        rcases List.mem_cons.mp hf with rfl | hf
        · exact ⟨hended, hstatus⟩
        · exact h.finished f hf
      runtimeMap := h.runtimeMap
      bridgeMap := h.bridgeMap
      results := h.results
      stored := fun turnId b' hacked hf => by
        by_cases he : b' = b
        · subst he
          exact (hb turnId hacked).1
        · exact h.stored turnId b' hacked fun hu => hf (hunfinished b' he hu)
      active := fun turnId b' hacked hactive => by
        obtain ⟨hu, hmap⟩ := h.active turnId b' hacked hactive
        refine ⟨hunfinished b' (fun he => ?_) hu, hmap⟩
        subst he
        exact (hb turnId hacked).2 hactive
      known := h.known
      kept := h.kept
      recorded := h.recorded
      spared := fun turnId b' _ hs => by
        rcases hs with ⟨message, hs⟩ | hs
        · exact absurd hs (hidle message turnId)
        · rw [hnone] at hs
          cases hs }

theorem ack (h : Ground outcome acked s) {acked' : List (String × String)} {turnId b : String}
    (hp : acked'.Perm ((turnId, b) :: acked)) (hfresh : Fresh s acked turnId b) : Ground outcome acked' s := by
  have hmem : ∀ p, p ∈ acked' ↔ p = (turnId, b) ∨ p ∈ acked := fun p => (hp.mem_iff).trans List.mem_cons
  have hunfinished : s.Unfinished b := fun status hf => hfresh.bridge (h.finished _ hf).1
  refine
    { runtimeIds := (hp.map Prod.fst).nodup_iff.mpr (List.nodup_cons.mpr ⟨?_, h.runtimeIds⟩)
      bridgeIds := (hp.map Prod.snd).nodup_iff.mpr (List.nodup_cons.mpr ⟨?_, h.bridgeIds⟩)
      finished := h.finished
      runtimeMap := fun t b' hm => (hmem _).mpr (.inr (h.runtimeMap t b' hm))
      bridgeMap := fun t b' hm => (hmem _).mpr (.inr (h.bridgeMap t b' hm))
      results := fun t b' r hacked hr => ?_
      stored := fun t b' hacked hf => ?_
      active := fun t b' hacked hactive => ?_
      known := fun t hk =>
        (h.known t hk).imp_right (Or.imp_right fun ⟨b', hb'⟩ => ⟨b', (hmem _).mpr (.inr hb')⟩)
      kept := fun t hk => (h.kept t hk).imp_right (Or.imp_right fun ⟨b', hb'⟩ => ⟨b', (hmem _).mpr (.inr hb')⟩)
      recorded := h.recorded
      spared := fun t b' hacked hs => ?_ }
  · intro hin
    obtain ⟨p, hp, he⟩ := List.mem_map.mp hin
    exact (hfresh.new p hp).1 he
  · intro hin
    obtain ⟨p, hp, he⟩ := List.mem_map.mp hin
    exact (hfresh.new p hp).2 he
  · rcases (hmem _).mp hacked with he | hacked
    · cases he
      rcases h.kept turnId (by rw [hr]; rfl) with hk | hk | ⟨_, hk⟩
      · exact absurd hk hfresh.runtime
      · exact .inr hk
      · exact absurd rfl (hfresh.new _ hk).1
    · exact h.results t b' r hacked hr
  · rcases (hmem _).mp hacked with he | hacked
    · cases he
      exact absurd hunfinished hf
    · exact h.stored t b' hacked hf
  · rcases (hmem _).mp hacked with he | hacked
    · -- only the start of the bridge turn can have made the turn active
      cases he
      refine ⟨hunfinished, fun hne => ?_⟩
      rcases h.known turnId (.inr (.inl hactive)) with hk | hk | ⟨_, hk⟩
      · exact absurd hk hfresh.runtime
      · exact absurd (hfresh.begun hk) hne
      · exact absurd rfl (hfresh.new _ hk).1
    · exact h.active t b' hacked hactive
  · rcases (hmem _).mp hacked with he | hacked
    · cases he
      exact hunfinished
    · exact h.spared t b' hacked hs

end Ground

namespace Ground

theorem fail (h : Ground outcome acked s) (message : String) : Ground outcome acked (s.fail message) := by
  unfold Turns.fail
  split
  · exact h
  · next hopen =>
    have hnone : ∀ turnId, turnId ∉ s.recorded := fun turnId hin => hopen (h.recorded (List.ne_nil_of_mem hin))
    exact
      { h with
        known := fun turnId hk => by
          refine h.known turnId ?_
          rcases hk with hk | hk | ⟨_, hk⟩ | hk
          · exact .inl hk
          · exact .inr (.inl hk)
          · cases hk
          · exact absurd hk (hnone turnId)
        kept := h.kept
        recorded := fun _ => rfl
        spared := fun turnId b _ hs => by
          rcases hs with ⟨_, hs⟩ | hs
          · cases hs
          · exact absurd hs (hnone turnId) }

theorem stepFailing (h : Ground outcome acked s) (hs : s.stepFailing = some s') : Ground outcome acked s' := by
  unfold Turns.stepFailing at hs
  split at hs
  · cases hs
  · cases hs
  · obtain rfl := Option.some.inj hs
    exact
      { h with
        known := fun turnId hk => h.known turnId (hk.imp_right (Or.imp_right (Or.imp_left fun ⟨_, hr⟩ => by cases hr)))
        recorded := fun _ => rfl
        spared := fun turnId b hacked hr => h.spared turnId b hacked (hr.imp_left fun ⟨_, hr⟩ => by cases hr) }
  · next message hreading =>
    split at hs
    · obtain rfl := Option.some.inj hs
      exact
        { h with
          known := fun turnId hk =>
            h.known turnId (hk.imp_right (Or.imp_right (Or.imp_left fun ⟨_, hr⟩ => by cases hr)))
          recorded := fun _ => rfl
          spared := fun turnId b hacked hr => h.spared turnId b hacked (hr.imp_left fun ⟨_, hr⟩ => by cases hr) }
    · next active hactive =>
      obtain rfl := Option.some.inj hs
      exact
        { h with
          known := fun turnId hk => by
            rcases hk with hk | hk | ⟨_, hk⟩ | hk
            · exact h.known turnId (.inl hk)
            · exact h.known turnId (.inr (.inl hk))
            · cases hk
              exact h.known _ (.inr (.inl hactive))
            · exact h.known turnId (.inr (.inr (.inr hk)))
          recorded := fun _ => rfl
          spared := fun turnId b hacked hr => by
            rcases hr with ⟨_, hr⟩ | hr
            · cases hr
              exact (h.active _ b hacked hactive).1
            · exact h.spared turnId b hacked (.inr hr) }
  · next message failed hrecording =>
    obtain rfl := Option.some.inj hs
    have hknown := h.known failed (.inr (.inr (.inl ⟨_, hrecording⟩)))
    have hspared : ∀ b, (failed, b) ∈ acked → s.Unfinished b :=
      fun b hacked => h.spared failed b hacked (.inl ⟨_, hrecording⟩)
    exact
      { h with
        results := fun turnId b r hacked hr => by
          change (s.handle.store _).completedTurns.lookup turnId = some r at hr
          rw [Handle.lookup_store] at hr
          split at hr
          · next he => exact .inr (List.mem_cons.mpr (.inl he))
          · exact (h.results turnId b r hacked hr).imp_right (List.mem_cons_of_mem failed)
        stored := fun turnId b hacked hf => Handle.isSome_store _ (h.stored turnId b hacked hf)
        known := fun turnId hk => by
          rcases hk with hk | hk | ⟨_, hk⟩ | hk
          · change ((s.handle.store _).completedTurns.lookup turnId).isSome at hk
            rw [Handle.lookup_store] at hk
            split at hk
            · next he =>
              obtain rfl : turnId = failed := he
              exact hknown
            · exact h.known turnId (.inl hk)
          · exact h.known turnId (.inr (.inl hk))
          · cases hk
          · rcases List.mem_cons.mp hk with he | hk
            · exact he ▸ hknown
            · exact h.known turnId (.inr (.inr (.inr hk)))
        kept := fun turnId hk => by
          change ((s.handle.store _).completedTurns.lookup turnId).isSome at hk
          rw [Handle.lookup_store] at hk
          split at hk
          · next he => exact .inr (.inl (List.mem_cons.mpr (.inl he)))
          · exact (h.kept turnId hk).imp_right (Or.imp_left (List.mem_cons_of_mem failed))
        recorded := fun _ => rfl
        spared := fun turnId b hacked hr => by
          rcases hr with ⟨_, hr⟩ | hr
          · cases hr
          · rcases List.mem_cons.mp hr with he | hr
            · exact hspared b (he ▸ hacked)
            · exact h.spared turnId b hacked (.inr hr) }

end Ground

/-! ## The lane -/

namespace LaneSound

theorem same (h : LaneSound outcome acked s) (hlane : s'.lane = s.lane) (hhandle : s'.handle = s.handle)
    (hbegun : s'.begun = s.begun) (hended : s'.ended = s.ended) (hfinished : s'.finished = s.finished) :
    LaneSound outcome acked s' := by
  cases s
  cases s'
  dsimp only at *
  subst hlane hhandle hbegun hended hfinished
  exact { h with }

theorem idle (hidle : s.lane = .idle) : LaneSound outcome acked s where
  known b turnId hl := by simp [hidle, Lane.turn] at hl
  own b turnId b' hl := by simp [hidle, Lane.turn] at hl
  ended b turnId hl := by simp [hidle, Lane.ending] at hl
  found b turnId turnId' hl := by simp [hidle, Lane.ending] at hl
  starting b turnId hl := by simp [hidle] at hl
  storing b completes r hl := by simp [hidle] at hl
  clearing b completes r hl := by simp [hidle] at hl
  unmapping b completes r hl := by simp [hidle] at hl

theorem heard (h : LaneSound outcome acked s) {b t : String} (hl : s.lane.turn = some (b, t)) :
    b ∈ s.ended ∨ b ∈ s.begun := by
  cases hlane : s.lane with
  | idle =>
    rw [hlane] at hl
    cases hl
  | starting b' t' =>
    rw [hlane] at hl
    cases hl
    exact .inr (h.starting b t hlane).1
  | storing | clearing | unmapping =>
    refine .inl (h.ended b t ?_)
    rw [hlane] at hl ⊢
    exact hl

theorem ack (h : LaneSound outcome acked s) {acked' : List (String × String)} {turnId b : String}
    (hp : acked'.Perm ((turnId, b) :: acked)) (hfresh : Fresh s acked turnId b) : LaneSound outcome acked' s := by
  have hmem : ∀ p, p ∈ acked' ↔ p = (turnId, b) ∨ p ∈ acked := fun p => (hp.mem_iff).trans List.mem_cons
  exact
    { h with
      known := fun b' t hl => (h.known b' t hl).imp_right fun ⟨b'', hb''⟩ => ⟨b'', (hmem _).mpr (.inr hb'')⟩
      own := fun b' t b'' hl hacked => by
        rcases (hmem _).mp hacked with he | hacked
        · cases he
          rcases h.known b' _ hl with rfl | ⟨b₀, hb₀⟩
          · rcases h.heard hl with hended | hbegun
            · exact absurd hended hfresh.runtime
            · exact (hfresh.begun hbegun).symm
          · exact absurd rfl (hfresh.new _ hb₀).1
        · exact h.own b' t b'' hl hacked
      found := fun b' t t' hl hacked => by
        rcases (hmem _).mp hacked with he | hacked
        · cases he
          exact absurd (h.ended _ t hl) hfresh.bridge
        · exact h.found b' t t' hl hacked }

theorem mapRuntime (h : LaneSound outcome acked s) (turnId b : String) :
    LaneSound outcome acked { s with handle := s.handle.mapRuntime turnId b } := { h with }

theorem mapBridge (h : LaneSound outcome acked s) (hground : Ground outcome acked s) {turnId b : String}
    (hacked : (turnId, b) ∈ acked) (hb : b ∉ s.ended) :
    LaneSound outcome acked { s with handle := s.handle.mapBridge turnId b } :=
  { h with
    found := fun b' t t' hl hacked => by
      refine (h.found b' t t' hl hacked).imp_right (And.imp_right fun hnone => ?_)
      change (s.handle.runtimeTurnByBridgeTurn.insert b turnId).lookup b' = none
      have hne : b' ≠ b := fun he => hb (he ▸ h.ended b' t hl)
      rw [Table.lookup_insert, if_neg hne]
      exact hnone
    starting := fun b' t hl => by
      obtain ⟨hbegun, hunfinished, hcase⟩ := h.starting b' t hl
      refine ⟨hbegun, hunfinished, hcase.imp_right (Or.imp_left fun hm => ?_)⟩
      change (s.handle.runtimeTurnByBridgeTurn.insert b turnId).lookup b' = some t
      rw [Table.lookup_insert]
      split
      · next he =>
        subst he
        rw [turn_eq hground.bridgeIds (hground.bridgeMap t _ hm) hacked]
      · exact hm }

theorem activate (h : LaneSound outcome acked s) {turnId b : String} (hacked : (turnId, b) ∈ acked) (hb : b ∉ s.ended) :
    LaneSound outcome acked { s with handle := s.handle.activate turnId } :=
  { h with
    unmapping := fun b' completes r hl => by
      obtain ⟨hstatus, hsome, -⟩ := h.unmapping b' completes r hl
      refine ⟨hstatus, hsome, fun he => hb ?_⟩
      have hending : s.lane.ending = some (b', turnId) := by
        change s.lane = _ at hl
        rw [hl, Lane.ending, ← Option.some.inj he]
      have hown := h.own b' turnId b (Lane.turn_of_ending hending) hacked
      subst hown
      exact h.ended b turnId hending }

theorem store (h : LaneSound outcome acked s) (r : ProviderTurnResult) :
    LaneSound outcome acked { s with handle := s.handle.store r } :=
  { h with
    starting := fun b t hl =>
      (h.starting b t hl).imp_right (And.imp_right (Or.imp_right (Or.imp_right (Handle.isSome_store r))))
    clearing := fun b completes r' hl => (h.clearing b completes r' hl).imp_right (Handle.isSome_store r)
    unmapping := fun b completes r' hl =>
      (h.unmapping b completes r' hl).imp_right (And.imp_left (Handle.isSome_store r)) }

theorem clear (h : LaneSound outcome acked s) (x : String) :
    LaneSound outcome acked { s with handle := s.handle.clear x } :=
  { h with
    unmapping := fun b completes r hl => by
      obtain ⟨hstatus, hsome, hactive⟩ := h.unmapping b completes r hl
      exact ⟨hstatus, hsome, fun he => hactive (Handle.clear_active he).1⟩ }

theorem unmap (h : LaneSound outcome acked s) (hground : Ground outcome acked s) {x : String}
    (hx : (s.handle.completedTurns.lookup x).isSome) :
    LaneSound outcome acked { s with handle := s.handle.unmap x } :=
  { h with
    starting b t hl := by
      obtain ⟨hbegun, hunfinished, hcase⟩ := h.starting b t hl
      refine ⟨hbegun, hunfinished, hcase.imp_right fun hcase => ?_⟩
      change (s.handle.unmap x).runtimeTurnByBridgeTurn.lookup b = some t ∨
        ((s.handle.unmap x).completedTurns.lookup t).isSome
      rw [Handle.unmap_completed]
      rcases hcase with hm | hsome
      · -- the map goes with the turn that has its result
        by_cases hxb : s.handle.bridgeTurnByRuntimeTurn.lookup x = some b
        · rw [turn_eq hground.bridgeIds (hground.runtimeMap x b hxb) (hground.bridgeMap t b hm)]
          exact .inr hx
        · exact .inl (Handle.unmap_bridge_ne hm hxb)
      · exact .inr hsome
    found b t t' hl hacked := by
      refine (h.found b t t' hl hacked).imp_right (And.imp_right fun hnone => ?_)
      change (s.handle.unmap x).runtimeTurnByBridgeTurn.lookup b = none
      cases hsome : (s.handle.unmap x).runtimeTurnByBridgeTurn.lookup b with
      | none => rfl
      | some t'' =>
        rw [Handle.unmap_bridge hsome] at hnone
        cases hnone
    clearing b completes r hl := by
      change _ ∧ ((s.handle.unmap x).completedTurns.lookup r.turnId).isSome
      rw [Handle.unmap_completed]
      exact h.clearing b completes r hl
    unmapping b completes r hl := by
      change _ ∧ ((s.handle.unmap x).completedTurns.lookup r.turnId).isSome ∧ (s.handle.unmap x).activeTurnId ≠ _
      rw [Handle.unmap_completed, Handle.unmap_active]
      exact h.unmapping b completes r hl }

end LaneSound

/-! ## The calls -/

namespace CallSound

variable {calls calls' : List Call} {call : Call}

theorem same (h : CallSound outcome calls s call) (hhandle : s'.handle = s.handle) (hfailing : s'.failing = s.failing)
    (hended : s'.ended = s.ended) (hfinished : s'.finished = s.finished)
    (hsent : ∀ t b, Call.send t (.sent b) ∈ calls → Call.send t (.sent b) ∈ calls') :
    CallSound outcome calls' s' call := by
  cases s
  cases s'
  dsimp only at *
  subst hhandle hfailing hended hfinished
  cases call with
  | send t point => cases point <;> exact h
  | wait t point =>
    obtain ⟨b, hb, hw⟩ := h
    exact ⟨b, hsent t b hb, hw⟩

theorem take (h : CallSound outcome calls s call) {b : String} (hb : call.sending ≠ some b) :
    CallSound outcome calls { s with ended := b :: s.ended } call := by
  have hnot : ∀ b', call.sending = some b' → b' ∉ s.ended → b' ∉ b :: s.ended := by
    intro b' hs hin hmem
    rcases List.mem_cons.mp hmem with rfl | hmem
    · exact hb hs
    · exact hin hmem
  cases call with
  | wait t point => exact h
  | send t point =>
    cases point with
    | mapRuntime b' => exact hnot b' rfl h
    | mapBridge b' => exact ⟨hnot b' rfl h.1, h.2⟩
    | activating b' => exact ⟨hnot b' rfl h.1, h.2⟩
    | request | sent | failed => exact h

theorem mapRuntime (h : CallSound outcome calls s call) {turnId b : String}
    (hown : ∀ b', call.acked = some (turnId, b') → b' = b) :
    CallSound outcome calls { s with handle := s.handle.mapRuntime turnId b } call := by
  have hmap : ∀ t b', call.acked = some (t, b') → s.handle.bridgeTurnByRuntimeTurn.lookup t = some b' →
      (s.handle.mapRuntime turnId b).bridgeTurnByRuntimeTurn.lookup t = some b' := by
    intro t b' hacked hm
    change (s.handle.bridgeTurnByRuntimeTurn.insert turnId b).lookup t = some b'
    rw [Table.lookup_insert]
    split
    · next he =>
      subst he
      rw [hown b' hacked]
    · exact hm
  cases call with
  | wait t point => exact h
  | send t point =>
    cases point with
    | mapBridge b' => exact ⟨h.1, hmap t b' rfl h.2⟩
    | activating b' => exact ⟨h.1, hmap t b' rfl h.2.1, h.2.2⟩
    | sent b' => exact h.imp_left fun hm => ⟨hmap t b' rfl hm.1, hm.2⟩
    | request | mapRuntime | failed => exact h

theorem mapBridge (h : CallSound outcome calls s call) {turnId b : String}
    (hown : ∀ t, call.acked = some (t, b) → t = turnId) :
    CallSound outcome calls { s with handle := s.handle.mapBridge turnId b } call := by
  have hmap : ∀ t b', call.acked = some (t, b') → s.handle.runtimeTurnByBridgeTurn.lookup b' = some t →
      (s.handle.mapBridge turnId b).runtimeTurnByBridgeTurn.lookup b' = some t := by
    intro t b' hacked hm
    change (s.handle.runtimeTurnByBridgeTurn.insert b turnId).lookup b' = some t
    rw [Table.lookup_insert]
    split
    · next he =>
      subst he
      rw [hown t hacked]
    · exact hm
  cases call with
  | wait t point => exact h
  | send t point =>
    cases point with
    | activating b' => exact ⟨h.1, h.2.1, hmap t b' rfl h.2.2⟩
    | sent b' => exact h.imp_left fun hm => ⟨hm.1, hmap t b' rfl hm.2⟩
    | request | mapRuntime | mapBridge | failed => exact h

theorem activate (h : CallSound outcome calls s call) {x : String}
    (hx : ∀ r b, call = .wait x (.unmapping r) → Call.send x (.sent b) ∈ calls →
      (s.handle.completedTurns.lookup x).isSome → x = b) :
    CallSound outcome calls { s with handle := s.handle.activate x } call := by
  cases call with
  | send t point => cases point <;> exact h
  | wait t point =>
    cases point with
    | unmapping r =>
      obtain ⟨b, hb, hturn, hstatus, hsome, hactive⟩ := h
      refine ⟨b, hb, hturn, hstatus, hsome, fun hne he => ?_⟩
      obtain rfl := Option.some.inj he
      exact hne (hx r b rfl hb hsome)
    | checking | resolving | request | answered | storing | clearing | returned => exact h

theorem store (h : CallSound outcome calls s call) (r : ProviderTurnResult) :
    CallSound outcome calls { s with handle := s.handle.store r } call := by
  cases call with
  | send t point =>
    cases point with
    | sent b => exact h.imp_right (Handle.isSome_store r)
    | request | mapRuntime | mapBridge | activating | failed => exact h
  | wait t point =>
    obtain ⟨b, hb, hw⟩ := h
    refine ⟨b, hb, ?_⟩
    cases point with
    | clearing r' => exact ⟨hw.1, hw.2.1, Handle.isSome_store r hw.2.2⟩
    | unmapping r' => exact ⟨hw.1, hw.2.1, Handle.isSome_store r hw.2.2.1, hw.2.2.2⟩
    | checking | resolving | request | answered | storing | returned => exact hw

theorem clear (h : CallSound outcome calls s call) (x : String) :
    CallSound outcome calls { s with handle := s.handle.clear x } call := by
  cases call with
  | send t point => cases point <;> exact h
  | wait t point =>
    obtain ⟨b, hb, hw⟩ := h
    refine ⟨b, hb, ?_⟩
    cases point with
    | unmapping r =>
      exact ⟨hw.1, hw.2.1, hw.2.2.1, fun hne he => hw.2.2.2 hne (Handle.clear_active he).1⟩
    | checking | resolving | request | answered | storing | clearing | returned => exact hw

theorem unmap (h : CallSound outcome calls s call) {x : String} (hsome : (s.handle.completedTurns.lookup x).isSome)
    (hground : Ground outcome acked s) (hacked : ∀ p, call.acked = some p → p ∈ acked)
    (hx : ∀ b, call.acked = some (x, b) → call.sending = none) :
    CallSound outcome calls { s with handle := s.handle.unmap x } call := by
  have hkeep : ∀ t b, call.acked = some (t, b) → t ≠ x → s.handle.bridgeTurnByRuntimeTurn.lookup t = some b →
      (s.handle.unmap x).bridgeTurnByRuntimeTurn.lookup t = some b := fun t b _ hne hm => Handle.unmap_runtime_ne hm hne
  have hkeep' : ∀ t b, call.acked = some (t, b) → t ≠ x → s.handle.runtimeTurnByBridgeTurn.lookup b = some t →
      (s.handle.unmap x).runtimeTurnByBridgeTurn.lookup b = some t := by
    intro t b ha hne hm
    refine Handle.unmap_bridge_ne hm fun hxb => hne ?_
    exact turn_eq hground.bridgeIds (hground.runtimeMap x b hxb) (hacked _ ha)
  have hsome' : ∀ t, (s.handle.completedTurns.lookup t).isSome →
      ((s.handle.unmap x).completedTurns.lookup t).isSome := by
    intro t ht
    rw [Handle.unmap_completed]
    exact ht
  cases call with
  | send t point =>
    cases point with
    | mapBridge b =>
      have hne : t ≠ x := fun he => by cases hx b (by rw [← he]; rfl)
      exact ⟨h.1, hkeep t b rfl hne h.2⟩
    | activating b =>
      have hne : t ≠ x := fun he => by cases hx b (by rw [← he]; rfl)
      exact ⟨h.1, hkeep t b rfl hne h.2.1, hkeep' t b rfl hne h.2.2⟩
    | sent b =>
      by_cases he : t = x
      · exact .inr (hsome' t (he ▸ hsome))
      · rcases h with hm | ht
        · exact .inl ⟨hkeep t b rfl he hm.1, hkeep' t b rfl he hm.2⟩
        · exact .inr (hsome' t ht)
    | request | mapRuntime | failed => exact h
  | wait t point =>
    obtain ⟨b, hb, hw⟩ := h
    refine ⟨b, hb, ?_⟩
    cases point with
    | clearing r => exact ⟨hw.1, hw.2.1, hsome' t hw.2.2⟩
    | unmapping r =>
      refine ⟨hw.1, hw.2.1, hsome' t hw.2.2.1, ?_⟩
      change _ → (s.handle.unmap x).activeTurnId ≠ some t
      rw [Handle.unmap_active]
      exact hw.2.2.2
    | checking | resolving | request | answered | storing | returned => exact hw

theorem finish (h : CallSound outcome calls s call) (hopen : s.closed = false) (f : String × ProviderTurnStatus) :
    CallSound outcome calls { s with finished := f :: s.finished } call := by
  have hno : ∀ {P : Prop}, Turns.closed { s with finished := f :: s.finished } = true → P := by
    intro P hc
    rw [show Turns.closed { s with finished := f :: s.finished } = s.closed from rfl, hopen] at hc
    cases hc
  cases call with
  | send t point => cases point <;> exact h
  | wait t point =>
    obtain ⟨b, hb, hw⟩ := h
    refine ⟨b, hb, ?_⟩
    cases point with
    | resolving => exact hno
    | request asked r => exact ⟨hw.1, hno⟩
    | checking | answered | storing | clearing | unmapping | returned => exact hw

theorem stillFails (h : CallSound outcome calls s call) (hclosed : s.closed = true) (failing : Failing) :
    CallSound outcome calls { s with failing := failing } call := by
  cases call with
  | send t point => cases point <;> exact h
  | wait t point =>
    obtain ⟨b, hb, hw⟩ := h
    refine ⟨b, hb, ?_⟩
    cases point with
    | resolving => exact fun _ => hw hclosed
    | request asked r => exact ⟨hw.1, fun _ => hw.2 hclosed⟩
    | checking | answered | storing | clearing | unmapping | returned => exact hw

theorem fails (h : CallSound outcome calls s call) (failing : Failing)
    (hspares : ∀ t b, call.unanswered = some t → Call.send t (.sent b) ∈ calls → s.Unfinished b) :
    CallSound outcome calls { s with failing := failing } call := by
  cases call with
  | send t point => cases point <;> exact h
  | wait t point =>
    obtain ⟨b, hb, hw⟩ := h
    refine ⟨b, hb, ?_⟩
    cases point with
    | resolving => exact fun _ => hspares t b rfl hb
    | request asked r => exact ⟨hw.1, fun _ => hspares t b rfl hb⟩
    | checking | answered | storing | clearing | unmapping | returned => exact hw

end CallSound

/-! ## Calls in flight -/

theorem mem_acked {s : Turns} {call : Call} {p : String × String} (hc : call ∈ s.calls) (hp : call.acked = some p) :
    p ∈ s.acked := List.mem_filterMap.mpr ⟨call, hc, hp⟩

theorem Sound.one_send (h : Sound outcome s) {call call' : Call} {t b b' : String} (hc : call ∈ s.calls)
    (hc' : call' ∈ s.calls) (hp : call.acked = some (t, b)) (hp' : call'.acked = some (t, b')) : call = call' :=
  eq_of_key_eq h.ground.runtimeIds hc hc' hp hp' rfl

theorem through_iff {t : String} : s.through t = true ↔ ∃ b, Call.send t (.sent b) ∈ s.calls := by
  simp only [Turns.through, List.any_eq_true]
  constructor
  · rintro ⟨call, hc, hm⟩
    split at hm
    · next t' b => exact ⟨b, of_decide_eq_true hm ▸ hc⟩
    · cases hm
  · rintro ⟨b, hc⟩
    exact ⟨_, hc, by simp⟩

theorem unfinished_of_not_isFinished {t b : String} (h : s.isFinished t = false) (hb : (t, b) ∈ s.acked) :
    s.Unfinished b := by
  intro status hmem
  have hno := List.any_eq_false.mp h _ hb
  refine hno ?_
  simp only [decide_true, Bool.true_and, List.any_eq_true]
  exact ⟨_, hmem, by simp⟩

theorem unfinished_of_spares {call : Call} {t b : String} (h : s.sparesFinished = true) (hc : call ∈ s.calls)
    (hu : call.unanswered = some t) (hb : Call.send t (.sent b) ∈ s.calls) : s.Unfinished b := by
  have hall := List.all_eq_true.mp h call hc
  rw [hu, Option.all_some] at hall
  exact unfinished_of_not_isFinished (by simpa using hall) (mem_acked hb rfl)

theorem sound_setCall {i : ℕ} {call call' : Call} (handle : Handle) (hc : s.calls[i]? = some call)
    (hids : call'.acked = call.acked) (hopen : ∀ t b, call ≠ .send t (.sent b))
    (hground : Ground outcome s.acked { s with handle := handle })
    (hlane : LaneSound outcome s.acked { s with handle := handle })
    (hcalls : ∀ other ∈ s.calls, CallSound outcome s.calls { s with handle := handle } other)
    (hnew : CallSound outcome s.calls { s with handle := handle } call') :
    Sound outcome { s with handle := handle, calls := s.calls.set i call' } := by
  have hacked : Turns.acked { s with handle := handle, calls := s.calls.set i call' } = s.acked :=
    filterMap_set_of_eq hc hids
  have hsent : ∀ t b, Call.send t (.sent b) ∈ s.calls → Call.send t (.sent b) ∈ s.calls.set i call' :=
    fun t b hb => mem_set_of_ne hc hb (hopen t b).symm
  refine ⟨?_, ?_, fun other hother => ?_⟩
  · rw [hacked]
    exact hground.same rfl rfl rfl rfl rfl rfl
  · rw [hacked]
    exact hlane.same rfl rfl rfl rfl rfl
  · rcases List.mem_or_eq_of_mem_set hother with hother | rfl
    · exact (hcalls other hother).same rfl rfl rfl rfl hsent
    · exact hnew.same rfl rfl rfl rfl hsent

theorem Sound.moveCall (h : Sound outcome s) {i : ℕ} {call call' : Call} (hc : s.calls[i]? = some call)
    (hids : call'.acked = call.acked) (hopen : ∀ t b, call ≠ .send t (.sent b))
    (hnew : CallSound outcome s.calls s call') : Sound outcome { s with calls := s.calls.set i call' } :=
  sound_setCall s.handle hc hids hopen h.ground h.lane h.calls hnew

/-! ## Sections of the calls -/

theorem Sound.stepSend (h : Sound outcome s) {i : ℕ} {t : String} {point : SendPoint} {next : Handle × SendPoint}
    (hc : s.calls[i]? = some (.send t point)) (hn : point.goOn s.closed t s.handle = some next) :
    Sound outcome { s with handle := next.1, calls := s.calls.set i (.send t next.2) } := by
  have hin : Call.send t point ∈ s.calls := List.mem_of_getElem? hc
  have hsound := h.calls _ hin
  cases point with
  | request r =>
    obtain ⟨r', -, rfl⟩ := Option.map_eq_some_iff.mp hn
    have hopen : ∀ t' b, Call.send t (.request r) ≠ .send t' (.sent b) := by simp
    cases r' with
    | ok r' => exact h.moveCall hc rfl hopen trivial
    | error e => exact h.moveCall hc rfl hopen trivial
  | mapRuntime b =>
    obtain rfl := Option.some.inj hn
    have hids : (t, b) ∈ s.acked := mem_acked hin rfl
    refine sound_setCall _ hc rfl (by simp) (h.ground.mapRuntime hids) (h.lane.mapRuntime t b)
      (fun other hother => ?_) ?_
    · refine (h.calls other hother).mapRuntime fun b' hb' => ?_
      exact bridge_eq h.ground.runtimeIds hids (mem_acked hother hb')
    · exact ⟨hsound, by simp [Handle.mapRuntime]⟩
  | mapBridge b =>
    obtain rfl := Option.some.inj hn
    have hids : (t, b) ∈ s.acked := mem_acked hin rfl
    refine sound_setCall _ hc rfl (by simp) (h.ground.mapBridge hids) (h.lane.mapBridge h.ground hids hsound.1)
      (fun other hother => ?_) ?_
    · refine (h.calls other hother).mapBridge fun t' ht' => ?_
      exact turn_eq h.ground.bridgeIds hids (mem_acked hother ht')
    · exact ⟨hsound.1, hsound.2, by simp [Handle.mapBridge]⟩
  | activating b =>
    obtain rfl := Option.some.inj hn
    have hids : (t, b) ∈ s.acked := mem_acked hin rfl
    have hunfinished : s.Unfinished b := fun status hmem => hsound.1 (h.ground.finished _ hmem).1
    have hground : Ground outcome s.acked { s with handle := s.handle.activate t } := by
      refine h.ground.activate (.inr (.inr ⟨b, hids⟩)) fun b' hb' => ?_
      obtain rfl := bridge_eq h.ground.runtimeIds hids hb'
      exact ⟨hunfinished, fun _ => hsound.2.2⟩
    refine sound_setCall _ hc rfl (by simp) hground (h.lane.activate hids hsound.1) (fun other hother => ?_)
      (.inl hsound.2)
    refine (h.calls other hother).activate fun r b' _ hsent _ => ?_
    -- no wait is there before the send is through
    cases h.one_send hin hsent rfl rfl
  | sent b => cases hn
  | failed e => cases hn

theorem answeredTurnId_eq (h : Ground outcome acked s) {t b : String} (hids : (t, b) ∈ acked) :
    answeredTurnId s.handle t b = t := by
  unfold answeredTurnId Handle.resolveRuntimeTurnId
  cases hm : s.handle.runtimeTurnByBridgeTurn.lookup b with
  | none =>
    rw [Option.getD_none]
    split
    · rfl
    · next hne =>
      by_contra he
      exact hne ⟨rfl, fun ht => he ht.symm⟩
  | some t' =>
    rw [Option.getD_some, turn_eq h.bridgeIds hids (h.bridgeMap t' b hm)]
    split <;> rfl

theorem resolveBridgeTurnId_eq (h : Ground outcome acked s) {t b : String} (hids : (t, b) ∈ acked)
    (hm : (s.handle.bridgeTurnByRuntimeTurn.lookup t).isSome ∨ (t, t) ∈ acked) :
    s.handle.resolveBridgeTurnId t = b := by
  unfold Handle.resolveBridgeTurnId
  cases hl : s.handle.bridgeTurnByRuntimeTurn.lookup t with
  | some b' =>
    rw [Option.getD_some]
    exact bridge_eq h.runtimeIds hids (h.runtimeMap t b' hl)
  | none =>
    rw [Option.getD_none]
    rcases hm with hm | hm
    · rw [hl] at hm
      cases hm
    · exact bridge_eq h.runtimeIds hids hm

theorem Sound.found (h : Sound outcome s) {t b : String} {r : ProviderTurnResult} (hids : (t, b) ∈ s.acked)
    (hr : s.handle.completedTurns.lookup t = some r) :
    WaitSound outcome s t b (.returned (.ok r) s.finished) := by
  intro status hmem
  refine ⟨r, rfl, ?_⟩
  rcases h.ground.results t b r hids hr with hs | hrecorded
  · rw [hs]
    exact (h.ground.finished _ hmem).2.symm
  · exact absurd hmem (h.ground.spared t b hids (.inr hrecorded) status)

theorem Sound.stepWait (h : Sound outcome s) {i : ℕ} {t : String} {point : WaitPoint} {next : Handle × WaitPoint}
    (hm : s.meets outcome (.goOn i) = true) (hc : s.calls[i]? = some (.wait t point))
    (hn : point.goOn s.closed s.runtimeSessionId t s.finished s.handle = some next) :
    Sound outcome { s with handle := next.1, calls := s.calls.set i (.wait t next.2) } := by
  have hin : Call.wait t point ∈ s.calls := List.mem_of_getElem? hc
  obtain ⟨b, hsent, hw⟩ := h.calls _ hin
  have hids : (t, b) ∈ s.acked := mem_acked hsent rfl
  have hopen : ∀ t' b', Call.wait t point ≠ .send t' (.sent b') := by simp
  have hmove : ∀ {point' : WaitPoint}, WaitSound outcome s t b point' →
      Sound outcome { s with calls := s.calls.set i (.wait t point') } :=
    fun hp => h.moveCall hc rfl hopen ⟨b, hsent, hp⟩
  cases point with
  | checking =>
    cases hr : s.handle.completedTurns.lookup t with
    | some r =>
      simp only [WaitPoint.goOn, hr] at hn
      obtain rfl := Option.some.inj hn
      exact hmove (h.found hids hr)
    | none =>
      simp only [WaitPoint.goOn, hr] at hn
      obtain rfl := Option.some.inj hn
      refine hmove fun _ => ?_
      by_contra hf
      have hsome := h.ground.stored t b hids hf
      rw [hr] at hsome
      cases hsome
  | resolving =>
    obtain rfl := Option.some.inj hn
    simp only [Turns.meets, hc, Bool.or_eq_true, decide_eq_true_eq] at hm
    exact hmove ⟨resolveBridgeTurnId_eq h.ground hids hm, hw⟩
  | request asked r =>
    obtain ⟨r', hr, rfl⟩ := Option.map_eq_some_iff.mp hn
    cases r' with
    | ok r' => exact hmove hw
    | error e =>
      have hclosed : s.closed = true := by
        cases r with
        | asking =>
          by_contra hno
          simp [Request.goOn, hno] at hr
        | registering => cases hr
        | waiting => cases hr
      exact hmove fun status hmem => absurd hmem (hw.2 hclosed status)
  | answered body =>
    obtain ⟨hturn, hstatus⟩ := hw
    simp only [WaitPoint.goOn, hturn] at hn
    obtain rfl := Option.some.inj hn
    exact hmove ⟨answeredTurnId_eq h.ground hids, hstatus⟩
  | storing r =>
    obtain rfl := Option.some.inj hn
    obtain ⟨rfl, hstatus⟩ := hw
    refine sound_setCall _ hc rfl hopen (h.ground.store (.inr ⟨b, hids⟩) fun b' hb' => ?_) (h.lane.store r)
      (fun other hother => (h.calls other hother).store r) ⟨b, hsent, rfl, hstatus, ?_⟩
    · rw [bridge_eq h.ground.runtimeIds hids hb']
      exact .inl hstatus
    · change ((s.handle.store r).completedTurns.lookup r.turnId).isSome
      rw [Handle.lookup_store, if_pos rfl]
      rfl
  | clearing r =>
    obtain rfl := Option.some.inj hn
    obtain ⟨rfl, hstatus, hsome⟩ := hw
    refine sound_setCall _ hc rfl hopen (h.ground.clear _) (h.lane.clear _)
      (fun other hother => (h.calls other hother).clear _)
      ⟨b, hsent, rfl, hstatus, hsome, fun _ he => ?_⟩
    exact (Handle.clear_active he).2 rfl
  | unmapping r =>
    obtain rfl := Option.some.inj hn
    obtain ⟨rfl, hstatus, hsome, hactive⟩ := hw
    have hground : Ground outcome s.acked { s with handle := s.handle.unmap r.turnId } := by
      refine h.ground.unmap fun b' hb' hne => ?_
      obtain rfl := bridge_eq h.ground.runtimeIds hids hb'
      exact hactive hne
    refine sound_setCall _ hc rfl hopen hground (h.lane.unmap h.ground hsome) (fun other hother => ?_)
      ⟨b, hsent, fun status hmem => ?_⟩
    · refine (h.calls other hother).unmap hsome h.ground (fun p hp => mem_acked hother hp) fun b' hb' => ?_
      rw [h.one_send hother hsent hb' rfl]
      rfl
    · exact ⟨r, rfl, hstatus.trans (h.ground.finished _ hmem).2.symm⟩
  | returned r f => cases hn

theorem Sound.stepCall (h : Sound outcome s) {i : ℕ} (hm : s.meets outcome (.goOn i) = true)
    (hs : s.stepCall i = some s') : Sound outcome s' := by
  unfold Turns.stepCall at hs
  split at hs
  · cases hs
  · next t point hc =>
    obtain ⟨next, hn, rfl⟩ := Option.map_eq_some_iff.mp hs
    exact h.stepSend hc hn
  · next t point hc =>
    obtain ⟨next, hn, rfl⟩ := Option.map_eq_some_iff.mp hs
    exact h.stepWait hm hc hn

/-! ## Answers -/

theorem Sound.unheard (h : Sound outcome s) {i : ℕ} {call : Call} (hc : s.calls[i]? = some call) {e : RuntimeError}
    (hspares : ∀ t point, call = .wait t point → s.isFinished t = false) (hs : s.receive i (.error e) = some s') :
    Sound outcome s' := by
  have hin := List.mem_of_getElem? hc
  simp only [Turns.receive, hc] at hs
  obtain ⟨call', hcall', rfl⟩ := Option.map_eq_some_iff.mp hs
  unfold Call.receive at hcall'
  split at hcall'
  · obtain rfl := Option.some.inj hcall'
    exact h.moveCall hc rfl (by simp) trivial
  · next t asked =>
    obtain rfl := Option.some.inj hcall'
    obtain ⟨b, hsent, hw⟩ := h.calls _ hin
    refine h.moveCall hc rfl (by simp) ⟨b, hsent, fun status hmem => ?_⟩
    exact absurd hmem (unfinished_of_not_isFinished (hspares t _ rfl) (mem_acked hsent rfl) status)
  · cases hcall'

theorem fresh_of {t b : String} (h : s.fresh t b = true) : Fresh s s.acked t b := by
  simp only [Turns.fresh, Bool.and_eq_true, Bool.or_eq_true, decide_eq_true_eq, List.all_eq_true] at h
  obtain ⟨⟨⟨hbridge, hruntime⟩, hbegun⟩, hnew⟩ := h
  exact ⟨hbridge, hruntime, fun hin => hbegun.resolve_right (not_not_intro hin), hnew⟩

theorem Sound.acknowledged (h : Sound outcome s) {i : ℕ} {t b : String}
    (hc : s.calls[i]? = some (.send t (.request .waiting))) (hf : s.fresh t b = true) :
    Sound outcome { s with calls := s.calls.set i (.send t (.mapRuntime b)) } := by
  have hfresh := fresh_of hf
  have hp : (Turns.acked { s with calls := s.calls.set i (.send t (.mapRuntime b)) }).Perm ((t, b) :: s.acked) :=
    filterMap_set_perm hc rfl rfl
  have hsent : ∀ t' b', Call.send t' (.sent b') ∈ s.calls →
      Call.send t' (.sent b') ∈ s.calls.set i (.send t (.mapRuntime b)) := fun t' b' hb => mem_set_of_ne hc hb (by simp)
  refine ⟨(h.ground.ack hp hfresh).same rfl rfl rfl rfl rfl rfl, (h.lane.ack hp hfresh).same rfl rfl rfl rfl rfl, ?_⟩
  intro other hother
  rcases List.mem_or_eq_of_mem_set hother with hother | rfl
  · exact (h.calls other hother).same rfl rfl rfl rfl hsent
  · exact hfresh.bridge

theorem Sound.answer (h : Sound outcome s) {i : ℕ} {response : Except RuntimeError Json}
    (hm : s.meets outcome (.answer i response) = true) (hs : s.receive i response = some s') : Sound outcome s' := by
  cases hc : s.calls[i]? with
  | none => simp [Turns.receive, hc] at hs
  | some call =>
    cases response with
    | error e =>
      refine h.unheard hc (fun t point he => ?_) hs
      subst he
      cases point <;> simpa [Turns.meets, hc] using hm
    | ok body =>
      simp only [Turns.receive, hc] at hs
      obtain ⟨call', hcall', rfl⟩ := Option.map_eq_some_iff.mp hs
      unfold Call.receive at hcall'
      split at hcall'
      · next t =>
        obtain rfl := Option.some.inj hcall'
        exact h.acknowledged hc (by simpa [Turns.meets, hc] using hm)
      · next t asked =>
        obtain rfl := Option.some.inj hcall'
        simp only [Turns.meets, hc, Bool.and_eq_true, decide_eq_true_eq] at hm
        obtain ⟨b, hsent, hw⟩ := h.calls _ (List.mem_of_getElem? hc)
        obtain rfl := hw.1
        exact h.moveCall hc rfl (by simp) ⟨_, hsent, hm⟩
      · cases hcall'

/-! ## The failure of the bridge -/

theorem Sound.fail (h : Sound outcome s) (message : String) (hm : s.closed = true ∨ s.sparesFinished = true) :
    Sound outcome (s.fail message) := by
  have hground := h.ground.fail message
  unfold Turns.fail at hground ⊢
  split
  · exact h
  · next hopen =>
    have hspares := hm.resolve_left hopen
    rw [if_neg hopen] at hground
    refine ⟨hground, h.lane.same rfl rfl rfl rfl rfl, fun call hcall => ?_⟩
    refine (h.calls call hcall).fails (.draining message) fun t b hu hb => ?_
    exact unfinished_of_spares hspares hcall hu hb

theorem drained_cases (finished : Finished) (e : RuntimeError) (call : Call) :
    (call.receive finished (.error e)).getD call = call ∨
    (∃ t, call = .send t (.request .waiting) ∧ (call.receive finished (.error e)).getD call = .send t (.failed e)) ∨
    ∃ t asked, call = .wait t (.request asked .waiting) ∧
      (call.receive finished (.error e)).getD call = .wait t (.returned (.error e) finished) := by
  unfold Call.receive
  split
  · exact .inr (.inl ⟨_, rfl, rfl⟩)
  · exact .inr (.inr ⟨_, _, rfl, rfl⟩)
  · exact .inl rfl

theorem acked_drained (finished : Finished) (e : RuntimeError) (call : Call) :
    Call.acked ((call.receive finished (.error e)).getD call) = call.acked := by
  rcases drained_cases finished e call with he | ⟨t, rfl, he⟩ | ⟨t, asked, rfl, he⟩
  · rw [he]
  · rfl
  · rfl

theorem Sound.drain (h : Sound outcome s) (message : String) (hf : s.failing = .draining message) :
    Sound outcome { s with
      calls := s.calls.map fun call => (call.receive s.finished (.error (.io message))).getD call
      failing := .reading message } := by
  have hground : Ground outcome s.acked { s with
      calls := s.calls.map fun call => (call.receive s.finished (.error (.io message))).getD call
      failing := .reading message } := h.ground.stepFailing (by simp [Turns.stepFailing, hf])
  have hacked : (s.calls.map fun call =>
    (call.receive s.finished (.error (.io message))).getD call).filterMap Call.acked =
      s.acked := by
    rw [List.filterMap_map]
    exact List.filterMap_congr fun call _ => acked_drained s.finished _ call
  have hsent : ∀ t b, Call.send t (.sent b) ∈ s.calls → Call.send t (.sent b) ∈
      s.calls.map fun call => (call.receive s.finished (.error (.io message))).getD call :=
    fun t b hb => List.mem_map.mpr ⟨_, hb, rfl⟩
  have hclosed : s.closed = true := by rw [Turns.closed, hf]; rfl
  refine ⟨?_, ?_, fun other hother => ?_⟩
  · rw [Turns.acked, hacked]
    exact hground
  · rw [Turns.acked, hacked]
    exact h.lane.same rfl rfl rfl rfl rfl
  · obtain ⟨call, hcall, rfl⟩ := List.mem_map.mp hother
    have hsound := h.calls call hcall
    rcases drained_cases s.finished (.io message) call with he | ⟨t, rfl, he⟩ | ⟨t, asked, rfl, he⟩
    · rw [he]
      exact (hsound.stillFails hclosed _).same rfl rfl rfl rfl hsent
    · rw [he]
      trivial
    · rw [he]
      obtain ⟨b, hb, hw⟩ := hsound
      exact ⟨b, hsent t b hb, fun status hmem => absurd hmem (hw.2 hclosed status)⟩

theorem Sound.stepFailing (h : Sound outcome s) (hs : s.stepFailing = some s') : Sound outcome s' := by
  have hground := h.ground.stepFailing hs
  unfold Turns.stepFailing at hs
  split at hs
  · cases hs
  · cases hs
  · next message hf =>
    obtain rfl := Option.some.inj hs
    exact h.drain message hf
  · next message hf =>
    have hclosed : s.closed = true := by rw [Turns.closed, hf]; rfl
    split at hs
    · obtain rfl := Option.some.inj hs
      exact ⟨hground, h.lane.same rfl rfl rfl rfl rfl, fun call hcall => (h.calls call hcall).stillFails hclosed _⟩
    · obtain rfl := Option.some.inj hs
      exact ⟨hground, h.lane.same rfl rfl rfl rfl rfl, fun call hcall => (h.calls call hcall).stillFails hclosed _⟩
  · next message turnId hf =>
    have hclosed : s.closed = true := by rw [Turns.closed, hf]; rfl
    obtain rfl := Option.some.inj hs
    refine ⟨hground, (h.lane.store _).same rfl rfl rfl rfl rfl, fun call hcall => ?_⟩
    exact (((h.calls call hcall).stillFails hclosed .done).store _).same rfl rfl rfl rfl fun _ _ hb => hb

/-! ## Sections of the lane -/

theorem Sound.stored_of_unmapped (h : Sound outcome s) {t b : String} (hids : (t, b) ∈ s.acked) (hb : b ∈ s.ended)
    (hm : s.handle.runtimeTurnByBridgeTurn.lookup b = none) : (s.handle.completedTurns.lookup t).isSome := by
  obtain ⟨call, hcall, hp⟩ := List.mem_filterMap.mp hids
  have hsound := h.calls call hcall
  unfold Call.acked at hp
  split at hp
  · cases hp
    exact absurd hb hsound
  · cases hp
    exact absurd hb hsound.1
  · cases hp
    exact absurd hb hsound.1
  · cases hp
    rcases hsound with hmapped | hsome
    · rw [hmapped.2] at hm
      cases hm
    · exact hsome
  · cases hp

theorem Sound.lane_sent (h : Sound outcome s) {t b b' : String} (hl : s.lane.ending = some (b, t)) {call : Call}
    (hcall : call ∈ s.calls) (hp : call.acked = some (t, b')) : call.sending = none := by
  have hown := h.lane.own b t b' (Lane.turn_of_ending hl) (mem_acked hcall hp)
  have hended := h.lane.ended b t hl
  have hsound := h.calls call hcall
  subst hown
  unfold Call.acked at hp
  split at hp
  · cases hp
    exact absurd hended hsound
  · cases hp
    exact absurd hended hsound.1
  · cases hp
    exact absurd hended hsound.1
  · rfl
  · cases hp

theorem Sound.starting (h : Sound outcome s) {b t : String} (hl : s.lane = .starting b t)
    (hm : t = b ∨ s.handle.completedTurns.lookup t = none) :
    Sound outcome { s with handle := s.handle.activate t, lane := .idle } := by
  have hturn : s.lane.turn = some (b, t) := by rw [hl]; rfl
  obtain ⟨hbegun, hunfinished, hcase⟩ := h.lane.starting b t hl
  have hground : Ground outcome s.acked { s with handle := s.handle.activate t } := by
    refine h.ground.activate ?_ fun b' hb' => ?_
    · refine .inr ((h.lane.known b t hturn).imp_left fun he => ?_)
      rw [he]
      exact hbegun
    · obtain rfl := h.lane.own b t b' hturn hb'
      refine ⟨hunfinished, fun hne => (hcase.resolve_left hne).resolve_right ?_⟩
      rw [hm.resolve_left hne]
      exact Bool.false_ne_true
  refine ⟨hground.same rfl rfl rfl rfl rfl rfl, .idle rfl, fun call hcall => ?_⟩
  have hsound := (h.calls call hcall).activate (x := t) fun r b' hw hb' hsome => ?_
  · exact hsound.same rfl rfl rfl rfl fun _ _ hb => hb
  · -- the wait has put its result down, so the turn is started under its own id
    obtain rfl := h.lane.own b t b' hturn (mem_acked hb' rfl)
    refine hm.resolve_right fun hnone => ?_
    rw [hnone] at hsome
    cases hsome

theorem Sound.storing (h : Sound outcome s) {b : String} {completes : Bool} {r : ProviderTurnResult}
    (hl : s.lane = .storing b completes r) :
    Sound outcome { s with handle := s.handle.store r, lane := .clearing b completes r } := by
  have hending : s.lane.ending = some (b, r.turnId) := by rw [hl]; rfl
  have hturn := Lane.turn_of_ending hending
  have hstatus := h.lane.storing b completes r hl
  have hground : Ground outcome s.acked { s with handle := s.handle.store r } := by
    refine h.ground.store ?_ fun b' hb' => ?_
    · refine (h.lane.known b _ hturn).imp_left fun he => ?_
      rw [he]
      exact h.lane.ended b _ hending
    · rw [h.lane.own b _ b' hturn hb']
      exact .inl hstatus
  refine ⟨hground.same rfl rfl rfl rfl rfl rfl, ?_, fun call hcall => ?_⟩
  · exact
      { known := fun b' t' hl' => h.lane.known b' t' (hturn.trans hl')
        own := fun b' t' b'' hl' => h.lane.own b' t' b'' (hturn.trans hl')
        ended := fun b' t' hl' => h.lane.ended b' t' (hending.trans hl')
        found := fun b' t' t'' hl' => h.lane.found b' t' t'' (hending.trans hl')
        starting := fun b' t' hl' => by cases hl'
        storing := fun b' completes' r' hl' => by cases hl'
        clearing := fun b' completes' r' hl' => by
          cases hl'
          refine ⟨hstatus, ?_⟩
          change ((s.handle.store r).completedTurns.lookup r.turnId).isSome
          rw [Handle.lookup_store, if_pos rfl]
          rfl
        unmapping := fun b' completes' r' hl' => by cases hl' }
  · exact ((h.calls call hcall).store r).same rfl rfl rfl rfl fun _ _ hb => hb

theorem Sound.clearing (h : Sound outcome s) {b : String} {completes : Bool} {r : ProviderTurnResult}
    (hl : s.lane = .clearing b completes r) :
    Sound outcome { s with handle := s.handle.clear r.turnId, lane := .unmapping b completes r } := by
  have hending : s.lane.ending = some (b, r.turnId) := by rw [hl]; rfl
  have hturn := Lane.turn_of_ending hending
  obtain ⟨hstatus, hsome⟩ := h.lane.clearing b completes r hl
  refine ⟨(h.ground.clear r.turnId).same rfl rfl rfl rfl rfl rfl, ?_, fun call hcall => ?_⟩
  · exact
      { known := fun b' t' hl' => h.lane.known b' t' (hturn.trans hl')
        own := fun b' t' b'' hl' => h.lane.own b' t' b'' (hturn.trans hl')
        ended := fun b' t' hl' => h.lane.ended b' t' (hending.trans hl')
        found := fun b' t' t'' hl' => h.lane.found b' t' t'' (hending.trans hl')
        starting := fun b' t' hl' => by cases hl'
        storing := fun b' completes' r' hl' => by cases hl'
        clearing := fun b' completes' r' hl' => by cases hl'
        unmapping := fun b' completes' r' hl' => by
          cases hl'
          exact ⟨hstatus, hsome, fun he => (Handle.clear_active he).2 rfl⟩ }
  · exact ((h.calls call hcall).clear r.turnId).same rfl rfl rfl rfl fun _ _ hb => hb

theorem Sound.unmapping (h : Sound outcome s) {b : String} {completes : Bool} {r : ProviderTurnResult}
    (hl : s.lane = .unmapping b completes r) :
    Sound outcome { s with
      handle := s.handle.unmap r.turnId
      lane := .idle
      finished := if completes && !s.closed then (b, r.status) :: s.finished else s.finished } := by
  have hending : s.lane.ending = some (b, r.turnId) := by rw [hl]; rfl
  have hturn := Lane.turn_of_ending hending
  obtain ⟨hstatus, hsome, hactive⟩ := h.lane.unmapping b completes r hl
  have hended := h.lane.ended b _ hending
  have hground : Ground outcome s.acked { s with handle := s.handle.unmap r.turnId } :=
    h.ground.unmap fun _ _ _ => hactive
  have hcalls : ∀ call ∈ s.calls, CallSound outcome s.calls { s with handle := s.handle.unmap r.turnId } call := by
    intro call hcall
    refine (h.calls call hcall).unmap hsome h.ground (fun p hp => mem_acked hcall hp) fun b' hb' => ?_
    exact h.lane_sent hending hcall hb'
  split
  · next hopen =>
    simp only [Bool.and_eq_true, Bool.not_eq_true'] at hopen
    have hopen' := hopen.2
    -- whoever has the bridge turn has its result, and is not active
    have hdone : ∀ t, (t, b) ∈ s.acked → ((s.handle.unmap r.turnId).completedTurns.lookup t).isSome ∧
        (s.handle.unmap r.turnId).activeTurnId ≠ some t := by
      intro t hids
      rw [Handle.unmap_completed, Handle.unmap_active]
      rcases h.lane.found b _ t hending hids with rfl | ⟨hturnId, hnone⟩
      · exact ⟨hsome, hactive⟩
      · refine ⟨h.stored_of_unmapped hids hended hnone, fun he => ?_⟩
        by_cases hown : t = b
        · exact hactive (by rw [hturnId, ← hown, he])
        · have hmap := (h.ground.active t b hids he).2 hown
          rw [hnone] at hmap
          cases hmap
    have hfinish := hground.finish r.status hopen' hended hstatus hdone
    refine ⟨hfinish.same rfl rfl rfl rfl rfl rfl, .idle rfl, fun call hcall => ?_⟩
    exact ((hcalls call hcall).finish hopen' _).same rfl rfl rfl rfl fun _ _ hb => hb
  · exact ⟨hground.same rfl rfl rfl rfl rfl rfl, .idle rfl, fun call hcall =>
      (hcalls call hcall).same rfl rfl rfl rfl fun _ _ hb => hb⟩

/-! ## Events -/

theorem settled_of {b : String} (h : s.settled b = true) : ∀ call ∈ s.calls, call.sending ≠ some b :=
  fun call hcall => of_decide_eq_true (List.all_eq_true.mp h call hcall)

theorem owns_of {b : String} (h : s.owns b = true) : ∀ b', (b, b') ∈ s.acked → b' = b := by
  intro b' hb'
  have hall := List.all_eq_true.mp h _ hb'
  simpa using hall

theorem Sound.resolved (h : Sound outcome s) (b : String) :
    (s.handle.resolveRuntimeTurnId b, b) ∈ s.acked ∧
        s.handle.runtimeTurnByBridgeTurn.lookup b = some (s.handle.resolveRuntimeTurnId b) ∨
      s.handle.resolveRuntimeTurnId b = b ∧ s.handle.runtimeTurnByBridgeTurn.lookup b = none := by
  unfold Handle.resolveRuntimeTurnId
  cases hm : s.handle.runtimeTurnByBridgeTurn.lookup b with
  | some t => exact .inl ⟨h.ground.bridgeMap t b hm, rfl⟩
  | none => exact .inr ⟨rfl, rfl⟩

theorem Sound.own_of_resolved (h : Sound outcome s) {b b' : String} (hown : ∀ b', (b, b') ∈ s.acked → b' = b)
    (hids : (s.handle.resolveRuntimeTurnId b, b') ∈ s.acked) : b' = b := by
  rcases h.resolved b with ⟨hr, -⟩ | ⟨hr, -⟩
  · exact bridge_eq h.ground.runtimeIds hr hids
  · rw [hr] at hids
    exact hown b' hids

/-- A turn may be started before the answer to its send is there. -/
theorem Sound.begin (h : Sound outcome s) {b : String} (hown : ∀ b', (b, b') ∈ s.acked → b' = b)
    (hunfinished : s.Unfinished b) :
    Sound outcome { s with lane := .starting b (s.handle.resolveRuntimeTurnId b), begun := b :: s.begun } := by
  refine ⟨(h.ground.begin b).same rfl rfl rfl rfl rfl rfl, ?_, fun call hcall => ?_⟩
  · exact
      { known := fun b' t hl => by
          cases hl
          exact (h.resolved b).symm.imp And.left fun hr => ⟨_, hr.1⟩
        own := fun b' t b'' hl hids => by
          cases hl
          exact h.own_of_resolved hown hids
        ended := fun b' t hl => by cases hl
        found := fun b' t t' hl => by cases hl
        starting := fun b' t hl => by
          cases hl
          exact ⟨List.mem_cons_self, hunfinished, (h.resolved b).symm.imp And.left fun hr => .inl hr.2⟩
        storing := fun b' completes r hl => by cases hl
        clearing := fun b' completes r hl => by cases hl
        unmapping := fun b' completes r hl => by cases hl }
  · exact (h.calls call hcall).same rfl rfl rfl rfl fun _ _ hb => hb

theorem Sound.takeUp (h : Sound outcome s) {b : String} {completes : Bool} {r : ProviderTurnResult}
    (hr : r.turnId = s.handle.resolveRuntimeTurnId b) (hsettled : ∀ call ∈ s.calls, call.sending ≠ some b)
    (hown : ∀ b', (b, b') ∈ s.acked → b' = b) (hstatus : r.status = outcome b) :
    Sound outcome { s with lane := .storing b completes r, ended := b :: s.ended } := by
  refine ⟨(h.ground.take b).same rfl rfl rfl rfl rfl rfl, ?_, fun call hcall => ?_⟩
  · exact
      { known := fun b' t hl => by
          cases hl
          rw [hr]
          exact (h.resolved b).symm.imp And.left fun hr => ⟨_, hr.1⟩
        own := fun b' t b'' hl hids => by
          cases hl
          rw [hr] at hids
          exact h.own_of_resolved hown hids
        ended := fun b' t hl => by
          cases hl
          exact List.mem_cons_self
        found := fun b' t t' hl hids => by
          cases hl
          rw [hr]
          exact (h.resolved b).imp_left fun hr => turn_eq h.ground.bridgeIds hr.1 hids
        starting := fun b' t hl => by cases hl
        storing := fun b' completes' r' hl => by
          cases hl
          exact hstatus
        clearing := fun b' completes' r' hl => by cases hl
        unmapping := fun b' completes' r' hl => by cases hl }
  · exact ((h.calls call hcall).take (hsettled call hcall)).same rfl rfl rfl rfl fun _ _ hb => hb

theorem Sound.dispatch (h : Sound outcome s) {e : BridgeEvent}
    (hm : ∀ b, e.turnId = some b → s.admits outcome e.name b e.body = true) : Sound outcome (s.dispatch e) := by
  unfold Turns.dispatch
  split
  · exact h
  · next b hb =>
    have hadmits := hm b hb
    unfold Turns.admits at hadmits
    dsimp only
    split
    · next hname =>
      simp only [hname, Bool.and_eq_true] at hadmits
      refine h.begin (owns_of hadmits.1) fun status hmem => ?_
      have hall := List.all_eq_true.mp hadmits.2 _ hmem
      simp at hall
    · next hname =>
      simp only [hname, Bool.and_eq_true] at hadmits
      exact h.takeUp rfl (settled_of hadmits.1.2) (owns_of hadmits.1.1) (of_decide_eq_true hadmits.2)
    · next hname =>
      simp only [hname, Bool.and_eq_true] at hadmits
      exact h.takeUp rfl (settled_of hadmits.1.2) (owns_of hadmits.1.1) (of_decide_eq_true hadmits.2).symm
    · exact h

theorem Sound.handleBridgeEvent (h : Sound outcome s) {payload : Json} {text : String}
    (hm : s.meets outcome (.event payload text) = true) : Sound outcome (s.handleBridgeEvent payload text) := by
  change (if s.breaks payload = true then s.sparesFinished else (readEvent payload).all fun e =>
    e.sessionId ≠ s.bridgeSessionId || e.turnId.all fun b => s.admits outcome e.name b e.body) = true at hm
  unfold Turns.handleBridgeEvent
  cases hread : readEvent payload with
  | none =>
    rw [if_pos (by simp [Turns.breaks, hread])] at hm
    exact h.fail _ (.inr hm)
  | some e =>
    dsimp only
    split
    · next hstale =>
      rw [if_pos (by simp [Turns.breaks, hread, hstale])] at hm
      exact h.fail _ (.inr hm)
    · next hnew =>
      rw [if_neg (by simp [Turns.breaks, hread, hnew]), hread, Option.all_some] at hm
      have hcounted : Sound outcome
          { s with lastEventSeqBySession := s.lastEventSeqBySession.insert e.sessionId e.seq } :=
        ⟨h.ground.same rfl rfl rfl rfl rfl rfl, h.lane.same rfl rfl rfl rfl rfl, fun call hcall =>
          (h.calls call hcall).same rfl rfl rfl rfl fun _ _ hb => hb⟩
      split
      · next hours =>
        refine hcounted.dispatch fun b hb => ?_
        have hadmits : s.admits outcome e.name b e.body = true := by simpa [hours, hb] using hm
        exact hadmits
      · exact hcounted

/-! ## Runs -/

theorem Sound.newCall (h : Sound outcome s) {call : Call} (hids : call.acked = none)
    (hnew : CallSound outcome s.calls s call) : Sound outcome { s with calls := s.calls ++ [call] } := by
  have hacked : Turns.acked { s with calls := s.calls ++ [call] } = s.acked := by
    simp [Turns.acked, List.filterMap_append, hids]
  have hsent : ∀ t b, Call.send t (.sent b) ∈ s.calls → Call.send t (.sent b) ∈ s.calls ++ [call] :=
    fun t b hb => List.mem_append_left _ hb
  refine ⟨?_, ?_, fun other hother => ?_⟩
  · rw [hacked]
    exact h.ground.same rfl rfl rfl rfl rfl rfl
  · rw [hacked]
    exact h.lane.same rfl rfl rfl rfl rfl
  · rcases List.mem_append.mp hother with hother | hother
    · exact (h.calls other hother).same rfl rfl rfl rfl hsent
    · obtain rfl := List.mem_singleton.mp hother
      exact hnew.same rfl rfl rfl rfl hsent

theorem Sound.stepLane (h : Sound outcome s) (hm : s.meets outcome .lane = true) (hs : s.stepLane = some s') :
    Sound outcome s' := by
  unfold Turns.stepLane at hs
  split at hs
  · cases hs
  · next b t hl =>
    obtain rfl := Option.some.inj hs
    simp only [Turns.meets, hl, Bool.or_eq_true, decide_eq_true_eq, Option.isNone_iff_eq_none] at hm
    exact h.starting hl hm
  · next b completes r hl =>
    obtain rfl := Option.some.inj hs
    exact h.storing hl
  · next b completes r hl =>
    obtain rfl := Option.some.inj hs
    exact h.clearing hl
  · next b completes r hl =>
    obtain rfl := Option.some.inj hs
    exact h.unmapping hl

theorem Sound.step {l : Label} (h : Sound outcome s) (hm : s.meets outcome l = true) (hs : Turns.step l s = some s') :
    Sound outcome s' := by
  cases l with
  | event payload text =>
    simp only [Turns.step] at hs
    split at hs
    · obtain rfl := Option.some.inj hs
      exact h.handleBridgeEvent hm
    · cases hs
  | lane => exact h.stepLane hm hs
  | send turnId =>
    obtain rfl := Option.some.inj hs
    exact h.newCall rfl trivial
  | wait turnId =>
    obtain rfl := Option.some.inj hs
    obtain ⟨b, hb⟩ := through_iff.mp hm
    exact h.newCall rfl ⟨b, hb, trivial⟩
  | goOn i => exact h.stepCall hm hs
  | answer i response => exact h.answer hm hs
  | timeout i =>
    simp only [Turns.step] at hs
    split at hs
    · cases hs
    · next call hc =>
      refine h.unheard hc (fun t point he => ?_) hs
      subst he
      simpa [Turns.meets, hc] using hm
  | lost i =>
    simp only [Turns.step] at hs
    split at hs
    · cases hs
    · next call hc =>
      refine h.unheard hc (fun t point he => ?_) hs
      subst he
      simpa [Turns.meets, hc] using hm
  | fail message =>
    obtain rfl := Option.some.inj hs
    exact h.fail message (by simpa [Turns.meets] using hm)
  | failing => exact h.stepFailing hs

theorem sound_start (runtimeSessionId bridgeSessionId : String) (instanceId : ℕ) :
    Sound outcome (.start runtimeSessionId bridgeSessionId instanceId) where
  ground :=
    { runtimeIds := List.nodup_nil
      bridgeIds := List.nodup_nil
      finished := fun f hf => by cases hf
      runtimeMap := fun t b hm => by cases hm
      bridgeMap := fun t b hm => by cases hm
      results := fun t b r hids => by cases hids
      stored := fun t b hids => by cases hids
      active := fun t b hids => by cases hids
      known := fun t hk => by
        rcases hk with hk | hk | ⟨_, hk⟩ | hk
        · cases hk
        · cases hk
        · cases hk
        · cases hk
      kept := fun t hk => by cases hk
      recorded := fun hr => absurd rfl hr
      spared := fun t b hids => by cases hids }
  lane := .idle rfl
  calls call hcall := by cases hcall

theorem Sound.finishedKept (h : Sound outcome s) : FinishedKept s := by
  intro t b status hids
  refine ⟨fun result finished hcall hmem => ?_, fun hmem hrecorded => ?_⟩
  · obtain ⟨b', hsent, hw⟩ := h.calls _ hcall
    obtain rfl := bridge_eq h.ground.runtimeIds (mem_acked hsent rfl) hids
    exact hw status hmem
  · exact h.ground.spared t b hids (.inr hrecorded) status hmem

end

/-- In every run whose steps meet the condition, a turn whose completion was processed before the bridge failed is
reported with its status, and is not recorded as failed. -/
theorem finished_kept {outcome : String → ProviderTurnStatus} {runtimeSessionId bridgeSessionId : String}
    {instanceId : ℕ}
    {s : Turns} (hr : Reaches Turns.step (fun l s => Turns.meets outcome l s = true)
      (.start runtimeSessionId bridgeSessionId instanceId) s) : FinishedKept s :=
  (hr.invariant (sound_start _ _ _) fun _ _ _ h hm hs => h.step hm hs).finishedKept

/-- An event of bridge turn `turn_1`. -/
def turnEvent (name : String) (seq : ℤ) (body : Json) : Label :=
  .event (.obj [("event", .str name), ("seq", .int seq), ("sessionId", .str "claude_sess_1"),
    ("turnId", .str "turn_1"), ("payload", body)]) ""

def startedEvent : Label := turnEvent "turn.started" 1 (.obj [])

def completedEvent : Label := turnEvent "turn.completed" 2 (.obj [("status", .str "completed")])

/-- The send of turn `turn_a` up to its answer, the answer, and the rest of the send. -/
def sendAsked : List Label := [.send "turn_a", .goOn 0, .goOn 0]

def sendAnswered : List Label :=
  [.answer 0 (.ok (.obj [("turnId", .str "turn_1")])), .goOn 0, .goOn 0, .goOn 0]

/-- The turn is started before the send has its answer, and a wait is asked before the turn completes and answered
after it. -/
theorem finished_kept_answered : ∃ s : Turns, s.finished = [("turn_1", .completed)] ∧ s.failing = .done ∧
    FinishedKept s := by
  obtain ⟨s, hs, he⟩ := exists_reaches_of_runAll (s := Turns.start "sess_a" "claude_sess_1" 1) Turns.step
    (Turns.meets fun _ => .completed)
    (sendAsked ++ [startedEvent, .lane] ++ sendAnswered ++
      [.wait "turn_a", .goOn 1, .goOn 1, .goOn 1, .goOn 1, completedEvent, .lane, .lane, .lane,
      .answer 1 (.ok (.obj [("turnId", .str "turn_1"), ("status", .str "completed")])), .goOn 1, .goOn 1,
        .goOn 1, .goOn 1,
      .fail "", .failing, .failing])
    (fun s => (s.finished, s.failing)) ([("turn_1", .completed)], .done) (by decide +kernel)
  obtain ⟨hfinished, hfailing⟩ := Prod.mk.inj he
  exact ⟨s, hfinished, hfailing, finished_kept hs⟩

/-- The completion overtakes the answer to the send, and the bridge fails later. -/
theorem not_finished_kept : ¬ ∀ (runtimeSessionId bridgeSessionId : String) (instanceId : ℕ) (s : Turns),
    Reaches Turns.step (fun _ _ => True) (.start runtimeSessionId bridgeSessionId instanceId) s → FinishedKept s := by
  intro hall
  obtain ⟨s, hs, he⟩ := exists_reaches_of_runAll (s := Turns.start "sess_a" "claude_sess_1" 1) Turns.step
    (fun _ _ => true)
    (sendAsked ++ [completedEvent, .lane, .lane, .lane] ++ sendAnswered ++ [.fail "", .failing, .failing, .failing])
    (fun s => (s.acked, s.finished, s.recorded)) ([("turn_a", "turn_1")], [("turn_1", .completed)], ["turn_a"])
    (by decide +kernel)
  obtain ⟨hacked, he⟩ := Prod.mk.inj he
  obtain ⟨hfinished, hrecorded⟩ := Prod.mk.inj he
  have hkept := hall _ _ _ s (hs.mono fun _ _ _ => trivial) "turn_a" "turn_1" .completed
    (by rw [hacked]; exact List.mem_cons_self)
  refine hkept.2 (by rw [hfinished]; exact List.mem_cons_self) ?_
  rw [hrecorded]
  exact List.mem_cons_self

end Gooselake.Providers.ClaudeTurns
