import Gooselake.Providers.ClaudeTurns

/-!
Whether the outcome of a Claude turn depends on timing. What the bridge has to say about one turn is fixed; when the lane
takes up the events, when the responses arrive and when the calls go on is free, and the bridge does not fail meanwhile.
-/

namespace Gooselake.Providers.ClaudeTurns

open Gooselake.Core Data Library

set_option autoImplicit false

/-! ## What a bridge emits for a turn -/

/-- The events and responses for one turn: any number of `error` events and a `turn.completed`, the acknowledgement of the
send and the response to a wait, which reports what the turn was completed with. -/
structure Script where
  runtimeTurnId : String
  bridgeTurnId : String
  /-- The bodies of the `error` events. -/
  errors : List Json
  /-- The body of the `turn.completed`. -/
  completion : Json
  ack : Json
  response : Json
  acknowledges : (turnIdOf ack).getD runtimeTurnId = bridgeTurnId
  responds : turnIdOf response = some bridgeTurnId
  agrees : extractTurnStatus (response.get? "status") = extractTurnStatus (completion.get? "status")

namespace Script

def status (x : Script) : ProviderTurnStatus := extractTurnStatus (x.completion.get? "status")

def events (x : Script) : List (String × Json) := x.errors.map (Prod.mk "error") ++ [("turn.completed", x.completion)]

/-- The turn is sent once and may be waited for at any time. The lane takes up the events in order. The bridge answers the
send and every wait that asks for the turn; a wait for an id that it does not know ends in an error. -/
def permits (x : Script) : Label → Turns → Prop
  | .event payload _, s => ∃ e, readEvent payload = some e ∧ s.lastSeq e.sessionId < e.seq ∧
      e.sessionId = s.bridgeSessionId ∧ e.turnId = some x.bridgeTurnId ∧
        x.events[s.ended.length]? = some (e.name, e.body)
  | .send turnId, s => turnId = x.runtimeTurnId ∧ ∀ call ∈ s.calls, call.method ≠ "session.send"
  | .wait turnId, _ => turnId = x.runtimeTurnId
  | .answer i response, s =>
    match s.calls[i]? with
    | some (.send _ _) => response = .ok x.ack
    | some (.wait _ (.request asked _)) =>
      if asked = x.bridgeTurnId then response = .ok x.response else ∃ e, response = .error e
    | _ => False
  | .lane, _ | .goOn _, _ => True
  | .timeout _, _ | .lost _, _ | .fail _, _ | .failing, _ => False

/-- A wait for the turn has returned `result`. -/
def Returns (x : Script) (s : Turns) (result : Except RuntimeError ProviderTurnResult) : Prop :=
  ∃ finished, Call.wait x.runtimeTurnId (.returned result finished) ∈ s.calls

end Script

def statusOf (result : Except RuntimeError ProviderTurnResult) : Option ProviderTurnStatus :=
  result.toOption.map ProviderTurnResult.status

/-- The status that waits return does not depend on the order of the steps. -/
def Timeless (x : Script) (s : Turns) : Prop :=
  ∀ s₁ s₂ r₁ r₂, Reaches Turns.step x.permits s s₁ → Reaches Turns.step x.permits s s₂ → x.Returns s₁ r₁ →
    x.Returns s₂ r₂ → statusOf r₁ = statusOf r₂

/-! ## One id -/

/-- What holds of a wait when the bridge knows the turn by its runtime id `t` and the outcome is `status`. -/
def WaitPoint.Steady (t : String) (status : ProviderTurnStatus) : WaitPoint → Prop
  | .checking | .resolving => True
  | .request asked _ => asked = t
  | .answered body => turnIdOf body = some t ∧ extractTurnStatus (body.get? "status") = status
  | .storing r | .clearing r | .unmapping r => r.status = status
  | .returned result _ => ∃ r, result = .ok r ∧ r.status = status

def Call.Steady (t : String) (status : ProviderTurnStatus) : Call → Prop
  | .send turnId (.mapRuntime b) | .send turnId (.mapBridge b) => turnId = t ∧ b = t
  | .send turnId _ => turnId = t
  | .wait turnId point => turnId = t ∧ point.Steady t status

structure Steady (t : String) (status : ProviderTurnStatus) (s : Turns) : Prop where
  runtimeMap : ∀ b, s.handle.bridgeTurnByRuntimeTurn.lookup t = some b → b = t
  bridgeMap : ∀ turnId, s.handle.runtimeTurnByBridgeTurn.lookup t = some turnId → turnId = t
  completed : ∀ turnId r, s.handle.completedTurns.lookup turnId = some r → r.status = status
  lane : ∀ b completes r, s.lane = .storing b completes r → r.status = status
  closed : s.closed = false
  calls : ∀ call ∈ s.calls, call.Steady t status

section

variable {x : Script} {t : String} {status : ProviderTurnStatus} {s s' : Turns}

theorem steady_setCall {i : ℕ} {handle : Handle} {call : Call}
    (h : Steady t status { s with handle := handle }) (hnew : call.Steady t status) :
    Steady t status { s with handle := handle, calls := s.calls.set i call } :=
  { h with
    calls := fun other hother => by
      rcases List.mem_or_eq_of_mem_set hother with hother | rfl
      · exact h.calls other hother
      · exact hnew }

theorem Steady.addCall (h : Steady t status s) {call : Call} (hnew : call.Steady t status) :
    Steady t status { s with calls := s.calls ++ [call] } :=
  { h with
    calls := fun other hother => by
      rcases List.mem_append.mp hother with hother | hother
      · exact h.calls other hother
      · exact List.mem_singleton.mp hother ▸ hnew }

theorem Steady.store (h : Steady t status s) {r : ProviderTurnResult} (hr : r.status = status) :
    Steady t status { s with handle := s.handle.store r } :=
  { h with
    completed := fun turnId r' hr' => by
      change (s.handle.completedTurns.insert r.turnId r).lookup turnId = some r' at hr'
      rw [Table.lookup_insert] at hr'
      split at hr'
      · obtain rfl := Option.some.inj hr'
        exact hr
      · exact h.completed turnId r' hr' }

theorem Steady.clear (h : Steady t status s) (turnId : String) :
    Steady t status { s with handle := s.handle.clear turnId } := { h with }

theorem Steady.unmap (h : Steady t status s) (turnId : String) :
    Steady t status { s with handle := s.handle.unmap turnId } := by
  unfold Handle.unmap
  split
  · exact h
  · exact
      { h with
        runtimeMap := fun b hb => by
          rw [Table.lookup_erase] at hb
          split at hb
          · cases hb
          · exact h.runtimeMap b hb
        bridgeMap := fun turnId' hb => by
          rw [Table.lookup_erase] at hb
          split at hb
          · cases hb
          · exact h.bridgeMap turnId' hb }

theorem Steady.mapRuntime (h : Steady t status s) : Steady t status { s with handle := s.handle.mapRuntime t t } :=
  { h with
    runtimeMap := fun b hb => by
      change (s.handle.bridgeTurnByRuntimeTurn.insert t t).lookup t = some b at hb
      rw [Table.lookup_insert, if_pos rfl] at hb
      exact (Option.some.inj hb).symm }

theorem Steady.mapBridge (h : Steady t status s) : Steady t status { s with handle := s.handle.mapBridge t t } :=
  { h with
    bridgeMap := fun turnId hb => by
      change (s.handle.runtimeTurnByBridgeTurn.insert t t).lookup t = some turnId at hb
      rw [Table.lookup_insert, if_pos rfl] at hb
      exact (Option.some.inj hb).symm }

theorem Steady.resolveBridge (h : Steady t status s) : s.handle.resolveBridgeTurnId t = t := by
  unfold Handle.resolveBridgeTurnId
  cases hb : s.handle.bridgeTurnByRuntimeTurn.lookup t with
  | none => rfl
  | some b => exact h.runtimeMap b hb

theorem Steady.stepSend (h : Steady t status s) {i : ℕ} {turnId : String} {point : SendPoint}
    {next : Handle × SendPoint}
    (hc : (Call.send turnId point).Steady t status) (hn : point.goOn s.closed turnId s.handle = some next) :
    Steady t status { s with handle := next.1, calls := s.calls.set i (.send turnId next.2) } := by
  cases point with
  | request r =>
    obtain ⟨r', -, rfl⟩ := Option.map_eq_some_iff.mp hn
    cases r' with
    | ok r' => exact steady_setCall h hc
    | error e => exact steady_setCall h hc
  | mapRuntime b =>
    obtain rfl := Option.some.inj hn
    obtain ⟨rfl, rfl⟩ := hc
    exact steady_setCall h.mapRuntime ⟨rfl, rfl⟩
  | mapBridge b =>
    obtain rfl := Option.some.inj hn
    obtain ⟨rfl, rfl⟩ := hc
    exact steady_setCall h.mapBridge rfl
  | activating b =>
    obtain rfl := Option.some.inj hn
    exact steady_setCall { h with } hc
  | sent b => cases hn
  | failed e => cases hn

theorem Steady.stepWait (h : Steady t status s) {i : ℕ} {turnId : String} {point : WaitPoint}
    {next : Handle × WaitPoint}
    (hc : (Call.wait turnId point).Steady t status)
    (hn : point.goOn s.closed s.runtimeSessionId turnId s.finished s.handle = some next) :
    Steady t status { s with handle := next.1, calls := s.calls.set i (.wait turnId next.2) } := by
  obtain ⟨rfl, hp⟩ := hc
  cases point with
  | checking =>
    cases hr : s.handle.completedTurns.lookup turnId with
    | some r =>
      simp only [WaitPoint.goOn, hr] at hn
      obtain rfl := Option.some.inj hn
      exact steady_setCall h ⟨rfl, r, rfl, h.completed turnId r hr⟩
    | none =>
      simp only [WaitPoint.goOn, hr] at hn
      obtain rfl := Option.some.inj hn
      exact steady_setCall h ⟨rfl, trivial⟩
  | resolving =>
    obtain rfl := Option.some.inj hn
    exact steady_setCall h ⟨rfl, h.resolveBridge⟩
  | request asked r =>
    obtain ⟨r', hr, rfl⟩ := Option.map_eq_some_iff.mp hn
    cases r' with
    | ok r' => exact steady_setCall h ⟨rfl, hp⟩
    | error e =>
      -- the flag is down
      rw [h.closed] at hr
      cases r <;> cases hr
  | answered body =>
    simp only [WaitPoint.goOn, hp.1] at hn
    obtain rfl := Option.some.inj hn
    exact steady_setCall h ⟨rfl, hp.2⟩
  | storing r =>
    obtain rfl := Option.some.inj hn
    exact steady_setCall (h.store hp) ⟨rfl, hp⟩
  | clearing r =>
    obtain rfl := Option.some.inj hn
    exact steady_setCall (h.clear r.turnId) ⟨rfl, hp⟩
  | unmapping r =>
    obtain rfl := Option.some.inj hn
    exact steady_setCall (h.unmap r.turnId) ⟨rfl, r, rfl, hp⟩
  | returned r f => cases hn

theorem Steady.answer (h : Steady x.runtimeTurnId x.status s) (hown : x.bridgeTurnId = x.runtimeTurnId) {i : ℕ}
    {response : Except RuntimeError Json} (hp : x.permits (.answer i response) s)
    (hs : s.receive i response = some s') : Steady x.runtimeTurnId x.status s' := by
  cases hc : s.calls[i]? with
  | none => simp [Turns.receive, hc] at hs
  | some call =>
    have hsteady := h.calls call (List.mem_of_getElem? hc)
    simp only [Turns.receive, hc] at hs
    obtain ⟨call', hcall', rfl⟩ := Option.map_eq_some_iff.mp hs
    simp only [Script.permits, hc] at hp
    unfold Call.receive at hcall'
    split at hcall'
    · next turnId =>
      subst hp
      obtain rfl := Option.some.inj hcall'
      obtain rfl : turnId = x.runtimeTurnId := hsteady
      exact steady_setCall h ⟨rfl, x.acknowledges.trans hown⟩
    · next turnId asked =>
      obtain ⟨rfl, rfl⟩ : turnId = x.runtimeTurnId ∧ asked = x.runtimeTurnId := hsteady
      have hresponse : response = .ok x.response := by simpa [hown] using hp
      subst hresponse
      obtain rfl := Option.some.inj hcall'
      exact steady_setCall h ⟨rfl, hown ▸ x.responds, x.agrees⟩
    · cases hcall'

theorem Steady.dispatch (h : Steady x.runtimeTurnId x.status s) (hfailed : x.errors = [] ∨ x.status = .failed)
    {e : BridgeEvent} {n : ℕ} (he : x.events[n]? = some (e.name, e.body)) :
    Steady x.runtimeTurnId x.status (s.dispatch e) := by
  have hmem : (e.name, e.body) ∈ x.events := List.mem_of_getElem? he
  unfold Turns.dispatch
  split
  · exact h
  · next b hb =>
    dsimp only
    rcases List.mem_append.mp hmem with herror | hcompletion
    · obtain ⟨body, hbody, hname⟩ := List.mem_map.mp herror
      obtain ⟨hname, -⟩ := Prod.mk.inj hname
      rw [← hname]
      refine { h with lane := fun b' completes r hl => ?_ }
      cases hl
      exact (hfailed.resolve_left (List.ne_nil_of_mem hbody)).symm
    · obtain ⟨hname, hbody⟩ := Prod.mk.inj (List.mem_singleton.mp hcompletion)
      rw [hname]
      refine { h with lane := fun b' completes r hl => ?_ }
      cases hl
      rw [hbody]
      rfl

theorem Steady.step (h : Steady x.runtimeTurnId x.status s) (hown : x.bridgeTurnId = x.runtimeTurnId)
    (hfailed : x.errors = [] ∨ x.status = .failed) {l : Label} (hp : x.permits l s) (hs : Turns.step l s = some s') :
    Steady x.runtimeTurnId x.status s' := by
  cases l with
  | event payload text =>
    obtain ⟨e, hread, hseq, hours, hturn, he⟩ := hp
    simp only [Turns.step] at hs
    split at hs
    · obtain rfl := Option.some.inj hs
      unfold Turns.handleBridgeEvent
      rw [hread]
      dsimp only
      rw [if_neg (not_le.mpr hseq), if_pos hours]
      exact Steady.dispatch (s := { s with
        lastEventSeqBySession := s.lastEventSeqBySession.insert e.sessionId e.seq }) { h with } hfailed he
    · cases hs
  | lane =>
    simp only [Turns.step, Turns.stepLane] at hs
    split at hs
    · cases hs
    · obtain rfl := Option.some.inj hs
      exact { h with lane := fun _ _ _ hl => by cases hl }
    · next b completes r hl =>
      obtain rfl := Option.some.inj hs
      exact { h.store (h.lane b completes r hl) with lane := fun _ _ _ hl => by cases hl }
    · next b completes r hl =>
      obtain rfl := Option.some.inj hs
      exact { h.clear r.turnId with lane := fun _ _ _ hl => by cases hl }
    · next b completes r hl =>
      obtain rfl := Option.some.inj hs
      exact { h.unmap r.turnId with lane := fun _ _ _ hl => by cases hl }
  | send turnId =>
    obtain rfl := Option.some.inj hs
    exact h.addCall hp.1
  | wait turnId =>
    obtain rfl := Option.some.inj hs
    exact h.addCall ⟨hp, trivial⟩
  | goOn i =>
    simp only [Turns.step, Turns.stepCall] at hs
    split at hs
    · cases hs
    · next turnId point hc =>
      obtain ⟨next, hn, rfl⟩ := Option.map_eq_some_iff.mp hs
      exact h.stepSend (h.calls _ (List.mem_of_getElem? hc)) hn
    · next turnId point hc =>
      obtain ⟨next, hn, rfl⟩ := Option.map_eq_some_iff.mp hs
      exact h.stepWait (h.calls _ (List.mem_of_getElem? hc)) hn
  | answer i response => exact h.answer hown hp hs
  | timeout i => cases hp
  | lost i => cases hp
  | fail message => cases hp
  | failing => cases hp

theorem steady_start (runtimeSessionId bridgeSessionId : String) (instanceId : ℕ) :
    Steady t status (.start runtimeSessionId bridgeSessionId instanceId) where
  runtimeMap b hb := by cases hb
  bridgeMap turnId hb := by cases hb
  completed turnId r hr := by cases hr
  lane b completes r hl := by cases hl
  closed := rfl
  calls call hcall := by cases hcall

theorem Steady.returns (h : Steady x.runtimeTurnId x.status s) {r : Except RuntimeError ProviderTurnResult}
    (hr : x.Returns s r) : statusOf r = some x.status := by
  obtain ⟨finished, hcall⟩ := hr
  obtain ⟨-, r', rfl, hstatus⟩ := h.calls _ hcall
  rw [← hstatus]
  rfl

end

/-! ## Two ids, or an error of a turn that does not fail -/

def firstEvent (sessionId turnId name : String) (body : Json) : Json :=
  .obj [("event", .str name), ("seq", .int 1), ("sessionId", .str sessionId), ("turnId", .str turnId),
    ("payload", body)]

theorem readEvent_firstEvent (sessionId turnId name : String) (body : Json) :
    readEvent (firstEvent sessionId turnId name body) = some ⟨name, 1, sessionId, some turnId, body⟩ := by
  have hnum : asU64 (.int 1) = some 1 := by decide
  simp [readEvent, firstEvent, Json.get?, Json.fieldOf, Json.asStr, turnIdOf, hnum]

section

variable {x : Script} {s t : Turns} {runtimeSessionId bridgeSessionId : String} {instanceId : ℕ}

def Script.sending (x : Script) (handle : Handle) (point : SendPoint) (s : Turns) : Turns :=
  { s with handle := handle, calls := [.send x.runtimeTurnId point] }

def Script.waiting (x : Script) (handle : Handle) (point : WaitPoint) (s : Turns) : Turns :=
  { s with
    handle := handle
    calls := [.send x.runtimeTurnId (.sent x.bridgeTurnId), .wait x.runtimeTurnId point] }

def Script.sentHandle (x : Script) : Handle where
  activeTurnId := some x.runtimeTurnId
  bridgeTurnByRuntimeTurn := (∅ : Table String String).insert x.runtimeTurnId x.bridgeTurnId
  runtimeTurnByBridgeTurn := (∅ : Table String String).insert x.bridgeTurnId x.runtimeTurnId
  completedTurns := ∅

theorem Script.goOnSend {h h' : Handle} {point : SendPoint}
    (hr : Reaches Turns.step x.permits s (x.sending h point t)) (point' : SendPoint)
    (hn : point.goOn t.closed x.runtimeTurnId h = some (h', point')) :
    Reaches Turns.step x.permits s (x.sending h' point' t) := by
  refine hr.tail (i := .goOn 0) trivial ?_
  change Option.map _ (point.goOn t.closed x.runtimeTurnId h) = _
  rw [hn]
  rfl

theorem Script.goOnWait {h h' : Handle} {point : WaitPoint}
    (hr : Reaches Turns.step x.permits s (x.waiting h point t)) (point' : WaitPoint)
    (hn : point.goOn t.closed t.runtimeSessionId x.runtimeTurnId t.finished h = some (h', point')) :
    Reaches Turns.step x.permits s (x.waiting h' point' t) := by
  refine hr.tail (i := .goOn 1) trivial ?_
  change Option.map _ (point.goOn t.closed t.runtimeSessionId x.runtimeTurnId t.finished h) = _
  rw [hn]
  rfl

theorem Script.reaches_checking (x : Script) (runtimeSessionId bridgeSessionId : String) (instanceId : ℕ) :
    Reaches Turns.step x.permits (.start runtimeSessionId bridgeSessionId instanceId)
      (x.waiting x.sentHandle .checking (.start runtimeSessionId bridgeSessionId instanceId)) := by
  generalize hs : Turns.start runtimeSessionId bridgeSessionId instanceId = s
  have hopen : s.closed = false := by rw [← hs]; rfl
  have hsend : Reaches Turns.step x.permits s (x.sending ⟨none, ∅, ∅, ∅⟩ (.request .asking) s) := by
    subst hs
    exact Reaches.refl.tail (i := .send x.runtimeTurnId) ⟨rfl, fun _ hc => by cases hc⟩ rfl
  have hregistering := x.goOnSend hsend (.request .registering) (by rw [hopen]; rfl)
  have hasked := x.goOnSend hregistering (.request .waiting) rfl
  have hanswered : Reaches Turns.step x.permits s (x.sending ⟨none, ∅, ∅, ∅⟩ (.mapRuntime x.bridgeTurnId) s) := by
    refine hasked.tail (i := .answer 0 (.ok x.ack)) rfl ?_
    rw [← x.acknowledges]
    rfl
  have hsent := x.goOnSend (x.goOnSend (x.goOnSend hanswered _ rfl) _ rfl) _ rfl
  exact hsent.tail (i := .wait x.runtimeTurnId) rfl rfl

theorem Script.lane_runs {h : Handle} {point : WaitPoint} {b : String} {completes : Bool} {r : ProviderTurnResult}
    (hr : Reaches Turns.step x.permits s (x.waiting h point t)) (hl : t.lane = .storing b completes r) :
    ∃ t', Reaches Turns.step x.permits s (x.waiting (((h.store r).clear r.turnId).unmap r.turnId) point t') ∧
      t'.closed = t.closed := by
  have hstored : Reaches Turns.step x.permits s
      (x.waiting (h.store r) point { t with lane := .clearing b completes r }) := by
    refine hr.tail (i := .lane) trivial ?_
    simp only [Turns.step, Turns.stepLane, Script.waiting, hl]
  have hcleared : Reaches Turns.step x.permits s
      (x.waiting ((h.store r).clear r.turnId) point { t with lane := .unmapping b completes r }) :=
    hstored.tail (i := .lane) trivial rfl
  refine ⟨{ t with
    lane := .idle
    finished := if completes && !t.closed then (b, r.status) :: t.finished else t.finished }, ?_, rfl⟩
  exact hcleared.tail (i := .lane) trivial rfl

theorem Script.sentHandle_map (x : Script) (r : ProviderTurnResult) (turnId : String) :
    ((x.sentHandle.store r).clear turnId).bridgeTurnByRuntimeTurn.lookup x.runtimeTurnId = some x.bridgeTurnId := by
  change ((∅ : Table String String).insert x.runtimeTurnId x.bridgeTurnId).lookup x.runtimeTurnId = _
  rw [Table.lookup_insert, if_pos rfl]

theorem Script.resolve_sent (x : Script) : x.sentHandle.resolveRuntimeTurnId x.bridgeTurnId = x.runtimeTurnId := by
  rw [Handle.resolveRuntimeTurnId, Script.sentHandle, Table.lookup_insert, if_pos rfl, Option.getD_some]

def taking (bridgeTurnId : String) (completes : Bool) (r : ProviderTurnResult) (s : Turns) : Turns :=
  { s with
    lastEventSeqBySession := (∅ : Table String ℕ).insert s.bridgeSessionId 1
    lane := .storing bridgeTurnId completes r
    ended := [bridgeTurnId] }

theorem Script.event_runs {point : WaitPoint} {name : String} {body : Json} (hr : Reaches Turns.step x.permits s
      (x.waiting x.sentHandle point (.start runtimeSessionId bridgeSessionId instanceId)))
    (he : x.events[0]? = some (name, body)) (hname : name = "error" ∨ name = "turn.completed") :
    ∃ r t, Reaches Turns.step x.permits s
        (x.waiting (((x.sentHandle.store r).clear x.runtimeTurnId).unmap x.runtimeTurnId) point t) ∧
      t.closed = false ∧ r.turnId = x.runtimeTurnId ∧ (name = "error" → r.status = .failed) := by
  have hread := readEvent_firstEvent bridgeSessionId x.bridgeTurnId name body
  have htaken : ∀ completes r, Turns.step (.event (firstEvent bridgeSessionId x.bridgeTurnId name body) "")
        (x.waiting x.sentHandle point (.start runtimeSessionId bridgeSessionId instanceId)) =
        some (x.waiting x.sentHandle point
          (taking x.bridgeTurnId completes r (.start runtimeSessionId bridgeSessionId instanceId))) →
      ∃ t, Reaches Turns.step x.permits s (x.waiting (((x.sentHandle.store r).clear r.turnId).unmap r.turnId) point t) ∧
        t.closed = false := by
    intro completes r hevent
    have hpermits : x.permits (.event (firstEvent bridgeSessionId x.bridgeTurnId name body) "")
        (x.waiting x.sentHandle point (.start runtimeSessionId bridgeSessionId instanceId)) :=
      ⟨_, hread, Nat.zero_lt_one, rfl, rfl, he⟩
    exact Script.lane_runs (hr.tail hpermits hevent) rfl
  have hdispatch : Turns.step (.event (firstEvent bridgeSessionId x.bridgeTurnId name body) "")
        (x.waiting x.sentHandle point (.start runtimeSessionId bridgeSessionId instanceId)) =
      some (Turns.dispatch ⟨name, 1, bridgeSessionId, some x.bridgeTurnId, body⟩ { x.waiting x.sentHandle point
        (.start runtimeSessionId bridgeSessionId instanceId) with
          lastEventSeqBySession := (∅ : Table String ℕ).insert bridgeSessionId 1 }) := by
    change some (Turns.handleBridgeEvent _ _ _) = _
    rw [Turns.handleBridgeEvent, hread]
    have hseq : ¬ 1 ≤ (x.waiting x.sentHandle point (.start runtimeSessionId bridgeSessionId instanceId)).lastSeq
        bridgeSessionId := Nat.not_le.mpr Nat.zero_lt_one
    have hours : bridgeSessionId =
        (x.waiting x.sentHandle point (.start runtimeSessionId bridgeSessionId instanceId)).bridgeSessionId := rfl
    dsimp only
    rw [if_neg hseq, if_pos hours]
    rfl
  rcases hname with rfl | rfl
  · obtain ⟨t, ht, hclosed⟩ := htaken false (failedResult runtimeSessionId x.runtimeTurnId body) (by
      rw [hdispatch]
      simp [Turns.dispatch, Script.waiting, x.resolve_sent, Turns.start, taking])
    exact ⟨_, t, ht, hclosed, rfl, fun _ => rfl⟩
  · obtain ⟨t, ht, hclosed⟩ := htaken true (turnResult runtimeSessionId x.runtimeTurnId body) (by
      rw [hdispatch]
      simp [Turns.dispatch, Script.waiting, x.resolve_sent, Turns.start, taking])
    exact ⟨_, t, ht, hclosed, rfl, fun hno => absurd hno (by decide)⟩

theorem Script.returns_waiting {h : Handle} {r : Except RuntimeError ProviderTurnResult} {finished : Finished} :
    x.Returns (x.waiting h (.returned r finished) t) r := ⟨finished, List.mem_cons_of_mem _ List.mem_cons_self⟩

theorem Script.request_runs {h : Handle} {asked : String}
    (hr : Reaches Turns.step x.permits s (x.waiting h .resolving t))
    (hasked : h.resolveBridgeTurnId x.runtimeTurnId = asked) (hopen : t.closed = false) :
    Reaches Turns.step x.permits s (x.waiting h (.request asked .waiting) t) := by
  have hresolved := x.goOnWait hr (.request asked .asking) (by rw [← hasked]; rfl)
  have hregistering := x.goOnWait hresolved (.request asked .registering) (by rw [hopen]; rfl)
  exact x.goOnWait hregistering _ rfl

theorem Script.returns_status (x : Script) (runtimeSessionId bridgeSessionId : String) (instanceId : ℕ) :
    ∃ s r, Reaches Turns.step x.permits (.start runtimeSessionId bridgeSessionId instanceId) s ∧ x.Returns s r ∧
      statusOf r = some x.status := by
  have hchecked := x.goOnWait (x.reaches_checking runtimeSessionId bridgeSessionId instanceId) (.resolving) rfl
  have hasked : x.sentHandle.resolveBridgeTurnId x.runtimeTurnId = x.bridgeTurnId := by
    rw [Handle.resolveBridgeTurnId, Script.sentHandle, Table.lookup_insert, if_pos rfl, Option.getD_some]
  have hwaiting := x.request_runs hchecked hasked rfl
  have hanswered : Reaches Turns.step x.permits (.start runtimeSessionId bridgeSessionId instanceId)
      (x.waiting x.sentHandle (.answered x.response) (.start runtimeSessionId bridgeSessionId instanceId)) :=
    hwaiting.tail (i := .answer 1 (.ok x.response)) (by simp [Script.permits, Script.waiting]) rfl
  have hstoring := x.goOnWait hanswered (.storing (turnResult runtimeSessionId
    (answeredTurnId x.sentHandle x.runtimeTurnId x.bridgeTurnId) x.response)) (by
      simp only [WaitPoint.goOn, x.responds]
      rfl)
  have hreturned := x.goOnWait (x.goOnWait (x.goOnWait hstoring _ rfl) _ rfl) _ rfl
  exact ⟨_, _, hreturned, x.returns_waiting, congrArg some x.agrees⟩

theorem Script.returns_error (x : Script) (runtimeSessionId bridgeSessionId : String) (instanceId : ℕ)
    (hne : x.bridgeTurnId ≠ x.runtimeTurnId) :
    ∃ s r, Reaches Turns.step x.permits (.start runtimeSessionId bridgeSessionId instanceId) s ∧ x.Returns s r ∧
      statusOf r = none := by
  have hchecked := x.goOnWait (x.reaches_checking runtimeSessionId bridgeSessionId instanceId) (.resolving) rfl
  obtain ⟨name, body, hfirst, hname⟩ : ∃ name body, x.events[0]? = some (name, body) ∧
      (name = "error" ∨ name = "turn.completed") := by
    unfold Script.events
    cases x.errors with
    | nil => exact ⟨_, _, rfl, .inr rfl⟩
    | cons error errors => exact ⟨_, _, rfl, .inl rfl⟩
  obtain ⟨r, t, hrun, hopen, -, -⟩ := x.event_runs hchecked hfirst hname
  have hasked : (((x.sentHandle.store r).clear x.runtimeTurnId).unmap x.runtimeTurnId).resolveBridgeTurnId x.runtimeTurnId =
      x.runtimeTurnId := by
    simp only [Handle.unmap, x.sentHandle_map]
    rw [Handle.resolveBridgeTurnId, Table.lookup_erase, if_pos rfl, Option.getD_none]
  generalize ((x.sentHandle.store r).clear x.runtimeTurnId).unmap x.runtimeTurnId = h at hrun hasked
  have hreturned : Reaches Turns.step x.permits (.start runtimeSessionId bridgeSessionId instanceId)
      (x.waiting h (.returned (.error (.notFound "")) t.finished) t) :=
    (x.request_runs hrun hasked hopen).tail (i := .answer 1 (.error (.notFound "")))
      (by simp [Script.permits, Script.waiting, hne.symm]) rfl
  exact ⟨_, _, hreturned, x.returns_waiting, rfl⟩

theorem Script.returns_failed (x : Script) (runtimeSessionId bridgeSessionId : String) (instanceId : ℕ)
    (herrors : x.errors ≠ []) :
    ∃ s r, Reaches Turns.step x.permits (.start runtimeSessionId bridgeSessionId instanceId) s ∧ x.Returns s r ∧
      statusOf r = some .failed := by
  obtain ⟨body, hfirst⟩ : ∃ body, x.events[0]? = some ("error", body) := by
    unfold Script.events
    cases he : x.errors with
    | nil => exact absurd he herrors
    | cons error errors => exact ⟨error, rfl⟩
  obtain ⟨r, t, hrun, -, hturn, hfailed⟩ :=
    x.event_runs (x.reaches_checking runtimeSessionId bridgeSessionId instanceId) hfirst (.inl rfl)
  have hstored : (((x.sentHandle.store r).clear x.runtimeTurnId).unmap x.runtimeTurnId).completedTurns.lookup
      x.runtimeTurnId = some r := by
    simp only [Handle.unmap, x.sentHandle_map]
    change ((∅ : Table String ProviderTurnResult).insert r.turnId r).lookup x.runtimeTurnId = some r
    rw [Table.lookup_insert, if_pos hturn.symm]
  generalize ((x.sentHandle.store r).clear x.runtimeTurnId).unmap x.runtimeTurnId = h at hrun hstored
  have hreturned : Reaches Turns.step x.permits (.start runtimeSessionId bridgeSessionId instanceId)
      (x.waiting h (.returned (.ok r) t.finished) t) := x.goOnWait hrun _ (by simp only [WaitPoint.goOn, hstored])
  exact ⟨_, _, hreturned, x.returns_waiting, congrArg some (hfailed rfl)⟩

theorem Timeless.one_id (h : Timeless x (.start runtimeSessionId bridgeSessionId instanceId)) :
    x.bridgeTurnId = x.runtimeTurnId := by
  by_contra hne
  obtain ⟨s₁, r₁, hs₁, hr₁, hstatus₁⟩ := x.returns_status runtimeSessionId bridgeSessionId instanceId
  obtain ⟨s₂, r₂, hs₂, hr₂, hstatus₂⟩ := x.returns_error runtimeSessionId bridgeSessionId instanceId hne
  have he := h s₁ s₂ r₁ r₂ hs₁ hs₂ hr₁ hr₂
  rw [hstatus₁, hstatus₂] at he
  cases he

theorem Timeless.fails (h : Timeless x (.start runtimeSessionId bridgeSessionId instanceId)) (herrors : x.errors ≠ []) :
    x.status = .failed := by
  obtain ⟨s₁, r₁, hs₁, hr₁, hstatus₁⟩ := x.returns_status runtimeSessionId bridgeSessionId instanceId
  obtain ⟨s₂, r₂, hs₂, hr₂, hstatus₂⟩ := x.returns_failed runtimeSessionId bridgeSessionId instanceId herrors
  have he := h s₁ s₂ r₁ r₂ hs₁ hs₂ hr₁ hr₂
  rw [hstatus₁, hstatus₂] at he
  exact Option.some.inj he

end

/-- The status that a wait returns is the same in all orders just when the bridge knows the turn by its runtime id and
emits no error for it, unless the turn fails. -/
theorem timeless_iff (x : Script) (runtimeSessionId bridgeSessionId : String) (instanceId : ℕ) :
    Timeless x (.start runtimeSessionId bridgeSessionId instanceId) ↔
      x.bridgeTurnId = x.runtimeTurnId ∧ (x.errors = [] ∨ x.status = .failed) := by
  constructor
  · intro h
    refine ⟨h.one_id, ?_⟩
    by_cases herrors : x.errors = []
    · exact .inl herrors
    · exact .inr (h.fails herrors)
  · rintro ⟨hown, hfailed⟩ s₁ s₂ r₁ r₂ hs₁ hs₂ hr₁ hr₂
    have hsteady : ∀ {s}, Reaches Turns.step x.permits (.start runtimeSessionId bridgeSessionId instanceId) s →
        Steady x.runtimeTurnId x.status s :=
      fun hs => hs.invariant (steady_start _ _ _) fun _ _ _ h hp hu => h.step hown hfailed hp hu
    rw [(hsteady hs₁).returns hr₁, (hsteady hs₂).returns hr₂]

/-- A turn that ends with a capacity notice, which the bridge reports as an error and completes. -/
def capacityScript : Script where
  runtimeTurnId := "turn_a"
  bridgeTurnId := "turn_1"
  errors := [.obj [("code", .str "CAPACITY_EXHAUSTED")]]
  completion := .obj [("turnId", .str "turn_1"), ("status", .str "completed")]
  ack := .obj [("turnId", .str "turn_1")]
  response := .obj [("turnId", .str "turn_1"), ("status", .str "completed")]
  acknowledges := by decide
  responds := by decide
  agrees := rfl

theorem not_timeless : ¬ ∀ (x : Script) (runtimeSessionId bridgeSessionId : String) (instanceId : ℕ),
    Timeless x (.start runtimeSessionId bridgeSessionId instanceId) := by
  intro hall
  have hfailed := (hall capacityScript "sess_a" "claude_sess_1" 1).fails (by simp [capacityScript])
  exact absurd hfailed (by decide +kernel)

end Gooselake.Providers.ClaudeTurns
