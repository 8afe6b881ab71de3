import Gooselake.TeamComms.SendOrder

/-!
The status of a delivery. A run of `inject_delivery` carries a record of its delivery; while it holds the guard
the live record differs from it only by a retry or a cancel, which leave a delivery alone that is being injected.
-/

namespace Gooselake.TeamComms

open Gooselake.Core Data Library Library.Exec
open Gooselake.Runtime (Manager)

set_option autoImplicit false

/-! ## What other calls do to a delivery -/

def outsideChange (before after : DeliveryStatus) : Bool :=
  before = after || (isQueued before && (after = .pending || after = .cancelled)) ||
    (before = .failed && after = .pending)

theorem outsideChange_refl (status : DeliveryStatus) : outsideChange status status = true := by simp [outsideChange]

def Outside (id : String) (c c' : Comms) : Prop :=
  ∀ d', c'.state.deliveries.lookup id = some d' → id ∉ c.state.deliveries ∨
    ∃ d, c.state.deliveries.lookup id = some d ∧ outsideChange d.status d'.status = true

section

variable {c c' : Comms} {id : String}

theorem Outside.same (h : c'.state.deliveries.lookup id = c.state.deliveries.lookup id) : Outside id c c' := by
  intro d' hl
  exact .inr ⟨d', h ▸ hl, outsideChange_refl _⟩

theorem Outside.insert {id' : String} {d' : TeamDeliveryRecord} (hne : id ≠ id')
    (hstate : c'.state.deliveries = c.state.deliveries.insert id' d') : Outside id c c' :=
  .same (by rw [hstate, Table.lookup_insert, if_neg hne])

theorem Begun.outside (hc : QueuesListed c.state) {op : Operation} {after : Option TeamCall} (h : Begun c op after c') :
    Outside id c c' := by
  cases h with
  | refused | creates | joins | sends | resumes | recovers => exact .same rfl
  | reteams reteamed =>
    rcases reteamed with rfl | ⟨teamId, team, team', members, -, -, sets⟩
    · exact .same rfl
    · exact .same (by rw [sets.state])
  | deletes deleted =>
    cases deleted with
    | refused => exact .same rfl
    | deleted _ _ sets =>
      intro d' hl
      rw [sets.state] at hl
      unfold removeTeam at hl
      dsimp only at hl
      rw [Table.lookup_eraseAll] at hl
      split at hl
      · cases hl
      · exact .inr ⟨d', hl, outsideChange_refl _⟩
  | retries retried =>
    cases retried with
    | refused => exact .same rfl
    | @retried deliveryId d _ _ _ found _ retriable sets =>
      intro d' hl
      rw [sets.state] at hl
      dsimp only at hl
      rw [Table.lookup_insert] at hl
      split at hl
      · next he =>
        obtain rfl := Option.some.inj hl
        refine .inr ⟨d, he ▸ found, ?_⟩
        change outsideChange d.status .pending = true
        rcases retriable with hfailed | hdeferred
        · rw [hfailed]
          rfl
        · rw [hdeferred]
          rfl
      · exact .inr ⟨d', hl, outsideChange_refl _⟩
  | cancels cancelled =>
    cases cancelled with
    | refused => exact .same rfl
    | @cancelled messageId _ _ _ queued sets =>
      intro d' hl
      rw [sets.state] at hl
      have hfound : ∀ d ∈ messageDeliveries c.state messageId, c.state.deliveries.lookup d.id = some d := by
        intro d hd
        obtain ⟨k, -, hk⟩ := List.mem_filterMap.mp hd
        rw [hc.ids k d hk]
        exact hk
      rcases lookup_cancel _ _ _ hfound hl with hl | ⟨d, hd, hlookup, rfl⟩
      · exact .inr ⟨d', hl, outsideChange_refl _⟩
      · refine .inr ⟨d, hlookup, ?_⟩
        have status := queued d hd
        change outsideChange d.status .cancelled = true
        revert status
        cases d.status <;> decide

theorem Transitioned.outside {x : Change} {r : Except RuntimeError Written} (h : Transitioned c x r c')
    (hne : id ≠ x.current.id) : Outside id c c' := by
  cases h with
  | refused | already | missing | lost => exact .same rfl
  | written _ _ _ sets => exact .insert hne (by rw [sets.state])

def Stage.record : Stage → Option TeamDeliveryRecord
  | .snapshot => none
  | .blocker d _ | .lookup d _ _ | .interrupting d _ _ _ _ | .sending d _ | .recordTurn d _ => some d
  | .transition x _ => some x.current
  | .completing _ d _ => some d

theorem Staged.outside {deliveryId : String} {trigger : DeliveryAttemptTrigger} {stage : Stage}
    {r : Except RuntimeError (Stage ⊕ TeamDeliveryRecord)} (h : Staged c deliveryId trigger stage r c')
    (hne : ∀ d, stage.record = some d → id ≠ d.id) : Outside id c c' := by
  cases h with
  | missing | queued | unqueued | blocked | stillBlocked | unpoliced | cleared | changes | interrupts | injects
  | unrecorded | interrupting | interrupted | uninterrupted | sending | sent | rejected => exact .same rfl
  | failed wrote | unchanged wrote | changed wrote => exact wrote.outside (hne _ rfl)
  | completed quiet => exact .same (by rw [quiet.state])
  | recorded _ sets => exact .insert (hne _ rfl) (by rw [sets.state])

theorem Moved.outside {call : TeamCall} {after : Option TeamCall} (h : Moved c call after c')
    (hne : ∀ r recipient stage d, call.run = some r → r.point = .holding recipient stage → stage.record = some d →
      id ≠ d.id) : Outside id c c' := by
  cases h with
  | stopped | checked | joinChecked | admitted | idle | passedBy | recovers => exact .same rfl
  | created sets => exact .same (by rw [sets.state]; rfl)
  | membersStored sets => exact .same (by rw [sets.state])
  | joined reteamed =>
    rcases reteamed with rfl | ⟨teamId, team, team', members, -, -, sets⟩
    · exact .same rfl
    · exact .same (by rw [sets.state])
  | @sent m _ _ _ created =>
    cases created with
    | refused | existing => exact .same rfl
    | created _ drafted sets =>
      intro d' hl
      rw [sets.state] at hl
      rcases (addMessage_spec m _ _ c.state).2.2.1 id d' hl with hl | ⟨hd, rfl⟩
      · exact .inr ⟨d', hl, outsideChange_refl _⟩
      · exact .inl (drafted.numbers.2 d' hd).1
  | ran ran =>
    cases ran with
    | missing | waits | holds => exact .same rfl
    | goes point staged => exact staged.outside fun d hd => hne _ _ _ d rfl point hd

end

/-! ## What a run knows of its delivery -/

inductive Phase where
  | looking
  | injecting
  | injected
  | leaving

/-- Before the change to `injecting`, from there to the change to `injected`, and after it. -/
def Stage.phase : Stage → Phase
  | .blocker .. | .lookup .. | .interrupting .. | .transition _ (.send ..) => .looking
  | .completing _ _ (.send ..) | .sending .. | .transition _ (.recordTurn _) => .injecting
  | .completing _ _ (.recordTurn _) | .recordTurn .. => .injected
  | _ => .leaving

def Phase.carries : Phase → DeliveryStatus → Bool
  | .looking, carried => isQueued carried
  | .injecting, carried => carried = .injecting || carried = .pending || carried = .cancelled
  | .injected, _ | .leaving, _ => true

def Phase.allows : Phase → DeliveryStatus → DeliveryStatus → Bool
  | .looking, carried, live => live = carried || live = .pending || live = .cancelled
  | .injecting, carried, live => carried ≠ .injecting || live = .injecting
  | .injected, _, live => live = .injected
  | .leaving, _, _ => true

def Then.fits : Then → DeliveryStatus → Bool
  | .finish, _ => true
  | .send .., next => next = .injecting
  | .recordTurn _, next => next = .injected

structure StageLaw (s : TeamCommsState) (id : String) (stage : Stage) : Prop where
  record : ∀ d, stage.record = some d → d.id = id ∧ stage.phase.carries d.status = true
  plan : ∀ x k, stage = .transition x k → k.fits x.next = true
  live : ∀ d d', stage.record = some d → s.deliveries.lookup id = some d' → stage.phase.allows d.status d'.status = true

theorem Phase.allows_outside {phase : Phase} {carried live live' : DeliveryStatus}
    (hcarries : phase.carries carried = true)
    (hallows : phase.allows carried live = true) (h : outsideChange live live' = true) :
    phase.allows carried live' = true := by
  cases phase with
  | looking =>
    simp only [Phase.carries, Phase.allows, isQueued, outsideChange, Bool.or_eq_true, Bool.and_eq_true,
      decide_eq_true_eq] at *
    grind
  | injecting | injected =>
    simp only [Phase.allows, isQueued, outsideChange, Bool.or_eq_true, Bool.and_eq_true, decide_eq_true_eq] at *
    grind
  | leaving => rfl

theorem StageLaw.outside {c c' : Comms} {id : String} {stage : Stage} (h : StageLaw c.state id stage)
    (hknown : ∀ d', c'.state.deliveries.lookup id = some d' → id ∈ c.state.deliveries) (ho : Outside id c c') :
    StageLaw c'.state id stage := by
  refine ⟨h.record, h.plan, fun d d' hd hl => ?_⟩
  rcases ho d' hl with hnew | ⟨d₀, hl₀, hchange⟩
  · exact absurd (hknown d' hl) hnew
  · exact Phase.allows_outside (h.record d hd).2 (h.live d d₀ hd hl₀) hchange

theorem planDelivery_change {d : TeamDeliveryRecord} {policy : DeliveryPolicy} {trigger : DeliveryAttemptTrigger}
    {found : Except RuntimeError SessionRecord} {x : Change} (h : planDelivery d policy trigger found = .change x) :
    x.current = d := by
  unfold planDelivery at h
  grind [Change.to]

theorem StageLaw.pass {s s' : TeamCommsState} {id : String} {stage stage' : Stage} (h : StageLaw s id stage)
    (hdeliveries : s'.deliveries = s.deliveries) (hrecord : stage'.record = stage.record)
    (hphase : stage'.phase = stage.phase ∨ stage'.phase = .leaving)
    (hplan : ∀ x k, stage' = .transition x k → k.fits x.next = true) : StageLaw s' id stage' := by
  refine ⟨fun d hd => ?_, hplan, fun d d' hd hl => ?_⟩
  · obtain ⟨hid, hcarries⟩ := h.record d (hrecord ▸ hd)
    refine ⟨hid, ?_⟩
    rcases hphase with he | he
    · rw [he]
      exact hcarries
    · rw [he]
      rfl
  · rcases hphase with he | he
    · rw [he]
      exact h.live d d' (hrecord ▸ hd) (hdeliveries ▸ hl)
    · rw [he]
      rfl

theorem StageLaw.unchanged {c : Comms} {id : String} {x : Change} {k : Then} {d : TeamDeliveryRecord} {stage' : Stage}
    {c' : Comms} (h : StageLaw c.state id (.transition x k))
    (hids : ∀ id d, c.state.deliveries.lookup id = some d → d.id = id)
    (wrote : Transitioned c x (.ok (.unchanged d)) c') (hnext : k.next d = .inl stage') :
    StageLaw c'.state id stage' := by
  obtain ⟨hid, hcarries⟩ := h.record x.current rfl
  have hfits := h.plan x k rfl
  obtain ⟨rfl, ⟨same, -⟩ | ⟨valid, found, differs⟩⟩ := wrote.unchanged
  · cases k with
    | finish => cases hnext
    | send | recordTurn =>
      rw [same, of_decide_eq_true hfits] at hcarries
      cases hcarries
  · rw [hid] at found
    have hallows := h.live _ _ rfl found
    cases k with
    | finish => cases hnext
    | send =>
      obtain rfl := Sum.inl.inj hnext
      simp only [Stage.phase, Phase.allows, Bool.or_eq_true, decide_eq_true_eq] at hallows
      have hstatus : d.status = .pending ∨ d.status = .cancelled := by
        rcases hallows with (hsame | hpending) | hcancelled
        · exact absurd hsame differs
        · exact .inl hpending
        · exact .inr hcancelled
      refine ⟨fun d₁ hd₁ => ?_, fun _ _ he => (by cases he), fun d₁ d₂ hd₁ hl => ?_⟩
      · obtain rfl := Option.some.inj hd₁
        refine ⟨hids id d found, ?_⟩
        rcases hstatus with hs | hs <;> simp [Stage.phase, Phase.carries, hs]
      · obtain rfl := Option.some.inj hd₁
        rcases hstatus with hs | hs <;> simp [Stage.phase, Phase.allows, hs]
    | recordTurn =>
      exfalso
      rw [of_decide_eq_true hfits] at valid
      have hinjecting : x.current.status = .injecting := by
        revert valid
        cases x.current.status <;> decide
      rw [hinjecting] at hallows differs
      simp only [Stage.phase, Phase.allows, ne_eq, not_true_eq_false, decide_false, Bool.false_or, decide_eq_true_eq]
        at hallows
      exact differs hallows

theorem StageLaw.changed {c c' : Comms} {id : String} {x : Change} {k : Then} {d : TeamDeliveryRecord}
    (h : StageLaw c.state id (.transition x k)) (hids : ∀ id d, c.state.deliveries.lookup id = some d → d.id = id)
    (wrote : Transitioned c x (.ok (.changed d)) c') : StageLaw c'.state id (.completing x d k) := by
  obtain ⟨hid, -⟩ := h.record x.current rfl
  have hfits := h.plan x k rfl
  obtain ⟨-, d₀, found, -, rfl, hstate⟩ := wrote.changed
  refine ⟨fun d₁ hd₁ => ?_, fun _ _ he => (by cases he), fun d₁ d₂ hd₁ hl => ?_⟩
  · obtain rfl := Option.some.inj hd₁
    refine ⟨(hids _ _ found).trans hid, ?_⟩
    change (Stage.completing x (x.apply c.runtime.clock d₀) k).phase.carries x.next = true
    cases k with
    | finish | recordTurn => rfl
    | send => simp [Stage.phase, Phase.carries, of_decide_eq_true hfits]
  · obtain rfl := Option.some.inj hd₁
    rw [hstate, ← hid] at hl
    dsimp only at hl
    rw [Table.lookup_insert, if_pos rfl] at hl
    obtain rfl := Option.some.inj hl
    change (Stage.completing x (x.apply c.runtime.clock d₀) k).phase.allows x.next x.next = true
    cases k with
    | finish => rfl
    | send | recordTurn => simp [Stage.phase, Phase.allows, of_decide_eq_true hfits]

theorem Staged.law {c c' : Comms} {id : String} {trigger : DeliveryAttemptTrigger} {stage stage' : Stage}
    (hs : Staged c id trigger stage (.ok (.inl stage')) c') (h : StageLaw c.state id stage)
    (hids : ∀ id d, c.state.deliveries.lookup id = some d → d.id = id) : StageLaw c'.state id stage' := by
  generalize hresult : (Except.ok (Sum.inl stage') : Except RuntimeError (Stage ⊕ TeamDeliveryRecord)) = result at hs
  cases hs with
  | missing | unqueued | stillBlocked | unpoliced | uninterrupted | failed | unrecorded | recorded => cases hresult
  | @queued d m found _ status =>
    cases hresult
    refine ⟨fun d₁ hd₁ => ?_, fun _ _ he => (by cases he), fun d₁ d₂ hd₁ hl => ?_⟩
    · obtain rfl := Option.some.inj hd₁
      exact ⟨hids id d found, status⟩
    · obtain rfl := Option.some.inj hd₁
      obtain rfl := Option.some.inj (found.symm.trans hl)
      simp [Stage.phase, Phase.allows]
  | blocked =>
    cases hresult
    exact h.pass rfl rfl (.inr rfl) fun x k he => by cases he; rfl
  | cleared | interrupts =>
    cases hresult
    exact h.pass rfl rfl (.inl rfl) fun x k he => by cases he
  | changes plan =>
    cases hresult
    exact h.pass rfl (congrArg some (planDelivery_change plan)) (.inr rfl) fun x k he => by cases he; rfl
  | injects | interrupted =>
    cases hresult
    exact h.pass rfl rfl (.inl rfl) fun x k he => by cases he; rfl
  | interrupting | sending =>
    cases hresult
    exact h.pass rfl rfl (.inl rfl) fun x k he => by cases he
  | @unchanged x k d _ wrote => exact h.unchanged hids wrote (Except.ok.inj hresult).symm
  | changed wrote =>
    cases hresult
    exact h.changed hids wrote
  | @completed x k d _ quiet =>
    have hdeliveries := congrArg TeamCommsState.deliveries quiet.state
    cases k with
    | finish => cases hresult
    | send | recordTurn =>
      cases hresult
      exact h.pass hdeliveries rfl (.inl rfl) fun x k he => by cases he
  | sent =>
    cases hresult
    exact h.pass rfl rfl (.inl rfl) fun x k he => by cases he; rfl
  | @rejected d call e runtime =>
    cases hresult
    have hcurrent : (rejectedChange d e).current = d := by
      unfold rejectedChange
      split <;> rfl
    exact h.pass rfl (congrArg some hcurrent) (.inr rfl) fun x k he => by cases he; rfl

/-! ## Runs among other calls -/

def RunsLawful (s : Service) : Prop :=
  ∀ i r recipient stage, s.Runs i r → r.point = .holding recipient stage → StageLaw s.comms.state r.deliveryId stage

section

variable {w : QueueWatch} {l : Label} {s : Service}

theorem Ordered.outside (h : Ordered w) (hlaw : RunsLawful w.service) (hs : Stepped w.service l s) {i : ℕ} {r : Inject}
    {recipient : String} {stage : Stage} (hr : w.service.Runs i r) (point : r.point = .holding recipient stage)
    (hother : ∀ answer, l ≠ .goOn i answer) : Outside r.deliveryId w.service.comms s.comms := by
  cases hs with
  | runtime => exact .same rfl
  | begun _ begun => exact begun.outside h.queues.listed
  | @moved j answer call after c' found _ moved =>
    refine moved.outside fun r' recipient' stage' d hrun point' hd he => ?_
    have hr' : w.service.Runs j r' := by
      cases call with
      | inject r₀ k =>
        obtain rfl := Option.some.inj hrun
        exact ⟨k, found⟩
      | _ => cases hrun
    have hid : r'.deliveryId = r.deliveryId := by
      rw [he]
      exact ((hlaw j r' recipient' stage' hr' point').record d hd).1.symm
    have hmem := (h.runs i r hr).holding recipient stage point
    have hmem' := (h.runs j r' hr').holding recipient' stage' point'
    rw [hid] at hmem'
    obtain rfl := h.queues.one _ _ _ hmem hmem'
    obtain rfl := h.guards recipient i j ⟨r, stage, hr, point⟩ ⟨r', stage', hr', point'⟩
    exact hother answer rfl

theorem runsLawful_step (h : Ordered w) (hlaw : RunsLawful w.service) (hs : Stepped w.service l s) : RunsLawful s := by
  have he : Evolves w.service.comms s.comms := hs.evolves h.queues.listed
  intro i r recipient stage hr point
  rcases hs.runs hr with ⟨hr, hother⟩ | hstart | ⟨r₀, answer, -, hr₀, -, ran⟩
  · refine (hlaw i r recipient stage hr point).outside (fun d' hl => ?_) (h.outside hlaw hs hr point hother)
    obtain ⟨d, hd, -⟩ := h.queues.updated he ((h.runs i r hr).holding recipient stage point) hl
    exact Table.lookup_isSome hd
  · rw [hstart] at point
    cases point
  · have hgoes := ran.goesOn
    generalize s.comms = c' at hgoes ⊢
    cases hgoes with
    | waits => cases point
    | holds =>
      obtain ⟨-, rfl⟩ := Point.holding.inj point
      exact ⟨fun d hd => (by cases hd), fun x k he => (by cases he), fun d d' hd => by cases hd⟩
    | @goes recipient' stage₀ stage' _ point₀ staged =>
      obtain ⟨rfl, rfl⟩ := Point.holding.inj point
      exact staged.law (hlaw i r₀ _ stage₀ hr₀ point₀) h.queues.listed.ids

end

/-! ## The turn of an injected delivery -/

/-- Only an injected delivery names a turn. -/
def TurnInjected (d : TeamDeliveryRecord) : Prop := d.injectedTurnId.isSome = true → d.status = .injected

structure TurnsInjected (c : Comms) : Prop where
  records : ∀ id d, c.state.deliveries.lookup id = some d → TurnInjected d
  rows : ∀ d ∈ c.store.teamDeliveries, TurnInjected d

section

variable {c c' : Comms}

theorem Write.deliveryRows {x : Write} {s : Store} {d : TeamDeliveryRecord} (hd : d ∈ (x.run s).teamDeliveries) :
    d ∈ s.teamDeliveries ∨ x = .delivery d := by
  have hwrite : ∀ (f : Store → Store), d ∈ (Store.write f s).2.teamDeliveries →
      d ∈ s.teamDeliveries ∨ d ∈ (f s).teamDeliveries := by
    intro f hd
    unfold Store.write at hd
    split at hd
    · exact .inl hd
    · exact .inr hd
    · exact .inr hd
  cases x with
  | team | member | memberGone => exact .inl ((hwrite _ hd).elim id id)
  | message r =>
    rcases hwrite _ hd with hd | hd
    · exact .inl hd
    · split at hd <;> exact .inl hd
  | delivery r =>
    rcases hwrite _ hd with hd | hd
    · exact .inl hd
    · rcases mem_upsert hd with hd | rfl | ⟨_, _, _, rfl⟩
      · exact .inl hd
      · exact .inr rfl
      · exact .inr rfl
  | event e =>
    have hkeep := Store.appendRuntimeEvent_keeps (g := Store.teamDeliveries) (fun _ _ => rfl) (fun _ _ => rfl) e s
    exact .inl (hkeep ▸ hd)

theorem Wrote.deliveryRows {W : Write → Prop} {s t : Store} {p : TeamDeliveryRecord → Prop} (h : Wrote W s t)
    (hW : ∀ d, W (.delivery d) → p d) (hs : ∀ d ∈ s.teamDeliveries, p d) : ∀ d ∈ t.teamDeliveries, p d := by
  induction h with
  | refl => exact hs
  | tail _ hx ih =>
    obtain ⟨x, hx, rfl⟩ := hx
    intro d hd
    rcases Write.deliveryRows hd with hd | rfl
    · exact ih d hd
    · exact hW d hx

theorem Sets.turns {W : Write → Prop} {s : TeamCommsState} (sets : Sets W c c' s) (h : TurnsInjected c)
    (hs : ∀ id d, s.deliveries.lookup id = some d → TurnInjected d) (hW : ∀ d, W (.delivery d) → TurnInjected d) :
    TurnsInjected c' := by
  refine ⟨?_, sets.wrote.deliveryRows hW h.rows⟩
  rw [sets.state]
  exact hs

theorem Sets.putTurns {id : String} {d' : TeamDeliveryRecord} (sets : Sets (Write.delivers (· = d')) c c' { c.state with
    deliveries := c.state.deliveries.insert id d' }) (h : TurnsInjected c)
      (hd : TurnInjected d') : TurnsInjected c' := by
  refine sets.turns h (fun k d hl => ?_) fun d he => ?_
  · dsimp only at hl
    rw [Table.lookup_insert] at hl
    split at hl
    · obtain rfl := Option.some.inj hl
      exact hd
    · exact h.records k d hl
  · obtain rfl : d = d' := he
    exact hd

theorem TurnInjected.cancelled {d : TeamDeliveryRecord} (h : TurnInjected d)
    (status : isQueued d.status = true) (now : ℤ) :
    TurnInjected (cancelDelivery now d) := by
  intro hturn
  rw [h hturn] at status
  cases status

theorem Reteamed.turns (hr : Reteamed c c') (h : TurnsInjected c) : TurnsInjected c' := by
  rcases hr with rfl | ⟨teamId, team, team', members, -, -, sets⟩
  · exact h
  · exact sets.turns h h.records fun d hd => hd.elim

theorem Begun.turns {op : Operation} {after : Option TeamCall} (hb : Begun c op after c') (hc : QueuesListed c.state)
    (h : TurnsInjected c) : TurnsInjected c' := by
  cases hb with
  | refused | creates | joins | sends | resumes | recovers => exact h
  | reteams reteamed => exact reteamed.turns h
  | deletes deleted =>
    cases deleted with
    | refused => exact h
    | deleted _ _ sets =>
      refine sets.turns h (fun id d hl => ?_) fun d hd => ?_
      · unfold removeTeam at hl
        dsimp only at hl
        rw [Table.lookup_eraseAll] at hl
        split at hl
        · cases hl
        · exact h.records id d hl
      · obtain ⟨d₀, hd₀, he⟩ := List.mem_filterMap.mp hd
        obtain ⟨k, -, hk⟩ := List.mem_filterMap.mp hd₀
        split at he
        · next status =>
          obtain rfl := Option.some.inj he
          exact (h.records k d₀ hk).cancelled status _
        · cases he
  | retries retried =>
    cases retried with
    | refused => exact h
    | retried _ _ _ _ sets => exact sets.putTurns h fun hturn => by cases hturn
  | cancels cancelled =>
    cases cancelled with
    | refused => exact h
    | @cancelled messageId _ _ _ queued sets =>
      have hrecords : ∀ d ∈ messageDeliveries c.state messageId, c.state.deliveries.lookup d.id = some d := by
        intro d hd
        obtain ⟨k, -, hk⟩ := List.mem_filterMap.mp hd
        rw [hc.ids k d hk]
        exact hk
      refine sets.turns h (fun id d hl => ?_) fun d hd => ?_
      · rcases lookup_cancel _ _ _ hrecords hl with hl | ⟨d₀, hd₀, hl₀, rfl⟩
        · exact h.records id d hl
        · exact (h.records id d₀ hl₀).cancelled (queued d₀ hd₀) _
      · obtain ⟨d₀, hd₀, rfl⟩ := List.mem_map.mp hd
        exact (h.records _ d₀ (hrecords d₀ hd₀)).cancelled (queued d₀ hd₀) _

theorem Transitioned.turns {x : Change} {r : Except RuntimeError Written} (ht : Transitioned c x r c')
    (h : TurnsInjected c) : TurnsInjected c' := by
  cases ht with
  | refused | already | missing | lost => exact h
  | written _ _ _ sets =>
    refine sets.putTurns h fun hturn => ?_
    change x.next = .injected
    by_contra hne
    simp [Change.apply, hne] at hturn

theorem Staged.turns {id : String} {trigger : DeliveryAttemptTrigger} {stage : Stage}
    {r : Except RuntimeError (Stage ⊕ TeamDeliveryRecord)} (hs : Staged c id trigger stage r c')
    (hlaw : StageLaw c.state id stage) (h : TurnsInjected c) : TurnsInjected c' := by
  cases hs with
  | missing | queued | unqueued | blocked | stillBlocked | unpoliced | cleared | changes | interrupts | injects
  | unrecorded => exact h
  | interrupting | interrupted | uninterrupted | sending | sent | rejected => exact ⟨h.records, h.rows⟩
  | failed wrote | unchanged wrote | changed wrote => exact wrote.turns h
  | completed quiet => exact quiet.turns h h.records fun d hd => hd.elim
  | @recorded d stored _ _ found sets =>
    refine sets.putTurns h fun _ => ?_
    rw [(hlaw.record _ rfl).1] at found
    change stored.status = .injected
    exact of_decide_eq_true (hlaw.live _ _ rfl found)

theorem MessageCreated.turns {m : MessageDraft} {r : Except RuntimeError TeamMessageAck} (hm : MessageCreated c m r c')
    (h : TurnsInjected c) : TurnsInjected c' := by
  cases hm with
  | refused | existing => exact h
  | @created k ds team _ _ _ drafted sets =>
    have hnew : ∀ d ∈ ds, TurnInjected d := by
      intro d hd hturn
      rw [(drafted.fresh d hd)] at hturn
      cases hturn
    have hrows := sets.wrote.deliveryRows (p := TurnInjected) hnew h.rows
    refine ⟨fun id d hl => ?_, hrows⟩
    rw [sets.state] at hl
    rcases (addMessage_spec m _ _ c.state).2.2.1 id d hl with hl | ⟨hd, -⟩
    · exact h.records id d hl
    · exact hnew d hd

end

theorem turnsInjected_step {s s' : Service} {l : Label} (hc : QueuesListed s.comms.state) (hlaw : RunsLawful s)
    (h : TurnsInjected s.comms) (hs : Stepped s l s') : TurnsInjected s'.comms := by
  cases hs with
  | runtime => exact ⟨h.records, h.rows⟩
  | begun _ begun => exact begun.turns hc h
  | @moved i answer call after c' found _ moved =>
    cases moved with
    | stopped | checked | joinChecked | admitted | idle | passedBy | recovers => exact h
    | created sets => exact sets.turns ⟨h.records, h.rows⟩ h.records fun d hd => hd.elim
    | membersStored sets => exact sets.turns h h.records fun d hd => hd.elim
    | joined reteamed => exact reteamed.turns h
    | sent _ created => exact created.turns h
    | @ran r k _ _ ran =>
      cases ran with
      | missing | waits | holds => exact h
      | goes point staged => exact staged.turns (hlaw i r _ _ ⟨k, found⟩ point) h

/-! ## Every run -/

abbrev Run (s s' : Service) : Prop := Reaches Service.step (fun _ _ => True) s s'

/-- The law: every change of a status is a lawful one, `injected` and `cancelled` are never left, and a turn is noted
on injected deliveries only, in memory and in the store. -/
structure StatusLaw (c : Comms) : Prop where
  edges : ∀ s l s', Run (.start c) s → Service.step l s = some s' →
    ∀ id d d', s.comms.state.deliveries.lookup id = some d →
    s'.comms.state.deliveries.lookup id = some d' → lawfulChange d.status d'.status = true
  final : ∀ s s', Run (.start c) s → Run s s' → ∀ id d d', s.comms.state.deliveries.lookup id = some d →
    s'.comms.state.deliveries.lookup id = some d' → d.status = .injected ∨ d.status = .cancelled → d'.status = d.status
  turns : ∀ s, Run (.start c) s → TurnsInjected s.comms

theorem watched {P : Label → Service → Prop} {s s' : Service} (h : Reaches Service.step P s s') {w : QueueWatch}
    (hw : w.service = s) :
    ∃ w', Reaches QueueWatch.step (fun l w => P l w.service) w w' ∧ w'.service = s' := by
  induction h with
  | refl => exact ⟨w, .refl, hw⟩
  | @tail t u l _ hp hstep ih =>
    obtain ⟨w', hw', rfl⟩ := ih
    exact ⟨w'.note l u, hw'.tail hp (by rw [QueueWatch.step, hstep]; rfl), rfl⟩

structure Lawful (w : QueueWatch) : Prop where
  ordered : Ordered w
  runs : RunsLawful w.service

theorem lawful_step {w w' : QueueWatch} {l : Label} (h : Lawful w) (hs : QueueWatch.step l w = some w') :
    Lawful w' := by
  obtain ⟨s, hstep, rfl⟩ := Option.map_eq_some_iff.mp hs
  have hstepped := step_stepped hstep
  exact ⟨ordered_step h.ordered hstepped, runsLawful_step h.ordered h.runs hstepped⟩

theorem lawful_start {runtime : Manager} {store : Store} {config : RuntimeTeamCommsConfig} {nonce : String}
    (hkeys : PrimaryKeys store) (hcounted : Counted store) :
    Lawful (QueueWatch.start (Comms.new runtime store config nonce)) := by
  refine ⟨ordered_start hkeys hcounted, ?_⟩
  rintro i r recipient stage ⟨k, hl⟩
  simp [QueueWatch.start, Service.start] at hl

/-- Every state a service reaches is watched by an observer that keeps the invariant. -/
theorem lawful_of_run {runtime : Manager} {store : Store} {config : RuntimeTeamCommsConfig} {nonce : String}
    {P : Label → Service → Prop} {s : Service} (hkeys : PrimaryKeys store) (hcounted : Counted store)
    (hr : Reaches Service.step P (Service.start (Comms.new runtime store config nonce)) s) :
    ∃ w : QueueWatch, w.service = s ∧ Lawful w := by
  obtain ⟨w, hw, rfl⟩ := watched hr (w := QueueWatch.start (Comms.new runtime store config nonce)) rfl
  exact ⟨w, rfl, hw.invariant (lawful_start hkeys hcounted) fun _ _ _ h _ hs => lawful_step h hs⟩

theorem lawfulChange_final {before after : DeliveryStatus} (h : lawfulChange before after = true)
    (hfinal : before = .injected ∨ before = .cancelled) : after = before := by
  rcases hfinal with rfl | rfl <;> revert h <;> cases after <;> decide

theorem Lawful.final {w w' : QueueWatch} (h : Lawful w) (hr : Reaches QueueWatch.step (fun _ _ => True) w w')
    {id : String} {d d' : TeamDeliveryRecord} (hl : w.service.comms.state.deliveries.lookup id = some d)
    (hl' : w'.service.comms.state.deliveries.lookup id = some d')
    (hfinal : d.status = .injected ∨ d.status = .cancelled) : d'.status = d.status := by
  have hmem := h.ordered.queues.mem_queued hl
  have hinv : Lawful w' ∧ id ∈ w'.queued d.recipientAgentId ∧
      ∀ d', w'.service.comms.state.deliveries.lookup id = some d' → d'.status = d.status := by
    refine hr.invariant (I := fun w' => Lawful w' ∧ id ∈ w'.queued d.recipientAgentId ∧
      ∀ d', w'.service.comms.state.deliveries.lookup id = some d' → d'.status = d.status)
      ⟨h, hmem, fun d' hl' => ?_⟩ fun l t u hinv _ hs => ?_
    · obtain rfl := Option.some.inj (hl.symm.trans hl')
      rfl
    · obtain ⟨ht, hqueued, hstatus⟩ := hinv
      obtain ⟨s, hstep, rfl⟩ := Option.map_eq_some_iff.mp hs
      have he : Evolves t.service.comms s.comms := (step_stepped hstep).evolves ht.ordered.queues.listed
      refine ⟨lawful_step ht hs, mem_note_queued hqueued, fun d' hl' => ?_⟩
      obtain ⟨d₁, hl₁, updates⟩ := ht.ordered.queues.updated he hqueued hl'
      have hsame := hstatus d₁ hl₁
      exact (lawfulChange_final updates.status (hsame ▸ hfinal)).trans hsame
  exact hinv.2.2 d' hl'

theorem turnsInjected_start {runtime : Manager} {store : Store} {config : RuntimeTeamCommsConfig} {nonce : String}
    (hturns : ∀ d ∈ store.teamDeliveries, TurnInjected d) : TurnsInjected (Comms.new runtime store config nonce) :=
  ⟨fun id d hl => hturns d ((fromRows_hydrate store).deliveries id d hl).1, hturns⟩

/-- In every run, from any store that keeps to the law. -/
theorem statuses_lawful {runtime : Manager} {store : Store} {config : RuntimeTeamCommsConfig} {nonce : String}
    (hkeys : PrimaryKeys store) (hcounted : Counted store) (hturns : ∀ d ∈ store.teamDeliveries, TurnInjected d) :
    StatusLaw (Comms.new runtime store config nonce) := by
  refine ⟨fun s l s' hr hs id d d' hl hl' => ?_, fun s s' hr hr' id d d' hl hl' hfinal => ?_, fun s hr => ?_⟩
  · obtain ⟨w, rfl, hw⟩ := lawful_of_run hkeys hcounted hr
    have he := (step_stepped hs).evolves hw.ordered.queues.listed
    obtain ⟨d₀, hl₀, updates⟩ := hw.ordered.queues.updated he (hw.ordered.queues.mem_queued hl) hl'
    obtain rfl := Option.some.inj (hl.symm.trans hl₀)
    exact updates.status
  · obtain ⟨w, rfl, hw⟩ := lawful_of_run hkeys hcounted hr
    obtain ⟨w', hw', rfl⟩ := watched hr' (w := w) rfl
    exact hw.final (hw'.mono fun _ _ _ => trivial) hl hl' hfinal
  · have hinv : TurnsInjected s.comms ∧ ∃ w : QueueWatch, w.service = s ∧ Lawful w := by
      refine hr.invariant (I := fun s => TurnsInjected s.comms ∧ ∃ w : QueueWatch, w.service = s ∧ Lawful w)
        ⟨turnsInjected_start hturns, _, rfl, lawful_start hkeys hcounted⟩ fun l t u hinv _ hs => ?_
      obtain ⟨hturn, w, rfl, hw⟩ := hinv
      refine ⟨turnsInjected_step hw.ordered.queues.listed hw.runs hturn (step_stepped hs), w.note l u, rfl, ?_⟩
      exact lawful_step hw (by rw [QueueWatch.step, hs]; rfl)
    exact hinv.1

def carriedRow (id recipient : String) (status : DeliveryStatus) (injectedTurnId : Option String) :
    TeamDeliveryRecord where
  id := id
  messageId := "msg_1"
  teamId := "team_1"
  recipientAgentId := recipient
  provider := "codex"
  status := status
  effectivePolicy := none
  injectionStrategy := none
  injectedTurnId := injectedTurnId
  lastErrorCode := none
  lastErrorMessage := none
  createdAt := 0
  updatedAt := 0

/-- A delivery that reached its recipient and one that waits. -/
def carriedStore : Store :=
  { Store.empty [] with
    teamDeliveries := [carriedRow "dlv_1" "sess_a" .injected (some "turn_1"), carriedRow "dlv_2" "sess_b" .deferred none] }

theorem statuses_lawful_carried :
    StatusLaw (Comms.new (Manager.empty [.codex] []) carriedStore ⟨true, 10⟩ "nonce") := by
  have hcounts : ∀ d ∈ carriedStore.teamDeliveries, counterOf d.id < 2 ^ 64 := by decide +kernel
  have hturns : ∀ d ∈ carriedStore.teamDeliveries, d.injectedTurnId.isSome = true → d.status = .injected := by decide
  refine statuses_lawful ⟨by decide, by decide⟩ (fun d hd n hid => ?_) hturns
  have hcount := hcounts d hd
  rwa [hid, counterOf_numbered] at hcount

end Gooselake.TeamComms
