import Gooselake.TeamComms.Statuses

/-!
What `inject_delivery` sends. A change that finds another status than the one that was read is reported as a
success, and the run sends what has been cancelled or is pending again. As long as every change to `injecting`
finds its status, a delivery is sent only while it is `injecting`, and once its send was accepted never again.
-/

namespace Gooselake.TeamComms

open Gooselake.Core Data Library Library.Exec
open Gooselake.Runtime (Manager)

set_option autoImplicit false

/-! ## Conditions on steps -/

/-- A change to `injecting` finds the status that was read, or no record at all. -/
def findsSnapshot : Label → Service → Bool
  | .goOn i _, s =>
    match s.calls.lookup i with
    | some (.inject ⟨_, _, .holding _ (.transition x (.send ..))⟩ _) =>
      (statusOf s.comms.state x.current.id).all fun status => status = x.current.status
    | _ => true
  | _, _ => true

/-- The stages between the change to `injecting` and the call of the session manager. -/
def Stage.aboutToSend : Stage → Bool
  | .completing _ _ (.send ..) | .sending _ (.begin _) => true
  | _ => false

def Inject.aboutToSend (r : Inject) : Option String :=
  match r.point with
  | .holding _ stage => if stage.aboutToSend then some r.deliveryId else none
  | _ => none

/-- No team is deleted while a call is about to send one of its deliveries. -/
def sparesSends : Label → Service → Bool
  | .start _ (.deleteTeam argument), s => (normalizeNonEmpty argument "team_id").toOption.all fun teamId =>
      s.calls.values.all fun call => call.run.all fun r => r.aboutToSend.all fun id =>
        id ∉ teamDeliveries s.comms.state teamId
  | _, _ => true

/-! ## The record a run sends -/

/-- A run past the change to `injecting` carries a record with that status. -/
def CarriesInjecting (s : Service) : Prop :=
  ∀ i r recipient stage d, s.Runs i r → r.point = .holding recipient stage → stage.phase = .injecting →
    stage.record = some d → d.status = .injecting

theorem findsSnapshot_status {i : ℕ} {answer : Runtime.Answer} {s : Service}
    (h : findsSnapshot (.goOn i answer) s = true)
    {r : Inject} {recipient : String} {x : Change} {message : TeamMessageRecord} {session : SessionRecord}
    (hr : s.Runs i r) (point : r.point = .holding recipient (.transition x (.send message session)))
    {d : TeamDeliveryRecord} (found : s.comms.state.deliveries.lookup x.current.id = some d) :
    d.status = x.current.status := by
  obtain ⟨k, hl⟩ := hr
  obtain ⟨deliveryId, trigger, point'⟩ := r
  obtain rfl : point' = _ := point
  simpa [findsSnapshot, hl, statusOf, found] using h

section

variable {s s' : Service} {l : Label}

theorem Staged.carriesInjecting {c c' : Comms} {id : String} {trigger : DeliveryAttemptTrigger} {stage stage' : Stage}
    (hs : Staged c id trigger stage (.ok (.inl stage')) c') (hlaw : StageLaw c.state id stage)
    (hfinds : ∀ x message session d, stage = .transition x (.send message session) →
      c.state.deliveries.lookup x.current.id = some d → d.status = x.current.status)
    (hcarries : ∀ d, stage.phase = .injecting → stage.record = some d → d.status = .injecting)
    (hphase : stage'.phase = .injecting) {d' : TeamDeliveryRecord} (hd : stage'.record = some d') :
    d'.status = .injecting := by
  generalize hresult : (Except.ok (Sum.inl stage') : Except RuntimeError (Stage ⊕ TeamDeliveryRecord)) = result at hs
  cases hs with
  | missing | unqueued | stillBlocked | unpoliced | uninterrupted | failed | unrecorded | recorded => cases hresult
  | queued | blocked | cleared | changes | interrupts | injects | interrupting | interrupted | rejected =>
    cases hresult
    cases hphase
  | @unchanged x k d _ wrote =>
    obtain ⟨-, hstatus⟩ := hlaw.record x.current rfl
    cases k with
    | finish => cases hresult
    | recordTurn =>
      cases hresult
      cases hphase
    | send message session =>
      obtain ⟨-, ⟨same, -⟩ | ⟨-, found, differs⟩⟩ := wrote.unchanged
      · rw [same, of_decide_eq_true (hlaw.plan x _ rfl)] at hstatus
        cases hstatus
      · exact absurd (hfinds x message session _ rfl found) differs
  | @changed x k d _ wrote =>
    cases hresult
    cases k with
    | finish | recordTurn => cases hphase
    | send message session =>
      obtain rfl := Option.some.inj hd
      obtain ⟨-, _, -, -, rfl, -⟩ := wrote.changed
      exact of_decide_eq_true (hlaw.plan x _ rfl)
  | @completed x k d _ _ =>
    cases k with
    | finish => cases hresult
    | recordTurn =>
      cases hresult
      cases hphase
    | send =>
      cases hresult
      exact hcarries d' rfl hd
  | sending =>
    cases hresult
    exact hcarries d' rfl hd
  | sent =>
    cases hresult
    exact hcarries d' rfl hd

theorem carriesInjecting_step (hlaw : RunsLawful s) (h : CarriesInjecting s) (hfinds : findsSnapshot l s = true)
    (hs : Stepped s l s') : CarriesInjecting s' := by
  intro i r recipient stage d hr point hphase hd
  rcases hs.runs hr with ⟨hr, -⟩ | hstart | ⟨r₀, answer, rfl, hr₀, -, ran⟩
  · exact h i r recipient stage d hr point hphase hd
  · rw [hstart] at point
    cases point
  · have hgoes := ran.goesOn
    generalize s'.comms = c' at hgoes
    cases hgoes with
    | waits => cases point
    | holds =>
      obtain ⟨-, rfl⟩ := Point.holding.inj point
      cases hd
    | goes point₀ staged =>
      obtain ⟨rfl, rfl⟩ := Point.holding.inj point
      refine staged.carriesInjecting (hlaw i r₀ _ _ hr₀ point₀) (fun x message session d₀ he found => ?_)
        (fun d₀ hp hrecord => h i r₀ _ _ d₀ hr₀ point₀ hp hrecord) hphase hd
      subst he
      exact findsSnapshot_status hfinds hr₀ point₀ found

/-! ## The delivery is still there -/

def KeepsSends (s : Service) : Prop :=
  ∀ i r id, s.Runs i r → r.aboutToSend = some id → id ∈ s.comms.state.deliveries

theorem SameDeliveries.keeps {c c' : Comms} {s : TeamCommsState} {id : String} (h : SameDeliveries c.state s)
    (hstate : c'.state = s) (hid : id ∈ c.state.deliveries) : id ∈ c'.state.deliveries :=
  hstate ▸ h.keys id hid

theorem Begun.keeps {c c' : Comms} {op : Operation} {after : Option TeamCall} (h : Begun c op after c')
    (hc : QueuesListed c.state) {id : String} (hid : id ∈ c.state.deliveries) : id ∈ c'.state.deliveries ∨
      ∃ argument teamId, op = .deleteTeam argument ∧ normalizeNonEmpty argument "team_id" = .ok teamId ∧
        id ∈ teamDeliveries c.state teamId := by
  have hlookup := hid
  rw [← AList.lookup_isSome] at hlookup
  obtain ⟨d, hl⟩ := Option.isSome_iff_exists.mp hlookup
  cases h with
  | refused | creates | joins | sends | resumes | recovers => exact .inl hid
  | reteams reteamed =>
    rcases reteamed with rfl | ⟨teamId, team, team', members, -, -, sets⟩
    · exact .inl hid
    · exact .inl (by rw [sets.state]; exact hid)
  | @deletes argument _ _ deleted =>
    cases deleted with
    | refused => exact .inl hid
    | @deleted teamId _ _ _ normal _ sets =>
      by_cases hremoved : id ∈ teamDeliveries c.state teamId
      · exact .inr ⟨argument, teamId, rfl, normal, hremoved⟩
      · left
        rw [sets.state, ← AList.lookup_isSome]
        unfold removeTeam
        rw [Table.lookup_eraseAll, if_neg hremoved, hl]
        rfl
  | retries retried =>
    cases retried with
    | refused => exact .inl hid
    | retried _ _ _ _ sets => exact .inl (by rw [sets.state]; exact (AList.mem_insert _).mpr (.inr hid))
  | cancels cancelled =>
    cases cancelled with
    | refused => exact .inl hid
    | @cancelled messageId _ _ _ queued sets =>
      refine .inl ((sameDeliveries_cancel c.state _ _ fun d hd => ⟨?_, queued d hd⟩).keeps sets.state hid)
      obtain ⟨k, -, hk⟩ := List.mem_filterMap.mp hd
      rw [hc.ids k d hk]
      exact hk

theorem Transitioned.keeps {c c' : Comms} {x : Change} {r : Except RuntimeError Written} (h : Transitioned c x r c')
    {id : String} (hid : id ∈ c.state.deliveries) : id ∈ c'.state.deliveries := by
  cases h with
  | refused | already | missing | lost => exact hid
  | written _ _ _ sets => rw [sets.state]; exact (AList.mem_insert _).mpr (.inr hid)

theorem Staged.keeps {c c' : Comms} {deliveryId : String} {trigger : DeliveryAttemptTrigger} {stage : Stage}
    {r : Except RuntimeError (Stage ⊕ TeamDeliveryRecord)} (h : Staged c deliveryId trigger stage r c') {id : String}
    (hid : id ∈ c.state.deliveries) : id ∈ c'.state.deliveries := by
  cases h with
  | missing | queued | unqueued | blocked | stillBlocked | unpoliced | cleared | changes | interrupts | injects
  | unrecorded | interrupting | interrupted | uninterrupted | sending | sent | rejected => exact hid
  | failed wrote | unchanged wrote | changed wrote => exact wrote.keeps hid
  | completed quiet => rw [quiet.state]; exact hid
  | recorded _ sets => rw [sets.state]; exact (AList.mem_insert _).mpr (.inr hid)

theorem Moved.keeps {c c' : Comms} {call : TeamCall} {after : Option TeamCall} (h : Moved c call after c') {id : String}
    (hid : id ∈ c.state.deliveries) : id ∈ c'.state.deliveries := by
  cases h with
  | stopped | checked | joinChecked | admitted | idle | passedBy | recovers => exact hid
  | created sets => rw [sets.state]; exact hid
  | membersStored sets => rw [sets.state]; exact hid
  | joined reteamed =>
    rcases reteamed with rfl | ⟨teamId, team, team', members, -, -, sets⟩
    · exact hid
    · rw [sets.state]; exact hid
  | @sent m _ _ _ created =>
    cases created with
    | refused | existing => exact hid
    | created _ drafted sets => rw [sets.state]; exact (addMessage_spec m _ _ c.state).2.2.2 id (.inl hid)
  | ran ran =>
    cases ran with
    | missing | waits | holds => exact hid
    | goes _ staged => exact staged.keeps hid

theorem Staged.aboutToSend {c c' : Comms} {id : String} {trigger : DeliveryAttemptTrigger} {stage stage' : Stage}
    (hs : Staged c id trigger stage (.ok (.inl stage')) c') (hlaw : StageLaw c.state id stage)
    (hfinds : ∀ x message session d, stage = .transition x (.send message session) →
      c.state.deliveries.lookup x.current.id = some d → d.status = x.current.status)
    (habout : stage'.aboutToSend = true) : stage.aboutToSend = true ∨ id ∈ c'.state.deliveries := by
  generalize hresult : (Except.ok (Sum.inl stage') : Except RuntimeError (Stage ⊕ TeamDeliveryRecord)) = result at hs
  cases hs with
  | missing | unqueued | stillBlocked | unpoliced | uninterrupted | failed | unrecorded | recorded => cases hresult
  | queued | blocked | cleared | changes | interrupts | injects | interrupting | interrupted | rejected | sending | sent =>
    cases hresult
    cases habout
  | @unchanged x k d _ wrote =>
    cases k with
    | finish => cases hresult
    | recordTurn =>
      cases hresult
      cases habout
    | send message session =>
      obtain ⟨-, ⟨same, -⟩ | ⟨-, found, differs⟩⟩ := wrote.unchanged
      · obtain ⟨-, hstatus⟩ := hlaw.record x.current rfl
        rw [same, of_decide_eq_true (hlaw.plan x _ rfl)] at hstatus
        cases hstatus
      · exact absurd (hfinds x message session _ rfl found) differs
  | @changed x k d _ wrote =>
    cases k with
    | finish | recordTurn =>
      cases hresult
      cases habout
    | send message session =>
      right
      have hid := (hlaw.record x.current rfl).1
      obtain ⟨-, _, -, -, -, hstate⟩ := wrote.changed
      rw [hstate, ← hid]
      exact (AList.mem_insert _).mpr (.inl rfl)
  | @completed x k d _ quiet =>
    cases k with
    | finish => cases hresult
    | recordTurn =>
      cases hresult
      cases habout
    | send => exact .inl rfl

theorem Inject.aboutToSend_eq {r : Inject} {id : String} (h : r.aboutToSend = some id) :
    ∃ recipient stage, r.point = .holding recipient stage ∧ stage.aboutToSend = true ∧ r.deliveryId = id := by
  unfold Inject.aboutToSend at h
  split at h
  · next recipient stage point =>
    split at h
    · next habout => exact ⟨recipient, stage, point, habout, Option.some.inj h⟩
    · cases h
  · cases h

theorem keepsSends_step (hc : QueuesListed s.comms.state) (hlaw : RunsLawful s) (h : KeepsSends s)
    (hfinds : findsSnapshot l s = true) (hspares : sparesSends l s = true) (hs : Stepped s l s') : KeepsSends s' := by
  intro i r id hr hsend
  obtain ⟨recipient, stage, point, habout, rfl⟩ := Inject.aboutToSend_eq hsend
  -- a record that was there is there, for no team is deleted
  have hkeep : ∀ r₀ : Inject, s.Runs i r₀ → r₀.aboutToSend = some r.deliveryId →
      r.deliveryId ∈ s'.comms.state.deliveries := by
    intro r₀ hr₀ hsend₀
    have hid := h i r₀ _ hr₀ hsend₀
    cases hs with
    | runtime => exact hid
    | begun _ begun =>
      rcases begun.keeps hc hid with hid | ⟨argument, teamId, rfl, normal, hremoved⟩
      · exact hid
      · obtain ⟨k, hl⟩ := hr₀
        simp only [sparesSends, normal, Except.toOption, Option.all_some, List.all_eq_true] at hspares
        have hall := hspares _ (Table.mem_values.mpr ⟨i, hl⟩)
        simp only [TeamCall.run, Option.all_some, hsend₀, decide_eq_true_eq] at hall
        exact absurd hremoved hall
    | moved _ _ moved => exact moved.keeps hid
  have hsend' : ∀ r₀ : Inject, ∀ stage₀, r₀.point = .holding recipient stage₀ → stage₀.aboutToSend = true →
      r₀.aboutToSend = some r₀.deliveryId := by
    intro r₀ stage₀ point₀ habout₀
    simp [Inject.aboutToSend, point₀, habout₀]
  rcases hs.runs hr with ⟨hr, -⟩ | hstart | ⟨r₀, answer, rfl, hr₀, -, ran⟩
  · exact hkeep r hr hsend
  · rw [hstart] at point
    cases point
  · have hgoes := ran.goesOn
    generalize hc' : s'.comms = c' at hgoes
    cases hgoes with
    | waits => cases point
    | holds =>
      obtain ⟨-, rfl⟩ := Point.holding.inj point
      cases habout
    | goes point₀ staged =>
      obtain ⟨rfl, rfl⟩ := Point.holding.inj point
      have hstage := staged.aboutToSend (hlaw i r₀ _ _ hr₀ point₀) (fun x message session d₀ he found => ?_) habout
      · rcases hstage with hbefore | hmem
        · rw [← hc']
          exact hkeep r₀ hr₀ (hsend' r₀ _ point₀ hbefore)
        · exact hmem
      · subst he
        exact findsSnapshot_status hfinds hr₀ point₀ found

end

/-! ## What is sent is injecting -/

/-- Whatever a step begins to send is `injecting`. -/
def SendsInjecting (s : Service) : Prop :=
  ∀ l recipient id, sentBy l s = some (recipient, id) → statusOf s.comms.state id = some .injecting

/-- In every run whose changes to `injecting` find their status, and which deletes no team whose delivery is about to
be sent. -/
theorem sends_injecting {runtime : Manager} {store : Store} {config : RuntimeTeamCommsConfig} {nonce : String}
    {s : Service} (hkeys : PrimaryKeys store) (hcounted : Counted store)
    (hr : Reaches Service.step (fun l s => (findsSnapshot l s && sparesSends l s) = true)
      (Service.start (Comms.new runtime store config nonce)) s) : SendsInjecting s := by
  have hinv : (∃ w : QueueWatch, w.service = s ∧ Lawful w) ∧ CarriesInjecting s ∧ KeepsSends s := by
    refine hr.invariant (I := fun s => (∃ w : QueueWatch, w.service = s ∧ Lawful w) ∧ CarriesInjecting s ∧ KeepsSends s)
      ⟨⟨_, rfl, lawful_start hkeys hcounted⟩, ?_, ?_⟩ fun l t u hinv hcond hs => ?_
    · rintro i r recipient stage d ⟨k, hl⟩
      simp [Service.start] at hl
    · rintro i r id ⟨k, hl⟩
      simp [Service.start] at hl
    · obtain ⟨⟨w, rfl, hw⟩, hcarries, hkeeps⟩ := hinv
      obtain ⟨hfinds, hspares⟩ := Bool.and_eq_true_iff.mp hcond
      have hstepped := step_stepped hs
      refine ⟨⟨w.note l u, rfl, lawful_step hw (by rw [QueueWatch.step, hs]; rfl)⟩,
        carriesInjecting_step hw.runs hcarries hfinds hstepped,
        keepsSends_step hw.ordered.queues.listed hw.runs hkeeps hfinds hspares hstepped⟩
  obtain ⟨⟨w, rfl, hw⟩, hcarries, hkeeps⟩ := hinv
  intro l recipient id hsent
  obtain ⟨i, answer, r, d, op, rfl, hrun, rfl, point⟩ := sentBy_eq hsent
  have hmem := hkeeps i r r.deliveryId hrun (by simp [Inject.aboutToSend, point, Stage.aboutToSend])
  obtain ⟨d', hl⟩ := Option.isSome_iff_exists.mp (AList.lookup_isSome.mpr hmem)
  have hcarried := hcarries i r recipient _ d hrun point rfl rfl
  have hallows := (hw.runs i r recipient _ hrun point).live d d' rfl hl
  simp only [Stage.phase, Phase.allows, hcarried, ne_eq, not_true_eq_false, decide_false, Bool.false_or,
    decide_eq_true_eq] at hallows
  simp [statusOf, hl, hallows]

/-- A message is sent to the second session, up to the change of its delivery to `injecting`. -/
def injectsMessage (i : ℕ) : List Label := sendsMessage i ++ List.replicate 5 (.goOn i .lock)

theorem sends_injecting_once : ∃ s : Service, sentBy (.goOn 1 .lock) s = some ("sess_codex_0_3", "dlv_1") ∧
      SendsInjecting s := by
  obtain ⟨s, hs, he⟩ := exists_reaches_of_runAll Service.step (fun l s => findsSnapshot l s && sparesSends l s)
    (newTeam ++ injectsMessage 1 ++ List.replicate 2 (.goOn 1 .lock)) (fun s => sentBy (.goOn 1 .lock) s)
    (some ("sess_codex_0_3", "dlv_1")) (s := Service.fresh []) (by decide +kernel)
  exact ⟨s, he, sends_injecting (primaryKeys_empty []) (fun d hd => by cases hd) hs⟩

/-- A message that is cancelled after its queue was looked at is sent. -/
theorem not_sends_injecting : ¬ ∀ (runtime : Manager) (store : Store) (config : RuntimeTeamCommsConfig)
    (nonce : String) (s : Service), PrimaryKeys store → Counted store → Reaches Service.step (fun _ _ => True)
      (Service.start (Comms.new runtime store config nonce)) s → SendsInjecting s := by
  intro hall
  obtain ⟨s, hs, he⟩ := exists_reaches_of_runAll Service.step (fun _ _ => true)
    (newTeam ++ injectsMessage 1 ++ [.start 2 (.cancelMessage "team_1" "msg_1"), .goOn 1 .lock])
    (fun s => (sentBy (.goOn 1 .lock) s, statusOf s.comms.state "dlv_1"))
    (some ("sess_codex_0_3", "dlv_1"), some .cancelled) (s := Service.fresh []) (by decide +kernel)
  obtain ⟨hsent, hstatus⟩ := Prod.mk.inj he
  have hinjecting := hall _ _ _ _ s (primaryKeys_empty []) (fun d hd => by cases hd)
    (hs.mono fun _ _ _ => trivial) _ _ _ hsent
  rw [hstatus] at hinjecting
  cases hinjecting

end Gooselake.TeamComms
