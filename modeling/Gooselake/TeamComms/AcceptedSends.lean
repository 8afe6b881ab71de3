import Gooselake.TeamComms.Injected

/-!
How often a delivery is accepted by its recipient's session. A retry sets a delivery to `pending` while a run is
past the look at its status; that run sends it and cannot note the send, so it is sent again.
-/

namespace Gooselake.TeamComms

open Gooselake.Core Data Library Library.Exec
open Gooselake.Runtime (Manager)

set_option autoImplicit false

/-! ## What an observer notes -/

def acceptedBy : Label → Service → Service → Option String
  | .goOn i _, s, s' =>
    match s.calls.lookup i, s'.calls.lookup i with
    | some (.inject ⟨deliveryId, _, .holding _ (.sending ..)⟩ _),
        some (.inject ⟨_, _, .holding _ (.transition _ (.recordTurn _))⟩ _) => some deliveryId
    | _, _ => none
  | _, _, _ => none

structure InjectWatch where
  service : Service
  /-- The deliveries whose send was accepted since they last were `failed`, in that order. -/
  accepted : List String

namespace InjectWatch

def start (c : Comms) : InjectWatch := ⟨.start c, []⟩

def note (w : InjectWatch) (l : Label) (s : Service) : InjectWatch where
  service := s
  accepted := (w.accepted.filter fun id => statusOf s.comms.state id ≠ some .failed) ++
    (acceptedBy l w.service s).toList

def step (l : Label) (w : InjectWatch) : Option InjectWatch := (Service.step l w.service).map (w.note l)

end InjectWatch

/-- The property: between two visits to `failed` a delivery is accepted at most once, and what was accepted is neither
pending nor deferred nor sent again. -/
structure AcceptedOnce (w : InjectWatch) : Prop where
  once : w.accepted.Nodup
  settled : ∀ id ∈ w.accepted, statusOf w.service.comms.state id ≠ some .pending ∧
    statusOf w.service.comms.state id ≠ some .deferred
  unsent : ∀ l recipient id, sentBy l w.service = some (recipient, id) → id ∉ w.accepted

/-! ## Steps -/

def Stage.afterSend : Stage → Bool
  | .transition _ (.recordTurn _) | .completing _ _ (.recordTurn _) | .recordTurn .. => true
  | _ => false

/-- A run is about to set the delivery to `injected`. -/
def Service.Recording (s : Service) (id : String) : Prop :=
  ∃ i r recipient x turnId, s.Runs i r ∧ r.deliveryId = id ∧
    r.point = .holding recipient (.transition x (.recordTurn turnId))

structure Accepted (w : InjectWatch) (q : QueueWatch) : Prop where
  service : q.service = w.service
  lawful : Lawful q
  carries : CarriesInjecting w.service
  once : w.accepted.Nodup
  queued : ∀ id ∈ w.accepted, ∃ recipient, id ∈ q.queued recipient
  status : ∀ id ∈ w.accepted, ∀ d, w.service.comms.state.deliveries.lookup id = some d →
    d.status = .injected ∨ (d.status = .injecting ∧ w.service.Recording id)
  late : ∀ id ∈ w.accepted, ∀ i r recipient stage, w.service.Runs i r → r.deliveryId = id →
    r.point = .holding recipient stage → stage = .snapshot ∨ stage.afterSend = true

theorem acceptedBy_eq {l : Label} {s s' : Service} {id : String} (h : acceptedBy l s s' = some id) :
    ∃ i answer r r' recipient recipient' d call x turnId, l = .goOn i answer ∧ s.Runs i r ∧ r.deliveryId = id ∧
      r.point = .holding recipient (.sending d call) ∧ s'.Runs i r' ∧
      r'.point = .holding recipient' (.transition x (.recordTurn turnId)) := by
  unfold acceptedBy at h
  split at h
  · next i answer =>
    split at h
    · next hl hl' =>
      obtain rfl := Option.some.inj h
      exact ⟨i, answer, _, _, _, _, _, _, _, _, rfl, ⟨_, hl⟩, rfl, rfl, ⟨_, hl'⟩, rfl⟩
    · cases h
  · cases h

theorem Stepped.stays {s s' : Service} {l : Label} (h : Stepped s l s') {i : ℕ} {r : Inject} (hr : s.Runs i r)
    (hother : ∀ answer, l ≠ .goOn i answer) : s'.Runs i r := by
  obtain ⟨k, hl⟩ := hr
  cases h with
  | runtime => exact ⟨k, hl⟩
  | @begun j _ _ _ free _ =>
    refine ⟨k, ?_⟩
    dsimp only
    rw [lookup_put, if_neg (fun he => ?_)]
    · exact hl
    · rw [he, free] at hl
      cases hl
  | @moved j answer _ _ _ _ _ _ =>
    refine ⟨k, ?_⟩
    dsimp only
    rw [lookup_put, if_neg (fun he => hother answer (by rw [he]))]
    exact hl

theorem Transitioned.injected {c c' : Comms} {x : Change} {r : Except RuntimeError Written} (h : Transitioned c x r c')
    (hcurrent : x.current.status = .injecting) (hnext : x.next = .injected) {d : TeamDeliveryRecord}
    (hl : c.state.deliveries.lookup x.current.id = some d) (hd : d.status = .injecting) {d' : TeamDeliveryRecord}
    (hl' : c'.state.deliveries.lookup x.current.id = some d') : d'.status = .injected := by
  cases h with
  | refused valid =>
    rw [hcurrent, hnext] at valid
    cases valid
  | already same =>
    rw [hcurrent, hnext] at same
    cases same
  | missing found =>
    rw [found] at hl
    cases hl
  | lost _ found differs =>
    obtain rfl := Option.some.inj (hl.symm.trans found)
    exact absurd (hd.trans hcurrent.symm) differs
  | written _ _ _ sets =>
    rw [sets.state] at hl'
    dsimp only at hl'
    rw [Table.lookup_insert, if_pos rfl] at hl'
    obtain rfl := Option.some.inj hl'
    exact hnext

section

variable {w : InjectWatch} {q : QueueWatch} {l : Label} {s : Service}

theorem Accepted.status_step (h : Accepted w q) (hs : Stepped w.service l s) {id : String} (hid : id ∈ w.accepted)
    {d' : TeamDeliveryRecord} (hl' : s.comms.state.deliveries.lookup id = some d') :
    d'.status = .injected ∨ (d'.status = .injecting ∧ s.Recording id) := by
  obtain ⟨recipient, hqueued⟩ := h.queued id hid
  have hlawful := h.lawful
  have hsteps : Stepped q.service l s := h.service ▸ hs
  have he := hsteps.evolves hlawful.ordered.queues.listed
  obtain ⟨d, hl, updates⟩ := hlawful.ordered.queues.updated he hqueued hl'
  rw [h.service] at hl
  rcases h.status id hid d hl with hinjected | ⟨hinjecting, i, r, recipient', x, turnId, hr, rfl, point⟩
  · left
    exact (lawfulChange_final updates.status (.inl hinjected)).trans hinjected
  · by_cases hmoves : ∃ answer, l = .goOn i answer
    · -- the run itself sets the delivery to `injected`
      obtain ⟨answer, rfl⟩ := hmoves
      left
      obtain ⟨k, hcall⟩ := hr
      have hrun : q.service.Runs i r := h.service ▸ ⟨k, hcall⟩
      have hlaw := hlawful.runs i r _ _ hrun point
      obtain ⟨hxid, -⟩ := hlaw.record x.current rfl
      have hcurrent := h.carries i r _ _ x.current ⟨k, hcall⟩ point rfl rfl
      have hnext : x.next = .injected := of_decide_eq_true (hlaw.plan x _ rfl)
      cases hs with
      | @moved j answer call after c' found _ moved =>
        obtain rfl := Option.some.inj (hcall.symm.trans found)
        cases moved with
        | stopped was => cases was
        | ran ran =>
          cases ran with
          | missing point' | waits point' | holds point' =>
            rw [point] at point'
            cases point'
          | goes point' staged =>
            rw [point] at point'
            obtain ⟨-, rfl⟩ := Point.holding.inj point'
            rw [← hxid] at hl hl'
            cases staged with
            | failed wrote | unchanged wrote | changed wrote => exact wrote.injected hcurrent hnext hl hinjecting hl'
    · right
      have hother : ∀ answer, l ≠ .goOn i answer := fun answer he => hmoves ⟨answer, he⟩
      have hrun : q.service.Runs i r := h.service ▸ hr
      have houtside := hlawful.ordered.outside hlawful.runs hsteps hrun point hother
      refine ⟨?_, i, r, recipient', x, turnId, hs.stays hr hother, rfl, point⟩
      rcases houtside d' hl' with hnew | ⟨d₀, hl₀, hchange⟩
      · rw [h.service] at hnew
        exact absurd (Table.lookup_isSome hl) hnew
      · rw [h.service] at hl₀
        obtain rfl := Option.some.inj (hl.symm.trans hl₀)
        rw [hinjecting] at hchange
        revert hchange
        cases d'.status <;> decide

theorem Accepted.late_step (h : Accepted w q) (hs : Stepped w.service l s) {i : ℕ} {r : Inject} {recipient : String}
    {stage : Stage} (hid : r.deliveryId ∈ w.accepted) (hr : s.Runs i r) (point : r.point = .holding recipient stage) :
    stage = .snapshot ∨ stage.afterSend = true := by
  rcases hs.runs hr with ⟨hr, -⟩ | hstart | ⟨r₀, answer, -, hr₀, -, ran⟩
  · exact h.late _ hid i r recipient stage hr rfl point
  · rw [hstart] at point
    cases point
  · have hgoes := ran.goesOn
    generalize s.comms = c' at hgoes
    cases hgoes with
    | waits => cases point
    | holds => exact .inl (Point.holding.inj point).2.symm
    | @goes recipient' stage₀ stage' _ point₀ staged =>
      obtain ⟨rfl, rfl⟩ := Point.holding.inj point
      have hbefore := h.late _ hid i r₀ _ stage₀ hr₀ rfl point₀
      have hstatus := h.status _ hid
      generalize hresult : (Except.ok (Sum.inl stage') : Except RuntimeError (Stage ⊕ TeamDeliveryRecord)) =
        result at staged
      cases staged with
      | missing | unqueued | stillBlocked | unpoliced | uninterrupted | failed | unrecorded | recorded => cases hresult
      | queued found _ status =>
        rcases hstatus _ found with hd | ⟨hd, -⟩ <;>
          · rw [hd] at status
            cases status
      | blocked | cleared | changes | interrupts | injects | interrupting | interrupted | sending | sent | rejected =>
        rcases hbefore with hbefore | hbefore <;> cases hbefore
      | @unchanged x k d _ _ | @completed x k d _ _ =>
        cases k with
        | finish => cases hresult
        | send => rcases hbefore with hbefore | hbefore <;> cases hbefore
        | recordTurn =>
          cases hresult
          exact .inr rfl
      | @changed x k d _ _ =>
        cases hresult
        cases k with
        | finish | send => rcases hbefore with hbefore | hbefore <;> cases hbefore
        | recordTurn => exact .inr rfl

theorem accepted_step (h : Accepted w q) (hfinds : findsSnapshot l w.service = true)
    (hstep : Service.step l w.service = some s) :
    Accepted (w.note l s) (q.note l s) := by
  have hs := step_stepped hstep
  have hlawful : Lawful (q.note l s) := lawful_step h.lawful (by rw [QueueWatch.step, h.service, hstep]; rfl)
  have hcarries : CarriesInjecting s := carriesInjecting_step (h.service ▸ h.lawful.runs) h.carries hfinds hs
  have hmem : ∀ id, id ∈ (w.note l s).accepted → id ∈ w.accepted ∨ acceptedBy l w.service s = some id := by
    intro id hid
    rcases List.mem_append.mp hid with hid | hid
    · exact .inl (List.mem_filter.mp hid).1
    · exact .inr (by simpa using hid)
  -- the run whose send is accepted is the only one of its delivery
  have hnew : ∀ id, acceptedBy l w.service s = some id → id ∉ w.accepted ∧ (∃ recipient, id ∈ q.queued recipient) ∧
      (∀ d, s.comms.state.deliveries.lookup id = some d → d.status = .injecting ∧ s.Recording id) ∧
      ∀ i r recipient stage, s.Runs i r → r.deliveryId = id → r.point = .holding recipient stage →
          stage.afterSend = true := by
    intro id haccepted
    obtain ⟨i, answer, r, r', recipient, recipient', d, call, x, turnId, rfl, hr, rfl, point, hr', point'⟩ :=
      acceptedBy_eq haccepted
    have hid : r'.deliveryId = r.deliveryId := by
      obtain ⟨k, hl⟩ := hr
      rcases hs.runs hr' with ⟨-, hother⟩ | hstart | ⟨r₀, _, -, ⟨k₀, hl₀⟩, -, ran⟩
      · exact absurd rfl (hother answer)
      · rw [hstart] at point'
        cases point'
      · obtain ⟨rfl, -⟩ := TeamCall.inject.inj (Option.some.inj (hl.symm.trans hl₀))
        exact ran.goesOn.deliveryId
    have hqueued := (h.lawful.ordered.runs i r (h.service ▸ hr)).holding _ _ point
    refine ⟨fun hmem => ?_, ⟨recipient, hqueued⟩, fun d' hl' => ?_,
      fun j r'' recipient'' stage hr'' hid'' point'' => ?_⟩
    · rcases h.late _ hmem i r _ _ hr rfl point with he | he <;> cases he
    · have hlaw := hlawful.runs i r' _ _ hr' point'
      have hcarried := hcarries i r' _ _ x.current hr' point' rfl rfl
      have hallows := hlaw.live x.current d' rfl (hid ▸ hl')
      simp only [Stage.phase, Phase.allows, hcarried, ne_eq, not_true_eq_false, decide_false, Bool.false_or,
        decide_eq_true_eq] at hallows
      exact ⟨hallows, i, r', recipient', x, turnId, hr', hid, point'⟩
    · have hmem := (hlawful.ordered.runs i r' hr').holding _ _ point'
      have hmem'' := (hlawful.ordered.runs j r'' hr'').holding _ _ point''
      rw [hid] at hmem
      rw [hid''] at hmem''
      obtain rfl := hlawful.ordered.queues.one _ _ _ hmem hmem''
      obtain rfl := hlawful.ordered.guards _ i j ⟨r', _, hr', point'⟩ ⟨r'', _, hr'', point''⟩
      obtain ⟨k', hl'⟩ := hr'
      obtain ⟨k'', hl''⟩ := hr''
      obtain ⟨rfl, -⟩ := TeamCall.inject.inj (Option.some.inj (hl'.symm.trans hl''))
      rw [point'] at point''
      obtain ⟨-, rfl⟩ := Point.holding.inj point''
      rfl
  refine ⟨rfl, hlawful, hcarries, ?_, fun id hid => ?_, fun id hid d hl => ?_,
    fun id hid i r recipient stage hr he point => ?_⟩
  · refine (h.once.filter _).append ?_ fun id hid hlast => ?_
    · cases acceptedBy l w.service s <;> simp
    · exact (hnew id (by simpa using hlast)).1 (List.mem_filter.mp hid).1
  · rcases hmem id hid with hid | haccepted
    · obtain ⟨recipient, hqueued⟩ := h.queued id hid
      exact ⟨recipient, mem_note_queued hqueued⟩
    · obtain ⟨recipient, hqueued⟩ := (hnew id haccepted).2.1
      exact ⟨recipient, mem_note_queued hqueued⟩
  · rcases hmem id hid with hid | haccepted
    · exact h.status_step hs hid hl
    · exact .inr ((hnew id haccepted).2.2.1 d hl)
  · rcases hmem id hid with hid | haccepted
    · exact h.late_step hs (he ▸ hid) hr point
    · exact .inr ((hnew id haccepted).2.2.2 i r recipient stage hr he point)

end

/-! ## Every run -/

/-- In every run whose changes to `injecting` find the status that was read. -/
theorem accepted_once {runtime : Manager} {store : Store} {config : RuntimeTeamCommsConfig} {nonce : String}
    {w : InjectWatch} (hkeys : PrimaryKeys store) (hcounted : Counted store)
    (hr : Reaches InjectWatch.step (fun l w => findsSnapshot l w.service = true)
      (InjectWatch.start (Comms.new runtime store config nonce)) w) : AcceptedOnce w := by
  have hinv : ∃ q, Accepted w q := by
    refine hr.invariant (I := fun w => ∃ q, Accepted w q) ⟨_, rfl, lawful_start hkeys hcounted, ?_, List.nodup_nil,
      fun id hid => (by cases hid), fun id hid => (by cases hid), fun id hid => by cases hid⟩
        fun l t u hinv hcond hs => ?_
    · rintro i r recipient stage d ⟨k, hl⟩
      simp [InjectWatch.start, Service.start] at hl
    · obtain ⟨q, hq⟩ := hinv
      obtain ⟨s, hstep, rfl⟩ := Option.map_eq_some_iff.mp hs
      exact ⟨q.note l s, accepted_step hq hcond hstep⟩
  obtain ⟨q, h⟩ := hinv
  refine ⟨h.once, fun id hid => ?_, fun l recipient id hsent hid => ?_⟩
  · cases hl : w.service.comms.state.deliveries.lookup id with
    | none => simp [statusOf, hl]
    | some d => rcases h.status id hid d hl with hd | ⟨hd, -⟩ <;> simp [statusOf, hl, hd]
  · obtain ⟨i, answer, r, d, op, rfl, hrun, rfl, point⟩ := sentBy_eq hsent
    rcases h.late _ hid i r _ _ hrun rfl point with he | he <;> cases he

/-- The provider accepts the send of call `i`. -/
def acceptsMessage (i : ℕ) (turnId : String) : List Label :=
  [.goOn i (.ack (.ok ⟨"sess_codex_0_3", turnId⟩))] ++ List.replicate 2 (.goOn i .lock)

theorem accepted_once_sent : ∃ w : InjectWatch, w.accepted = ["dlv_1"] ∧ AcceptedOnce w := by
  obtain ⟨w, hw, he⟩ := exists_reaches_of_runAll InjectWatch.step (fun l w => findsSnapshot l w.service)
    (newTeam ++ deliversMessage 1 ++ acceptsMessage 1 "turn_codex_0_5") InjectWatch.accepted ["dlv_1"]
    (s := InjectWatch.start (Comms.new (Manager.empty [.codex] []) (Store.empty []) ⟨true, 10⟩ "nonce"))
    (by decide +kernel)
  exact ⟨w, he, accepted_once (primaryKeys_empty []) (fun d hd => by cases hd) hw⟩

/-- A delivery that is retried after a run read it as deferred is sent and stays pending. -/
theorem not_accepted_once : ¬ ∀ (runtime : Manager) (store : Store) (config : RuntimeTeamCommsConfig) (nonce : String)
    (w : InjectWatch), PrimaryKeys store → Counted store → Reaches InjectWatch.step (fun _ _ => True)
      (InjectWatch.start (Comms.new runtime store config nonce)) w → AcceptedOnce w := by
  intro hall
  obtain ⟨w, hw, he⟩ := exists_reaches_of_runAll InjectWatch.step (fun _ _ => true)
    (newTeam ++ deliversMessage 1 ++ [.goOn 1 (.ack (.error (.invalidState "busy")))] ++
      List.replicate 4 (.goOn 1 .lock) ++
      [.start 3 (.resumeDeferredForRecipient "sess_codex_0_3")] ++ List.replicate 5 (.goOn 3 .lock) ++
      [.start 4 (.retryDelivery "team_1" "dlv_1")] ++ List.replicate 2 (.goOn 3 .lock) ++
        acceptsMessage 3 "turn_codex_0_7")
    (fun w => (w.accepted, statusOf w.service.comms.state "dlv_1")) (["dlv_1"], some .pending)
    (s := InjectWatch.start (Comms.new (Manager.empty [.codex] []) (Store.empty []) ⟨true, 10⟩ "nonce"))
    (by decide +kernel)
  obtain ⟨haccepted, hstatus⟩ := Prod.mk.inj he
  have honce := hall _ _ _ _ w (primaryKeys_empty []) (fun d hd => by cases hd) (hw.mono fun _ _ _ => trivial)
  exact (honce.settled "dlv_1" (by rw [haccepted]; exact List.mem_singleton_self _)).1 hstatus

end Gooselake.TeamComms
