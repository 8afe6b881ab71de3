import Gooselake.Library.Queues
import Gooselake.TeamComms.Hydration

/-!
Startup recovery of the recipient queues. It runs `inject_delivery` on the deferred deliveries of the
idle recipients and on nothing else, while any delivery that is not over holds up the ones behind it:
a queue is taken up again when none of its deliveries was left `pending` or `injecting`, and is not when
such a delivery is at its head.
-/

namespace Gooselake.TeamComms

open Gooselake.Core Data Library Library.Exec
open Gooselake.Runtime (Manager SendAnswers SendTurnInput RecoveryAnswers)

set_option autoImplicit false

/-! ## The head of a queue -/

def queueHead (deliveries : Table String TeamDeliveryRecord) (queue : List String) : Option TeamDeliveryRecord :=
  (queue.filterMap fun id => deliveries.lookup id).find? fun d => !isTerminalStatus d.status

theorem queueHead_congr {deliveries deliveries' : Table String TeamDeliveryRecord} {queue : List String}
    (h : ∀ id ∈ queue, deliveries'.lookup id = deliveries.lookup id) :
    queueHead deliveries' queue = queueHead deliveries queue := by
  unfold queueHead
  rw [List.filterMap_congr h]

theorem queueHead_mem {deliveries : Table String TeamDeliveryRecord} {queue : List String} {d : TeamDeliveryRecord}
    (h : queueHead deliveries queue = some d) :
    (∃ id ∈ queue, deliveries.lookup id = some d) ∧ isTerminalStatus d.status = false := by
  have hmem := List.mem_of_find?_eq_some h
  have hopen := List.find?_some h
  exact ⟨List.mem_filterMap.mp hmem, by simpa using hopen⟩

theorem queueBlocker_isSome {deliveries : Table String TeamDeliveryRecord}
    (hids : ∀ id d, deliveries.lookup id = some d → d.id = id) {id : String} {d h : TeamDeliveryRecord}
    (hd : deliveries.lookup id = some d) (hopen : isTerminalStatus d.status = false) (hne : h.id ≠ id)
    {queue : List String} (hhead : queueHead deliveries queue = some h) :
    (queueBlocker deliveries id queue).isSome = true := by
  induction queue with
  | nil => cases hhead
  | cons x queue ih =>
    unfold queueHead at hhead
    rw [queueBlocker]
    cases hx : deliveries.lookup x with
    | none =>
      have he : x ≠ id := by
        rintro rfl
        rw [hx] at hd
        cases hd
      rw [List.filterMap_cons, hx] at hhead
      rw [if_neg he]
      exact ih hhead
    | some candidate =>
      rw [List.filterMap_cons, hx] at hhead
      by_cases hover : isTerminalStatus candidate.status = true
      · have he : x ≠ id := by
          rintro rfl
          obtain rfl := Option.some.inj (hx.symm.trans hd)
          rw [hopen] at hover
          cases hover
        rw [if_neg he]
        simp only [hover, if_true]
        refine ih ?_
        simpa [queueHead, hover] using hhead
      · have he : x ≠ id := by
          rintro rfl
          have hd : candidate = h := by simpa [hover] using hhead
          exact hne (hd ▸ hids x candidate hx)
        rw [if_neg he]
        simp [hover]

/-- Something ahead of `id` in the queue is not over. -/
def Held (deliveries : Table String TeamDeliveryRecord) (queue : List String) (id : String) : Prop :=
  ∃ a d, [a, id].Sublist queue ∧ deliveries.lookup a = some d ∧ isTerminalStatus d.status = false

theorem held_of_queueBlocker {deliveries : Table String TeamDeliveryRecord} {id : String} {queue : List String}
    (hid : id ∈ queue) (h : (queueBlocker deliveries id queue).isSome = true) : Held deliveries queue id := by
  induction queue with
  | nil => cases hid
  | cons x queue ih =>
    rw [queueBlocker] at h
    split at h
    · cases h
    next hx =>
    have hid : id ∈ queue := (List.mem_cons.mp hid).resolve_left (Ne.symm hx)
    have hrest : Held deliveries queue id → Held deliveries (x :: queue) id :=
      fun ⟨a, d, hsub, hd⟩ => ⟨a, d, hsub.cons x, hd⟩
    split at h
    · exact hrest (ih hid h)
    next candidate hl =>
    split at h
    · exact hrest (ih hid h)
    next hopen => exact ⟨x, candidate, (List.singleton_sublist.mpr hid).cons_cons x, hl, by simpa using hopen⟩

def restarted (core store : Store) (providers : List ProviderKind) (clock : ℤ) (answers : RecoveryAnswers)
    (config : RuntimeTeamCommsConfig) (nonce : String) : Comms :=
  Comms.new ((Runtime.recoverStartup answers).result (Manager.new core providers clock)).2 store config nonce

structure Indexed (c : Comms) : Prop where
  sessions : SessionsKeyed c.runtime
  ids : ∀ id d, c.state.deliveries.lookup id = some d → d.id = id
  owner : ∀ recipient id d, id ∈ queueOf c.state recipient → c.state.deliveries.lookup id = some d →
    d.recipientAgentId = recipient
  once : ∀ recipient, (queueOf c.state recipient).Nodup

/-- A run of `inject_delivery`: its delivery and the service it started on. -/
structure InjectRun where
  deliveryId : String
  before : Comms

/-- `inject_delivery` ran on the delivery when it was still queued and nothing ahead of it held it up. -/
def Attempted (runs : List InjectRun) (id : String) : Prop :=
  ∃ run ∈ runs, run.deliveryId = id ∧ ∃ d, run.before.state.deliveries.lookup id = some d ∧
    isQueued d.status = true ∧ findRecipientQueueBlocker run.before.state d = none

/-- No recipient that is idle after the recovery has an unattempted delivery at the head of its queue. -/
def TakenUp (runs : List InjectRun) (c' : Comms) : Prop :=
  ∀ recipient session d, c'.runtime.sessions.lookup recipient = some session → isIdle session = true →
    queueHead c'.state.deliveries (queueOf c'.state recipient) = some d → Attempted runs d.id

/-- The head of the queue of an idle recipient was left `pending` or `injecting`. -/
def stuckAt (c : Comms) (recipient : String) : Bool :=
  (c.runtime.sessions.lookup recipient).any fun session => isIdle session &&
    (queueHead c.state.deliveries (queueOf c.state recipient)).any fun d => d.status ≠ .deferred

/-- `c'` is reached by recovering the queues of `c`. -/
structure Recovering (c c' : Comms) : Prop where
  queues : c'.state.recipientDeliveryIds = c.state.recipientDeliveryIds
  sessions : SessionsKeyed c'.runtime
  ids : ∀ id d, c'.state.deliveries.lookup id = some d → d.id = id
  owners : ∀ id d', c'.state.deliveries.lookup id = some d' →
    ∃ d, c.state.deliveries.lookup id = some d ∧ d'.recipientAgentId = d.recipientAgentId
  /-- only idle recipients are touched -/
  idle : ∀ k session, c'.runtime.sessions.lookup k = some session → isIdle session = true →
    ∃ session₀, c.runtime.sessions.lookup k = some session₀ ∧ isIdle session₀ = true
  /-- a delivery that is over stays as it is -/
  ended : ∀ id d, c.state.deliveries.lookup id = some d → isTerminalStatus d.status = true →
    c'.state.deliveries.lookup id = some d

section

variable {c c' c'' : Comms}

theorem Recovering.refl (h : Indexed c) : Recovering c c where
  queues := rfl
  sessions := h.sessions
  ids := h.ids
  owners _ d hl := ⟨d, hl, rfl⟩
  idle _ session hs hidle := ⟨session, hs, hidle⟩
  ended _ _ hl _ := hl

theorem Recovering.attempt (h : Recovering c c') {d : TeamDeliveryRecord}
    (hidle : ∃ session, c.runtime.sessions.lookup d.recipientAgentId = some session ∧ isIdle session = true)
    (hl : c'.state.deliveries.lookup d.id = some d) (hq : isQueued d.status = true) (hf : DeliveryFrame d c' c'') :
    Recovering c c'' := by
  obtain ⟨d', hl', hid', hr'⟩ := hf.own
  refine ⟨hf.queues.trans h.queues, hf.runtime.keyed h.sessions, fun id d₁ hl₁ => ?_, fun id d₁ hl₁ => ?_,
    fun k session hs hi => ?_, fun id d₁ hl₁ hover => ?_⟩
  · by_cases hne : id = d.id
    · subst hne
      obtain rfl := Option.some.inj (hl'.symm.trans hl₁)
      exact hid'
    · exact h.ids id d₁ ((hf.others id hne).symm.trans hl₁)
  · by_cases hne : id = d.id
    · subst hne
      obtain rfl := Option.some.inj (hl'.symm.trans hl₁)
      obtain ⟨d₀, hl₀, hr₀⟩ := h.owners d.id d hl
      exact ⟨d₀, hl₀, hr'.trans hr₀⟩
    · exact h.owners id d₁ ((hf.others id hne).symm.trans hl₁)
  · by_cases hk : k = d.recipientAgentId
    · exact hk ▸ hidle
    · exact h.idle k session ((hf.runtime.others k hk).symm.trans hs) hi
  · have hl₁ := h.ended id d₁ hl₁ hover
    have hne : id ≠ d.id := by
      rintro rfl
      obtain rfl := Option.some.inj (hl.symm.trans hl₁)
      unfold isQueued at hq
      unfold isTerminalStatus at hover
      cases hst : d.status <;> simp [hst] at hq hover
    exact (hf.others id hne).trans hl₁

theorem mem_deferredFor {s : TeamCommsState} {recipient id : String} :
    id ∈ deferredFor s recipient ↔ id ∈ queueOf s recipient ∧
      ∃ d, s.deliveries.lookup id = some d ∧ d.status = .deferred := by
  simp [deferredFor, queueOf, Option.any_eq_true]

theorem Recovering.owner (hc : Indexed c) (h : Recovering c c') {recipient id : String} {d : TeamDeliveryRecord}
    (hid : id ∈ queueOf c'.state recipient) (hl : c'.state.deliveries.lookup id = some d) :
    d.recipientAgentId = recipient := by
  obtain ⟨d₀, hl₀, hr⟩ := h.owners id d hl
  have hid₀ : id ∈ queueOf c.state recipient := by
    unfold queueOf at hid ⊢
    rw [← h.queues]
    exact hid
  exact hr.trans (hc.owner recipient id d₀ hid₀ hl₀)

structure Untouched (c c' : Comms) (recipient : String) : Prop where
  session : c'.runtime.sessions.lookup recipient = c.runtime.sessions.lookup recipient
  records : ∀ id ∈ queueOf c.state recipient, c'.state.deliveries.lookup id = c.state.deliveries.lookup id

theorem Untouched.attempt (hc : Indexed c) {stuck : String} {h : TeamDeliveryRecord}
    (hhead : queueHead c.state.deliveries (queueOf c.state stuck) = some h) (hnot : h.status ≠ .deferred)
    {recipient id : String} {d : TeamDeliveryRecord} (hrec : Recovering c c') (hu : Untouched c c' stuck)
    (hid : id ∈ queueOf c'.state recipient) (hl : c'.state.deliveries.lookup id = some d) (hf : DeliveryFrame d c' c'')
    (hdeferred : recipient = stuck → d.status = .deferred)
    (hb : ¬ (d.status = .deferred ∧ (findRecipientQueueBlocker c'.state d).isSome = true)) :
    Untouched c c'' stuck := by
  obtain rfl := hrec.ids id d hl
  have howner := hrec.owner hc hid hl
  have hqueue : queueOf c'.state recipient = queueOf c.state recipient := by
    unfold queueOf
    rw [hrec.queues]
  by_cases hr : recipient = stuck
  · subst hr
    have hdeferred := hdeferred rfl
    refine absurd ⟨hdeferred, ?_⟩ hb
    have hhead' : queueHead c'.state.deliveries (queueOf c'.state recipient) = some h := by
      rw [hqueue, queueHead_congr hu.records]
      exact hhead
    have hne : h.id ≠ d.id := by
      rintro he
      obtain ⟨⟨id', hid', hl'⟩, -⟩ := queueHead_mem hhead'
      obtain rfl := hrec.ids id' h hl'
      rw [he] at hl'
      obtain rfl := Option.some.inj (hl.symm.trans hl')
      exact hnot hdeferred
    have hopen : isTerminalStatus d.status = false := by
      rw [hdeferred]
      rfl
    have hblocked := queueBlocker_isSome hrec.ids hl hopen hne hhead'
    unfold findRecipientQueueBlocker
    rw [howner]
    simpa [queueOf] using hblocked
  · have hdisjoint : d.id ∉ queueOf c.state stuck := by
      intro hmem
      obtain ⟨d₀, hl₀, hr₀⟩ := hrec.owners d.id d hl
      exact hr (howner.symm.trans (hr₀.trans (hc.owner stuck d.id d₀ hmem hl₀)))
    refine ⟨?_, fun id' hid' => ?_⟩
    · rw [hf.runtime.others stuck fun he => hr (howner.symm.trans he.symm)]
      exact hu.session
    · have hne : id' ≠ d.id := by
        rintro rfl
        exact hdisjoint hid'
      rw [hf.others id' hne]
      exact hu.records id' hid'

theorem stuckAt_iff {recipient : String} : stuckAt c recipient = true ↔ ∃ session d,
    c.runtime.sessions.lookup recipient = some session ∧ isIdle session = true ∧
      queueHead c.state.deliveries (queueOf c.state recipient) = some d ∧ d.status ≠ .deferred := by
  simp only [stuckAt, Option.any_eq_true, Bool.and_eq_true, decide_eq_true_eq]
  constructor
  · rintro ⟨session, hs, hidle, d, hd, hnot⟩
    exact ⟨session, d, hs, hidle, hd, hnot⟩
  · rintro ⟨session, d, hs, hidle, hd, hnot⟩
    exact ⟨session, hs, hidle, d, hd, hnot⟩

/-! ## What the recovery has done so far -/

def IdleIn (c : Comms) (recipient : String) : Prop :=
  ∃ session, c.runtime.sessions.lookup recipient = some session ∧ isIdle session = true

/-- After the runs so far; `P` says of which deferred deliveries of `c` they are. -/
structure Recovered (c : Comms) (P : String → String → Prop) (runs : List InjectRun) (c' : Comms) : Prop where
  recovering : Recovering c c'
  covered : ∀ recipient, ∀ id ∈ deferredFor c.state recipient, (∃ run ∈ runs, run.deliveryId = id) ↔ P recipient id
  tried : ∀ run ∈ runs, ∃ recipient, run.deliveryId ∈ deferredFor c.state recipient ∧
    (Attempted runs run.deliveryId ∨ Held c'.state.deliveries (queueOf c.state recipient) run.deliveryId)
  fresh : ∀ id, (∀ run ∈ runs, run.deliveryId ≠ id) → c'.state.deliveries.lookup id = c.state.deliveries.lookup id
  session : ∀ recipient, (∀ id ∈ deferredFor c.state recipient, ¬ P recipient id) →
    c'.runtime.sessions.lookup recipient = c.runtime.sessions.lookup recipient
  stuck : ∀ recipient, stuckAt c recipient = true → Untouched c c' recipient

theorem Attempted.append {runs : List InjectRun} {id : String} (h : Attempted runs id) (run : InjectRun) :
    Attempted (runs ++ [run]) id := by
  obtain ⟨old, hold, h⟩ := h
  exact ⟨old, List.mem_append_left _ hold, h⟩

/-- What a run of `inject_delivery` leaves: the service as it was, or its delivery and the recipient changed, and
then the delivery was not a deferred one that something held up. -/
def Injected (id : String) (c c' : Comms) : Prop :=
  c' = c ∨ ∃ d, c.state.deliveries.lookup id = some d ∧ DeliveryFrame d c c' ∧ isQueued d.status = true ∧
    ¬ (d.status = .deferred ∧ (findRecipientQueueBlocker c.state d).isSome = true)

variable {P Q : String → String → Prop} {runs : List InjectRun}

theorem Recovered.congr (h : Recovered c P runs c')
    (hPQ : ∀ recipient, ∀ id ∈ deferredFor c.state recipient, P recipient id ↔ Q recipient id) :
    Recovered c Q runs c' :=
  ⟨h.recovering, fun r id hid => (h.covered r id hid).trans (hPQ r id hid), h.tried, h.fresh,
    fun r hr => h.session r fun id hid hP => hr id hid ((hPQ r id hid).mp hP), h.stuck⟩

theorem Recovered.step (hc : Indexed c) (h : Recovered c P runs c') {recipient x : String} (hidle : IdleIn c recipient)
    (hx : x ∈ deferredFor c.state recipient) (hnew : ¬ P recipient x)
    (hfirst : ∀ id ∈ deferredFor c.state recipient, [x, id].Sublist (queueOf c.state recipient) → ¬ P recipient id)
    (hstep : Injected x c' c'') :
    Recovered c (fun r id => P r id ∨ (r = recipient ∧ id = x)) (runs ++ [⟨x, c'⟩]) c'' := by
  obtain ⟨hq, d, hd, hdeferred⟩ := mem_deferredFor.mp hx
  have hnot : ∀ run ∈ runs, run.deliveryId ≠ x := fun run hrun he => hnew ((h.covered _ x hx).mp ⟨run, hrun, he⟩)
  have hl : c'.state.deliveries.lookup x = some d := (h.fresh x hnot).trans hd
  obtain rfl := hc.ids x d hd
  obtain rfl := hc.owner recipient d.id d hq hd
  have howner : ∀ r, d.id ∈ queueOf c.state r → r = d.recipientAgentId := fun r hr => (hc.owner r d.id d hr hd).symm
  have hqueue : queueOf c'.state d.recipientAgentId = queueOf c.state d.recipientAgentId := by
    unfold queueOf
    rw [h.recovering.queues]
  -- the run changes its delivery and the recipient's session, and nothing when the delivery is held up
  have hstep : c'' = c' ∨ DeliveryFrame d c' c'' ∧ findRecipientQueueBlocker c'.state d = none := by
    obtain rfl | ⟨d', hl', hf, -, hb⟩ := hstep
    · exact .inl rfl
    · obtain rfl := Option.some.inj (hl.symm.trans hl')
      exact .inr ⟨hf, Option.not_isSome_iff_eq_none.mp fun hsome => hb ⟨hdeferred, hsome⟩⟩
  have hrec : Recovering c c'' := by
    obtain rfl | ⟨hf, -⟩ := hstep
    · exact h.recovering
    · exact h.recovering.attempt hidle hl (by rw [hdeferred]; rfl) hf
  have hothers : ∀ id, id ≠ d.id → c''.state.deliveries.lookup id = c'.state.deliveries.lookup id := by
    obtain rfl | ⟨hf, -⟩ := hstep
    · exact fun _ _ => rfl
    · exact hf.others
  have hsessions : ∀ r, r ≠ d.recipientAgentId →
      c''.runtime.sessions.lookup r = c'.runtime.sessions.lookup r := by
    obtain rfl | ⟨hf, -⟩ := hstep
    · exact fun _ _ => rfl
    · exact hf.runtime.others
  refine ⟨hrec, fun r id hid => ?_, fun run hrun => ?_, fun id hid => ?_, fun r hr => ?_, fun r hr => ?_⟩
  · simp only [List.mem_append, List.mem_singleton, or_and_right, exists_or, exists_eq_left, h.covered r id hid]
    refine or_congr Iff.rfl ⟨fun he => ?_, fun he => he.2.symm⟩
    subst he
    exact ⟨howner r (mem_deferredFor.mp hid).1, rfl⟩
  · rcases List.mem_append.mp hrun with hrun | hrun
    · obtain ⟨r, hid, htried⟩ := h.tried run hrun
      refine ⟨r, hid, htried.imp (fun h => h.append _) ?_⟩
      rintro ⟨a, da, hsub, hla, hopen⟩
      refine ⟨a, da, hsub, (hothers a ?_).trans hla, hopen⟩
      -- what is tried now was not ahead of it
      rintro rfl
      obtain rfl := howner r (mem_of_pair_sublist hsub).1
      exact hfirst _ hid hsub ((h.covered _ _ hid).mp ⟨run, hrun, rfl⟩)
    · obtain rfl := List.mem_singleton.mp hrun
      refine ⟨d.recipientAgentId, hx, ?_⟩
      by_cases hb : (findRecipientQueueBlocker c'.state d).isSome = true
      · obtain rfl | ⟨-, hnone⟩ := hstep
        · rw [findRecipientQueueBlocker, Option.isSome_map] at hb
          change (queueBlocker c''.state.deliveries d.id (queueOf c''.state d.recipientAgentId)).isSome = true at hb
          rw [hqueue] at hb
          exact .inr (held_of_queueBlocker hq hb)
        · rw [hnone] at hb
          cases hb
      · exact .inl ⟨⟨d.id, c'⟩, List.mem_append_right _ (List.mem_singleton_self _), rfl, d, hl, by rw [hdeferred]; rfl,
          Option.not_isSome_iff_eq_none.mp hb⟩
  · have hne : id ≠ d.id := fun he => hid ⟨d.id, c'⟩ (List.mem_append_right _ (List.mem_singleton_self _)) he.symm
    exact (hothers id hne).trans (h.fresh id fun run hrun => hid run (List.mem_append_left _ hrun))
  · have hne : r ≠ d.recipientAgentId := by
      rintro rfl
      exact hr d.id hx (.inr ⟨rfl, rfl⟩)
    exact (hsessions r hne).trans (h.session r fun id hid hP => hr id hid (.inl hP))
  · obtain ⟨session, head, hs, -, hhead, hother⟩ := stuckAt_iff.mp hr
    obtain rfl | ⟨hf, hnone⟩ := hstep
    · exact h.stuck r hr
    · exact (h.stuck r hr).attempt hc hhead hother h.recovering (hqueue ▸ hq) hl hf (fun _ => hdeferred)
        fun hb => by simp [hnone] at hb

end

def Service.restarted (s : Service) : Comms :=
  TeamComms.restarted s.comms.runtime.store s.comms.store [.codex] 0
    ⟨fun _ => .ok (), fun r => .ok ⟨r.runtimeSessionId, r.providerSessionRef, r.canonicalProviderSessionRef⟩⟩
    ⟨true, 10⟩ "again"

end Gooselake.TeamComms
