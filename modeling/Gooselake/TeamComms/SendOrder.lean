import Gooselake.Library.Queues
import Gooselake.TeamComms.Injections
import Gooselake.TeamComms.Queues

/-!
Deliveries reach a recipient in the order they were queued. A run that found nothing before its delivery keeps
the guard until the send has returned, and what is over before it stays over unless it is retried.
-/

namespace Gooselake.TeamComms

open Gooselake.Core Data Library Library.Exec
open Gooselake.Runtime (Manager)

set_option autoImplicit false

/-! ## What an observer notes -/

/-- The delivery that a step sends, with its recipient. -/
def sentBy : Label → Service → Option (String × String)
  | .goOn i _, s =>
    match s.calls.lookup i with
    | some (.inject ⟨deliveryId, _, .holding recipient (.sending _ (.begin _))⟩ _) => some (recipient, deliveryId)
    | _ => none
  | _, _ => none

def statusOf (s : TeamCommsState) (id : String) : Option DeliveryStatus :=
  (s.deliveries.lookup id).map TeamDeliveryRecord.status

def revivedBy (s s' : TeamCommsState) : List String :=
  s.deliveries.keys.filter fun id => statusOf s id = some .failed ∧ statusOf s' id = some .pending

structure QueueWatch where
  service : Service
  queued : String → List String
  /-- The deliveries sent to each recipient's session so far, in the order they were sent. -/
  sent : String → List String
  /-- The deliveries that were retried after they had failed. -/
  revived : List String

namespace QueueWatch

def start (c : Comms) : QueueWatch := ⟨.start c, queueOf c.state, fun _ => [], []⟩

/-- What is noted when a step leads to `s`. -/
def note (w : QueueWatch) (l : Label) (s : Service) : QueueWatch where
  service := s
  queued recipient := w.queued recipient ++ (queueOf s.comms.state recipient).filter fun id => id ∉ w.queued recipient
  sent recipient := w.sent recipient ++ ((sentBy l w.service).toList.filter fun p => p.1 = recipient).map Prod.snd
  revived := w.revived ++ revivedBy w.service.comms.state s.comms.state

def step (l : Label) (w : QueueWatch) : Option QueueWatch := (Service.step l w.service).map (w.note l)

end QueueWatch

def Over (s : TeamCommsState) (id : String) : Prop :=
  ∀ d, s.deliveries.lookup id = some d → isTerminalStatus d.status = true

/-- The property: of two deliveries to one recipient the one queued first is sent first, and while a delivery is
sent nothing queued before it is pending, deferred or injecting, but for what was retried after it had failed. -/
structure SentInOrder (w : QueueWatch) : Prop where
  order : ∀ recipient a b, [a, b].Sublist (w.queued recipient) → a ∉ w.revived → ¬ [b, a].Sublist (w.sent recipient)
  clear : ∀ i r recipient d call, w.service.Runs i r → r.point = .holding recipient (.sending d call) →
    ∀ a, [a, r.deliveryId].Sublist (w.queued recipient) → a ∉ w.revived → Over w.service.comms.state a

/-! ## What is queued -/

/-- The invariant of the noted queues: those of the service are what is left of them. -/
structure QueuesKept (w : QueueWatch) : Prop where
  listed : QueuesListed w.service.comms.state
  live : ∀ recipient, queueOf w.service.comms.state recipient =
    (w.queued recipient).filter fun id => id ∈ w.service.comms.state.deliveries
  nodup : ∀ recipient, (w.queued recipient).Nodup
  one : ∀ recipient recipient' id, id ∈ w.queued recipient → id ∈ w.queued recipient' → recipient = recipient'
  below : ∀ recipient n, numbered "dlv" n ∈ w.queued recipient → n < w.service.comms.nextDeliveryId

section

variable {w : QueueWatch} {l : Label} {s : Service}

theorem QueuesKept.notMem (h : QueuesKept w) {c : Comms} {id : String} (hid : NumberedIn w.service.comms c id)
    (recipient : String) : id ∉ w.queued recipient := by
  obtain ⟨j, rfl, hj, -⟩ := hid
  intro hmem
  have := h.below recipient j hmem
  omega

theorem QueuesKept.updated (h : QueuesKept w) (he : Evolves w.service.comms s.comms) {recipient id : String}
    (hid : id ∈ w.queued recipient) {d' : TeamDeliveryRecord} (hl : s.comms.state.deliveries.lookup id = some d') :
    ∃ d, w.service.comms.state.deliveries.lookup id = some d ∧ Updates d d' := by
  rcases he.record id d' hl with hd | ⟨-, hnew, -, -⟩
  · exact hd
  · exact absurd hid (h.notMem hnew recipient)

theorem QueuesKept.note_queued (h : QueuesKept w) (he : Evolves w.service.comms s.comms) (recipient : String) :
    ∃ new, (w.note l s).queued recipient = w.queued recipient ++ new ∧
      queueOf s.comms.state recipient = (w.queued recipient).filter (fun id => id ∈ s.comms.state.deliveries) ++ new ∧
      new.Nodup ∧ ∀ id ∈ new, NumberedIn w.service.comms s.comms id ∧
        ∃ d, s.comms.state.deliveries.lookup id = some d ∧ d.recipientAgentId = recipient := by
  obtain ⟨new, hqueue, hnodup, hnew⟩ := he.queue recipient
  have hkept : (queueOf w.service.comms.state recipient).filter (fun id => id ∈ s.comms.state.deliveries) =
      (w.queued recipient).filter fun id => id ∈ s.comms.state.deliveries := by
    rw [h.live, List.filter_filter]
    refine List.filter_congr fun id hid => ?_
    by_cases hmem : id ∈ s.comms.state.deliveries
    · obtain ⟨d', hl⟩ := Option.isSome_iff_exists.mp (AList.lookup_isSome.mpr hmem)
      obtain ⟨d, hd, -⟩ := h.updated he hid hl
      simp [hmem, Table.lookup_isSome hd]
    · simp [hmem]
  rw [hkept] at hqueue
  refine ⟨new, ?_, hqueue, hnodup, hnew⟩
  have hold : ((w.queued recipient).filter fun id => id ∈ s.comms.state.deliveries).filter
      (fun id => id ∉ w.queued recipient) = [] :=
    List.filter_eq_nil_iff.mpr fun id hid => by simp [(List.mem_filter.mp hid).1]
  have hfresh : new.filter (fun id => id ∉ w.queued recipient) = new :=
    List.filter_eq_self.mpr fun id hid => decide_eq_true (h.notMem (hnew id hid).1 recipient)
  change w.queued recipient ++ (queueOf s.comms.state recipient).filter (fun id => id ∉ w.queued recipient) = _
  rw [hqueue, List.filter_append, hold, hfresh, List.nil_append]

theorem QueuesKept.note (h : QueuesKept w) (he : Evolves w.service.comms s.comms) : QueuesKept (w.note l s) := by
  refine ⟨he.queuesListed h.listed, fun recipient => ?_, fun recipient => ?_,
    fun recipient recipient' id hid hid' => ?_,
    fun recipient n hn => ?_⟩
  · obtain ⟨new, hqueued, hqueue, -, hnew⟩ := h.note_queued (l := l) he recipient
    have hall : new.filter (fun id => id ∈ s.comms.state.deliveries) = new := List.filter_eq_self.mpr fun id hid => by
      obtain ⟨-, d, hl, -⟩ := hnew id hid
      exact decide_eq_true (Table.lookup_isSome hl)
    rw [hqueued, List.filter_append]
    exact hqueue.trans (congrArg _ hall.symm)
  · obtain ⟨new, hqueued, -, hnodup, hnew⟩ := h.note_queued (l := l) he recipient
    rw [hqueued]
    refine (h.nodup recipient).append hnodup fun id hid hmem => ?_
    exact h.notMem (hnew id hmem).1 recipient hid
  · obtain ⟨new, hqueued, -, -, hnew⟩ := h.note_queued (l := l) he recipient
    obtain ⟨new', hqueued', -, -, hnew'⟩ := h.note_queued (l := l) he recipient'
    rw [hqueued, List.mem_append] at hid
    rw [hqueued', List.mem_append] at hid'
    rcases hid with hid | hid
    · rcases hid' with hid' | hid'
      · exact h.one recipient recipient' id hid hid'
      · exact absurd hid (h.notMem (hnew' id hid').1 recipient)
    · rcases hid' with hid' | hid'
      · exact absurd hid' (h.notMem (hnew id hid).1 recipient')
      · obtain ⟨-, d, hl, rfl⟩ := hnew id hid
        obtain ⟨-, d', hl', rfl⟩ := hnew' id hid'
        obtain rfl := Option.some.inj (hl.symm.trans hl')
        rfl
  · obtain ⟨new, hqueued, -, -, hnew⟩ := h.note_queued (l := l) he recipient
    rw [hqueued, List.mem_append] at hn
    rcases hn with hn | hn
    · exact (h.below recipient n hn).trans_le he.counter
    · obtain ⟨⟨j, hj, -, hlt⟩, -⟩ := hnew _ hn
      obtain rfl := numbered_inj hj
      exact hlt

theorem QueuesKept.before (h : QueuesKept w) (he : Evolves w.service.comms s.comms) {recipient a b : String}
    (hb : b ∈ w.queued recipient) :
    [a, b].Sublist ((w.note l s).queued recipient) ↔ [a, b].Sublist (w.queued recipient) := by
  obtain ⟨new, hqueued, -⟩ := h.note_queued (l := l) he recipient
  have hnodup := (h.note (l := l) he).nodup recipient
  rw [hqueued] at hnodup ⊢
  exact pair_sublist_append hnodup hb

theorem QueuesKept.over (h : QueuesKept w) (he : Evolves w.service.comms s.comms) {recipient a : String}
    (ha : a ∈ w.queued recipient) (hrevived : a ∉ (w.note l s).revived) (hover : Over w.service.comms.state a) :
    Over s.comms.state a := by
  intro d' hl
  obtain ⟨d, hd, updates⟩ := h.updated he ha hl
  rcases lawfulChange_of_terminal updates.status (hover d hd) with hterminal | ⟨hfailed, hpending⟩
  · exact hterminal
  · exfalso
    apply hrevived
    refine List.mem_append_right _ (List.mem_filter.mpr ⟨AList.mem_keys.mp (Table.lookup_isSome hd), ?_⟩)
    simp [statusOf, hd, hl, hfailed, hpending]

end

/-! ## What a run knows -/

def EarlierOver (w : QueueWatch) (recipient id : String) : Prop :=
  ∀ a, [a, id].Sublist (w.queued recipient) → a ∉ w.revived → Over w.service.comms.state a

def Stage.cleared : Stage → Bool
  | .lookup .. | .interrupting .. | .sending .. => true
  | .transition _ k | .completing _ _ k =>
    match k with
    | .send .. => true
    | _ => false
  | _ => false

structure RunKept (w : QueueWatch) (r : Inject) : Prop where
  waiting : ∀ recipient, r.point = .waiting recipient → r.deliveryId ∈ w.queued recipient
  holding : ∀ recipient stage, r.point = .holding recipient stage → r.deliveryId ∈ w.queued recipient
  snapshot : ∀ recipient d m, r.point = .holding recipient (.blocker d m) →
    d.id = r.deliveryId ∧ d.recipientAgentId = recipient
  cleared : ∀ recipient stage, r.point = .holding recipient stage → stage.cleared = true →
    EarlierOver w recipient r.deliveryId

theorem Staged.keepsCleared {c c' : Comms} {deliveryId : String} {trigger : DeliveryAttemptTrigger}
    {stage stage' : Stage}
    (h : Staged c deliveryId trigger stage (.ok (.inl stage')) c') (hcleared : stage'.cleared = true) :
    stage.cleared = true ∨ ∃ d m, stage = .blocker d m ∧ findRecipientQueueBlocker c.state d = none := by
  generalize hresult : (Except.ok (Sum.inl stage') : Except RuntimeError (Stage ⊕ TeamDeliveryRecord)) = result at h
  cases h with
  | missing | unqueued | stillBlocked | unpoliced | uninterrupted | failed | unrecorded | recorded => cases hresult
  | queued | blocked | changes | sent | rejected => cases hresult; cases hcleared
  | cleared blocker => exact .inr ⟨_, _, rfl, blocker⟩
  | interrupts | injects | interrupting | interrupted | sending => exact .inl rfl
  | @unchanged x k d _ _ | @completed x k d _ _ =>
    cases k with
    | finish => cases hresult
    | send => exact .inl rfl
    | recordTurn => cases hresult; cases hcleared
  | @changed x k d _ _ =>
    cases k with
    | finish | recordTurn => cases hresult; cases hcleared
    | send => exact .inl rfl

theorem not_terminal_of_isQueued {status : DeliveryStatus} (h : isQueued status = true) :
    isTerminalStatus status = false := by
  revert h
  cases status <;> decide

theorem Staged.blocker {c c' : Comms} {deliveryId : String} {trigger : DeliveryAttemptTrigger} {stage : Stage}
    {d : TeamDeliveryRecord} {m : TeamMessageRecord}
    (h : Staged c deliveryId trigger stage (.ok (.inl (.blocker d m))) c') :
    c.state.deliveries.lookup deliveryId = some d := by
  generalize hresult : (Except.ok (Sum.inl (Stage.blocker d m)) : Except RuntimeError (Stage ⊕ TeamDeliveryRecord)) =
    result at h
  cases h with
  | missing | unqueued | stillBlocked | unpoliced | uninterrupted | failed | unrecorded | recorded | blocked | cleared
  | changes | interrupts | injects | interrupting | interrupted | changed | sending | sent | rejected => cases hresult
  | queued found => cases hresult; exact found
  | @unchanged _ k | @completed _ k => cases k <;> cases hresult

theorem terminal_of_queueBlocker {deliveries : Table String TeamDeliveryRecord} {id a : String} {ids : List String}
    (h : queueBlocker deliveries id ids = none) (ha : a ∈ ids) (hne : a ≠ id) (hafter : ¬ [id, a].Sublist ids)
    {d : TeamDeliveryRecord} (hl : deliveries.lookup a = some d) : isTerminalStatus d.status = true := by
  induction ids with
  | nil => cases ha
  | cons x ids ih =>
    have hrest : ¬ [id, a].Sublist ids := fun hsub => hafter (hsub.cons x)
    by_cases hx : x = id
    · subst hx
      have ha : a ∈ ids := (List.mem_cons.mp ha).resolve_left hne
      exact absurd ((List.singleton_sublist.mpr ha).cons_cons x) hafter
    · rw [queueBlocker, if_neg hx] at h
      rcases List.mem_cons.mp ha with rfl | ha
      · rw [hl] at h
        by_contra hterminal
        simp [hterminal] at h
      · split at h
        · exact ih h ha hrest
        · split at h
          · exact ih h ha hrest
          · cases h

section

variable {w : QueueWatch} {l : Label} {s : Service}

theorem EarlierOver.note (hq : QueuesKept w) (he : Evolves w.service.comms s.comms) {recipient id : String}
    (h : EarlierOver w recipient id) (hid : id ∈ w.queued recipient) : EarlierOver (w.note l s) recipient id := by
  intro a hbefore hrevived
  rw [hq.before he hid] at hbefore
  have ha : a ∉ w.revived := fun hmem => hrevived (List.mem_append_left _ hmem)
  exact hq.over he (mem_of_pair_sublist hbefore).1 hrevived (h a hbefore ha)

theorem QueuesKept.earlierOver (h : QueuesKept w) {d : TeamDeliveryRecord}
    (hnone : findRecipientQueueBlocker w.service.comms.state d = none) :
    EarlierOver w d.recipientAgentId d.id := by
  intro a hbefore _ d' hl
  have hne := ne_of_pair_sublist (h.nodup _) hbefore
  have hswap := not_pair_sublist_swap (h.nodup _) hbefore
  have hmem : a ∈ queueOf w.service.comms.state d.recipientAgentId := by
    rw [h.live, List.mem_filter]
    exact ⟨(mem_of_pair_sublist hbefore).1, decide_eq_true (Table.lookup_isSome hl)⟩
  refine terminal_of_queueBlocker (Option.map_eq_none_iff.mp hnone) hmem hne (fun hsub => hswap ?_) hl
  refine hsub.trans ?_
  have hlive := h.live d.recipientAgentId
  unfold queueOf at hlive
  rw [hlive]
  exact List.filter_sublist

theorem QueuesKept.mem_queued (h : QueuesKept w) {id : String} {d : TeamDeliveryRecord}
    (hl : w.service.comms.state.deliveries.lookup id = some d) : id ∈ w.queued d.recipientAgentId := by
  have hmem := h.listed.listed id d hl
  rw [h.live] at hmem
  exact (List.mem_filter.mp hmem).1

theorem mem_note_queued {recipient id : String} (h : id ∈ w.queued recipient) : id ∈ (w.note l s).queued recipient :=
  List.mem_append_left _ h

theorem RunKept.note (hq : QueuesKept w) (he : Evolves w.service.comms s.comms) {r : Inject} (h : RunKept w r) :
    RunKept (w.note l s) r := by
  refine ⟨fun recipient point => mem_note_queued (h.waiting recipient point),
    fun recipient stage point => mem_note_queued (h.holding recipient stage point), h.snapshot,
    fun recipient stage point hcleared => ?_⟩
  exact (h.cleared recipient stage point hcleared).note hq he (h.holding recipient stage point)

theorem RunKept.goesOn (hq : QueuesKept w) (he : Evolves w.service.comms s.comms) {r r' : Inject} (h : RunKept w r)
    (hr : GoesOn w.service.comms r r' s.comms) : RunKept (w.note l s) r' := by
  generalize hc : s.comms = c' at hr
  cases hr with
  | @waits d _ found =>
    refine ⟨fun recipient point => ?_, fun _ _ point => (by cases point), fun _ _ _ point => (by cases point),
      fun _ _ point => (by cases point)⟩
    obtain rfl := Point.waiting.inj point
    exact mem_note_queued (hq.mem_queued found)
  | holds waiting =>
    refine ⟨fun _ point => (by cases point), fun recipient stage point => ?_, fun _ _ _ point => (by cases point),
      fun recipient stage point hcleared => ?_⟩
    · obtain ⟨rfl, -⟩ := Point.holding.inj point
      exact mem_note_queued (h.waiting _ waiting)
    · obtain ⟨-, rfl⟩ := Point.holding.inj point
      cases hcleared
  | @goes recipient stage stage' _ point₀ staged =>
    have hid := h.holding recipient stage point₀
    refine ⟨fun _ point => (by cases point), fun recipient' stage'' point => ?_, fun recipient' d m point => ?_,
      fun recipient' stage'' point hcleared => ?_⟩
    · obtain ⟨rfl, -⟩ := Point.holding.inj point
      exact mem_note_queued hid
    · obtain ⟨rfl, rfl⟩ := Point.holding.inj point
      have found := staged.blocker
      exact ⟨hq.listed.ids _ d found, hq.one _ _ _ (hq.mem_queued found) hid⟩
    · obtain ⟨rfl, rfl⟩ := Point.holding.inj point
      refine EarlierOver.note hq he ?_ hid
      rcases staged.keepsCleared hcleared with hbefore | ⟨d, m, rfl, hnone⟩
      · exact h.cleared recipient stage point₀ hbefore
      · obtain ⟨hdid, rfl⟩ := h.snapshot recipient d m point₀
        dsimp only
        rw [← hdid]
        exact hq.earlierOver hnone

end

/-! ## The order of the sends -/

structure Ordered (w : QueueWatch) : Prop where
  queues : QueuesKept w
  guards : w.service.Guarded
  runs : ∀ i r, w.service.Runs i r → RunKept w r
  sent : ∀ recipient, ∀ b ∈ w.sent recipient, b ∈ w.queued recipient
  past : ∀ recipient, ∀ b ∈ w.sent recipient, EarlierOver w recipient b
  /-- A run of what was queued before a sent delivery has not looked at it yet. -/
  late : ∀ recipient a, ∀ b ∈ w.sent recipient, [a, b].Sublist (w.queued recipient) → a ∉ w.revived →
    ∀ i r stage, w.service.Runs i r → r.deliveryId = a → r.point = .holding recipient stage → stage = .snapshot
  order : ∀ recipient a b, [a, b].Sublist (w.queued recipient) → a ∉ w.revived → ¬ [b, a].Sublist (w.sent recipient)

theorem sentBy_eq {l : Label} {s : Service} {recipient id : String} (h : sentBy l s = some (recipient, id)) :
    ∃ i answer r d op, l = .goOn i answer ∧ s.Runs i r ∧ r.deliveryId = id ∧
      r.point = .holding recipient (.sending d (.begin op)) := by
  unfold sentBy at h
  split at h
  · next i answer =>
    split at h
    · next k hl =>
      obtain ⟨rfl, rfl⟩ := Prod.mk.inj (Option.some.inj h)
      exact ⟨i, answer, _, _, _, rfl, ⟨_, hl⟩, rfl, rfl⟩
    · cases h
  · cases h

section

variable {w : QueueWatch} {l : Label} {s : Service}

theorem mem_note_sent {recipient id : String} : id ∈ (w.note l s).sent recipient ↔
    id ∈ w.sent recipient ∨ sentBy l w.service = some (recipient, id) := by
  unfold QueueWatch.note
  dsimp only
  rw [List.mem_append]
  refine or_congr_right ?_
  cases sentBy l w.service with
  | none => simp
  | some p =>
    obtain ⟨recipient', id'⟩ := p
    by_cases he : recipient' = recipient
    · simp [he, eq_comm]
    · simp [he]

theorem pair_note_sent {recipient a b : String} (h : [b, a].Sublist ((w.note l s).sent recipient)) :
    [b, a].Sublist (w.sent recipient) ∨ (b ∈ w.sent recipient ∧ sentBy l w.service = some (recipient, a)) := by
  unfold QueueWatch.note at h
  dsimp only at h
  cases hsent : sentBy l w.service with
  | none =>
    rw [hsent] at h
    exact .inl (by simpa using h)
  | some p =>
    obtain ⟨recipient', id⟩ := p
    rw [hsent] at h
    by_cases he : recipient' = recipient
    · have h : [b, a].Sublist (w.sent recipient ++ [id]) := by simpa [he] using h
      rcases pair_sublist_concat h with h | ⟨hb, rfl⟩
      · exact .inl h
      · exact .inr ⟨hb, by rw [he]⟩
    · exact .inl (by simpa [he] using h)

theorem Ordered.sending (h : Ordered w) {recipient id : String} (hsent : sentBy l w.service = some (recipient, id)) :
    id ∈ w.queued recipient ∧ EarlierOver w recipient id := by
  obtain ⟨i, answer, r, d, op, rfl, hr, rfl, point⟩ := sentBy_eq hsent
  have hkept := h.runs i r hr
  exact ⟨hkept.holding _ _ point, hkept.cleared _ _ point rfl⟩

theorem Ordered.late_note (h : Ordered w) (hs : Stepped w.service l s) {recipient a b : String}
    (hb : b ∈ (w.note l s).sent recipient) (hbefore : [a, b].Sublist (w.queued recipient)) (ha : a ∉ w.revived)
    {i : ℕ} {r : Inject} {stage : Stage} (hr : s.Runs i r) (hid : r.deliveryId = a)
    (point : r.point = .holding recipient stage) : stage = .snapshot := by
  rcases mem_note_sent.mp hb with hb | hsent
  · rcases hs.runs hr with ⟨hr, -⟩ | hstart | ⟨r₀, answer, -, hr₀, -, ran⟩
    · exact h.late recipient a b hb hbefore ha i r stage hr hid point
    · rw [hstart] at point
      cases point
    · have hover := h.past recipient b hb a hbefore ha
      have hgoes := ran.goesOn
      generalize s.comms = c' at hgoes
      cases hgoes with
      | waits => cases point
      | holds => exact (Point.holding.inj point).2.symm
      | @goes recipient' stage₀ stage' _ point₀ staged =>
        obtain ⟨rfl, rfl⟩ := Point.holding.inj point
        obtain rfl := h.late _ a b hb hbefore ha i r₀ stage₀ hr₀ hid point₀
        -- the run read its delivery as queued, and it is over
        generalize hresult : (Except.ok (Sum.inl stage') : Except RuntimeError (Stage ⊕ TeamDeliveryRecord)) =
          result at staged
        cases staged with
        | missing | unqueued => cases hresult
        | @queued d m found _ status =>
          dsimp only at hid
          rw [hid] at found
          have hterminal := hover d found
          rw [not_terminal_of_isQueued status] at hterminal
          cases hterminal
  · -- the run that sends holds the guard, so the other one is the same run
    exfalso
    obtain ⟨j, answer, r', d, op, rfl, hr', hid', point'⟩ := sentBy_eq hsent
    have hj : w.service.Holds recipient j := ⟨r', _, hr', point'⟩
    have hi : w.service.Holds recipient i := by
      rcases hs.holds ⟨r, stage, hr, point⟩ with hi | ⟨-, hfree⟩
      · exact hi
      · exact absurd hj (hfree j)
    obtain rfl := h.guards recipient i j hi hj
    have hsame : r.deliveryId = r'.deliveryId := by
      obtain ⟨k', hl'⟩ := hr'
      rcases hs.runs hr with ⟨⟨k, hl⟩, -⟩ | hstart | ⟨r₀, _, -, ⟨k, hl⟩, -, ran⟩
      · obtain ⟨rfl, -⟩ := TeamCall.inject.inj (Option.some.inj (hl.symm.trans hl'))
        rfl
      · rw [hstart] at point
        cases point
      · obtain ⟨rfl, -⟩ := TeamCall.inject.inj (Option.some.inj (hl.symm.trans hl'))
        exact ran.goesOn.deliveryId
    have hne := ne_of_pair_sublist (h.queues.nodup recipient) hbefore
    exact hne (hid.symm.trans (hsame.trans hid'))

theorem ordered_step (h : Ordered w) (hs : Stepped w.service l s) : Ordered (w.note l s) := by
  have he : Evolves w.service.comms s.comms := hs.evolves h.queues.listed
  have hqueued : ∀ recipient, ∀ b ∈ (w.note l s).sent recipient, b ∈ w.queued recipient := by
    intro recipient b hb
    rcases mem_note_sent.mp hb with hb | hsent
    · exact h.sent recipient b hb
    · exact (h.sending hsent).1
  have hkeep : ∀ a, a ∉ (w.note l s).revived → a ∉ w.revived := fun a ha hmem => ha (List.mem_append_left _ hmem)
  refine ⟨h.queues.note he, guarded_step h.guards hs, fun i r hr => ?_,
    fun recipient b hb => mem_note_queued (hqueued recipient b hb), fun recipient b hb => ?_,
    fun recipient a b hb hbefore ha i r stage hr hid point => ?_, fun recipient a b hbefore ha hpair => ?_⟩
  · rcases hs.runs hr with ⟨hr, -⟩ | hstart | ⟨r₀, answer, -, hr₀, -, ran⟩
    · exact (h.runs i r hr).note h.queues he
    · refine ⟨fun _ point => ?_, fun _ _ point => ?_, fun _ _ _ point => ?_, fun _ _ point => ?_⟩ <;>
        · rw [hstart] at point
          cases point
    · exact (h.runs i r₀ hr₀).goesOn h.queues he ran.goesOn
  · refine EarlierOver.note h.queues he ?_ (hqueued recipient b hb)
    rcases mem_note_sent.mp hb with hb | hsent
    · exact h.past recipient b hb
    · exact (h.sending hsent).2
  · rw [h.queues.before he (hqueued recipient b hb)] at hbefore
    exact h.late_note hs hb hbefore (hkeep a ha) hr hid point
  · have hb : b ∈ (w.note l s).sent recipient := (mem_of_pair_sublist hpair).1
    rw [h.queues.before he (hqueued recipient b hb)] at hbefore
    rcases pair_note_sent hpair with hpair | ⟨hold, hsent⟩
    · exact h.order recipient a b hbefore (hkeep a ha) hpair
    · obtain ⟨i, answer, r, d, op, rfl, hr, rfl, point⟩ := sentBy_eq hsent
      cases h.late recipient _ b hold hbefore (hkeep _ ha) i r _ hr rfl point

end

/-! ## Every run -/

/-- The counters of stored delivery ids fit into 64 bits. -/
def Counted (store : Store) : Prop := ∀ d ∈ store.teamDeliveries, ∀ n, d.id = numbered "dlv" n → n < 2 ^ 64

theorem parseCounter_numbered {stem : String} {n : ℕ} (h : n < 2 ^ 64) : parseCounter (numbered stem n) = some n := by
  unfold parseCounter
  rw [afterLast_numbered, parseU64_toDigits h]

theorem lt_nextCounter {α : Type} {t : Table String α} {id : String} {n : ℕ} (hid : id ∈ t)
    (hn : parseCounter id = some n) : n < nextCounter t := by
  have hfold : ∀ (ids : List String) (m : ℕ), m ≤ ids.foldl (fun m id => max m ((parseCounter id).getD 0)) m ∧
      (id ∈ ids → n ≤ ids.foldl (fun m id => max m ((parseCounter id).getD 0)) m) := by
    intro ids
    induction ids with
    | nil => exact fun m => ⟨le_rfl, fun h => by cases h⟩
    | cons x ids ih =>
      intro m
      obtain ⟨hle, hmem⟩ := ih (max m ((parseCounter x).getD 0))
      refine ⟨(le_max_left _ _).trans hle, fun h => ?_⟩
      rcases List.mem_cons.mp h with rfl | h
      · have hmax : n ≤ max m ((parseCounter id).getD 0) := by rw [hn]; exact le_max_right _ _
        exact hmax.trans hle
      · exact hmem h
  exact Nat.lt_succ_of_le ((hfold t.keys 0).2 (AList.mem_keys.mp hid))

theorem listed_hydrate (store : Store) (id : String) (d : TeamDeliveryRecord)
    (hl : (TeamCommsState.hydrate store).deliveries.lookup id = some d) :
    id ∈ queueOf (TeamCommsState.hydrate store) d.recipientAgentId := by
  unfold TeamCommsState.hydrate at hl ⊢
  dsimp only at hl ⊢
  revert id d
  refine List.foldlRecOn (motive := fun s : TeamCommsState => ∀ id d, s.deliveries.lookup id = some d →
    id ∈ queueOf s d.recipientAgentId) _ _ (fun id d hl => ?_) fun s h row _ id d hl => ?_
  · have hnone := (noDeliveries_hydrated store).1
    rw [hnone] at hl
    cases hl
  · unfold TeamCommsState.hydrateDelivery at hl ⊢
    split at hl
    · next hkept =>
      rw [if_pos hkept]
      simp only [TeamCommsState.addDelivery, Table.lookup_insert] at hl
      simp only [queueOf, TeamCommsState.addDelivery, queueOf_pushAt]
      split at hl
      · next he =>
        obtain rfl := Option.some.inj hl
        rw [if_pos rfl, he]
        simp
      · have hmem := h id d hl
        split
        · exact List.mem_append_left _ hmem
        · exact hmem
    · next hkept =>
      rw [if_neg hkept]
      exact h id d hl

theorem queuesListed_hydrate {store : Store} (hkeys : PrimaryKeys store) :
    QueuesListed (TeamCommsState.hydrate store) := by
  have hrows := fromRows_hydrate store
  refine ⟨fun id d hl => (hrows.deliveries id d hl).2, listed_hydrate store, fun recipient id hid => ?_⟩
  have hstore := hydrated_hydrate store
  rw [hstore.queues] at hid
  obtain ⟨d, hd, rfl⟩ := List.mem_map.mp hid
  obtain ⟨hd, hkept⟩ := mem_listing.mp hd
  obtain ⟨hkept, hr⟩ := Bool.and_eq_true_iff.mp hkept
  obtain ⟨d', hl⟩ := Option.isSome_iff_exists.mp (AList.lookup_isSome.mpr (hstore.deliveries d hd hkept))
  obtain ⟨hd', hid⟩ := hrows.deliveries _ d' hl
  obtain rfl := List.inj_on_of_nodup_map hkeys.deliveries hd' hd hid
  exact ⟨d', hl, of_decide_eq_true hr⟩

theorem ordered_start {runtime : Manager} {store : Store} {config : RuntimeTeamCommsConfig} {nonce : String}
    (hkeys : PrimaryKeys store) (hcounted : Counted store) :
    Ordered (QueueWatch.start (Comms.new runtime store config nonce)) := by
  have hlisted := queuesListed_hydrate hkeys
  have hstore := hydrated_hydrate store
  have hrows := fromRows_hydrate store
  have hempty : ∀ i r, ¬ (Service.start (Comms.new runtime store config nonce)).Runs i r := by
    rintro i r ⟨k, hl⟩
    simp [Service.start] at hl
  have hmem : ∀ recipient, ∀ id ∈ queueOf (TeamCommsState.hydrate store) recipient,
      id ∈ (TeamCommsState.hydrate store).deliveries := by
    intro recipient id hid
    obtain ⟨d, hl, -⟩ := hlisted.queued recipient id hid
    exact Table.lookup_isSome hl
  refine ⟨⟨hlisted, fun recipient => ?_, fun recipient => ?_, fun recipient recipient' id hid hid' => ?_,
    fun recipient n hn => ?_⟩, guarded_start _, fun i r hr => absurd hr (hempty i r), fun _ _ h => (by cases h),
    fun _ _ h => (by cases h), fun _ _ _ h => (by cases h), fun recipient a b _ _ hsent => ?_⟩
  · exact (List.filter_eq_self.mpr fun id hid => decide_eq_true (hmem recipient id hid)).symm
  · exact nodup_hydrate hkeys.deliveries recipient
  · obtain ⟨d, hl, rfl⟩ := hlisted.queued recipient id hid
    obtain ⟨d', hl', rfl⟩ := hlisted.queued recipient' id hid'
    obtain rfl := Option.some.inj (hl.symm.trans hl')
    rfl
  · obtain ⟨d, hl, -⟩ := hlisted.queued recipient _ hn
    obtain ⟨hd, hid⟩ := hrows.deliveries _ d hl
    exact lt_nextCounter (Table.lookup_isSome hl) (parseCounter_numbered (hcounted d hd n hid))
  · exact absurd (mem_of_pair_sublist hsent).1 List.not_mem_nil

/-- In every run, from any store. -/
theorem sent_in_queue_order {runtime : Manager} {store : Store} {config : RuntimeTeamCommsConfig} {nonce : String}
    {w : QueueWatch} (hkeys : PrimaryKeys store) (hcounted : Counted store) (hr : Reaches QueueWatch.step
      (fun _ _ => True) (QueueWatch.start (Comms.new runtime store config nonce)) w) : SentInOrder w := by
  have hinv : Ordered w := by
    refine hr.invariant (I := Ordered) (ordered_start hkeys hcounted) fun l t u h _ hs => ?_
    obtain ⟨s, hstep, rfl⟩ := Option.map_eq_some_iff.mp hs
    exact ordered_step h (step_stepped hstep)
  refine ⟨hinv.order, fun i r recipient d call hrun point a hbefore ha => ?_⟩
  exact (hinv.runs i r hrun).cleared _ _ point rfl a hbefore ha

/-- Call `i` sends a message, up to the answer of the provider. -/
def deliversMessage (i : ℕ) : List Label := sendsMessage i ++ List.replicate 8 (.goOn i .lock)

theorem sent_in_queue_order_rejected : ∃ w : QueueWatch, w.sent "sess_codex_0_3" = ["dlv_1", "dlv_2"] ∧
      SentInOrder w := by
  obtain ⟨w, hw, he⟩ := exists_reaches_of_runAll QueueWatch.step (fun _ _ => true)
    (newTeam ++ deliversMessage 1 ++ [.goOn 1 (.ack (.error (.notFound "session")))] ++
      List.replicate 4 (.goOn 1 .lock) ++
      deliversMessage 2) (fun w => w.sent "sess_codex_0_3") ["dlv_1", "dlv_2"]
    (s := QueueWatch.start (Comms.new (Manager.empty [.codex] []) (Store.empty []) ⟨true, 10⟩ "nonce"))
    (by decide +kernel)
  refine ⟨w, he, sent_in_queue_order (primaryKeys_empty []) (fun d hd => by cases hd) (hw.mono fun _ _ _ => trivial)⟩

end Gooselake.TeamComms
