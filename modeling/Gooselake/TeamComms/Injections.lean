import Gooselake.TeamComms.Moves

/-!
The runs of `inject_delivery` in flight. A step starts runs before their guard, moves one run, or leaves the
runs as they are; a recipient's guard is held by at most one of them.
-/

namespace Gooselake.TeamComms

open Gooselake.Core Data Library Library.Exec

set_option autoImplicit false

/-! ## Where runs come from -/

section

variable {r : Inject} {k : Frame}

theorem point_startInject {trigger : DeliveryAttemptTrigger} {next : List String → Frame} {ids : List String}
    (h : startInject trigger next ids = some (.inject r k)) : r.point = .start := by
  cases ids with
  | nil => cases h
  | cons id ids =>
    obtain ⟨rfl, -⟩ := TeamCall.inject.inj (Option.some.inj h)
    rfl

theorem point_nextRecipient {retried : ℕ} {recipients : List String}
    (h : nextRecipient retried recipients = some (.inject r k)) : r.point = .start := by
  cases recipients <;> cases h

theorem point_nextDeferred {retried : ℕ} {recipients ids : List String}
    (h : nextDeferred recipients retried ids = some (.inject r k)) : r.point = .start := by
  cases ids with
  | nil => exact point_nextRecipient h
  | cons id ids =>
    obtain ⟨rfl, -⟩ := TeamCall.inject.inj (Option.some.inj h)
    rfl

theorem point_next {frame : Frame} {result : Except RuntimeError TeamDeliveryRecord}
    (h : frame.next result = some (.inject r k)) : r.point = .start := by
  cases frame with
  | queue rest | replay rest => exact point_startInject h
  | retry => cases h
  | recover rest recipients retried => exact point_nextDeferred h

theorem point_after {frame : Frame} {result : Except RuntimeError (Inject ⊕ TeamDeliveryRecord)}
    (h : frame.after result = some (.inject r k)) : result = .ok (.inl r) ∨ r.point = .start := by
  rcases result with e | (r' | d)
  · exact .inr (point_next h)
  · obtain ⟨rfl, -⟩ := TeamCall.inject.inj (Option.some.inj h)
    exact .inl rfl
  · exact .inr (point_next h)

variable {c c' : Comms}

theorem Begun.point {op : Operation} {after : Option TeamCall} (h : Begun c op after c')
    (hr : after = some (.inject r k)) : r.point = .start := by
  cases h with
  | refused | creates | joins | reteams | deletes | cancels => cases hr
  | @sends _ _ todo => cases todo <;> cases hr
  | retries =>
    obtain ⟨id, -, he⟩ := Option.map_eq_some_iff.mp hr
    obtain ⟨rfl, -⟩ := TeamCall.inject.inj he
    rfl
  | resumes => exact point_startInject hr
  | recovers => exact point_nextRecipient hr

theorem Moved.point {call : TeamCall} {after : Option TeamCall} (h : Moved c call after c')
    (hr : after = some (.inject r k)) :
    r.point = .start ∨ ∃ r₀ k₀, call = .inject r₀ k₀ ∧ Ran c r₀ (.ok (.inl r)) c' := by
  cases h with
  | stopped | membersStored | joinChecked | joined | idle => cases hr
  | @checked _ _ todo => cases todo <;> cases hr
  | created _ _ next => rcases next with rfl | rfl <;> cases hr
  | @admitted _ _ _ todo => cases todo <;> cases hr
  | @sent _ result =>
    rcases result with e | ⟨message, deliveries, _ | _⟩
    · cases hr
    · exact .inl (point_startInject hr)
    · cases hr
  | @ran r₀ k₀ result _ ran =>
    rcases point_after hr with rfl | hstart
    · exact .inr ⟨r₀, k₀, rfl, ran⟩
    · exact .inl hstart
  | passedBy => exact .inl (point_nextRecipient hr)
  | recovers => exact .inl (point_nextDeferred hr)

end

/-! ## Runs across a step -/

/-- Call `i` is a run of `inject_delivery`. -/
def Service.Runs (s : Service) (i : ℕ) (r : Inject) : Prop := ∃ k, s.calls.lookup i = some (.inject r k)

variable {s s' : Service} {l : Label}

theorem Stepped.runs (h : Stepped s l s') {i : ℕ} {r : Inject} (hr : s'.Runs i r) :
    (s.Runs i r ∧ ∀ answer, l ≠ .goOn i answer) ∨ r.point = .start ∨ ∃ r₀ answer, l = .goOn i answer ∧
      s.Runs i r₀ ∧ s.blocked r₀ = false ∧ Ran s.comms r₀ (.ok (.inl r)) s'.comms := by
  obtain ⟨k, hl⟩ := hr
  cases h with
  | runtime => exact .inl ⟨⟨k, hl⟩, fun _ he => by cases he⟩
  | begun _ begun =>
    rw [lookup_put] at hl
    split at hl
    · exact .inr (.inl (begun.point hl))
    · exact .inl ⟨⟨k, hl⟩, fun _ he => by cases he⟩
  | @moved j answer call after c' found unblocked moved =>
    rw [lookup_put] at hl
    split at hl
    · next he =>
      subst he
      rcases moved.point hl with hstart | ⟨r₀, k₀, rfl, ran⟩
      · exact .inr (.inl hstart)
      · exact .inr (.inr ⟨r₀, answer, rfl, ⟨k₀, found⟩, by simpa [TeamCall.run] using unblocked, ran⟩)
    · next hne => exact .inl ⟨⟨k, hl⟩, fun _ he => hne (Label.goOn.inj he).1.symm⟩

/-- A run goes from its start to the guard, takes the guard, or goes to its next stage. -/
inductive GoesOn (c : Comms) (r : Inject) : Inject → Comms → Prop where
  | waits {d : TeamDeliveryRecord} (point : r.point = .start)
      (found : c.state.deliveries.lookup r.deliveryId = some d) :
      GoesOn c r { r with point := .waiting d.recipientAgentId } c
  | holds {recipient : String} (point : r.point = .waiting recipient) :
      GoesOn c r { r with point := .holding recipient .snapshot } c
  | goes {recipient : String} {stage stage' : Stage} {c' : Comms} (point : r.point = .holding recipient stage)
      (staged : Staged c r.deliveryId r.trigger stage (.ok (.inl stage')) c') :
      GoesOn c r { r with point := .holding recipient stage' } c'

theorem Ran.goesOn {c c' : Comms} {r r' : Inject} (h : Ran c r (.ok (.inl r')) c') : GoesOn c r r' c' := by
  generalize hresult : (Except.ok (Sum.inl r') : Except RuntimeError (Inject ⊕ TeamDeliveryRecord)) = result at h
  cases h with
  | missing => cases hresult
  | waits point found =>
    obtain rfl := Sum.inl.inj (Except.ok.inj hresult)
    exact .waits point found
  | holds point =>
    obtain rfl := Sum.inl.inj (Except.ok.inj hresult)
    exact .holds point
  | @goes recipient stage result _ point staged =>
    rcases result with e | (stage' | d)
    · cases hresult
    · obtain rfl := Sum.inl.inj (Except.ok.inj hresult)
      exact .goes point staged
    · cases Except.ok.inj hresult

theorem GoesOn.deliveryId {c c' : Comms} {r r' : Inject} (h : GoesOn c r r' c') : r'.deliveryId = r.deliveryId := by
  cases h <;> rfl

/-! ## The guards -/

/-- Call `i` is a run that holds the recipient's guard. -/
def Service.Holds (s : Service) (recipient : String) (i : ℕ) : Prop :=
  ∃ r stage, s.Runs i r ∧ r.point = .holding recipient stage

def Service.Guarded (s : Service) : Prop := ∀ recipient i j, s.Holds recipient i → s.Holds recipient j → i = j

theorem Service.Holds.guardHeld {recipient : String} {i : ℕ} (h : s.Holds recipient i) :
    s.guardHeld recipient = true := by
  obtain ⟨r, stage, ⟨k, hl⟩, point⟩ := h
  refine List.any_eq_true.mpr ⟨_, Table.mem_values.mpr ⟨i, hl⟩, ?_⟩
  simp [TeamCall.run, Inject.guard, point]

theorem Stepped.holds (h : Stepped s l s') {recipient : String} {i : ℕ} (hi : s'.Holds recipient i) :
    s.Holds recipient i ∨ ((∃ answer, l = .goOn i answer) ∧ ∀ j, ¬ s.Holds recipient j) := by
  obtain ⟨r, stage, hr, point⟩ := hi
  rcases h.runs hr with ⟨hr, -⟩ | hstart | ⟨r₀, answer, rfl, hr₀, unblocked, ran⟩
  · exact .inl ⟨r, stage, hr, point⟩
  · rw [hstart] at point
    cases point
  · have hgoes := ran.goesOn
    generalize s'.comms = c' at hgoes
    cases hgoes with
    | waits => cases point
    | holds waiting =>
      obtain ⟨rfl, -⟩ := Point.holding.inj point
      refine .inr ⟨⟨answer, rfl⟩, fun j hj => ?_⟩
      simp [Service.blocked, Inject.waits, waiting, hj.guardHeld] at unblocked
    | goes point₀ =>
      obtain ⟨rfl, -⟩ := Point.holding.inj point
      exact .inl ⟨r₀, _, hr₀, point₀⟩

theorem guarded_start (c : Comms) : (Service.start c).Guarded := by
  rintro recipient i j ⟨r, stage, ⟨k, hl⟩, -⟩ -
  simp [Service.start] at hl

theorem guarded_step (h : s.Guarded) (hs : Stepped s l s') : s'.Guarded := by
  intro recipient i j hi hj
  rcases hs.holds hi with hi | ⟨⟨answer, rfl⟩, hfree⟩
  · rcases hs.holds hj with hj | ⟨-, hfree⟩
    · exact h recipient i j hi hj
    · exact absurd hi (hfree i)
  · rcases hs.holds hj with hj | ⟨⟨answer', he⟩, -⟩
    · exact absurd hj (hfree j)
    · obtain ⟨rfl, -⟩ := Label.goOn.inj he
      rfl

end Gooselake.TeamComms
