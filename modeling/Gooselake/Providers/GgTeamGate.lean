import Gooselake.Library.Gate
import Gooselake.Providers.BridgeTurns

/-!
The gate for the `gg_team` tools of a bridge session. The flags of the session fit its `gg_team` calls as long as the
final results that the gate takes are those of the call in flight: any `gg_team` result opens the gate, also the one of
a call that was denied.
-/

namespace Gooselake.Providers.BridgeClient

open Gooselake.Core Data Library

set_option autoImplicit false

/-- A `gg_team` call that was allowed and has no result yet. -/
def PermissionCall.isOutstanding (call : PermissionCall) : Bool :=
  isGgTeamMcpToolName call.toolName && !call.resulted &&
    match call.point with
    | .returned (.allow _) => true
    | _ => false

def PermissionCall.isHeld (call : PermissionCall) : Bool :=
  (isGgTeamMcpToolName call.toolName && !call.point.isReturned) || call.isOutstanding

def PermissionCall.stage (call : PermissionCall) : Stage String :=
  if isGgTeamMcpToolName call.toolName then
    match call.point with
    | .pending _ | .resolved _ => .asked
    | .returned (.allow (some invocationId)) => if call.resulted then .over else .inFlight invocationId
    | .returned _ => .over
  else .over

theorem PermissionCall.stage_of_not_held {call : PermissionCall} (h : call.isHeld = false) : call.stage = .over := by
  unfold stage
  cases htool : isGgTeamMcpToolName call.toolName with
  | false => rfl
  | true =>
    simp only [isHeld, isOutstanding, htool, Bool.true_and, Bool.or_eq_false_iff, Bool.not_eq_false'] at h
    obtain ⟨hreturned, hout⟩ := h
    cases hpoint : call.point with
    | pending approvalId => simp [hpoint, CallPoint.isReturned] at hreturned
    | resolved decision => simp [hpoint, CallPoint.isReturned] at hreturned
    | returned permission =>
      cases permission with
      | deny message => rfl
      | allow invocationId =>
        have hresulted : call.resulted = true := by simpa [hpoint] using hout
        cases invocationId <;> simp [hresulted]

theorem PermissionCall.of_inFlight {call : PermissionCall} {invocationId : String}
    (h : call.stage = .inFlight invocationId) :
    call.isOutstanding = true ∧ call.point = .returned (.allow (some invocationId)) := by
  unfold stage at h
  split at h
  · next htool =>
    split at h
    · exact absurd h (by simp)
    · exact absurd h (by simp)
    · next hpoint =>
      split at h
      · exact absurd h (by simp)
      · next hresulted =>
        obtain rfl := Stage.inFlight.inj h
        exact ⟨by simp [isOutstanding, htool, hpoint, hresulted], hpoint⟩
    · exact absurd h (by simp)
  · exact absurd h (by simp)

theorem PermissionCall.of_asked {call : PermissionCall} (h : call.stage = .asked) :
    isGgTeamMcpToolName call.toolName = true ∧ call.point.isReturned = false := by
  unfold stage at h
  split at h
  · next htool =>
    split at h
    · next hpoint => exact ⟨htool, by simp [hpoint, CallPoint.isReturned]⟩
    · next hpoint => exact ⟨htool, by simp [hpoint, CallPoint.isReturned]⟩
    · split at h <;> exact absurd h (by simp)
    · exact absurd h (by simp)
  · exact absurd h (by simp)

theorem PermissionCall.inFlight_of_outstanding {call : PermissionCall} (h : call.isOutstanding = true)
    (hgranted : isGgTeamMcpToolName call.toolName = true → call.point ≠ .returned (.allow none)) :
    ∃ invocationId, call.stage = .inFlight invocationId ∧ call.point = .returned (.allow (some invocationId)) := by
  simp only [isOutstanding, Bool.and_eq_true, Bool.not_eq_true'] at h
  obtain ⟨⟨htool, hresulted⟩, hallowed⟩ := h
  cases hpoint : call.point with
  | pending approvalId => simp [hpoint] at hallowed
  | resolved decision => simp [hpoint] at hallowed
  | returned permission =>
    cases permission with
    | deny message => simp [hpoint] at hallowed
    | allow invocationId =>
      cases invocationId with
      | none => exact absurd hpoint (hgranted htool)
      | some invocationId => exact ⟨invocationId, by simp [stage, htool, hpoint, hresulted], rfl⟩

namespace Client

variable {s s' s'' : Client} {i o k : ℕ} {l : Loop}

/-- The session object of loop `j`. -/
def objectOf (j : ℕ) (s : Client) : Option ℕ := (s.loops[j]?).map Loop.object

/-- Where call `k` stands with the gate of session object `o`; that of another object is over. -/
def stageOn (o k : ℕ) (s : Client) : Stage String :=
  ((s.calls[k]?).map fun call => if s.objectOf call.loop = some o then call.stage else .over).getD .over

theorem stageOn_of_call {call : PermissionCall} (hk : s.calls[k]? = some call) :
    s.stageOn o k = if s.objectOf call.loop = some o then call.stage else .over := by
  simp [stageOn, hk]

theorem stageOn_of_none (hk : s.calls[k]? = none) : s.stageOn o k = .over := by simp [stageOn, hk]

theorem call_of_stageOn (h : s.stageOn o k ≠ .over) :
    ∃ call, s.calls[k]? = some call ∧ s.objectOf call.loop = some o ∧ s.stageOn o k = call.stage := by
  cases hk : s.calls[k]? with
  | none => exact absurd (stageOn_of_none hk) h
  | some call =>
    rw [stageOn_of_call hk] at h
    split at h
    · next hobject => exact ⟨call, rfl, hobject, by rw [stageOn_of_call hk, if_pos hobject]⟩
    · exact absurd rfl h

def holdsCall (o : ℕ) (s : Client) : Bool := s.calls.any fun call => s.objectOf call.loop = some o && call.isHeld

theorem over_of_not_holdsCall (h : s.holdsCall o = false) (k : ℕ) : s.stageOn o k = .over := by
  cases hk : s.calls[k]? with
  | none => exact stageOn_of_none hk
  | some call =>
    rw [stageOn_of_call hk]
    split
    · next hobject =>
      simp only [holdsCall, List.any_eq_false, Bool.and_eq_true, decide_eq_true_eq, not_and, Bool.not_eq_true] at h
      exact PermissionCall.stage_of_not_held (h call (List.mem_of_getElem? hk) hobject)
    · rfl

/-! ## What holds of the gates -/

/-- The gates of the sessions fit the calls; an approval that is asked for is one of a call that waits for it. -/
structure Gates (s : Client) : Prop where
  loops : ∀ l ∈ s.loops, l.object < s.objects.length
  calls : ∀ call ∈ s.calls, call.loop < s.loops.length ∧ (call.point.isReturned = false → call.resulted = false) ∧
    (isGgTeamMcpToolName call.toolName = true → call.point ≠ .returned (.allow none))
  approvals : ∀ (o : ℕ) (session : SessionState) (a : PendingApproval), s.objects[o]? = some session →
    a ∈ session.pendingApprovals → ∃ call l, s.calls[a.call]? = some call ∧ call.point = .pending a.approvalId ∧
      s.loops[call.loop]? = some l ∧ l.object = o ∧ l.turnId = a.turnId
  gates : ∀ (o : ℕ) (session : SessionState), s.objects[o]? = some session →
    Gate (fun k => s.stageOn o k) session.ggTeamToolApprovalPending session.ggTeamToolInFlight
      session.ggTeamToolInvocationId

structure Fixed (s s' : Client) : Prop where
  calls : ∀ (k : ℕ) (call : PermissionCall), s.calls[k]? = some call → call.point.isReturned = true →
    ∃ call', s'.calls[k]? = some call' ∧ call'.point = call.point ∧ call'.loop = call.loop
  objects : ∀ (j o : ℕ), s.objectOf j = some o → s'.objectOf j = some o

theorem Fixed.refl (s : Client) : Fixed s s := ⟨fun _ call hk _ => ⟨call, hk, rfl, rfl⟩, fun _ _ h => h⟩

theorem Fixed.trans (h : Fixed s s') (h' : Fixed s' s'') : Fixed s s'' where
  calls := by
    intro k call hk hreturned
    obtain ⟨call', hk', hpoint', hloop'⟩ := h.calls k call hk hreturned
    obtain ⟨call'', hk'', hpoint'', hloop''⟩ := h'.calls k call' hk' (hpoint' ▸ hreturned)
    exact ⟨call'', hk'', hpoint''.trans hpoint', hloop''.trans hloop'⟩
  objects := fun j o hj => h'.objects j o (h.objects j o hj)

def Advances (s s' : Client) : Prop := Gates s → Gates s' ∧ Fixed s s'

theorem Advances.refl (s : Client) : Advances s s := fun h => ⟨h, .refl s⟩

theorem Advances.trans (h : Advances s s') (h' : Advances s' s'') : Advances s s'' := by
  intro hgates
  obtain ⟨hgates', hfixed⟩ := h hgates
  obtain ⟨hgates'', hfixed'⟩ := h' hgates'
  exact ⟨hgates'', hfixed.trans hfixed'⟩

theorem Gates.approval_eq (h : Gates s) {session : SessionState} (hs : s.objects[o]? = some session)
    {a b : PendingApproval} (ha : a ∈ session.pendingApprovals) (hb : b ∈ session.pendingApprovals)
    (he : a.call = b.call) :
    a = b := by
  obtain ⟨call, l, hcall, hpoint, hl, -, hid⟩ := h.approvals o session a hs ha
  obtain ⟨call', l', hcall', hpoint', hl', -, hid'⟩ := h.approvals o session b hs hb
  rw [he] at hcall
  obtain rfl := Option.some.inj (hcall.symm.trans hcall')
  obtain rfl := Option.some.inj (hl.symm.trans hl')
  have happroval : a.approvalId = b.approvalId := by
    rw [hpoint] at hpoint'
    exact CallPoint.pending.inj hpoint'
  cases a
  cases b
  simp_all

/-! ## Sections that leave the gates alone -/

structure SameGate (session session' : SessionState) : Prop where
  asking : session'.ggTeamToolApprovalPending = session.ggTeamToolApprovalPending
  flying : session'.ggTeamToolInFlight = session.ggTeamToolInFlight
  invocation : session'.ggTeamToolInvocationId = session.ggTeamToolInvocationId
  approvals : ∀ a ∈ session'.pendingApprovals, a ∈ session.pendingApprovals

theorem SameGate.refl (session : SessionState) : SameGate session session := ⟨rfl, rfl, rfl, fun _ ha => ha⟩

theorem SameGate.trans {a b c : SessionState} (h : SameGate a b) (h' : SameGate b c) : SameGate a c :=
  ⟨h'.asking.trans h.asking, h'.flying.trans h.flying, h'.invocation.trans h.invocation,
    fun x hx => h.approvals x (h'.approvals x hx)⟩

structure Calm (s s' : Client) : Prop where
  loops : s'.loops.map (fun l => (l.object, l.turnId)) = s.loops.map fun l => (l.object, l.turnId)
  calls : s'.calls = s.calls
  length : s'.objects.length = s.objects.length
  objects : ∀ (o : ℕ) (session' : SessionState), s'.objects[o]? = some session' →
    ∃ session, s.objects[o]? = some session ∧ SameGate session session'

theorem Calm.of_same (hloops : s'.loops = s.loops) (hcalls : s'.calls = s.calls) (hobjects : s'.objects = s.objects) :
    Calm s s' := by
  refine ⟨by rw [hloops], hcalls, by rw [hobjects], fun o session' hs => ⟨session', ?_, .refl _⟩⟩
  rw [← hobjects, hs]

theorem Calm.refl (s : Client) : Calm s s := .of_same rfl rfl rfl

theorem Calm.trans (h : Calm s s') (h' : Calm s' s'') : Calm s s'' where
  loops := h'.loops.trans h.loops
  calls := h'.calls.trans h.calls
  length := h'.length.trans h.length
  objects := by
    intro o session'' hs
    obtain ⟨session', hs', hsame'⟩ := h'.objects o session'' hs
    obtain ⟨session, hs, hsame⟩ := h.objects o session' hs'
    exact ⟨session, hs, hsame.trans hsame'⟩

theorem calm_onObject (o : ℕ) (f : SessionState → SessionState) (hf : ∀ session, SameGate session (f session)) :
    Calm s (s.onObject o f) := by
  refine ⟨rfl, rfl, by simp [onObject], fun o' session' hs => ?_⟩
  change (s.objects.modify o f)[o']? = some session' at hs
  rw [List.getElem?_modify] at hs
  obtain ⟨session, hsession, rfl⟩ := Option.map_eq_some_iff.mp hs
  refine ⟨session, hsession, ?_⟩
  split
  · exact hf session
  · exact .refl session

theorem calm_atPoint (i : ℕ) (point : LoopPoint) : Calm s (s.atPoint i point) := by
  refine ⟨?_, rfl, rfl, fun o session' hs => ⟨session', hs, .refl _⟩⟩
  apply List.ext_getElem?
  intro j
  change ((s.loops.modify i _).map _)[j]? = _
  rw [List.getElem?_map, List.getElem?_map, List.getElem?_modify]
  cases s.loops[j]? with
  | none => rfl
  | some l =>
    by_cases hj : i = j
    · simp [hj]
    · simp [hj]

theorem Calm.loop (h : Calm s s') (j : ℕ) :
    (s'.loops[j]?).map (fun l => (l.object, l.turnId)) = (s.loops[j]?).map fun l => (l.object, l.turnId) := by
  have hj := congrArg (fun ls => ls[j]?) h.loops
  simpa using hj

theorem Calm.objectOf (h : Calm s s') (j : ℕ) : s'.objectOf j = s.objectOf j := by
  have hj := congrArg (Option.map Prod.fst) (h.loop j)
  simpa [Client.objectOf, Option.map_map, Function.comp_def] using hj

theorem Calm.stageOn (h : Calm s s') (o k : ℕ) : s'.stageOn o k = s.stageOn o k := by
  simp [Client.stageOn, h.calls, h.objectOf]

theorem Calm.loops_length (h : Calm s s') : s'.loops.length = s.loops.length := by
  simpa using congrArg List.length h.loops

theorem Calm.advances (h : Calm s s') : Advances s s' := by
  intro hgates
  refine ⟨⟨?_, ?_, ?_, ?_⟩, ⟨?_, ?_⟩⟩
  · intro l' hl'
    obtain ⟨j, hj⟩ := List.mem_iff_getElem?.mp hl'
    have hloop := h.loop j
    rw [hj, Option.map_some, eq_comm, Option.map_eq_some_iff] at hloop
    obtain ⟨l, hl, he⟩ := hloop
    obtain ⟨hobject, -⟩ := Prod.mk.inj he
    rw [h.length, ← hobject]
    exact hgates.loops l (List.mem_of_getElem? hl)
  · intro call hc
    rw [h.calls] at hc
    rw [h.loops_length]
    exact hgates.calls call hc
  · intro o session' a hs ha
    obtain ⟨session, hs, hsame⟩ := h.objects o session' hs
    obtain ⟨call, l, hcall, hpoint, hl, hobject, hid⟩ := hgates.approvals o session a hs (hsame.approvals a ha)
    have hloop := h.loop call.loop
    rw [hl, Option.map_some, Option.map_eq_some_iff] at hloop
    obtain ⟨l', hl', he⟩ := hloop
    obtain ⟨hobject', hid'⟩ := Prod.mk.inj he
    exact ⟨call, l', h.calls ▸ hcall, hpoint, hl', hobject'.trans hobject, hid'.trans hid⟩
  · intro o session' hs
    obtain ⟨session, hs, hsame⟩ := h.objects o session' hs
    rw [hsame.asking, hsame.flying, hsame.invocation]
    simp only [h.stageOn]
    exact hgates.gates o session hs
  · intro k call hk _
    exact ⟨call, h.calls ▸ hk, rfl, rfl⟩
  · intro j o hj
    rw [h.objectOf, hj]

/-! ## Approvals that are answered -/

/-- Approvals of session object `o` that meet `p` are gone, and the calls of those that meet `q` are resolved. -/
structure Resolves (o : ℕ) (session : SessionState) (p q : PendingApproval → Bool) (decision : ApprovalDecision)
    (s s' : Client) : Prop where
  loops : s'.loops = s.loops
  objects : s'.objects = s.objects.modify o fun session =>
    { session with pendingApprovals := session.pendingApprovals.filter fun a => !p a }
  calls : ∀ k, s'.calls[k]? = (s.calls[k]?).map fun call =>
    if session.pendingApprovals.any fun a => q a && a.call = k then { call with point := .resolved decision } else call

theorem Resolves.objectOf {session : SessionState} {p q : PendingApproval → Bool} {decision : ApprovalDecision}
    (h : Resolves o session p q decision s s') (j : ℕ) : s'.objectOf j = s.objectOf j := by
  simp [Client.objectOf, h.loops]

theorem Gates.waits_of_any (h : Gates s) {session : SessionState} (hs : s.objects[o]? = some session)
    {q : PendingApproval → Bool} {call : PermissionCall} (hk : s.calls[k]? = some call)
    (hany : session.pendingApprovals.any (fun a => q a && a.call = k) = true) :
    ∃ approvalId, call.point = .pending approvalId := by
  obtain ⟨a, ha, hq⟩ := List.any_eq_true.mp hany
  simp only [Bool.and_eq_true, decide_eq_true_eq] at hq
  obtain ⟨call', l, hcall', hpoint, -⟩ := h.approvals o session a hs ha
  rw [hq.2] at hcall'
  obtain rfl := Option.some.inj (hk.symm.trans hcall')
  exact ⟨a.approvalId, hpoint⟩

theorem stage_resolved {call : PermissionCall} {approvalId : String} (hpoint : call.point = .pending approvalId)
    (decision : ApprovalDecision) :
    ({ call with point := .resolved decision } : PermissionCall).stage = call.stage := by
  simp [PermissionCall.stage, hpoint]

theorem Resolves.stageOn {session : SessionState} {p q : PendingApproval → Bool} {decision : ApprovalDecision}
    (h : Resolves o session p q decision s s') (hgates : Gates s) (hs : s.objects[o]? = some session) (o' k : ℕ) :
    s'.stageOn o' k = s.stageOn o' k := by
  have hcalls := h.calls k
  cases hk : s.calls[k]? with
  | none =>
    rw [hk] at hcalls
    rw [stageOn_of_none hcalls, stageOn_of_none hk]
  | some call =>
    rw [hk, Option.map_some] at hcalls
    rw [stageOn_of_call hcalls, stageOn_of_call hk, h.objectOf]
    split
    · next hany =>
      obtain ⟨approvalId, hpoint⟩ := hgates.waits_of_any hs hk hany
      rw [stage_resolved hpoint]
    · rfl

theorem Resolves.advances {session : SessionState} {p q : PendingApproval → Bool} {decision : ApprovalDecision}
    (h : Resolves o session p q decision s s') (hs : s.objects[o]? = some session)
    (hpq : ∀ a, q a = true → p a = true) :
    Advances s s' := by
  intro hgates
  have hback : ∀ (o' : ℕ) (session' : SessionState), s'.objects[o']? = some session' →
      ∃ session₀, s.objects[o']? = some session₀ ∧ SameGate session₀ session' ∧
        (o' = o → ∀ a ∈ session'.pendingApprovals, p a = false) := by
    intro o' session' hs'
    rw [h.objects, List.getElem?_modify] at hs'
    obtain ⟨session₀, hsession₀, rfl⟩ := Option.map_eq_some_iff.mp hs'
    refine ⟨session₀, hsession₀, ?_, ?_⟩
    · split
      · exact ⟨rfl, rfl, rfl, fun a ha => (List.mem_filter.mp ha).1⟩
      · exact .refl session₀
    · rintro rfl a ha
      rw [if_pos rfl] at ha
      simpa using (List.mem_filter.mp ha).2
  refine ⟨⟨?_, ?_, ?_, ?_⟩, ⟨?_, ?_⟩⟩
  · intro l hl
    rw [h.objects, List.length_modify]
    exact hgates.loops l (h.loops ▸ hl)
  · intro call' hc
    obtain ⟨k, hk⟩ := List.mem_iff_getElem?.mp hc
    rw [h.calls k] at hk
    obtain ⟨call, hcall, rfl⟩ := Option.map_eq_some_iff.mp hk
    obtain ⟨hloop, hresulted, hgranted⟩ := hgates.calls call (List.mem_of_getElem? hcall)
    rw [h.loops]
    split
    · next hany =>
      obtain ⟨approvalId, hpoint⟩ := hgates.waits_of_any hs hcall hany
      exact ⟨hloop, fun _ => hresulted (by simp [hpoint, CallPoint.isReturned]), fun _ => by simp⟩
    · exact ⟨hloop, hresulted, hgranted⟩
  · intro o' session' a hs' ha
    obtain ⟨session₀, hsession₀, hsame, hleft⟩ := hback o' session' hs'
    have ha₀ := hsame.approvals a ha
    obtain ⟨call, l, hcall, hpoint, hl, hobject, hid⟩ := hgates.approvals o' session₀ a hsession₀ ha₀
    have hcalls := h.calls a.call
    rw [hcall, Option.map_some] at hcalls
    -- an approval that is left is none of those that are answered
    have hnot : session.pendingApprovals.any (fun b => q b && b.call = a.call) = false := by
      by_contra hne
      rw [Bool.not_eq_false, List.any_eq_true] at hne
      obtain ⟨b, hb, hq⟩ := hne
      simp only [Bool.and_eq_true, decide_eq_true_eq] at hq
      obtain ⟨call', l', hcall', -, hl', hobject', -⟩ := hgates.approvals o session b hs hb
      rw [hq.2] at hcall'
      obtain rfl := Option.some.inj (hcall.symm.trans hcall')
      obtain rfl := Option.some.inj (hl.symm.trans hl')
      obtain rfl : o' = o := hobject.symm.trans hobject'
      obtain rfl := Option.some.inj (hs.symm.trans hsession₀)
      obtain rfl := hgates.approval_eq hs hb ha₀ hq.2
      exact absurd (hpq b hq.1) (by simp [hleft rfl b ha])
    rw [hnot] at hcalls
    exact ⟨call, l, hcalls, hpoint, h.loops ▸ hl, hobject, hid⟩
  · intro o' session' hs'
    obtain ⟨session₀, hsession₀, hsame, -⟩ := hback o' session' hs'
    rw [hsame.asking, hsame.flying, hsame.invocation]
    simp only [h.stageOn hgates hs]
    exact hgates.gates o' session₀ hsession₀
  · intro k call hk hreturned
    have hcalls := h.calls k
    rw [hk, Option.map_some] at hcalls
    refine ⟨_, hcalls, ?_⟩
    split
    · next hany =>
      obtain ⟨approvalId, hpoint⟩ := hgates.waits_of_any hs hk hany
      simp [hpoint, CallPoint.isReturned] at hreturned
    · exact ⟨rfl, rfl⟩
  · intro j o' hj
    rw [h.objectOf, hj]

theorem resolves_resolveApprovals {session : SessionState} (hs : s.objects[o]? = some session)
    (p : PendingApproval → Bool) :
    Resolves o session p p .decline s (s.resolveApprovals o p) where
  loops := by simp [resolveApprovals, hs, onObject]
  objects := by simp [resolveApprovals, hs, onObject]
  calls := by
    intro k
    simp [resolveApprovals, hs, List.getElem?_mapIdx, List.any_filter]

theorem advances_resolveApprovals (o : ℕ) (p : PendingApproval → Bool) : Advances s (s.resolveApprovals o p) := by
  cases hs : s.objects[o]? with
  | none =>
    simp only [resolveApprovals, hs]
    exact .refl s
  | some session => exact (resolves_resolveApprovals hs p).advances hs fun _ ha => ha

theorem advances_respondApproval {sessionId turnId approvalId : String} {decision : ApprovalDecision}
    (h : s.respondApproval sessionId turnId approvalId decision = .ok s') : Advances s s' := by
  obtain ⟨o, session, a, hs, hfind, rfl⟩ := respondApproval_spec h
  have ha := List.mem_of_find?_eq_some hfind
  have hfound := List.find?_some hfind
  simp only [Bool.decide_and, Bool.and_eq_true, decide_eq_true_eq] at hfound
  have hadvances : ∀ {t}, Resolves o session (fun b => b.approvalId = approvalId) (fun b => b = a) decision s t →
      Advances s t := fun hresolves => hresolves.advances hs fun b hb => by
    simp only [decide_eq_true_eq] at hb ⊢
    rw [hb, hfound.1]
  refine hadvances ⟨rfl, ?_, ?_⟩
  · simp [onObject]
  · intro k
    show (s.calls.modify a.call _)[k]? = _
    rw [List.getElem?_modify]
    have hany : session.pendingApprovals.any (fun b => (b = a : Bool) && b.call = k) = decide (a.call = k) := by
      by_cases hk : a.call = k
      · simp only [hk, decide_true, List.any_eq_true]
        exact ⟨a, ha, by simp [hk]⟩
      · simp only [hk, decide_false, List.any_eq_false]
        intro b _
        by_cases hb : b = a
        · simp [hb, hk]
        · simp [hb]
    simp only [hany, decide_eq_true_eq]
    rfl

theorem stageOn_resolveApprovals (h : Gates s) (o : ℕ) (p : PendingApproval → Bool) (o' k : ℕ) :
    (s.resolveApprovals o p).stageOn o' k = s.stageOn o' k := by
  cases hs : s.objects[o]? with
  | none => simp only [resolveApprovals, hs]
  | some session => exact (resolves_resolveApprovals hs p).stageOn h hs o' k

def Still (s s' : Client) : Prop := Advances s s' ∧ (Gates s → ∀ o k, s'.stageOn o k = s.stageOn o k)

theorem Still.trans (h : Still s s') (h' : Still s' s'') : Still s s'' :=
  ⟨h.1.trans h'.1, fun hgates o k => (h'.2 (h.1 hgates).1 o k).trans (h.2 hgates o k)⟩

theorem Calm.still (h : Calm s s') : Still s s' := ⟨h.advances, fun _ => h.stageOn⟩

theorem still_resolveApprovals (o : ℕ) (p : PendingApproval → Bool) : Still s (s.resolveApprovals o p) :=
  ⟨advances_resolveApprovals o p, fun h => stageOn_resolveApprovals h o p⟩

theorem still_completeTurn (o : ℕ) (result : TurnResult) : Still s (s.completeTurn o result) := by
  unfold completeTurn
  split
  · exact (Calm.refl s).still
  · have hresolve : Still s (s.resolvePendingApprovalsForTurn o result.turnId) := still_resolveApprovals o _
    have hobject := calm_onObject (s := s.resolvePendingApprovalsForTurn o result.turnId) o (completedState result)
      fun _ => ⟨rfl, rfl, rfl, fun _ ha => ha⟩
    exact (hresolve.trans hobject.still).trans (Calm.still (.of_same rfl rfl rfl))

theorem still_endTurn (i : ℕ) (l : Loop) (status : TurnTerminalStatus) : Still s (s.endTurn i l status) := by
  refine Still.trans (Calm.still ?_) (still_completeTurn _ _)
  exact calm_onObject _ _ fun _ => ⟨rfl, rfl, rfl, fun _ ha => ha⟩

/-! ## Sessions and turns that are added -/

theorem Gates.stageOn_new (h : Gates s) (ho : s.objects.length ≤ o) (k : ℕ) : s.stageOn o k = .over := by
  cases hk : s.calls[k]? with
  | none => exact stageOn_of_none hk
  | some call =>
    rw [stageOn_of_call hk]
    split
    · next hobject =>
      obtain ⟨l, hl, rfl⟩ := Option.map_eq_some_iff.mp hobject
      have hlt := h.loops l (List.mem_of_getElem? hl)
      omega
    · rfl

theorem advances_addObject (sessions : Table String ℕ) (sessionId : String) (nextSession : ℕ) :
    Advances s { s with
      sessions := sessions, objects := s.objects ++ [createSessionState sessionId], nextSession := nextSession } := by
  intro h
  have hold : ∀ (o : ℕ) (session : SessionState), (s.objects ++ [createSessionState sessionId])[o]? = some session →
      s.objects[o]? = some session ∨ (s.objects.length ≤ o ∧ session = createSessionState sessionId) := by
    intro o session hs
    rw [List.getElem?_append] at hs
    split at hs
    · exact .inl hs
    · exact .inr ⟨by omega, List.mem_singleton.mp (List.mem_of_getElem? hs)⟩
  refine ⟨⟨?_, h.calls, ?_, ?_⟩, ⟨fun k call hk _ => ⟨call, hk, rfl, rfl⟩, fun _ _ hj => hj⟩⟩
  · intro l hl
    have hlt := h.loops l hl
    simp only [List.length_append, List.length_singleton]
    omega
  · intro o session a hs ha
    obtain hs | ⟨-, rfl⟩ := hold o session hs
    · exact h.approvals o session a hs ha
    · simp [createSessionState] at ha
  · intro o session hs
    obtain hs | ⟨ho, rfl⟩ := hold o session hs
    · exact h.gates o session hs
    · exact .free fun k => h.stageOn_new ho k

theorem advances_addLoop (hs : o < s.objects.length) (turnId : String)
    (hloops : s'.loops = s.loops ++ [⟨o, turnId, .prewarming⟩]) (hcalls : s'.calls = s.calls)
    (hobjects : s'.objects = s.objects) : Advances s s' := by
  intro h
  have hkeep : ∀ (j : ℕ) (l : Loop), s.loops[j]? = some l → s'.loops[j]? = some l := by
    intro j l hj
    rw [hloops, List.getElem?_append_left (List.getElem?_eq_some_iff.mp hj).1, hj]
  have hobject : ∀ call ∈ s.calls, s'.objectOf call.loop = s.objectOf call.loop := by
    intro call hc
    obtain ⟨hlt, -⟩ := h.calls call hc
    simp only [objectOf]
    rw [hloops, List.getElem?_append_left hlt]
  have hstage : ∀ o' k, s'.stageOn o' k = s.stageOn o' k := by
    intro o' k
    cases hk : s.calls[k]? with
    | none => rw [stageOn_of_none hk, stageOn_of_none (hcalls ▸ hk)]
    | some call =>
      have hk' : s'.calls[k]? = some call := hcalls ▸ hk
      rw [stageOn_of_call hk, stageOn_of_call hk', hobject call (List.mem_of_getElem? hk)]
  refine ⟨⟨?_, ?_, ?_, ?_⟩, ⟨fun k call hk _ => ⟨call, hcalls ▸ hk, rfl, rfl⟩, ?_⟩⟩
  · intro l hl
    rw [hloops] at hl
    rw [hobjects]
    obtain hl | hl := List.mem_append.mp hl
    · exact h.loops l hl
    · obtain rfl := List.mem_singleton.mp hl
      exact hs
  · intro call hc
    obtain ⟨hlt, hrest⟩ := h.calls call (hcalls ▸ hc)
    refine ⟨?_, hrest⟩
    rw [hloops, List.length_append, List.length_singleton]
    omega
  · intro o' session a hs' ha
    obtain ⟨call, l, hcall, hpoint, hl, hrest⟩ := h.approvals o' session a (hobjects ▸ hs') ha
    exact ⟨call, l, hcalls ▸ hcall, hpoint, hkeep _ l hl, hrest⟩
  · intro o' session hs'
    simp only [hstage]
    exact h.gates o' session (hobjects ▸ hs')
  · intro j o' hj
    obtain ⟨l, hl, rfl⟩ := Option.map_eq_some_iff.mp hj
    simp [objectOf, hkeep j l hl]

theorem advances_sendInput (sessionId : String) (expectedTurnId : Option String) :
    Advances s (s.request ((s.sendInput sessionId expectedTurnId).map Prod.snd)) := by
  rw [sendInput_cases]
  cases hstarted : s.startedBy sessionId expectedTurnId with
  | none => exact .refl s
  | some started =>
    obtain ⟨o, turnId⟩ := started
    obtain ⟨-, ⟨session, hs, -⟩, -⟩ := startedBy_object hstarted
    have hlt := (List.getElem?_eq_some_iff.mp hs).1
    have hstart : Calm s (s.onObject o (startedState turnId)) :=
      calm_onObject o _ fun _ => ⟨rfl, rfl, rfl, fun _ ha => ha⟩
    refine hstart.advances.trans (advances_addLoop (o := o) ?_ turnId rfl rfl rfl)
    rwa [hstart.length]

/-! ## Gates that are cleared -/

theorem advances_clear {f : SessionState → SessionState} (hover : ∀ k, s.stageOn o k = .over)
    (hf : ∀ session, (f session).ggTeamToolApprovalPending = false ∧ (f session).ggTeamToolInFlight = false ∧
      (f session).ggTeamToolInvocationId = none ∧ ∀ a ∈ (f session).pendingApprovals, a ∈ session.pendingApprovals) :
    Advances s (s.onObject o f) := by
  intro h
  have hobjects : ∀ o', (s.onObject o f).objects[o']? = (s.objects[o']?).map fun session =>
      if o = o' then f session else session := fun o' => List.getElem?_modify ..
  refine ⟨⟨?_, h.calls, ?_, ?_⟩, ⟨fun k call hk _ => ⟨call, hk, rfl, rfl⟩, fun _ _ hj => hj⟩⟩
  · intro l hl
    simp only [onObject, List.length_modify]
    exact h.loops l hl
  · intro o' session' a hs ha
    rw [hobjects] at hs
    obtain ⟨session, hsession, rfl⟩ := Option.map_eq_some_iff.mp hs
    refine h.approvals o' session a hsession ?_
    split at ha
    · exact (hf session).2.2.2 a ha
    · exact ha
  · intro o' session' hs
    rw [hobjects] at hs
    obtain ⟨session, hsession, rfl⟩ := Option.map_eq_some_iff.mp hs
    split
    · next he =>
      obtain ⟨hasking, hflying, hinvocation, -⟩ := hf session
      rw [hasking, hflying, hinvocation]
      exact .free fun k => he ▸ hover k
    · exact h.gates o' session hsession

/-! ## Results -/

/-- A final result that `gg_team` tools have is that of the call in flight, and the other way round. -/
def isOwn (i o : ℕ) (toolItems : Option (Table String String)) (r : ToolResult) (s : Client) : Bool :=
  !ToolResult.final r || s.calls.all fun call =>
    !decide (s.objectOf call.loop = some o) || !call.isOutstanding || isGgTeamResult toolItems r == isResultOf i r call

def resultsOwn (i o : ℕ) (toolItems : Option (Table String String)) : List ToolResult → Client → Bool
  | [], _ => true
  | r :: rest, s => (isGgTeamResult toolItems r && r.streamClosed) ||
      (s.isOwn i o toolItems r && resultsOwn i o toolItems rest (s.noteResult i r))

theorem resultsOwn_congr (toolItems : Option (Table String String)) (results : List ToolResult)
    (hcalls : s'.calls = s.calls) (hloops : s'.loops = s.loops) :
    resultsOwn i o toolItems results s' = resultsOwn i o toolItems results s := by
  induction results generalizing s s' with
  | nil => rfl
  | cons r rest ih =>
    have hrest : resultsOwn i o toolItems rest (s'.noteResult i r) = resultsOwn i o toolItems rest (s.noteResult i r) :=
      ih (by simp [noteResult, hcalls]) hloops
    have hobject : ∀ j, s'.objectOf j = s.objectOf j := fun j => by simp [objectOf, hloops]
    simp only [resultsOwn, isOwn, hcalls, hobject, hrest]

theorem isOwn_iff {toolItems : Option (Table String String)} {r : ToolResult} (h : s.isOwn i o toolItems r = true)
    (hfinal : ToolResult.final r = true) {call : PermissionCall} (hc : call ∈ s.calls)
    (hobject : s.objectOf call.loop = some o) (hout : call.isOutstanding = true) :
    isResultOf i r call = isGgTeamResult toolItems r := by
  simp only [isOwn, hfinal, Bool.not_true, Bool.false_or, List.all_eq_true] at h
  have hcall := h call hc
  simp only [hobject, decide_true, Bool.not_true, hout, Bool.false_or, beq_iff_eq] at hcall
  exact hcall.symm

theorem noteResult_of_not_final {r : ToolResult} (h : ToolResult.final r = false) : s.noteResult i r = s := by
  simp [noteResult, isResultOf, h]

theorem stage_noted (i : ℕ) (r : ToolResult) (call : PermissionCall) :
    (if isResultOf i r call then { call with resulted := true } else call).stage =
      if isResultOf i r call then .over else call.stage := by
  split
  · next h =>
    simp only [isResultOf, Bool.and_eq_true, decide_eq_true_eq] at h
    unfold PermissionCall.stage
    cases hpoint : call.point with
    | pending approvalId => simp [hpoint, CallPoint.isReturned] at h
    | resolved decision => simp [hpoint, CallPoint.isReturned] at h
    | returned permission =>
      cases permission with
      | deny message => simp
      | allow invocationId => cases invocationId <;> simp
  · rfl

@[simp] theorem objectOf_noteResult (i j : ℕ) (r : ToolResult) : (s.noteResult i r).objectOf j = s.objectOf j := rfl

theorem stageOn_noteResult (i o k : ℕ) (r : ToolResult) :
    (s.noteResult i r).stageOn o k = if (s.calls[k]?).any (isResultOf i r) then .over else s.stageOn o k := by
  have hcalls : (s.noteResult i r).calls[k]? = (s.calls[k]?).map fun call =>
      if isResultOf i r call then { call with resulted := true } else call := List.getElem?_map ..
  cases hk : s.calls[k]? with
  | none =>
    rw [hk] at hcalls
    simp [stageOn_of_none hcalls, stageOn_of_none hk]
  | some call =>
    rw [hk, Option.map_some] at hcalls
    rw [stageOn_of_call hcalls, stageOn_of_call hk, stage_noted]
    cases hresult : isResultOf i r call with
    | false => simp [hresult]
    | true => simp [hresult]

theorem stageOn_noteResult_asked {r : ToolResult} (h : s.stageOn o k = .asked) :
    (s.noteResult i r).stageOn o k = .asked := by
  obtain ⟨call, hk, -, hstage⟩ := call_of_stageOn (k := k) (o := o) (s := s) (by simp [h])
  obtain ⟨-, hreturned⟩ := PermissionCall.of_asked (hstage.symm.trans h)
  rw [stageOn_noteResult, hk, h]
  simp [isResultOf, hreturned]

theorem stageOn_noteResult_over {r : ToolResult} (h : s.stageOn o k = .over) :
    (s.noteResult i r).stageOn o k = .over := by
  rw [stageOn_noteResult, h]
  split <;> rfl

theorem Gates.gates_modify (h : Gates s) {f : SessionState → SessionState}
    (hobjects : s'.objects = s.objects.modify o f)
    (hothers : ∀ o', o' ≠ o → ∀ k, s'.stageOn o' k = s.stageOn o' k)
    (hgate : ∀ session, s.objects[o]? = some session →
      Gate (fun k => s'.stageOn o k) (f session).ggTeamToolApprovalPending
      (f session).ggTeamToolInFlight (f session).ggTeamToolInvocationId) :
    ∀ (o' : ℕ) (session' : SessionState), s'.objects[o']? = some session' →
      Gate (fun k => s'.stageOn o' k) session'.ggTeamToolApprovalPending session'.ggTeamToolInFlight
        session'.ggTeamToolInvocationId := by
  intro o' session' hs
  rw [hobjects, List.getElem?_modify] at hs
  obtain ⟨session, hsession, rfl⟩ := Option.map_eq_some_iff.mp hs
  split
  · next he =>
    subst he
    exact hgate session hsession
  · next hne =>
    simp only [hothers o' (Ne.symm hne)]
    exact h.gates o' session hsession

theorem advances_noteResult (hi : s.loops[i]? = some l) (r : ToolResult) {f : SessionState → SessionState}
    (hf : ∀ session, (f session).pendingApprovals = session.pendingApprovals)
    (hgate : ∀ session, s.objects[l.object]? = some session →
      Gate (fun k => s.stageOn l.object k) session.ggTeamToolApprovalPending session.ggTeamToolInFlight
        session.ggTeamToolInvocationId →
      Gate (fun k => (s.noteResult i r).stageOn l.object k) (f session).ggTeamToolApprovalPending
        (f session).ggTeamToolInFlight (f session).ggTeamToolInvocationId) :
    Advances s ((s.noteResult i r).onObject l.object f) := by
  intro h
  have hmark : ∀ (k : ℕ) (call : PermissionCall), s.calls[k]? = some call →
    ∃ call', (s.noteResult i r).calls[k]? = some call' ∧
      call'.point = call.point ∧ call'.loop = call.loop := by
    intro k call hk
    refine ⟨_, by rw [show (s.noteResult i r).calls[k]? = _ from List.getElem?_map .., hk, Option.map_some], ?_⟩
    split <;> exact ⟨rfl, rfl⟩
  refine ⟨⟨?_, ?_, ?_, ?_⟩, ⟨fun k call hk _ => hmark k call hk, fun _ _ hj => hj⟩⟩
  · intro l' hl'
    simp only [onObject, List.length_modify]
    exact h.loops l' hl'
  · intro call' hc
    obtain ⟨call, hcall, rfl⟩ := List.mem_map.mp hc
    obtain ⟨hlt, hresulted, hgranted⟩ := h.calls call hcall
    split
    · next hresult =>
      simp only [isResultOf, Bool.and_eq_true, decide_eq_true_eq] at hresult
      exact ⟨hlt, fun hnot => absurd hnot (by simp [hresult]), hgranted⟩
    · exact ⟨hlt, hresulted, hgranted⟩
  · intro o session' a hs ha
    change (s.objects.modify l.object f)[o]? = some session' at hs
    rw [List.getElem?_modify] at hs
    obtain ⟨session, hsession, rfl⟩ := Option.map_eq_some_iff.mp hs
    have ha' : a ∈ session.pendingApprovals := by
      split at ha
      · exact hf session ▸ ha
      · exact ha
    obtain ⟨call, l', hcall, hpoint, hrest⟩ := h.approvals o session a hsession ha'
    obtain ⟨call', hcall', hpoint', hloop'⟩ := hmark a.call call hcall
    exact ⟨call', l', hcall', hpoint'.trans hpoint, hloop' ▸ hrest⟩
  · refine h.gates_modify rfl ?_ fun session hs => hgate session hs (h.gates _ _ hs)
    -- the calls of the loop are calls of its own session object
    intro o hne k
    show (s.noteResult i r).stageOn o k = _
    cases hk : s.calls[k]? with
    | none =>
      rw [stageOn_noteResult, hk]
      rfl
    | some call =>
      cases hresult : isResultOf i r call with
      | false => simp [stageOn_noteResult, hk, hresult]
      | true =>
        have hown : call.loop = i := by
          simp only [isResultOf, Bool.and_eq_true, decide_eq_true_eq] at hresult
          exact hresult.1.1.1
        have hobject : s.objectOf call.loop = some l.object := by simp [objectOf, hown, hi]
        have hover : s.stageOn o k = .over := by
          rw [stageOn_of_call hk, hobject, if_neg]
          simpa using Ne.symm hne
        rw [stageOn_noteResult_over hover, hover]

theorem advances_openGate (hi : s.loops[i]? = some l) {toolItems : Option (Table String String)} {r : ToolResult}
    (hgg : isGgTeamResult toolItems r = true) (hfinal : ToolResult.final r = true)
    (hown : s.isOwn i l.object toolItems r = true) : Advances s ((s.noteResult i r).onObject l.object openGate) := by
  refine advances_noteResult hi r (fun _ => rfl) fun session hs hgate => ?_
  generalize hasking : session.ggTeamToolApprovalPending = asking at hgate
  generalize session.ggTeamToolInFlight = flying at hgate
  generalize session.ggTeamToolInvocationId = invocationId at hgate
  simp only [openGate, hasking]
  cases hgate with
  | free hover => exact .free fun k => stageOn_noteResult_over (hover k)
  | asked k hk hothers =>
    exact .asked k (stageOn_noteResult_asked hk) fun j hj => stageOn_noteResult_over (hothers j hj)
  | inFlight k token hk hothers =>
    refine .free fun j => ?_
    by_cases hj : j = k
    · obtain ⟨call, hcall, hobject, hstage⟩ := call_of_stageOn (k := k) (o := l.object) (s := s) (by simp [hk])
      obtain ⟨hout, -⟩ := PermissionCall.of_inFlight (hstage.symm.trans hk)
      have hresult := (isOwn_iff hown hfinal (List.mem_of_getElem? hcall) hobject hout).trans hgg
      rw [hj, stageOn_noteResult, hcall, Option.any_some, hresult, if_pos rfl]
    · exact stageOn_noteResult_over (hothers j hj)

theorem advances_otherResult (hi : s.loops[i]? = some l) {toolItems : Option (Table String String)} {r : ToolResult}
    (hgg : isGgTeamResult toolItems r = false) (hown : s.isOwn i l.object toolItems r = true) :
    Advances s (s.noteResult i r) := by
  cases hfinal : ToolResult.final r with
  | false =>
    rw [noteResult_of_not_final hfinal]
    exact .refl s
  | true =>
    have hsame : (s.noteResult i r).onObject l.object id = s.noteResult i r := by simp [onObject, List.modify_id]
    rw [← hsame]
    refine advances_noteResult hi r (fun _ => rfl) fun session hs hgate => ?_
    have hstage : ∀ k, (s.noteResult i r).stageOn l.object k = s.stageOn l.object k := by
      intro k
      cases hk : s.stageOn l.object k with
      | «over» => exact stageOn_noteResult_over hk
      | asked => exact stageOn_noteResult_asked hk
      | inFlight token =>
        obtain ⟨call, hcall, hobject, hstage⟩ := call_of_stageOn (k := k) (o := l.object) (s := s) (by simp [hk])
        obtain ⟨hout, -⟩ := PermissionCall.of_inFlight (hstage.symm.trans hk)
        have hresult := (isOwn_iff hown hfinal (List.mem_of_getElem? hcall) hobject hout).trans hgg
        rw [stageOn_noteResult, hcall, Option.any_some, hresult, hk]
        rfl
    simp only [hstage]
    exact hgate

theorem advances_processResults (hi : s.loops[i]? = some l) (toolItems : Option (Table String String))
    (results : List ToolResult) (hown : resultsOwn i l.object toolItems results s = true) :
    Advances s (s.processResults i l toolItems results) := by
  induction results generalizing s with
  | nil => exact (calm_atPoint i .reading).advances
  | cons r rest ih =>
    simp only [resultsOwn, Bool.or_eq_true, Bool.and_eq_true] at hown
    unfold processResults
    split
    · next hgg =>
      split
      · exact (calm_atPoint i _).advances
      · next hopen =>
        obtain ⟨-, hclosed⟩ | ⟨hfirst, hrest⟩ := hown
        · exact absurd hclosed hopen
        split
        · next hfinal =>
          refine (advances_openGate hi hgg hfinal hfirst).trans (ih hi ?_)
          have hsame : resultsOwn i l.object toolItems rest ((s.noteResult i r).onObject l.object openGate) =
              resultsOwn i l.object toolItems rest (s.noteResult i r) := resultsOwn_congr toolItems rest rfl rfl
          exact hsame.trans hrest
        · next hfinal =>
          rw [noteResult_of_not_final (by simpa using hfinal)] at hrest
          exact ih hi hrest
    · next hgg =>
      obtain ⟨hgg', -⟩ | ⟨hfirst, hrest⟩ := hown
      · exact absurd hgg' hgg
      exact (advances_otherResult hi (by simpa using hgg) hfirst).trans (ih hi hrest)

/-! ## Permission requests -/

theorem stageOn_addCall {call : PermissionCall} (hcalls : s'.calls = s.calls ++ [call]) (hloops : s'.loops = s.loops)
    (hne : k ≠ s.calls.length) : s'.stageOn o k = s.stageOn o k := by
  have hobject : ∀ j, s'.objectOf j = s.objectOf j := fun j => by simp [objectOf, hloops]
  have hcall : s'.calls[k]? = s.calls[k]? := by
    rw [hcalls]
    obtain hlt | hle := Nat.lt_or_ge k s.calls.length
    · rw [List.getElem?_append_left hlt]
    · rw [List.getElem?_eq_none hle, List.getElem?_eq_none (by simp; omega)]
  simp only [stageOn, hobject, hcall]

theorem stageOn_new {call : PermissionCall} (hcalls : s'.calls = s.calls ++ [call])
    (hloops : s'.loops = s.loops) (o : ℕ) :
    s'.stageOn o s.calls.length = if s.objectOf call.loop = some o then call.stage else .over := by
  simp [stageOn, objectOf, hcalls, hloops]

theorem advances_addCall (hi : s.loops[i]? = some l) (call : PermissionCall) {f : SessionState → SessionState}
    (hloop : call.loop = i) (hresulted : call.resulted = false) (hgranted : call.point ≠ .returned (.allow none))
    (hloops : s'.loops = s.loops) (hcalls : s'.calls = s.calls ++ [call])
    (hobjects : s'.objects = s.objects.modify l.object f)
    (hf : ∀ session, ∀ a ∈ (f session).pendingApprovals, a ∈ session.pendingApprovals ∨
      (a.call = s.calls.length ∧ call.point = .pending a.approvalId ∧ l.turnId = a.turnId))
    (hgate : ∀ session stage', s.objects[l.object]? = some session →
      (∀ j, j ≠ s.calls.length → stage' j = s.stageOn l.object j) → stage' s.calls.length = call.stage →
      s.stageOn l.object s.calls.length = .over →
      Gate (fun k => s.stageOn l.object k) session.ggTeamToolApprovalPending session.ggTeamToolInFlight
        session.ggTeamToolInvocationId →
      Gate stage' (f session).ggTeamToolApprovalPending (f session).ggTeamToolInFlight
        (f session).ggTeamToolInvocationId) : Advances s s' := by
  intro h
  have hkeep : ∀ (k : ℕ) (c : PermissionCall), s.calls[k]? = some c → s'.calls[k]? = some c := by
    intro k c hk
    rw [hcalls, List.getElem?_append_left (List.getElem?_eq_some_iff.mp hk).1, hk]
  have hobject : s.objectOf i = some l.object := by simp [objectOf, hi]
  refine ⟨⟨?_, ?_, ?_, ?_⟩, ⟨fun k c hk _ => ⟨c, hkeep k c hk, rfl, rfl⟩, ?_⟩⟩
  · intro l' hl'
    rw [hobjects, List.length_modify]
    exact h.loops l' (hloops ▸ hl')
  · intro c hc
    rw [hloops]
    rw [hcalls] at hc
    obtain hc | hc := List.mem_append.mp hc
    · exact h.calls c hc
    · obtain rfl := List.mem_singleton.mp hc
      exact ⟨hloop ▸ (List.getElem?_eq_some_iff.mp hi).1, fun _ => hresulted, fun _ => hgranted⟩
  · intro o session' a hs ha
    rw [hobjects, List.getElem?_modify] at hs
    obtain ⟨session, hsession, rfl⟩ := Option.map_eq_some_iff.mp hs
    have hold : a ∈ session.pendingApprovals → ∃ c l, s'.calls[a.call]? = some c ∧ c.point = .pending a.approvalId ∧
        s'.loops[c.loop]? = some l ∧ l.object = o ∧ l.turnId = a.turnId := by
      intro ha
      obtain ⟨c, l', hc, hpoint, hl', hrest⟩ := h.approvals o session a hsession ha
      exact ⟨c, l', hkeep _ c hc, hpoint, hloops ▸ hl', hrest⟩
    split at ha
    · next he =>
      obtain ha | ⟨hcall, hpoint, hid⟩ := hf session a ha
      · exact hold ha
      · refine ⟨call, l, ?_, hpoint, ?_, he, hid⟩
        · rw [hcalls, hcall]
          simp
        · rw [hloops, hloop, hi]
    · exact hold ha
  · have hbefore : ∀ o, s.stageOn o s.calls.length = .over := fun o => stageOn_of_none (by simp)
    refine h.gates_modify hobjects ?_ fun session hs =>
      hgate session _ hs (fun j hj => stageOn_addCall hcalls hloops hj) ?_ (hbefore _) (h.gates _ _ hs)
    · intro o hne k
      by_cases hk : k = s.calls.length
      · rw [hk, stageOn_new hcalls hloops, hloop, hobject, if_neg (by simpa using Ne.symm hne), hbefore]
      · exact stageOn_addCall hcalls hloops hk
    · show s'.stageOn l.object s.calls.length = _
      rw [stageOn_new hcalls hloops, hloop, if_pos hobject]
  · intro j o hj
    simp only [objectOf, hloops]
    exact hj

theorem advances_deny (hi : s.loops[i]? = some l) (toolUseId toolName message : String) :
    Advances s (s.addCall i toolUseId toolName (.returned (.deny message))) := by
  refine advances_addCall (f := id) hi _ rfl rfl (by simp) rfl rfl (by simp [addCall, List.modify_id])
    (fun _ _ ha => .inl ha) fun session stage' _ hothers hnew hbefore hgate => ?_
  refine hgate.pass hothers hbefore ?_
  rw [hnew]
  simp [PermissionCall.stage]

theorem advances_permit {toolUseId toolName : String} (hs : s.permit i toolUseId toolName = some s') :
    Advances s s' := by
  obtain ⟨l, session, hi, -, hsession, ⟨message, rfl⟩ | ⟨hopen, rfl⟩⟩ := permit_spec hs
  · exact advances_deny hi _ _ message
  refine advances_addCall hi ⟨i, toolUseId, toolName, .pending (numbered "approval" s.nextApproval), false⟩
    rfl rfl (by simp) rfl rfl rfl ?_ ?_
  · intro session a ha
    obtain ha | ha := List.mem_append.mp ha
    · exact .inl ha
    · obtain rfl := List.mem_singleton.mp ha
      exact .inr ⟨rfl, rfl, rfl⟩
  · intro session' stage' hsession' hothers hnew hbefore hgate
    obtain rfl := Option.some.inj (hsession.symm.trans hsession')
    cases htool : isGgTeamMcpToolName toolName with
    | false =>
      simp only [Bool.or_false]
      refine hgate.pass hothers hbefore ?_
      rw [hnew]
      simp [PermissionCall.stage, htool]
    | true =>
      simp only [htool, Bool.true_and, Bool.or_eq_true, not_or, Bool.not_eq_true] at hopen
      rw [hopen.1, hopen.2] at hgate
      simp only [Bool.or_true, hopen.2]
      refine hgate.ask hothers ?_
      rw [hnew]
      simp [PermissionCall.stage, htool]

theorem advances_returnCall {call : PermissionCall} {decision : ApprovalDecision} {permission : Permission}
    (hk : s.calls[k]? = some call) (hpoint : call.point = .resolved decision) (hl : s.loops[call.loop]? = some l)
    {f : SessionState → SessionState} (hloops : s'.loops = s.loops)
    (hcalls : s'.calls = s.calls.modify k fun call => { call with point := .returned permission })
    (hobjects : s'.objects = s.objects.modify l.object f)
    (hf : ∀ session, (f session).pendingApprovals = session.pendingApprovals)
    (hgranted : isGgTeamMcpToolName call.toolName = true → permission ≠ .allow none)
    (hgate : ∀ session stage', s.objects[l.object]? = some session →
      (∀ j, j ≠ k → stage' j = s.stageOn l.object j) → s.stageOn l.object k = call.stage →
      stage' k = ({ call with point := .returned permission } : PermissionCall).stage → call.resulted = false →
      Gate (fun k => s.stageOn l.object k) session.ggTeamToolApprovalPending session.ggTeamToolInFlight
        session.ggTeamToolInvocationId →
      Gate stage' (f session).ggTeamToolApprovalPending (f session).ggTeamToolInFlight
        (f session).ggTeamToolInvocationId) : Advances s s' := by
  intro h
  obtain ⟨hlt, hresulted, -⟩ := h.calls call (List.mem_of_getElem? hk)
  have hcallsAt : ∀ j, s'.calls[j]? = (s.calls[j]?).map fun call =>
      if k = j then { call with point := .returned permission } else call := by
    intro j
    rw [hcalls, List.getElem?_modify]
    rfl
  have hobjectOf : ∀ j, s'.objectOf j = s.objectOf j := fun j => by simp [objectOf, hloops]
  have hobject : s.objectOf call.loop = some l.object := by simp [objectOf, hl]
  have hother : ∀ o j, j ≠ k → s'.stageOn o j = s.stageOn o j := by
    intro o j hj
    have hsame : s'.calls[j]? = s.calls[j]? := by
      rw [hcallsAt]
      simp [Ne.symm hj]
    simp only [stageOn, hsame, hobjectOf]
  have hnew : s'.calls[k]? = some { call with point := .returned permission } := by simp [hcallsAt, hk]
  refine ⟨⟨?_, ?_, ?_, ?_⟩, ⟨?_, fun j o hj => by rw [hobjectOf, hj]⟩⟩
  · intro l' hl'
    rw [hobjects, List.length_modify]
    exact h.loops l' (hloops ▸ hl')
  · intro c' hc
    obtain ⟨j, hj⟩ := List.mem_iff_getElem?.mp hc
    rw [hcallsAt] at hj
    obtain ⟨c, hcall, rfl⟩ := Option.map_eq_some_iff.mp hj
    rw [hloops]
    split
    · next he =>
      subst he
      obtain rfl := Option.some.inj (hk.symm.trans hcall)
      exact ⟨hlt, fun hnot => absurd hnot (by simp [CallPoint.isReturned]), fun htool => by simpa using hgranted htool⟩
    · exact h.calls c (List.mem_of_getElem? hcall)
  · intro o session' a hs ha
    rw [hobjects, List.getElem?_modify] at hs
    obtain ⟨session, hsession, rfl⟩ := Option.map_eq_some_iff.mp hs
    have ha' : a ∈ session.pendingApprovals := by
      split at ha
      · exact hf session ▸ ha
      · exact ha
    obtain ⟨c, l', hc, hcpoint, hl', hrest⟩ := h.approvals o session a hsession ha'
    -- the call of a pending approval is another one
    have hne : k ≠ a.call := by
      rintro rfl
      obtain rfl := Option.some.inj (hk.symm.trans hc)
      rw [hpoint] at hcpoint
      exact absurd hcpoint (by simp)
    exact ⟨c, l', by simp [hcallsAt, hc, hne], hcpoint, hloops ▸ hl', hrest⟩
  · refine h.gates_modify hobjects ?_ fun session hs =>
      hgate session _ hs (fun j hj => hother _ j hj) ?_ ?_ (hresulted (by simp [hpoint, CallPoint.isReturned]))
        (h.gates _ _ hs)
    · intro o hne j
      by_cases hj : j = k
      · rw [hj, stageOn_of_call hnew, stageOn_of_call hk, hobjectOf, hobject, if_neg (by simpa using Ne.symm hne),
          if_neg (by simpa using Ne.symm hne)]
      · exact hother o j hj
    · rw [stageOn_of_call hk, if_pos hobject]
    · show s'.stageOn l.object k = _
      rw [stageOn_of_call hnew, hobjectOf, if_pos hobject]
  · intro j c hj hreturned
    have hne : k ≠ j := by
      rintro rfl
      obtain rfl := Option.some.inj (hk.symm.trans hj)
      simp [hpoint, CallPoint.isReturned] at hreturned
    exact ⟨c, by simp [hcallsAt, hj, hne], rfl, rfl⟩

theorem stage_of_resolved {call : PermissionCall} {decision : ApprovalDecision}
    (hpoint : call.point = .resolved decision)
    (htool : isGgTeamMcpToolName call.toolName = true) : call.stage = .asked := by
  simp [PermissionCall.stage, hpoint, htool]

theorem stage_of_other {call : PermissionCall} (htool : isGgTeamMcpToolName call.toolName = false) :
    call.stage = .over := by
  simp [PermissionCall.stage, htool]

theorem advances_returnOther {call : PermissionCall} {decision : ApprovalDecision} (permission : Permission)
    (hk : s.calls[k]? = some call) (hpoint : call.point = .resolved decision) (hl : s.loops[call.loop]? = some l)
    (htool : isGgTeamMcpToolName call.toolName = false) : Advances s (s.returnCall k permission) := by
  refine advances_returnCall (f := id) hk hpoint hl rfl rfl (by simp [returnCall, List.modify_id]) (fun _ => rfl)
    (fun hgg => absurd hgg (by simp [htool])) fun session stage' _ hothers hbefore hafter _ hgate => ?_
  exact hgate.pass hothers (hbefore.trans (stage_of_other htool)) (hafter.trans (stage_of_other htool))

theorem advances_proceed (hs : s.proceed k = some s') : Advances s s' := by
  obtain ⟨call, decision, l, session', hk, hpoint, hl, hsession, hcases⟩ := proceed_spec hs
  obtain ⟨htool, rfl⟩ | ⟨htool, rfl⟩ | ⟨htool, permission, rfl⟩ := hcases
  · refine advances_returnCall hk hpoint hl rfl rfl rfl (fun _ => rfl) ?_ ?_
    · intro _
      cases hid : session'.ggTeamToolInvocationId <;> simp [allowGgTeam, hid]
    · intro session stage' hs hothers hbefore hafter hresulted hgate
      obtain rfl := Option.some.inj (hsession.symm.trans hs)
      obtain ⟨t, ht⟩ : ∃ t, (allowGgTeam s.nextGgToolInvocation session').ggTeamToolInvocationId = some t := by
        cases hid : session'.ggTeamToolInvocationId <;> simp [allowGgTeam, hid]
      rw [ht] at hafter ⊢
      refine hgate.enter hothers (hbefore.trans (stage_of_resolved hpoint htool)) ?_
      rw [hafter]
      simp [PermissionCall.stage, htool, hresulted]
  · refine advances_returnCall hk hpoint hl rfl rfl rfl (fun _ => rfl) (fun _ => by simp) ?_
    intro session stage' hs hothers hbefore hafter hresulted hgate
    have hasked := hbefore.trans (stage_of_resolved hpoint htool)
    simp only [declineGgTeam, hgate.token_of_asked hasked]
    refine hgate.leave hothers (by simp [hasked]) ?_
    rw [hafter]
    simp [PermissionCall.stage]
  · exact advances_returnOther permission hk hpoint hl htool

/-! ## The machine -/

def resultsAt (l : Loop) (input : Input) (s : Client) : Option (Option (Table String String) × List ToolResult) :=
  match l.point, input with
  | .reading, .user results =>
    some ((s.objects[l.object]?).bind fun session => session.turnToolItems.lookup l.turnId, results)
  | .reconnecting toolItems rest, .resumed => some (toolItems, rest)
  | _, _ => none

/-- While a session has a call in flight it is not resumed or forked, and no turn of it is cleaned up. -/
def withinTurn (e : Event) (s : Client) : Bool :=
  match e with
  | .loop i input => (s.loops[i]?).all fun l => !cleansUp l input || !s.holdsCall l.object
  | .resumeSession sessionId => (s.sessions.lookup sessionId).all fun o => !s.holdsCall o
  | .op k .proceeds =>
    match s.ops[k]? with
    | some (.forked o _) => !s.holdsCall o
    | _ => true
  | _ => true

/-- The final results that `gg_team` tools have while a call is in flight are its own, and its own are such results. -/
def ownResults (e : Event) (s : Client) : Bool :=
  match e with
  | .loop i input => (s.loops[i]?).all fun l => (s.resultsAt l input).all fun (toolItems, results) =>
      s.resultsOwn i l.object toolItems results
  | _ => true

theorem advances_cleanUp (i : ℕ) (hover : ∀ k, s.stageOn l.object k = .over) : Advances s (s.cleanUp i l) :=
  ((advances_clear (f := cleanedState l.turnId) hover fun _ => ⟨rfl, rfl, rfl, fun _ ha => ha⟩).trans
    (advances_resolveApprovals _ _)).trans (calm_atPoint i .done).advances

theorem advances_runLoop {input : Input} (hi : s.loops[i]? = some l)
    (hclean : cleansUp l input = true → s.holdsCall l.object = false)
    (hown : ∀ toolItems results, s.resultsAt l input = some (toolItems, results) →
      resultsOwn i l.object toolItems results s = true)
    (hs : s.runLoop i l input = some s') : Advances s s' := by
  have hends : ∀ status, cleansUp l input = true → Advances s ((s.endTurn i l status).cleanUp i l) := by
    intro status hc hgates
    have hend := still_endTurn (s := s) i l status
    refine (hend.1.trans (advances_cleanUp i fun k => ?_)) hgates
    rw [hend.2 hgates, over_of_not_holdsCall (hclean hc)]
  unfold runLoop at hs
  split at hs
  case h_1 =>
    obtain rfl := Option.some.inj hs
    exact (calm_atPoint i .creating).advances
  case h_2 =>
    obtain rfl := Option.some.inj hs
    refine Advances.trans (Calm.advances ?_) (calm_atPoint i .reading).advances
    exact calm_onObject _ _ fun _ => ⟨rfl, rfl, rfl, fun _ ha => ha⟩
  case h_4 =>
    obtain rfl := Option.some.inj hs
    refine Calm.advances ?_
    exact calm_onObject _ _ fun _ => ⟨rfl, rfl, rfl, fun _ ha => ha⟩
  case h_5 hpoint =>
    obtain rfl := Option.some.inj hs
    exact advances_processResults hi _ _ (hown _ _ (by simp [resultsAt, hpoint]))
  case h_6 =>
    obtain rfl := Option.some.inj hs
    exact (still_endTurn i l _).1.trans (calm_atPoint i .returning).advances
  case h_7 =>
    obtain rfl := Option.some.inj hs
    exact .refl s
  case h_10 hpoint =>
    obtain rfl := Option.some.inj hs
    exact advances_processResults hi _ _ (hown _ _ (by simp [resultsAt, hpoint]))
  case h_11 hpoint =>
    obtain rfl := Option.some.inj hs
    exact advances_cleanUp i fun k => over_of_not_holdsCall (hclean (by simp [cleansUp, hpoint])) k
  case h_13 => exact absurd hs (by simp)
  -- the turn ends and is cleaned up in one section
  all_goals
    next hpoint =>
      obtain rfl := Option.some.inj hs
      exact hends _ (by simp [cleansUp, hpoint])

theorem advances_finishFork (turnIds : List String) (hfree : s.holdsCall o = false) :
    Advances s (s.finishFork o turnIds) :=
  ((advances_clear (f := forkedState) (over_of_not_holdsCall hfree) fun _ => ⟨rfl, rfl, rfl, fun _ ha => ha⟩).trans
    (advances_resolveApprovals o _)).trans
    (calm_onObject o (prunedState turnIds) fun _ => ⟨rfl, rfl, rfl, fun _ ha => ha⟩).advances

theorem advances_finishClose (o : ℕ) (sessionId : String) : Advances s (s.finishClose o sessionId) :=
  ((advances_resolveApprovals o _).trans
    (calm_onObject o closedState fun _ => ⟨rfl, rfl, rfl, fun _ ha => ha⟩).advances).trans
    (Calm.advances (.of_same rfl rfl rfl))

theorem advances_advanceOp {input : ForkInput} (hfree : withinTurn (.op k input) s = true)
    (hs : s.advanceOp k input = some s') : Advances s s' := by
  obtain ⟨o, sessionId, -, -, rfl⟩ | ⟨o, turnIds, session, -, -, rfl⟩ | ⟨o, turnIds, hop, rfl, rfl⟩ | rfl :=
    advanceOp_spec hs
  · exact (advances_finishClose o sessionId).trans (Calm.advances (.of_same rfl rfl rfl))
  · exact Calm.advances (.of_same rfl rfl rfl)
  · refine (advances_finishFork turnIds ?_).trans (Calm.advances (.of_same rfl rfl rfl))
    simpa [withinTurn, hop] using hfree
  · exact Calm.advances (.of_same rfl rfl rfl)

theorem advances_resumeSession {sessionId : String} (hfree : withinTurn (.resumeSession sessionId) s = true) :
    Advances s (s.resumeSession sessionId) := by
  unfold resumeSession
  split
  · exact advances_addObject _ sessionId s.nextSession
  · next o ho =>
    intro hgates
    have hresolve : Still s (s.resolveAllPendingApprovals o) := still_resolveApprovals o _
    refine (hresolve.1.trans (advances_clear (fun k => ?_) fun _ => ⟨rfl, rfl, rfl, fun a ha => ?_⟩)) hgates
    · rw [hresolve.2 hgates, over_of_not_holdsCall]
      simpa [withinTurn, ho] using hfree
    · simp [resumedState, createSessionState] at ha

theorem advances_interruptTurn {sessionId turnId : String} (h : s.interruptTurn sessionId turnId = .ok s') :
    Advances s s' := by
  obtain ⟨o, f, hf, rfl⟩ := interruptTurn_spec h
  refine Advances.trans (Calm.advances ?_) (advances_resolveApprovals o _)
  refine calm_onObject o f fun session => ?_
  rw [hf session]
  exact ⟨rfl, rfl, rfl, fun _ ha => ha⟩

theorem calm_waitForTurn {sessionId turnId : String} (h : s.waitForTurn sessionId turnId = .ok s') : Calm s s' := by
  obtain ⟨o, session, -, -, ⟨completed, -, rfl⟩ | ⟨-, rfl⟩⟩ := waitForTurn_spec h
  · exact .of_same rfl rfl rfl
  · have hobject := calm_onObject (s := s) o (fun session =>
      { session with
        turnWaiters := session.turnWaiters.insert turnId
          ((session.turnWaiters.lookup turnId).getD [] ++ [s.waits.length]) })
      fun _ => ⟨rfl, rfl, rfl, fun _ ha => ha⟩
    exact ⟨hobject.loops, hobject.calls, hobject.length, hobject.objects⟩

theorem calm_hardForkSession {sessionId : String} (h : s.hardForkSession sessionId = .ok s') : Calm s s' := by
  obtain ⟨o, rfl⟩ := hardForkSession_spec h
  exact .of_same rfl rfl rfl

theorem calm_closeSession {sessionId : String} (h : s.closeSession sessionId = .ok s') : Calm s s' := by
  obtain ⟨o, rfl⟩ := closeSession_spec h
  exact .of_same rfl rfl rfl

theorem calm_timeOut {w : ℕ} (hs : s.timeOut w = some s') : Calm s s' := by
  obtain ⟨wait, -, -, rfl⟩ := timeOut_spec hs
  refine (calm_onObject _ _ fun session => ?_).trans (.of_same rfl rfl rfl)
  unfold removeTurnWaiter
  split <;> exact ⟨rfl, rfl, rfl, fun _ ha => ha⟩

theorem advances_request {r : Except ClientError Client} (h : ∀ q, r = .ok q → Advances s q) :
    Advances s (s.request r) := by
  cases r with
  | error e => exact .refl s
  | ok q => exact h q rfl

theorem advances_step {e : Event} (hwithin : withinTurn e s = true) (hown : ownResults e s = true)
    (hs : s.step e = some s') : Advances s s' := by
  cases e with
  | createSession =>
    obtain rfl := Option.some.inj hs
    exact advances_addObject _ _ _
  | resumeSession sessionId =>
    obtain rfl := Option.some.inj hs
    exact advances_resumeSession hwithin
  | sendInput sessionId expectedTurnId =>
    obtain rfl := Option.some.inj hs
    exact advances_sendInput sessionId expectedTurnId
  | interruptTurn sessionId turnId =>
    obtain rfl := Option.some.inj hs
    exact advances_request fun _ hq => advances_interruptTurn hq
  | respondApproval sessionId turnId approvalId decision =>
    obtain rfl := Option.some.inj hs
    exact advances_request fun _ hq => advances_respondApproval hq
  | waitForTurn sessionId turnId =>
    obtain rfl := Option.some.inj hs
    exact advances_request fun _ hq => (calm_waitForTurn hq).advances
  | hardForkSession sessionId =>
    obtain rfl := Option.some.inj hs
    exact advances_request fun _ hq => (calm_hardForkSession hq).advances
  | closeSession sessionId =>
    obtain rfl := Option.some.inj hs
    exact advances_request fun _ hq => (calm_closeSession hq).advances
  | op k input => exact advances_advanceOp hwithin hs
  | loop i input =>
    obtain ⟨l, hi, hrun⟩ := Option.bind_eq_some_iff.mp hs
    refine advances_runLoop hi ?_ ?_ hrun
    · intro hclean
      simpa [withinTurn, hi, hclean] using hwithin
    · intro toolItems results hat
      simpa [ownResults, hi, hat] using hown
  | permit i toolUseId toolName => exact advances_permit hs
  | proceed k => exact advances_proceed hs
  | timeOut w => exact (calm_timeOut hs).advances

theorem gates_new : Gates new where
  loops := fun l hl => absurd hl (by simp [new])
  calls := fun call hc => absurd hc (by simp [new])
  approvals := fun o session a hs => absurd hs (by simp [new])
  gates := fun o session hs => absurd hs (by simp [new])

def invocationOf (call : PermissionCall) (s : Client) : Option String :=
  (s.objectOf call.loop).bind fun o => (s.objects[o]?).bind SessionState.ggTeamToolInvocationId

/-- One `gg_team` call at a time is let through for each session, under one invocation id, and a request that finds no
other one held is asked for. -/
structure OneInFlight (s : Client) : Prop where
  alone : ∀ (k k' : ℕ) (call call' : PermissionCall), s.calls[k]? = some call → s.calls[k']? = some call' →
    s.objectOf call.loop = s.objectOf call'.loop → call.isOutstanding = true → call'.isOutstanding = true → k = k'
  invocation : ∀ call ∈ s.calls, call.isOutstanding = true →
    ∃ invocationId, s.invocationOf call = some invocationId ∧ call.point = .returned (.allow (some invocationId))
  notDenied : ∀ (i : ℕ) (toolUseId toolName : String) (l : Loop) (session : SessionState) (s' : Client),
    isGgTeamMcpToolName toolName = true → s.loops[i]? = some l → s.objects[l.object]? = some session →
    l.turnId ∉ session.interruptedTurns → s.holdsCall l.object = false → s.permit i toolUseId toolName = some s' →
    ∃ approvalId, s'.calls = s.calls ++ [⟨i, toolUseId, toolName, .pending approvalId, false⟩]

theorem Gates.session_of_call (h : Gates s) {call : PermissionCall} (hc : call ∈ s.calls) :
    ∃ o session, s.objectOf call.loop = some o ∧ s.objects[o]? = some session := by
  obtain ⟨hlt, -⟩ := h.calls call hc
  have hl : s.loops[call.loop]? = some s.loops[call.loop] := List.getElem?_eq_getElem hlt
  have ho := h.loops _ (List.mem_of_getElem? hl)
  exact ⟨_, _, by rw [objectOf, hl, Option.map_some], List.getElem?_eq_getElem ho⟩

theorem Gates.oneInFlight (h : Gates s) : OneInFlight s where
  alone := by
    intro k k' call call' hk hk' hobject hout hout'
    have hmem := List.mem_of_getElem? hk
    have hmem' := List.mem_of_getElem? hk'
    obtain ⟨o, session, ho, hs⟩ := h.session_of_call hmem
    obtain ⟨t, hstage, -⟩ := PermissionCall.inFlight_of_outstanding hout (h.calls call hmem).2.2
    obtain ⟨t', hstage', -⟩ := PermissionCall.inFlight_of_outstanding hout' (h.calls call' hmem').2.2
    refine (h.gates o session hs).held_unique ?_ ?_
    · rw [stageOn_of_call hk, if_pos ho, hstage]
      simp
    · rw [stageOn_of_call hk', if_pos (hobject ▸ ho), hstage']
      simp
  invocation := by
    intro call hc hout
    obtain ⟨o, session, ho, hs⟩ := h.session_of_call hc
    obtain ⟨k, hk⟩ := List.mem_iff_getElem?.mp hc
    obtain ⟨t, hstage, hpoint⟩ := PermissionCall.inFlight_of_outstanding hout (h.calls call hc).2.2
    have htoken := (h.gates o session hs).token_of_inFlight (k := k) (t := t) (by
      rw [stageOn_of_call hk, if_pos ho, hstage])
    exact ⟨t, by simp [invocationOf, ho, hs, htoken], hpoint⟩
  notDenied := by
    intro i toolUseId toolName l session s' htool hi hs hinterrupted hfree hpermit
    obtain ⟨hasking, hflying, -⟩ := (h.gates _ session hs).clear_of_over (over_of_not_holdsCall hfree)
    unfold permit at hpermit
    simp only [hi] at hpermit
    split at hpermit
    · rw [hs, Option.map_some] at hpermit
      obtain rfl := Option.some.inj hpermit
      refine ⟨numbered "approval" s.nextApproval, ?_⟩
      unfold handleSdkToolApproval
      rw [if_neg hinterrupted, if_neg (by simp [hasking, hflying])]
      rfl
    · exact absurd hpermit (by simp)

/-- As long as the final `gg_team` results that come while a call is in flight are its own, and turns are cleaned up and
sessions resumed or forked when no call is held, one `gg_team` call at a time is in flight for each session, and its
invocation id stays the same. -/
theorem one_gg_team_call_in_flight {t : Client}
    (hs : Reaches Client.step (fun e s => (withinTurn e s && ownResults e s) = true) new s)
    (ht : Reaches Client.step (fun e s => (withinTurn e s && ownResults e s) = true) s t) :
    OneInFlight t ∧ ∀ (k : ℕ) (call call' : PermissionCall), s.calls[k]? = some call → t.calls[k]? = some call' →
      call.isOutstanding = true → call'.isOutstanding = true → s.invocationOf call = t.invocationOf call' := by
  have hstep : ∀ (e : Event) (a b : Client), (withinTurn e a && ownResults e a) = true → a.step e = some b →
      Advances a b := by
    intro e a b hp hab
    obtain ⟨hwithin, hown⟩ := Bool.and_eq_true_iff.mp hp
    exact advances_step hwithin hown hab
  have hgates : Gates s := hs.invariant gates_new fun e a b ha hp hab => (hstep e a b hp hab ha).1
  have hboth : Gates t ∧ Fixed s t := ht.invariant (I := fun t => Gates t ∧ Fixed s t) ⟨hgates, .refl s⟩
      fun e a b ha hp hab =>
    ⟨(hstep e a b hp hab ha.1).1, ha.2.trans (hstep e a b hp hab ha.1).2⟩
  refine ⟨hboth.1.oneInFlight, fun k call call' hk hk' hout hout' => ?_⟩
  obtain ⟨id, hid, hpoint⟩ := hgates.oneInFlight.invocation call (List.mem_of_getElem? hk) hout
  obtain ⟨id', hid', hpoint'⟩ := hboth.1.oneInFlight.invocation call' (List.mem_of_getElem? hk') hout'
  -- the call keeps the answer it got
  obtain ⟨call₁, hk₁, hsame, -⟩ := hboth.2.calls k call hk (by simp [hpoint, CallPoint.isReturned])
  obtain rfl := Option.some.inj (hk'.symm.trans hk₁)
  rw [hpoint, hpoint'] at hsame
  rw [hid, hid']
  simpa using (Permission.allow.inj (CallPoint.returned.inj hsame)).symm

/-- A `gg_team` call is allowed, and another one, made while it is in flight, is denied. -/
def secondDenied : List Event :=
  [.createSession, .sendInput "claude_sess_1" none, .loop 0 .resumed, .loop 0 .resumed,
    .loop 0 (.assistant [⟨"a", "mcp__gg__gg_team_status"⟩, ⟨"b", "mcp__gg__gg_team_message"⟩]),
    .permit 0 "a" "mcp__gg__gg_team_status", .respondApproval "claude_sess_1" "turn_1" "approval_1" .accept, .proceed 0,
    .permit 0 "b" "mcp__gg__gg_team_message"]

def secondAgain : List Event :=
  [.permit 0 "c" "mcp__gg__gg_team_message", .respondApproval "claude_sess_1" "turn_1" "approval_2" .accept, .proceed 2]

def callPoints (s : Client) : List (CallPoint × Bool) := s.calls.map fun call => (call.point, call.isOutstanding)

theorem one_gg_team_call_in_flight_again :
    ∃ t, Reaches Client.step (fun e s => (withinTurn e s && ownResults e s) = true) new t ∧ OneInFlight t ∧
      callPoints t = [(.returned (.allow (some "ggtool_1")), false),
      (.returned (.deny ggTeamToolInFlightDenyMessage), false),
        (.returned (.allow (some "ggtool_2")), true)] := by
  -- the first one has its result, and then the denied one
  obtain ⟨t, ht, hpoints⟩ :=
    exists_reaches_of_runAll (s := new) Client.step (fun e s => withinTurn e s && ownResults e s)
    (secondDenied ++ [.loop 0 (.user [⟨"a", none, false⟩, ⟨"b", none, false⟩])] ++ secondAgain) callPoints
    [(.returned (.allow (some "ggtool_1")), false), (.returned (.deny ggTeamToolInFlightDenyMessage), false),
      (.returned (.allow (some "ggtool_2")), true)] (by decide +kernel)
  exact ⟨t, ht, (one_gg_team_call_in_flight ht .refl).1, hpoints⟩

/-- The gate is opened by the result of the call that was denied. -/
theorem not_one_gg_team_call_in_flight :
    ¬ ∀ s t, Reaches Client.step (fun e s => withinTurn e s = true) new s →
      Reaches Client.step (fun e s => withinTurn e s = true) s t → OneInFlight t := by
  intro h
  obtain ⟨t, ht, hpoints⟩ := exists_reaches_of_runAll (s := new) Client.step withinTurn
    (secondDenied ++ [.loop 0 (.user [⟨"b", none, false⟩])] ++ secondAgain)
    (fun s => s.calls.map fun call => (call.loop, call.isOutstanding)) [(0, true), (0, false), (0, true)]
    (by decide +kernel)
  have hfirst := congrArg (fun calls => calls[0]?) hpoints
  have hthird := congrArg (fun calls => calls[2]?) hpoints
  simp only [List.getElem?_map, Option.map_eq_some_iff, List.getElem?_cons_zero, List.getElem?_cons_succ,
    Prod.mk.injEq] at hfirst hthird
  obtain ⟨call, hk, hloop, hout⟩ := hfirst
  obtain ⟨call', hk', hloop', hout'⟩ := hthird
  have hsame := (h t t ht .refl).alone 0 2 call call' hk hk' (by rw [hloop, hloop']) hout hout'
  exact absurd hsame (by decide)

end Client

end Gooselake.Providers.BridgeClient
