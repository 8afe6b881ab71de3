import Gooselake.Providers.BridgeClient

/-!
What the turn loops of a bridge session do to each other. Whatever a loop does under its own turn id leaves the other
turns alone; its clean-up also clears what the session has only once, the current query and the gate, and so it has to
run before the next turn has a query.
-/

namespace Gooselake.Providers.BridgeClient

open Gooselake.Core Data Library

set_option autoImplicit false

def LoopPoint.queried : LoopPoint → Bool
  | .prewarming | .creating => false
  | .reading | .reconnecting _ _ | .returning | .done => true

def LoopPoint.isDone : LoopPoint → Bool
  | .done => true
  | _ => false

namespace Client

variable {s s' s'' : Client} {i o : ℕ} {l : Loop}

/-! ## What a request does -/

theorem bind_requireSession {α : Type} {sessionId : String} {f : ℕ × SessionState → Except ClientError α} {a : α}
    (h : (s.requireSession sessionId >>= f) = .ok a) :
    ∃ o session, s.sessions.lookup sessionId = some o ∧ s.objects[o]? = some session ∧ f (o, session) = .ok a := by
  unfold requireSession at h
  split at h
  · exact absurd h (by simp [bind, Except.bind])
  · next o ho =>
    split at h
    · exact absurd h (by simp [bind, Except.bind])
    · next session hs => exact ⟨o, session, ho, hs, h⟩

theorem interruptTurn_spec {sessionId turnId : String} (h : s.interruptTurn sessionId turnId = .ok s') :
    ∃ o f, (∀ session, f session = { session with interruptedTurns := (f session).interruptedTurns }) ∧
      s' = (s.onObject o f).resolvePendingApprovalsForTurn o turnId := by
  obtain ⟨o, session, -, -, hrest⟩ := bind_requireSession h
  dsimp only at hrest
  split at hrest
  · exact absurd hrest (by simp [throw, throwThe, MonadExceptOf.throw, bind, Except.bind])
  · exact ⟨o, _, fun _ => rfl, (Except.ok.inj hrest).symm⟩

theorem respondApproval_spec {sessionId turnId approvalId : String} {decision : ApprovalDecision}
    (h : s.respondApproval sessionId turnId approvalId decision = .ok s') :
    ∃ o session a, s.objects[o]? = some session ∧
      session.pendingApprovals.find? (fun a => a.approvalId = approvalId ∧ a.turnId = turnId) = some a ∧
      s' = { s.onObject o fun session =>
          { session with pendingApprovals := session.pendingApprovals.filter fun a => a.approvalId ≠ approvalId } with
        calls := s.calls.modify a.call fun call => { call with point := .resolved decision } } := by
  obtain ⟨o, session, -, hs, hrest⟩ := bind_requireSession h
  dsimp only at hrest
  split at hrest
  · exact absurd hrest (by simp [throw, throwThe, MonadExceptOf.throw])
  · next a ha => exact ⟨o, session, a, hs, ha, (Except.ok.inj hrest).symm⟩

theorem waitForTurn_spec {sessionId turnId : String} (h : s.waitForTurn sessionId turnId = .ok s') :
    ∃ o session, s.sessions.lookup sessionId = some o ∧ s.objects[o]? = some session ∧
      ((∃ completed, session.turnResults.lookup turnId = some completed ∧
        s' = { s with waits := s.waits ++ [⟨o, turnId, s.lastTurn sessionId turnId, .resolved completed⟩] }) ∨
      (session.turnResults.lookup turnId = none ∧
        s' = { s.onObject o fun session =>
            { session with turnWaiters :=
                session.turnWaiters.insert turnId ((session.turnWaiters.lookup turnId).getD [] ++ [s.waits.length]) } with
          waits := s.waits ++ [⟨o, turnId, s.lastTurn sessionId turnId, .pending⟩] })) := by
  obtain ⟨o, session, ho, hs, hrest⟩ := bind_requireSession h
  refine ⟨o, session, ho, hs, ?_⟩
  dsimp only at hrest
  split at hrest
  · next completed hresult => exact .inl ⟨completed, hresult, (Except.ok.inj hrest).symm⟩
  · next hnone => exact .inr ⟨hnone, (Except.ok.inj hrest).symm⟩

theorem hardForkSession_spec {sessionId : String} (h : s.hardForkSession sessionId = .ok s') :
    ∃ o, s' = { s with ops := s.ops ++ [.forking o] } := by
  obtain ⟨o, session, -, -, hrest⟩ := bind_requireSession h
  dsimp only at hrest
  split at hrest
  · exact absurd hrest (by simp [throw, throwThe, MonadExceptOf.throw])
  · exact ⟨o, (Except.ok.inj hrest).symm⟩

theorem closeSession_spec {sessionId : String} (h : s.closeSession sessionId = .ok s') :
    ∃ o, s' = { s with ops := s.ops ++ [.closing o sessionId] } := by
  obtain ⟨o, session, -, -, hrest⟩ := bind_requireSession h
  exact ⟨o, (Except.ok.inj hrest).symm⟩

theorem advanceOp_spec {k : ℕ} {input : ForkInput} (hs : s.advanceOp k input = some s') :
    (∃ o sessionId, s.ops[k]? = some (.closing o sessionId) ∧ input = .proceeds ∧
      s' = { s.finishClose o sessionId with ops := s.ops.set k .over }) ∨
    (∃ o turnIds session, s.objects[o]? = some session ∧ (∀ turnId ∈ turnIds, turnId ∈ session.turnOrder) ∧
      s' = { s with ops := s.ops.set k (.forked o turnIds) }) ∨
    (∃ o turnIds, s.ops[k]? = some (.forked o turnIds) ∧ input = .proceeds ∧
      s' = { s.finishFork o turnIds with ops := s.ops.set k .over }) ∨
    s' = { s with ops := s.ops.set k .over } := by
  unfold advanceOp at hs
  split at hs
  · next o sessionId hop => exact .inl ⟨o, sessionId, hop, rfl, (Option.some.inj hs).symm⟩
  · next o turnIds _ =>
    split at hs
    · next hkept =>
      obtain ⟨session, hsession, hall⟩ := (Option.any_eq_true _ _).mp hkept
      exact .inr (.inl ⟨o, turnIds, session, hsession, by simpa using hall, (Option.some.inj hs).symm⟩)
    · exact absurd hs (by simp)
  · next o turnIds hop => exact .inr (.inr (.inl ⟨o, turnIds, hop, rfl, (Option.some.inj hs).symm⟩))
  · exact .inr (.inr (.inr (Option.some.inj hs).symm))
  · exact .inr (.inr (.inr (Option.some.inj hs).symm))
  · exact absurd hs (by simp)

theorem timeOut_spec {w : ℕ} (hs : s.timeOut w = some s') : ∃ wait, s.waits[w]? = some wait ∧ wait.outcome = .pending ∧
    s' = { s.onObject wait.object (removeTurnWaiter wait.turnId w) with
      waits := s.waits.set w { wait with outcome := .timedOut } } := by
  unfold timeOut at hs
  split at hs
  · exact absurd hs (by simp)
  · next wait hwait =>
    split at hs
    · next hpending => exact ⟨wait, hwait, hpending, (Option.some.inj hs).symm⟩
    · exact absurd hs (by simp)

theorem permit_spec {toolUseId toolName : String} (hs : s.permit i toolUseId toolName = some s') :
    ∃ l session, s.loops[i]? = some l ∧ LoopPoint.hasQuery l.point = true ∧ s.objects[l.object]? = some session ∧
      ((∃ message, s' = s.addCall i toolUseId toolName (.returned (.deny message))) ∨
      (¬ (isGgTeamMcpToolName toolName && (session.ggTeamToolApprovalPending || session.ggTeamToolInFlight)) = true ∧
        s' = { (s.onObject l.object fun session =>
            { session with
              ggTeamToolApprovalPending := session.ggTeamToolApprovalPending || isGgTeamMcpToolName toolName
              pendingApprovals := session.pendingApprovals ++
                [⟨numbered "approval" s.nextApproval, l.turnId, s.calls.length⟩] }).addCall
            i toolUseId toolName (.pending (numbered "approval" s.nextApproval)) with
          nextApproval := s.nextApproval + 1 })) := by
  unfold permit at hs
  split at hs
  · exact absurd hs (by simp)
  next l hi =>
  split at hs
  · next hquery =>
    obtain ⟨session, hsession, rfl⟩ := Option.map_eq_some_iff.mp hs
    refine ⟨l, session, hi, hquery, hsession, ?_⟩
    unfold handleSdkToolApproval
    split
    · exact .inl ⟨_, rfl⟩
    split
    · exact .inl ⟨_, rfl⟩
    · next hopen => exact .inr ⟨hopen, rfl⟩
  · exact absurd hs (by simp)

theorem proceed_spec {k : ℕ} (hs : s.proceed k = some s') :
    ∃ call decision l session, s.calls[k]? = some call ∧ call.point = .resolved decision ∧
      s.loops[call.loop]? = some l ∧ s.objects[l.object]? = some session ∧
      ((isGgTeamMcpToolName call.toolName = true ∧
        s' = { (s.onObject l.object (allowGgTeam s.nextGgToolInvocation)).returnCall k
            (.allow (allowGgTeam s.nextGgToolInvocation session).ggTeamToolInvocationId) with
          nextGgToolInvocation :=
            if session.ggTeamToolInvocationId.isSome then s.nextGgToolInvocation else s.nextGgToolInvocation + 1 }) ∨
      (isGgTeamMcpToolName call.toolName = true ∧
        s' = (s.onObject l.object declineGgTeam).returnCall k (.deny "Tool execution declined by user")) ∨
      (isGgTeamMcpToolName call.toolName = false ∧ ∃ permission, s' = s.returnCall k permission)) := by
  unfold proceed at hs
  split at hs
  · exact absurd hs (by simp)
  next call hk =>
  have hfound : ∀ {l session}, ((s.loops[call.loop]?).bind fun l => (s.objects[l.object]?).map fun session => (l, session)) =
      some (l, session) → s.loops[call.loop]? = some l ∧ s.objects[l.object]? = some session := by
    intro l session hfound
    obtain ⟨l', hl, hrest⟩ := Option.bind_eq_some_iff.mp hfound
    obtain ⟨session', hsession, he⟩ := Option.map_eq_some_iff.mp hrest
    obtain ⟨rfl, rfl⟩ := Prod.mk.inj he
    exact ⟨hl, hsession⟩
  split at hs
  · next l session hpoint hlook =>
    obtain ⟨hl, hsession⟩ := hfound hlook
    refine ⟨call, _, l, session, hk, hpoint, hl, hsession, ?_⟩
    split at hs
    · next htool => exact .inl ⟨htool, (Option.some.inj hs).symm⟩
    · next htool => exact .inr (.inr ⟨by simpa using htool, _, (Option.some.inj hs).symm⟩)
  · next l session hpoint hlook =>
    obtain ⟨hl, hsession⟩ := hfound hlook
    refine ⟨call, _, l, session, hk, hpoint, hl, hsession, ?_⟩
    split at hs
    · next htool => exact .inr (.inl ⟨htool, (Option.some.inj hs).symm⟩)
    · next htool => exact .inr (.inr ⟨by simpa using htool, _, (Option.some.inj hs).symm⟩)
  · exact absurd hs (by simp)

/-! ## What most sections keep -/

structure Onward (l l' : Loop) : Prop where
  object : l'.object = l.object
  turnId : l'.turnId = l.turnId
  queried : LoopPoint.queried l.point = true → LoopPoint.queried l'.point = true
  done : LoopPoint.isDone l.point = true → LoopPoint.isDone l'.point = true

theorem Onward.refl (l : Loop) : Onward l l := ⟨rfl, rfl, id, id⟩

theorem Onward.trans {l l' l'' : Loop} (h : Onward l l') (h' : Onward l' l'') : Onward l l'' :=
  ⟨h'.object.trans h.object, h'.turnId.trans h.turnId, fun hq => h'.queried (h.queried hq),
    fun hd => h'.done (h.done hd)⟩

/-- No loop and no permission request is added, no query becomes current, and the loops go on. -/
structure Keeps (s s' : Client) : Prop where
  length : s'.loops.length = s.loops.length
  loops : ∀ (j : ℕ) (l : Loop), s.loops[j]? = some l → ∃ l', s'.loops[j]? = some l' ∧ Onward l l'
  queries : ∀ (o : ℕ) (session' : SessionState) (j : ℕ), s'.objects[o]? = some session' →
    session'.activeSdkQuery = some j → ∃ session, s.objects[o]? = some session ∧ session.activeSdkQuery = some j
  calls : ∀ call ∈ s'.calls, ∃ call₀ ∈ s.calls, call.loop = call₀.loop

theorem Keeps.refl (s : Client) : Keeps s s where
  length := rfl
  loops := fun _ l hl => ⟨l, hl, .refl l⟩
  queries := fun _ session _ hs hq => ⟨session, hs, hq⟩
  calls := fun call hc => ⟨call, hc, rfl⟩

theorem Keeps.trans (h : Keeps s s') (h' : Keeps s' s'') : Keeps s s'' where
  length := h'.length.trans h.length
  loops := by
    intro j l hl
    obtain ⟨l', hl', hon⟩ := h.loops j l hl
    obtain ⟨l'', hl'', hon'⟩ := h'.loops j l' hl'
    exact ⟨l'', hl'', hon.trans hon'⟩
  queries := by
    intro o session'' j hs hq
    obtain ⟨session', hs', hq'⟩ := h'.queries o session'' j hs hq
    exact h.queries o session' j hs' hq'
  calls := by
    intro call hc
    obtain ⟨call', hc', he'⟩ := h'.calls call hc
    obtain ⟨call₀, hc₀, he₀⟩ := h.calls call' hc'
    exact ⟨call₀, hc₀, he'.trans he₀⟩

theorem Keeps.back (h : Keeps s s') {j : ℕ} {l' : Loop} (hl' : s'.loops[j]? = some l') :
    ∃ l, s.loops[j]? = some l ∧ Onward l l' := by
  have hlt : j < s.loops.length := by
    have hlt' := (List.getElem?_eq_some_iff.mp hl').1
    rw [h.length] at hlt'
    exact hlt'
  obtain ⟨l'', hl'', hon⟩ := h.loops j s.loops[j] (List.getElem?_eq_getElem hlt)
  obtain rfl := Option.some.inj (hl'.symm.trans hl'')
  exact ⟨s.loops[j], List.getElem?_eq_getElem hlt, hon⟩

theorem Keeps.of_same (hloops : s'.loops = s.loops) (hcalls : s'.calls = s.calls)
    (hqueries : ∀ (o : ℕ) (session' : SessionState) (j : ℕ), s'.objects[o]? = some session' →
      session'.activeSdkQuery = some j → ∃ session, s.objects[o]? = some session ∧ session.activeSdkQuery = some j) :
    Keeps s s' where
  length := by rw [hloops]
  loops := fun _ l hl => ⟨l, by rw [hloops, hl], .refl l⟩
  queries := hqueries
  calls := fun call hc => ⟨call, hcalls ▸ hc, rfl⟩

theorem keeps_onObject (o : ℕ) (f : SessionState → SessionState)
    (hf : ∀ session j, (f session).activeSdkQuery = some j → session.activeSdkQuery = some j) :
    Keeps s (s.onObject o f) := by
  refine .of_same rfl rfl fun o' session' j hs hq => ?_
  change (s.objects.modify o f)[o']? = some session' at hs
  rw [List.getElem?_modify] at hs
  obtain ⟨session, hsession, rfl⟩ := Option.map_eq_some_iff.mp hs
  refine ⟨session, hsession, ?_⟩
  split at hq
  · exact hf session j hq
  · exact hq

theorem keeps_atPoint (i : ℕ) (point : LoopPoint)
    (h : ∀ l, s.loops[i]? = some l → Onward l { l with point := point }) : Keeps s (s.atPoint i point) where
  length := by simp [atPoint]
  loops := by
    intro j l hl
    by_cases hj : i = j
    · subst hj
      refine ⟨{ l with point := point }, ?_, h l hl⟩
      change (s.loops.modify i _)[i]? = _
      rw [List.getElem?_modify, hl]
      simp
    · refine ⟨l, ?_, .refl l⟩
      change (s.loops.modify i _)[j]? = _
      rw [List.getElem?_modify, hl]
      simp [hj]
  queries := fun _ session _ hs hq => ⟨session, hs, hq⟩
  calls := fun call hc => ⟨call, hc, rfl⟩

theorem keeps_calls {calls : List PermissionCall} (h : ∀ call ∈ calls, ∃ call₀ ∈ s.calls, call.loop = call₀.loop) :
    Keeps s { s with calls := calls } where
  length := rfl
  loops := fun _ l hl => ⟨l, hl, .refl l⟩
  queries := fun _ session _ hs hq => ⟨session, hs, hq⟩
  calls := h

theorem calls_modify {f : PermissionCall → PermissionCall} {calls : List PermissionCall} (k : ℕ) {call : PermissionCall}
    (h : call ∈ calls.modify k f) (hf : ∀ call, (f call).loop = call.loop) :
    ∃ call₀ ∈ calls, call.loop = call₀.loop := by
  obtain ⟨k', hk'⟩ := List.mem_iff_getElem?.mp h
  rw [List.getElem?_modify] at hk'
  obtain ⟨call₀, hk₀, rfl⟩ := Option.map_eq_some_iff.mp hk'
  refine ⟨call₀, List.mem_of_getElem? hk₀, ?_⟩
  split
  · exact hf call₀
  · rfl

theorem keeps_resolveApprovals (o : ℕ) (p : PendingApproval → Bool) : Keeps s (s.resolveApprovals o p) := by
  unfold resolveApprovals
  split
  · exact .refl s
  · have hobject := keeps_onObject (s := s) o (fun session =>
      { session with pendingApprovals := session.pendingApprovals.filter fun a => !p a }) fun _ _ hq => hq
    refine ⟨hobject.length, hobject.loops, hobject.queries, fun call hc => ?_⟩
    obtain ⟨k, hk⟩ := List.mem_iff_getElem?.mp hc
    rw [List.getElem?_mapIdx] at hk
    obtain ⟨call₀, hk₀, rfl⟩ := Option.map_eq_some_iff.mp hk
    refine ⟨call₀, List.mem_of_getElem? hk₀, ?_⟩
    split <;> rfl

@[simp] theorem resolveApprovals_loops (o : ℕ) (p : PendingApproval → Bool) :
    (s.resolveApprovals o p).loops = s.loops := by
  unfold resolveApprovals
  split <;> rfl

@[simp] theorem completeTurn_loops (o : ℕ) (result : TurnResult) : (s.completeTurn o result).loops = s.loops := by
  unfold completeTurn
  split
  · rfl
  · exact resolveApprovals_loops o _

@[simp] theorem endTurn_loops (i : ℕ) (l : Loop) (status : TurnTerminalStatus) :
    (s.endTurn i l status).loops = s.loops := completeTurn_loops _ _

theorem keeps_waits (waits : List Wait) : Keeps s { s with waits := waits } :=
  .of_same rfl rfl fun _ session _ hs hq => ⟨session, hs, hq⟩

theorem keeps_completeTurn (o : ℕ) (result : TurnResult) : Keeps s (s.completeTurn o result) := by
  unfold completeTurn
  split
  · exact .refl s
  · have hresolve : Keeps s (s.resolvePendingApprovalsForTurn o result.turnId) := keeps_resolveApprovals o _
    have hobject := hresolve.trans (keeps_onObject o (completedState result) fun _ _ hq => hq)
    exact ⟨hobject.length, hobject.loops, hobject.queries, hobject.calls⟩

theorem keeps_endTurn (i : ℕ) (l : Loop) (status : TurnTerminalStatus) : Keeps s (s.endTurn i l status) := by
  refine Keeps.trans ?_ (keeps_completeTurn _ _)
  exact keeps_onObject _ _ fun _ _ hq => hq

theorem onward_done (l : Loop) : Onward l { l with point := .done } := ⟨rfl, rfl, fun _ => rfl, fun _ => rfl⟩

theorem keeps_cleanUp (i : ℕ) (l : Loop) : Keeps s (s.cleanUp i l) :=
  ((keeps_onObject l.object (cleanedState l.turnId) fun _ _ hq => absurd hq (by simp [cleanedState])).trans
    (keeps_resolveApprovals _ _)).trans (keeps_atPoint i .done fun l _ => onward_done l)

theorem keeps_noteResult (i : ℕ) (r : ToolResult) : Keeps s (s.noteResult i r) := by
  refine keeps_calls fun call hc => ?_
  obtain ⟨call₀, hc₀, rfl⟩ := List.mem_map.mp hc
  refine ⟨call₀, hc₀, ?_⟩
  split <;> rfl

theorem onward_queried {point : LoopPoint} (hnot : LoopPoint.isDone l.point = false)
    (hpoint : LoopPoint.queried point = true) : Onward l { l with point := point } :=
  ⟨rfl, rfl, fun _ => hpoint, fun hd => absurd hd (by simp [hnot])⟩

theorem keeps_processResults (l : Loop) (toolItems : Option (Table String String)) (results : List ToolResult)
    (h : ∀ l, s.loops[i]? = some l → LoopPoint.isDone l.point = false) :
    Keeps s (s.processResults i l toolItems results) := by
  induction results generalizing s with
  | nil => exact keeps_atPoint i .reading fun l hl => onward_queried (h l hl) rfl
  | cons r rest ih =>
    unfold processResults
    split
    · split
      · exact keeps_atPoint i _ fun l hl => onward_queried (h l hl) rfl
      · split
        · refine ((keeps_noteResult i r).trans (keeps_onObject l.object openGate fun _ _ hq => hq)).trans (ih ?_)
          exact h
        · exact ih h
    · exact (keeps_noteResult i r).trans (ih h)

/-! ## The sections that add to them -/

/-- The query of loop `i` becomes current. -/
def becomesCurrent (l : Loop) (input : Input) : Bool :=
  match l.point, input with
  | .creating, .resumed => true
  | _, _ => false

theorem becomesCurrent_iff {input : Input} :
    becomesCurrent l input = true ↔ l.point = .creating ∧ input = .resumed := by
  unfold becomesCurrent
  constructor
  · intro h
    split at h
    · next hpoint => exact ⟨hpoint, rfl⟩
    · exact absurd h (by simp)
  · rintro ⟨hpoint, rfl⟩
    simp [hpoint]

theorem keeps_runLoop {input : Input} (hi : s.loops[i]? = some l) (hnew : becomesCurrent l input = false)
    (hs : s.runLoop i l input = some s') : Keeps s s' := by
  have hself : LoopPoint.isDone l.point = false → ∀ l', s.loops[i]? = some l' → LoopPoint.isDone l'.point = false := by
    intro hnot l' hl'
    rw [hi] at hl'
    exact Option.some.inj hl' ▸ hnot
  unfold runLoop at hs
  split at hs
  case h_1 hpoint =>
    obtain rfl := Option.some.inj hs
    refine keeps_atPoint i .creating fun l' hl' => ?_
    obtain rfl := Option.some.inj (hi.symm.trans hl')
    exact ⟨rfl, rfl, by simp [hpoint, LoopPoint.queried], by simp [hpoint, LoopPoint.isDone]⟩
  case h_2 hpoint => simp [becomesCurrent, hpoint] at hnew
  case h_3 hpoint =>
    obtain rfl := Option.some.inj hs
    exact (keeps_endTurn i l _).trans (keeps_cleanUp i l)
  case h_4 toolUses hpoint =>
    obtain rfl := Option.some.inj hs
    exact keeps_onObject _ _ fun _ _ hq => hq
  case h_5 results hpoint =>
    obtain rfl := Option.some.inj hs
    exact keeps_processResults l _ results (hself (by simp [hpoint, LoopPoint.isDone]))
  case h_6 success hpoint =>
    obtain rfl := Option.some.inj hs
    have hend := keeps_endTurn (s := s) i l (resultStatus success)
    refine hend.trans (keeps_atPoint i .returning fun l' hl' => ?_)
    rw [endTurn_loops, hi] at hl'
    obtain rfl := Option.some.inj hl'
    exact ⟨rfl, rfl, fun _ => rfl, by simp [hpoint, LoopPoint.isDone]⟩
  case h_7 =>
    obtain rfl := Option.some.inj hs
    exact .refl s
  case h_8 hpoint =>
    obtain rfl := Option.some.inj hs
    exact (keeps_endTurn i l _).trans (keeps_cleanUp i l)
  case h_9 hpoint =>
    obtain rfl := Option.some.inj hs
    exact (keeps_endTurn i l _).trans (keeps_cleanUp i l)
  case h_10 toolItems rest hpoint =>
    obtain rfl := Option.some.inj hs
    exact keeps_processResults l _ rest (hself (by simp [hpoint, LoopPoint.isDone]))
  case h_11 hpoint =>
    obtain rfl := Option.some.inj hs
    exact keeps_cleanUp i l
  case h_12 hpoint =>
    obtain rfl := Option.some.inj hs
    exact (keeps_endTurn i l _).trans (keeps_cleanUp i l)
  case h_13 => exact absurd hs (by simp)

/-- The loops of one session object that are not done have different turn ids, and the current query and the permission
requests are those of loops that have a query. -/
structure Turns (s : Client) : Prop where
  apart : ∀ (i j : ℕ) (l l' : Loop), s.loops[i]? = some l → s.loops[j]? = some l' → l.object = l'.object →
    l.turnId = l'.turnId → LoopPoint.isDone l.point = false → LoopPoint.isDone l'.point = false → i = j
  queries : ∀ (o : ℕ) (session : SessionState) (j : ℕ), s.objects[o]? = some session →
    session.activeSdkQuery = some j → ∃ l, s.loops[j]? = some l ∧ LoopPoint.queried l.point = true
  calls : ∀ call ∈ s.calls, ∃ l, s.loops[call.loop]? = some l ∧ LoopPoint.queried l.point = true

theorem Turns.keeps (h : Turns s) (hk : Keeps s s') : Turns s' := by
  refine ⟨?_, ?_, ?_⟩
  · intro i j l₁ l₂ hi hj hobject hid hdone₁ hdone₂
    obtain ⟨l, hl, hon⟩ := hk.back hi
    obtain ⟨l', hl', hon'⟩ := hk.back hj
    have hopen : ∀ {a b : Loop}, Onward a b → LoopPoint.isDone b.point = false → LoopPoint.isDone a.point = false := by
      intro a b hab hb
      by_contra hne
      have ha : LoopPoint.isDone a.point = true := by simpa using hne
      rw [hab.done ha] at hb
      exact absurd hb (by simp)
    rw [hon.object, hon'.object] at hobject
    rw [hon.turnId, hon'.turnId] at hid
    exact h.apart i j l l' hl hl' hobject hid (hopen hon hdone₁) (hopen hon' hdone₂)
  · intro o session' j hs hq
    obtain ⟨session, hs, hq⟩ := hk.queries o session' j hs hq
    obtain ⟨l, hl, hqueried⟩ := h.queries o session j hs hq
    obtain ⟨l', hl', hon⟩ := hk.loops j l hl
    exact ⟨l', hl', hon.queried hqueried⟩
  · intro call hc
    obtain ⟨call₀, hc₀, he⟩ := hk.calls call hc
    obtain ⟨l, hl, hqueried⟩ := h.calls call₀ hc₀
    obtain ⟨l', hl', hon⟩ := hk.loops call₀.loop l hl
    exact ⟨l', he ▸ hl', hon.queried hqueried⟩

/-! ## Requests -/

theorem keeps_addObject (sessions : Table String ℕ) (sessionId : String) (nextSession : ℕ) :
    Keeps s { s with
      sessions := sessions, objects := s.objects ++ [createSessionState sessionId], nextSession := nextSession } := by
  refine .of_same rfl rfl fun o session' j hs hq => ?_
  have hs' : (s.objects ++ [createSessionState sessionId])[o]? = some session' := hs
  rw [List.getElem?_append] at hs'
  split at hs'
  · exact ⟨session', hs', hq⟩
  · obtain rfl := List.mem_singleton.mp (List.mem_of_getElem? hs')
    simp [createSessionState] at hq

theorem keeps_resumeSession (sessionId : String) : Keeps s (s.resumeSession sessionId) := by
  unfold resumeSession
  split
  · exact keeps_addObject _ sessionId s.nextSession
  · next o _ =>
    refine Keeps.trans ?_ (keeps_onObject o resumedState fun _ _ hq => absurd hq (by simp [resumedState, createSessionState]))
    exact keeps_resolveApprovals _ _

theorem keeps_interruptTurn {sessionId turnId : String} (h : s.interruptTurn sessionId turnId = .ok s') : Keeps s s' := by
  obtain ⟨o, f, hf, rfl⟩ := interruptTurn_spec h
  refine Keeps.trans ?_ (keeps_resolveApprovals o _)
  refine keeps_onObject o f fun session _ hq => ?_
  rw [hf session] at hq
  exact hq

theorem keeps_respondApproval {sessionId turnId approvalId : String} {decision : ApprovalDecision}
    (h : s.respondApproval sessionId turnId approvalId decision = .ok s') : Keeps s s' := by
  obtain ⟨o, session, a, -, -, rfl⟩ := respondApproval_spec h
  have hobject := keeps_onObject (s := s) o (fun session =>
    { session with pendingApprovals := session.pendingApprovals.filter fun a => a.approvalId ≠ approvalId })
    fun _ _ hq => hq
  refine ⟨hobject.length, hobject.loops, hobject.queries, fun call hc => ?_⟩
  exact calls_modify a.call hc fun _ => rfl

theorem keeps_waitForTurn {sessionId turnId : String} (h : s.waitForTurn sessionId turnId = .ok s') : Keeps s s' := by
  obtain ⟨o, session, -, -, ⟨completed, -, rfl⟩ | ⟨-, rfl⟩⟩ := waitForTurn_spec h
  · exact keeps_waits _
  · have hobject := keeps_onObject (s := s) o (fun session =>
      { session with
        turnWaiters := session.turnWaiters.insert turnId ((session.turnWaiters.lookup turnId).getD [] ++ [s.waits.length]) })
      fun _ _ hq => hq
    exact ⟨hobject.length, hobject.loops, hobject.queries, hobject.calls⟩

theorem keeps_hardForkSession {sessionId : String} (h : s.hardForkSession sessionId = .ok s') : Keeps s s' := by
  obtain ⟨o, rfl⟩ := hardForkSession_spec h
  exact .of_same rfl rfl fun _ session _ hs hq => ⟨session, hs, hq⟩

theorem keeps_closeSession {sessionId : String} (h : s.closeSession sessionId = .ok s') : Keeps s s' := by
  obtain ⟨o, rfl⟩ := closeSession_spec h
  exact .of_same rfl rfl fun _ session _ hs hq => ⟨session, hs, hq⟩

theorem keeps_ops (sessions : Table String ℕ) (ops : List Op) : Keeps s { s with sessions := sessions, ops := ops } :=
  .of_same rfl rfl fun _ session _ hs hq => ⟨session, hs, hq⟩

theorem keeps_finishFork (o : ℕ) (turnIds : List String) : Keeps s (s.finishFork o turnIds) := by
  refine Keeps.trans (Keeps.trans ?_ (keeps_resolveApprovals o _)) (keeps_onObject o (prunedState turnIds) fun _ _ hq => hq)
  exact keeps_onObject o forkedState fun _ _ hq => hq

theorem keeps_finishClose (o : ℕ) (sessionId : String) : Keeps s (s.finishClose o sessionId) := by
  have hobject : Keeps s ((s.resolveAllPendingApprovals o).onObject o closedState) :=
    (keeps_resolveApprovals o _).trans (keeps_onObject o closedState fun _ _ hq => hq)
  exact ⟨hobject.length, hobject.loops, hobject.queries, hobject.calls⟩

theorem keeps_advanceOp {k : ℕ} {input : ForkInput} (hs : s.advanceOp k input = some s') : Keeps s s' := by
  obtain ⟨o, sessionId, -, -, rfl⟩ | ⟨o, turnIds, session, -, -, rfl⟩ | ⟨o, turnIds, -, -, rfl⟩ | rfl := advanceOp_spec hs
  · have hclose := keeps_finishClose (s := s) o sessionId
    exact ⟨hclose.length, hclose.loops, hclose.queries, hclose.calls⟩
  · exact keeps_ops s.sessions _
  · have hfork := keeps_finishFork (s := s) o turnIds
    exact ⟨hfork.length, hfork.loops, hfork.queries, hfork.calls⟩
  · exact keeps_ops s.sessions _

theorem keeps_timeOut {w : ℕ} (hs : s.timeOut w = some s') : Keeps s s' := by
  obtain ⟨wait, -, -, rfl⟩ := timeOut_spec hs
  have hobject := keeps_onObject (s := s) wait.object (removeTurnWaiter wait.turnId w) fun session j hq => by
    unfold removeTurnWaiter at hq
    split at hq <;> exact hq
  exact ⟨hobject.length, hobject.loops, hobject.queries, hobject.calls⟩

theorem keeps_returnCall (k : ℕ) (permission : Permission) : Keeps s (s.returnCall k permission) :=
  keeps_calls fun _ hc => calls_modify k hc fun _ => rfl

theorem keeps_proceed {k : ℕ} (hs : s.proceed k = some s') : Keeps s s' := by
  obtain ⟨call, decision, l, session, -, -, -, -, ⟨-, rfl⟩ | ⟨-, rfl⟩ | ⟨-, permission, rfl⟩⟩ := proceed_spec hs
  · have hobject := (keeps_onObject (s := s) l.object (allowGgTeam s.nextGgToolInvocation) fun _ _ hq => hq).trans
      (keeps_returnCall k (.allow (allowGgTeam s.nextGgToolInvocation session).ggTeamToolInvocationId))
    exact ⟨hobject.length, hobject.loops, hobject.queries, hobject.calls⟩
  · exact (keeps_onObject l.object declineGgTeam fun _ _ hq => hq).trans (keeps_returnCall k _)
  · exact keeps_returnCall k permission

/-! ## Turns that begin -/

/-- The object and the id of the turn that a `sendInput` starts. -/
def startedBy (sessionId : String) (expectedTurnId : Option String) (s : Client) : Option (ℕ × String) :=
  match s.requireSession sessionId with
  | .error _ => none
  | .ok (o, session) =>
    if SessionState.active session = none then some (o, expectedTurnId.getD (numbered "turn" s.nextTurn)) else none

def withTurn (o : ℕ) (turnId : String) (expectedTurnId : Option String) (s : Client) : Client :=
  { s.startTurn o turnId with nextTurn := if expectedTurnId.isSome then s.nextTurn else s.nextTurn + 1 }

theorem sendInput_cases (sessionId : String) (expectedTurnId : Option String) (s : Client) :
    s.request ((s.sendInput sessionId expectedTurnId).map Prod.snd) =
      match s.startedBy sessionId expectedTurnId with
      | none => s
      | some (o, turnId) => s.withTurn o turnId expectedTurnId := by
  unfold sendInput startedBy
  cases hr : s.requireSession sessionId with
  | error e => rfl
  | ok found =>
    obtain ⟨o, session⟩ := found
    simp only [bind, Except.bind]
    cases hactive : SessionState.active session with
    | none =>
      cases expectedTurnId with
      | none => rfl
      | some turnId => rfl
    | some active =>
      simp only [reduceCtorEq, if_false]
      by_cases hexpected : expectedTurnId ≠ some active
      · rw [if_pos hexpected]
        rfl
      · rw [if_neg hexpected]
        by_cases hstream : active ∉ session.turnPromptStreams
        · rw [if_pos hstream]
          rfl
        · rw [if_neg hstream]
          rfl

theorem startedBy_object {sessionId turnId : String} {expectedTurnId : Option String}
    (h : s.startedBy sessionId expectedTurnId = some (o, turnId)) :
    s.sessions.lookup sessionId = some o ∧ (∃ session, s.objects[o]? = some session ∧ SessionState.active session = none) ∧
      turnId = expectedTurnId.getD (numbered "turn" s.nextTurn) := by
  unfold startedBy requireSession at h
  cases ho : s.sessions.lookup sessionId with
  | none => simp [ho] at h
  | some o' =>
    cases hs : s.objects[o']? with
    | none => simp [ho, hs] at h
    | some session =>
      simp only [ho, hs] at h
      split at h
      · next hactive =>
        obtain ⟨rfl, rfl⟩ := Prod.mk.inj (Option.some.inj h)
        exact ⟨rfl, ⟨session, hs, hactive⟩, rfl⟩
      · exact absurd h (by simp)

theorem Turns.start (h : Turns s) {turnId : String} {expectedTurnId : Option String}
    (hfree : ∀ l ∈ s.loops, l.object = o → l.turnId = turnId → LoopPoint.isDone l.point = true) :
    Turns (s.withTurn o turnId expectedTurnId) := by
  have hloops : (s.withTurn o turnId expectedTurnId).loops = s.loops ++ [⟨o, turnId, .prewarming⟩] := rfl
  have hold : ∀ (j : ℕ) (l : Loop), (s.withTurn o turnId expectedTurnId).loops[j]? = some l →
      s.loops[j]? = some l ∨ (j = s.loops.length ∧ l = ⟨o, turnId, .prewarming⟩) := by
    intro j l hj
    rw [hloops, List.getElem?_append] at hj
    split at hj
    · exact .inl hj
    · have hmem := List.mem_singleton.mp (List.mem_of_getElem? hj)
      have hlt := (List.getElem?_eq_some_iff.mp hj).1
      rw [List.length_singleton] at hlt
      exact .inr ⟨by omega, hmem⟩
  have hkeep : ∀ (j : ℕ) (l : Loop), s.loops[j]? = some l → (s.withTurn o turnId expectedTurnId).loops[j]? = some l := by
    intro j l hj
    rw [hloops, List.getElem?_append_left (List.getElem?_eq_some_iff.mp hj).1, hj]
  refine ⟨?_, ?_, ?_⟩
  · intro i j l l' hi hj hobject hid hdone hdone'
    obtain hi | ⟨rfl, rfl⟩ := hold i l hi
    · obtain hj | ⟨rfl, rfl⟩ := hold j l' hj
      · exact h.apart i j l l' hi hj hobject hid hdone hdone'
      · rw [hfree l (List.mem_of_getElem? hi) hobject hid] at hdone
        exact absurd hdone (by simp)
    · obtain hj | ⟨rfl, rfl⟩ := hold j l' hj
      · rw [hfree l' (List.mem_of_getElem? hj) hobject.symm hid.symm] at hdone'
        exact absurd hdone' (by simp)
      · rfl
  · intro o' session' j hs hq
    obtain ⟨session, hs, hq⟩ := (keeps_onObject (s := s) o (startedState turnId) fun _ _ hq => hq).queries o' session' j hs hq
    obtain ⟨l, hl, hqueried⟩ := h.queries o' session j hs hq
    exact ⟨l, hkeep j l hl, hqueried⟩
  · intro call hc
    obtain ⟨l, hl, hqueried⟩ := h.calls call hc
    exact ⟨l, hkeep call.loop l hl, hqueried⟩

/-! ## Loops that get their query, and permission requests -/

theorem queried_of_hasQuery {point : LoopPoint} (h : LoopPoint.hasQuery point = true) : LoopPoint.queried point = true := by
  cases point <;> simp_all [LoopPoint.hasQuery, LoopPoint.queried]

theorem Turns.current (h : Turns s) (hi : s.loops[i]? = some l) (hpoint : l.point = .creating) :
    Turns ((s.onObject l.object fun session => { session with activeSdkQuery := some i }).atPoint i .reading) := by
  have hat : Keeps s (s.atPoint i .reading) := by
    refine keeps_atPoint i .reading fun l' hl' => ?_
    obtain rfl := Option.some.inj (hi.symm.trans hl')
    exact onward_queried (by simp [hpoint, LoopPoint.isDone]) rfl
  have hturns := h.keeps hat
  refine ⟨hturns.apart, ?_, hturns.calls⟩
  intro o session' j hs hq
  change (s.objects.modify l.object _)[o]? = some session' at hs
  rw [List.getElem?_modify] at hs
  obtain ⟨session, hsession, rfl⟩ := Option.map_eq_some_iff.mp hs
  split at hq
  · obtain rfl := Option.some.inj hq
    refine ⟨{ l with point := .reading }, ?_, rfl⟩
    change (s.loops.modify i _)[i]? = _
    rw [List.getElem?_modify, hi]
    simp
  · exact hturns.queries o session j hsession hq

theorem Turns.addCall (h : Turns s) (hi : s.loops[i]? = some l) (hquery : LoopPoint.hasQuery l.point = true)
    (toolUseId toolName : String) (point : CallPoint) : Turns (s.addCall i toolUseId toolName point) := by
  refine ⟨h.apart, h.queries, fun call hc => ?_⟩
  obtain hold | hnew := List.mem_append.mp hc
  · exact h.calls call hold
  · obtain rfl := List.mem_singleton.mp hnew
    exact ⟨l, hi, queried_of_hasQuery hquery⟩

theorem Turns.permit (h : Turns s) {toolUseId toolName : String} (hs : s.permit i toolUseId toolName = some s') :
    Turns s' := by
  obtain ⟨l, session, hi, hquery, -, ⟨message, rfl⟩ | ⟨-, rfl⟩⟩ := permit_spec hs
  · exact h.addCall hi hquery _ _ _
  · have hobject := h.keeps (keeps_onObject (s := s) l.object (fun session =>
      { session with
        ggTeamToolApprovalPending := session.ggTeamToolApprovalPending || isGgTeamMcpToolName toolName
        pendingApprovals := session.pendingApprovals ++
          [⟨numbered "approval" s.nextApproval, l.turnId, s.calls.length⟩] }) fun _ _ hq => hq)
    have hcall := hobject.addCall hi hquery toolUseId toolName (.pending (numbered "approval" s.nextApproval))
    exact ⟨hcall.apart, hcall.queries, hcall.calls⟩

/-! ## The machine -/

/-- The section ends with the `finally` block. -/
def cleansUp (l : Loop) (input : Input) : Bool :=
  match l.point, input with
  | .creating, .thrown | .reading, .ended | .reading, .thrown | .returning, .resumed | .returning, .thrown => true
  | _, _ => false

def ends (l : Loop) (input : Input) : Bool :=
  match l.point, input with
  | .reading, .result _ => true
  | _, _ => cleansUp l input

def activeElsewhere (i : ℕ) (l : Loop) (s : Client) : Bool :=
  (s.objects[l.object]?).any fun session => (List.range s.loops.length).any fun j => j ≠ i &&
    (s.loops[j]?).any fun l' =>
      l'.object = l.object && session.activeTurnId = some l'.turnId && LoopPoint.hasQuery l'.point

/-- A clean-up runs before another active turn has its query, and no turn is started under the id of one whose loop is
not done. -/
def turnsApart (e : Event) (s : Client) : Bool :=
  match e with
  | .loop i input => (s.loops[i]?).all fun l => !cleansUp l input || !activeElsewhere i l s
  | .sendInput sessionId expectedTurnId =>
    (s.startedBy sessionId expectedTurnId).all fun started =>
      s.loops.all fun l => l.object ≠ started.1 || l.turnId ≠ started.2 || LoopPoint.isDone l.point
  | _ => true

theorem Turns.step (h : Turns s) {e : Event} (ha : turnsApart e s = true) (hs : s.step e = some s') : Turns s' := by
  have hrequest : ∀ r : Except ClientError Client, (∀ q, r = .ok q → Keeps s q) → Turns (s.request r) := by
    intro r hr
    cases r with
    | error e => exact h
    | ok q => exact h.keeps (hr q rfl)
  cases e with
  | createSession =>
    obtain rfl := Option.some.inj hs
    exact h.keeps (keeps_addObject _ _ _)
  | resumeSession sessionId =>
    obtain rfl := Option.some.inj hs
    exact h.keeps (keeps_resumeSession sessionId)
  | sendInput sessionId expectedTurnId =>
    have hs' := Option.some.inj hs
    rw [sendInput_cases] at hs'
    cases hstarted : s.startedBy sessionId expectedTurnId with
    | none =>
      rw [hstarted] at hs'
      exact hs' ▸ h
    | some started =>
      rw [hstarted] at hs'
      obtain rfl := hs'
      refine h.start fun l hl hobject hid => ?_
      have hall := ha
      simp only [turnsApart, hstarted, Option.all_some, List.all_eq_true] at hall
      simpa [hobject, hid] using hall l hl
  | interruptTurn sessionId turnId =>
    obtain rfl := Option.some.inj hs
    exact hrequest _ fun _ hq => keeps_interruptTurn hq
  | respondApproval sessionId turnId approvalId decision =>
    obtain rfl := Option.some.inj hs
    exact hrequest _ fun _ hq => keeps_respondApproval hq
  | waitForTurn sessionId turnId =>
    obtain rfl := Option.some.inj hs
    exact hrequest _ fun _ hq => keeps_waitForTurn hq
  | hardForkSession sessionId =>
    obtain rfl := Option.some.inj hs
    exact hrequest _ fun _ hq => keeps_hardForkSession hq
  | closeSession sessionId =>
    obtain rfl := Option.some.inj hs
    exact hrequest _ fun _ hq => keeps_closeSession hq
  | op k input => exact h.keeps (keeps_advanceOp hs)
  | loop i input =>
    obtain ⟨l, hi, hs⟩ := Option.bind_eq_some_iff.mp hs
    cases hnew : becomesCurrent l input with
    | false => exact h.keeps (keeps_runLoop hi hnew hs)
    | true =>
      obtain ⟨hpoint, rfl⟩ := becomesCurrent_iff.mp hnew
      simp only [runLoop, hpoint] at hs
      obtain rfl := Option.some.inj hs
      exact h.current hi hpoint
  | permit i toolUseId toolName => exact h.permit hs
  | proceed k => exact h.keeps (keeps_proceed hs)
  | timeOut w => exact h.keeps (keeps_timeOut hs)

theorem turns_new : Turns new where
  apart := by simp [new]
  queries := by simp [new]
  calls := by simp [new]

/-! ## What the end of a turn does to its session -/

def withoutApprovals (turnId : String) (session : SessionState) : SessionState :=
  { session with pendingApprovals := session.pendingApprovals.filter fun a => a.turnId ≠ turnId }

theorem objects_onObject (o : ℕ) (f : SessionState → SessionState) :
    (s.onObject o f).objects[o]? = s.objects[o]?.map f := by
  change (s.objects.modify o f)[o]? = _
  rw [List.getElem?_modify]
  simp

theorem objects_resolveForTurn (o : ℕ) (turnId : String) :
    (s.resolvePendingApprovalsForTurn o turnId).objects[o]? = s.objects[o]?.map (withoutApprovals turnId) := by
  unfold resolvePendingApprovalsForTurn resolveApprovals
  split
  · next hnone => rw [hnone]; rfl
  · rw [show withoutApprovals turnId = fun session : SessionState =>
      { session with pendingApprovals := session.pendingApprovals.filter fun a => !decide (a.turnId = turnId) } by
        funext session
        simp [withoutApprovals]]
    exact objects_onObject o _

theorem objects_completeTurn (o : ℕ) (result : TurnResult) :
    (s.completeTurn o result).objects[o]? =
      s.objects[o]?.map fun session => completedState result (withoutApprovals result.turnId session) := by
  unfold completeTurn
  split
  · next hnone => rw [hnone]; rfl
  · change (onObject o (completedState result) (s.resolvePendingApprovalsForTurn o result.turnId)).objects[o]? = _
    rw [objects_onObject, objects_resolveForTurn, Option.map_map]
    rfl

def endedState (l : Loop) (result : TurnResult) (session : SessionState) : SessionState :=
  completedState result (withoutApprovals result.turnId
    { session with interruptedTurns := session.interruptedTurns.filter (· ≠ l.turnId) })

theorem objects_endTurn (i : ℕ) (l : Loop) (status : TurnTerminalStatus) (s : Client) :
    (s.endTurn i l status).objects[l.object]? = s.objects[l.object]?.map
      (endedState l ⟨l.turnId, if s.isInterrupted l then .interrupted else status, i⟩) := by
  unfold endTurn
  simp only
  rw [objects_completeTurn, objects_onObject, Option.map_map]
  rfl

theorem objects_cleanUp (i : ℕ) (l : Loop) (s : Client) :
    (s.cleanUp i l).objects[l.object]? =
      s.objects[l.object]?.map fun session => withoutApprovals l.turnId (cleanedState l.turnId session) := by
  change ((s.onObject l.object (cleanedState l.turnId)).resolvePendingApprovalsForTurn l.object
    l.turnId).objects[l.object]? = _
  rw [objects_resolveForTurn, objects_onObject, Option.map_map]
  rfl

/-! ## Turns do not disturb each other -/

/-- The entries of turn `j` are as before: the active marker, the current query if it is its own, the gate if it has
asked for a tool, and its pending approvals. -/
structure Undisturbed (s : Client) (j : ℕ) (l' : Loop) (session session' : SessionState) : Prop where
  active : session'.activeTurnId = session.activeTurnId
  query : session.activeSdkQuery = some j → session'.activeSdkQuery = some j
  gate : (∃ call ∈ s.calls, call.loop = j) →
    session'.ggTeamToolApprovalPending = session.ggTeamToolApprovalPending ∧
    session'.ggTeamToolInFlight = session.ggTeamToolInFlight ∧
    session'.ggTeamToolInvocationId = session.ggTeamToolInvocationId
  approvals : session'.pendingApprovals.filter (fun a => a.turnId = l'.turnId) =
    session.pendingApprovals.filter fun a => a.turnId = l'.turnId

theorem Undisturbed.trans {j : ℕ} {l' : Loop} {a b c : SessionState} (h : Undisturbed s j l' a b)
    (h' : Undisturbed s j l' b c) : Undisturbed s j l' a c where
  active := h'.active.trans h.active
  query := fun hq => h'.query (h.query hq)
  gate := by
    intro hcall
    obtain ⟨hpending, hflight, hinvocation⟩ := h.gate hcall
    obtain ⟨hpending', hflight', hinvocation'⟩ := h'.gate hcall
    exact ⟨hpending'.trans hpending, hflight'.trans hflight, hinvocation'.trans hinvocation⟩
  approvals := h'.approvals.trans h.approvals

/-- The end of a turn leaves the turn that is active in its session as it is. -/
def DisturbsNobody (e : Event) (s : Client) : Prop :=
  ∀ (i : ℕ) (l : Loop) (input : Input) (s' : Client), e = .loop i input → s.loops[i]? = some l → ends l input = true →
    s.step e = some s' → ∀ (j : ℕ) (l' : Loop) (session : SessionState), j ≠ i → s.loops[j]? = some l' →
    l'.object = l.object → LoopPoint.isDone l'.point = false → s.objects[l.object]? = some session →
    session.activeTurnId = some l'.turnId →
    ∃ session', s'.objects[l.object]? = some session' ∧ Undisturbed s j l' session session'

theorem filter_withoutApprovals {turnId turnId' : String} (hne : turnId' ≠ turnId) (session : SessionState) :
    (withoutApprovals turnId session).pendingApprovals.filter (fun a => a.turnId = turnId') =
      session.pendingApprovals.filter fun a => a.turnId = turnId' := by
  simp only [withoutApprovals, List.filter_filter]
  apply List.filter_congr
  intro a _
  by_cases ha : a.turnId = turnId'
  · simp [ha, hne]
  · simp [ha]

theorem undisturbed_ended {j : ℕ} {l' : Loop} {session : SessionState} (hne : l'.turnId ≠ l.turnId)
    (hactive : session.activeTurnId = some l'.turnId) (status : TurnTerminalStatus) :
    Undisturbed s j l' session (endedState l ⟨l.turnId, status, i⟩ session) where
  active := by
    have hother : ¬ session.activeTurnId = some l.turnId := by
      rw [hactive]
      simpa using hne
    simp [endedState, completedState, withoutApprovals, hother]
  query := fun hq => hq
  gate := fun _ => ⟨rfl, rfl, rfl⟩
  approvals := filter_withoutApprovals hne _

theorem undisturbed_cleaned (h : Turns s) {j : ℕ} {l' : Loop} {session : SessionState} (hne : l'.turnId ≠ l.turnId)
    (hj : s.loops[j]? = some l') {session₀ : SessionState} (hs : s.objects[o]? = some session₀)
    (hquery : session.activeSdkQuery = session₀.activeSdkQuery) (hqueried : LoopPoint.queried l'.point = false) :
    Undisturbed s j l' session (withoutApprovals l.turnId (cleanedState l.turnId session)) where
  active := rfl
  query := by
    intro hq
    obtain ⟨l₀, hl₀, hqueried₀⟩ := h.queries o session₀ j hs (hquery ▸ hq)
    obtain rfl := Option.some.inj (hj.symm.trans hl₀)
    exact absurd hqueried₀ (by simp [hqueried])
  gate := by
    rintro ⟨call, hc, rfl⟩
    obtain ⟨l₀, hl₀, hqueried₀⟩ := h.calls call hc
    obtain rfl := Option.some.inj (hj.symm.trans hl₀)
    exact absurd hqueried₀ (by simp [hqueried])
  approvals := filter_withoutApprovals hne _

theorem runLoop_of_cleansUp (i : ℕ) {input : Input} (h : cleansUp l input = true) :
    (∃ status, s.runLoop i l input = some ((s.endTurn i l status).cleanUp i l)) ∨
      s.runLoop i l input = some (s.cleanUp i l) := by
  cases hpoint : l.point <;> cases input <;> simp_all [cleansUp, runLoop] <;> exact .inl ⟨_, rfl⟩

theorem runLoop_of_result (i : ℕ) {input : Input} (h : ends l input = true) (hclean : cleansUp l input = false) :
    ∃ success, s.runLoop i l input = some ((s.endTurn i l (resultStatus success)).atPoint i .returning) := by
  cases hpoint : l.point <;> cases input <;> simp_all [ends, cleansUp, runLoop, -Bool.exists_bool]
  exact ⟨_, rfl⟩

theorem running_of_ends {input : Input} (h : ends l input = true) : LoopPoint.isDone l.point = false := by
  cases hpoint : l.point <;> simp_all [ends, cleansUp, LoopPoint.isDone]

/-- As long as a clean-up runs before the next turn has its query, and no turn takes the id of one that is still being
cleaned up, the end of a turn disturbs no other. -/
theorem end_of_turn_disturbs_nobody {e : Event} (h : Reaches Client.step (fun e s => turnsApart e s = true) new s)
    (ha : turnsApart e s = true) : DisturbsNobody e s := by
  have hturns := h.invariant turns_new fun _ _ _ ht ha hs => Turns.step ht ha hs
  rintro i l input s' rfl hi hends hs j l' session hne hj hobject hnot hsession hactive
  simp only [Client.step, hi, Option.bind_some] at hs
  have hrunning : LoopPoint.isDone l.point = false := running_of_ends hends
  have hid : l'.turnId ≠ l.turnId := fun he => hne (hturns.apart j i l' l hj hi hobject he hnot hrunning)
  -- when the loop cleans up the other turn has no query yet
  have hqueried : cleansUp l input = true → LoopPoint.queried l'.point = false := by
    intro hclean
    simp only [turnsApart, hi, Option.all_some, hclean, Bool.not_true, Bool.false_or, Bool.not_eq_true'] at ha
    by_contra hne'
    have hquery : LoopPoint.hasQuery l'.point = true := by
      cases hpoint : l'.point <;> simp_all [LoopPoint.queried, LoopPoint.hasQuery, LoopPoint.isDone]
    have helsewhere : activeElsewhere i l s = true := by
      simp only [activeElsewhere, hsession, Option.any_some, List.any_eq_true, List.mem_range]
      refine ⟨j, (List.getElem?_eq_some_iff.mp hj).1, ?_⟩
      simp [hne, hj, hobject, hactive, hquery]
    rw [helsewhere] at ha
    exact absurd ha (by simp)
  have hended : ∀ status, ∃ session', (s.endTurn i l status).objects[l.object]? = some session' ∧
      session'.activeSdkQuery = session.activeSdkQuery ∧ Undisturbed s j l' session session' := by
    intro status
    have hmap := objects_endTurn i l status s
    rw [hsession, Option.map_some] at hmap
    exact ⟨_, hmap, rfl, undisturbed_ended hid hactive _⟩
  have hboth : ∀ status, cleansUp l input = true → ∃ session',
      ((s.endTurn i l status).cleanUp i l).objects[l.object]? = some session' ∧ Undisturbed s j l' session session' := by
    intro status hclean
    obtain ⟨session₁, hsession₁, hquery₁, hundisturbed⟩ := hended status
    have hmap := objects_cleanUp i l (s.endTurn i l status)
    rw [hsession₁, Option.map_some] at hmap
    exact ⟨_, hmap, hundisturbed.trans (undisturbed_cleaned hturns hid hj hsession hquery₁ (hqueried hclean))⟩
  cases hclean : cleansUp l input with
  | false =>
    obtain ⟨success, hrun⟩ := runLoop_of_result (s := s) i hends hclean
    obtain rfl := Option.some.inj (hrun.symm.trans hs)
    obtain ⟨session', hsession', -, hundisturbed⟩ := hended (resultStatus success)
    exact ⟨session', hsession', hundisturbed⟩
  | true =>
    obtain ⟨status, hrun⟩ | hrun := runLoop_of_cleansUp (s := s) i hclean
    · obtain rfl := Option.some.inj (hrun.symm.trans hs)
      exact hboth status hclean
    · obtain rfl := Option.some.inj (hrun.symm.trans hs)
      have hmap := objects_cleanUp i l s
      rw [hsession, Option.map_some] at hmap
      exact ⟨_, hmap, undisturbed_cleaned hturns hid hj hsession rfl (hqueried hclean)⟩

def firstTurn : List Event :=
  [.createSession, .sendInput "claude_sess_1" none, .loop 0 .resumed, .loop 0 .resumed, .loop 0 (.result true)]

/-- What a session says of the turn that runs in it. -/
structure Marks where
  active : Option String
  query : Option ℕ
  deriving DecidableEq

def marks (s : Client) : Option Marks :=
  s.objects[0]?.map fun session => ⟨session.activeTurnId, session.activeSdkQuery⟩

theorem end_of_turn_disturbs_nobody_next :
    ∃ s, Reaches Client.step (fun e s => turnsApart e s = true) new s ∧
      turnsApart (.loop 0 .resumed) s = true ∧ (s.step (.loop 0 .resumed)).isSome = true ∧
      marks s = some ⟨some "turn_2", some 0⟩ ∧ DisturbsNobody (.loop 0 .resumed) s := by
  -- the next turn is started, and has no query yet, when the first one cleans up
  obtain ⟨s, hs, hmarks⟩ := exists_reaches_of_runAll (s := new) Client.step turnsApart
    (firstTurn ++ [.sendInput "claude_sess_1" none])
    (fun s => (turnsApart (.loop 0 .resumed) s, (s.step (.loop 0 .resumed)).isSome, marks s))
    (true, true, some ⟨some "turn_2", some 0⟩) (by decide +kernel)
  obtain ⟨hapart, hrest⟩ := Prod.mk.inj hmarks
  obtain ⟨hsome, hmarks⟩ := Prod.mk.inj hrest
  exact ⟨s, hs, hapart, hsome, hmarks, end_of_turn_disturbs_nobody hs hapart⟩

/-- What is known of a loop: its session object, its turn, and whether its next section ends the turn. -/
structure Summary where
  object : ℕ
  turnId : String
  ends : Bool
  isDone : Bool
  deriving DecidableEq

def summary (l : Loop) : Summary := ⟨l.object, l.turnId, ends l .resumed, LoopPoint.isDone l.point⟩

theorem not_end_of_turn_disturbs_nobody :
    ¬ ∀ (e : Event) (s : Client), Reaches Client.step (fun _ _ => True) new s → DisturbsNobody e s := by
  intro h
  -- the second turn has its query when the iterator of the first one has returned
  obtain ⟨s, hs, hmarks⟩ := exists_reaches_of_runAll (s := new) Client.step (fun _ _ => true)
    (firstTurn ++ [.sendInput "claude_sess_1" none, .loop 1 .resumed, .loop 1 .resumed])
    (fun s => (s.loops.map summary, marks s, ((s.step (.loop 0 .resumed)).bind marks)))
    ([⟨0, "turn_1", true, false⟩, ⟨0, "turn_2", false, false⟩], some ⟨some "turn_2", some 1⟩,
      some ⟨some "turn_2", none⟩) (by decide +kernel)
  obtain ⟨hloops, hrest⟩ := Prod.mk.inj hmarks
  obtain ⟨hbefore, hafter⟩ := Prod.mk.inj hrest
  have hfirst := congrArg (fun ls => ls[0]?) hloops
  have hsecond := congrArg (fun ls => ls[1]?) hloops
  simp only [List.getElem?_map, Option.map_eq_some_iff, List.getElem?_cons_zero, List.getElem?_cons_succ, summary,
    Summary.mk.injEq] at hfirst hsecond
  obtain ⟨l, hi, hobject, -, hends, -⟩ := hfirst
  obtain ⟨l', hj, hobject', hturn, -, hnot⟩ := hsecond
  obtain ⟨session, hsession, hmark⟩ := Option.map_eq_some_iff.mp hbefore
  obtain ⟨s', hstep, hmark'⟩ := Option.bind_eq_some_iff.mp hafter
  obtain ⟨hactive, hquery⟩ := Marks.mk.inj hmark
  obtain ⟨session', hsession', hundisturbed⟩ := h (.loop 0 .resumed) s (hs.mono fun _ _ _ => trivial) 0 l .resumed s' rfl
    hi hends hstep 1 l' session (by decide) hj (hobject'.trans hobject.symm) hnot (hobject ▸ hsession)
    (hturn ▸ hactive)
  obtain ⟨session₁, hsession₁, hmark₁⟩ := Option.map_eq_some_iff.mp hmark'
  rw [hobject] at hsession'
  obtain rfl := Option.some.inj (hsession₁.symm.trans hsession')
  -- the current query is gone
  have hgone := hundisturbed.query hquery
  rw [(Marks.mk.inj hmark₁).2] at hgone
  simp at hgone

end Client

end Gooselake.Providers.BridgeClient
