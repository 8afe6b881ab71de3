import Gooselake.Providers.Host

/-!
What each adapter operation keeps, for the sessions whose next launch is awaited: their Codex entry and
their bridge session refer to the awaited conversation, and no agent of theirs is running.
-/

namespace Gooselake.Providers

open Gooselake.Core Gooselake.Runtime Data Library Library.Exec

set_option autoImplicit false

def conversationFor (agent : Agent) (ref canonical : Option String) : Option Conversation :=
  match agent with
  | .codex => (ref.bind Codex.resumedRef).map (Conversation.mk .codex)
  | .claude => ((Bridge.asOptionalString canonical).or (Bridge.asOptionalString ref)).map (Conversation.mk .claude)

theorem conversationFor_agent {agent : Agent} {ref canonical : Option String} {v : Conversation}
    (h : conversationFor agent ref canonical = some v) : v.agent = agent := by
  cases agent with
  | codex =>
    obtain ⟨r, -, rfl⟩ := Option.map_eq_some_iff.mp h
    rfl
  | claude =>
    obtain ⟨r, -, rfl⟩ := Option.map_eq_some_iff.mp h
    rfl

def Fewer (awaited' awaited : Table String Conversation) : Prop :=
  ∀ k v, awaited'.lookup k = some v → awaited.lookup k = some v

theorem fewer_erase (awaited : Table String Conversation) (k : String) : Fewer (awaited.erase k) awaited := by
  intro k' v h
  rw [Table.lookup_erase] at h
  split at h
  · cases h
  · exact h

def Asks (awaited : Table String Conversation) (agent : Agent) (k : String) (ref canonical : Option String) : Prop :=
  ∀ v, awaited.lookup k = some v → conversationFor agent ref canonical = some v

/-! ## Codex -/

structure CodexFits (awaited : Table String Conversation) (c : Codex) : Prop where
  session : ∀ k v s, awaited.lookup k = some v → c.sessions.lookup k = some s →
    (Codex.resumedRef s.providerSessionRef).map (Conversation.mk .codex) = some v
  exited : ∀ k v, awaited.lookup k = some v → ∀ p ∈ c.processes, p.runtimeSessionId = k → p.exited = true

/-- How the adapter goes on with a request for session `k`: it starts no process, or one that resumes the
conversation awaited for `k`. -/
inductive CodexGoes (awaited : Table String Conversation) (c : Codex) (k : String) (c' : Codex) : Prop where
  | quiet (processes : c'.processes = c.processes) (fits : CodexFits awaited c')
  | launched (p : CodexProcess) (processes : c'.processes = c.processes ++ [p]) (session : p.runtimeSessionId = k)
      (resumes : ∀ v, awaited.lookup k = some v → p.resumes.map (Conversation.mk .codex) = some v)
      (fits : CodexFits (awaited.erase k) c')

section

variable {awaited : Table String Conversation} {c : Codex} {k : String}

theorem CodexFits.fewer (h : CodexFits awaited c) {awaited' : Table String Conversation}
    (hf : Fewer awaited' awaited) : CodexFits awaited' c :=
  ⟨fun k v s hv hs => h.session k v s (hf k v hv) hs, fun k v hv => h.exited k v (hf k v hv)⟩

theorem codexFits_new (awaited : Table String Conversation) : CodexFits awaited Codex.new :=
  ⟨fun k v s _ hs => by simp [Codex.new] at hs, fun k v _ p hp => by simp [Codex.new] at hp⟩

theorem CodexFits.put (h : CodexFits awaited c) {s : CodexSessionState}
    (hs : ∀ v, awaited.lookup k = some v →
      (Codex.resumedRef s.providerSessionRef).map (Conversation.mk .codex) = some v) :
    CodexFits awaited { c with sessions := c.sessions.insert k s } := by
  refine ⟨fun k' v s' hv hs' => ?_, h.exited⟩
  rw [Table.lookup_insert] at hs'
  split at hs'
  · next he =>
    subst he
    obtain rfl := Option.some.inj hs'
    exact hs v hv
  · exact h.session k' v s' hv hs'

theorem codex_createSession_fits (h : CodexFits awaited c) {req : ProviderCreateSessionRequest}
    (hnew : awaited.lookup req.runtimeSessionId = none) :
    After (Codex.createSession req) c fun _ c' => c'.processes = c.processes ∧ CodexFits awaited c' := by
  simp only [Codex.createSession, Codex.putSession, after_bind_iff, after_modify, after_pure]
  refine ⟨trivial, h.put fun v hv => ?_⟩
  rw [hnew] at hv
  cases hv

theorem codex_resumeSession_fits (h : CodexFits awaited c) {req : ProviderResumeSessionRequest}
    (hasks : Asks awaited .codex req.runtimeSessionId (some req.providerSessionRef) req.canonicalProviderSessionRef) :
    After (Codex.resumeSession req) c fun r c' => c'.processes = c.processes ∧ CodexFits awaited c' ∧
      ∀ resumed, r = .ok resumed →
        Asks awaited .codex req.runtimeSessionId
        (some resumed.providerSessionRef) resumed.canonicalProviderSessionRef := by
  simp only [Codex.resumeSession, Codex.putSession, after_bind_iff, after_get, after_modify, after_pure]
  refine ⟨trivial, h.put fun v hv => hasks v hv, fun resumed hr => ?_⟩
  obtain rfl := Except.ok.inj hr
  exact hasks

theorem codex_closeSession_fits (h : CodexFits awaited c) (req : ProviderCloseSessionRequest) :
    After (Codex.closeSession req) c fun _ c' => c'.processes = c.processes ∧ CodexFits awaited c' := by
  rw [Codex.closeSession, after_modify]
  refine ⟨rfl, fun k v s hv hs => ?_, h.exited⟩
  rw [Table.lookup_erase] at hs
  split at hs
  · cases hs
  · exact h.session k v s hv hs

theorem after_codex_getSession (k : String) {Q : Except RuntimeError CodexSessionState → Codex → Prop}
    (hsome : ∀ s, c.sessions.lookup k = some s → Q (.ok s) c)
    (hnone : Q (.error (.notFound s!"codex session {k}")) c) : After (Codex.getSession k) c Q := by
  simp only [Codex.getSession, after_bind_iff, after_get, after_orThrow]
  exact ⟨hsome, fun _ => hnone⟩

theorem codex_spawn_fits (h : CodexFits awaited c) {s : CodexSessionState} (hs : c.sessions.lookup k = some s)
    (s' : CodexSessionState) (turnId : String) (input : List Json) (spawned : Except RuntimeError Unit) :
    After (do
      Codex.spawnTurn k turnId input s spawned
      Codex.putSession k s') c fun r c' => CodexGoes awaited c k c' ∧ ∀ e, r = .error e → c' = c := by
  simp only [Codex.spawnTurn, Codex.putSession, after_bind_iff, after_ofExcept]
  cases spawned with
  | error e => exact ⟨.quiet rfl h, fun _ _ => trivial⟩
  | ok _ =>
    simp only [after_modify]
    refine ⟨.launched _ rfl rfl (fun v hv => h.session k v s hv hs) ?_, fun e he => by cases he⟩
    refine ⟨fun k' v s₁ hv hs₁ => ?_, fun k' v hv p hp hk => ?_⟩
    · rw [Table.lookup_erase] at hv
      split at hv
      · cases hv
      · next hne =>
        rw [Table.lookup_insert, if_neg hne] at hs₁
        exact h.session k' v s₁ hv hs₁
    · rw [Table.lookup_erase] at hv
      split at hv
      · cases hv
      · next hne =>
        rcases List.mem_append.mp hp with hp | hp
        · exact h.exited k' v hv p hp hk
        · obtain rfl := List.mem_singleton.mp hp
          exact absurd hk.symm hne

theorem codex_sendTurn_goes (h : CodexFits awaited c) (req : ProviderSendTurnRequest)
    (spawned : Except RuntimeError Unit) :
    After (Codex.sendTurn req spawned) c fun r c' =>
      CodexGoes awaited c req.runtimeSessionId c' ∧ ∀ e, r = .error e → c' = c := by
  simp only [Codex.sendTurn]
  rw [after_bind_iff]
  refine after_codex_getSession _ (fun s hs => ?_) ⟨.quiet rfl h, fun _ _ => rfl⟩
  dsimp only
  split
  · exact (after_throw _ _ _).mpr ⟨.quiet rfl h, fun _ _ => rfl⟩
  · cases req.approvalId with
    | some approvalId =>
      simp only [Codex.putSession, after_bind_iff, after_modify, after_pure]
      exact ⟨.quiet rfl (h.put fun v hv => h.session _ v s hv hs), fun e he => by cases he⟩
    | none =>
      -- the acknowledgement adds nothing to the spawn
      have hspawn := codex_spawn_fits h hs (Codex.activate req.turnId s) req.turnId req.input spawned
      simp only [after_bind_iff, after_pure] at hspawn ⊢
      refine hspawn.elim (fun _ c₁ h₁ => ?_) fun _ _ h₁ => ⟨h₁.1, fun _ _ => h₁.2 _ rfl⟩
      exact h₁.elim (fun _ _ h₂ => ⟨h₂.1, fun e he => by cases he⟩) fun e _ h₂ => ⟨h₂.1, fun _ _ => h₂.2 e rfl⟩

theorem codex_completeTurn_fits (h : CodexFits awaited c) (turnId : String) (result : ProviderTurnResult)
    (ref : Option String) (hk : ref.isSome → awaited.lookup k = none) :
    After (Codex.completeTurn k turnId result ref) c fun _ c' => c'.processes = c.processes ∧ CodexFits awaited c' := by
  simp only [Codex.completeTurn, Codex.putSession, after_bind_iff, after_get]
  cases hs : c.sessions.lookup k with
  | none => exact (after_pure _ _ _).mpr ⟨rfl, h⟩
  | some s =>
    simp only [after_bind_iff, after_modify, after_pure]
    refine ⟨trivial, h.put fun v hv => ?_⟩
    cases ref with
    | none => exact h.session k v s hv hs
    | some ref =>
      rw [hk rfl] at hv
      cases hv

theorem codex_respondApproval_goes (h : CodexFits awaited c) (req : ProviderApprovalResponseRequest)
    (spawned : Except RuntimeError Unit) :
    After (Codex.respondApproval req spawned) c fun _ c' => CodexGoes awaited c req.runtimeSessionId c' := by
  simp only [Codex.respondApproval]
  refine after_checked (fun decision _ => ?_) fun _ _ => .quiet rfl h
  cases decision with
  | decline =>
    simp only [after_bind_iff, after_pure]
    refine (codex_completeTurn_fits h req.turnId _ none (fun hn => by cases hn)).elim
      (fun _ _ h₁ => .quiet h₁.1 h₁.2) fun _ _ h₁ => .quiet h₁.1 h₁.2
  | accept =>
    simp only
    rw [after_bind_iff]
    refine after_codex_getSession _ (fun s hs => ?_) (.quiet rfl h)
    dsimp only
    rw [after_bind_iff, after_orThrow]
    refine ⟨fun pending _ => ?_, fun _ => .quiet rfl h⟩
    dsimp only
    split
    · exact (after_throw _ _ _).mpr (.quiet rfl h)
    · exact (codex_spawn_fits h hs _ pending.turnId pending.input spawned).mono fun _ _ h₁ => h₁.1

theorem codex_processEnds_fits (h : CodexFits awaited c) {n : ℕ} {p : CodexProcess} (hp : c.processes[n]? = some p)
    (hrun : p.exited = false) (threadId : Option String) (result : ProviderTurnResult) :
    After (Codex.processEnds n p threadId result) c fun _ c' => CodexFits awaited c' := by
  have hk : awaited.lookup p.runtimeSessionId = none := by
    cases hv : awaited.lookup p.runtimeSessionId with
    | none => rfl
    | some v =>
      have hexited := h.exited _ v hv p (List.mem_of_getElem? hp) rfl
      rw [hrun] at hexited
      cases hexited
  have hset : CodexFits awaited { c with processes := c.processes.set n { p with exited := true } } := by
    refine ⟨h.session, fun k v hv q hq hqk => ?_⟩
    rcases List.mem_or_eq_of_mem_set hq with hq | rfl
    · exact h.exited k v hv q hq hqk
    · rfl
  simp only [Codex.processEnds, after_bind_iff, after_modify, after_pure]
  exact (codex_completeTurn_fits hset p.turnId result _ fun _ => hk).elim (fun _ _ h₁ => h₁.2) fun _ _ h₁ => h₁.2

end

/-! ## Claude -/

/-- The bridge session `id` of bridge `b`. -/
def Claude.sessionAt (c : Claude) (b : ℕ) (id : String) : Option SessionState :=
  (c.bridges.lookup b).bind fun bridge => bridge.sessions.lookup id

structure ClaudeFits (awaited : Table String Conversation) (c : Claude) : Prop where
  session : ∀ b id s, c.sessionAt b id = some s → ∀ v, awaited.lookup s.callerAgentId = some v →
    (Bridge.resumedRef s).map (Conversation.mk .claude) = some v ∧ s.queried = false
  /-- A handle is mapped to a bridge session made for its own session. -/
  mapped : ∀ k h, c.sessions.lookup k = some h → h.bridge ∈ c.bridges →
    ∃ s, c.sessionAt h.bridge h.bridgeSessionId = some s ∧ s.callerAgentId = k
  handle : ∀ k h, c.sessions.lookup k = some h → h.bridge < c.nextBridgeInstanceId
  bridge : ∀ b ∈ c.bridges, b < c.nextBridgeInstanceId

section

variable {awaited : Table String Conversation} {c : Claude} {k : String}

theorem ClaudeFits.fewer (h : ClaudeFits awaited c) {awaited' : Table String Conversation}
    (hf : Fewer awaited' awaited) : ClaudeFits awaited' c :=
  ⟨fun b id s hs v hv => h.session b id s hs v (hf _ v hv), h.mapped, h.handle, h.bridge⟩

theorem claudeFits_new (awaited : Table String Conversation) : ClaudeFits awaited Claude.new where
  session b id s hs := by simp [Claude.sessionAt, Claude.new] at hs
  mapped k h hh := by simp [Claude.new] at hh
  handle k h hh := by simp [Claude.new] at hh
  bridge b hb := by simp [Claude.new] at hb

theorem Claude.sessionAt_insert (c : Claude) (b : ℕ) (bridge : Bridge) (b' : ℕ) (id : String) :
    ({ c with bridges := c.bridges.insert b bridge } : Claude).sessionAt b' id =
      if b' = b then bridge.sessions.lookup id else c.sessionAt b' id := by
  simp only [Claude.sessionAt, Table.lookup_insert]
  split <;> rfl

theorem Claude.sessionAt_of_lookup {b : ℕ} {bridge : Bridge} (hb : c.bridges.lookup b = some bridge) (id : String) :
    c.sessionAt b id = bridge.sessions.lookup id := by
  rw [Claude.sessionAt, hb]
  rfl

theorem ClaudeFits.put (h : ClaudeFits awaited c) {b : ℕ} {bridge bridge' : Bridge} {id : String} {s : SessionState}
    (hb : c.bridges.lookup b = some bridge) (hput : bridge'.sessions = bridge.sessions.insert id s)
    (hs : ∀ v, awaited.lookup s.callerAgentId = some v →
      (Bridge.resumedRef s).map (Conversation.mk .claude) = some v ∧ s.queried = false)
    (hmapped : ∀ k hd, c.sessions.lookup k = some hd → hd.bridge = b → hd.bridgeSessionId = id → s.callerAgentId = k) :
    ClaudeFits awaited { c with bridges := c.bridges.insert b bridge' } := by
  have hbmem : b ∈ c.bridges := Table.lookup_isSome hb
  have hat : ∀ b' id', ({ c with bridges := c.bridges.insert b bridge' } : Claude).sessionAt b' id' =
      if b' = b ∧ id' = id then some s else c.sessionAt b' id' := by
    intro b' id'
    rw [Claude.sessionAt_insert, hput, Table.lookup_insert]
    by_cases he : b' = b
    · subst he
      rw [if_pos rfl, Claude.sessionAt_of_lookup hb]
      by_cases hi : id' = id <;> simp [hi]
    · simp [he]
  have hmem : ∀ b', b' ∈ c.bridges.insert b bridge' ↔ b' ∈ c.bridges := by
    intro b'
    rw [AList.mem_insert]
    constructor
    · rintro (rfl | hb')
      · exact hbmem
      · exact hb'
    · exact .inr
  refine ⟨fun b' id' s' hs' v hv => ?_, fun k hd hk hlive => ?_, h.handle, fun b' hb' => h.bridge b' ((hmem b').mp hb')⟩
  · rw [hat] at hs'
    split at hs'
    · obtain rfl := Option.some.inj hs'
      exact hs v hv
    · exact h.session b' id' s' hs' v hv
  · rw [hat]
    split
    · next he => exact ⟨s, rfl, hmapped k hd hk he.1 he.2⟩
    · exact h.mapped k hd hk ((hmem _).mp hlive)

theorem ClaudeFits.eraseHandle (h : ClaudeFits awaited c) (k : String) :
    ClaudeFits awaited { c with sessions := c.sessions.erase k } := by
  have hold : ∀ k' hd, (c.sessions.erase k).lookup k' = some hd → c.sessions.lookup k' = some hd := by
    intro k' hd hk
    rw [Table.lookup_erase] at hk
    split at hk
    · cases hk
    · exact hk
  exact ⟨h.session, fun k' hd hk => h.mapped k' hd (hold k' hd hk), fun k' hd hk =>
    h.handle k' hd (hold k' hd hk), h.bridge⟩

theorem ClaudeFits.insertHandle (h : ClaudeFits awaited c) {hd : ClaudeSessionHandle} {s : SessionState}
    (hlive : hd.bridge ∈ c.bridges) (hs : c.sessionAt hd.bridge hd.bridgeSessionId = some s)
    (howner : s.callerAgentId = k) :
    After (Claude.insertSession k hd) c fun _ c' => ClaudeFits awaited c' := by
  simp only [Claude.insertSession]
  rw [after_bind_iff, after_get]
  dsimp only
  split
  · exact (after_throw _ _ _).mpr h
  · rw [after_bind_iff, after_get]
    dsimp only
    split
    · exact (after_throw _ _ _).mpr h
    · rw [after_modify]
      refine ⟨h.session, fun k' hd' hk hlive' => ?_, fun k' hd' hk => ?_, h.bridge⟩
      · rw [Table.lookup_insert] at hk
        split at hk
        · next he =>
          obtain rfl := Option.some.inj hk
          exact ⟨s, hs, howner.trans he.symm⟩
        · exact h.mapped k' hd' hk hlive'
      · rw [Table.lookup_insert] at hk
        split at hk
        · obtain rfl := Option.some.inj hk
          exact h.bridge _ hlive
        · exact h.handle k' hd' hk

theorem ClaudeFits.acquired (h : ClaudeFits awaited c) (t : Transit) :
    ClaudeFits awaited (Claude.acquired t c).2 ∧ (Claude.acquired t c).2.sessions = c.sessions ∧
      (Claude.acquired t c).1 ∈ (Claude.acquired t c).2.bridges := by
  unfold Claude.acquired
  split
  · next hb => exact ⟨h, rfl, hb⟩
  · have hfresh : c.nextBridgeInstanceId ∉ c.bridges := fun hb => Nat.lt_irrefl _ (h.bridge _ hb)
    refine ⟨⟨fun b id s hs v hv => ?_, fun k hd hk hlive => ?_, fun k hd hk => ?_, fun b hb => ?_⟩, rfl, ?_⟩
    · change ({ c with bridges := c.bridges.insert c.nextBridgeInstanceId Bridge.new } : Claude).sessionAt b id = some s at hs
      rw [Claude.sessionAt_insert] at hs
      split at hs
      · simp [Bridge.new] at hs
      · exact h.session b id s hs v hv
    · have hne : hd.bridge ≠ c.nextBridgeInstanceId := Nat.ne_of_lt (h.handle k hd hk)
      have hold : hd.bridge ∈ c.bridges := ((AList.mem_insert _).mp hlive).resolve_left hne
      change ∃ s, ({ c with bridges := c.bridges.insert c.nextBridgeInstanceId Bridge.new } : Claude).sessionAt _ _ = some s ∧ _
      rw [Claude.sessionAt_insert, if_neg hne]
      exact h.mapped k hd hk hold
    · exact Nat.lt_succ_of_lt (h.handle k hd hk)
    · rcases (AList.mem_insert _).mp hb with rfl | hb
      · exact Nat.lt_succ_self _
      · exact Nat.lt_succ_of_lt (h.bridge b hb)
    · exact (AList.mem_insert _).mpr (.inl rfl)

/-- The rule of a request: it is lost, or the bridge runs it and its answer may be. -/
theorem after_sendBridgeRequest {α : Type} {b : ℕ} {t : Transit} {m : BridgeM α}
    {Q : Except RuntimeError α → Claude → Prop}
    (hlost : ∀ e, Q (.error e) c)
    (hrun : ∀ bridge, c.bridges.lookup b = some bridge → After m bridge fun r bridge' =>
      (∀ e, Q (.error e) { c with bridges := c.bridges.insert b bridge' }) ∧
        ∀ a, r = .ok a → Q (.ok a) { c with bridges := c.bridges.insert b bridge' }) :
    After (Claude.sendBridgeRequest b t m) c Q := by
  simp only [Claude.sendBridgeRequest, Claude.failing]
  rw [after_bind_iff]
  cases t.lost with
  | some e => exact (after_throw _ _ _).mpr (hlost e)
  | none =>
    refine (after_pure _ _ _).mpr ?_
    simp only [after_bind_iff, after_get, after_orThrow, after_modify]
    refine ⟨fun bridge hb => ?_, fun _ => hlost _⟩
    have hr := (hrun bridge hb).out
    cases t.late with
    | some e => exact (after_throw _ _ _).mpr (hr.1 e)
    | none =>
      refine (after_pure _ _ _).mpr ?_
      rw [after_ofExcept]
      cases hres : (m.result bridge).1 with
      | error e => exact hr.1 _
      | ok a => exact hr.2 a hres

def Claude.free (c : Claude) (b : ℕ) (id k : String) : Bool :=
  (c.sessionAt b id).all fun s => s.callerAgentId = k

theorem ClaudeFits.touch (h : ClaudeFits awaited c) {b : ℕ} {bridge bridge' : Bridge}
    (hb : c.bridges.lookup b = some bridge) (hsame : bridge'.sessions = bridge.sessions) :
    ClaudeFits awaited { c with bridges := c.bridges.insert b bridge' } := by
  have hat : ∀ b' id, ({ c with bridges := c.bridges.insert b bridge' } : Claude).sessionAt b' id =
      c.sessionAt b' id := by
    intro b' id
    rw [Claude.sessionAt_insert]
    split
    · next he =>
      subst he
      rw [hsame, Claude.sessionAt_of_lookup hb]
    · rfl
  have hmem : ∀ b', b' ∈ c.bridges.insert b bridge' → b' ∈ c.bridges := by
    intro b' hb'
    rcases (AList.mem_insert _).mp hb' with rfl | hb'
    · exact Table.lookup_isSome hb
    · exact hb'
  refine ⟨fun b' id s hs => ?_, fun k hd hk hlive => ?_, h.handle, fun b' hb' => h.bridge b' (hmem b' hb')⟩
  · rw [hat] at hs
    exact h.session b' id s hs
  · rw [hat]
    exact h.mapped k hd hk (hmem _ hlive)

theorem ClaudeFits.give (h : ClaudeFits awaited c) {b : ℕ} {bridge bridge' : Bridge} {id : String} {s : SessionState}
    (hb : c.bridges.lookup b = some bridge) (hput : bridge'.sessions = bridge.sessions.insert id s)
    (hs : ∀ v, awaited.lookup s.callerAgentId = some v →
      (Bridge.resumedRef s).map (Conversation.mk .claude) = some v ∧ s.queried = false)
    (hfree : c.free b id s.callerAgentId = true) :
    ClaudeFits awaited { c with bridges := c.bridges.insert b bridge' } := by
  refine h.put hb hput hs fun k hd hk he hi => ?_
  subst he hi
  obtain ⟨s₀, hs₀, howner⟩ := h.mapped k hd hk (Table.lookup_isSome hb)
  rw [Claude.free, hs₀] at hfree
  have hsame : s₀.callerAgentId = s.callerAgentId := by simpa using hfree
  exact hsame.symm.trans howner

theorem ClaudeFits.giveHandle (h : ClaudeFits awaited c) {b : ℕ} {bridge bridge' : Bridge} {id : String}
    {s : SessionState}
    (hb : c.bridges.lookup b = some bridge) (hput : bridge'.sessions = bridge.sessions.insert id s)
    (hs : ∀ v, awaited.lookup s.callerAgentId = some v →
      (Bridge.resumedRef s).map (Conversation.mk .claude) = some v ∧ s.queried = false)
    (hfree : c.free b id s.callerAgentId = true) (ref : String) (canonical : Option String) :
    After (Claude.insertSession s.callerAgentId ⟨id, ref, canonical, b⟩)
      { c with bridges := c.bridges.insert b bridge' } fun _ c' => ClaudeFits awaited c' := by
  refine (h.give hb hput hs hfree).insertHandle ((AList.mem_insert _).mpr (.inl rfl)) (s := s) ?_ rfl
  rw [Claude.sessionAt_insert, if_pos rfl, hput, Table.lookup_insert, if_pos rfl]

/-- `session.create` on the bridge picked would replace no session. -/
def Claude.createFree (c : Claude) (t : Transit) (k : String) : Bool :=
  let (b, c) := Claude.acquired t c
  (c.bridges.lookup b).all fun bridge => c.free b bridge.nextSessionId k

theorem claude_createSession_fits (h : ClaudeFits awaited c) {req : ProviderCreateSessionRequest} {t : Transit}
    (hnew : awaited.lookup req.runtimeSessionId = none) (hfree : c.createFree t req.runtimeSessionId = true) :
    After (Claude.createSession req t) c fun _ c' => ClaudeFits awaited c' := by
  obtain ⟨hacq, -, -⟩ := h.acquired t
  simp only [Claude.createSession, Claude.acquireBridgeForNewSession, after_bind_iff, after_get,
    after_modify, after_pure]
  unfold Claude.createFree at hfree
  generalize Claude.acquired t c = p at *
  obtain ⟨b, c₁⟩ := p
  dsimp only at hacq hfree ⊢
  refine after_sendBridgeRequest (fun _ => hacq) fun bridge hb => ?_
  rw [hb, Option.all_some] at hfree
  simp only [Bridge.createSession, Bridge.putSession, after_bind_iff, after_get, after_modify, after_pure]
  -- nothing is awaited for the new session
  have hs : ∀ v, awaited.lookup req.runtimeSessionId = some v → False := by
    intro v hv
    rw [hnew] at hv
    cases hv
  let s : SessionState := ⟨req.runtimeSessionId, bridge.nextSessionId, none, none, 0, false⟩
  refine ⟨fun _ => hacq.give (s := s) hb rfl (fun v hv => (hs v hv).elim) hfree, fun response hr => ?_⟩
  obtain rfl := Except.ok.inj hr
  refine (hacq.giveHandle (s := s) hb rfl (fun v hv => (hs v hv).elim) hfree _ _).elim (fun _ _ h₁ => ?_)
    fun _ _ h₁ => ?_
  · exact h₁
  · exact h₁

/-- `session.resume` on the bridge picked would set no other session's bridge session. -/
def Claude.resumeFree (c : Claude) (t : Transit) (k ref : String) : Bool :=
  let (b, c) := Claude.acquired t { c with sessions := c.sessions.erase k }
  c.free b ref k

theorem asOptionalString_some {s : String} (hs : s ≠ "") : Bridge.asOptionalString (some s) = some s := by
  simp [Bridge.asOptionalString, Option.filter, hs]

theorem asOptionalString_ne {o : Option String} {s : String} (h : Bridge.asOptionalString o = some s) : s ≠ "" := by
  have hp := Option.filter_eq_some_iff.mp h
  simpa using hp.2

theorem asOptionalString_getD (ref : String) (canonical : Option String) :
    Bridge.asOptionalString (some ((Bridge.asOptionalString canonical).getD ref)) =
      (Bridge.asOptionalString canonical).or (Bridge.asOptionalString (some ref)) := by
  cases hc : Bridge.asOptionalString canonical with
  | none => rw [Option.getD_none, Option.none_or]
  | some s => rw [Option.getD_some, Option.some_or, asOptionalString_some (asOptionalString_ne hc)]

theorem conversationFor_answered {ref : String} {canonical : Option String} {v : Conversation} (hne : ref ≠ "")
    (h : conversationFor .claude (some ref) canonical = some v) (htrim : trimmedNonEmpty v.ref = some v.ref) :
    conversationFor .claude (some ref)
      ((trimmedNonEmpty ((Bridge.asOptionalString canonical).getD ref)).or canonical) = some v := by
  have hresumed : ((Bridge.asOptionalString canonical).getD ref) = v.ref ∧ v.agent = .claude := by
    refine ⟨?_, conversationFor_agent h⟩
    rw [conversationFor, ← asOptionalString_getD] at h
    obtain ⟨r, hr, rfl⟩ := Option.map_eq_some_iff.mp h
    exact (Option.filter_eq_some_iff.mp hr).1 |> Option.some.inj
  have hne' : v.ref ≠ "" := by
    rw [← hresumed.1]
    cases hc : Bridge.asOptionalString canonical with
    | none => exact hne
    | some s => exact asOptionalString_ne hc
  rw [hresumed.1, htrim, Option.some_or, conversationFor, asOptionalString_some hne', Option.some_or, Option.map_some,
    ← hresumed.2]

theorem bridge_resumeSession_after (bridge : Bridge) (k ref : String) (canonical : Option String) :
    After (Bridge.resumeSession k ref canonical) bridge fun r bridge' =>
      (∀ e, r = .error e → bridge' = bridge) ∧ ∀ response, r = .ok response → ref ≠ "" ∧
        response = ⟨ref, ref, some ((Bridge.asOptionalString canonical).getD ref)⟩ ∧
        ∃ s, bridge'.sessions = bridge.sessions.insert ref s ∧ s.callerAgentId = k ∧
          s.sdkSessionRef = some ((Bridge.asOptionalString canonical).getD ref) ∧
          (s.queried = true → ∃ s₀, bridge.sessions.lookup ref = some s₀ ∧ s₀.queried = true) := by
  simp only [Bridge.resumeSession, Bridge.ensureString, Bridge.putSession]
  rw [after_bind_iff]
  split
  · exact (after_throw _ _ _).mpr ⟨fun _ _ => rfl, fun _ he => by cases he⟩
  · next hne =>
    refine (after_pure _ _ _).mpr ?_
    simp only [after_bind_iff, after_get]
    cases hs : bridge.sessions.lookup ref with
    | none =>
      dsimp only
      rw [after_bind_iff, after_modify, after_pure]
      refine ⟨fun _ he => (by cases he), fun response hr => ?_⟩
      exact ⟨hne, (Except.ok.inj hr).symm, _, rfl, rfl, rfl, fun hq => by cases hq⟩
    | some s₀ =>
      dsimp only
      rw [after_bind_iff, after_modify, after_pure]
      refine ⟨fun _ he => (by cases he), fun response hr => ?_⟩
      exact ⟨hne, (Except.ok.inj hr).symm, _, rfl, rfl, rfl, fun hq => ⟨s₀, rfl, hq⟩⟩

theorem claude_resumeSession_fits (h : ClaudeFits awaited c) {req : ProviderResumeSessionRequest} {t : Transit}
    (hasks : Asks awaited .claude req.runtimeSessionId (some req.providerSessionRef) req.canonicalProviderSessionRef)
    (htrim : ∀ v, awaited.lookup req.runtimeSessionId = some v → trimmedNonEmpty v.ref = some v.ref)
    (hfree : c.resumeFree t req.runtimeSessionId req.providerSessionRef = true) :
    After (Claude.resumeSession req t) c fun r c' => ClaudeFits awaited c' ∧ ∀ resumed, r = .ok resumed →
      Asks awaited .claude req.runtimeSessionId
      (some resumed.providerSessionRef) resumed.canonicalProviderSessionRef := by
  obtain ⟨hacq, -, -⟩ := (h.eraseHandle req.runtimeSessionId).acquired t
  simp only [Claude.resumeSession, Claude.removeSession, Claude.acquireBridgeForNewSession, after_bind_iff, after_get,
    after_modify, after_pure]
  unfold Claude.resumeFree at hfree
  generalize Claude.acquired t { c with sessions := c.sessions.erase req.runtimeSessionId } = p at *
  obtain ⟨b, c₁⟩ := p
  dsimp only at hacq hfree ⊢
  refine after_sendBridgeRequest (fun _ => ⟨hacq, fun _ he => by cases he⟩) fun bridge hb => ?_
  refine (bridge_resumeSession_after bridge _ _ _).mono fun r bridge' hr => ?_
  cases r with
  | error e =>
    obtain rfl := hr.1 e rfl
    exact ⟨fun _ => ⟨hacq.touch hb rfl, fun _ he => by cases he⟩, fun _ he => by cases he⟩
  | ok response =>
    obtain ⟨hne, hresponse, s, hput, hcaller, hsdk, hqueried⟩ := hr.2 response rfl
    have hawaits : ∀ v, awaited.lookup s.callerAgentId = some v →
        (Bridge.resumedRef s).map (Conversation.mk .claude) = some v ∧ s.queried = false := by
      intro v hv
      rw [hcaller] at hv
      refine ⟨?_, ?_⟩
      · have hv' := hasks v hv
        rw [Bridge.resumedRef, hsdk, asOptionalString_getD]
        exact hv'
      · cases hq : s.queried with
        | false => rfl
        | true =>
          -- a session that was there is the session's own, and its agent is not running
          obtain ⟨s₀, hs₀, hq₀⟩ := hqueried hq
          have hat := Claude.sessionAt_of_lookup hb req.providerSessionRef
          rw [hs₀] at hat
          rw [Claude.free, hat] at hfree
          have howner : s₀.callerAgentId = req.runtimeSessionId := by simpa using hfree
          have := (hacq.session _ _ _ hat v (howner ▸ hv)).2
          rw [hq₀] at this
          cases this
    rw [← hcaller] at hfree
    refine ⟨fun _ => ⟨hacq.give hb hput hawaits hfree, fun _ he => by cases he⟩, fun a ha => ?_⟩
    obtain rfl := Except.ok.inj ha
    subst hresponse
    rw [← hcaller]
    refine (hacq.giveHandle hb hput hawaits hfree _ _).elim (fun _ _ h₁ => ⟨h₁, fun resumed hr => ?_⟩) fun _ _ h₁ =>
      ⟨h₁, fun _ he => by cases he⟩
    obtain rfl := Except.ok.inj hr
    intro v hv
    have hv' : awaited.lookup req.runtimeSessionId = some v := by
      rw [← hcaller]
      exact hv
    dsimp only [Option.bind_some]
    exact conversationFor_answered hne (hasks v hv') (htrim v hv')

theorem ClaudeFits.keep (h : ClaudeFits awaited c) {b : ℕ} {bridge : Bridge} {id : String} {s : SessionState}
    (bridge' : Bridge) (s' : SessionState) (hb : c.bridges.lookup b = some bridge)
    (hs : bridge.sessions.lookup id = some s)
    (hput : bridge'.sessions = bridge.sessions.insert id s') (hcaller : s'.callerAgentId = s.callerAgentId)
    (hkeep : awaited.lookup s.callerAgentId = none ∨ s'.sdkSessionRef = s.sdkSessionRef ∧ s'.queried = s.queried) :
    ClaudeFits awaited { c with bridges := c.bridges.insert b bridge' } := by
  have hat : c.sessionAt b id = some s := (Claude.sessionAt_of_lookup hb id).trans hs
  refine h.give hb hput (fun v hv => ?_) ?_
  · rw [hcaller] at hv
    rcases hkeep with hnone | ⟨hsdk, hq⟩
    · rw [hnone] at hv
      cases hv
    · rw [Bridge.resumedRef, hsdk, hq]
      exact h.session b id s hat v hv
  · rw [Claude.free, hat, hcaller]
    simp

theorem claude_sendTurn_fits (h : ClaudeFits awaited c) (req : ProviderSendTurnRequest) (t : Transit) :
    After (Claude.sendTurn req t) c fun _ c' => ClaudeFits awaited c' := by
  simp only [Claude.sendTurn, Claude.getSession, after_bind_iff, after_get, after_orThrow, after_pure]
  refine ⟨fun handle _ => ?_, fun _ => h⟩
  refine after_sendBridgeRequest (fun _ => h) fun bridge hb => ?_
  simp only [Bridge.sendInput, Bridge.requireSession, after_bind_iff, after_get, after_orThrow]
  refine ⟨fun s hs => ?_, fun _ => ⟨fun _ => h.touch hb rfl, fun _ ha => by cases ha⟩⟩
  cases s.activeTurnId with
  | some active =>
    dsimp only
    split
    · exact (after_pure _ _ _).mpr ⟨fun _ => h.touch hb rfl, fun _ _ => h.touch hb rfl⟩
    · exact (after_throw _ _ _).mpr ⟨fun _ => h.touch hb rfl, fun _ ha => by cases ha⟩
  | none =>
    simp only [Bridge.putSession, after_bind_iff, after_get, after_modify, after_pure]
    -- the turn takes its number, and nothing else of the bridge changes
    have hkeep := fun turns turnId => h.keep ⟨_, bridge.nextSession, turns⟩
      { s with activeTurnId := some turnId, starting := s.starting + 1 } hb hs rfl rfl (.inr ⟨rfl, rfl⟩)
    exact ⟨fun _ => hkeep _ _, fun _ _ => hkeep _ _⟩

theorem ClaudeFits.closeSession (h : ClaudeFits awaited c) {hd : ClaudeSessionHandle} {b : ℕ} {bridge : Bridge}
    {id : String} (bridge' : Bridge) (hk : c.sessions.lookup k = some hd) (hbridge : hd.bridge = b)
    (hid : hd.bridgeSessionId = id)
    (hb : c.bridges.lookup b = some bridge) (herase : bridge'.sessions = bridge.sessions.erase id) :
    ClaudeFits awaited { c with
      sessions := c.sessions.erase k
      bridges := c.bridges.insert b bridge' } := by
  subst hbridge hid
  have hat : ∀ b' id', ({ c with sessions := c.sessions.erase k, bridges := c.bridges.insert hd.bridge bridge' } :
      Claude).sessionAt b' id' = if b' = hd.bridge ∧ id' = hd.bridgeSessionId then none else c.sessionAt b' id' := by
    intro b' id'
    have hins := Claude.sessionAt_insert { c with sessions := c.sessions.erase k } hd.bridge bridge' b' id'
    rw [show ({ c with sessions := c.sessions.erase k, bridges := c.bridges.insert hd.bridge bridge' } :
      Claude).sessionAt b' id' = _ from hins, herase, Table.lookup_erase]
    by_cases he : b' = hd.bridge
    · subst he
      rw [if_pos rfl]
      change _ = if _ then none else c.sessionAt _ id'
      rw [Claude.sessionAt_of_lookup hb]
      by_cases hi : id' = hd.bridgeSessionId <;> simp [hi]
    · simp only [he, if_false, false_and]
      rfl
  have hmem : ∀ b', b' ∈ c.bridges.insert hd.bridge bridge' → b' ∈ c.bridges := by
    intro b' hb'
    rcases (AList.mem_insert _).mp hb' with rfl | hb'
    · exact Table.lookup_isSome hb
    · exact hb'
  have hold : ∀ k' hd', (c.sessions.erase k).lookup k' = some hd' → k' ≠ k ∧ c.sessions.lookup k' = some hd' := by
    intro k' hd' hk'
    rw [Table.lookup_erase] at hk'
    split at hk'
    · cases hk'
    · next hne => exact ⟨hne, hk'⟩
  refine ⟨fun b' id' s hs v hv => ?_, fun k' hd' hk' hlive => ?_, fun k' hd' hk' => h.handle k' hd' (hold k' hd' hk').2,
    fun b' hb' => h.bridge b' (hmem b' hb')⟩
  · rw [hat] at hs
    split at hs
    · cases hs
    · exact h.session b' id' s hs v hv
  · obtain ⟨hne, hk'⟩ := hold k' hd' hk'
    obtain ⟨s, hs, howner⟩ := h.mapped k' hd' hk' (hmem _ hlive)
    rw [hat]
    split
    · next he =>
      -- two handles on one bridge session would be one session's
      obtain ⟨s₀, hs₀, howner₀⟩ := h.mapped k hd hk (Table.lookup_isSome hb)
      rw [he.1, he.2, hs₀] at hs
      obtain rfl := Option.some.inj hs
      exact absurd (howner.symm.trans howner₀) hne
    · exact ⟨s, hs, howner⟩

theorem ClaudeFits.noBridges (h : ClaudeFits awaited c) : ClaudeFits awaited { c with bridges := ∅ } where
  session b id s hs := by simp [Claude.sessionAt] at hs
  mapped k hd hk hlive := by simp at hlive
  handle := h.handle
  bridge b hb := by simp at hb

theorem claude_closeSession_fits (h : ClaudeFits awaited c) (req : ProviderCloseSessionRequest) (t : Transit) :
    After (Claude.closeSession req t) c fun _ c' => ClaudeFits awaited c' := by
  simp only [Claude.closeSession, Claude.removeSession, after_bind_iff, after_get, after_modify, after_pure]
  have herased := h.eraseHandle req.runtimeSessionId
  cases hk : c.sessions.lookup req.runtimeSessionId with
  | none => exact (after_pure _ _ _).mpr herased
  | some hd =>
    simp only [after_bind_iff, after_attempt, after_modify]
    have hend : ∀ {c' : Claude}, ClaudeFits awaited c' →
        ClaudeFits awaited (if c'.sessions.keys = [] then { c' with bridges := ∅ } else c') := by
      intro c' h'
      split
      · exact h'.noBridges
      · exact h'
    refine after_sendBridgeRequest (fun _ => hend herased) fun bridge hb => ?_
    simp only [Bridge.closeSession, Bridge.requireSession, after_bind_iff, after_get, after_orThrow, after_modify]
    refine ⟨fun s _ => ?_, fun _ => ⟨fun _ => hend (herased.touch hb rfl), fun _ ha => by cases ha⟩⟩
    have hclosed := h.closeSession { bridge with sessions := bridge.sessions.erase hd.bridgeSessionId }
      hk rfl rfl hb rfl
    exact ⟨fun _ => hend hclosed, fun _ _ => hend hclosed⟩

end

end Gooselake.Providers
