import Gooselake.Providers.Names

/-!
Whether a conversation survives a restart. What the agents report during their turns stays in the
adapters; the records are written when a session is created or resumed, and recovery resumes from the
records. A session goes on with the conversation reported last if its stored row names it when the
runtime restarts.
-/

namespace Gooselake.Providers

open Gooselake.Core Gooselake.Runtime Data Library Library.Exec
open Host (resumeAll recoveryRequest recoveryRequests answersWith closedIds callOf)

set_option autoImplicit false

/-! ## Requests that take no other session's bridge session -/

def Agent.createFree (agent : Agent) (k : String) (t : Transit) (a : Adapters) : Bool :=
  match agent with
  | .codex => true
  | .claude => a.claude.createFree t k

def Agent.resumeFree (agent : Agent) (req : ProviderResumeSessionRequest) (t : Transit) (a : Adapters) : Bool :=
  match agent with
  | .codex => true
  | .claude => a.claude.resumeFree t req.runtimeSessionId req.providerSessionRef

def Agent.dispatchFree (agent : Agent) (c : SendCall) (t : Transits) (a : Adapters) : Bool :=
  let r := (agent.sendTurn c.request t.first).result a
  match r.1, c.session.providerSessionRef with
  | .error (.notFound _), some ref => agent.resumeFree (resumeRequestOf c ref) t.resume r.2
  | _, _ => true

def askFree (agent : Agent) (t : Transits) (a : Adapters) : Call → Bool
  | .create c => agent.createFree c.sessionId t.first a
  | .resume c => agent.resumeFree c.request t.first a
  | .send c => agent.dispatchFree c t a
  | _ => true

def recoveryFree (t : String → Transit) : List (Agent × ProviderResumeSessionRequest) → Adapters → Bool
  | [], _ => true
  | (agent, req) :: rest, a =>
    agent.resumeFree req (t req.runtimeSessionId) a &&
      recoveryFree t rest ((agent.resumeSession req (t req.runtimeSessionId)).result a).2

/-! ## The condition -/

def recordConversation (r : SessionRecord) : Option Conversation :=
  conversationOf r.provider r.providerSessionRef r.canonicalProviderSessionRef

def Host.recorded (h : Host) : Bool :=
  h.server.manager.store.sessions.all fun r =>
    r.status = .closed || (h.reported.lookup r.id).all fun v => recordConversation r = some v

/-- At a restart the rows name the conversations reported last. Until a session is launched again, a
resume names no other conversation than its record does; and no request to a Claude bridge is given a
bridge session that was made for another session. -/
def Host.carries : Deed → Host → Bool
  | .restart providers _ t, h =>
    let m := Manager.new h.server.manager.store providers h.server.manager.clock
    h.recorded && recoveryFree t (recoveryRequests m) Adapters.new
  | .serve (.start _ (.resumeSession sessionId input)), h =>
    (h.awaited.lookup sessionId).isNone || (h.server.manager.sessions.lookup sessionId).all fun r =>
      conversationOf r.provider (input.providerSessionRef.or r.providerSessionRef)
        (input.canonicalProviderSessionRef.or r.canonicalProviderSessionRef) = recordConversation r
  | .ask i t, h =>
    (h.server.calls.lookup i).all fun c =>
      (agentOf h.server.manager c).all fun agent => askFree agent t h.adapters c
  | _, _ => true

/-! ## The adapters together -/

structure Fits (awaited : Table String Conversation) (a : Adapters) : Prop where
  codex : CodexFits awaited a.codex
  claude : ClaudeFits awaited a.claude

/-- How the adapters go on with a request for session `k`. -/
inductive Goes (awaited : Table String Conversation) (a : Adapters) (k : String) (a' : Adapters) : Prop where
  | quiet (processes : a'.codex.processes = a.codex.processes) (fits : Fits awaited a')
  | launched (p : CodexProcess) (processes : a'.codex.processes = a.codex.processes ++ [p])
      (session : p.runtimeSessionId = k)
      (resumes : ∀ v, awaited.lookup k = some v → p.resumes.map (Conversation.mk .codex) = some v)
      (fits : Fits (awaited.erase k) a')

section

variable {awaited : Table String Conversation} {a : Adapters} {k : String}

theorem after_onCodex {α : Type} {m : CodexM α} {Q : Except RuntimeError α → Adapters → Prop}
    (h : After m a.codex fun r c => Q r { a with codex := c }) : After (onCodex m) a Q :=
  (after_zoom _ _ m a Q).mpr h

theorem after_onClaude {α : Type} {m : ClaudeM α} {Q : Except RuntimeError α → Adapters → Prop}
    (h : After m a.claude fun r c => Q r { a with claude := c }) : After (onClaude m) a Q :=
  (after_zoom _ _ m a Q).mpr h

theorem CodexGoes.goes (h : Fits awaited a) {c : Codex} (hc : CodexGoes awaited a.codex k c) :
    Goes awaited a k { a with codex := c } := by
  cases hc with
  | quiet processes fits => exact .quiet processes ⟨fits, h.claude⟩
  | launched p processes session resumes fits =>
    exact .launched p processes session resumes ⟨fits, h.claude.fewer (fewer_erase _ _)⟩

theorem createSession_goes (h : Fits awaited a) {agent : Agent} {req : ProviderCreateSessionRequest} {t : Transit}
    (hnew : awaited.lookup req.runtimeSessionId = none)
    (hfree : agent.createFree req.runtimeSessionId t a = true) :
    After (agent.createSession req t) a fun _ a' => Goes awaited a k a' := by
  cases agent with
  | codex =>
    refine after_onCodex ((codex_createSession_fits h.codex hnew).mono fun _ c hc => ?_)
    exact .quiet hc.1 ⟨hc.2, h.claude⟩
  | claude =>
    refine after_onClaude ((claude_createSession_fits h.claude hnew hfree).mono fun _ c hc => ?_)
    exact .quiet rfl ⟨h.codex, hc⟩

theorem resumeSession_fits (h : Fits awaited a) {agent : Agent} {req : ProviderResumeSessionRequest} {t : Transit}
    (hasks : Asks awaited agent req.runtimeSessionId (some req.providerSessionRef) req.canonicalProviderSessionRef)
    (htrim : ∀ v, awaited.lookup req.runtimeSessionId = some v → v.agent = .claude → trimmedNonEmpty v.ref = some v.ref)
    (hfree : agent.resumeFree req t a = true) :
    After (agent.resumeSession req t) a fun r a' => a'.codex.processes = a.codex.processes ∧ Fits awaited a' ∧
      ∀ resumed, r = .ok resumed →
        Asks awaited agent req.runtimeSessionId
        (some resumed.providerSessionRef) resumed.canonicalProviderSessionRef := by
  cases agent with
  | codex =>
    refine after_onCodex ((codex_resumeSession_fits h.codex hasks).mono fun _ c hc => ?_)
    exact ⟨hc.1, ⟨hc.2.1, h.claude⟩, hc.2.2⟩
  | claude =>
    have htrim' : ∀ v, awaited.lookup req.runtimeSessionId = some v → trimmedNonEmpty v.ref = some v.ref :=
      fun v hv => htrim v hv (conversationFor_agent (hasks v hv))
    refine after_onClaude ((claude_resumeSession_fits h.claude hasks htrim' hfree).mono fun _ c hc => ?_)
    exact ⟨rfl, ⟨h.codex, hc.1⟩, hc.2⟩

theorem sendTurn_goes (h : Fits awaited a) (agent : Agent) (req : ProviderSendTurnRequest) (t : Transit) :
    After (agent.sendTurn req t) a fun r a' => Goes awaited a req.runtimeSessionId a' ∧
      ∀ e, r = .error e → a'.codex.processes = a.codex.processes ∧ Fits awaited a' := by
  cases agent with
  | codex =>
    refine after_onCodex ((codex_sendTurn_goes h.codex req t.spawned).mono fun r c hc => ⟨hc.1.goes h, fun e he => ?_⟩)
    obtain rfl := hc.2 e he
    exact ⟨rfl, h⟩
  | claude =>
    refine after_onClaude ((claude_sendTurn_fits h.claude req t).mono fun _ c hc => ?_)
    have hfits : Fits awaited { a with claude := c } := ⟨h.codex, hc⟩
    exact ⟨.quiet rfl hfits, fun _ _ => ⟨rfl, hfits⟩⟩

theorem closeSession_goes (h : Fits awaited a) (agent : Agent) (req : ProviderCloseSessionRequest) (t : Transit) :
    After (agent.closeSession req t) a fun _ a' => Goes awaited a k a' := by
  cases agent with
  | codex =>
    refine after_onCodex ((codex_closeSession_fits h.codex req).mono fun _ c hc => ?_)
    exact .quiet hc.1 ⟨hc.2, h.claude⟩
  | claude =>
    refine after_onClaude ((claude_closeSession_fits h.claude req t).mono fun _ c hc => ?_)
    exact .quiet rfl ⟨h.codex, hc⟩

theorem Goes.after {a₁ a' : Adapters} (hp : a₁.codex.processes = a.codex.processes) (h : Goes awaited a₁ k a') :
    Goes awaited a k a' := by
  cases h with
  | quiet processes fits => exact .quiet (processes.trans hp) fits
  | launched p processes session resumes fits => exact .launched p (hp ▸ processes) session resumes fits

theorem dispatch_goes (h : Fits awaited a) {agent : Agent} {registered : Bool} {c : SendCall} {t : Transits}
    (hasks : ∀ ref, c.session.providerSessionRef = some ref →
      Asks awaited agent c.sessionId (some ref) c.session.canonicalProviderSessionRef)
    (htrim : ∀ v, awaited.lookup c.sessionId = some v → v.agent = .claude → trimmedNonEmpty v.ref = some v.ref)
    (hfree : agent.dispatchFree c t a = true) :
    After (agent.dispatch registered c t) a fun _ a' => Goes awaited a c.sessionId a' := by
  have hquiet : Goes awaited a c.sessionId a := .quiet rfl h
  have hfirst := (sendTurn_goes h agent c.request t.first).out
  simp only [Agent.dispatch]
  split
  · exact (after_bind_iff _ _ _ _).mpr ((after_throw _ _ _).mpr hquiet)
  · simp only [after_bind_iff, after_attempt]
    unfold Agent.dispatchFree at hfree
    refine ⟨?_⟩
    generalize (agent.sendTurn c.request t.first).result a = p at hfirst hfree ⊢
    obtain ⟨r, a₁⟩ := p
    obtain ⟨hgoes, herr⟩ := hfirst
    dsimp only at hgoes herr hfree ⊢
    cases r with
    | ok ack => exact (after_pure _ _ _).mpr hgoes
    | error e =>
      obtain ⟨hp, hfits⟩ := herr e rfl
      cases e with
      | notFound what =>
        simp only [after_bind_iff, after_orThrow]
        refine ⟨fun ref href => ?_, fun _ => .quiet hp hfits⟩
        rw [href] at hfree
        refine (resumeSession_fits hfits (hasks ref href) htrim hfree).elim (fun _ a₂ h₂ => ?_) fun _ a₂ h₂ =>
          .quiet (h₂.1.trans hp) h₂.2.1
        refine (sendTurn_goes h₂.2.1 agent c.request t.resend).mono fun _ a₃ h₃ => ?_
        exact h₃.1.after (h₂.1.trans hp)
      | _ => exact (after_throw _ _ _).mpr (.quiet hp hfits)

def subject : Call → String
  | .create c => c.sessionId
  | .resume c => c.sessionId
  | .send c => c.sessionId
  | .close sessionId _ => sessionId
  | .respond _ c => c.sessionId
  | _ => ""

theorem Named.asks {provider : String} {ref canonical : Option String} {agent : Agent}
    (h : Named awaited k provider ref canonical) (ha : (ProviderKind.fromStr provider).bind Agent.ofKind = some agent) :
    Asks awaited agent k ref canonical := by
  intro v hv
  have hn := h v hv
  rw [conversationOf, ha] at hn
  exact hn

theorem Asks.named {provider : String} {ref canonical : Option String} {agent : Agent}
    (h : Asks awaited agent k ref canonical) (ha : (ProviderKind.fromStr provider).bind Agent.ofKind = some agent) :
    Named awaited k provider ref canonical := by
  intro v hv
  rw [conversationOf, ha]
  exact h v hv

theorem handle_goes (h : Fits awaited a) {m : Manager} {agent : Agent} {t : Transits} {c : Call}
    (hc : CallNames awaited c) (hagent : agentOf m c = some agent) (hfree : askFree agent t a c = true)
    (htrim : ∀ k v, awaited.lookup k = some v → v.agent = .claude → trimmedNonEmpty v.ref = some v.ref)
    (hnew : ∀ c', c = .create c' → awaited.lookup c'.sessionId = none) :
    After (handle m agent t c) a fun r a' => Goes awaited a (subject c) a' ∧
      ∀ answer, r = .ok answer → AnswerNames awaited c answer := by
  have hok : ∀ {answer answer' : Answer}, (Except.ok answer : Except RuntimeError Answer) = .ok answer' →
      answer = answer' :=
    fun he => Except.ok.inj he
  cases c with
  | create c =>
    simp only [handle, after_bind_iff, after_attempt, after_pure]
    have hfree' : agent.createFree c.request.runtimeSessionId t.first a = true := hfree
    refine (createSession_goes h (hnew c rfl) hfree').mono fun r a' hg => ⟨hg, fun answer ha => ?_⟩
    exact hok ha ▸ hnew c rfl
  | resume c =>
    simp only [handle, after_bind_iff, after_attempt, after_pure]
    have hasks := Named.asks hc.2 hagent
    refine (resumeSession_fits h hasks (htrim c.sessionId) hfree).mono
      fun r a' hg => ⟨.quiet hg.1 hg.2.1, fun answer ha => ?_⟩
    rw [← hok ha]
    cases r with
    | error e => trivial
    | ok resumed => exact Asks.named (hg.2.2 resumed rfl) hagent
  | send c =>
    simp only [handle, after_bind_iff, after_attempt, after_pure]
    have hkind : (ProviderKind.fromStr c.session.provider).bind Agent.ofKind = some agent := by
      rw [hc.2]
      exact hagent
    have hasks := Named.asks hc.1 hkind
    refine (dispatch_goes h (fun ref href => href ▸ hasks) (htrim c.sessionId) hfree).mono
      fun r a' hg => ⟨hg, fun answer ha => ?_⟩
    rw [← hok ha]
    trivial
  | close sessionId reason =>
    simp only [handle, after_bind_iff, after_attempt, after_pure]
    refine (closeSession_goes h agent ⟨sessionId, some reason⟩ t.first).mono fun r a' hg => ⟨hg, fun answer ha => ?_⟩
    trivial
  | respond approvalId c =>
    simp only [handle, after_bind_iff, after_attempt, after_pure]
    refine after_onCodex ((codex_respondApproval_goes h.codex (c.request approvalId) t.first.spawned).mono
        fun r a' hg =>
      ⟨hg.goes h, fun answer ha => ?_⟩)
    trivial
  | createInsert | closeInsert | resumeInsert | sendInsertTurn | sendInsertSession | sendInsertApproval | interrupt
  | respondLock | respondApply | failSession =>
    cases hagent

/-! ## The adapters over a restart -/

theorem resumeAll_fits {t : String → Transit} {requests : List (Agent × ProviderResumeSessionRequest)}
    (h : Fits awaited a)
    (hasks : ∀ agent req, (agent, req) ∈ requests →
      Asks awaited agent req.runtimeSessionId (some req.providerSessionRef) req.canonicalProviderSessionRef)
    (htrim : ∀ k v, awaited.lookup k = some v → v.agent = .claude → trimmedNonEmpty v.ref = some v.ref)
    (hfree : recoveryFree t requests a = true) :
    Fits awaited (resumeAll t requests a).1 ∧
      (∀ k resumed, (resumeAll t requests a).2.lookup k = some (.ok resumed) → ∀ v, awaited.lookup k = some v →
        conversationFor v.agent (some resumed.providerSessionRef) resumed.canonicalProviderSessionRef = some v) ∧
      ∀ agent req, (agent, req) ∈ requests → ((resumeAll t requests a).2.lookup req.runtimeSessionId).isSome := by
  induction requests generalizing a with
  | nil =>
    refine ⟨h, fun k resumed hl => ?_, fun agent req hr => by cases hr⟩
    simp [resumeAll] at hl
  | cons first rest ih =>
    obtain ⟨agent, req⟩ := first
    simp only [recoveryFree, Bool.and_eq_true] at hfree
    have hasks₁ := hasks agent req (List.mem_cons_self ..)
    obtain ⟨-, hfits, hanswer⟩ := (resumeSession_fits h hasks₁ (htrim req.runtimeSessionId) hfree.1).out
    obtain ⟨hfits', hanswers, hcover⟩ :=
      ih hfits (fun agent' req' hr => hasks agent' req' (List.mem_cons_of_mem _ hr)) hfree.2
    simp only [resumeAll]
    refine ⟨hfits', fun k resumed hl v hv => ?_, fun agent' req' hr => ?_⟩
    · rw [Table.lookup_insert] at hl
      split at hl
      · next hk =>
        subst hk
        have hres := hanswer resumed (Option.some.inj hl) v hv
        rw [conversationFor_agent hres]
        exact hres
      · exact hanswers k resumed hl v hv
    · rcases List.mem_cons.mp hr with he | hr
      · cases he
        exact (Table.isSome_insert _ _ _ _).mpr (.inl rfl)
      · exact (Table.isSome_insert _ _ _ _).mpr (.inr (hcover agent' req' hr))

theorem fits_new (awaited : Table String Conversation) : Fits awaited Adapters.new :=
  ⟨codexFits_new awaited, claudeFits_new awaited⟩

/-! ## The host -/

/-- The property: the first turn of a session after a restart goes to the conversation its provider had
reported last before. -/
def Host.Resumes (h : Host) : Prop := ∀ l ∈ h.launches, ∀ v, l.awaited = some v → l.resumes = some v

structure Continues (h : Host) : Prop where
  served : Served h.awaited h.server
  fits : Fits h.awaited h.adapters
  replies : ∀ i answer, h.replies.lookup i = some answer → ∃ c, h.server.calls.lookup i = some c ∧
    AnswerNames h.awaited c answer
  reported : ∀ k v, h.reported.lookup k = some v → v.agent = .claude → trimmedNonEmpty v.ref = some v.ref
  awaited : ∀ k v, h.awaited.lookup k = some v → v.agent = .claude → trimmedNonEmpty v.ref = some v.ref
  resumes : h.Resumes

theorem AnswerNames.fewer {c : Call} {answer : Answer} {awaited' : Table String Conversation}
    (h : AnswerNames awaited c answer) (hf : Fewer awaited' awaited) : AnswerNames awaited' c answer := by
  cases c with
  | create c =>
    cases hv : awaited'.lookup c.sessionId with
    | none => exact hv
    | some v =>
      have h' : awaited.lookup c.sessionId = none := h
      have := hf _ v hv
      rw [h'] at this
      cases this
  | resume c =>
    cases answer with
    | session r =>
      cases r with
      | ok resumed => exact Named.fewer h hf
      | error e => trivial
    | _ => trivial
  | _ => trivial

theorem Fits.fewer {awaited' : Table String Conversation} (h : Fits awaited a) (hf : Fewer awaited' awaited) :
    Fits awaited' a :=
  ⟨h.codex.fewer hf, h.claude.fewer hf⟩

section

variable {h h' : Host}

theorem Continues.fewer (hc : Continues h) {awaited' : Table String Conversation} (hf : Fewer awaited' h.awaited) :
    Continues { h with awaited := awaited' } where
  served := hc.served.fewer hf
  fits := hc.fits.fewer hf
  replies i answer hr := by
    obtain ⟨c, hcall, ha⟩ := hc.replies i answer hr
    exact ⟨c, hcall, ha.fewer hf⟩
  reported := hc.reported
  awaited k v hv := hc.awaited k v (hf k v hv)
  resumes := hc.resumes

theorem Continues.report (hc : Continues h) (agent : Agent) (k : String) {ref : Option String}
    (htrim : agent = .claude → ∀ r, ref = some r → trimmedNonEmpty r = some r) : Continues (h.report agent k ref) := by
  cases ref with
  | none => exact hc
  | some r =>
    refine ⟨hc.served, hc.fits, hc.replies, fun k' v hv ha => ?_, hc.awaited, hc.resumes⟩
    change (h.reported.insert k _).lookup k' = some v at hv
    rw [Table.lookup_insert] at hv
    split at hv
    · obtain rfl := Option.some.inj hv
      exact htrim ha r rfl
    · exact hc.reported k' v hv ha

theorem Continues.created (hc : Continues h) (c : Call) : Continues (h.created c) := by
  cases c with
  | create c =>
    have hf := hc.fewer (fewer_erase h.awaited c.sessionId)
    refine ⟨hf.served, hf.fits, hf.replies, fun k v hv => ?_, hf.awaited, hf.resumes⟩
    change (h.reported.erase c.sessionId).lookup k = some v at hv
    rw [Table.lookup_erase] at hv
    split at hv
    · cases hv
    · exact hc.reported k v hv
  | _ => exact hc

theorem Continues.launch (hc : Continues h) (agent : Agent) (k : String) (resumes : Option String)
    (hr : ∀ v, h.awaited.lookup k = some v → resumes.map (Conversation.mk agent) = some v) :
    Continues (h.launch agent k resumes) := by
  have hf := hc.fewer (fewer_erase h.awaited k)
  refine ⟨hf.served, hf.fits, hf.replies, hf.reported, hf.awaited, fun l hl v hv => ?_⟩
  rcases List.mem_append.mp hl with hl | hl
  · exact hc.resumes l hl v hv
  · obtain rfl := List.mem_singleton.mp hl
    exact hr v hv

theorem Continues.went (hc : Continues h) {k : String} {a' : Adapters} (hg : Goes h.awaited h.adapters k a') :
    Continues (h.went a') := by
  cases hg with
  | quiet processes fits =>
    have hdrop : a'.codex.processes.drop h.adapters.codex.processes.length = [] := by
      rw [processes, List.drop_length]
    rw [Host.went, hdrop]
    exact ⟨hc.served, fits, hc.replies, hc.reported, hc.awaited, hc.resumes⟩
  | launched p processes session resumes fits =>
    have hdrop : a'.codex.processes.drop h.adapters.codex.processes.length = [p] := by
      rw [processes, List.drop_left]
    rw [Host.went, hdrop]
    have hl := hc.launch .codex k _ resumes
    subst session
    exact ⟨hl.served, fits, hl.replies, hl.reported, hl.awaited, hl.resumes⟩

/-! ### Calls -/

theorem step_calls {s s' : Server} {l : Label} (hs : Server.step l s = some s') {j : ℕ} (hj : callOf l ≠ some j) :
    s'.calls.lookup j = s.calls.lookup j := by
  have hput : ∀ {i : ℕ} {after : Option Call}, i ≠ j → (Server.put s.calls i after).lookup j = s.calls.lookup j := by
    intro i after hne
    rw [Server.lookup_put, if_neg (Ne.symm hne)]
  cases l with
  | start i op =>
    obtain ⟨-, after, m', -, rfl⟩ := Server.step_start hs
    exact hput fun he => hj (congrArg some he)
  | goOn i answer =>
    obtain ⟨c, after, m', -, -, -, rfl⟩ := Server.step_goOn hs
    exact hput fun he => hj (congrArg some he)
  | waited w result =>
    obtain ⟨m', -, rfl⟩ := Server.step_waited hs
    rfl
  | waitFailed w i error =>
    obtain ⟨task, after, m', -, -, -, rfl⟩ := Server.step_waitFailed hs
    exact hput fun he => hj (congrArg some he)
  | tick now =>
    rw [Server.step_tick hs]

theorem Continues.serve (hc : Continues h) {l : Label} {s : Server} {replies : Table ℕ Answer}
    (hs : Server.step l h.server = some s)
    (hold : ∀ i answer, replies.lookup i = some answer → h.replies.lookup i = some answer ∧ callOf l ≠ some i)
    (hop : ∀ i op, l = .start i op → OpNames h.awaited h.server.manager op)
    (hanswer : ∀ i a c, l = .goOn i a → h.server.calls.lookup i = some c → AnswerNames h.awaited c a) :
    Continues { h with server := s, replies := replies } :=
  { hc with
    served := served_step hc.served hs hop hanswer
    replies i answer hr := by
      obtain ⟨hr, hi⟩ := hold i answer hr
      obtain ⟨c, hcall, ha⟩ := hc.replies i answer hr
      exact ⟨c, (step_calls hs hi).trans hcall, ha⟩ }

theorem Host.created_server (h : Host) (c : Call) :
    (h.created c).server = h.server ∧ (h.created c).replies = h.replies ∧ (h.created c).adapters = h.adapters := by
  cases c <;> exact ⟨rfl, rfl, rfl⟩

theorem Host.begun_server (h : Host) (l : Label) : (h.begun l).server = h.server ∧ (h.begun l).replies = h.replies := by
  cases l with
  | goOn i answer =>
    simp only [Host.begun]
    cases h.server.calls.lookup i with
    | none => exact ⟨rfl, rfl⟩
    | some c => exact ⟨(h.created_server c).1, (h.created_server c).2.1⟩
  | _ => exact ⟨rfl, rfl⟩

theorem Continues.begun (hc : Continues h) (l : Label) : Continues (h.begun l) := by
  cases l with
  | goOn i answer =>
    simp only [Host.begun]
    cases h.server.calls.lookup i with
    | none => exact hc
    | some c => exact hc.created c
  | _ => exact hc

theorem Host.created_lookup (h : Host) (c : CreateCall) :
    (h.created (.create c)).awaited.lookup c.sessionId = none := by
  change (h.awaited.erase c.sessionId).lookup c.sessionId = none
  rw [Table.lookup_erase, if_pos rfl]

theorem CallNames.unhosted {m : Manager} {c : Call} {awaited : Table String Conversation} (hc : CallNames awaited c)
    (hagent : agentOf m c = none) (hcreate : ∀ c', c = .create c' → awaited.lookup c'.sessionId = none)
    (answer : Answer) : AnswerNames awaited c answer := by
  cases c with
  | create c => exact hcreate c rfl
  | resume c =>
    cases answer with
    | session r =>
      cases r with
      | ok resumed =>
        intro v hv
        have hn := hc.1 v hv
        rw [conversationOf, show (ProviderKind.fromStr c.session.provider).bind Agent.ofKind = none from hagent] at hn
        cases hn
      | error e => trivial
    | _ => trivial
  | _ => trivial

theorem carries_start (hc : Continues h) {i : ℕ} {op : Operation} (hcond : h.carries (.serve (.start i op)) = true) :
    OpNames h.awaited h.server.manager op := by
  cases op with
  | resumeSession sessionId input =>
    intro r hr v hv
    have hn := hc.served.table sessionId r hr v hv
    simp only [Host.carries, Bool.or_eq_true, hv, hr, Option.isNone_some, Bool.false_eq_true, false_or, Option.all_some,
      decide_eq_true_eq] at hcond
    exact hcond.trans hn
  | _ => trivial

theorem continues_serve (hc : Continues h) {l : Label} (hcond : h.carries (.serve l) = true)
    (hs : Host.step (.serve l) h = some h') : Continues h' := by
  simp only [Host.step] at hs
  split at hs
  · cases hs
  · next hguard =>
    obtain ⟨s, hstep, rfl⟩ := Option.map_eq_some_iff.mp hs
    simp only [Bool.or_eq_true, not_or] at hguard
    obtain ⟨hasks, hcalls⟩ := hguard
    have hb := hc.begun l
    have hserver := h.begun_server l
    refine hb.serve (l := l) (by rw [hserver.1]; exact hstep) (fun i answer hr => ⟨hr, fun hi => ?_⟩)
      (fun i op hl => ?_) (fun i answer c hl hcall => ?_)
    · rw [hserver.2] at hr
      refine hcalls ?_
      rw [hi]
      exact decide_eq_true (Table.lookup_isSome hr)
    · subst hl
      exact carries_start hc hcond
    · subst hl
      rw [hserver.1] at hcall
      have hagent : agentOf h.server.manager c = none := by
        simp only [Host.asksAdapter, hcall, Option.any_some, Bool.not_eq_true] at hasks
        simpa using hasks
      refine CallNames.unhosted (hb.served.calls i c (by rw [hserver.1]; exact hcall)) hagent (fun c' hc' => ?_) answer
      subst hc'
      simp only [Host.begun, hcall, Option.elim_some]
      exact h.created_lookup c'

theorem Host.foldl_launch (l : List CodexProcess) (h : Host) :
    (l.foldl (fun h p => h.launch .codex p.runtimeSessionId p.resumes) h).server = h.server ∧
      Fewer (l.foldl (fun h p => h.launch .codex p.runtimeSessionId p.resumes) h).awaited h.awaited := by
  induction l generalizing h with
  | nil => exact ⟨rfl, fun _ _ hv => hv⟩
  | cons p l ih =>
    obtain ⟨hserver, hf⟩ := ih (h.launch .codex p.runtimeSessionId p.resumes)
    exact ⟨hserver, fun k v hv => fewer_erase _ _ k v (hf k v hv)⟩

theorem continues_ask (hc : Continues h) {i : ℕ} {t : Transits} (hcond : h.carries (.ask i t) = true)
    (hs : Host.step (.ask i t) h = some h') : Continues h' := by
  simp only [Host.step, Option.bind_eq_bind, Option.bind_eq_some_iff] at hs
  obtain ⟨c, hcall, agent, hagent, hs⟩ := hs
  split at hs
  · cases hs
  · next hfresh =>
    obtain ⟨answer, hanswer, hs⟩ := Option.bind_eq_some_iff.mp hs
    obtain rfl := Option.some.inj hs
    simp only [Host.carries, hcall, hagent, Option.all_some] at hcond
    have hb := hc.created c
    obtain ⟨hserver, hreplies, hadapters⟩ := h.created_server c
    have hg := handle_goes (t := t) (by rw [← hadapters]; exact hb.fits)
      (hb.served.calls i c (by rw [hserver]; exact hcall)) hagent hcond hb.awaited fun c' hc' => by
        subst hc'
        exact h.created_lookup c'
    rw [← hadapters] at hg hanswer ⊢
    have hgo := hg.out
    generalize (handle h.server.manager agent t c).result (h.created c).adapters = p at hgo hanswer ⊢
    obtain ⟨r, a'⟩ := p
    cases r with
    | error e => cases hanswer
    | ok answer' =>
      obtain rfl := Option.some.inj hanswer
      have hw := hb.went hgo.1
      refine ⟨hw.served, hw.fits, fun j answer hj => ?_, hw.reported, hw.awaited, hw.resumes⟩
      change (((h.created c).went a').replies.insert i answer').lookup j = some answer at hj
      rw [Table.lookup_insert] at hj
      split at hj
      · next he =>
        subst he
        obtain rfl := Option.some.inj hj
        obtain ⟨hw₁, hw₂⟩ := Host.foldl_launch _ { h.created c with adapters := a' }
        exact ⟨c, (congrArg (fun s : Server => s.calls.lookup j) (hw₁.trans hserver)).trans hcall,
          (hgo.2 answer' rfl).fewer hw₂⟩
      · exact hw.replies j answer hj

theorem continues_reply (hc : Continues h) {i : ℕ} (hs : Host.step (.reply i) h = some h') : Continues h' := by
  simp only [Host.step, Option.bind_eq_bind, Option.bind_eq_some_iff] at hs
  obtain ⟨answer, hanswer, s, hstep, hs⟩ := hs
  obtain rfl := Option.some.inj hs
  obtain ⟨c, hcall, ha⟩ := hc.replies i answer hanswer
  refine hc.serve hstep (fun j answer' hj => ?_) (fun _ _ hl => by cases hl) fun i' a c' hl hcall' => ?_
  · rw [Table.lookup_erase] at hj
    split at hj
    · cases hj
    · next hne => exact ⟨hj, fun he => hne (Option.some.inj he).symm⟩
  · cases hl
    obtain rfl := Option.some.inj (hcall.symm.trans hcall')
    exact ha

/-! ### The agents -/

theorem Continues.adapters (hc : Continues h) {a' : Adapters} (hf : Fits h.awaited a') :
    Continues { h with adapters := a' } :=
  ⟨hc.served, hf, hc.replies, hc.reported, hc.awaited, hc.resumes⟩

theorem continues_codexEnds (hc : Continues h) {n : ℕ} {threadId : Option String} {result : ProviderTurnResult}
    (hs : Host.step (.codexEnds n threadId result) h = some h') : Continues h' := by
  simp only [Host.step, Option.bind_eq_bind, Option.bind_eq_some_iff] at hs
  obtain ⟨p, hp, hs⟩ := hs
  split at hs
  · cases hs
  · next hrun =>
    obtain rfl := Option.some.inj hs
    have hends := codex_processEnds_fits hc.fits.codex hp (by simpa using hrun) threadId result
    have hfits := (after_onCodex (a := h.adapters) (Q := fun _ a' => Fits h.awaited a')
      (hends.mono fun _ _ hcodex => ⟨hcodex, hc.fits.claude⟩)).out
    exact (hc.adapters hfits).report .codex p.runtimeSessionId fun he => by cases he

theorem Host.bridgeSession_eq (h : Host) (b : ℕ) (id : String) :
    h.bridgeSession b id = h.adapters.claude.sessionAt b id := rfl

theorem Continues.ownerOf (hc : Continues h) {b : ℕ} {id : String} {s : SessionState}
    (hs : h.bridgeSession b id = some s) :
    h.ownerOf b id s = s.callerAgentId := by
  unfold Host.ownerOf
  cases hfind : h.adapters.claude.sessions.keys.find? _ with
  | none => rfl
  | some k =>
    have hk := List.find?_some hfind
    obtain ⟨hd, hhd, hmatch⟩ := (Option.any_eq_true _ _).mp hk
    simp only [Bool.and_eq_true, decide_eq_true_eq] at hmatch
    rw [Host.bridgeSession_eq] at hs
    have hlive : hd.bridge ∈ h.adapters.claude.bridges := by
      obtain ⟨bridge, hb, -⟩ := Option.bind_eq_some_iff.mp hs
      exact hmatch.1 ▸ Table.lookup_isSome hb
    obtain ⟨s', hs', howner⟩ := hc.fits.claude.mapped k hd hhd hlive
    rw [hmatch.1, hmatch.2, hs] at hs'
    obtain rfl := Option.some.inj hs'
    exact howner.symm

theorem Continues.setBridgeSession (hc : Continues h) {b : ℕ} {id : String} {s : SessionState}
    (s' : SessionState) (hs : h.bridgeSession b id = some s) (hcaller : s'.callerAgentId = s.callerAgentId)
    (hkeep : h.awaited.lookup s.callerAgentId = none ∨ s'.sdkSessionRef = s.sdkSessionRef ∧ s'.queried = s.queried) :
    Continues (h.setBridgeSession b id s') := by
  obtain ⟨bridge, hb, hlookup⟩ := Option.bind_eq_some_iff.mp hs
  have hkept := hc.fits.claude.keep { bridge with sessions := bridge.sessions.insert id s' } s'
    hb hlookup rfl hcaller hkeep
  have hset : h.setBridgeSession b id s' = { h with adapters := { h.adapters with claude := { h.adapters.claude with
      bridges := h.adapters.claude.bridges.insert b { bridge with sessions := bridge.sessions.insert id s' } } } } := by
    simp only [Host.setBridgeSession, Table.update, hb]
  rw [hset]
  exact hc.adapters ⟨hc.fits.codex, hkept⟩

theorem continues_queryCreated (hc : Continues h) {b : ℕ} {id : String}
    (hs : Host.step (.queryCreated b id) h = some h') : Continues h' := by
  simp only [Host.step, Option.bind_eq_bind, Option.bind_eq_some_iff] at hs
  obtain ⟨s, hsession, hs⟩ := hs
  split at hs
  · cases hs
  · obtain rfl := Option.some.inj hs
    rw [hc.ownerOf hsession]
    have hl := hc.launch .claude s.callerAgentId (Bridge.resumedRef s) fun v hv =>
      (hc.fits.claude.session b id s hsession v hv).1
    refine hl.setBridgeSession (s := s) _ hsession rfl (.inl ?_)
    change (h.awaited.erase s.callerAgentId).lookup s.callerAgentId = none
    rw [Table.lookup_erase, if_pos rfl]

theorem ClaudeFits.updateHandle {awaited : Table String Conversation} {c : Claude}
    (h : ClaudeFits awaited c) (k : String)
    (f : ClaudeSessionHandle → ClaudeSessionHandle)
    (hf : ∀ hd, (f hd).bridge = hd.bridge ∧ (f hd).bridgeSessionId = hd.bridgeSessionId) :
    ClaudeFits awaited { c with sessions := c.sessions.update k f } := by
  have hold : ∀ k' hd, (c.sessions.update k f).lookup k' = some hd → ∃ hd₀, c.sessions.lookup k' = some hd₀ ∧
      hd.bridge = hd₀.bridge ∧ hd.bridgeSessionId = hd₀.bridgeSessionId := by
    intro k' hd hk
    rw [Table.lookup_update] at hk
    split at hk
    · next he =>
      subst he
      obtain ⟨hd₀, hhd₀, rfl⟩ := Option.map_eq_some_iff.mp hk
      exact ⟨hd₀, hhd₀, hf hd₀⟩
    · exact ⟨hd, hk, rfl, rfl⟩
  refine ⟨h.session, fun k' hd hk hlive => ?_, fun k' hd hk => ?_, h.bridge⟩
  · obtain ⟨hd₀, hhd₀, hbridge, hid⟩ := hold k' hd hk
    rw [hbridge, hid]
    exact h.mapped k' hd₀ hhd₀ (hbridge ▸ hlive)
  · obtain ⟨hd₀, hhd₀, hbridge, -⟩ := hold k' hd hk
    rw [hbridge]
    exact h.handle k' hd₀ hhd₀

theorem Continues.setHandle (hc : Continues h) (k : String) (f : ClaudeSessionHandle → ClaudeSessionHandle)
    (hf : ∀ hd, (f hd).bridge = hd.bridge ∧ (f hd).bridgeSessionId = hd.bridgeSessionId) :
    Continues (h.setHandle k f) :=
  hc.adapters ⟨hc.fits.codex, hc.fits.claude.updateHandle k f hf⟩

theorem continues_sessionUpdated (hc : Continues h) {b : ℕ} {id sdkSessionId : String}
    (hs : Host.step (.sessionUpdated b id sdkSessionId) h = some h') : Continues h' := by
  simp only [Host.step, Option.bind_eq_bind, Option.bind_eq_some_iff] at hs
  obtain ⟨s, hsession, hs⟩ := hs
  split at hs
  · cases hs
  · next hguard =>
    obtain rfl := Option.some.inj hs
    simp only [Bool.or_eq_true, not_or, Bool.not_eq_true', Bool.not_eq_false] at hguard
    -- the agent runs, so nothing is awaited for its session
    have hnone : h.awaited.lookup s.callerAgentId = none := by
      cases hv : h.awaited.lookup s.callerAgentId with
      | none => rfl
      | some v =>
        have hq := (hc.fits.claude.session b id s hsession v hv).2
        rw [hguard.1.1] at hq
        cases hq
    have hset := hc.setBridgeSession (Bridge.sdkRefUpdated sdkSessionId s) hsession rfl (.inl hnone)
    have hhandle := hset.setHandle (h.ownerOf b id s) (Host.handleSessionUpdated sdkSessionId s) fun _ => ⟨rfl, rfl⟩
    exact hhandle.report .claude _ fun _ r hr => trimmedNonEmpty_of_trimmed hr

theorem continues_turnCompleted (hc : Continues h) {b : ℕ} {id : String}
    (hs : Host.step (.turnCompleted b id) h = some h') : Continues h' := by
  simp only [Host.step, Option.bind_eq_bind, Option.bind_eq_some_iff] at hs
  obtain ⟨s, hsession, hs⟩ := hs
  obtain rfl := Option.some.inj hs
  exact hc.setBridgeSession _ hsession rfl (.inr ⟨rfl, rfl⟩)

theorem continues_bridgeFails (hc : Continues h) {b : ℕ} (hs : Host.step (.bridgeFails b) h = some h') :
    Continues h' := by
  obtain rfl := Option.some.inj hs
  have hclaude := hc.fits.claude
  have hat : ∀ b' id s,
    ({ h.adapters.claude with bridges := h.adapters.claude.bridges.erase b } : Claude).sessionAt b' id
      = some s → h.adapters.claude.sessionAt b' id = some s := by
    intro b' id s hs'
    simp only [Claude.sessionAt, Table.lookup_erase] at hs' ⊢
    split at hs'
    · cases hs'
    · exact hs'
  have hmem : ∀ b', b' ∈ h.adapters.claude.bridges.erase b → b' ≠ b ∧ b' ∈ h.adapters.claude.bridges :=
    fun b' hb' => AList.mem_erase.mp hb'
  refine hc.adapters ⟨hc.fits.codex, fun b' id s hs' => hclaude.session b' id s (hat b' id s hs'),
    fun k hd hk hlive => ?_,
    hclaude.handle, fun b' hb' => hclaude.bridge b' (hmem b' hb').2⟩
  obtain ⟨hne, hold⟩ := hmem _ hlive
  obtain ⟨s, hs', howner⟩ := hclaude.mapped k hd hk hold
  refine ⟨s, ?_, howner⟩
  simp only [Claude.sessionAt, Table.lookup_erase, if_neg hne]
  exact hs'

theorem continues_recycle (hc : Continues h) (hs : Host.step .recycle h = some h') : Continues h' := by
  obtain rfl := Option.some.inj hs
  refine hc.adapters ⟨hc.fits.codex, fun b id s hs' => ?_, fun k hd hk => ?_, fun k hd hk => ?_, fun b hb => ?_⟩
  · simp [Claude.sessionAt] at hs'
  · simp at hk
  · simp at hk
  · simp at hb

/-! ### Restarts -/

theorem Host.recorded_names (hr : h.recorded = true) {r : SessionRecord}
    (hmem : r ∈ h.server.manager.store.sessions) :
    Names (h.reported.eraseAll (closedIds h.server.manager.store)) r.id r := by
  intro v hv
  rw [Table.lookup_eraseAll] at hv
  split at hv
  · cases hv
  · next hopen =>
    have hrow := List.all_eq_true.mp hr r hmem
    have hclosed : r.status ≠ .closed := fun hs =>
      hopen (List.mem_map_of_mem (List.mem_filter.mpr ⟨hmem, decide_eq_true hs⟩))
    simp only [hclosed, hv, Option.all_some, decide_false, Bool.false_or, decide_eq_true_eq] at hrow
    exact hrow

theorem recoveryRequest_asks {awaited : Table String Conversation} {m : Manager} {r : SessionRecord} {agent : Agent}
    {req : ProviderResumeSessionRequest} (hn : Names awaited r.id r) (h : recoveryRequest m r = some (agent, req)) :
    Asks awaited agent req.runtimeSessionId (some req.providerSessionRef) req.canonicalProviderSessionRef := by
  simp only [recoveryRequest] at h
  split at h
  · cases h
  · simp only [Option.bind_eq_bind, Option.bind_eq_some_iff] at h
    obtain ⟨ref, href, kind, hkind, agent', hagent, h⟩ := h
    split at h
    · obtain ⟨rfl, rfl⟩ := Prod.mk.inj (Option.some.inj h)
      have hasks := Named.asks hn (by rw [hkind]; exact hagent)
      rw [href] at hasks
      exact hasks
    · cases h

theorem recoveryRequest_of_answer {answers : RecoveryAnswers} {m : Manager} {r : SessionRecord} {agent : Agent}
    {resumed : ProviderSession} (hopen : isClosedOrFailed r.status = false)
    (hanswer : resumeAnswer answers m.providers r = some (.ok resumed))
    (hagent : (ProviderKind.fromStr r.provider).bind Agent.ofKind = some agent) :
    ∃ req, recoveryRequest m r = some (agent, req) ∧ req.runtimeSessionId = r.id ∧
      answers.resume req = .ok resumed := by
  simp only [resumeAnswer, Option.bind_eq_bind, Option.bind_eq_some_iff] at hanswer
  obtain ⟨ref, href, kind, hkind, hanswer⟩ := hanswer
  split at hanswer
  · next hregistered =>
    refine ⟨_, ?_, rfl, Option.some.inj hanswer⟩
    rw [hkind, Option.bind_some] at hagent
    simp [recoveryRequest, hopen, href, hkind, hagent, hregistered]
  · cases hanswer

theorem recovered_served {awaited : Table String Conversation} {m : Manager} {answers : RecoveryAnswers}
    {answered : Table String (Except RuntimeError ProviderSession)}
    (hrow : ∀ k r, m.sessions.lookup k = some r → r.id = k ∧ Names awaited k r)
    (hanswers : ∀ k resumed, answered.lookup k = some (.ok resumed) → ∀ v, awaited.lookup k = some v →
      conversationFor v.agent (some resumed.providerSessionRef) resumed.canonicalProviderSessionRef = some v)
    (hcover : ∀ agent req, (agent, req) ∈ recoveryRequests m → (answered.lookup req.runtimeSessionId).isSome) :
    Served awaited (Server.start ((recoverStartup (answersWith answered answers)).result m).2) := by
  have hreferred := (recoverStartup_referred (answersWith answered answers) fun k r hr => (hrow k r hr).1).out
  generalize (recoverStartup (answersWith answered answers)).result m = p at hreferred ⊢
  refine ⟨fun k r' hr' v hv => ?_, fun i c hcall => ?_⟩
  · obtain ⟨r, hr, href⟩ := hreferred k r' hr'
    obtain ⟨hid, hn⟩ := hrow k r hr
    have hnamed := hn v hv
    rw [href.provider]
    rcases href.refs with ⟨h₁, h₂⟩ | ⟨resumed, hopen, hanswer, h₁, h₂⟩
    · rw [h₁, h₂]
      exact hnamed
    · rw [h₁, h₂]
      obtain ⟨agent, hagent, hfor⟩ := Option.bind_eq_some_iff.mp hnamed
      obtain ⟨req, hreq, hreqid, hresumed⟩ := recoveryRequest_of_answer hopen hanswer hagent
      have hasked := hcover agent req (List.mem_filterMap.mpr ⟨r, Table.mem_values.mpr ⟨k, hr⟩, hreq⟩)
      obtain ⟨answer, hanswer'⟩ := Option.isSome_iff_exists.mp hasked
      have hok : answered.lookup req.runtimeSessionId = some (.ok resumed) := by
        simp only [answersWith, hanswer', Option.getD_some] at hresumed
        rw [hanswer', hresumed]
      have hthis := hanswers req.runtimeSessionId resumed hok v (by rw [hreqid, hid]; exact hv)
      rw [conversationFor_agent hfor] at hthis
      rw [conversationOf, hagent]
      exact hthis
  · simp [Server.start] at hcall

theorem continues_restart (hc : Continues h) {providers : List ProviderKind} {answers : RecoveryAnswers}
    {t : String → Transit} (hcond : h.carries (.restart providers answers t) = true)
    (hs : Host.step (.restart providers answers t) h = some h') : Continues h' := by
  obtain rfl := Option.some.inj hs
  simp only [Host.carries, Bool.and_eq_true] at hcond
  obtain ⟨hrecorded, hfree⟩ := hcond
  simp only [Host.restarted]
  generalize hm : Manager.new h.server.manager.store providers h.server.manager.clock = m at hfree ⊢
  generalize hawaited : h.reported.eraseAll (closedIds h.server.manager.store) = awaited
  have hrow : ∀ k r, m.sessions.lookup k = some r → r.id = k ∧ Names awaited k r := by
    intro k r hr
    obtain ⟨hmem, rfl⟩ := Manager.new_sessions (hm ▸ hr)
    exact ⟨rfl, hawaited ▸ Host.recorded_names hrecorded hmem⟩
  have htrim : ∀ k v, awaited.lookup k = some v → v.agent = .claude → trimmedNonEmpty v.ref = some v.ref := by
    intro k v hv
    rw [← hawaited, Table.lookup_eraseAll] at hv
    split at hv
    · cases hv
    · exact hc.reported k v hv
  have hasks : ∀ agent req, (agent, req) ∈ recoveryRequests m →
      Asks awaited agent req.runtimeSessionId (some req.providerSessionRef) req.canonicalProviderSessionRef := by
    intro agent req hreq
    obtain ⟨r, hr, hreq⟩ := List.mem_filterMap.mp hreq
    obtain ⟨k, hk⟩ := Table.mem_values.mp hr
    obtain ⟨hid, hn⟩ := hrow k r hk
    exact recoveryRequest_asks (hid ▸ hn) hreq
  obtain ⟨hfits, hanswers, hcover⟩ := resumeAll_fits (fits_new awaited) hasks htrim hfree
  generalize resumeAll t (recoveryRequests m) Adapters.new = p at hfits hanswers hcover ⊢
  obtain ⟨a, answered⟩ := p
  refine ⟨recovered_served hrow hanswers hcover, hfits, fun i answer hr => ?_, hc.reported, htrim, hc.resumes⟩
  simp at hr

theorem continues_start (providers : List ProviderKind) (faults : List Bool) :
    Continues (Host.start providers faults) := by
  refine ⟨⟨fun k r hr => ?_, fun i c hcall => ?_⟩, fits_new ∅, fun i answer hr => ?_, fun k v hv => ?_,
    fun k v hv => ?_,
    fun l hl => ?_⟩
  · simp [Host.start, Server.start, Manager.empty] at hr
  · simp [Host.start, Server.start] at hcall
  · simp [Host.start] at hr
  · simp [Host.start] at hv
  · simp [Host.start] at hv
  · cases hl

theorem continues_step (hc : Continues h) {d : Deed} (hcond : h.carries d = true) (hs : Host.step d h = some h') :
    Continues h' := by
  cases d with
  | serve l => exact continues_serve hc hcond hs
  | ask i t => exact continues_ask hc hcond hs
  | reply i => exact continues_reply hc hs
  | codexEnds n threadId result => exact continues_codexEnds hc hs
  | queryCreated b id => exact continues_queryCreated hc hs
  | sessionUpdated b id sdkSessionId => exact continues_sessionUpdated hc hs
  | turnCompleted b id => exact continues_turnCompleted hc hs
  | bridgeFails b => exact continues_bridgeFails hc hs
  | recycle => exact continues_recycle hc hs
  | restart providers answers t => exact continues_restart hc hcond hs

end

end

/-! ## Conversations over restarts -/

/-- In every run that meets the condition, the first turn of each session after a restart resumes the
conversation its provider had reported last. -/
theorem conversation_survives {providers : List ProviderKind} {faults : List Bool} {h : Host}
    (hr : Reaches Host.step (fun d h => h.carries d = true) (Host.start providers faults) h) : h.Resumes :=
  (hr.invariant (continues_start providers faults) fun _ _ _ hc hp hs => continues_step hc hp hs).resumes

def Transits.quiet : Transits := ⟨⟨0, none, none⟩, ⟨0, none, none⟩, ⟨0, none, none⟩⟩

def namedTurn : List Deed :=
  [.serve (.start 0 (.createSession ⟨.codex, none, none, none, none⟩)), .ask 0 .quiet, .reply 0,
    .serve (.goOn 0 .lock),
    .serve (.start 1 (.sendTurn "sess_codex_0_1" ⟨[], none, none⟩)), .ask 1 .quiet, .reply 1,
    .serve (.goOn 1 .lock), .serve (.goOn 1 .lock),
    .codexEnds 0 (some "thread") ⟨"sess_codex_0_1", "turn_codex_0_3", .completed, none, none⟩,
    .serve (.waited 0 ⟨"sess_codex_0_1", "turn_codex_0_3", .completed, none, none⟩)]

def threadResumed : List Deed :=
  [.serve (.start 2 (.resumeSession "sess_codex_0_1" ⟨some "thread", none⟩)), .ask 2 .quiet, .reply 2,
    .serve (.goOn 2 .lock)]

def turnAfterRestart : List Deed :=
  [.restart [.codex] ⟨fun _ => .ok (), fun _ => .error (.invalidState "gone")⟩ fun _ => ⟨0, none, none⟩,
    .serve (.start 3 (.sendTurn "sess_codex_0_1" ⟨[], none, none⟩)), .ask 3 .quiet, .reply 3]

theorem conversation_survives_threadResumed : ∃ h : Host,
    h.Resumes ∧ ∃ l ∈ h.launches, l.awaited = some ⟨.codex, "thread"⟩ ∧ l.resumes = some ⟨.codex, "thread"⟩ := by
  obtain ⟨h, hr, he⟩ := exists_reaches_of_runAll Host.step (fun d h => h.carries d)
    (namedTurn ++ threadResumed ++ turnAfterRestart) (fun h => h.launches.getLast?.map fun l => (l.awaited, l.resumes))
    (some (some ⟨.codex, "thread"⟩, some ⟨.codex, "thread"⟩)) (s := Host.start [.codex] []) (by decide +kernel)
  obtain ⟨l, hl, hpair⟩ := Option.map_eq_some_iff.mp he
  obtain ⟨hawaited, hresumes⟩ := Prod.mk.inj hpair
  exact ⟨h, conversation_survives hr, l, List.mem_of_getLast? hl, hawaited, hresumes⟩

/-- Without the resume the record still names what the session was created with, and the next turn is told
to resume nothing. -/
theorem not_conversation_survives : ¬ ∀ (providers : List ProviderKind) (faults : List Bool) (h : Host),
    Reaches Host.step (fun _ _ => True) (Host.start providers faults) h → h.Resumes := by
  intro hall
  obtain ⟨h, hr, he⟩ := exists_reaches_of_runAll Host.step (fun _ _ => true) (namedTurn ++ turnAfterRestart)
    (fun h => h.launches.getLast?.map fun l => (l.awaited, l.resumes)) (some (some ⟨.codex, "thread"⟩, none))
    (s := Host.start [.codex] []) (by decide +kernel)
  obtain ⟨l, hl, hpair⟩ := Option.map_eq_some_iff.mp he
  obtain ⟨hawaited, hresumes⟩ := Prod.mk.inj hpair
  have hsame := hall [.codex] [] h (hr.mono fun _ _ _ => trivial) l (List.mem_of_getLast? hl) _ hawaited
  rw [hresumes] at hsame
  cases hsame

end Gooselake.Providers
