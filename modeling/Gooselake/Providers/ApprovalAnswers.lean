import Gooselake.Providers.AcpSessions
import Gooselake.Providers.AdapterSteps

/-!
Answers to approvals in the two adapters that hold turns back. Codex launches the turn before it takes the approval
away, and a decline asks for no approval; ACP takes the approval away first, and the turn's task looks for an agent and
writes the prompt after the call has returned.
-/

namespace Gooselake.Providers

open Gooselake.Core Data Library Library.Exec

set_option autoImplicit false

/-! ## What an answer has to keep to -/

def AwaitsAnswer (pendingApprovals : Table String PendingApprovalTurn) (req : ProviderApprovalResponseRequest) : Prop :=
  ∃ pending, pendingApprovals.lookup req.approvalId = some pending ∧ pending.turnId = req.turnId

/-- An answer succeeds only if it is awaited; one that fails leaves everything as it was; one whose turn cannot be
launched fails and can be given again. -/
structure AnswersSoundly (outcome : Except RuntimeError Unit) (awaited kept unlaunched stillAwaited : Prop) : Prop where
  success : outcome = .ok () → awaited
  failure : outcome ≠ .ok () → kept
  launch : unlaunched → outcome ≠ .ok () ∧ stillAwaited

/-! ## Codex -/

namespace Codex

/-- The session waits for an answer to the approval. -/
def IsPending (c : Codex) (req : ProviderApprovalResponseRequest) : Prop :=
  ∃ session, c.sessions.lookup req.runtimeSessionId = some session ∧ AwaitsAnswer session.pendingApprovals req

def Unlaunched (c : Codex) (req : ProviderApprovalResponseRequest) (spawned : Except RuntimeError Unit) : Prop :=
  ApprovalDecision.parse req.decision = .ok .accept ∧ c.IsPending req ∧ ∃ error, spawned = .error error

/-- What the answer says of the approval is so in the entry. -/
def AnswerSound (c : Codex) (req : ProviderApprovalResponseRequest) (spawned : Except RuntimeError Unit) : Prop :=
  AnswersSoundly ((respondApproval req spawned).result c).1 (c.IsPending req)
    (((respondApproval req spawned).result c).2.sessions = c.sessions) (c.Unlaunched req spawned)
    (((respondApproval req spawned).result c).2.IsPending req)

variable {c : Codex} {req : ProviderApprovalResponseRequest} {spawned : Except RuntimeError Unit}

theorem accept_spec (spawned : Except RuntimeError Unit) (c : Codex)
    (ha : ApprovalDecision.parse req.decision = .ok .accept) : After (respondApproval req spawned) c fun r c' =>
      (r = .ok () ∧ c.IsPending req ∧ ∃ u, spawned = .ok u) ∨ ((∃ e, r = .error e) ∧ c' = c) := by
  simp only [respondApproval]
  rw [after_bind_iff, after_ofExcept, ha]
  dsimp only
  rw [after_bind_iff]
  refine after_codex_getSession _ (fun session hs => ?_) (.inr ⟨⟨_, rfl⟩, rfl⟩)
  dsimp only
  rw [after_bind_iff, after_orThrow]
  refine ⟨fun pending hp => ?_, fun _ => .inr ⟨⟨_, rfl⟩, rfl⟩⟩
  dsimp only
  split
  · exact (after_throw _ _ _).mpr (.inr ⟨⟨_, rfl⟩, rfl⟩)
  · next hturn =>
    simp only [spawnTurn, putSession, after_bind_iff, after_ofExcept]
    cases spawned with
    | error e => exact .inr ⟨⟨e, rfl⟩, trivial⟩
    | ok u =>
      simp only [after_modify]
      exact .inl ⟨trivial, ⟨session, hs, pending, hp, not_ne_iff.mp hturn⟩, u, trivial⟩

theorem decline_succeeds (spawned : Except RuntimeError Unit) (c : Codex)
    (hd : ApprovalDecision.parse req.decision = .ok .decline) :
    ((respondApproval req spawned).result c).1 = .ok () := by
  have h : After (respondApproval req spawned) c fun r _ => r = .ok () := by
    simp only [respondApproval, completeTurn, putSession, after_bind_iff, after_ofExcept, hd, after_get]
    cases c.sessions.lookup req.runtimeSessionId with
    | none => simp only [after_pure]
    | some session => simp only [after_bind_iff, after_modify, after_pure]
  exact h.out

theorem answerSound_iff : c.AnswerSound req spawned ↔
    (ApprovalDecision.parse req.decision = .ok .decline → c.IsPending req) := by
  cases hparse : ApprovalDecision.parse req.decision with
  | error e =>
    have hfails : After (respondApproval req spawned) c fun r c' => r = .error e ∧ c' = c := by
      simp only [respondApproval, after_bind_iff, after_ofExcept, hparse]
      exact ⟨trivial, trivial⟩
    obtain ⟨hr, hc⟩ := hfails.out
    refine iff_of_true ⟨fun hok => ?_, fun _ => by rw [hc], fun hu => ?_⟩ nofun
    · rw [hr] at hok
      cases hok
    · cases hparse.symm.trans hu.1
  | ok decision =>
    cases decision with
    | decline =>
      have hok := decline_succeeds spawned c hparse
      refine ⟨fun h _ => h.success hok, fun h => ⟨fun _ => h rfl, fun hne => absurd hok hne, fun hu => ?_⟩⟩
      cases hparse.symm.trans hu.1
    | accept =>
      refine iff_of_true ?_ nofun
      rcases (accept_spec spawned c hparse).out with ⟨hr, hpending, u, hu⟩ | ⟨⟨e, hr⟩, hc⟩
      · refine ⟨fun _ => hpending, fun hne => absurd hr hne, fun hunlaunched => ?_⟩
        obtain ⟨error, he⟩ := hunlaunched.2.2
        cases hu.symm.trans he
      · refine ⟨fun hok => ?_, fun _ => by rw [hc], fun hunlaunched => ⟨?_, ?_⟩⟩
        · cases hr.symm.trans hok
        · rw [hr]
          nofun
        · rw [hc]
          exact hunlaunched.2.1

end Codex

/-! ## ACP: the task of an accepted turn -/

namespace Acp

/-- What the task of a turn meets until its prompt is written. -/
structure Launch where
  connecting : AcpProvider.World
  /-- the error with which its connection is marked closed before the task looks -/
  broken : Option RuntimeError
  writing : AcpProvider.World

namespace AcpProvider

/-- The reader of the connection that task `i` has got marks it closed. -/
def breaks (i : ℕ) (broken : Option RuntimeError) (p : AcpProvider) : AcpProvider :=
  match broken, p.turns[i]?.map Turn.point with
  | some e, some (.connected c) => p.markClosed c e
  | _, _ => p

/-- Task `i` up to the write of `session/prompt`. -/
def launch (i : ℕ) (l : Launch) (p : AcpProvider) : Option AcpProvider := do
  let p ← p.step (.task i l.connecting)
  let p ← (p.breaks i l.broken).step (.task i .fine)
  let p ← p.step (.task i .fine)
  p.step (.task i l.writing)

/-- Task `i` has written its prompt and waits for the response. -/
def isSent (i : ℕ) (p : AcpProvider) : Bool :=
  p.turns[i]?.any fun turn =>
    match turn.point with
    | .waiting _ _ => true
    | _ => false

variable {p q : AcpProvider} {i c : ℕ} {turn : Turn} {world : World}

theorem step_task (h : p.turns[i]? = some turn) : p.step (.task i world) = p.advance i turn world := by
  simp only [step, h, Option.bind_some]

theorem atPoint_turn (h : p.turns[i]? = some turn) (point : Point) :
    (p.atPoint i point).turns[i]? = some { turn with point := point } := by
  simp [atPoint, onTurn, h]

theorem ensureConnection_open (h : p.ensureConnection world = (.ok c, q)) :
    ∃ connection, q.connections[c]? = some connection ∧ connection.closed = false := by
  have hcurrent : ∀ c, p.currentConnection = some c → ∃ connection, p.connections[c]? = some connection ∧
      connection.closed = false := fun c hc => by
    obtain ⟨connection, hl, hopen⟩ := (Option.any_eq_true _ _).mp (Option.filter_eq_some_iff.mp hc).2
    exact ⟨connection, hl, by simpa using hopen⟩
  unfold ensureConnection at h
  split at h
  · cases h
  · next hc =>
    cases h
    exact hcurrent c hc
  · cases h
    exact ⟨.spawned false, by simp, rfl⟩
  · cases h

/-- A task whose result is there completes its turn and is done. -/
theorem step_completing (world : World) {result : ProviderTurnResult} {found : Option ActiveTurn}
    (h : p.turns[i]? = some turn) (hpoint : turn.point = .completing result found) :
    ∃ q, p.step (.task i world) = some q ∧ q.turns[i]? = some { turn with point := .done } := by
  rw [step_task h, advance, hpoint]
  exact ⟨_, rfl, atPoint_turn (by rw [complete_turns]; exact h) _⟩

theorem step_done (h : p.turns[i]? = some { turn with point := .done }) : p.step (.task i world) = none := by
  rw [step_task h, advance]

theorem markClosed_spec (e : RuntimeError) (h : p.turns[i]? = some turn) {connection : AcpConnection}
    (hc : p.connections[c]? = some connection) :
    (∃ reply, (p.markClosed c e).turns[i]? = some { turn with reply := reply }) ∧
      ∃ connection', (p.markClosed c e).connections[c]? = some connection' ∧ connection'.closed = true := by
  unfold markClosed
  rw [hc, Option.any_some]
  split
  · next hclosed => exact ⟨⟨turn.reply, h⟩, connection, hc, hclosed⟩
  · simp only [drain, hc, onConnection, List.getElem?_mapIdx, h, Option.map_some, List.getElem?_modify_eq,
      Option.some.injEq]
    refine ⟨?_, _, rfl, rfl⟩
    split
    · exact ⟨_, rfl⟩
    · exact ⟨turn.reply, rfl⟩

theorem launch_sent (h : p.turns[i]? = some turn) (hpoint : turn.point = .connecting) (l : Launch) :
    (p.launch i l).any (isSent i) = true ↔
      (∃ c, (p.ensureConnection l.connecting).1 = .ok c) ∧ l.broken = none ∧ l.writing = .fine := by
  rw [launch, step_task h, advance, hpoint]
  rcases hens : p.ensureConnection l.connecting with ⟨e | c, q⟩ <;> dsimp only
  · -- there is no agent
    have hq : q.turns[i]? = some turn := by rw [← h, ← ensure_turns p l.connecting, hens]
    have ht := atPoint_turn hq (.completing (messageResult turn.runtimeSessionId turn.runtimeTurnId .failed e.display)
      none)
    have hbreaks : ∀ broken, (q.atPoint i (.completing (messageResult turn.runtimeSessionId turn.runtimeTurnId .failed
        e.display) none)).breaks i broken = q.atPoint i (.completing (messageResult turn.runtimeSessionId
          turn.runtimeTurnId .failed e.display) none) := fun broken => by
      unfold breaks
      rw [ht]
      cases broken <;> rfl
    obtain ⟨q', hstep, hdone⟩ := step_completing .fine ht rfl
    simp only [Option.bind_eq_bind, Option.bind_some, hbreaks, hstep, step_done hdone, Option.bind_none, Option.any_none]
    simp
  · have hq : q.turns[i]? = some turn := by rw [← h, ← ensure_turns p l.connecting, hens]
    obtain ⟨connection, hc, hopen⟩ := ensureConnection_open hens
    have ht := atPoint_turn hq (.connected c)
    simp only [Option.bind_eq_bind, Option.bind_some]
    cases hbroken : l.broken with
    | some e =>
      -- the connection is closed when the task looks
      have hbreaks : (q.atPoint i (.connected c)).breaks i (some e) = (q.atPoint i (.connected c)).markClosed c e := by
        unfold breaks
        rw [ht]
        rfl
      obtain ⟨⟨reply, htb⟩, connection', hc', hclosed⟩ :=
        markClosed_spec (p := q.atPoint i (.connected c)) (c := c) e ht hc
      rw [hbreaks, step_task htb, advance]
      simp only [hc', Option.map_some, hclosed, if_true, Option.bind_some]
      obtain ⟨q', hstep, hdone⟩ := step_completing .fine (atPoint_turn htb _) rfl
      rw [hstep, Option.bind_some, step_done hdone]
      simp
    | none =>
      have hbreaks : (q.atPoint i (.connected c)).breaks i none = q.atPoint i (.connected c) := rfl
      have hc₁ : (q.atPoint i (.connected c)).connections[c]? = some connection := hc
      rw [hbreaks, step_task ht, advance]
      simp only [hc₁, Option.map_some, hopen, Bool.false_eq_true, if_false, Option.bind_some]
      have ht₂ := atPoint_turn ht (.unclosed c)
      have hc₂ : ((q.atPoint i (.connected c)).atPoint i (.unclosed c)).connections[c]? = some connection := hc
      rw [step_task ht₂, advance]
      simp only [hc₂, Option.map_some, Option.bind_some]
      generalize hreg : onTurn i _ (onConnection c _ ((q.atPoint i (.connected c)).atPoint i (.unclosed c))) = q₃
      have ht₃ : q₃.turns[i]? = some { turn with
          prompt := some (c, connection.nextRequestId), point := .registered c connection.nextRequestId } := by
        rw [← hreg]
        simp [onTurn, onConnection, ht₂]
      rw [step_task ht₃, advance]
      cases l.writing with
      | fine => simp [isSent, atPoint, onTurn, onConnection, ht₃]
      | disabled e | failed e => simp [isSent, atPoint, onTurn, onConnection, ht₃]

end AcpProvider

end Acp

/-! ## ACP -/

namespace Acp.Waited

def IsPending (s : Waited) (req : ProviderApprovalResponseRequest) : Prop :=
  ∃ session, s.provider.sessions.lookup req.runtimeSessionId = some session ∧ AwaitsAnswer session.pendingApprovals req

/-- The turn is made active and its task gets to write the prompt. -/
def Launches (s : Waited) (req : ProviderApprovalResponseRequest) (l : Launch) : Prop :=
  ∃ t p, s.begin (.respondApproval req) = .ok (t, .executing req.runtimeSessionId req.turnId) ∧
    t.provider.executeTurn req.runtimeSessionId req.turnId = .ok p ∧
      (p.launch t.provider.turns.length l).any (AcpProvider.isSent t.provider.turns.length) = true

def Unlaunched (s : Waited) (req : ProviderApprovalResponseRequest) (l : Launch) : Prop :=
  ApprovalDecision.parse req.decision = .ok .accept ∧ s.IsPending req ∧ ¬ s.Launches req l

def outcome : Call → Except RuntimeError Unit
  | .answered r => r
  | _ => .ok ()

def AnswerSound (s : Waited) (req : ProviderApprovalResponseRequest) (l : Launch)
    (answer : Except RuntimeError String) : Prop :=
  AnswersSoundly (outcome (s.run (.respondApproval req) [(l.connecting, answer)]).2) (s.IsPending req)
    (s.SameTable (s.run (.respondApproval req) [(l.connecting, answer)]).1) (s.Unlaunched req l)
    ((s.run (.respondApproval req) [(l.connecting, answer)]).1.IsPending req)

/-- No other turn of the session is active or held back, there is an agent or there can be one, and its connection
lasts until the prompt is written. -/
def Ready (s : Waited) (req : ProviderApprovalResponseRequest) (l : Launch) : Prop :=
  (∃ session, s.provider.sessions.lookup req.runtimeSessionId = some session ∧ session.activeTurn = none ∧
    ∀ approvalId pending, session.pendingApprovals.lookup approvalId = some pending → approvalId = req.approvalId) ∧
  (∃ c, (s.provider.ensureConnection l.connecting).1 = .ok c) ∧ l.broken = none ∧ l.writing = .fine

variable {s : Waited} {req : ProviderApprovalResponseRequest}

def answered (s : Waited) (req : ProviderApprovalResponseRequest) (session : AcpSessionState) : Waited :=
  ⟨s.provider.putSession req.runtimeSessionId
    { session with pendingApprovals := session.pendingApprovals.erase req.approvalId }, s.waiters⟩

def continues (req : ProviderApprovalResponseRequest) : ApprovalDecision → Call
  | .decline => .declining req.runtimeSessionId req.turnId
  | .accept => .executing req.runtimeSessionId req.turnId

theorem begin_respond (s : Waited) (req : ProviderApprovalResponseRequest) :
    (∃ e, s.begin (.respondApproval req) = .error e ∧
      ¬ (s.IsPending req ∧ ∃ d, ApprovalDecision.parse req.decision = .ok d)) ∨
    ∃ session d, s.provider.sessions.lookup req.runtimeSessionId = some session ∧
      AwaitsAnswer session.pendingApprovals req ∧ ApprovalDecision.parse req.decision = .ok d ∧
      s.begin (.respondApproval req) = .ok (s.answered req session, continues req d) := by
  simp only [begin, AcpProvider.begin, AcpProvider.respondApproval, AcpProvider.getSession]
  cases hparse : ApprovalDecision.parse req.decision with
  | error e =>
    refine .inl ⟨e, rfl, ?_⟩
    rintro ⟨-, d, hd⟩
    cases hd
  | ok d =>
    cases hs : s.provider.sessions.lookup req.runtimeSessionId with
    | none =>
      refine .inl ⟨_, rfl, ?_⟩
      rintro ⟨⟨session, hs', -⟩, -⟩
      cases hs.symm.trans hs'
    | some session =>
      simp only [bind, Except.bind]
      cases hp : session.pendingApprovals.lookup req.approvalId with
      | none =>
        refine .inl ⟨_, rfl, ?_⟩
        rintro ⟨⟨session', hs', pending, hp', -⟩, -⟩
        obtain rfl := Option.some.inj (hs.symm.trans hs')
        cases hp.symm.trans hp'
      | some pending =>
        dsimp only
        by_cases hturn : pending.turnId = req.turnId
        · rw [if_neg (not_not_intro hturn)]
          refine .inr ⟨session, d, rfl, ⟨pending, hp, hturn⟩, rfl, ?_⟩
          cases d <;> rfl
        · rw [if_pos hturn]
          refine .inl ⟨_, rfl, ?_⟩
          rintro ⟨⟨session', hs', pending', hp', hturn'⟩, -⟩
          obtain rfl := Option.some.inj (hs.symm.trans hs')
          obtain rfl := Option.some.inj (hp.symm.trans hp')
          exact hturn hturn'

theorem executeTurn_spec (p : AcpProvider) (id turnId : String) :
    (∃ session q, p.sessions.lookup id = some session ∧ session.activeTurn = none ∧ session.pendingApprovals.keys = [] ∧
      p.executeTurn id turnId = .ok q ∧ (∃ turn, q.turns[p.turns.length]? = some turn ∧ turn.point = .connecting) ∧
      q.connections = p.connections ∧ q.connection = p.connection) ∨
    ∃ e, p.executeTurn id turnId = .error e ∧ ∀ session, p.sessions.lookup id = some session →
      ¬ (session.activeTurn = none ∧ session.pendingApprovals.keys = []) := by
  simp only [AcpProvider.executeTurn, AcpProvider.idleSession, AcpProvider.getSession]
  cases hs : p.sessions.lookup id with
  | none => exact .inr ⟨_, rfl, nofun⟩
  | some session =>
    simp only [bind, Except.bind]
    by_cases hbusy : session.activeTurn.isSome ∨ session.pendingApprovals.keys ≠ []
    · rw [if_pos hbusy]
      refine .inr ⟨_, rfl, fun session' hs' ⟨hactive, hkeys⟩ => ?_⟩
      obtain rfl := Option.some.inj hs'
      rcases hbusy with hbusy | hbusy
      · rw [hactive] at hbusy
        cases hbusy
      · exact hbusy hkeys
    · rw [if_neg hbusy]
      obtain ⟨hactive, hkeys⟩ := not_or.mp hbusy
      refine .inl ⟨session, _, rfl, Option.not_isSome_iff_eq_none.mp hactive, not_ne_iff.mp hkeys, rfl, ?_, rfl, rfl⟩
      exact ⟨⟨id, turnId, session.providerSessionRef, false, .empty, none, none, .connecting⟩, by simp, rfl⟩

theorem ensureConnection_congr {p q : AcpProvider} (world : AcpProvider.World)
    (hconnections : q.connections = p.connections)
    (hconnection : q.connection = p.connection) : (q.ensureConnection world).1 = (p.ensureConnection world).1 := by
  have hcurrent : q.currentConnection = p.currentConnection := by
    rw [AcpProvider.currentConnection, AcpProvider.currentConnection, hconnections, hconnection]
  unfold AcpProvider.ensureConnection
  rw [hcurrent, hconnections]
  cases world <;> cases p.currentConnection <;> rfl

theorem launches_iff {session : AcpSessionState} {l : Launch}
    (hs : s.provider.sessions.lookup req.runtimeSessionId = some session)
    (hbegin : s.begin (.respondApproval req) =
      .ok (s.answered req session, .executing req.runtimeSessionId req.turnId)) :
    s.Launches req l ↔ s.Ready req l := by
  have hlookup : (s.answered req session).provider.sessions.lookup req.runtimeSessionId =
      some { session with pendingApprovals := session.pendingApprovals.erase req.approvalId } :=
    AList.lookup_insert _
  have hsame : ((s.answered req session).provider.ensureConnection l.connecting).1 =
      (s.provider.ensureConnection l.connecting).1 := ensureConnection_congr l.connecting rfl rfl
  have hkeys : (session.pendingApprovals.erase req.approvalId).keys = [] ↔
      ∀ approvalId pending, session.pendingApprovals.lookup approvalId = some pending →
          approvalId = req.approvalId := by
    rw [List.eq_nil_iff_forall_not_mem]
    refine forall_congr' fun approvalId => ?_
    rw [← AList.mem_keys, ← AList.lookup_isSome, Table.lookup_erase]
    by_cases he : approvalId = req.approvalId
    · simp [he]
    · cases hl : session.pendingApprovals.lookup approvalId <;> simp [he]
  constructor
  · rintro ⟨t, p, ht, hp, hsent⟩
    obtain ⟨rfl, -⟩ := Prod.mk.inj (Except.ok.inj (hbegin.symm.trans ht))
    rcases executeTurn_spec (s.answered req session).provider req.runtimeSessionId req.turnId with
      ⟨idle, q, hidle, hactive, hnone, hq, ⟨turn, hturn, hpoint⟩, hconnections, hconnection⟩ | ⟨e, he, -⟩
    · obtain rfl := Option.some.inj (hlookup.symm.trans hidle)
      obtain rfl := Except.ok.inj (hp.symm.trans hq)
      rw [AcpProvider.launch_sent hturn hpoint, ensureConnection_congr l.connecting hconnections hconnection,
        hsame] at hsent
      exact ⟨⟨session, hs, hactive, hkeys.mp hnone⟩, hsent⟩
    · cases hp.symm.trans he
  · rintro ⟨⟨session', hs', hactive, hnone⟩, hready⟩
    obtain rfl := Option.some.inj (hs.symm.trans hs')
    rcases executeTurn_spec (s.answered req session).provider req.runtimeSessionId req.turnId with
      ⟨idle, q, hidle, -, -, hq, ⟨turn, hturn, hpoint⟩, hconnections, hconnection⟩ | ⟨e, he, hbusy⟩
    · refine ⟨_, q, hbegin, hq, ?_⟩
      rw [AcpProvider.launch_sent hturn hpoint, ensureConnection_congr l.connecting hconnections hconnection, hsame]
      exact hready
    · exact absurd ⟨hactive, hkeys.mpr hnone⟩ (hbusy _ hlookup)

theorem not_unlaunched_of_sound {l : Launch} {answer : Except RuntimeError String}
    {session : AcpSessionState}
    (hbegin : s.begin (.respondApproval req) = .ok (s.answered req session, .executing req.runtimeSessionId req.turnId))
    (h : s.AnswerSound req l answer) : ¬ s.Unlaunched req l := by
  intro hu
  obtain ⟨hfails, hstill⟩ := h.launch hu
  have hrun : s.run (.respondApproval req) [(l.connecting, answer)] =
      (s.answered req session).goOn (.executing req.runtimeSessionId req.turnId) l.connecting answer := by
    simp only [run, hbegin, finish]
  rw [hrun] at hfails hstill
  simp only [goOn, waitersAfter, AcpProvider.goOn] at hfails hstill
  rcases executeTurn_spec (s.answered req session).provider req.runtimeSessionId req.turnId with
    ⟨idle, q, -, -, -, hq, -⟩ | ⟨e, he, -⟩
  · rw [hq] at hfails
    exact hfails rfl
  · rw [he] at hstill
    obtain ⟨session', hs', pending, hp, -⟩ := hstill
    change (s.answered req session).provider.sessions.lookup req.runtimeSessionId = some session' at hs'
    obtain rfl := Option.some.inj ((AList.lookup_insert _).symm.trans hs')
    change (session.pendingApprovals.erase req.approvalId).lookup req.approvalId = some pending at hp
    rw [AList.lookup_erase] at hp
    cases hp

theorem answerSound_iff (l : Launch) (answer : Except RuntimeError String) : s.AnswerSound req l answer ↔
    (ApprovalDecision.parse req.decision = .ok .accept → s.IsPending req → s.Ready req l) := by
  rcases begin_respond s req with ⟨e, hbegin, hnot⟩ | ⟨session, d, hs, hawaits, hparse, hbegin⟩
  · have hrun : s.run (.respondApproval req) [(l.connecting, answer)] = (s, .answered (.error e)) := by
      simp only [run, hbegin]
    refine iff_of_true ?_ fun ha hp => absurd ⟨hp, _, ha⟩ hnot
    unfold AnswerSound
    rw [hrun]
    exact ⟨nofun, fun _ _ => rfl, fun hu => absurd ⟨hu.2.1, _, hu.1⟩ hnot⟩
  · have hpending : s.IsPending req := ⟨session, hs, hawaits⟩
    cases d with
    | decline =>
      refine iff_of_true ?_ fun ha => by cases hparse.symm.trans ha
      have hok : outcome (s.run (.respondApproval req) [(l.connecting, answer)]).2 = .ok () := by
        simp only [run, hbegin, continues, finish]
        rfl
      exact ⟨fun _ => hpending, fun hne => absurd hok hne, fun hu => by cases hparse.symm.trans hu.1⟩
    | accept =>
      constructor
      · intro h _ _
        by_contra hready
        exact not_unlaunched_of_sound hbegin h ⟨hparse, hpending, fun hl => hready ((launches_iff hs hbegin).mp hl)⟩
      · intro h
        have hlaunches := (launches_iff hs hbegin).mpr (h hparse hpending)
        have hok : outcome (s.run (.respondApproval req) [(l.connecting, answer)]).2 = .ok () := by
          obtain ⟨t, p, ht, hp, -⟩ := hlaunches
          simp only [run, ht, finish, goOn, AcpProvider.goOn, hp, outcome]
        exact ⟨fun _ => hpending, fun hne => absurd hok hne, fun hu => absurd hlaunches hu.2.2⟩

end Acp.Waited

/-! ## Both adapters -/

/-- Codex answers soundly just when it is not told to decline what is not pending, ACP just when it is not told to accept
a pending turn that it cannot launch. -/
theorem approval_answers (req : ProviderApprovalResponseRequest) (c : Codex) (spawned : Except RuntimeError Unit)
    (s : Acp.Waited) (l : Acp.Launch) (answer : Except RuntimeError String) :
    (c.AnswerSound req spawned ↔ (ApprovalDecision.parse req.decision = .ok .decline → c.IsPending req)) ∧
      (s.AnswerSound req l answer ↔
        (ApprovalDecision.parse req.decision = .ok .accept → s.IsPending req → s.Ready req l)) :=
  ⟨Codex.answerSound_iff, Acp.Waited.answerSound_iff l answer⟩

def runningCodex : Codex :=
  ((do let _ ← Codex.createSession ⟨"a", none, none, none, none⟩
       Codex.sendTurn ⟨"a", "turn", [], none, none, none⟩ (.ok ()) : CodexM ProviderTurnAck).result Codex.new).2

def holdingAcp : Acp.Waited :=
  ⟨(Acp.AcpProvider.new 1 1).putSession "a" { Acp.AcpSessionState.default with
    pendingApprovals := (∅ : Table String PendingApprovalTurn).insert "approval" ⟨"turn", [], none, none⟩ }, ∅⟩

/-- Codex declines a turn that runs and no approval of which is pending; ACP accepts a turn for which there is no agent. -/
theorem not_approval_answers :
    ¬ runningCodex.AnswerSound ⟨"a", "turn", "approval", "decline", none⟩ (.ok ()) ∧
      ¬ holdingAcp.AnswerSound ⟨"a", "turn", "approval", "accept", none⟩ ⟨.failed (.io "no agent"), none, .fine⟩
        (.ok "") := by
  constructor
  · intro h
    obtain ⟨session, hs, pending, hp, -⟩ := Codex.answerSound_iff.mp h (by decide +kernel)
    have hnone : (runningCodex.sessions.lookup "a").map (fun session => session.pendingApprovals.lookup "approval") =
        some none := by decide +kernel
    rw [hs, Option.map_some, hp] at hnone
    cases hnone
  · intro h
    have hpending : holdingAcp.IsPending ⟨"a", "turn", "approval", "accept", none⟩ := ⟨_, rfl, _, rfl, rfl⟩
    obtain ⟨-, ⟨c, hc⟩, -⟩ := (Acp.Waited.answerSound_iff _ _).mp h (by decide +kernel) hpending
    cases hc

end Gooselake.Providers
