import Gooselake.Library.Runs
import Gooselake.Providers.AdapterSteps
import Gooselake.Runtime.Agreement

/-!
The settings that a Codex process is launched with. The runtime computes the mode of a turn and sends it along; the
adapter takes model and mode from the entry that it keeps for the session, which a resume after a restart makes anew.
-/

namespace Gooselake.Providers

open Gooselake.Core Gooselake.Runtime Data Library Library.Exec

set_option autoImplicit false

/-! ## The command line -/

namespace Codex

/-- A line of the prompt; `print` is how a JSON value is printed. -/
def promptLine (print : Json → String) (item : Json) : String :=
  match ((item.get? "text").bind Json.asStr).bind trimmedNonEmpty with
  | some text => text
  | none =>
    match (item.get? "type").bind Json.asStr with
    | some kind => s!"[{kind}] {print item}"
    | none => (item.asStr.bind trimmedNonEmpty).getD (print item)

def buildTurnPrompt (print : Json → String) (input : List Json) : String :=
  match input.map (promptLine print) with
  | [] => "Continue with the latest task context."
  | lines => "\n\n".intercalate lines

def permissionFlag : Option String → Option String
  | some "full_auto" => some "--full-auto"
  | some "danger_full_access" | some "danger-full-access" => some "--dangerously-bypass-approvals-and-sandbox"
  | _ => none

def modelArgs : Option String → List String
  | some model => ["-m", model]
  | none => []

/-- `build_turn_command_args`, by the reference to resume instead of the session's, which may be a placeholder. -/
def turnCommandArgs (lastMessagePath : String) (resumes model permissionMode : Option String) (prompt : String) :
    List String :=
  ["exec"] ++ (resumes.toList.map fun _ => "resume") ++ ["--json", "--skip-git-repo-check", "-o", lastMessagePath] ++
    modelArgs model ++ (permissionFlag permissionMode).toList ++ resumes.toList ++ [prompt]

def buildTurnCommandArgs (lastMessagePath providerSessionRef : String) (model permissionMode : Option String)
    (prompt : String) : List String :=
  turnCommandArgs lastMessagePath (resumedRef providerSessionRef) model permissionMode prompt

def lastMessagePath (home runtimeSessionId turnId : String) : String :=
  s!"{home}/turn-last-message/{runtimeSessionId}-{turnId}.txt"

example : buildTurnCommandArgs "/tmp/last.txt" "provider-session-123" none (some "danger-full-access") "continue" =
    ["exec", "resume", "--json", "--skip-git-repo-check", "-o", "/tmp/last.txt",
      "--dangerously-bypass-approvals-and-sandbox", "provider-session-123", "continue"] := by decide +kernel

end Codex

def CodexProcess.args (home : String) (print : Json → String) (p : CodexProcess) : List String :=
  Codex.turnCommandArgs (Codex.lastMessagePath home p.runtimeSessionId p.turnId) p.resumes p.model p.permissionMode
    (Codex.buildTurnPrompt print p.input)

/-! ## Settings -/

/-- The effective mode of a turn, as `send_turn` of the runtime computes it. -/
def effectivePermissionMode (input : SendTurnInput) (sessionMode : Option String) : Option String :=
  input.permissionMode.or sessionMode

/-- What `send_turn` of the runtime sends to the adapter. -/
def turnRequest (runtimeSessionId turnId approvalId : String) (input : SendTurnInput) (sessionMode : Option String) :
    ProviderSendTurnRequest :=
  let mode := effectivePermissionMode input sessionMode
  ⟨runtimeSessionId, turnId, input.input, input.expectedTurnId, mode,
    if mode = some "require_approval" then some approvalId else none⟩

def payloadMode (payload : Option Json) : Option String :=
  payload.bind fun payload => (payload.get? "permission_mode").bind Json.asStr

def permissiveness (arg : String) : ℕ :=
  if arg = "--dangerously-bypass-approvals-and-sandbox" then 2 else if arg = "--full-auto" then 1 else 0

def permitted (mode : Option String) : ℕ := (Codex.permissionFlag mode).elim 0 permissiveness

/-! ## Steps -/

structure CodexLaunches where
  codex : Codex
  /-- Model and permission mode, as the runtime has recorded them of its sessions. -/
  records : Table String (Option String × Option String)
  /-- History: the sessions whose entry in the adapter is the one that `create_session` made. -/
  made : List String
  /-- History: the effective modes of the turns that were sent. -/
  sent : Table String (Option String)

inductive CodexLaunchLabel where
  | create (req : ProviderCreateSessionRequest)
  | resume (req : ProviderResumeSessionRequest)
  /-- The runtime and its adapter are started anew; the records stay. -/
  | restart
  | send (runtimeSessionId turnId approvalId : String) (input : SendTurnInput) (spawned : Except RuntimeError Unit)
  | respond (req : ProviderApprovalResponseRequest) (spawned : Except RuntimeError Unit)
  | close (req : ProviderCloseSessionRequest)
  | ends (n : ℕ) (threadId : Option String) (result : ProviderTurnResult)

namespace CodexLaunches

def new : CodexLaunches := ⟨Codex.new, ∅, [], ∅⟩

def run {α : Type} (m : CodexM α) (s : CodexLaunches) : CodexLaunches := { s with codex := (m.result s.codex).2 }

def step : CodexLaunchLabel → CodexLaunches → Option CodexLaunches
  | .create req, s =>
    if req.runtimeSessionId ∈ s.records then none
    else some { s.run (Codex.createSession req) with
      records := s.records.insert req.runtimeSessionId (req.model, req.permissionMode)
      made := req.runtimeSessionId :: s.made }
  | .resume req, s => some (s.run (Codex.resumeSession req))
  | .restart, s => some { s with codex := Codex.new, made := [] }
  | .send runtimeSessionId turnId approvalId input spawned, s => do
    let record ← s.records.lookup runtimeSessionId
    if turnId ∈ s.sent then none
    else some { s.run (Codex.sendTurn (turnRequest runtimeSessionId turnId approvalId input record.2) spawned) with
      sent := s.sent.insert turnId (effectivePermissionMode input record.2) }
  | .respond req spawned, s => some (s.run (Codex.respondApproval req spawned))
  | .close req, s =>
    some { s.run (Codex.closeSession req) with made := s.made.filter (· ≠ req.runtimeSessionId) }
  | .ends n threadId result, s => do
    let process ← s.codex.processes[n]?
    if process.exited then none else some (s.run (Codex.processEnds n process threadId result))

/-! ## What a launch is made of -/

def sessionOf : CodexLaunchLabel → String
  | .send runtimeSessionId _ _ _ _ => runtimeSessionId
  | .respond req _ => req.runtimeSessionId
  | _ => ""

/-- The permission mode that the runtime asks for. -/
def modeOf (l : CodexLaunchLabel) (s : CodexLaunches) : Option String :=
  match l with
  | .send runtimeSessionId _ _ input _ =>
    effectivePermissionMode input ((s.records.lookup runtimeSessionId).bind Prod.snd)
  | .respond req _ => (payloadMode req.payload).or ((s.sent.lookup req.turnId).getD none)
  | _ => none

def entryOf (l : CodexLaunchLabel) (s : CodexLaunches) : Option CodexSessionState :=
  s.codex.sessions.lookup (sessionOf l)

def inputOf (l : CodexLaunchLabel) (s : CodexLaunches) : List Json :=
  match l with
  | .send _ _ _ input _ => input.input
  | .respond req _ =>
    (((s.entryOf l).bind fun session => session.pendingApprovals.lookup req.approvalId).map
      PendingApprovalTurn.input).getD []
  | _ => []

def refOf (l : CodexLaunchLabel) (s : CodexLaunches) : Option String :=
  (s.entryOf l).bind fun session => Codex.resumedRef session.providerSessionRef

/-- The model in the session's record. -/
def modelOf (l : CodexLaunchLabel) (s : CodexLaunches) : Option String :=
  (s.records.lookup (sessionOf l)).bind Prod.fst

end CodexLaunches

/-- The process has the settings `model` and `mode`, and none of its arguments permits more than the mode. -/
structure CodexProcess.LaunchedWith (home : String) (print : Json → String) (model mode : Option String)
    (p : CodexProcess) : Prop where
  settings : p.args home print =
    Codex.turnCommandArgs (Codex.lastMessagePath home p.runtimeSessionId p.turnId) p.resumes
    model mode (Codex.buildTurnPrompt print p.input)
  bounded : ∀ arg ∈ p.args home print, permissiveness arg ≤ permitted mode

/-- The entry that `create_session` made has the flag of the turn's mode, or the session and the mode need neither model
nor flag; and no text that stands among the arguments is itself a flag that permits more. -/
structure CodexLaunches.Agrees (print : Json → String) (l : CodexLaunchLabel) (s : CodexLaunches) : Prop where
  kept : sessionOf l ∈ s.made → Codex.permissionFlag ((s.records.lookup (sessionOf l)).bind Prod.snd) =
    Codex.permissionFlag (s.modeOf l)
  lost : sessionOf l ∉ s.made → s.modelOf l = none ∧ Codex.permissionFlag (s.modeOf l) = none
  prompt : permissiveness (Codex.buildTurnPrompt print (s.inputOf l)) ≤ permitted (s.modeOf l)
  ref : ∀ ref, s.refOf l = some ref → permissiveness ref ≤ permitted (s.modeOf l)
  model : ∀ model, s.modelOf l = some model → permissiveness model ≤ permitted (s.modeOf l)

/-! ## The runtime's request -/

theorem sendTurnBegin_request (sessionId : String) (input : SendTurnInput) (m : Manager) :
    After (sendTurnBegin sessionId input) m fun r _ => ∀ c, r = .ok c →
      ∃ approvalId, c.request = turnRequest sessionId c.turnId approvalId input c.session.permissionMode := by
  refine (sendTurnBegin_call sessionId input).mono fun r _ ⟨hcall, _⟩ c hc => ?_
  rw [hc, Except.toOption, Manager.sendCall] at hcall
  obtain ⟨session, -, hcall⟩ := Option.bind_eq_some_iff.mp hcall.symm
  obtain ⟨kind, -, hcall⟩ := Option.bind_eq_some_iff.mp hcall
  split at hcall
  · cases hcall
  · obtain rfl := Option.some.inj hcall
    exact ⟨m.idFor "apr" kind.asStr 1, rfl⟩

/-! ## What the adapter does to its entries and its processes -/

namespace Codex

def settingsOf (c : Codex) (id : String) : Option (Option String × Option String) :=
  (c.sessions.lookup id).map fun session => (session.model, session.permissionMode)

def launch (id turnId : String) (input : List Json) (session : CodexSessionState) : CodexProcess :=
  { runtimeSessionId := id, turnId := turnId, resumes := resumedRef session.providerSessionRef, input := input,
    model := session.model, permissionMode := session.permissionMode, cwd := session.cwd, exited := false }

variable {c c' : Codex} {id : String} {session session' : CodexSessionState}

theorem settingsOf_put (hc : c'.sessions = c.sessions.insert id session') (hs : c.sessions.lookup id = some session)
    (hm : session'.model = session.model) (hp : session'.permissionMode = session.permissionMode) :
    c'.settingsOf = c.settingsOf := by
  funext k
  rw [settingsOf, settingsOf, hc, Table.lookup_insert]
  split
  · next hk => rw [hk, hs, Option.map_some, Option.map_some, hm, hp]
  · rfl

/-- The entries keep their settings; at most a turn of `id` is launched. -/
structure Goes (id turnId : String) (input : CodexSessionState → List Json) (c c' : Codex) : Prop where
  settings : c'.settingsOf = c.settingsOf
  launches : c'.processes.length = c.processes.length ∨ ∃ session, c.sessions.lookup id = some session ∧
    c'.processes = c.processes ++ [launch id turnId (input session) session]

theorem Goes.refl {turnId : String} {input : CodexSessionState → List Json} : Goes id turnId input c c :=
  ⟨rfl, .inl rfl⟩

theorem spawn_goes (turnId : String) (input : CodexSessionState → List Json) (hs : c.sessions.lookup id = some session)
    (session' : CodexSessionState) (spawned : Except RuntimeError Unit) (hm : session'.model = session.model)
    (hp : session'.permissionMode = session.permissionMode) :
    After (do
      spawnTurn id turnId (input session) session spawned
      putSession id session') c fun _ c' => Goes id turnId input c c' := by
  simp only [spawnTurn, putSession, after_bind_iff, after_ofExcept]
  cases spawned with
  | error e => exact .refl
  | ok _ =>
    simp only [after_modify]
    exact ⟨settingsOf_put rfl hs hm hp, .inr ⟨session, hs, rfl⟩⟩

theorem sendTurn_goes (req : ProviderSendTurnRequest) (spawned : Except RuntimeError Unit) :
    After (sendTurn req spawned) c fun _ c' => Goes req.runtimeSessionId req.turnId (fun _ => req.input) c c' := by
  simp only [sendTurn]
  rw [after_bind_iff]
  refine after_codex_getSession _ (fun session hs => ?_) .refl
  dsimp only
  split
  · exact (after_throw _ _ _).mpr .refl
  · cases req.approvalId with
    | some approvalId =>
      simp only [putSession, after_bind_iff, after_modify, after_pure]
      exact ⟨settingsOf_put rfl hs rfl rfl, .inl rfl⟩
    | none =>
      have hspawn := spawn_goes req.turnId (fun _ => req.input) hs (activate req.turnId session) spawned rfl rfl
      simp only [after_bind_iff, after_pure] at hspawn ⊢
      exact hspawn.elim (fun _ _ h₁ => h₁.elim (fun _ _ h₂ => h₂) fun _ _ h₂ => h₂) fun _ _ h₁ => h₁

theorem completeTurn_goes {turnId : String} {input : CodexSessionState → List Json} (r : ProviderTurnResult)
    (ref : Option String) : After (completeTurn id turnId r ref) c fun _ c' => Goes id turnId input c c' := by
  simp only [completeTurn, putSession, after_bind_iff, after_get]
  cases hs : c.sessions.lookup id with
  | none => exact (after_pure _ _ _).mpr .refl
  | some session =>
    simp only [after_bind_iff, after_modify, after_pure]
    exact ⟨settingsOf_put rfl hs rfl rfl, .inl rfl⟩

def heldInput (approvalId : String) (session : CodexSessionState) : List Json :=
  ((session.pendingApprovals.lookup approvalId).map PendingApprovalTurn.input).getD []

theorem respondApproval_goes (req : ProviderApprovalResponseRequest) (spawned : Except RuntimeError Unit) :
    After (respondApproval req spawned) c fun _ c' =>
      Goes req.runtimeSessionId req.turnId (heldInput req.approvalId) c c' := by
  simp only [respondApproval]
  refine after_checked (fun decision _ => ?_) fun _ _ => .refl
  cases decision with
  | decline =>
    simp only [after_bind_iff, after_pure]
    exact (completeTurn_goes _ none).elim (fun _ _ h => h) fun _ _ h => h
  | accept =>
    dsimp only
    rw [after_bind_iff]
    refine after_codex_getSession _ (fun session hs => ?_) .refl
    dsimp only
    rw [after_bind_iff, after_orThrow]
    refine ⟨fun pending hp => ?_, fun _ => .refl⟩
    dsimp only
    split
    · exact (after_throw _ _ _).mpr .refl
    · next hturn =>
      have hinput : pending.input = heldInput req.approvalId session := by rw [heldInput, hp]; rfl
      rw [not_ne_iff.mp hturn, hinput]
      exact spawn_goes _ _ hs _ spawned rfl rfl

theorem processEnds_goes (n : ℕ) (process : CodexProcess) (threadId : Option String) (r : ProviderTurnResult) :
    After (processEnds n process threadId r) c fun _ c' =>
      c'.settingsOf = c.settingsOf ∧ c'.processes.length = c.processes.length := by
  simp only [processEnds, after_bind_iff, after_modify, after_pure]
  have hlength : ({ c with processes := c.processes.set n { process with exited := true } } : Codex).processes.length =
      c.processes.length := List.length_set
  simp only [completeTurn, putSession, after_bind_iff, after_get]
  cases hs : c.sessions.lookup process.runtimeSessionId with
  | none => exact (after_pure _ _ _).mpr ⟨rfl, hlength⟩
  | some session =>
    simp only [after_bind_iff, after_modify, after_pure]
    exact ⟨settingsOf_put rfl hs rfl rfl, hlength⟩

end Codex

/-! ## The command line and its settings -/

namespace Codex

theorem modelArgs_append_inj {model model' : Option String} {flag flag' : Option String}
    (h : modelArgs model ++ flag.toList = modelArgs model' ++ flag'.toList) : model = model' ∧ flag = flag' := by
  have hlength := congrArg List.length h
  cases model <;> cases model' <;> cases flag <;> cases flag' <;> simp_all [modelArgs]

theorem turnCommandArgs_inj {path prompt : String} {resumes model model' mode mode' : Option String}
    (h : turnCommandArgs path resumes model mode prompt = turnCommandArgs path resumes model' mode' prompt) :
    model = model' ∧ permissionFlag mode = permissionFlag mode' := by
  have hsettings := List.append_cancel_right (List.append_cancel_right h)
  rw [List.append_assoc _ (modelArgs model), List.append_assoc _ (modelArgs model')] at hsettings
  exact modelArgs_append_inj (List.append_cancel_left hsettings)

theorem turnCommandArgs_congr {path prompt : String} {resumes model mode mode' : Option String}
    (h : permissionFlag mode = permissionFlag mode') :
    turnCommandArgs path resumes model mode prompt = turnCommandArgs path resumes model mode' prompt := by
  rw [turnCommandArgs, turnCommandArgs, h]

theorem permissiveness_lastMessagePath (home id turnId : String) :
    permissiveness (lastMessagePath home id turnId) = 0 := by
  have hlast : ∀ flag : String, flag.toList.getLast? ≠ some 't' → lastMessagePath home id turnId ≠ flag := by
    rintro flag hflag rfl
    refine hflag ?_
    simp only [lastMessagePath, toString, String.toList_append]
    rw [List.getLast?_append]
    rfl
  rw [permissiveness, if_neg (hlast _ (by decide +kernel)), if_neg (hlast _ (by decide +kernel))]

theorem permissiveness_args_iff (home id turnId prompt : String) (resumes model mode : Option String) (bound : ℕ) :
    (∀ arg ∈ turnCommandArgs (lastMessagePath home id turnId) resumes model mode prompt, permissiveness arg ≤ bound) ↔
      permissiveness prompt ≤ bound ∧ (∀ ref, resumes = some ref → permissiveness ref ≤ bound) ∧
        (∀ name, model = some name → permissiveness name ≤ bound) ∧
        ∀ flag, permissionFlag mode = some flag → permissiveness flag ≤ bound := by
  have hpath := permissiveness_lastMessagePath home id turnId
  have hfixed : ∀ arg ∈ ["exec", "resume", "--json", "--skip-git-repo-check", "-o", "-m"], permissiveness arg = 0 := by
    decide +kernel
  simp only [List.mem_cons, List.not_mem_nil, or_false, forall_eq_or_imp, forall_eq] at hfixed
  obtain ⟨hexec, hresume, hjson, hskip, hout, hmodel⟩ := hfixed
  cases resumes <;> cases model <;> cases hflag : permissionFlag mode <;>
    simp [turnCommandArgs, modelArgs, hflag, hpath, hexec, hresume, hjson, hskip, hout, hmodel, and_comm, and_assoc,
      and_left_comm]

end Codex

/-! ## The settings of the entries -/

namespace CodexLaunches

/-- The entries that `create_session` made have the recorded settings, all others have none. -/
structure Kept (s : CodexLaunches) : Prop where
  made : ∀ id ∈ s.made, s.codex.settingsOf id = s.records.lookup id ∧ (s.records.lookup id).isSome = true
  other : ∀ id, id ∉ s.made → s.codex.settingsOf id = none ∨ s.codex.settingsOf id = some (none, none)

variable {s s' : CodexLaunches} {l : CodexLaunchLabel}

theorem kept_new : Kept new := ⟨fun _ h => (by cases h), fun _ _ => .inl rfl⟩

theorem Kept.goes (h : Kept s) {c : Codex} (hc : c.settingsOf = s.codex.settingsOf)
    (sent : Table String (Option String)) : Kept { s with codex := c, sent := sent } := by
  refine ⟨fun id hid => ?_, fun id hid => ?_⟩
  · change c.settingsOf id = _ ∧ _
    rw [hc]
    exact h.made id hid
  · change c.settingsOf id = none ∨ c.settingsOf id = _
    rw [hc]
    exact h.other id hid

theorem Kept.create (h : Kept s) (req : ProviderCreateSessionRequest) :
    Kept { s.run (Codex.createSession req) with
      records := s.records.insert req.runtimeSessionId (req.model, req.permissionMode)
      made := req.runtimeSessionId :: s.made } := by
  have hsettings : ∀ id, (s.run (Codex.createSession req)).codex.settingsOf id =
      if id = req.runtimeSessionId then some (req.model, req.permissionMode) else s.codex.settingsOf id := by
    intro id
    change ((s.codex.sessions.insert req.runtimeSessionId (Codex.createdState req)).lookup id).map _ = _
    rw [Table.lookup_insert]
    split <;> rfl
  refine ⟨fun id hid => ?_, fun id hid => ?_⟩
  · change (s.run (Codex.createSession req)).codex.settingsOf id = (s.records.insert _ _).lookup id ∧
      ((s.records.insert _ _).lookup id).isSome = true
    rw [hsettings, Table.lookup_insert]
    split
    · exact ⟨rfl, rfl⟩
    · next hne => exact h.made id ((List.mem_cons.mp hid).resolve_left hne)
  · change (s.run (Codex.createSession req)).codex.settingsOf id = none ∨
      (s.run (Codex.createSession req)).codex.settingsOf id = _
    obtain ⟨hne, hid⟩ := not_or.mp (mt List.mem_cons.mpr hid)
    rw [hsettings, if_neg hne]
    exact h.other id hid

theorem resumeSession_settings (c : Codex) (req : ProviderResumeSessionRequest) :
    After (Codex.resumeSession req) c fun _ c' => ∀ id, c'.settingsOf id = c.settingsOf id ∨
      c.settingsOf id = none ∧ c'.settingsOf id = some (none, none) := by
  simp only [Codex.resumeSession, Codex.putSession, after_bind_iff, after_get, after_modify, after_pure]
  intro id
  simp only [Codex.settingsOf, Table.lookup_insert]
  split
  · next hid =>
    subst hid
    cases c.sessions.lookup req.runtimeSessionId with
    | none => exact .inr ⟨rfl, rfl⟩
    | some session => exact .inl rfl
  · exact .inl rfl

theorem Kept.resume (h : Kept s) (req : ProviderResumeSessionRequest) : Kept (s.run (Codex.resumeSession req)) := by
  have hsettings := (resumeSession_settings s.codex req).out
  refine ⟨fun id hid => ?_, fun id hid => ?_⟩
  · obtain ⟨hmade, hsome⟩ := h.made id hid
    rcases hsettings id with hsame | ⟨hnone, -⟩
    · exact ⟨hsame.trans hmade, hsome⟩
    · rw [← hmade, hnone] at hsome
      cases hsome
  · rcases hsettings id with hsame | ⟨-, hnew⟩
    · exact (h.other id hid).imp hsame.trans hsame.trans
    · exact .inr hnew

theorem kept_restart (s : CodexLaunches) : Kept { s with codex := Codex.new, made := [] } :=
  ⟨fun _ hid => (by cases hid), fun _ _ => .inl rfl⟩

theorem Kept.close (h : Kept s) (req : ProviderCloseSessionRequest) :
    Kept { s.run (Codex.closeSession req) with made := s.made.filter (· ≠ req.runtimeSessionId) } := by
  have hsettings : ∀ id, (s.run (Codex.closeSession req)).codex.settingsOf id =
      if id = req.runtimeSessionId then none else s.codex.settingsOf id := by
    intro id
    change ((s.codex.sessions.erase req.runtimeSessionId).lookup id).map _ = _
    rw [Table.lookup_erase]
    split <;> rfl
  refine ⟨fun id hid => ?_, fun id hid => ?_⟩
  · obtain ⟨hid, hne⟩ := List.mem_filter.mp hid
    change (s.run (Codex.closeSession req)).codex.settingsOf id = _ ∧ _
    rw [hsettings, if_neg (of_decide_eq_true hne)]
    exact h.made id hid
  · change (s.run (Codex.closeSession req)).codex.settingsOf id = none ∨ _ = _
    rw [hsettings]
    split
    · exact .inl rfl
    · next hne => exact h.other id fun hmade => hid (List.mem_filter.mpr ⟨hmade, decide_eq_true hne⟩)

theorem kept_step (h : Kept s) (hstep : step l s = some s') : Kept s' := by
  cases l with
  | create req =>
    simp only [step, Option.ite_none_left_eq_some, Option.some.injEq] at hstep
    obtain ⟨-, rfl⟩ := hstep
    exact h.create req
  | resume req =>
    obtain rfl := Option.some.inj hstep
    exact h.resume req
  | restart =>
    obtain rfl := Option.some.inj hstep
    exact kept_restart s
  | send id turnId approvalId input spawned =>
    simp only [step, Option.bind_eq_bind, Option.bind_eq_some_iff, Option.ite_none_left_eq_some,
      Option.some.injEq] at hstep
    obtain ⟨record, -, -, rfl⟩ := hstep
    exact h.goes (Codex.sendTurn_goes _ spawned).out.settings _
  | respond req spawned =>
    obtain rfl := Option.some.inj hstep
    exact h.goes (Codex.respondApproval_goes req spawned).out.settings s.sent
  | close req =>
    obtain rfl := Option.some.inj hstep
    exact h.close req
  | ends n threadId r =>
    simp only [step, Option.bind_eq_bind, Option.bind_eq_some_iff, Option.ite_none_left_eq_some,
      Option.some.injEq] at hstep
    obtain ⟨process, -, -, rfl⟩ := hstep
    exact h.goes (Codex.processEnds_goes n process threadId r).out.1 s.sent

theorem kept_of_reaches {P : CodexLaunchLabel → CodexLaunches → Prop} (h : Reaches step P new s) : Kept s :=
  h.invariant kept_new fun _ _ _ hk _ hstep => kept_step hk hstep

/-! ## Launches -/

theorem of_run {α : Type} {m : CodexM α} {Q : Codex → Prop} (h : After m s.codex fun _ c => Q c) :
    Q (s.run m).codex := h.out

theorem launch_of_goes {c : Codex} {id turnId : String} {input : CodexSessionState → List Json} {p : CodexProcess}
    (h : Codex.Goes id turnId input s.codex c) (hp : c.processes = s.codex.processes ++ [p]) :
    ∃ session, s.codex.sessions.lookup id = some session ∧ p = Codex.launch id turnId (input session) session := by
  rcases h.launches with hsame | ⟨session, hs, hl⟩
  · rw [hp, List.length_append] at hsame
    exact absurd hsame (Nat.lt_succ_self _).ne'
  · exact ⟨session, hs, List.singleton_inj.mp (List.append_cancel_left (hp.symm.trans hl))⟩

/-- A process is started by a call that launches a turn, with what the session's entry has. -/
theorem launch_spec (hstep : step l s = some s') {p : CodexProcess}
    (hp : s'.codex.processes = s.codex.processes ++ [p]) :
    ∃ session turnId, s.entryOf l = some session ∧ p = Codex.launch (sessionOf l) turnId (s.inputOf l) session := by
  have hgrows : s'.codex.processes.length ≠ s.codex.processes.length := by
    rw [hp, List.length_append]
    exact (Nat.lt_succ_self _).ne'
  cases l with
  | create req =>
    simp only [step, Option.ite_none_left_eq_some, Option.some.injEq] at hstep
    obtain ⟨-, rfl⟩ := hstep
    exact absurd rfl hgrows
  | resume req =>
    obtain rfl := Option.some.inj hstep
    exact absurd rfl hgrows
  | restart =>
    obtain rfl := Option.some.inj hstep
    exact absurd hp (List.append_ne_nil_of_right_ne_nil _ (List.cons_ne_nil _ _)).symm
  | send id turnId approvalId input spawned =>
    simp only [step, Option.bind_eq_bind, Option.bind_eq_some_iff, Option.ite_none_left_eq_some,
      Option.some.injEq] at hstep
    obtain ⟨record, -, -, rfl⟩ := hstep
    have hgoes : Codex.Goes id turnId (fun _ => input.input) s.codex
        (s.run (Codex.sendTurn (turnRequest id turnId approvalId input record.2) spawned)).codex :=
      of_run (Codex.sendTurn_goes (turnRequest id turnId approvalId input record.2) spawned)
    obtain ⟨session, hs, hl⟩ := launch_of_goes hgoes hp
    exact ⟨session, turnId, hs, hl⟩
  | respond req spawned =>
    obtain rfl := Option.some.inj hstep
    have hgoes : Codex.Goes req.runtimeSessionId req.turnId (Codex.heldInput req.approvalId) s.codex
        (s.run (Codex.respondApproval req spawned)).codex :=
      of_run (Codex.respondApproval_goes req spawned)
    obtain ⟨session, hs, hl⟩ := launch_of_goes hgoes hp
    have hentry : s.entryOf (.respond req spawned) = some session := hs
    have hinput : s.inputOf (.respond req spawned) = Codex.heldInput req.approvalId session := by
      simp only [inputOf, hentry, Option.bind_some, Codex.heldInput]
    exact ⟨session, req.turnId, hentry, by rw [hinput]; exact hl⟩
  | close req =>
    obtain rfl := Option.some.inj hstep
    exact absurd rfl hgrows
  | ends n threadId r =>
    simp only [step, Option.bind_eq_bind, Option.bind_eq_some_iff, Option.ite_none_left_eq_some,
      Option.some.injEq] at hstep
    obtain ⟨process, -, -, rfl⟩ := hstep
    exact absurd (Codex.processEnds_goes n process threadId r).out.2 hgrows

/-- The entry has the session's model and the flag of the turn's mode just when nothing was lost that the turn needs, and
the flag of the session's mode is that of the turn's. -/
theorem Kept.settings_iff (h : Kept s) {session : CodexSessionState} (hentry : s.entryOf l = some session) :
    (session.model = s.modelOf l ∧ Codex.permissionFlag session.permissionMode = Codex.permissionFlag (s.modeOf l)) ↔
      (sessionOf l ∈ s.made → Codex.permissionFlag ((s.records.lookup (sessionOf l)).bind Prod.snd) =
        Codex.permissionFlag (s.modeOf l)) ∧
      (sessionOf l ∉ s.made → s.modelOf l = none ∧ Codex.permissionFlag (s.modeOf l) = none) := by
  have hsettings : s.codex.settingsOf (sessionOf l) = some (session.model, session.permissionMode) := by
    rw [Codex.settingsOf]
    exact congrArg (Option.map fun session : CodexSessionState => (session.model, session.permissionMode)) hentry
  by_cases hmade : sessionOf l ∈ s.made
  · have hrecord := ((h.made _ hmade).1.symm.trans hsettings)
    have hmodel : s.modelOf l = session.model := by rw [modelOf, hrecord]; rfl
    rw [hmodel, hrecord]
    simp [hmade]
  · have hnone : session.model = none ∧ session.permissionMode = none := by
      rcases h.other _ hmade with hold | hold
      · cases hsettings.symm.trans hold
      · exact Prod.mk.inj (Option.some.inj (hsettings.symm.trans hold))
    rw [hnone.1, hnone.2]
    simp only [hmade, false_imp_iff, not_false_eq_true, true_imp_iff, true_and]
    exact and_congr eq_comm eq_comm

theorem launchedWith_iff (h : Kept s) (home : String) (print : Json → String) {session : CodexSessionState}
    (hentry : s.entryOf l = some session) (turnId : String) :
    (Codex.launch (sessionOf l) turnId (s.inputOf l) session).LaunchedWith home print (s.modelOf l) (s.modeOf l) ↔
      s.Agrees print l := by
  have hsettings := h.settings_iff hentry
  have hbounded := Codex.permissiveness_args_iff home (sessionOf l) turnId (Codex.buildTurnPrompt print (s.inputOf l))
    (Codex.resumedRef session.providerSessionRef) session.model session.permissionMode (permitted (s.modeOf l))
  have href : s.refOf l = Codex.resumedRef session.providerSessionRef := by rw [refOf, hentry]; rfl
  constructor
  · rintro ⟨hargs, hbound⟩
    obtain ⟨hmodel, hflag⟩ := Codex.turnCommandArgs_inj hargs
    obtain ⟨hkept, hlost⟩ := hsettings.mp ⟨hmodel, hflag⟩
    obtain ⟨hprompt, hrefs, hmodels, -⟩ := hbounded.mp hbound
    exact ⟨hkept, hlost, hprompt, href ▸ hrefs, fun model hm => hmodels model (hmodel.trans hm)⟩
  · rintro ⟨hkept, hlost, hprompt, hrefs, hmodels⟩
    obtain ⟨hmodel, hflag⟩ := hsettings.mpr ⟨hkept, hlost⟩
    refine ⟨?_, hbounded.mpr ⟨hprompt, fun ref hr => hrefs ref (href.trans hr), fun model hm => ?_, fun flag hf => ?_⟩⟩
    · change Codex.turnCommandArgs _ _ session.model session.permissionMode _ = _
      rw [hmodel]
      exact Codex.turnCommandArgs_congr hflag
    · exact hmodels model (hmodel.symm.trans hm)
    · rw [permitted, ← hflag, hf]
      exact le_rfl

/-- The process of a turn is launched with the session's model and the flag of the turn's mode, and nothing that permits
more, just when the entry of the adapter agrees with the turn. -/
theorem launches_with_settings (home : String) (print : Json → String) (h : Reaches step (fun _ _ => True) new s)
    (hstep : step l s = some s') {p : CodexProcess} (hp : s'.codex.processes = s.codex.processes ++ [p]) :
    p.LaunchedWith home print (s.modelOf l) (s.modeOf l) ↔ s.Agrees print l := by
  obtain ⟨session, turnId, hentry, rfl⟩ := launch_spec hstep hp
  exact launchedWith_iff (kept_of_reaches h) home print hentry turnId

/-- A session is resumed before its turn, which has a mode of its own with the same flag. -/
theorem launches_with_settings_resumed : ∃ s s' p, Reaches step (fun _ _ => True) new s ∧
    step (.send "a" "turn" "approval" ⟨[], none, some "danger-full-access"⟩ (.ok ())) s = some s' ∧
    s'.codex.processes = s.codex.processes ++ [p] ∧
    p.LaunchedWith "/home" (fun _ => "") (some "gpt-5.4") (some "danger-full-access") := by
  let l : CodexLaunchLabel := .send "a" "turn" "approval" ⟨[], none, some "danger-full-access"⟩ (.ok ())
  let p : CodexProcess := ⟨"a", "turn", some "thread", [], some "gpt-5.4", some "danger_full_access", none, false⟩
  obtain ⟨s, hs, hrun⟩ := exists_reaches_of_runAll (s := new) step (fun _ _ => true)
    [.create ⟨"a", some "gpt-5.4", none, some "danger_full_access", none⟩, .resume ⟨"a", "thread", none, none, none⟩]
    (fun s : CodexLaunches => decide (s.made = ["a"]) &&
      decide (s.records.lookup "a" = some (some "gpt-5.4", some "danger_full_access")) &&
      decide (s.refOf l = some "thread") && decide (s.codex.processes = []) &&
      decide ((step l s).map (fun s => s.codex.processes) = some [p])) true (by decide +kernel)
  simp only [Bool.and_eq_true, decide_eq_true_eq] at hrun
  obtain ⟨⟨⟨⟨hmade, hrecord⟩, href⟩, hnone⟩, hstep⟩ := hrun
  obtain ⟨s', hs', hp⟩ := Option.map_eq_some_iff.mp hstep
  have hreaches := hs.mono (Q := fun _ _ => True) fun _ _ _ => trivial
  have hprocesses : s'.codex.processes = s.codex.processes ++ [p] := by rw [hnone]; exact hp
  have hmodel : s.modelOf l = some "gpt-5.4" := congrArg (Option.bind · Prod.fst) hrecord
  have hmode : s.modeOf l = some "danger-full-access" := rfl
  have hiff := launches_with_settings "/home" (fun _ => "") hreaches hs' hprocesses
  rw [hmodel, hmode] at hiff
  refine ⟨s, s', p, hreaches, hs', hprocesses,
    hiff.mpr ⟨fun _ => ?_, fun hlost => ?_, ?_, fun ref hr => ?_, fun model hm => ?_⟩⟩
  · exact congrArg (fun record : Option (Option String × Option String) =>
      Codex.permissionFlag (record.bind Prod.snd)) hrecord
  · exact absurd (hmade ▸ List.mem_singleton.mpr rfl) hlost
  · change permissiveness (Codex.buildTurnPrompt (fun _ => "") []) ≤ permitted (some "danger-full-access")
    decide +kernel
  · obtain rfl := Option.some.inj (href.symm.trans hr)
    change permissiveness "thread" ≤ permitted (some "danger-full-access")
    decide +kernel
  · obtain rfl := Option.some.inj (hmodel.symm.trans hm)
    change permissiveness "gpt-5.4" ≤ permitted (some "danger-full-access")
    decide +kernel

/-- The turn of a session in `danger_full_access` is to run in `default`. -/
theorem not_launches_with_settings :
    ¬ ∀ (home : String) (print : Json → String) (s s' : CodexLaunches) (l : CodexLaunchLabel) (p : CodexProcess),
      Reaches step (fun _ _ => True) new s → step l s = some s' → s'.codex.processes = s.codex.processes ++ [p] →
        p.LaunchedWith home print (s.modelOf l) (s.modeOf l) := by
  intro h
  let l : CodexLaunchLabel := .send "a" "turn" "approval" ⟨[], none, some "default"⟩ (.ok ())
  obtain ⟨s, hs, hrun⟩ := exists_reaches_of_runAll (s := new) step (fun _ _ => true)
    [.create ⟨"a", some "gpt-5.4", none, some "danger_full_access", none⟩]
    (fun s : CodexLaunches => (s.codex.processes, s.modeOf l, (step l s).map fun s => s.codex.processes))
    ([], some "default", some [⟨"a", "turn", none, [], some "gpt-5.4", some "danger_full_access", none, false⟩])
    (by decide +kernel)
  simp only [Prod.mk.injEq] at hrun
  obtain ⟨hnone, hmode, hstep⟩ := hrun
  obtain ⟨s', hs', hp⟩ := Option.map_eq_some_iff.mp hstep
  have hlaunched := h "/home" (fun _ => "") s s' l _ (hs.mono fun _ _ _ => trivial) hs' (by rw [hnone]; exact hp)
  have hflag := hlaunched.bounded "--dangerously-bypass-approvals-and-sandbox" (by decide +kernel)
  rw [hmode] at hflag
  exact absurd hflag (by decide +kernel)

end CodexLaunches

/-! ## Approvals -/

namespace Codex

/-- The turns that processes were started for. -/
def launched (c : Codex) : List String := c.processes.map CodexProcess.turnId

variable {c : Codex}

theorem spawn_launched (id turnId : String) (input : List Json) (session session' : CodexSessionState)
    (spawned : Except RuntimeError Unit) : After (do
      spawnTurn id turnId input session spawned
      putSession id session') c fun _ c' => c'.launched = c.launched ∨ c'.launched = c.launched ++ [turnId] := by
  simp only [spawnTurn, putSession, after_bind_iff, after_ofExcept]
  cases spawned with
  | error e => exact .inl trivial
  | ok _ =>
    simp only [after_modify]
    exact .inr List.map_append

theorem completeTurn_launched (id turnId : String) (r : ProviderTurnResult) (ref : Option String) :
    After (completeTurn id turnId r ref) c fun _ c' => c'.launched = c.launched := by
  simp only [completeTurn, putSession, after_bind_iff, after_get]
  cases c.sessions.lookup id <;> simp only [after_bind_iff, after_modify, after_pure, launched]

theorem sendTurn_launched (req : ProviderSendTurnRequest) (spawned : Except RuntimeError Unit) :
    After (sendTurn req spawned) c fun _ c' =>
      c'.launched = c.launched ∨ req.approvalId = none ∧ c'.launched = c.launched ++ [req.turnId] := by
  simp only [sendTurn]
  rw [after_bind_iff]
  refine after_codex_getSession _ (fun session _ => ?_) (.inl rfl)
  dsimp only
  split
  · exact (after_throw _ _ _).mpr (.inl rfl)
  · cases req.approvalId with
    | some approvalId =>
      simp only [putSession, after_bind_iff, after_modify, after_pure]
      exact .inl rfl
    | none =>
      have hspawn := spawn_launched (c := c) req.runtimeSessionId req.turnId req.input (activate req.turnId session)
        (activate req.turnId session) spawned
      simp only [after_bind_iff, after_pure, true_and] at hspawn ⊢
      exact hspawn.elim (fun _ _ h₁ => h₁.elim (fun _ _ h₂ => h₂) fun _ _ h₂ => h₂) fun _ _ h₁ => h₁

theorem respondApproval_launched (req : ProviderApprovalResponseRequest) (spawned : Except RuntimeError Unit) :
    After (respondApproval req spawned) c fun _ c' => c'.launched = c.launched ∨
      ApprovalDecision.parse req.decision = .ok .accept ∧ c'.launched = c.launched ++ [req.turnId] := by
  simp only [respondApproval]
  refine after_checked (fun decision hdecision => ?_) fun _ _ => .inl rfl
  cases decision with
  | decline =>
    simp only [after_bind_iff, after_pure]
    exact (completeTurn_launched _ _ _ none).elim (fun _ _ h => .inl h) fun _ _ h => .inl h
  | accept =>
    dsimp only
    rw [after_bind_iff]
    refine after_codex_getSession _ (fun session hs => ?_) (.inl rfl)
    dsimp only
    rw [after_bind_iff, after_orThrow]
    refine ⟨fun pending hp => ?_, fun _ => .inl rfl⟩
    dsimp only
    split
    · exact (after_throw _ _ _).mpr (.inl rfl)
    · next hturn =>
      rw [not_ne_iff.mp hturn]
      exact (spawn_launched _ _ _ _ _ spawned).mono fun _ _ h => h.imp_right (And.intro hdecision)

theorem processEnds_launched {n : ℕ} {process : CodexProcess} (hn : c.processes[n]? = some process)
    (threadId : Option String) (r : ProviderTurnResult) :
    After (processEnds n process threadId r) c fun _ c' => c'.launched = c.launched := by
  simp only [processEnds, after_bind_iff, after_modify, after_pure]
  have hset : ({ c with processes := c.processes.set n { process with exited := true } } : Codex).launched = c.launched := by
    obtain ⟨hlt, rfl⟩ := List.getElem?_eq_some_iff.mp hn
    rw [launched, List.map_set]
    exact (congrArg _ (List.getElem_map _).symm).trans (List.set_getElem_self (by simpa using hlt))
  exact (completeTurn_launched _ _ _ _).elim (fun _ _ h => h.trans hset) fun _ _ h => h.trans hset

end Codex

namespace CodexLaunches

variable {s s' : CodexLaunches} {l : CodexLaunchLabel}

/-- An acceptance of the turn's approval. -/
def accepts (turnId : String) : CodexLaunchLabel → Bool
  | .respond req _ => decide (req.turnId = turnId) && decide (ApprovalDecision.parse req.decision = .ok .accept)
  | _ => false

/-- The turn has not been launched if it was not sent, or needs an approval. -/
def Gated (turnId : String) (s : CodexLaunches) : Prop :=
  s.sent.lookup turnId = none ∨ s.sent.lookup turnId = some (some "require_approval") → turnId ∉ s.codex.launched

theorem run_sent {α : Type} (m : CodexM α) (s : CodexLaunches) : (s.run m).sent = s.sent := rfl

theorem Gated.keep {turnId : String} (h : Gated turnId s) (hsent : s'.sent.lookup turnId = s.sent.lookup turnId)
    (hl : s'.codex.launched = s.codex.launched ∨ ∃ t, t ≠ turnId ∧ s'.codex.launched = s.codex.launched ++ [t]) :
    Gated turnId s' := by
  intro hgated hmem
  rw [hsent] at hgated
  rcases hl with hsame | ⟨t, ht, hmore⟩
  · rw [hsame] at hmem
    exact h hgated hmem
  · rw [hmore] at hmem
    exact (List.mem_append.mp hmem).elim (h hgated) fun hmem => ht (List.mem_singleton.mp hmem).symm

theorem gated_step {turnId : String} (h : Gated turnId s) (hno : accepts turnId l = false) (hstep : step l s = some s') :
    Gated turnId s' := by
  cases l with
  | create req =>
    simp only [step, Option.ite_none_left_eq_some, Option.some.injEq] at hstep
    obtain ⟨-, rfl⟩ := hstep
    exact h
  | resume req =>
    obtain rfl := Option.some.inj hstep
    exact h
  | restart =>
    obtain rfl := Option.some.inj hstep
    exact fun _ => List.not_mem_nil
  | send id t approvalId input spawned =>
    simp only [step, Option.bind_eq_bind, Option.bind_eq_some_iff, Option.ite_none_left_eq_some,
      Option.some.injEq] at hstep
    obtain ⟨record, -, hnew, rfl⟩ := hstep
    have hout := of_run (s := s) (Codex.sendTurn_launched (turnRequest id t approvalId input record.2) spawned)
    generalize s.run (Codex.sendTurn (turnRequest id t approvalId input record.2) spawned) = s₁ at hout
    have hsent : (s.sent.insert t (effectivePermissionMode input record.2)).lookup turnId = _ := Table.lookup_insert ..
    by_cases ht : turnId = t
    · subst ht
      rw [if_pos rfl] at hsent
      intro hgated hmem
      have hbefore : turnId ∉ s.codex.launched := h (.inl (AList.lookup_eq_none.mpr hnew))
      have hmode := Option.some.inj ((hgated.resolve_left (hsent ▸ Option.some_ne_none _)).symm.trans hsent)
      rcases hout with hsame | ⟨hnone, -⟩
      · rw [← hsame] at hbefore
        exact hbefore hmem
      · rw [turnRequest, ← hmode] at hnone
        cases hnone
    · rw [if_neg ht] at hsent
      exact h.keep hsent (hout.imp_right fun hmore => ⟨t, Ne.symm ht, hmore.2⟩)
  | respond req spawned =>
    obtain rfl := Option.some.inj hstep
    have hout := of_run (s := s) (Codex.respondApproval_launched req spawned)
    refine h.keep (congrArg _ (run_sent _ s)) (hout.imp_right fun hmore => ⟨req.turnId, fun ht => ?_, hmore.2⟩)
    simp [accepts, hmore.1, ht] at hno
  | close req =>
    obtain rfl := Option.some.inj hstep
    exact h
  | ends n threadId r =>
    simp only [step, Option.bind_eq_bind, Option.bind_eq_some_iff, Option.ite_none_left_eq_some,
      Option.some.injEq] at hstep
    obtain ⟨process, hn, -, rfl⟩ := hstep
    have hout := of_run (s := s) (Codex.processEnds_launched hn threadId r)
    exact h.keep (congrArg _ (run_sent _ s)) (.inl hout)

/-- A turn that is sent in `require_approval` runs in no process unless a call accepts it, whatever is sent, answered or
closed besides and however often the runtime is restarted. -/
theorem approval_gates_launch {turnId : String} (h : Reaches step (fun l _ => accepts turnId l = false) new s)
    (hsent : s.sent.lookup turnId = some (some "require_approval")) : ∀ p ∈ s.codex.processes, p.turnId ≠ turnId := by
  have hgated : Gated turnId s :=
    h.invariant (fun _ => List.not_mem_nil) fun _ _ _ hi hno hstep => gated_step hi hno hstep
  exact fun p hp he => hgated (.inr hsent) (he ▸ List.mem_map_of_mem hp)

theorem approval_gates_launch_declined : ∃ s : CodexLaunches, s.codex.launched = ["other"] ∧
    ∀ p ∈ s.codex.processes, p.turnId ≠ "turn" := by
  obtain ⟨s, hs, hrun⟩ := exists_reaches_of_runAll (s := new) step (fun l _ => !accepts "turn" l)
    [.create ⟨"a", none, none, none, none⟩, .send "a" "turn" "approval" ⟨[], none, some "require_approval"⟩ (.ok ()),
      .respond ⟨"a", "turn", "approval", "decline", none⟩ (.ok ()), .send "a" "other" "approval" ⟨[], none, none⟩ (.ok ())]
    (fun s => (s.codex.launched, s.sent.lookup "turn")) (["other"], some (some "require_approval")) (by decide +kernel)
  exact ⟨s, congrArg Prod.fst hrun,
    approval_gates_launch (hs.mono fun _ _ h => by simpa using h) (congrArg Prod.snd hrun)⟩

end CodexLaunches

end Gooselake.Providers
