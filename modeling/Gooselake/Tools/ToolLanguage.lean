import Gooselake.Tools.GatewayArgs

/-!
Whether the MCP server and the gateway speak the same tool language: every call the server sends is
understood as it was meant, and one that names a process of its caller by the pid reaches it.
-/

namespace Gooselake.Tools

open Gooselake.Core Data Library Library.Exec

set_option autoImplicit false

/-! ## Callers -/

/-- The identity of a caller as `resolve_caller_agent_id` gives it: trimmed and not blank. -/
structure CallerId where
  text : String
  named : trimmedNonEmpty text = some text

def normalizeNonEmpty (value : String) : Option CallerId :=
  match h : trimmedNonEmpty value with
  | some text => some ⟨text, trimmedNonEmpty_of_trimmed h⟩
  | none => none

def resolveCallerAgentId (callerAgentId defaultCallerAgentId : Option String) : Option CallerId :=
  (callerAgentId.bind normalizeNonEmpty).or (defaultCallerAgentId.bind normalizeNonEmpty)

theorem CallerId.trim_ne (c : CallerId) : trim c.text ≠ "" := by
  intro h
  have hnamed := c.named
  simp [trimmedNonEmpty, h] at hnamed

/-! ## What is understood -/

namespace McpCall

def answer (r : McpCall) (checks : TeamChecks) (caller : CallerId) (invocationId : Option String) :
    Except RuntimeError (Except TeamToolFailure ToolCall) :=
  invokeTool checks (r.toRequest caller.text invocationId)

/-- Whatever the services say, the handler reads just what the call asks for, or it refuses the call for a reason that
is not in the spelling of its arguments; a call that asks for nothing is called a bad request. -/
def Understood (r : McpCall) : Prop :=
  ∀ checks caller invocationId, ∃ result, r.answer checks caller invocationId = .ok result ∧
    Outcome checks caller.text r r.asksFor result

def namedPid : McpCall → Option ℤ
  | .ggProcessStatus p => p.pid.map fun n => n.toNat
  | .ggProcessKill p => some p.pid.toNat
  | _ => none

end McpCall

/-- Process `h` of the map has a pid. -/
def HasPid (m : Processes) (pid : ℤ) (h : ℕ) (o : ManagedProcess) : Prop :=
  (∃ id, m.processes.lookup id = some h) ∧ m.objects.lookup h = some o ∧ o.record.pid = some pid

/-- Process `h` of the map belongs to the caller and has a pid. -/
def OwnsPid (m : Processes) (caller : CallerId) (pid : ℤ) (h : ℕ) : Prop :=
  ∃ o, HasPid m pid h o ∧ o.record.sessionId = some caller.text

/-- In whatever order the map is gone through, a call that names the pid of a process of its caller
reaches a process of its caller with that pid. -/
def ReachesOwn (m : Processes) (r : McpCall) (caller : CallerId) : Prop :=
  ∀ pid h, r.namedPid = some pid → OwnsPid m caller pid h → ∀ order, order.Perm m.processes.keys →
    ∀ checks invocationId, ∃ call h', r.answer checks caller invocationId = .ok (.ok call) ∧
      ((call.addressed order).result m).1 = .ok (some h') ∧ OwnsPid m caller pid h'

/-- A status names a pid of at most 63 bits and no lines; there is no kill; and the worktree name of an add or removal
is not blank, unless the call asks for nothing at all or for a preset that no catalog can have. -/
def McpCall.spelled : McpCall → Bool
  | .ggTeamManage p => !p.blanksWorktree || p.asksFor.all ToolRequest.presetless
  | .ggProcessStatus p => p.headLines.isNone && p.tailLines.isNone && p.pid.all fun n => n.toNat < 2 ^ 63
  | .ggProcessKill _ => false
  | _ => true

/-- No process of another session shares the pid of a process of the caller that the call names. -/
def Apart (m : Processes) (r : McpCall) (caller : CallerId) : Prop :=
  ∀ pid h, r.namedPid = some pid → OwnsPid m caller pid h →
    ∀ h' o, HasPid m pid h' o → o.record.sessionId = some caller.text

/-! ## Routing -/

section

variable {checks : TeamChecks} {request : ToolInvokeRequest} (hcaller : trim request.callerSessionId ≠ "")
  (hns : request.namespace.all fun ns => namespaceMatchesTool ns request.toolName)

include hcaller hns

theorem invokeTool_process (htool : startsWith "gg_process_" request.toolName = true) :
    invokeTool checks request = .ok (readProcessTool request) := by
  have hany : ¬ (request.namespace.any fun ns => !namespaceMatchesTool ns request.toolName) = true := by
    simpa [Option.any_eq_false_iff_get, Option.all_eq_true_iff_get] using hns
  rw [invokeTool, if_neg hcaller, if_neg hany, if_pos htool]

theorem invokeTool_team (hother : startsWith "gg_process_" request.toolName = false)
    (htool : startsWith "gg_team_" request.toolName = true) :
    invokeTool checks request = .ok (readTeamTool checks request) := by
  have hany : ¬ (request.namespace.any fun ns => !namespaceMatchesTool ns request.toolName) = true := by
    simpa [Option.any_eq_false_iff_get, Option.all_eq_true_iff_get] using hns
  rw [invokeTool, if_neg hcaller, if_neg hany, if_neg (by rw [hother]; exact Bool.false_ne_true), if_pos htool]

end

section

variable (checks : TeamChecks) (caller : CallerId) (invocationId : Option String)

theorem answer_process {r : McpCall} (name : String) (hname : r.names = ("gg_process", name))
    (hspace : namespaceMatchesTool "gg_process" name = true) (htool : startsWith "gg_process_" name = true) :
    r.answer checks caller invocationId = .ok (readProcessTool (r.toRequest caller.text invocationId)) := by
  refine invokeTool_process caller.trim_ne ?_ ?_
  · simp [McpCall.toRequest, hname, hspace]
  · simp [McpCall.toRequest, hname, htool]

theorem answer_team {r : McpCall} (name : String) (hname : r.names = ("gg_team", name))
    (hspace : namespaceMatchesTool "gg_team" name = true) (hother : startsWith "gg_process_" name = false)
    (htool : startsWith "gg_team_" name = true) :
    r.answer checks caller invocationId = .ok (readTeamTool checks (r.toRequest caller.text invocationId)) := by
  refine invokeTool_team caller.trim_ne ?_ ?_ ?_
  · simp [McpCall.toRequest, hname, hspace]
  · simp [McpCall.toRequest, hname, hother]
  · simp [McpCall.toRequest, hname, htool]

end

/-! ## The process tools -/

section

variable (caller : String) (invocationId : Option String)

theorem readProcessTool_run (p : GgProcessRunRequest) :
    readProcessTool ((McpCall.ggProcessRun p).toRequest caller invocationId) =
      .ok (.runProcess ⟨some caller, invocationId, p.command, p.cwd, p.timeoutMs.map UInt64.toNat⟩) := by
  have hcommand : argOf Json.asStr "command" p.toFields = some p.command := rfl
  have hcwd : argOf Json.asStr "cwd" p.toFields = p.cwd := by
    cases h : p.cwd <;> simp [argOf, GgProcessRunRequest.toFields, h, Json.asStr]
  have htimeout : argOf asU64 "timeout_ms" p.toFields = p.timeoutMs.map UInt64.toNat := by
    have hsent : Json.fieldOf "timeout_ms" p.toFields = p.timeoutMs.map jsonOfU64 := by
      simp [GgProcessRunRequest.toFields]
    rw [argOf, hsent]
    cases p.timeoutMs with
    | none => rfl
    | some n => rw [Option.map_some, Option.bind_some, asU64_jsonOfU64, Option.map_some]
  have htool : trim "gg_process_run" = "gg_process_run" := by decide
  simp only [readProcessTool, McpCall.toRequest, McpCall.toFields, McpCall.names, htool, hcommand, hcwd, htimeout,
    Option.getD_some]

theorem readProcessTool_status (p : GgProcessStatusRequest) :
    readProcessTool ((McpCall.ggProcessStatus p).toRequest caller invocationId) =
      .ok (match p.pid.filter fun n => n.toNat < 2 ^ 63 with
        | some n => .getProcess (pidTarget n) caller
        | none => .listProcesses caller) := by
  have hid : argOf Json.asStr "process_id" p.toFields = none := by
    simp [argOf, GgProcessStatusRequest.toFields]
  have hpid : argOf valueAsI64 "pid" p.toFields = (p.pid.filter fun n => n.toNat < 2 ^ 63).map
      fun n => (n.toNat : ℤ) := by
    have hsent : Json.fieldOf "pid" p.toFields = p.pid.map jsonOfU64 := by
      simp [GgProcessStatusRequest.toFields]
    rw [argOf, hsent]
    cases p.pid with
    | none => rfl
    | some n =>
      rw [Option.map_some, Option.bind_some, valueAsI64_jsonOfU64, Option.filter_some]
      simp only [decide_eq_true_eq]
      split <;> rfl
  have htool : trim "gg_process_status" = "gg_process_status" := by decide
  simp only [readProcessTool, McpCall.toRequest, McpCall.toFields, McpCall.names, htool, hid, hpid]
  cases p.pid.filter fun n => n.toNat < 2 ^ 63 <;> rfl

theorem readProcessTool_kill (p : GgProcessKillRequest) :
    readProcessTool ((McpCall.ggProcessKill p).toRequest caller invocationId) =
      .ok (.killProcess ⟨"", some caller, some "gg_process_kill"⟩) := by
  have hid : argOf Json.asStr "process_id" p.toFields = none := rfl
  have htool : trim "gg_process_kill" = "gg_process_kill" := by decide
  simp only [readProcessTool, McpCall.toRequest, McpCall.toFields, McpCall.names, htool, hid, Option.getD_none]

end

/-! ## Which calls are understood -/

def openChecks : TeamChecks where
  enabled := true
  mayAdd _ _ := .ok ()
  presets := []
  sessionProvider _ := .ok none

def someCaller : CallerId := ⟨"session_1", by decide⟩

theorem understood_of_team {checks : TeamChecks} {caller : CallerId} {invocationId : Option String} {r : McpCall}
    {read : Except TeamToolFailure ToolCall} (hteam : r.names.1 = "gg_team")
    (hanswer : r.answer checks caller invocationId = .ok (readTeamTool checks (r.toRequest caller.text invocationId)))
    (hread : checks.enabled = true → readTeamTool checks (r.toRequest caller.text invocationId) = read)
    (h : Outcome checks caller.text r r.asksFor read) : ∃ result, r.answer checks caller invocationId = .ok result ∧
      Outcome checks caller.text r r.asksFor result := by
  refine ⟨_, hanswer, ?_⟩
  cases henabled : checks.enabled with
  | true => rw [hread henabled]; exact h
  | false =>
    have hoff : readTeamTool checks (r.toRequest caller.text invocationId) =
        .error ⟨"feature_disabled", "gg_team MCP tools are disabled"⟩ := by
      rw [readTeamTool, if_pos (by simp [henabled])]
    exact .inr ⟨_, hoff, .inl (.disabled hteam henabled)⟩

theorem understood_teamStatus (p : GgTeamStatusRequest) : (McpCall.ggTeamStatus p).Understood := by
  intro checks caller invocationId
  have htool : trim "gg_team_status" = "gg_team_status" := by decide
  refine understood_of_team rfl (answer_team _ _ _ "gg_team_status" rfl (by decide) (by decide) (by decide))
    (fun h => ?_) (readTeamStatus_outcome checks caller.text p)
  simp only [readTeamTool, h, McpCall.toRequest, McpCall.names, McpCall.toFields, htool, not_true_eq_false, if_false]

theorem understood_teamMessage (p : GgTeamMessageRequest) : (McpCall.ggTeamMessage p).Understood := by
  intro checks caller invocationId
  have htool : trim "gg_team_message" = "gg_team_message" := by decide
  refine understood_of_team rfl (answer_team _ _ _ "gg_team_message" rfl (by decide) (by decide) (by decide))
    (fun h => ?_) (readTeamMessage_outcome checks caller.text p)
  simp only [readTeamTool, h, McpCall.toRequest, McpCall.names, McpCall.toFields, htool, not_true_eq_false, if_false]

theorem readTeamTool_manage {checks : TeamChecks} (henabled : checks.enabled = true) (caller : CallerId)
    (invocationId : Option String) (p : GgTeamManageRequest) :
    readTeamTool checks ((McpCall.ggTeamManage p).toRequest caller.text invocationId) =
      readTeamManage checks caller.text p.toFields := by
  have htool : trim "gg_team_manage" = "gg_team_manage" := by decide
  simp only [readTeamTool, henabled, McpCall.toRequest, McpCall.names, McpCall.toFields, htool, not_true_eq_false,
    if_false]

theorem understood_teamManage_iff (p : GgTeamManageRequest) :
    (McpCall.ggTeamManage p).Understood ↔ (McpCall.ggTeamManage p).spelled = true := by
  have hspelled : (McpCall.ggTeamManage p).spelled = true ↔ (p.blanksWorktree = true →
      ∀ request, p.asksFor = some request → request.presetless = true) := by
    simp only [McpCall.spelled, Bool.or_eq_true, Bool.not_eq_true', Option.all_eq_true_iff_get]
    cases p.blanksWorktree <;> cases p.asksFor <;> simp
  have hanswer : ∀ checks caller invocationId, (McpCall.ggTeamManage p).answer checks caller invocationId =
      .ok (readTeamTool checks ((McpCall.ggTeamManage p).toRequest caller.text invocationId)) :=
    fun checks caller invocationId => answer_team checks caller invocationId "gg_team_manage" rfl (by decide)
      (by decide) (by decide)
  rw [hspelled]
  constructor
  · intro h hblank request hasked
    by_contra hpresetless
    obtain ⟨result, hresult, houtcome⟩ := h (willing p) someCaller none
    rw [hanswer, readTeamTool_manage rfl] at hresult
    obtain rfl := Except.ok.inj hresult
    rcases houtcome with ⟨call, hcall, -⟩ | ⟨failure, -, hrefused | ⟨hnone, -⟩⟩
    · exact readTeamManage_blank _ _ hblank call hcall
    · exact not_refused _ hasked (by simpa using hpresetless) failure hrefused
    · cases hasked.symm.trans hnone
  · intro h checks caller invocationId
    exact understood_of_team rfl (hanswer checks caller invocationId)
      (fun henabled => readTeamTool_manage henabled caller invocationId p) (readTeamManage_outcome checks caller.text h)

theorem answer_run (checks : TeamChecks) (caller : CallerId) (invocationId : Option String) (p : GgProcessRunRequest) :
    (McpCall.ggProcessRun p).answer checks caller invocationId =
      .ok (.ok (.runProcess ⟨some caller.text, invocationId, p.command, p.cwd, p.timeoutMs.map UInt64.toNat⟩)) := by
  rw [answer_process _ _ _ "gg_process_run" rfl (by decide) (by decide), readProcessTool_run]

theorem answer_status (checks : TeamChecks) (caller : CallerId) (invocationId : Option String)
    (p : GgProcessStatusRequest) : (McpCall.ggProcessStatus p).answer checks caller invocationId =
      .ok (.ok (match p.pid.filter fun n => n.toNat < 2 ^ 63 with
        | some n => .getProcess (pidTarget n) caller.text
        | none => .listProcesses caller.text)) := by
  rw [answer_process _ _ _ "gg_process_status" rfl (by decide) (by decide), readProcessTool_status]

theorem answer_kill (checks : TeamChecks) (caller : CallerId) (invocationId : Option String)
    (p : GgProcessKillRequest) :
    (McpCall.ggProcessKill p).answer checks caller invocationId =
      .ok (.ok (.killProcess ⟨"", some caller.text, some "gg_process_kill"⟩)) := by
  rw [answer_process _ _ _ "gg_process_kill" rfl (by decide) (by decide), readProcessTool_kill]

theorem understood_run (p : GgProcessRunRequest) : (McpCall.ggProcessRun p).Understood :=
  fun checks caller invocationId => ⟨_, answer_run checks caller invocationId p, .call _ rfl⟩

theorem asksFor_of_understood {r : McpCall} (h : r.Understood) {call : ToolCall} {checks : TeamChecks}
    {caller : CallerId}
    {invocationId : Option String} (hanswer : r.answer checks caller invocationId = .ok (.ok call)) :
    r.asksFor = some call.asksFor := by
  obtain ⟨result, hresult, houtcome⟩ := h checks caller invocationId
  rw [hanswer] at hresult
  obtain rfl := Except.ok.inj hresult
  rcases houtcome with ⟨call', hcall, hasks⟩ | ⟨failure, hfailure, -⟩
  · obtain rfl := Except.ok.inj hcall
    exact hasks
  · cases hfailure

theorem filter_pid (n : UInt64) : (some n).filter (fun n : UInt64 => n.toNat < 2 ^ 63) =
    if n.toNat < 2 ^ 63 then some n else none := by
  rw [Option.filter_some]
  simp only [decide_eq_true_eq]

theorem understood_status_iff (p : GgProcessStatusRequest) :
    (McpCall.ggProcessStatus p).Understood ↔ (McpCall.ggProcessStatus p).spelled = true := by
  simp only [McpCall.spelled, Bool.and_eq_true, Option.isNone_iff_eq_none]
  constructor
  · intro h
    have hasks := asksFor_of_understood h (answer_status openChecks someCaller none p)
    rw [McpCall.asksFor] at hasks
    cases hpid : p.pid with
    | none =>
      rw [hpid, Option.filter_none] at hasks
      simp only [ToolCall.asksFor, Option.some.injEq, ToolRequest.status.injEq, Option.map_eq_none_iff] at hasks
      exact ⟨⟨hasks.2.1, hasks.2.2⟩, rfl⟩
    | some n =>
      rw [hpid, filter_pid] at hasks
      by_cases hn : n.toNat < 2 ^ 63
      · simp only [if_pos hn, ToolCall.asksFor, Option.some.injEq, ToolRequest.status.injEq,
          Option.map_eq_none_iff] at hasks
        exact ⟨⟨hasks.2.1, hasks.2.2⟩, decide_eq_true hn⟩
      · rw [if_neg hn] at hasks
        simp [ToolCall.asksFor] at hasks
  · rintro ⟨⟨hhead, htail⟩, hpid⟩ checks caller invocationId
    refine ⟨_, answer_status checks caller invocationId p, .call _ ?_⟩
    rw [McpCall.asksFor, hhead, htail]
    cases hp : p.pid with
    | none => rfl
    | some n =>
      rw [hp] at hpid
      have hn : n.toNat < 2 ^ 63 := of_decide_eq_true hpid
      rw [filter_pid, if_pos hn]
      rfl

theorem not_understood_kill (p : GgProcessKillRequest) : ¬ (McpCall.ggProcessKill p).Understood := by
  intro h
  have hasks := asksFor_of_understood h (answer_kill openChecks someCaller none p)
  simp [McpCall.asksFor, ToolCall.asksFor, pidTarget] at hasks

theorem understood_iff (r : McpCall) : r.Understood ↔ r.spelled = true := by
  cases r with
  | ggTeamStatus p => exact iff_of_true (understood_teamStatus p) rfl
  | ggTeamMessage p => exact iff_of_true (understood_teamMessage p) rfl
  | ggTeamManage p => exact understood_teamManage_iff p
  | ggProcessRun p => exact iff_of_true (understood_run p) rfl
  | ggProcessStatus p => exact understood_status_iff p
  | ggProcessKill p => exact iff_of_false (not_understood_kill p) (by simp [McpCall.spelled])

/-! ## The process that is reached -/

section

variable {m : Processes} {caller : CallerId} {pid : ℤ} {order : List String}

def firstWithPid (m : Processes) (order : List String) (pid : ℤ) : Option ManagedProcess :=
  order.findSome? fun id => ((m.processes.lookup id).bind m.objects.lookup).filter fun o => o.record.pid = some pid

theorem processIdFromPid_result {o : ManagedProcess} (h : firstWithPid m order pid = some o) :
    (processIdFromPid order pid).result m = (.ok o.record.id, m) := by
  have hafter : After (processIdFromPid order pid) m fun r m' => r = .ok o.record.id ∧ m' = m := by
    simp only [firstWithPid] at h
    simp only [processIdFromPid, after_bind_iff, after_get, after_orThrow, after_pure, h]
    refine ⟨fun a ha => ?_, fun hn => by cases hn⟩
    obtain rfl := Option.some.inj ha
    exact ⟨rfl, trivial⟩
  exact Prod.ext hafter.out.1 hafter.out.2

theorem firstWithPid_head {id : String} {h : ℕ} {o : ManagedProcess} {rest : List String}
    (hid : m.processes.lookup id = some h) (ho : m.objects.lookup h = some o) (hpid : o.record.pid = some pid) :
    firstWithPid m (id :: rest) pid = some o := by
  have hfound : (((m.processes.lookup id).bind m.objects.lookup).filter fun o => o.record.pid = some pid) = some o := by
    simp [hid, ho, hpid]
  rw [firstWithPid, List.findSome?_cons, hfound]

theorem firstWithPid_some (horder : order.Perm m.processes.keys) {h : ℕ} {o : ManagedProcess} (ho : HasPid m pid h o) :
    ∃ h' o', HasPid m pid h' o' ∧ firstWithPid m order pid = some o' := by
  obtain ⟨⟨id, hid⟩, hobject, hpid⟩ := ho
  have hsome : (firstWithPid m order pid).isSome := by
    rw [firstWithPid, List.findSome?_isSome_iff]
    refine ⟨id, horder.mem_iff.mpr (AList.mem_keys.mp (Table.lookup_isSome hid)), ?_⟩
    simp [hid, hobject, hpid]
  obtain ⟨o', hfirst⟩ := Option.isSome_iff_exists.mp hsome
  obtain ⟨id', -, hfound⟩ := List.exists_of_findSome?_eq_some hfirst
  obtain ⟨hmapped, hpid'⟩ := Option.filter_eq_some_iff.mp hfound
  obtain ⟨h', hid', ho'⟩ := Option.bind_eq_some_iff.mp hmapped
  exact ⟨h', o', ⟨⟨id', hid'⟩, ho', of_decide_eq_true hpid'⟩, hfirst⟩

theorem ownedProcess_after {id : String} {h : ℕ} {o : ManagedProcess} (hid : m.processes.lookup id = some h)
    (ho : m.objects.lookup h = some o) :
    After (ownedProcess id (some caller.text)) m fun r _ => r = if o.record.sessionId = some caller.text then .ok h
      else .error (.invalidState s!"process {o.record.id} belongs to a different session") := by
  simp only [ownedProcess, processFromId, after_bind_iff, after_get, after_orThrow, after_getObject, ensureOwnership]
  refine ⟨fun a ha => ⟨fun o' ho' => ?_, fun hn => ?_⟩, fun hn => ?_⟩
  · obtain rfl : h = a := Option.some.inj (hid.symm.trans ha)
    obtain rfl : o = o' := Option.some.inj (ho.symm.trans ho')
    split
    · exact (after_pure _ _ _).mpr ((after_pure _ _ _).mpr rfl)
    · exact (after_throw _ _ _).mpr rfl
  · obtain rfl : h = a := Option.some.inj (hid.symm.trans ha)
    rw [ho] at hn
    cases hn
  · rw [hid] at hn
    cases hn

theorem Indexed.lookup_id (hm : Indexed m) {h : ℕ} {o : ManagedProcess} (ho : HasPid m pid h o) :
    m.processes.lookup o.record.id = some h := by
  obtain ⟨⟨id, hid⟩, hobject, -⟩ := ho
  obtain ⟨o', ho', hrecord⟩ := hm.found id h hid
  obtain rfl : o = o' := Option.some.inj (hobject.symm.trans ho')
  rw [hrecord]
  exact hid

theorem addressed_pid (hm : Indexed m) {h : ℕ} {o : ManagedProcess} (ho : HasPid m pid h o)
    (hfirst : firstWithPid m order pid = some o) :
    (((ToolCall.getProcess (.pid pid) caller.text).addressed order).result m).1 =
      if o.record.sessionId = some caller.text then .ok (some h)
      else .error (.invalidState s!"process {o.record.id} belongs to a different session") := by
  have hafter : After ((ToolCall.getProcess (.pid pid) caller.text).addressed order) m fun r _ => r =
      if o.record.sessionId = some caller.text then .ok (some h)
      else .error (.invalidState s!"process {o.record.id} belongs to a different session") := by
    rw [ToolCall.addressed, after_bind_iff, after_iff, processIdFromPid_result hfirst]
    change After (some <$> ownedProcess o.record.id (some caller.text)) m _
    rw [map_eq_pure_bind, after_bind_iff]
    refine (ownedProcess_after (hm.lookup_id ho) ho.2.1).mono fun r _ hr => ?_
    by_cases howner : o.record.sessionId = some caller.text
    · rw [if_pos howner] at hr ⊢
      subst hr
      exact (after_pure _ _ _).mpr rfl
    · rw [if_neg howner] at hr ⊢
      subst hr
      rfl
  exact hafter.out

end

/-! ## The tool language -/

theorem reachesOwn_iff {m : Processes} (hm : Indexed m) {r : McpCall} (hr : r.spelled = true) (caller : CallerId) :
    ReachesOwn m r caller ↔ Apart m r caller := by
  cases r with
  | ggTeamStatus p => exact iff_of_true (fun _ _ h => by cases h) (fun _ _ h => by cases h)
  | ggTeamMessage p => exact iff_of_true (fun _ _ h => by cases h) (fun _ _ h => by cases h)
  | ggTeamManage p => exact iff_of_true (fun _ _ h => by cases h) (fun _ _ h => by cases h)
  | ggProcessRun p => exact iff_of_true (fun _ _ h => by cases h) (fun _ _ h => by cases h)
  | ggProcessKill p => simp [McpCall.spelled] at hr
  | ggProcessStatus p =>
    have hanswer : ∀ n : UInt64, p.pid = some n → ∀ checks invocationId,
        (McpCall.ggProcessStatus p).answer checks caller invocationId =
          .ok (.ok (.getProcess (pidTarget n) caller.text)) := by
      intro n hn checks invocationId
      simp only [McpCall.spelled, Bool.and_eq_true, hn, Option.all_some, decide_eq_true_eq] at hr
      rw [answer_status, hn, filter_pid, if_pos hr.2]
    constructor
    · intro h pid h₀ hpid hown h' o ho
      obtain ⟨n, hn, rfl⟩ := Option.map_eq_some_iff.mp hpid
      obtain ⟨id, hid⟩ := ho.1
      -- an order in which this process comes first
      have horder : (id :: m.processes.keys.erase id).Perm m.processes.keys :=
        (List.perm_cons_erase (AList.mem_keys.mp (Table.lookup_isSome hid))).symm
      obtain ⟨call, h'', hcall, haddressed, -⟩ := h _ h₀ hpid hown _ horder openChecks none
      rw [hanswer n hn] at hcall
      obtain rfl := Except.ok.inj (Except.ok.inj hcall)
      rw [pidTarget, addressed_pid hm ho (firstWithPid_head hid ho.2.1 ho.2.2)] at haddressed
      by_contra hother
      rw [if_neg hother] at haddressed
      cases haddressed
    · intro h pid h₀ hpid hown order horder checks invocationId
      obtain ⟨n, hn, rfl⟩ := Option.map_eq_some_iff.mp hpid
      obtain ⟨o₀, ho₀, -⟩ := id hown
      obtain ⟨h', o, ho, hfirst⟩ := firstWithPid_some horder ho₀
      have howner := h _ h₀ hpid hown h' o ho
      refine ⟨_, h', hanswer n hn checks invocationId, ?_, o, ho, howner⟩
      rw [pidTarget, addressed_pid hm ho hfirst, if_pos howner]

/-- The two sides speak the same language about a call, and the call reaches the process it names, exactly when it is
spelled in a way both know and no process of another session has the pid that it names. -/
theorem same_tool_language {store : ToolStore} {config : ProcessManagerConfig} {clock : ℤ} {p : Processes}
    {s : ProcessServer} (hp : Processes.new store config clock = .ok p)
    (hs : Reaches ProcessServer.step (fun _ _ => True) (.start p) s) (r : McpCall) (caller : CallerId) :
    (r.Understood ∧ ReachesOwn s.manager r caller) ↔ (r.spelled = true ∧ Apart s.manager r caller) := by
  have hm : Indexed s.manager := indexed_reaches hp hs
  constructor
  · rintro ⟨hr, hreaches⟩
    have hspelled := (understood_iff r).mp hr
    exact ⟨hspelled, (reachesOwn_iff hm hspelled caller).mp hreaches⟩
  · rintro ⟨hspelled, happart⟩
    exact ⟨(understood_iff r).mpr hspelled, (reachesOwn_iff hm hspelled caller).mpr happart⟩

/-! ## A status and a kill by pid -/

def runOwn : List ProcessLabel :=
  [.start 0 (.run ⟨some "session_1", none, "sleep 60", none, none⟩), .goOn 0 (.spawned (.ok (some 7))),
    .goOn 0 .lock, .goOn 0 .lock]

def ownView (s : ProcessServer) : List (String × ℕ) × Option (Option String × Option ℤ) :=
  (s.manager.processes.entries.map fun e => (e.1, e.2),
    (s.manager.objects.lookup 0).map fun o => (o.record.sessionId, o.record.pid))

theorem exists_own : ∃ s, Reaches ProcessServer.step (fun _ _ => True) (.start noProcesses) s ∧
    ownView s = ([("proc_1", 0)], some (some "session_1", some 7)) := by
  obtain ⟨s, hs, he⟩ := exists_reaches_of_runAll ProcessServer.step (fun _ _ => true) runOwn ownView
    ([("proc_1", 0)], some (some "session_1", some 7)) (s := .start noProcesses) (by decide +kernel)
  exact ⟨s, hs.mono fun _ _ _ => trivial, he⟩

section

variable {s : ProcessServer} (h : ownView s = ([("proc_1", 0)], some (some "session_1", some 7)))

include h

theorem own_lookup {id : String} {h' : ℕ} (hid : s.manager.processes.lookup id = some h') : id = "proc_1" ∧ h' = 0 := by
  have hentry : (⟨id, h'⟩ : (_ : String) × ℕ) ∈ s.manager.processes.entries := AList.mem_lookup_iff.mp hid
  have hmem : (id, h') ∈ s.manager.processes.entries.map fun e => (e.1, e.2) :=
    List.mem_map.mpr ⟨_, hentry, rfl⟩
  rw [(Prod.mk.inj h).1, List.mem_singleton] at hmem
  exact Prod.mk.inj hmem

theorem own_process : ∃ o, HasPid s.manager 7 0 o ∧ o.record.sessionId = some someCaller.text := by
  obtain ⟨o, ho, hview⟩ := Option.map_eq_some_iff.mp (Prod.mk.inj h).2
  obtain ⟨howner, hpid⟩ := Prod.mk.inj hview
  have hmem : ("proc_1", 0) ∈ s.manager.processes.entries.map fun e => (e.1, e.2) := by
    rw [(Prod.mk.inj h).1]
    exact List.mem_singleton_self _
  obtain ⟨⟨id, n⟩, hentry, he⟩ := List.mem_map.mp hmem
  obtain ⟨rfl, rfl⟩ := Prod.mk.inj he
  exact ⟨o, ⟨⟨_, AList.mem_lookup_iff.mpr hentry⟩, ho, hpid⟩, howner⟩

end

/-- A status that names the pid of the caller's only process reaches it. -/
theorem same_tool_language_status : ∃ s : ProcessServer, OwnsPid s.manager someCaller 7 0 ∧
    (McpCall.ggProcessStatus ⟨some 7, none, none⟩).Understood ∧
      ReachesOwn s.manager (.ggProcessStatus ⟨some 7, none, none⟩) someCaller := by
  obtain ⟨s, hs, hview⟩ := exists_own
  obtain ⟨o, ho, howner⟩ := own_process hview
  have happart : Apart s.manager (.ggProcessStatus ⟨some 7, none, none⟩) someCaller := by
    intro pid h hpid hown h' o' ho'
    obtain ⟨id, hid⟩ := ho'.1
    obtain ⟨-, rfl⟩ := own_lookup hview hid
    obtain rfl : o = o' := Option.some.inj (ho.2.1.symm.trans ho'.2.1)
    exact howner
  exact ⟨s, ⟨o, ho, howner⟩, (same_tool_language noProcesses_new hs _ someCaller).mpr ⟨by decide, happart⟩⟩

/-- A kill that names the pid of the caller's only process fails: it asks for the process with the id "". -/
theorem not_same_tool_language : ¬ ∀ (store : ToolStore) (config : ProcessManagerConfig) (clock : ℤ) (p : Processes)
    (s : ProcessServer), Processes.new store config clock = .ok p →
      Reaches ProcessServer.step (fun _ _ => True) (.start p) s →
        ∀ (r : McpCall) (caller : CallerId), r.Understood ∧ ReachesOwn s.manager r caller := by
  intro hall
  obtain ⟨s, hs, hview⟩ := exists_own
  obtain ⟨o, ho, howner⟩ := own_process hview
  have hreaches := (hall _ _ _ _ s noProcesses_new hs (.ggProcessKill ⟨7⟩) someCaller).2
  obtain ⟨call, h', hcall, haddressed, -⟩ := hreaches 7 0 rfl ⟨o, ho, howner⟩ _ (List.Perm.refl _) openChecks none
  rw [answer_kill] at hcall
  obtain rfl := Except.ok.inj (Except.ok.inj hcall)
  have hnone : s.manager.processes.lookup "" = none := by
    cases hid : s.manager.processes.lookup "" with
    | none => rfl
    | some h => exact absurd (own_lookup hview hid).1 (by decide)
  have hfails : After (ToolCall.addressed s.manager.processes.keys
    (.killProcess ⟨"", some someCaller.text, some "gg_process_kill"⟩))
      s.manager fun r _ => r = .error (.notFound "process ") := by
    rw [ToolCall.addressed, map_eq_pure_bind]
    simp only [ownedProcess, processFromId, after_bind_iff, after_get, after_orThrow, hnone]
    refine ⟨fun _ hn => ?_, fun _ => rfl⟩
    cases hn
  rw [hfails.out] at haddressed
  cases haddressed

end Gooselake.Tools
