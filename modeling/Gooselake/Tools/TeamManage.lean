import Gooselake.TeamComms.Standing
import Gooselake.Tools.Gateway

/-!
`gg_team_manage` over the team service: any number of calls of the tool, cut at their awaits, beside the calls
that others make of the service. Creating a worktree and a session for a new member, its claim and its onboarding
are answers that a call gets; what they do to the service are steps of the service.
-/

namespace Gooselake.Tools

open Gooselake.Core Data Library Library.Exec
open Gooselake.TeamComms (Comms CommsM Service TeamWithMembers TeamJoinRequest ensureEnabled teamWithMembers
  joinTeamBegin joinTeamWrite removeTeamMember requireSessionActive canLeave canLead)

set_option autoImplicit false

/-! ## Authorisation -/

structure TeamMcpPolicy where
  enabled : Bool
  nonLeadCanAddMembers : Bool
  nonLeadCanRemoveMembers : Bool
  deriving DecidableEq, Repr

inductive ManageAction where
  | add
  | remove
  deriving DecidableEq, Repr

def ManageAction.text : ManageAction → String
  | .add => "add members to"
  | .remove => "remove members from"

def TeamMcpPolicy.allowsNonLead (policy : TeamMcpPolicy) : ManageAction → Bool
  | .add => policy.nonLeadCanAddMembers
  | .remove => policy.nonLeadCanRemoveMembers

/-- `team_tool_error_code_for_runtime`. -/
def teamToolErrorCode : RuntimeError → String
  | .invalidState _ => "unauthorized"
  | .notFound _ => "not_found"
  | .unsupported _ => "feature_disabled"
  | _ => "tool_failed"

/-- `TeamToolFailure::from_runtime`. -/
def fromRuntime (error : RuntimeError) : TeamToolFailure := ⟨teamToolErrorCode error, error.display⟩

def getTeam (teamId : String) : CommsM TeamWithMembers := do
  ensureEnabled
  let teamId ← ofExcept (TeamComms.normalizeNonEmpty teamId "team_id")
  teamWithMembers teamId

def ensureTeamMember (team : TeamWithMembers) (callerSessionId : String) : Except TeamToolFailure Unit :=
  if team.members.any fun member => member.agentId = callerSessionId then .ok ()
  else .error ⟨"unauthorized", s!"agent {callerSessionId} is not a member of team {team.team.id}"⟩

def ensureCallerCanManageMembership (c : Comms) (teamId callerSessionId : String) (allowNonLead : Bool)
    (action : String) : Except TeamToolFailure Unit :=
  match ((getTeam teamId).result c).1 with
  | .error error => .error (fromRuntime error)
  | .ok team => do
    ensureTeamMember team callerSessionId
    if team.team.leadAgentId = callerSessionId ∨ allowNonLead then .ok ()
    else .error ⟨"unauthorized", s!"agent {callerSessionId} is not allowed to {action} team {teamId}"⟩

/-! ## Calls -/

inductive ManagePoint where
  | removing (agentId : String) (rest : List String)
  /-- The worktree and the session of the new member are created. -/
  | spawning (options : TeamAddOptions)
  | joining (request : TeamJoinRequest)
  | joinWrite (request : TeamJoinRequest)
  /-- The new member's claim and onboarding are outstanding. -/
  | joined (agentId : String)

structure ManageCall where
  callerSessionId : String
  teamId : String
  action : ManageAction
  point : ManagePoint

inductive ManageAnswer where
  | lock
  /-- The session that was created and its worktree, if none of the steps failed. -/
  | spawned (r : Option (String × Option String))
  /-- Whether claim and onboarding went well. -/
  | onboarded (ok : Bool)

def ManageCall.goOn (call : ManageCall) : ManageAnswer → Option (CommsM (Option ManagePoint))
  | .lock =>
    match call.point with
    | .removing agentId rest => some do
      let _ ← attempt (removeTeamMember call.teamId agentId)
      return match rest with
        | [] => none
        | agentId :: rest => some (.removing agentId rest)
    | .joining request => some do
      let _ ← requireSessionActive request.agentId
      return some (.joinWrite request)
    | .joinWrite request => some do
      let _ ← joinTeamWrite request
      return some (.joined request.agentId)
    | _ => none
  | .spawned r =>
    match call.point, r with
    | .spawning _, none => some (return none)
    | .spawning options, some (sessionId, worktreeId) => some do
      let request ← joinTeamBegin
        { teamId := call.teamId, agentId := sessionId, title := options.title, addedBy := some call.callerSessionId,
          creatorAgentId := some call.callerSessionId,
          creatorCompactionSubscription := options.creatorCompactionSubscription, worktreeId := worktreeId }
      return some (.joining request)
    | _, _ => none
  | .onboarded ok =>
    match call.point with
    | .joined agentId =>
      -- `rollback_spawn_after_join` takes the member out again
      if ok then some (return none)
      else some do
        let _ ← attempt (removeTeamMember call.teamId agentId)
        return none
    | _ => none

/-- The agent that a piece takes out of the team of its call, and whether the call goes on after it. -/
def ManageCall.takesOut (call : ManageCall) : ManageAnswer → Option (String × Bool)
  | .lock =>
    match call.point with
    | .removing agentId rest => some (agentId, decide (rest ≠ []))
    | _ => none
  | .onboarded ok =>
    match call.point with
    | .joined agentId => if ok then none else some (agentId, false)
    | _ => none
  | _ => none

/-! ## Steps -/

structure ManageServer where
  policy : TeamMcpPolicy
  presets : List TeamModelPreset
  service : Service
  calls : Table ℕ ManageCall

inductive ManageLabel where
  | service (l : TeamComms.Label)
  /-- A tool call arrives; `session` is what `get_session` tells it of the caller's provider. -/
  | start (i : ℕ) (request : ToolInvokeRequest) (session : Except TeamToolFailure (Option String))
  | goOn (i : ℕ) (answer : ManageAnswer)

namespace ManageServer

def checks (s : ManageServer) (session : Except TeamToolFailure (Option String)) : TeamChecks where
  enabled := s.policy.enabled
  mayAdd caller teamId :=
    ensureCallerCanManageMembership s.service.comms teamId caller s.policy.nonLeadCanAddMembers ManageAction.add.text
  presets := s.presets
  sessionProvider _ := session

def «begin» (s : ManageServer) (request : ToolInvokeRequest) (session : Except TeamToolFailure (Option String)) :
    Option ManageCall :=
  match invokeTool (s.checks session) request with
  | .ok (.ok (.teamAdd teamId options)) => some ⟨request.callerSessionId, teamId, .add, .spawning options⟩
  | .ok (.ok (.teamRemove teamId (agentId :: rest))) =>
    match ensureCallerCanManageMembership s.service.comms teamId request.callerSessionId
      s.policy.nonLeadCanRemoveMembers ManageAction.remove.text with
    | .ok _ => some ⟨request.callerSessionId, teamId, .remove, .removing agentId rest⟩
    | .error _ => none
  | _ => none

def left : Except RuntimeError (Option ManagePoint) → Option ManagePoint
  | .ok point => point
  | .error _ => none

def put (calls : Table ℕ ManageCall) (i : ℕ) : Option ManageCall → Table ℕ ManageCall
  | some call => calls.insert i call
  | none => calls.erase i

/-- Run a piece of call `i`. -/
def settle (s : ManageServer) (i : ℕ) (call : ManageCall) (piece : CommsM (Option ManagePoint)) : ManageServer :=
  { s with
    service := { s.service with comms := (piece.result s.service.comms).2 }
    calls := put s.calls i ((left (piece.result s.service.comms).1).map fun point => { call with point := point }) }

def step : ManageLabel → ManageServer → Option ManageServer
  | .service l, s => do
    let service ← Service.step l s.service
    some { s with service := service }
  | .start i request session, s =>
    if i ∈ s.calls then none else some { s with calls := put s.calls i (s.begin request session) }
  | .goOn i answer, s => do
    let call ← s.calls.lookup i
    let piece ← call.goOn answer
    some (s.settle i call piece)

def start (policy : TeamMcpPolicy) (presets : List TeamModelPreset) (c : Comms) : ManageServer :=
  ⟨policy, presets, .start c, ∅⟩

/-! ## Steps that end an authorisation -/

/-- A call that is in flight would lose its caller as a member when the agent is taken out of the team. -/
def expels (s : ManageServer) (teamId agentId : String) (call : ManageCall) : Bool :=
  decide (call.teamId = trim teamId) && decide (call.callerSessionId = trim agentId) &&
    canLeave s.service.comms.state (trim teamId) (trim agentId)

def deposes (s : ManageServer) (teamId leadAgentId : String) (call : ManageCall) : Bool :=
  decide (call.teamId = trim teamId) && decide (call.callerSessionId ≠ trim leadAgentId) &&
    !s.policy.allowsNonLead call.action && canLead s.service.comms.state (trim teamId) (trim leadAgentId)

/-- A step takes no authorised caller out of its team, and no lead from it that it needs, while a call of the
caller is in flight; a call takes out its own caller only at its end. -/
def meets : ManageLabel → ManageServer → Bool
  | .service (.start _ (.removeTeamMember teamId agentId)), s =>
    s.calls.values.all fun call => !s.expels teamId agentId call
  | .service (.start _ (.setTeamLead teamId leadAgentId)), s =>
    s.calls.values.all fun call => !s.deposes teamId leadAgentId call
  | .service _, _ | .start _ _ _, _ => true
  | .goOn i answer, s =>
    match s.calls.lookup i with
    | none => true
    | some call =>
      match call.takesOut answer with
      | none => true
      | some (agentId, more) =>
        ((Table.values (s.calls.erase i)).all fun other => !s.expels call.teamId agentId other) &&
          !(more && s.expels call.teamId agentId call)

end ManageServer

end Gooselake.Tools
