import Gooselake.Tools.Gateway

/-!
The parameters of the tools that the MCP server offers and the arguments it sends for them, and the
language both sides speak: `ToolRequest` says what a call asks for.
-/

namespace Gooselake.Tools

open Gooselake.Core Data Library

set_option autoImplicit false

/-! ## Parameters -/

structure GgTeamStatusRequest where
  teamId : String
  deriving DecidableEq, Repr

inductive CreatorCompactionSubscription where
  | auto
  | unsubscribed
  deriving DecidableEq, Repr

def CreatorCompactionSubscription.asStr : CreatorCompactionSubscription → String
  | .auto => "auto"
  | .unsubscribed => "unsubscribed"

structure GgTeamMessageRequest where
  teamId : String
  recipientAgentId : String
  message : String
  imagePaths : Option (List String)
  deriving DecidableEq, Repr

structure GgTeamManageRequest where
  teamId : String
  title : Option String
  prompt : Option String
  imagePaths : Option (List String)
  modelPreset : Option String
  creatorCompactionSubscription : Option CreatorCompactionSubscription
  worktreeName : Option String
  useExistingWorktree : Option Bool
  removeAgentIds : Option (List String)
  deriving DecidableEq, Repr

structure GgProcessRunRequest where
  command : String
  timeoutMs : Option UInt64
  cwd : Option String
  deriving DecidableEq, Repr

structure GgProcessStatusRequest where
  pid : Option UInt64
  headLines : Option UInt64
  tailLines : Option UInt64
  deriving DecidableEq, Repr

structure GgProcessKillRequest where
  pid : UInt64
  deriving DecidableEq, Repr

/-- A call of a `gg_process` or `gg_team` tool of the server, with the parameters as they were parsed. -/
inductive McpCall where
  | ggTeamStatus (params : GgTeamStatusRequest)
  | ggTeamMessage (params : GgTeamMessageRequest)
  | ggTeamManage (params : GgTeamManageRequest)
  | ggProcessRun (params : GgProcessRunRequest)
  | ggProcessStatus (params : GgProcessStatusRequest)
  | ggProcessKill (params : GgProcessKillRequest)
  deriving DecidableEq, Repr

/-! ## The arguments sent -/

def optField (key : String) (value : Option Json) : Fields := value.toList.map fun v => (key, v)

def jsonOfU64 (n : UInt64) : Json := .int n.toNat

def jsonOfStrings (texts : List String) : Json := .arr (texts.map .str)

def GgTeamStatusRequest.toFields (p : GgTeamStatusRequest) : Fields := [("team_id", .str p.teamId)]

def GgTeamMessageRequest.toFields (p : GgTeamMessageRequest) : Fields :=
  [("team_id", .str p.teamId), ("recipient_agent_id", .str p.recipientAgentId), ("message", .str p.message)] ++
    optField "image_paths" (p.imagePaths.map jsonOfStrings)

def GgTeamManageRequest.toFields (p : GgTeamManageRequest) : Fields :=
  [("team_id", .str p.teamId)] ++ optField "title" (p.title.map .str) ++ optField "prompt" (p.prompt.map .str) ++
    optField "image_paths" (p.imagePaths.map jsonOfStrings) ++ optField "model_preset" (p.modelPreset.map .str) ++
    optField "creator_compaction_subscription" (p.creatorCompactionSubscription.map fun s => .str s.asStr) ++
    optField "worktree_name" (p.worktreeName.map .str) ++
    optField "use_existing_worktree" (p.useExistingWorktree.map .bool) ++
    optField "remove_agent_ids" (p.removeAgentIds.map jsonOfStrings)

def GgProcessRunRequest.toFields (p : GgProcessRunRequest) : Fields :=
  [("command", .str p.command)] ++ optField "timeout_ms" (p.timeoutMs.map jsonOfU64) ++
    optField "cwd" (p.cwd.map .str)

def GgProcessStatusRequest.toFields (p : GgProcessStatusRequest) : Fields :=
  optField "pid" (p.pid.map jsonOfU64) ++ optField "head_lines" (p.headLines.map jsonOfU64) ++
    optField "tail_lines" (p.tailLines.map jsonOfU64)

def GgProcessKillRequest.toFields (p : GgProcessKillRequest) : Fields := [("pid", jsonOfU64 p.pid)]

namespace McpCall

/-- `namespace` and `tool_name` of a call. -/
def names : McpCall → String × String
  | .ggTeamStatus _ => ("gg_team", "gg_team_status")
  | .ggTeamMessage _ => ("gg_team", "gg_team_message")
  | .ggTeamManage _ => ("gg_team", "gg_team_manage")
  | .ggProcessRun _ => ("gg_process", "gg_process_run")
  | .ggProcessStatus _ => ("gg_process", "gg_process_status")
  | .ggProcessKill _ => ("gg_process", "gg_process_kill")

def toFields : McpCall → Fields
  | .ggTeamStatus p => p.toFields
  | .ggTeamMessage p => p.toFields
  | .ggTeamManage p => p.toFields
  | .ggProcessRun p => p.toFields
  | .ggProcessStatus p => p.toFields
  | .ggProcessKill p => p.toFields

/-- The request that `invoke_backend_tool` sends for a call. -/
def toRequest (r : McpCall) (callerAgentId : String) (invocationId : Option String) : ToolInvokeRequest where
  callerSessionId := callerAgentId
  invocationId := invocationId
  «namespace» := some r.names.1
  toolName := r.names.2
  args := .obj r.toFields

end McpCall

/-! ## What a call asks for -/

inductive ToolRequest where
  | run (command : String) (cwd : Option String) (timeoutMs : Option ℕ)
  | status (target : Option ProcessTarget) (headLines tailLines : Option ℕ)
  | logs (target : ProcessTarget) (stream : Option String) (headLines tailLines : Option ℕ)
  | kill (target : ProcessTarget)
  | teamStatus (teamId : String)
  | teamMessage (teamId recipientAgentId message : String) (imagePaths : List String)
  | teamAdd (teamId : String) (options : TeamAddOptions)
  | teamRemove (teamId : String) (removeAgentIds : List String)
  deriving DecidableEq, Repr

/-- The request names a model preset that no catalog can have. -/
def ToolRequest.presetless : ToolRequest → Bool
  | .teamAdd _ options => options.modelPreset.any fun name => normalizeModelPresetName name = ""
  | _ => false

def ToolCall.asksFor : ToolCall → ToolRequest
  | .runProcess r => .run r.command r.cwd r.timeoutMs
  | .getProcess target _ => .status (some target) none none
  | .listProcesses _ => .status none none none
  | .readProcessLogs r => .logs (.id r.processId) r.stream r.headLines r.tailLines
  | .killProcess r => .kill (.id r.processId)
  | .teamStatus teamId => .teamStatus teamId
  | .teamMessage teamId recipientAgentId message imagePaths => .teamMessage teamId recipientAgentId message imagePaths
  | .teamAdd teamId options => .teamAdd teamId options
  | .teamRemove teamId removeAgentIds => .teamRemove teamId removeAgentIds

def pidTarget (pid : UInt64) : ProcessTarget := .pid pid.toNat

/-- An optional text as it is meant: none, or a text that is not blank. -/
def optText : Option String → Option (Option String)
  | none => some none
  | some text => (trimmedNonEmpty text).map some

def textsOf : List String → Option (List String)
  | [] => some []
  | text :: texts => do
    let text ← trimmedNonEmpty text
    let texts ← textsOf texts
    return text :: texts

def optTexts (texts : Option (List String)) : Option (List String) := textsOf (texts.getD [])

def GgTeamMessageRequest.asksFor (p : GgTeamMessageRequest) : Option ToolRequest := do
  let teamId ← trimmedNonEmpty p.teamId
  let recipientAgentId ← trimmedNonEmpty p.recipientAgentId
  let message ← trimmedNonEmpty p.message
  let imagePaths ← optTexts p.imagePaths
  return .teamMessage teamId recipientAgentId message imagePaths

/-- The worktree that is asked for: a blank `worktree_name` skips it, as its description says. -/
def GgTeamManageRequest.worktree (p : GgTeamManageRequest) : Option String := p.worktreeName.bind trimmedNonEmpty

def GgTeamManageRequest.blanksWorktree (p : GgTeamManageRequest) : Bool := p.worktreeName.isSome && p.worktree.isNone

def GgTeamManageRequest.addsNothing (p : GgTeamManageRequest) : Bool :=
  p.title.isNone && p.prompt.isNone && p.imagePaths.isNone && p.modelPreset.isNone && p.worktree.isNone &&
    p.useExistingWorktree.isNone && p.creatorCompactionSubscription.isNone

def GgTeamManageRequest.addOptions (p : GgTeamManageRequest) : Option TeamAddOptions := do
  let title ← optText p.title
  let prompt ← optText p.prompt
  let imagePaths ← optTexts p.imagePaths
  let modelPreset ← optText p.modelPreset
  if p.useExistingWorktree = some true ∧ p.worktree = none then none
  else return ⟨title, prompt, imagePaths, modelPreset, p.creatorCompactionSubscription.map (·.asStr), p.worktree,
    p.useExistingWorktree.getD false⟩

def GgTeamManageRequest.asksFor (p : GgTeamManageRequest) : Option ToolRequest := do
  let teamId ← trimmedNonEmpty p.teamId
  match p.removeAgentIds with
  | some ids => do
    let ids ← textsOf ids
    if p.addsNothing ∧ ids ≠ [] then return .teamRemove teamId ids else none
  | none => do
    let options ← p.addOptions
    return .teamAdd teamId options

/-- What a call asks for, if nothing it needs is blank and its arguments do not contradict each other. -/
def McpCall.asksFor : McpCall → Option ToolRequest
  | .ggTeamStatus p => (trimmedNonEmpty p.teamId).map .teamStatus
  | .ggTeamMessage p => p.asksFor
  | .ggTeamManage p => p.asksFor
  | .ggProcessRun p => some (.run p.command p.cwd (p.timeoutMs.map UInt64.toNat))
  | .ggProcessStatus p =>
    some (.status (p.pid.map pidTarget) (p.headLines.map UInt64.toNat) (p.tailLines.map UInt64.toNat))
  | .ggProcessKill p => some (.kill (pidTarget p.pid))

end Gooselake.Tools
