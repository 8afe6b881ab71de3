import Gooselake.Core.Provider
import Gooselake.Tools.Process

/-!
`RuntimeToolGateway::invoke_tool`: how a tool call is routed and how its arguments are read. A
`ToolCall` is what the handler of the tool has read when it turns to the services.
-/

namespace Gooselake.Tools

open Gooselake.Core Data Library

set_option autoImplicit false

/-! ## Calls and failures -/

/-- `ToolInvokeRequest`. -/
structure ToolInvokeRequest where
  callerSessionId : String
  invocationId : Option String
  «namespace» : Option String
  toolName : String
  args : Json
  deriving DecidableEq, Repr

/-- The `error` object of an answer that is not ok. -/
structure TeamToolFailure where
  code : String
  message : String
  deriving DecidableEq, Repr

def badRequest (message : String) : TeamToolFailure := ⟨"bad_request", message⟩

/-- What `gg_process_status` looks up a process by. -/
inductive ProcessTarget where
  | id (processId : String)
  | pid (pid : ℤ)
  deriving DecidableEq, Repr

structure ProcessLogReadRequest where
  processId : String
  callerSessionId : Option String
  stream : Option String
  headLines : Option ℕ
  tailLines : Option ℕ
  deriving DecidableEq, Repr

/-- The options of `gg_team_manage` in add mode, as they were read. -/
structure TeamAddOptions where
  title : Option String
  prompt : Option String
  imagePaths : List String
  modelPreset : Option String
  creatorCompactionSubscription : Option String
  worktreeName : Option String
  useExistingWorktree : Bool
  deriving DecidableEq, Repr

inductive ToolCall where
  | runProcess (request : ProcessRunRequest)
  | getProcess (target : ProcessTarget) (callerSessionId : String)
  | listProcesses (callerSessionId : String)
  | readProcessLogs (request : ProcessLogReadRequest)
  | killProcess (request : ProcessKillRequest)
  | teamStatus (teamId : String)
  | teamMessage (teamId recipientAgentId message : String) (imagePaths : List String)
  | teamAdd (teamId : String) (options : TeamAddOptions)
  | teamRemove (teamId : String) (removeAgentIds : List String)
  deriving DecidableEq, Repr

/-! ## Numbers and flags of a JSON value -/

/-- `Value::as_u64`. -/
def asU64 : Json → Option ℕ
  | .int n => if 0 ≤ n ∧ n < 2 ^ 64 then some n.toNat else none
  | _ => none

/-- `Value::as_i64`. -/
def valueAsI64 : Json → Option ℤ
  | .int n => if -2 ^ 63 ≤ n ∧ n < 2 ^ 63 then some n else none
  | _ => none

/-- `Value::as_bool`. -/
def asBool : Json → Option Bool
  | .bool b => some b
  | _ => none

abbrev Fields : Type := List (String × Json)

/-- `args.get(field).and_then(read)`. -/
def argOf {α : Type} (read : Json → Option α) (field : String) (args : Fields) : Option α :=
  (Json.fieldOf field args).bind read

/-! ## gg_process -/

def unsupportedProcessTool (toolName : String) : TeamToolFailure :=
  ⟨"tool_failed", (RuntimeError.unsupported s!"Unsupported gg_process tool: {toolName}").display⟩

/-- `invoke_process_tool`. -/
def readProcessTool (request : ToolInvokeRequest) : Except TeamToolFailure ToolCall :=
  match request.args with
  | .obj args =>
    match trim request.toolName with
    | "gg_process_run" => .ok (.runProcess {
        callerSessionId := some request.callerSessionId
        toolCallId := request.invocationId
        command := (argOf Json.asStr "command" args).getD ""
        cwd := argOf Json.asStr "cwd" args
        timeoutMs := argOf asU64 "timeout_ms" args })
    | "gg_process_status" =>
      match argOf Json.asStr "process_id" args with
      | some processId => .ok (.getProcess (.id processId) request.callerSessionId)
      | none =>
        match argOf valueAsI64 "pid" args with
        | some pid => .ok (.getProcess (.pid pid) request.callerSessionId)
        | none => .ok (.listProcesses request.callerSessionId)
    | "gg_process_logs" => .ok (.readProcessLogs {
        processId := (argOf Json.asStr "process_id" args).getD ""
        callerSessionId := some request.callerSessionId
        stream := argOf Json.asStr "stream" args
        headLines := argOf asU64 "head_lines" args
        tailLines := argOf asU64 "tail_lines" args })
    | "gg_process_kill" => .ok (.killProcess {
        processId := (argOf Json.asStr "process_id" args).getD ""
        callerSessionId := some request.callerSessionId
        reason := some "gg_process_kill" })
    | toolName => .error (unsupportedProcessTool toolName)
  | _ => .error (badRequest "tool args must be an object")

/-! ## Argument readers of gg_team -/

def rejectTeamToolFieldsWithMessage (args : Fields) (messageForField : String → String) :
    List String → Except TeamToolFailure Unit
  | [] => .ok ()
  | field :: fields =>
    if (Json.fieldOf field args).isSome then .error (badRequest (messageForField field))
    else rejectTeamToolFieldsWithMessage args messageForField fields

def rejectTeamToolFields (args : Fields) (rejectedFields : List String) : Except TeamToolFailure Unit :=
  rejectTeamToolFieldsWithMessage args
    (fun field => s!"{field} is supplied by gateway metadata and cannot be provided in args") rejectedFields

def textOf (value : Json) : Option String := value.asStr.bind trimmedNonEmpty

def orBadRequest {α : Type} (message : String) : Option α → Except TeamToolFailure α
  | some a => .ok a
  | none => .error (badRequest message)

def requiredStringArg (args : Fields) (field : String) : Except TeamToolFailure String :=
  orBadRequest s!"{field} is required" ((Json.fieldOf field args).bind textOf)

def optionalStringArg (args : Fields) (field : String) : Except TeamToolFailure (Option String) :=
  match Json.fieldOf field args with
  | none | some .null => .ok none
  | some value => orBadRequest s!"{field} must be a non-empty string when provided" ((textOf value).map some)

def stringEntries (field : String) : List Json → Except TeamToolFailure (List String)
  | [] => .ok []
  | entry :: entries => do
    let text ← orBadRequest s!"{field} must contain only non-empty strings" (textOf entry)
    let texts ← stringEntries field entries
    return text :: texts

def optionalStringArrayArg (args : Fields) (field : String) : Except TeamToolFailure (List String) :=
  match Json.fieldOf field args with
  | none | some .null => .ok []
  | some (.arr values) => stringEntries field values
  | some _ => .error (badRequest s!"{field} must be an array of non-empty strings")

def optionalBoolArg (args : Fields) (field : String) : Except TeamToolFailure (Option Bool) :=
  match Json.fieldOf field args with
  | none | some .null => .ok none
  | some value => orBadRequest s!"{field} must be a boolean when provided" ((asBool value).map some)

def optionalCreatorCompactionSubscriptionArg (args : Fields) (field : String) :
    Except TeamToolFailure (Option String) := do
  match ← optionalStringArg args field with
  | none => return none
  | some value =>
    if value = "auto" ∨ value = "unsubscribed" then return some value
    else .error (badRequest s!"{field} must be either auto or unsubscribed")

/-! ## Model presets -/

structure TeamModelPreset where
  name : String
  provider : Option String
  model : String
  thinkingEffort : Option String
  deriving DecidableEq, Repr

structure ResolvedModelPreset where
  name : String
  provider : ProviderKind
  model : String
  thinkingEffort : Option String
  deriving DecidableEq, Repr

def presetCharacters : Bool → List Char → List Char
  | _, [] => []
  | afterSeparator, c :: cs =>
    if c.isAlphanum then c :: presetCharacters false cs
    else if afterSeparator then presetCharacters true cs
    else '_' :: presetCharacters true cs

def normalizeModelPresetName (value : String) : String :=
  trimBy (fun c => c = '_') (String.ofList (presetCharacters false (toAsciiLowercase (trim value)).toList))

def inferProviderForModel (model : String) : Option ProviderKind :=
  let model := toAsciiLowercase (trim model)
  if startsWith "claude-" model then some .claude
  else if startsWith "gpt-" model ∨ startsWith "o" model then some .codex
  else none

/-- `ModelPresetCatalog::from_presets`: the presets by name, in the order of their first mention. -/
def catalogOf (presets : List TeamModelPreset) : List ResolvedModelPreset :=
  presets.foldl (fun catalog preset =>
    let name := normalizeModelPresetName preset.name
    let model := trim preset.model
    if name = "" ∨ model = "" ∨ catalog.any (fun p => p.name = name) then catalog
    else catalog ++ [{
      name := name
      provider := ((preset.provider.bind ProviderKind.fromStr).or (inferProviderForModel model)).getD .codex
      model := model
      thinkingEffort := preset.thinkingEffort.bind trimmedNonEmpty }]) []

/-- `ModelPresetCatalog::resolve`. -/
def resolvePreset (catalog : List ResolvedModelPreset) (name : String) : Option ResolvedModelPreset :=
  catalog.find? fun p => p.name = normalizeModelPresetName name

/-! ## gg_team -/

/-- What a team handler learns from the policy and the services before it has read every argument. -/
structure TeamChecks where
  enabled : Bool
  /-- `ensure_caller_can_manage_membership` for an add. -/
  mayAdd : (callerSessionId teamId : String) → Except TeamToolFailure Unit
  presets : List TeamModelPreset
  /-- The provider of the caller's session, which a member without a preset gets. -/
  sessionProvider : (callerSessionId : String) → Except TeamToolFailure (Option String)

def imagesUnsupported (toolName : String) : TeamToolFailure :=
  ⟨"unsupported_provider_images", s!"{toolName} image_paths are not supported for ACP provider sessions because ACP image attachment delivery is not modeled by this runtime yet"⟩

def rejectImagePathsForProvider (provider toolName : String) : Except TeamToolFailure Unit :=
  if ProviderKind.fromStr provider = some .acp then .error (imagesUnsupported toolName) else .ok ()

def ensureManageAddImagesSupported (checks : TeamChecks) (callerSessionId : String)
    (preset : Option ResolvedModelPreset) (imagePaths : List String) : Except TeamToolFailure Unit :=
  if imagePaths = [] then .ok ()
  else match preset with
    | some preset => rejectImagePathsForProvider preset.provider.asStr "gg_team_manage"
    | none => do
      match ← checks.sessionProvider callerSessionId with
      | some provider => rejectImagePathsForProvider provider "gg_team_manage"
      | none => .ok ()

def unknownModelPreset (catalog : List ResolvedModelPreset) (name : String) : TeamToolFailure :=
  let allNames := String.intercalate ", " (catalog.map (·.name))
  ⟨"unknown_model_preset",
    s!"Unknown model_preset `{name}` for gg_team_manage. Available presets: {allNames}"⟩

def resolvedModelPreset (catalog : List ResolvedModelPreset) :
    Option String → Except TeamToolFailure (Option ResolvedModelPreset)
  | none => .ok none
  | some name =>
    match resolvePreset catalog name with
    | some preset => .ok (some preset)
    | none => .error (unknownModelPreset catalog name)

/-- `invoke_team_manage_add`, up to the spawn. -/
def readTeamManageAdd (checks : TeamChecks) (callerSessionId teamId : String) (args : Fields) :
    Except TeamToolFailure ToolCall := do
  checks.mayAdd callerSessionId teamId
  let title ← optionalStringArg args "title"
  let prompt ← optionalStringArg args "prompt"
  let imagePaths ← optionalStringArrayArg args "image_paths"
  let modelPreset ← optionalStringArg args "model_preset"
  let preset ← resolvedModelPreset (catalogOf checks.presets) modelPreset
  let subscription ← optionalCreatorCompactionSubscriptionArg args "creator_compaction_subscription"
  ensureManageAddImagesSupported checks callerSessionId preset imagePaths
  let worktreeName ← optionalStringArg args "worktree_name"
  let useExistingWorktree ← optionalBoolArg args "use_existing_worktree"
  if useExistingWorktree.getD false ∧ worktreeName = none then
    .error (badRequest "worktree_name is required when use_existing_worktree is true")
  else
    return .teamAdd teamId ⟨title, prompt, imagePaths, modelPreset, subscription, worktreeName,
      useExistingWorktree.getD false⟩

/-- `invoke_team_manage`, up to the authorisation of a removal. A cache of the answers to adds that
carry an invocation id stands before the add. -/
def readTeamManage (checks : TeamChecks) (callerSessionId : String) (args : Fields) :
    Except TeamToolFailure ToolCall := do
  rejectTeamToolFields args ["caller_agent_id", "sender", "sender_agent_id"]
  rejectTeamToolFieldsWithMessage args (fun field => s!"{field} is not supported by gg_team_manage")
    ["agent_id", "model", "unsubscribe_from_compaction_notifications"]
  let teamId ← requiredStringArg args "team_id"
  if (Json.fieldOf "remove_agent_ids" args).isSome then do
    rejectTeamToolFieldsWithMessage args
      (fun field => s!"{field} cannot be provided when remove_agent_ids is provided")
      ["title", "prompt", "image_paths", "model_preset", "worktree_name", "use_existing_worktree",
        "creator_compaction_subscription"]
    let removeAgentIds ← optionalStringArrayArg args "remove_agent_ids"
    if removeAgentIds = [] then .error (badRequest "remove_agent_ids must contain at least one agent id")
    else return .teamRemove teamId removeAgentIds
  else readTeamManageAdd checks callerSessionId teamId args

def readTeamStatus (args : Fields) : Except TeamToolFailure ToolCall := do
  rejectTeamToolFields args ["caller_agent_id", "sender", "sender_agent_id", "agent_id"]
  let teamId ← requiredStringArg args "team_id"
  return .teamStatus teamId

def readTeamMessage (args : Fields) : Except TeamToolFailure ToolCall := do
  rejectTeamToolFields args ["caller_agent_id", "sender", "sender_agent_id"]
  let teamId ← requiredStringArg args "team_id"
  let recipientAgentId ← requiredStringArg args "recipient_agent_id"
  let message ← requiredStringArg args "message"
  let imagePaths ← optionalStringArrayArg args "image_paths"
  return .teamMessage teamId recipientAgentId message imagePaths

/-- `invoke_team_tool`. -/
def readTeamTool (checks : TeamChecks) (request : ToolInvokeRequest) : Except TeamToolFailure ToolCall :=
  if ¬ checks.enabled then .error ⟨"feature_disabled", "gg_team MCP tools are disabled"⟩
  else match request.args with
    | .obj args =>
      match trim request.toolName with
      | "gg_team_status" => readTeamStatus args
      | "gg_team_message" => readTeamMessage args
      | "gg_team_manage" => readTeamManage checks request.callerSessionId args
      | toolName => .error (badRequest s!"Unsupported gg_team tool: {toolName}")
    | _ => .error (badRequest "tool args must be an object")

/-! ## invoke_tool -/

def namespaceMatchesTool (ns toolName : String) : Bool :=
  match trim ns with
  | "gg_process" => startsWith "gg_process_" toolName
  | "gg_team" => startsWith "gg_team_" toolName
  | _ => false

/-- `invoke_tool`: the request is refused, or it is answered with a failure or a call that goes on. -/
def invokeTool (checks : TeamChecks) (request : ToolInvokeRequest) :
    Except RuntimeError (Except TeamToolFailure ToolCall) :=
  if trim request.callerSessionId = "" then .error (.invalidState "caller_session_id is required")
  else if request.namespace.any fun ns => !namespaceMatchesTool ns request.toolName then
    .error (.invalidState "namespace does not match tool_name")
  else if startsWith "gg_process_" request.toolName then .ok (readProcessTool request)
  else if startsWith "gg_team_" request.toolName then .ok (readTeamTool checks request)
  else .ok (.error (badRequest s!"Unsupported tool name: {request.toolName}"))

/-! ## The process a call addresses -/

/-- `process_id_from_pid`, which goes through the map in the order `order`. -/
def processIdFromPid (order : List String) (pid : ℤ) : ProcessM String := do
  let p ← get
  let found := order.findSome? fun id => ((p.processes.lookup id).bind p.objects.lookup).filter
    fun o => o.record.pid = some pid
  let o ← Exec.orThrow found (.notFound s!"process pid {pid}")
  return o.record.id

/-- The look-up with which `get_process`, `read_process_logs` and `kill_process` begin. -/
def ownedProcess (processId : String) (callerSessionId : Option String) : ProcessM ℕ := do
  let h ← processFromId processId
  let o ← getObject h
  ensureOwnership o callerSessionId
  return h

def ToolCall.addressed (order : List String) : ToolCall → ProcessM (Option ℕ)
  | .getProcess (.id processId) caller => some <$> ownedProcess processId (some caller)
  | .getProcess (.pid pid) caller => do
    let processId ← processIdFromPid order pid
    some <$> ownedProcess processId (some caller)
  | .readProcessLogs request => some <$> ownedProcess request.processId request.callerSessionId
  | .killProcess request => some <$> ownedProcess request.processId request.callerSessionId
  | _ => return none

end Gooselake.Tools
