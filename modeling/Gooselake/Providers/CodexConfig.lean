import Gooselake.Data.Toml
import Gooselake.Library.Runs
import Gooselake.Providers.Codex

/-!
The home directory of the Codex adapter. All sessions share one `config.toml`, which tells the `gg` MCP server in
whose name it acts; it is written anew before each process is started, under the lock of the sessions. A process
reads the file when it likes, from its start to its end. A write of the file either fails or is whole.
-/

namespace Gooselake.Providers

open Gooselake.Core Data Library Library.Exec

set_option autoImplicit false

/-! ## The file -/

structure CodexGgMcpConfig where
  enabled : Bool
  serverName : String
  command : String
  args : List String
  enableProcessTools : Bool
  gatewayUrl : Option String
  gatewayToken : Option String
  deriving DecidableEq, Repr

def CodexGgMcpConfig.default : CodexGgMcpConfig := ⟨true, "gg", "gg-mcp-server", [], true, none, none⟩

namespace CodexGgMcpConfig

open Toml

def serverKey (config : CodexGgMcpConfig) : String :=
  tomlKeySegment ((trimmedNonEmpty config.serverName).getD "gg")

def beforeCaller (config : CodexGgMcpConfig) : String :=
  let enableProcessTools := tomlString (if config.enableProcessTools then "1" else "0")
  s!"[mcp_servers.{config.serverKey}]\n" ++ s!"command = {tomlString config.command}\n" ++
    "args = [" ++ ", ".intercalate (config.args.map tomlString) ++ "]\n\n" ++
    s!"[mcp_servers.{config.serverKey}.env]\n" ++ s!"GG_MCP_ENABLE_PROCESS_TOOLS = {enableProcessTools}\n" ++
    "GG_MCP_REQUIRE_TOOL_CALLER_AGENT_ID = \"1\"\n"

def settingLine (key : String) (value : Option String) : String :=
  match value.bind trimmedNonEmpty with
  | some value => s!"{key} = {tomlString value}\n"
  | none => ""

def afterCaller (config : CodexGgMcpConfig) : String :=
  settingLine "GG_MCP_GATEWAY_URL" config.gatewayUrl ++ settingLine "GG_MCP_GATEWAY_TOKEN" config.gatewayToken

def formatCodexGgMcpConfig (config : CodexGgMcpConfig) (runtimeSessionId : String) : String :=
  config.beforeCaller ++ s!"GG_MCP_CALLER_AGENT_ID = {tomlString runtimeSessionId}\n" ++ config.afterCaller

theorem formatCodexGgMcpConfig_inj (config : CodexGgMcpConfig) {a b : String}
    (h : config.formatCodexGgMcpConfig a = config.formatCodexGgMcpConfig b) : a = b := by
  have hchars := congrArg String.toList h
  simp only [formatCodexGgMcpConfig, toString, String.toList_append] at hchars
  have hline := List.append_cancel_left (List.append_cancel_right hchars)
  have hvalue := List.append_cancel_left (List.append_cancel_right hline)
  exact tomlString_inj (String.toList_inj.mp hvalue)

end CodexGgMcpConfig

/-! ## Launches -/

inductive TurnCall where
  | sendTurn (req : ProviderSendTurnRequest)
  | respondApproval (req : ProviderApprovalResponseRequest)
  deriving DecidableEq, Repr

namespace TurnCall

def runtimeSessionId : TurnCall → String
  | .sendTurn req => req.runtimeSessionId
  | .respondApproval req => req.runtimeSessionId

def run (call : TurnCall) (spawned : Except RuntimeError Unit) : CodexM Unit :=
  match call with
  | .sendTurn req => do let _ ← Codex.sendTurn req spawned
  | .respondApproval req => Codex.respondApproval req spawned

def after (call : TurnCall) (spawned : Except RuntimeError Unit) (codex : Codex) : Codex :=
  ((call.run spawned).result codex).2

/-- The call gets as far as `spawn_turn`. -/
def spawns (call : TurnCall) (codex : Codex) : Bool :=
  (call.after (.ok ()) codex).processes.length ≠ codex.processes.length

end TurnCall

inductive CodexLaunchPoint where
  /-- before the directory of the last messages is made -/
  | preparing
  | creatingHome
  /-- before `config.toml` is opened and cut off -/
  | opening
  | writing
  | spawning
  deriving DecidableEq, Repr

structure CodexLaunch where
  call : TurnCall
  point : CodexLaunchPoint
  deriving DecidableEq, Repr

structure CodexHome where
  config : CodexGgMcpConfig
  codex : Codex
  /-- What `config.toml` holds, if there is one. -/
  configToml : Option String
  /-- The launch that holds the lock of the sessions. -/
  launch : Option CodexLaunch

def CodexHome.new (config : CodexGgMcpConfig) (configToml : Option String) : CodexHome :=
  ⟨config, Codex.new, configToml, none⟩

namespace CodexHome

def locked (m : CodexM Unit) (s : CodexHome) : Option CodexHome :=
  if s.launch.isSome then none else some { s with codex := (m.result s.codex).2 }

def begin (call : TurnCall) (s : CodexHome) : Option CodexHome :=
  if call.spawns s.codex && s.launch.isNone then some { s with launch := some ⟨call, .preparing⟩ }
  else s.locked (call.run (.ok ()))

def finish (call : TurnCall) (spawned : Except RuntimeError Unit) (s : CodexHome) : CodexHome :=
  { s with codex := call.after spawned s.codex, launch := none }

/-- The next section of the launch ends as `outcome` says. -/
def goOn (outcome : Except RuntimeError Unit) (s : CodexHome) : Option CodexHome :=
  match s.launch, outcome with
  | none, _ => none
  | some ⟨call, _⟩, .error error => some (s.finish call (.error error))
  | some ⟨call, .preparing⟩, .ok () =>
    some { s with launch := some ⟨call, if s.config.enabled then .creatingHome else .spawning⟩ }
  | some ⟨call, .creatingHome⟩, .ok () => some { s with launch := some ⟨call, .opening⟩ }
  | some ⟨call, .opening⟩, .ok () => some { s with launch := some ⟨call, .writing⟩, configToml := some "" }
  | some ⟨call, .writing⟩, .ok () =>
    some { s with
      launch := some ⟨call, .spawning⟩
      configToml := some (s.config.formatCodexGgMcpConfig call.runtimeSessionId) }
  | some ⟨call, .spawning⟩, .ok () => some (s.finish call (.ok ()))

inductive Event where
  | createSession (req : ProviderCreateSessionRequest)
  | resumeSession (req : ProviderResumeSessionRequest)
  | closeSession (req : ProviderCloseSessionRequest)
  | call (call : TurnCall)
  | goOn (outcome : Except RuntimeError Unit)
  | processEnds (n : ℕ) (threadId : Option String) (result : ProviderTurnResult)

def step (e : Event) (s : CodexHome) : Option CodexHome :=
  match e with
  | .createSession req => s.locked (do let _ ← Codex.createSession req)
  | .resumeSession req => s.locked (do let _ ← Codex.resumeSession req)
  | .closeSession req => s.locked (Codex.closeSession req)
  | .call call => s.begin call
  | .goOn outcome => s.goOn outcome
  | .processEnds n threadId result =>
    match s.codex.processes[n]? with
    | none => none
    | some process => if process.exited then none else s.locked (Codex.processEnds n process threadId result)

/-- Every running process finds its own session in the file, and no other. -/
def ReadsOwn (s : CodexHome) : Prop :=
  s.config.enabled = true → ∀ process ∈ s.codex.processes, process.exited = false →
    s.configToml = some (s.config.formatCodexGgMcpConfig process.runtimeSessionId) ∧
    ∀ other, s.configToml = some (s.config.formatCodexGgMcpConfig other) → other = process.runtimeSessionId

/-- No launch opens the file while a process runs. -/
def alone (e : Event) (s : CodexHome) : Bool :=
  match e, s.launch with
  | .goOn (.ok ()), some ⟨_, .opening⟩ => s.codex.processes.all CodexProcess.exited
  | _, _ => true

end CodexHome

end Gooselake.Providers
