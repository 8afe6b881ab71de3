import Gooselake.Data.TomlReader
import Gooselake.Providers.CodexConfig

/-!
What a TOML reader makes of the configuration that is written for the `gg` MCP server: one table for the server, with
one table in it for the environment. Whatever the values hold, they end no line, string or key before its time.
-/

namespace Gooselake.Providers.CodexGgMcpConfig

open Gooselake.Core Data Toml

set_option autoImplicit false

/-! ## What is to be read -/

def serverTable (config : CodexGgMcpConfig) : String := (trimmedNonEmpty config.serverName).getD "gg"

def stringEntry (key value : String) : String × Value := (key, .scalar (.str value))

def envEntries (enableProcessTools : Bool) (runtimeSessionId : String) (gatewayUrl gatewayToken : Option String) :
    List (String × Value) :=
  [stringEntry "GG_MCP_ENABLE_PROCESS_TOOLS" (if enableProcessTools then "1" else "0"),
    stringEntry "GG_MCP_REQUIRE_TOOL_CALLER_AGENT_ID" "1", stringEntry "GG_MCP_CALLER_AGENT_ID" runtimeSessionId] ++
    (gatewayUrl.map (stringEntry "GG_MCP_GATEWAY_URL")).toList ++
    (gatewayToken.map (stringEntry "GG_MCP_GATEWAY_TOKEN")).toList

def serverEntries (command : String) (args : List String) : List (String × Value) :=
  [stringEntry "command" command, ("args", .array (args.map .str))]

def serverDocument (server command : String) (args : List String) (env : List (String × Value)) : Fields :=
  [("mcp_servers", .table [(server, .table (valueFields (serverEntries command args) ++
    [("env", .table (valueFields env))]))])]

/-! ## The lines -/

theorem serverTable_ne (config : CodexGgMcpConfig) : config.serverTable ≠ "" := by
  unfold serverTable trimmedNonEmpty
  dsimp only
  split
  · decide
  · next hne => exact hne

def serverPath (config : CodexGgMcpConfig) : List String := ["mcp_servers", config.serverTable]

def envPath (config : CodexGgMcpConfig) : List String := config.serverPath ++ ["env"]

theorem ne_of_mem_envPath (config : CodexGgMcpConfig) : ∀ key ∈ config.envPath, key ≠ "" := by
  intro key hmem
  rcases List.mem_cons.mp hmem with rfl | hmem
  · decide
  · rcases List.mem_cons.mp hmem with rfl | hmem
    · exact config.serverTable_ne
    · obtain rfl := List.mem_singleton.mp hmem
      decide

def settingLines (key : String) (hbare : isBareKey key = true) (hne : key ≠ "") (value : Option String) :
    List WrittenLine :=
  (value.map fun value => WrittenLine.entry key hbare hne value).toList

def serverLines (config : CodexGgMcpConfig) : List WrittenLine :=
  [.header config.serverPath nofun fun key hmem => config.ne_of_mem_envPath key (List.mem_append_left _ hmem),
    .entry "command" rfl (by decide) config.command, .strings "args" rfl (by decide) config.args]

def callerLines (config : CodexGgMcpConfig) (runtimeSessionId : String) : List WrittenLine :=
  [.header config.envPath nofun config.ne_of_mem_envPath,
    .entry "GG_MCP_ENABLE_PROCESS_TOOLS" rfl (by decide) (if config.enableProcessTools then "1" else "0"),
    .entry "GG_MCP_REQUIRE_TOOL_CALLER_AGENT_ID" rfl (by decide) "1",
    .entry "GG_MCP_CALLER_AGENT_ID" rfl (by decide) runtimeSessionId]

def gatewayLines (config : CodexGgMcpConfig) : List WrittenLine :=
  settingLines "GG_MCP_GATEWAY_URL" rfl (by decide) (config.gatewayUrl.bind trimmedNonEmpty) ++
    settingLines "GG_MCP_GATEWAY_TOKEN" rfl (by decide) (config.gatewayToken.bind trimmedNonEmpty)

def writtenLines (config : CodexGgMcpConfig) (runtimeSessionId : String) : List WrittenLine :=
  config.serverLines ++ [.blank] ++ config.callerLines runtimeSessionId ++ config.gatewayLines

def lineChars (lines : List WrittenLine) : List Char := lines.flatMap fun line => line.text.toList ++ ['\n']

theorem lineChars_settingLines (key : String) (hbare : isBareKey key = true) (hne : key ≠ "") (value : Option String) :
    (settingLine key value).toList = lineChars (settingLines key hbare hne (value.bind trimmedNonEmpty)) := by
  unfold settingLine
  split
  · next text hsome =>
    rw [hsome]
    simp only [settingLines, lineChars, WrittenLine.entry, toString, String.toList_append, Option.map_some,
      Option.toList_some, List.flatMap_singleton]
    rfl
  · next hnone =>
    rw [hnone]
    rfl

theorem intercalate_serverPath (config : CodexGgMcpConfig) :
    ".".intercalate (config.serverPath.map tomlKeySegment) = "mcp_servers." ++ config.serverKey := by
  have hservers : tomlKeySegment "mcp_servers" = "mcp_servers" := if_pos rfl
  rw [serverPath, List.map_cons, List.map_singleton, String.intercalate_cons_cons, String.intercalate_singleton,
    hservers]
  rfl

theorem intercalate_envPath (config : CodexGgMcpConfig) :
    ".".intercalate (config.envPath.map tomlKeySegment) = "mcp_servers." ++ config.serverKey ++ ".env" := by
  have hservers : tomlKeySegment "mcp_servers" = "mcp_servers" := if_pos rfl
  have henv : tomlKeySegment "env" = "env" := if_pos rfl
  have hpath : config.envPath.map tomlKeySegment =
    [tomlKeySegment "mcp_servers", config.serverKey, tomlKeySegment "env"] := rfl
  rw [hpath, hservers, henv, String.intercalate_cons_cons, String.intercalate_cons_cons, String.intercalate_singleton,
    @String.append_assoc config.serverKey, ← String.append_assoc]
  rfl

theorem toList_beforeCaller (config : CodexGgMcpConfig) (runtimeSessionId : String) :
    (config.beforeCaller ++ s!"GG_MCP_CALLER_AGENT_ID = {tomlString runtimeSessionId}\n").toList =
      lineChars (config.serverLines ++ [.blank] ++ config.callerLines runtimeSessionId) := by
  have hone : tomlString "1" = "\"1\"" := rfl
  unfold beforeCaller
  dsimp only [toString]
  simp only [lineChars, serverLines, callerLines, List.cons_append, List.nil_append, List.flatMap_cons,
    List.flatMap_nil, WrittenLine.header, WrittenLine.entry, WrittenLine.strings, WrittenLine.blank,
    intercalate_serverPath, intercalate_envPath, hone, String.toList_append, List.append_assoc, String.reduceToList]

theorem toList_formatCodexGgMcpConfig (config : CodexGgMcpConfig) (runtimeSessionId : String) :
    (config.formatCodexGgMcpConfig runtimeSessionId).toList = lineChars (config.writtenLines runtimeSessionId) := by
  rw [formatCodexGgMcpConfig, String.toList_append, toList_beforeCaller, afterCaller, String.toList_append,
    lineChars_settingLines "GG_MCP_GATEWAY_URL" rfl (by decide),
    lineChars_settingLines "GG_MCP_GATEWAY_TOKEN" rfl (by decide)]
  simp only [lineChars, writtenLines, gatewayLines, List.flatMap_append]

/-! ## The document -/

theorem map_serverLines (config : CodexGgMcpConfig) : config.serverLines.map WrittenLine.statement =
    .header config.serverPath ::
      (serverEntries config.command config.args).map fun entry => Statement.entry entry.1 entry.2 := rfl

theorem map_envLines (config : CodexGgMcpConfig) (runtimeSessionId : String) :
    (config.callerLines runtimeSessionId ++ config.gatewayLines).map WrittenLine.statement =
      .header config.envPath ::
        (envEntries config.enableProcessTools runtimeSessionId (config.gatewayUrl.bind trimmedNonEmpty)
          (config.gatewayToken.bind trimmedNonEmpty)).map fun entry => Statement.entry entry.1 entry.2 := by
  unfold gatewayLines
  cases config.gatewayUrl.bind trimmedNonEmpty <;> cases config.gatewayToken.bind trimmedNonEmpty <;> rfl

theorem nodup_serverEntries (command : String) (args : List String) :
    ((serverEntries command args).map Prod.fst).Nodup := by
  simp [serverEntries, stringEntry]

theorem nodup_envEntries (enableProcessTools : Bool) (runtimeSessionId : String)
    (gatewayUrl gatewayToken : Option String) :
    ((envEntries enableProcessTools runtimeSessionId gatewayUrl gatewayToken).map Prod.fst).Nodup := by
  cases gatewayUrl <;> cases gatewayToken <;> simp [envEntries, stringEntry]

def serverHole (config : CodexGgMcpConfig) (fields : Fields) : Fields :=
  [("mcp_servers", .table [(config.serverTable, .table fields)])]

theorem within_serverPath (config : CodexGgMcpConfig) : Within config.serverPath config.serverHole :=
  (@within_last _ [] rfl).append (@within_last _ [] rfl)

def envHole (config : CodexGgMcpConfig) (fields : Fields) : Fields :=
  config.serverHole (valueFields (serverEntries config.command config.args) ++ [("env", .table fields)])

theorem within_envPath (config : CodexGgMcpConfig) : Within config.envPath config.envHole :=
  config.within_serverPath.append (within_last rfl)

theorem atPath_envPath (config : CodexGgMcpConfig) :
    atPath some config.envPath (config.serverHole (valueFields (serverEntries config.command config.args))) =
      some (config.envHole []) := by
  rw [envPath, atPath_append, config.within_serverPath, atPath_some_new rfl]
  rfl

theorem foldlM_writtenLines (config : CodexGgMcpConfig) (runtimeSessionId : String) :
    ((config.writtenLines runtimeSessionId).map WrittenLine.statement ++ [Statement.blank]).foldlM Document.take
        Document.empty =
      some ⟨config.envHole (valueFields (envEntries config.enableProcessTools runtimeSessionId
        (config.gatewayUrl.bind trimmedNonEmpty) (config.gatewayToken.bind trimmedNonEmpty))),
        [config.serverPath, config.envPath], config.envPath⟩ := by
  have hblank : ∀ d, [Statement.blank].foldlM Document.take d = some d := fun _ => rfl
  have hserver : (config.serverLines.map WrittenLine.statement).foldlM Document.take Document.empty =
      some ⟨config.serverHole (valueFields (serverEntries config.command config.args)), [config.serverPath],
        config.serverPath⟩ := by
    rw [map_serverLines]
    exact Document.foldlM_section config.within_serverPath rfl List.not_mem_nil
      (nodup_serverEntries config.command config.args)
  have hnew : config.envPath ∉ [config.serverPath] := by simp [serverPath, envPath]
  have henv := Document.foldlM_section
    (d := ⟨config.serverHole (valueFields (serverEntries config.command config.args)), [config.serverPath],
      config.serverPath⟩) config.within_envPath config.atPath_envPath hnew
    (nodup_envEntries config.enableProcessTools runtimeSessionId (config.gatewayUrl.bind trimmedNonEmpty)
      (config.gatewayToken.bind trimmedNonEmpty))
  rw [writtenLines, List.append_assoc, List.map_append, List.map_append, map_envLines, List.foldlM_append,
    List.foldlM_append, List.foldlM_append, hserver, Option.bind_eq_bind, Option.bind_some, List.map_singleton]
  change (([Statement.blank].foldlM Document.take _).bind _ >>= _) = _
  rw [hblank, Option.bind_some, henv]
  exact hblank _

/-- The written file reads back as the one table of the server, with just the values it was given. -/
theorem config_reads_back (config : CodexGgMcpConfig) (runtimeSessionId : String) :
    readToml (config.formatCodexGgMcpConfig runtimeSessionId) =
      some (serverDocument config.serverTable config.command config.args
        (envEntries config.enableProcessTools runtimeSessionId (config.gatewayUrl.bind trimmedNonEmpty)
          (config.gatewayToken.bind trimmedNonEmpty))) := by
  rw [readToml, toList_formatCodexGgMcpConfig, lineChars, mapM_readLine_written, Option.bind_eq_bind, Option.bind_some,
    foldlM_writtenLines]
  rfl

theorem not_config_reads_back : ¬ ∀ (config : CodexGgMcpConfig) (runtimeSessionId : String),
    readToml (config.formatCodexGgMcpConfig runtimeSessionId) =
      some (serverDocument config.serverName config.command config.args
        (envEntries config.enableProcessTools runtimeSessionId config.gatewayUrl config.gatewayToken)) := by
  intro h
  have hsame : { CodexGgMcpConfig.default with serverName := " gg " }.formatCodexGgMcpConfig "session" =
      CodexGgMcpConfig.default.formatCodexGgMcpConfig "session" := rfl
  have hplain := h CodexGgMcpConfig.default "session"
  have hblank := h { CodexGgMcpConfig.default with serverName := " gg " } "session"
  rw [hsame, hplain] at hblank
  simp [serverDocument, CodexGgMcpConfig.default] at hblank

end Gooselake.Providers.CodexGgMcpConfig
