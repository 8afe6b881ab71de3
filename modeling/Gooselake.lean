import Gooselake.Library.Exec
import Gooselake.Library.Runs
import Gooselake.Library.Table
import Gooselake.Library.Numbered
import Gooselake.Data.Text
import Gooselake.Data.Json
import Gooselake.Core.Records
import Gooselake.Core.Provider
import Gooselake.Core.Store
import Gooselake.Runtime.Manager
import Gooselake.Runtime.Helpers
import Gooselake.Runtime.Sessions
import Gooselake.Runtime.Turns
import Gooselake.Runtime.Recovery
import Gooselake.Runtime.Server
import Gooselake.Runtime.Outcomes
import Gooselake.Runtime.Moves
import Gooselake.Runtime.Identifiers
import Gooselake.Runtime.ActiveTurns
import Gooselake.Runtime.OneActiveTurn
import Gooselake.Runtime.Process
import Gooselake.Runtime.SessionRecords
import Gooselake.Runtime.Closed
import Gooselake.Runtime.Coherence
import Gooselake.Runtime.Agreement
import Gooselake.TeamComms.Delivery
import Gooselake.TeamComms.FailedSends
import Gooselake.Tools.Kill
import Gooselake.Tools.ClaimedWorktrees
import Gooselake.Tools.WorktreeDirectories
import Gooselake.Tools.ExclusiveClaims
import Gooselake.Http.Streams
import Gooselake.Providers.Conversations
import Gooselake.Runtime.Settlement
import Gooselake.Runtime.TurnEvents
import Gooselake.TeamComms.StartupRecovery
import Gooselake.TeamComms.RecoveredQueues
import Gooselake.TeamComms.Replay
import Gooselake.TeamComms.AcceptedSends
import Gooselake.Http.Replay
import Gooselake.TeamComms.Membership
import Gooselake.TeamComms.IndexLaw
import Gooselake.TeamComms.Completion
import Gooselake.Providers.Acp
import Gooselake.Providers.TurnOutput
import Gooselake.Providers.TurnsApart
import Gooselake.Tools.RepairedRecords
import Gooselake.Tools.SurvivingRecords
import Gooselake.Data.Toml
import Gooselake.Library.Gate
import Gooselake.Library.Slots
import Gooselake.Providers.AnsweredRequests
import Gooselake.Providers.BridgeClient
import Gooselake.Providers.BridgeProcesses
import Gooselake.Providers.BridgeTurns
import Gooselake.Providers.BridgeWaits
import Gooselake.Providers.CallerIsolation
import Gooselake.Providers.ClaudeAllocation
import Gooselake.Providers.ClaudeTurns
import Gooselake.Providers.FinishedTurns
import Gooselake.Providers.GgTeamGate
import Gooselake.Providers.IdleShutdown
import Gooselake.Providers.TurnTiming
import Gooselake.TeamComms.Standing
import Gooselake.Tools.AuthorisedChanges
import Gooselake.Tools.GatewayArgs
import Gooselake.Tools.ToolLanguage
import Gooselake.Tools.TeamCalls
import Gooselake.Tools.FaithfulLogs
import Gooselake.Tools.ManageAdds
import Gooselake.Providers.CodexWaits
import Gooselake.Providers.AcpSessions
import Gooselake.Providers.ApprovalAnswers
import Gooselake.Providers.CodexLaunches
import Gooselake.Tools.ProcessTable
import Gooselake.Tools.OwnRuns
import Gooselake.Runtime.Repeated
import Gooselake.Tools.StatusByPid
import Gooselake.Tools.PumpStream
import Gooselake.TeamComms.ListMessages
import Gooselake.Tools.WorktreePaths
import Gooselake.Providers.CodexFold
import Gooselake.Providers.InboundRequests
import Gooselake.Providers.AssistantText
import Gooselake.Tools.OutputPipes
import Gooselake.Providers.LaneOrder
import Gooselake.Providers.ForkAgreement
import Gooselake.Library.Windows
import Gooselake.Providers.StderrTail
import Gooselake.Runtime.Transcript
import Gooselake.Library.Recursion
import Gooselake.Providers.ToolStatus
import Gooselake.Providers.BridgePrompts
import Gooselake.Providers.BridgeRequests
import Gooselake.Library.CommandLine
import Gooselake.Providers.TurnArguments
import Gooselake.Data.TomlReader
import Gooselake.Providers.ConfigReadBack
