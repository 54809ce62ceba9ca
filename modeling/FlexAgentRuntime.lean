import FlexAgentRuntime.Agent.AbortedIntent
import FlexAgentRuntime.Agent.Attribution
import FlexAgentRuntime.Agent.ControlDelivery
import FlexAgentRuntime.Agent.ControlQueue
import FlexAgentRuntime.Agent.FailedStart
import FlexAgentRuntime.Agent.Persistence
import FlexAgentRuntime.Agent.PostDestroySilence
import FlexAgentRuntime.Agent.StreamLifetime
import FlexAgentRuntime.Agent.TerminalEvent
import FlexAgentRuntime.Agent.TurnAccounting
import FlexAgentRuntime.Agent.TurnNumbers
import FlexAgentRuntime.Ai.BatchEmbed
import FlexAgentRuntime.Ai.Coerce
import FlexAgentRuntime.Ai.Provider.Partials
import FlexAgentRuntime.Ai.Replay
import FlexAgentRuntime.Ai.Thinking
import FlexAgentRuntime.Direct.Launch
import FlexAgentRuntime.Direct.Recover
import FlexAgentRuntime.Fleet.Ceiling
import FlexAgentRuntime.Fleet.IrrecoverableDrain
import FlexAgentRuntime.Fleet.LaunchedInstances
import FlexAgentRuntime.Fleet.NoOvercommit
import FlexAgentRuntime.Fleet.QuiescentSlots
import FlexAgentRuntime.Fleet.ScaleDown
import FlexAgentRuntime.Fleet.StateAgreement
import FlexAgentRuntime.Gvisor.Manager
import FlexAgentRuntime.Orchestrator.FailedCreate
import FlexAgentRuntime.Orchestrator.Isolation
import FlexAgentRuntime.Orchestrator.PausedAgreement
import FlexAgentRuntime.Orchestrator.ProbeVerdict
import FlexAgentRuntime.Orchestrator.TeardownOnce
import FlexAgentRuntime.Rpc.AgentEvents
import FlexAgentRuntime.Rpc.AtMostOnce
import FlexAgentRuntime.Rpc.CacheOwnership
import FlexAgentRuntime.Rpc.InputPump
import FlexAgentRuntime.Rpc.Refusals
import FlexAgentRuntime.Rpc.ToolSession
import FlexAgentRuntime.Rpc.ToolStream
import FlexAgentRuntime.Sandbox.DestroyedSessions
import FlexAgentRuntime.Sandbox.ProcessLifetime
import FlexAgentRuntime.Sandbox.StateEdges
import FlexAgentRuntime.Sandbox.StorageDisjoint
import FlexAgentRuntime.Sandbox.TurnNumbering
import FlexAgentRuntime.Termmux.Monitor
import FlexAgentRuntime.Termmux.Scrollback
import FlexAgentRuntime.Termmux.Tailer
import FlexAgentRuntime.Tools.Glob
import FlexAgentRuntime.Tools.Starlark
import FlexAgentRuntime.Tools.Windows
