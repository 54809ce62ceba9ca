import FlexAgentRuntime.Ai.Message

/-!
The data of `internal/agent`: the agent's finite state machine, sessions,
events, errors and control commands (`types.go`, `errors.go`, `agent.go`,
`control_queue.go`).

`Session.Clone` copies the slices, so on values it is the identity and does not
appear. Metadata maps are left out: nothing below reads them. Nothing in the loop
reads the clock either; what it stamps itself carries the time 0.
-/

namespace FlexAgentRuntime.AgentLoop

open Ai

inductive AgentState where
  | idle | streaming | toolExecution | waitingFollowUp | exited
  deriving DecidableEq, Repr

def AgentState.name : AgentState → String
  | .idle => "idle"
  | .streaming => "streaming"
  | .toolExecution => "tool_execution"
  | .waitingFollowUp => "waiting_follow_up"
  | .exited => "exited"

/-- `validTransitions[from][to]`. -/
def validTransitions : AgentState → AgentState → Bool
  | .idle, .streaming | .idle, .exited => true
  | .streaming, .toolExecution | .streaming, .waitingFollowUp
  | .streaming, .idle | .streaming, .exited => true
  | .toolExecution, .streaming | .toolExecution, .idle | .toolExecution, .exited => true
  | .waitingFollowUp, .streaming | .waitingFollowUp, .idle | .waitingFollowUp, .exited => true
  | _, _ => false

structure AgentMessage where
  turn : Int
  message : Message
  createdAt : Int := 0

structure SessionMetrics where
  turnsStarted : Nat := 0
  turnsCompleted : Nat := 0
  messagesAppended : Nat := 0
  toolCallsStarted : Nat := 0
  toolCallsFinished : Nat := 0
  errors : Nat := 0

structure Session where
  id : String
  driverSessionID : String
  conversationLog : List AgentMessage
  stateHistory : List AgentState
  metrics : SessionMetrics

structure AgentToolResult where
  content : List ContentBlock
  snapshotID : String := ""
  exitCode : Option Int := none
  isError : Bool := false

/-- A tool of the driver's catalog; `Execute` is the environment's. -/
structure AgentTool where
  name : String
  terminal : Bool

inductive AgentEventType where
  | sessionStarted | sessionEnded
  | turnStarted | turnCompleted
  | agentMessageDelta | agentMessageCompleted | thinkingDelta
  | toolStarted | toolUpdate | toolCompleted | toolError | terminalToolCompleted
  | stateChange | steeringApplied | followUpEnqueued
  | aborted | driverError | providerError
  deriving DecidableEq, Repr

/-- References into the heap of `World`: managed sessions (with their agent and
bus), event receivers, and the `doneTurn` closures of turns. -/
abbrev MsRef := Nat
abbrev RecvRef := Nat
abbrev TurnRef := Nat

/-- Who called `Agent.Start` or `Agent.Continue`: the service, which holds the
receiver and the `doneTurn` closure of the turn, or user code directly. -/
inductive Caller where
  | service (r : RecvRef) (t : TurnRef)
  | direct
  deriving DecidableEq, Repr

/-- The activity that emitted an event: the run loop on context `k`, the call of
`Start` itself, `Steer`, `FollowUp` or `Abort`, `Stop`, `SubscribeEvents`, or a
driver other than `NativeDriver`. -/
inductive Origin where
  | run (k : Nat)
  | start (caller : Caller)
  | control
  | stop
  | subscribe
  | external
  deriving DecidableEq, Repr

/-- `AgentEvent`. `origin` is provenance that no function reads. -/
structure AgentEvent where
  type : AgentEventType
  origin : Origin
  sessionID : String := ""
  driverSessionID : String := ""
  state : Option AgentState := none
  turn : Nat := 0
  message : Option AgentMessage := none
  assistant : Option AssistantMessage := none
  toolName : String := ""
  toolCallID : String := ""
  toolResult : Option AgentToolResult := none
  delta : String := ""
  controlMessage : String := ""
  errorMessage : String := ""

def isTerminalTurnEvent (evt : AgentEvent) : Bool :=
  match evt.type with
  | .turnCompleted | .driverError | .providerError | .aborted => true
  | _ => false

def normalizeSessionEvent (sessionID : String) (evt : AgentEvent) : AgentEvent :=
  if evt.sessionID = "" then { evt with sessionID := sessionID } else evt

theorem isTerminal_normalize (id : String) (evt : AgentEvent) :
    isTerminalTurnEvent (normalizeSessionEvent id evt) = isTerminalTurnEvent evt := by
  unfold normalizeSessionEvent
  split <;> rfl

theorem origin_normalize (id : String) (evt : AgentEvent) :
    (normalizeSessionEvent id evt).origin = evt.origin := by
  unfold normalizeSessionEvent
  split <;> rfl

inductive AgentError where
  | busy (state : AgentState)
  | stopped
  | invalidState (src dst : AgentState)
  | queueFull
  | other (message : String)
  deriving DecidableEq, Repr

/-- `Error()`. -/
def AgentError.message : AgentError → String
  | .busy st => "agent is busy: current state=" ++ st.name
  | .stopped => "agent is stopped"
  | .invalidState src dst =>
    "invalid agent state transition: " ++ src.name ++ " -> " ++ dst.name
  | .queueFull => "agent control queue is full"
  | .other msg => msg

inductive ControlCommandType where
  | steer | followUp | abort
  deriving DecidableEq, Repr

structure ControlCommand where
  type : ControlCommandType
  message : String
  deriving DecidableEq, Repr

/-- `ControlQueue`: a buffered channel and the closed flag. -/
structure ControlQueue where
  buffer : Nat
  ch : List ControlCommand
  closed : Bool

def newControlQueue (buffer : Nat) : ControlQueue :=
  ⟨if buffer = 0 then 64 else buffer, [], false⟩

/-- How a run of the loop goes on after a turn. -/
inductive NextPrompt where
  | abort (message : String)
  | prompt (text : String)
  | done
  deriving DecidableEq, Repr

/-- The command loop of `nextPromptFromControlQueue`. An abort stops it; what the
commands before it wrote to `pendingSteer` and `followUps` stays written. -/
def applyCommands : List ControlCommand → String → List String →
    String × List String × Option String
  | [], steer, followUps => (steer, followUps, none)
  | cmd :: cmds, steer, followUps =>
    match cmd.type with
    | .abort => (steer, followUps, some cmd.message)
    | .steer => applyCommands cmds cmd.message followUps
    | .followUp => applyCommands cmds steer (followUps ++ [cmd.message])

/-- `nextPromptFromControlQueue` on the drained commands: the new `pendingSteer`
and `followUps` and how to go on. -/
def nextPromptFromControlQueue (cmds : List ControlCommand) (steer : String)
    (followUps : List String) : String × List String × NextPrompt :=
  if cmds.isEmpty && followUps.isEmpty && steer == "" then (steer, followUps, .done)
  else
    match applyCommands cmds steer followUps with
    | (steer, followUps, some msg) => (steer, followUps, .abort msg)
    | (steer, followUps, none) =>
      if steer != "" then ("", followUps, .prompt steer)
      else
        match followUps with
        | p :: rest => (steer, rest, .prompt p)
        | [] => (steer, [], .done)

end FlexAgentRuntime.AgentLoop
