import FlexAgentRuntime.Agent.AgentExec

/-!
The actions of `NativeDriver.run` (`loop.go`), one run per context.
-/

namespace FlexAgentRuntime.AgentLoop

open Ai

/-- `ctx.Err() != nil` for run context `k`; contexts of the service's calls are
derived from the session context. -/
def Agent.ctxErr (a : Agent) (k : Nat) : Bool :=
  a.driver.cancelled.contains k ||
    (a.ctxDone && a.driver.contexts[k]?.any (· != .direct))

def canceled : AgentError := .other "context canceled"

/-- `lookupTool`: the first tool of that name. -/
def NativeDriver.lookupTool (d : NativeDriver) (name : String) : Option AgentTool :=
  d.tools.find? (·.name == name)

/-! ## Events and log entries -/

def errorEvent (k : Nat) (type : AgentEventType) (turn : Nat) (err : AgentError) : AgentEvent :=
  { type := type, origin := .run k, turn := turn, errorMessage := err.message }

/-- The entry `appendUserMessage` appends. -/
def userMessage (turn : Nat) (text : String) : AgentMessage :=
  { turn := turn, message := .user [.text text ""] }

/-- The result of a tool that failed: flagged, with the error as its text when
it has no content. -/
def failedResult (result : AgentToolResult) : Option String → AgentToolResult
  | none => result
  | some err => { result with
      isError := true
      content := if result.content.isEmpty then [.text err ""] else result.content }

def toolNotFound (name : String) : String := "tool not found: " ++ name

/-- The entry `appendToolResult` appends. -/
def toolResultMessage (turn : Nat) (call : ToolCall) (result : AgentToolResult) : AgentMessage :=
  { turn := turn
    message := .toolResult { toolCallID := call.id, toolName := call.name
                             content := result.content, isError := result.isError } }

def toolEvent (k turn : Nat) (type : AgentEventType) (call : ToolCall) : AgentEvent :=
  { type := type, origin := .run k, turn := turn, toolName := call.name, toolCallID := call.id }

/-- The events `appendToolResult` and `executeTool` emit once the result is in
the log. -/
def toolResultEvents (k turn : Nat) (call : ToolCall) (result : AgentToolResult)
    (err : Option String) (terminal : Bool) : List AgentEvent :=
  [{ toolEvent k turn .toolCompleted call with toolResult := some result }] ++
    (match err with
      | some e => [{ toolEvent k turn .toolError call with errorMessage := e }]
      | none => []) ++
    (if terminal then
      [{ toolEvent k turn .terminalToolCompleted call with toolResult := some result }]
    else [])

/-! ## The loop -/

def panicError (p : String) : AgentError := .other ("native driver panic: " ++ p)

def RunOp.exec (m : MsRef) (k : Nat) (x : Choice) : RunOp → Agent → Option (Agent × List Op)
  | .top prompt, a =>
    if a.ctxErr k then
      some (a, [.agent m (.emit (errorEvent k .aborted 0 canceled)), .run m k .transitionIdle])
    else some (a, (if prompt = "" then [] else [.run m k (.appendUser prompt)]) ++
        [.run m k .turnBegin])
  | .appendUser prompt, a =>
    let trimmed := trimSpace prompt
    if trimmed = "" then some (a, [])
    else some ((a.appendConversation (userMessage (a.driver.turn + 1) trimmed)).getD a, [])
  -- executeSingleTurn
  | .turnBegin, a =>
    let turn := a.driver.turn + 1
    some ((a.setDriver fun d => { d with turn := turn }).markTurnStarted,
      [.agent m (.emit { type := .turnStarted, origin := .run k, turn := turn }),
       .run m k .turnLoop])
  | .turnLoop, a =>
    if a.ctxErr k then some (a, [.run m k (.turnError canceled)])
    else some (a, [.run m k .turnStreaming])
  | .turnStreaming, a =>
    match a.transition .streaming with
    | .error err => some (a, [.run m k (.turnError err)])
    | .ok (a, changed) =>
      some (a, emitChange m changed .streaming (.run k) ++ [.run m k .callProvider])
  | .callProvider, a =>
    match a.session with
    | none =>
      let err : AgentError := .other "session missing"
      some (a, [.agent m (.emit (errorEvent k .providerError a.driver.turn err)),
        .run m k (.turnError err)])
    | some _ => some (a, [.run m k .providerStream])
  | .providerStream, a =>
    let turn := a.driver.turn
    match x with
    | .textDelta delta => some (a, [.agent m (.emit
        { type := .agentMessageDelta, origin := .run k, turn := turn, delta := delta }),
        .run m k .providerStream])
    | .thinkingDelta delta => some (a, [.agent m (.emit
        { type := .thinkingDelta, origin := .run k, turn := turn, delta := delta }),
        .run m k .providerStream])
    | .answer msg => some (a, [.run m k (.appendAssistant msg)])
    | .error e => some (a, [.agent m (.emit (errorEvent k .providerError turn (.other e))),
        .run m k (.turnError (.other e))])
    | .panic p => some (a, [.run m k (.turnError (panicError p))])
    | _ => none
  | .appendAssistant msg, a =>
    let entry : AgentMessage := { turn := a.driver.turn, message := .assistant msg }
    match a.appendConversation entry with
    | none => some (a, [.run m k (.turnError (.invalidState a.state a.state))])
    | some a => some (a, [.agent m (.emit
        { type := .agentMessageCompleted, origin := .run k, turn := a.driver.turn
          message := some entry, assistant := some msg }),
        .run m k (.toolPhase (extractToolCalls msg))])
  | .toolPhase calls, a =>
    if calls.isEmpty then some (a, [.run m k .turnComplete])
    else match a.transition .toolExecution with
      | .error err => some (a, [.run m k (.turnError err)])
      | .ok (a, changed) =>
        some (a, emitChange m changed .toolExecution (.run k) ++ [.run m k (.runTools calls)])
  | .runTools [], a => some (a, [.run m k .turnLoop])
  | .runTools (call :: rest), a =>
    match a.driver.lookupTool call.name with
    | none =>
      let err := toolNotFound call.name
      some (a, [.run m k (.appendToolResult call { content := [.text err ""], isError := true }
        (some err) rest)])
    | some _ => some (a.recordToolStarted,
        [.agent m (.emit (toolEvent k a.driver.turn .toolStarted call)),
         .run m k (.toolWait call rest)])
  | .toolWait call rest, a =>
    match x with
    | .toolUpdate result => some (a, [.agent m (.emit
        { toolEvent k a.driver.turn .toolUpdate call with toolResult := some result }),
        .run m k (.toolWait call rest)])
    | .toolResult result err =>
      some (a, [.run m k (.toolFinish call (failedResult result err) err rest)])
    | .panic p => some (a, [.run m k (.turnError (panicError p))])
    | _ => none
  | .toolFinish call result err rest, a =>
    some (a.recordToolFinished, [.run m k (.appendToolResult call result err rest)])
  | .appendToolResult call result err rest, a =>
    match a.appendConversation (toolResultMessage a.driver.turn call result) with
    | none => some (a, [.run m k (.turnError (.invalidState a.state a.state))])
    | some a =>
      let terminal := (a.driver.lookupTool call.name).any (·.terminal)
      some (a, (toolResultEvents k a.driver.turn call result err terminal).map
          (fun e => .agent m (.emit e)) ++
        [.run m k (if terminal then .turnComplete else .runTools rest)])
  | .turnComplete, a =>
    some (a.markTurnCompleted,
      [.agent m (.emit { type := .turnCompleted, origin := .run k, turn := a.driver.turn }),
       .run m k (.drain [])])
  -- the error branch of run, and its recover
  | .turnError err, a =>
    some (a.recordError,
      [.agent m (.emit (errorEvent k .driverError 0 err)), .run m k .transitionIdle])
  | .drain cmds, a =>
    match a.control.ch with
    | cmd :: ch => some ({ a with control := { a.control with ch := ch } },
        [.run m k (.drain (cmds ++ [cmd]))])
    | [] => some (a, [.run m k (.nextPrompt cmds)])
  | .nextPrompt cmds, a =>
    let (steer, followUps, next) :=
      nextPromptFromControlQueue cmds a.driver.pendingSteer a.driver.followUps
    let a' := a.setDriver fun d => { d with pendingSteer := steer, followUps := followUps }
    match next with
    | .abort msg => some (a', [.agent m (.emit
        { type := .aborted, origin := .run k, controlMessage := msg }),
        .run m k .transitionIdle])
    | .prompt p => some (a', [.run m k (.top p)])
    | .done => some (a', [.run m k .transitionIdle])
  | .transitionIdle, a =>
    match a.transition .idle with
    | .error _ => some (a, [])
    | .ok (a, changed) => some (a, emitChange m changed .idle (.run k))
  | .deferred, a =>
    some (a.setDriver fun d => { d with running := false }, [.run m k .driverIdle])
  | .driverIdle, a => some (a.onDriverIdle, [])

end FlexAgentRuntime.AgentLoop
