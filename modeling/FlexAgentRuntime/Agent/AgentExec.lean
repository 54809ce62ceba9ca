import FlexAgentRuntime.Agent.World

/-!
The actions of `agent.go` and `control_queue.go` on one agent: `Start`,
`Prompt`, `Continue` and `Stop`, events and control commands.
-/

namespace FlexAgentRuntime.AgentLoop

open Ai

/-! ## Agent methods that are one critical section -/

namespace Agent

/-- `Transition` up to its unlock; the flag says whether it emits `state_change`. -/
def transition (a : Agent) (dst : AgentState) : Except AgentError (Agent × Bool) :=
  if a.state = .exited then .error .stopped
  else if a.state = dst then .ok (a, false)
  else if validTransitions a.state dst then
    .ok ({ a with
      state := dst
      session := a.session.map fun s => { s with stateHistory := s.stateHistory ++ [dst] } }, true)
  else .error (.invalidState a.state dst)

/-- `AppendConversation`; `none` when there is no session. -/
def appendConversation (a : Agent) (msg : AgentMessage) : Option Agent :=
  a.session.map fun s => { a with session := some { s with
    conversationLog := s.conversationLog ++ [msg]
    metrics := { s.metrics with messagesAppended := s.metrics.messagesAppended + 1 } } }

/-- The counters `MarkTurnStarted`, `RecordError` and their siblings keep. -/
def count (a : Agent) (f : SessionMetrics → SessionMetrics) : Agent :=
  { a with session := a.session.map fun s => { s with metrics := f s.metrics } }

def markTurnStarted (a : Agent) : Agent :=
  a.count fun c => { c with turnsStarted := c.turnsStarted + 1 }
def markTurnCompleted (a : Agent) : Agent :=
  a.count fun c => { c with turnsCompleted := c.turnsCompleted + 1 }
def recordToolStarted (a : Agent) : Agent :=
  a.count fun c => { c with toolCallsStarted := c.toolCallsStarted + 1 }
def recordToolFinished (a : Agent) : Agent :=
  a.count fun c => { c with toolCallsFinished := c.toolCallsFinished + 1 }
def recordError (a : Agent) : Agent :=
  a.count fun c => { c with errors := c.errors + 1 }

def onDriverIdle (a : Agent) : Agent := { a with running := false }

def setDriver (a : Agent) (f : NativeDriver → NativeDriver) : Agent :=
  { a with driver := f a.driver }

/-- The conversation log, empty without a session. -/
def log (a : Agent) : List AgentMessage :=
  match a.session with
  | some s => s.conversationLog
  | none => []

end Agent

/-- `startLoop` refuses a second run, and a missing session. -/
def startLoopErr (a : Agent) (session : Option Session) : Option AgentError :=
  if a.driver.running then some (.busy .streaming)
  else if session.isNone then some (.other "session is required")
  else none

/-! ## Continuations -/

/-- `emit` of `state_change`, when `Transition` changed the state. -/
def emitChange (m : MsRef) (changed : Bool) (dst : AgentState) (origin : Origin) : List Op :=
  if changed then [.agent m (.emit { type := .stateChange, origin := origin, state := some dst })]
  else []

/-- `Start` or `Continue` returned nil. -/
def callOk (m : MsRef) : Caller → List Op
  | .service r _ => [.ms m (.setStarted r)]
  | .direct => [.svc (.ret m none)]

/-- `Start` or `Continue` returned an error; the service completes the turn and
closes the receiver before it reports it. -/
def callFail (m : MsRef) (err : ServiceError) : Caller → List Op
  | .service r t =>
    [.turn t (.doneTurn (some m)), .recv r (.close .failed), .svc (.ret m (some err))]
  | .direct => [.svc (.ret m (some err))]

/-- The ack event of `Steer`, `FollowUp` and `Abort`. -/
def ackEvent (cmd : ControlCommand) : AgentEvent :=
  { type := match cmd.type with
      | .steer => .steeringApplied
      | .followUp => .followUpEnqueued
      | .abort => .aborted
    origin := .control
    controlMessage := cmd.message }

/-- `emit`: fill in what the event leaves empty. -/
def fillEvent (a : Agent) (evt : AgentEvent) : AgentEvent :=
  let evt := match a.session with
    | some s => { evt with
        sessionID := if evt.sessionID = "" then s.id else evt.sessionID
        driverSessionID :=
          if evt.driverSessionID = "" then s.driverSessionID else evt.driverSessionID }
    | none => evt
  { evt with state := evt.state <|> some a.state }

/-! ## Start, Prompt, Continue -/

/-- The error return of `driver.Start` (in `Start`) or `driver.Resume` (in
`Continue`). -/
def driverFailed (m : MsRef) (caller : Caller) (resume : Bool) (err : AgentError) : Op :=
  .call m caller (if resume then .continueFailRecord err else .startFailRecord err)

/-- `driver.Start` and `driver.Resume` of a driver other than `NativeDriver`. A
panic leaves `running` and the state as they are; `safeCall` reports it. -/
def externalStart (m : MsRef) (caller : Caller) (resume : Bool) : Choice → Option (List Op)
  | .ok => some (callOk m caller)
  | .error msg => some [driverFailed m caller resume (.other msg)]
  | .panic msg => some (callFail m (.panic msg) caller)
  | _ => none

/-- The agent afterwards, what follows, and the goroutines started. -/
def CallOp.exec (m : MsRef) (caller : Caller) (x : Choice) :
    CallOp → Agent → Option (Agent × List Op × List (List Op))
  -- Prompt and the service evaluate a.Session() before they call Start
  | .snapshot prompt, a => some (a, [.call m caller (.startClaim a.session prompt)], [])
  | .startClaim session prompt, a =>
    if a.state = .exited then some (a, callFail m (.agent .stopped) caller, [])
    else if a.running then some (a, callFail m (.agent (.busy a.state)) caller, [])
    else some ({ a with running := true, session := session <|> a.session },
      [.call m caller (.startTransition prompt)], [])
  | .startTransition prompt, a =>
    match a.transition .streaming with
    | .error err => some (a, [.call m caller (.startUnclaim err)], [])
    | .ok (a, changed) => some (a, emitChange m changed .streaming (.start caller) ++
        [.agent m (.emit { type := .sessionStarted, origin := .start caller }),
         .call m caller (.driverStart prompt)], [])
  | .startUnclaim err, a =>
    some ({ a with running := false }, callFail m (.agent err) caller, [])
  | .driverStart prompt, a =>
    some (a, [.call m caller (.startLoop a.session prompt false)], [])
  | .startLoop session prompt resume, a =>
    match a.kind with
    | .external => (externalStart m caller resume x).map fun more => (a, more, [])
    | .native =>
      match startLoopErr a session with
      | some err => some (a, [driverFailed m caller resume err], [])
      | none =>
        let k := a.driver.contexts.length
        some (a.setDriver fun d => { d with
            contexts := d.contexts ++ [caller], cancel := some k, running := true },
          [.call m caller (.goRun k prompt)], [])
  -- the deferred function of run waits at the bottom of the new stack
  | .goRun k prompt, a => some (a, callOk m caller, [[.run m k (.top prompt), .run m k .deferred]])
  | .startFailRecord err, a => some (a.recordError, [.call m caller (.startFailClear err)], [])
  | .startFailClear err, a =>
    some ({ a with running := false }, [.call m caller (.startFailIdle err)], [])
  | .startFailIdle err, a =>
    match a.transition .idle with
    | .error _ => some (a, callFail m (.agent err) caller, [])
    | .ok (a, changed) =>
      some (a, emitChange m changed .idle (.start caller) ++ callFail m (.agent err) caller, [])
  | .continueClaim, a =>
    if a.state = .exited then some (a, callFail m (.agent .stopped) caller, [])
    else if a.running then some (a, callFail m (.agent (.busy a.state)) caller, [])
    else match a.session with
      | none => some (a, callFail m (.agent (.invalidState a.state a.state)) caller, [])
      | some s => some ({ a with running := true },
          [.call m caller (.startLoop (some s) "" true)], [])
  | .continueFailRecord err, a =>
    some (a.recordError, [.call m caller (.continueFailIdle err)], [])
  | .continueFailIdle err, a => some (a.onDriverIdle, callFail m (.agent err) caller, [])

/-! ## Stop -/

def StopOp.exec (m : MsRef) (sc : StopCaller) (x : Choice) :
    StopOp → Agent → Option (Agent × List Op)
  | .begin_, a =>
    if a.state = .exited then some (a, [.svc (.stopped m (sc, none))])
    else some ({ a with running := false }, [.stop m sc .driverStop])
  | .driverStop, a =>
    match a.kind, x with
    | .native, _ =>
      some (a.setDriver fun d => { d with cancel := none, running := false },
        (match a.driver.cancel with
          | some k => [.agent m (.cancelContext k)]
          | none => []) ++ [.stop m sc .exit])
    | .external, .ok => some (a, [.stop m sc .exit])
    | .external, .error msg => some (a, [.svc (.stopped m (sc, some (.other msg)))])
    | .external, _ => none
  | .exit, a =>
    match a.transition .exited with
    | .error err => some (a, [.svc (.stopped m (sc, some err))])
    | .ok (a, changed) => some (a, emitChange m changed .exited .stop ++
        [.agent m (.emit { type := .sessionEnded, origin := .stop }), .stop m sc .closeControl])
  | .closeControl, a =>
    some ({ a with control := { a.control with closed := true } }, [.bus m (.close sc)])

/-! ## Events and control commands -/

def AgentOp.exec (m : MsRef) : AgentOp → Agent → Agent × List Op
  | .cancelContext k, a => (a.setDriver fun d => { d with cancelled := k :: d.cancelled }, [])
  | .cancelSession, a => ({ a with ctxDone := true }, [])
  | .emit evt, a => (a, [.bus m (.publish (fillEvent a evt))])
  -- SubscribeEvents pushes the current state before it subscribes
  | .readState r id, a =>
    (a, [.recv r (.pushCheck (normalizeSessionEvent id
        { type := .stateChange, origin := .subscribe, state := some a.state }) none),
      .bus m (.subscribeStream r)])
  | .steerCheck message, a =>
    if a.state = .idle then (a, [.svc (.ret m (some .steerWhileIdle))])
    else (a, [.agent m (.enqueueCheck ⟨.steer, message⟩)])
  | .enqueueCheck cmd, a =>
    if a.control.closed then (a, [.svc (.ret m (some (.agent .stopped)))])
    else (a, [.agent m (.enqueueSend cmd)])
  -- the send comes after the read lock is released: a closed channel panics
  | .enqueueSend cmd, a =>
    if a.control.closed then (a, [.svc (.ret m (some (.panic "send on closed channel")))])
    else if a.control.ch.length < a.control.buffer then
      ({ a with control := { a.control with ch := a.control.ch ++ [cmd] } },
        [.agent m (.emit (ackEvent cmd)), .svc (.ret m none)])
    else (a, [.svc (.ret m (some (.agent .queueFull)))])

end FlexAgentRuntime.AgentLoop
