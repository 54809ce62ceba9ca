import FlexAgentRuntime.Interleaving.Machine
import FlexAgentRuntime.Agent.Types

/-!
The shared state of an `AgentLoopService` and the atomic actions its goroutines
are made of.

An action is one critical section of the source (a lock-protected block, one
channel operation, one `sync.Once` or `WaitGroup` operation) together with the
goroutine-local code up to the next one. Pointers are references into heaps:
`MsRef` for a managed session with its agent, driver and bus, `RecvRef` for a
`serviceEventReceiver`, `TurnRef` for a `doneTurn` closure.
-/

namespace FlexAgentRuntime.AgentLoop

open Ai Function

/-! ## State -/

/-- `NativeDriver`. A run context is named by its index in `contexts`, which
says by whose call it was derived; `cancelled` are the contexts whose own cancel
function has been called. -/
structure NativeDriver where
  tools : List AgentTool
  cancel : Option Nat := none
  running : Bool := false
  pendingSteer : String := ""
  followUps : List String := []
  turn : Nat := 0
  contexts : List Caller := []
  cancelled : List Nat := []

/-- The two kinds of `AgentDriver`: the loop of `loop.go`, and any other
implementation, whose answers are the environment's. -/
inductive DriverKind where
  | native | external
  deriving DecidableEq, Repr

/-- `Agent` without its bus, which is `World.buses`. `ctxDone` says that the
context of the managed session is cancelled. -/
structure Agent where
  session : Option Session
  kind : DriverKind
  driver : NativeDriver
  running : Bool
  state : AgentState
  control : ControlQueue
  ctxDone : Bool

/-- The subscriber functions that exist: the publisher's, the two of
`newTurnScopedReceiver` and the one of `SubscribeEvents`. -/
inductive Handler where
  | publisher
  | tracker (t : TurnRef)
  | turn (r : RecvRef) (t : TurnRef)
  | stream (r : RecvRef)
  deriving DecidableEq, Repr

structure EventBus where
  nextID : Nat
  subs : List (Nat × Handler)
  closed : Bool

/-- `managedSession`. `published` is what the session gave to the publisher. -/
structure ManagedSession where
  sessionID : String
  started : Bool
  destroyed : Bool
  streams : List RecvRef
  turnDone : Option TurnRef
  unsubscribe : Option Nat
  published : List AgentEvent

/-- `sync.Once`: callers that find it running wait for it. -/
inductive Once where
  | idle | running | done
  deriving DecidableEq, Repr

inductive Hook where
  | unsubscribe (ids : List Nat)
  | removeStream
  deriving DecidableEq, Repr

/-- `serviceEventReceiver`. `closed` is also the closing of the `done` channel,
which happens in the same critical section. `owner` and `turn` say whose
closures hold the receiver; `turn` is `none` for a `SubscribeEvents` stream. -/
structure Receiver where
  owner : MsRef
  turn : Option TurnRef
  buffer : Nat
  ch : List AgentEvent
  closed : Bool
  once : Once
  closeHooks : List Hook

/-- The `doneTurn` closure of `newTurnScopedReceiver`: its `once` and the
captured session. -/
structure DoneTurn where
  ms : MsRef
  once : Once

/-- `AgentLoopService` without its wait group. -/
structure AgentLoopService where
  sessions : List (String × MsRef)
  publisher : Bool
  maxSess : Nat
  closed : Bool
  generated : Nat

structure World where
  svc : AgentLoopService
  wg : Int
  agents : MsRef → Agent
  buses : MsRef → EventBus
  managed : MsRef → ManagedSession
  nManaged : Nat
  recvs : RecvRef → Receiver
  nRecvs : Nat
  turns : TurnRef → DoneTurn
  nTurns : Nat

/-! ## Requests and results -/

structure SessionConfig where
  sessionID : String
  driver : DriverKind
  tools : List AgentTool

inductive ServiceError where
  | invalidArgument (detail : String)
  | closing
  | maxSessions
  | alreadyExists (id : String)
  | notFound (id : String)
  | steerWhileIdle
  | agent (err : AgentError)
  | panic (detail : String)
  | drainTimeout
  deriving DecidableEq, Repr

/-- What a turn call does once its receiver is set up: `SendMessage` starts a
turn with the message, `Continue` resumes. -/
inductive Kick where
  | send (message : String)
  | resume
  deriving DecidableEq, Repr

/-- Who called `Agent.Stop`: user code, `DestroySession`, or the loop of `Close`
with the captured sessions still to do and all captured sessions. -/
inductive StopCaller where
  | direct
  | destroy (id : String)
  | close (todo all : List (String × MsRef))
  deriving DecidableEq, Repr

/-- Why a receiver is closed: a terminal event was pushed, `closeAllStreams`,
the client, or the call that created it failed. -/
inductive Closer where
  | terminal (evt : AgentEvent)
  | destroyed
  | client
  | failed

/-- What is left of setting up a receiver after its subscription: the turn call
goes on with its kick, `SubscribeEvents` returns. -/
inductive Setup where
  | turn (t : TurnRef) (kick : Kick)
  | stream
  deriving DecidableEq, Repr

/-- The outcome of `Stop` in a teardown: who tears down, and the error. -/
abbrev Teardown := StopCaller × Option AgentError

/-! ## Actions -/

/-- `Start`, `Prompt` and `Continue`, with what they call in the driver. -/
inductive CallOp where
  | snapshot (prompt : String)
  | startClaim (session : Option Session) (prompt : String)
  | startTransition (prompt : String)
  | startUnclaim (err : AgentError)
  | driverStart (prompt : String)
  | startLoop (session : Option Session) (prompt : String) (resume : Bool)
  | goRun (k : Nat) (prompt : String)
  | startFailRecord (err : AgentError)
  | startFailClear (err : AgentError)
  | startFailIdle (err : AgentError)
  | continueClaim
  | continueFailRecord (err : AgentError)
  | continueFailIdle (err : AgentError)

/-- `NativeDriver.run`. -/
inductive RunOp where
  | top (prompt : String)
  | appendUser (prompt : String)
  | turnBegin
  | turnLoop
  | turnStreaming
  | callProvider
  | providerStream
  | appendAssistant (msg : AssistantMessage)
  | toolPhase (calls : List ToolCall)
  | runTools (calls : List ToolCall)
  | toolWait (call : ToolCall) (rest : List ToolCall)
  | toolFinish (call : ToolCall) (result : AgentToolResult) (err : Option String)
      (rest : List ToolCall)
  | appendToolResult (call : ToolCall) (result : AgentToolResult) (err : Option String)
      (rest : List ToolCall)
  | turnComplete
  | turnError (err : AgentError)
  | drain (cmds : List ControlCommand)
  | nextPrompt (cmds : List ControlCommand)
  | transitionIdle
  | deferred
  | driverIdle

/-- `Agent.Stop` up to the closing of the bus. -/
inductive StopOp where
  | begin_
  | driverStop
  | exit
  | closeControl
  deriving DecidableEq, Repr

/-- The other actions on an agent: contexts, events and control commands. -/
inductive AgentOp where
  | cancelContext (k : Nat)
  | cancelSession
  | emit (evt : AgentEvent)
  | readState (r : RecvRef) (id : String)
  | steerCheck (message : String)
  | enqueueCheck (cmd : ControlCommand)
  | enqueueSend (cmd : ControlCommand)

inductive BusOp where
  | subscribeTracker (r : RecvRef) (t : TurnRef) (kick : Kick)
  | subscribeTurn (r : RecvRef) (t : TurnRef) (kick : Kick) (tracker : List Nat)
  | subscribeStream (r : RecvRef)
  | publish (evt : AgentEvent)
  | deliver (evt : AgentEvent) (handlers : List Handler)
  | unsubscribe (id : Nat)
  | close (sc : StopCaller)

inductive MsOp where
  | setTurnDone (r : RecvRef) (t : TurnRef) (kick : Kick)
  | clearTurnDone (t : TurnRef)
  | readStarted (r : RecvRef) (t : TurnRef) (message : String)
  | setStarted (r : RecvRef)
  | handOut (r : RecvRef)
  | addStream (r : RecvRef) (setup : Setup)
  | removeStream (r : RecvRef)
  | completeActiveTurn (teardown : Option Teardown)
  | closeAllStreams (teardown : Teardown)
  | closeStreams (rs : List RecvRef)
  | publish (evt : AgentEvent)

inductive RecvOp where
  | pushCheck (evt : AgentEvent) (turn : Option TurnRef)
  | pushSelect (evt : AgentEvent) (turn : Option TurnRef)
  | setCloseHook (hook : Hook) (setup : Setup)
  | close (by_ : Closer)
  | hooksDone
  | recv
  | recvDrain (closed : Bool)
  | recvWait

/-- `doneTurn`, called by an API call on the session `call` or by an event
handler (`none`). -/
inductive TurnOp where
  | doneTurn (call : Option MsRef)
  | onceDone

inductive SvcOp where
  | createSession (cfg : SessionConfig)
  | resumeSession (cfg : SessionConfig) (log : List AgentMessage)
  | sendMessage (id : String) (message : String)
  | continueTurn (id : String)
  | steer (id : String) (message : String)
  | followUp (id : String) (message : String)
  | abort (id : String) (reason : String)
  | subscribeEvents (id : String)
  | destroySession (id : String)
  | close
  | newTurn (m : MsRef) (kick : Kick)
  | stopped (m : MsRef) (teardown : Teardown)
  | delete (id : String) (m : MsRef) (err : Option AgentError)
  | destroyReturn (m : MsRef) (err : Option ServiceError)
  | closeNext (todo all : List (String × MsRef))
  | closeDelete (all : List (String × MsRef))
  | closeWait (all : List (String × MsRef))
  | closeCancel (todo all : List (String × MsRef))
  | closeWaitAgain (all : List (String × MsRef))
  | closeReturn (all : List (String × MsRef)) (err : Option ServiceError)
  | ret (m : MsRef) (err : Option ServiceError)
  | refuse (err : ServiceError)

inductive Op where
  | call (m : MsRef) (caller : Caller) (op : CallOp)
  | run (m : MsRef) (k : Nat) (op : RunOp)
  | stop (m : MsRef) (sc : StopCaller) (op : StopOp)
  | agent (m : MsRef) (op : AgentOp)
  | bus (m : MsRef) (op : BusOp)
  | ms (m : MsRef) (op : MsOp)
  | recv (r : RecvRef) (op : RecvOp)
  | turn (t : TurnRef) (op : TurnOp)
  | svc (op : SvcOp)

/-- The environment's part in an action. -/
inductive Choice where
  | go
  | pick (i : Nat)
  | send
  | done
  | timeout
  | ok
  | error (msg : String)
  | panic (msg : String)
  | textDelta (delta : String)
  | thinkingDelta (delta : String)
  | answer (msg : AssistantMessage)
  | toolUpdate (result : AgentToolResult)
  | toolResult (result : AgentToolResult) (err : Option String)

/-! ## Heap updates -/

namespace World

def setAgent (w : World) (m : MsRef) (a : Agent) : World :=
  { w with agents := update w.agents m a }

def setBus (w : World) (m : MsRef) (b : EventBus) : World :=
  { w with buses := update w.buses m b }

def setManaged (w : World) (m : MsRef) (s : ManagedSession) : World :=
  { w with managed := update w.managed m s }

def setRecv (w : World) (r : RecvRef) (v : Receiver) : World :=
  { w with recvs := update w.recvs r v }

end World

end FlexAgentRuntime.AgentLoop
