import FlexAgentRuntime.Agent.ServiceExec

/-!
The state of an `Orchestrator` (`internal/orchestrator`) and the atomic actions of
its goroutines.

An action is one critical section of the source or one call to a backend. The
backends are part of the state as far as the orchestrator can tell them apart:
sandboxes, the agent processes launched in them, the agent services those run,
and the in-process `AgentLoopService`, which is the machine of `AgentLoop`. A call
to that service is pushed on the stack of the calling goroutine.
-/

namespace FlexAgentRuntime.Orchestrator

open AgentLoop (Choice)

inductive PlacementMode where
  | agentDirect | agentSandbox | toolsSandbox
  deriving DecidableEq, Repr

inductive SessionState where
  | creating | active | paused | unhealthy | destroyed
  deriving DecidableEq, Repr

abbrev EntryRef := Nat
abbrev SandboxRef := Nat
abbrev ProcessRef := Nat
abbrev AgentRef := Nat

/-- An `agentapi.AgentService` value: `config.AgentLoopService`, or the client of
an agent process. -/
inductive ServiceRef where
  | shared
  | remote (a : AgentRef)
  deriving DecidableEq, Repr

/-! ## State -/

/-- `sessionEntry`. `sandbox` is `sandboxID` with its `sandboxControl`, which are
set together; `locked` says that a goroutine holds `mu`. -/
structure SessionEntry where
  sessionID : String
  remoteSessionID : String := ""
  placement : PlacementMode
  sandbox : Option SandboxRef := none
  process : Option ProcessRef := none
  agentService : Option ServiceRef := none
  state : SessionState := .creating
  healthFailures : Nat := 0
  healthErr : Option String := none
  locked : Bool := false

/-- A sandbox of a `SandboxControl`; `owner` is the entry it was created for. -/
structure Sandbox where
  owner : EntryRef
  paused : Bool := false
  destroyed : Bool := false

structure Process where
  sandbox : SandboxRef
  running : Bool := true

/-- The agent service that a launched process runs, behind its RPC client. -/
structure RemoteAgent where
  process : ProcessRef
  sessions : List String := []

/-- `OrchestratorConfig`: which backends are configured, whether the direct
backend can pause, and the limit on sessions. -/
structure OrchestratorConfig where
  directControl : Bool
  nodeControl : Bool
  agentLoopService : Bool
  directPause : Bool
  maxSessions : Nat

/-- `Orchestrator`. `cancelled` is the lifecycle context, `wg` counts the
operations in flight, `healthDone` says that the health loop has returned. -/
structure Orchestrator where
  sessions : List (String × EntryRef)
  closing : Bool
  config : OrchestratorConfig
  cancelled : Bool
  wg : Nat
  healthDone : Bool
  generated : Nat

structure World where
  orch : Orchestrator
  entries : EntryRef → SessionEntry
  nEntries : Nat
  sandboxes : SandboxRef → Sandbox
  nSandboxes : Nat
  processes : ProcessRef → Process
  nProcesses : Nat
  agents : AgentRef → RemoteAgent
  nAgents : Nat
  loop : AgentLoop.World

inductive OrchestratorError where
  | shuttingDown
  | invalidPlacement
  | notConfigured (placement : PlacementMode)
  | maxSessions
  | alreadyExists (id : String)
  | notFound (id : String)
  | unhealthy (id : String) (healthErr : Option String)
  | noAgentService
  | noSandboxControl
  | notInState (id : String) (state wanted : SessionState)
  | sessionIDRequired
  | backend (message : String)
  deriving DecidableEq, Repr

/-! ## Actions -/

/-- The context of a backend call: a fresh one, or that of a `CreateSession`,
whose deadline may have passed. -/
inductive Ctx where
  | background
  | create (expired : Bool)
  deriving DecidableEq, Repr

/-- The backend calls whose result does not decide what comes next. -/
inductive Backend where
  | destroySession (svc : ServiceRef) (id : String)
  | abort (svc : ServiceRef) (id reason : String)
  | closeService (svc : ServiceRef)
  | killProcess (p : ProcessRef)
  | destroySandbox (s : SandboxRef)

/-- `createRemoteAgentSession` and `createToolsSandboxSession`. -/
inductive CreateOp where
  | createSandbox
  | launchProcess (s : SandboxRef)
  | connect (s : SandboxRef) (p : ProcessRef)
  | createSession (s : SandboxRef) (p : ProcessRef) (a : AgentRef)
  | createShared (s : SandboxRef)
  | addSession (s : SandboxRef) (p : Option ProcessRef) (svc : ServiceRef)
  | abandon (err : OrchestratorError) (cleanup : List Backend)

/-- The calls that are passed on to the session's agent service. -/
inductive ProxyRequest where
  | sendMessage (message : String)
  | continueTurn
  | steer (message : String)
  | followUp (message : String)
  | abort (reason : String)
  | subscribeEvents
  | resumeSession (cfg : AgentLoop.SessionConfig) (log : List AgentLoop.AgentMessage)

/-- Actions on one entry. -/
inductive EntryOp where
  | destroy (byClose : Bool)
  | destroyed
  | pause
  | pauseSandbox
  | resume
  | resumeSandbox
  | relaunch
  | reconnect (p : ProcessRef)
  | reconnected (p : ProcessRef) (a : AgentRef)
  | unlock
  | proxy (req : ProxyRequest)
  | probe
  | verdict

inductive OrchOp where
  | createSession (placement : Option PlacementMode) (cfg : AgentLoop.SessionConfig)
  | place (placement : Option PlacementMode) (cfg : AgentLoop.SessionConfig)
  | destroySession (id : String)
  | lookupDestroy (id : String)
  | pauseSession (id : String)
  | resumeSessionSandbox (id : String)
  | proxy (id : String) (req : ProxyRequest)
  | resumeSession (id : String) (cfg : AgentLoop.SessionConfig)
      (log : List AgentLoop.AgentMessage)
  | lookupResume (id : String) (cfg : AgentLoop.SessionConfig)
      (log : List AgentLoop.AgentMessage)
  | endOperation
  | close
  | cancelLifecycle
  | waitHealth
  | waitOperations
  | closeSessions
  | closeShared
  | healthTick
  | ret (e : Option EntryRef) (err : Option OrchestratorError)

inductive Op where
  | orch (op : OrchOp)
  | create (e : EntryRef) (cfg : AgentLoop.SessionConfig) (expired : Bool) (op : CreateOp)
  | entry (e : EntryRef) (op : EntryOp)
  | backend (e : EntryRef) (ctx : Ctx) (call : Backend)
  | loop (op : AgentLoop.Op)

/-! ## Heap updates -/

namespace World

def setOrch (w : World) (f : Orchestrator → Orchestrator) : World := { w with orch := f w.orch }

def setEntry (w : World) (e : EntryRef) (f : SessionEntry → SessionEntry) : World :=
  { w with entries := Function.update w.entries e (f (w.entries e)) }

def setSandbox (w : World) (s : SandboxRef) (f : Sandbox → Sandbox) : World :=
  { w with sandboxes := Function.update w.sandboxes s (f (w.sandboxes s)) }

def setProcess (w : World) (p : ProcessRef) (f : Process → Process) : World :=
  { w with processes := Function.update w.processes p (f (w.processes p)) }

def setAgent (w : World) (a : AgentRef) (f : RemoteAgent → RemoteAgent) : World :=
  { w with agents := Function.update w.agents a (f (w.agents a)) }

/-- `fmt.Sprintf("orch-%08x", n)`. -/
def generateSessionID (n : Nat) : String := String.ofList ("orch-".toList ++ Hex.padded 8 n)

def newEntry (w : World) (placement : PlacementMode) : World :=
  { w with
    orch := { w.orch with generated := w.orch.generated + 1 }
    entries := Function.update w.entries w.nEntries
      { sessionID := generateSessionID (w.orch.generated + 1), placement := placement }
    nEntries := w.nEntries + 1 }

def newSandbox (w : World) (owner : EntryRef) : World :=
  { w with
    sandboxes := Function.update w.sandboxes w.nSandboxes { owner := owner }
    nSandboxes := w.nSandboxes + 1 }

def newProcess (w : World) (s : SandboxRef) : World :=
  { w with
    processes := Function.update w.processes w.nProcesses { sandbox := s }
    nProcesses := w.nProcesses + 1 }

def newAgent (w : World) (p : ProcessRef) : World :=
  { w with
    agents := Function.update w.agents w.nAgents { process := p }
    nAgents := w.nAgents + 1 }

/-- What runs in a sandbox that is destroyed, or stopped by the direct backend,
ends. -/
def stopProcesses (w : World) (s : SandboxRef) : World :=
  { w with processes := fun p =>
      if (w.processes p).sandbox = s then { w.processes p with running := false }
      else w.processes p }

def getSessionEntry (w : World) (id : String) : Option EntryRef :=
  (w.orch.sessions.find? (·.1 == id)).map (·.2)

/-- The agent process behind the client answers. -/
def answers (w : World) (a : AgentRef) : Bool := (w.processes (w.agents a).process).running

end World

end FlexAgentRuntime.Orchestrator
