import FlexAgentRuntime.Sandbox.Zfs
import FlexAgentRuntime.Text.Hex

/-!
The state of a `SandboxHostService` (`internal/sandbox`) and the atomic actions of
the goroutines that serve its requests.

An action is one critical section of the source (under a session's `mu` or under
`sessionsMu`), one access to the map of sessions or to an atomic counter, or the
start or the end of a call to the storage. A call to the storage is in progress
between the two; it takes effect at its end. What a tool does, whether a call
fails and what a `select` sees is the environment's choice.
-/

namespace FlexAgentRuntime.SandboxHost

inductive StorageBackend where
  | zfs | localDisk
  deriving DecidableEq, Repr

inductive ContainerRuntime where
  | gvisor | none
  deriving DecidableEq, Repr

inductive SessionState where
  | creating | active | paused | destroying | failed
  deriving DecidableEq, Repr

def SessionState.name : SessionState → String
  | .creating => "creating"
  | .active => "active"
  | .paused => "paused"
  | .destroying => "destroying"
  | .failed => "failed"

structure ServiceConfig where
  storageBackend : StorageBackend
  containerRuntime : ContainerRuntime
  sessionsDataset : String
  sessionsRootDir : String := ""
  maxSessions : Nat := 0
  defaultSessionQuota : Nat := 0
  snapshotPrefix : String := "turn"
  maxSnapshotsPerSession : Nat := 0
  perToolSnapshots : Bool := false

structure SnapshotEntry where
  name : String
  isTurnSnapshot : Bool
  deriving DecidableEq, Repr

/-- References to the sessions that have been built. -/
abbrev SessRef := Nat

structure Session where
  id : String
  state : SessionState
  dataset : String := ""
  mountpoint : String := ""
  turnCount : Nat := 0
  activeTools : Int := 0
  rollingBack : Bool := false
  snapshots : List SnapshotEntry := []

/-- `SandboxHostService`, the storage, and the directories of the local disk. -/
structure World where
  config : ServiceConfig
  sessions : List (String × SessRef)
  sess : SessRef → Session
  nSess : Nat
  zfs : Zfs
  dirs : List String
  idCounter : Nat

/-! ## Requests and results -/

structure CreateSessionRequest where
  baseSnapshot : String
  sessionID : String
  quota : Nat := 0
  deriving DecidableEq, Repr

structure ExecuteToolRequest where
  sessionID : String
  toolName : String
  toolCallID : String
  deriving DecidableEq, Repr

/-- What a tool has put out. -/
structure ToolOutput where
  content : String
  exitCode : Option Int := none
  deriving DecidableEq, Repr

structure ExecuteToolResponse where
  output : ToolOutput
  snapshotID : String := ""
  tier : Nat
  deriving DecidableEq, Repr

inductive HostError where
  | sessionNotFound (id : String)
  | sessionExists (id : String)
  | sessionPaused
  | sessionDestroying
  | rollbackInProgress
  | invalidState (detail : String)
  | maxSessionsReached
  | toolsInFlight (detail : String)
  | snapshotsNotAvailable
  | baseSnapshotRequired
  | invalidSessionID (id detail : String)
  | unresolvedPath (base target : String)
  | escapesRoot (id : String)
  | storage (step : String) (err : ZfsError)
  | cancelled
  | tool (message : String)
  deriving DecidableEq, Repr

/-- `Error()`. -/
def HostError.message : HostError → String
  | .sessionNotFound id => "sandbox: session not found: " ++ id
  | .sessionExists id => "sandbox: session already exists: " ++ id
  | .sessionPaused => "sandbox: session is paused"
  | .sessionDestroying => "sandbox: session is destroying"
  | .rollbackInProgress => "sandbox: rollback in progress"
  | .invalidState detail => "sandbox: invalid session state: " ++ detail
  | .maxSessionsReached => "sandbox: max sessions reached"
  | .toolsInFlight detail => "sandbox: tools in flight" ++ detail
  | .snapshotsNotAvailable =>
    "sandbox: snapshots not available (requires ZFS storage backend)"
  | .baseSnapshotRequired => "base snapshot is required for ZFS backend"
  | .invalidSessionID id detail => "invalid session_id \"" ++ id ++ "\": " ++ detail
  | .unresolvedPath base target =>
    "resolve session path: Rel: can't make " ++ target ++ " relative to " ++ base
  | .escapesRoot id => "session path escapes sessions root: \"" ++ id ++ "\""
  | .storage step err => step ++ ": " ++ err.message
  | .cancelled => "context canceled"
  | .tool message => message

/-- What a request returns. -/
inductive Result where
  | created (id : String)
  | executed (resp : ExecuteToolResponse)
  | snapshot (name : String) (turn : Nat)
  | done
  | failed (err : HostError)
  deriving DecidableEq, Repr

/-! ## Actions -/

/-- `CreateSession`. -/
inductive CreateOp where
  | start
  | reserve (id : String)
  | clone (id : String)
  | quota (id : String)
  | mountpoint (id : String)
  | mkdir (id : String)
  | destroyDataset (id : String) (err : HostError)
  | forget (id : String) (err : HostError)
  | store (id dataset mountpoint : String)
  deriving DecidableEq, Repr

/-- `ExecuteTool`. A tool is executing while its `run` is pending. -/
inductive ToolOp where
  | lookup
  | checkActive (s : SessRef)
  | enter (s : SessRef)
  | run (s : SessRef)
  | snapshot (s : SessRef) (resp : ExecuteToolResponse)
  | snapshotEnd (s : SessRef) (name : String) (resp : ExecuteToolResponse)
  | record (s : SessRef) (name : String) (resp : ExecuteToolResponse)
  | finish (s : SessRef) (result : Result)
  | ret (result : Result)
  deriving DecidableEq, Repr

inductive PauseOp where
  | lookup
  | checkActive (s : SessRef)
  | wait (s : SessRef)
  | set (s : SessRef)
  deriving DecidableEq, Repr

inductive ResumeOp where
  | lookup
  | set (s : SessRef)
  deriving DecidableEq, Repr

inductive DestroyOp where
  | lookup
  | mark (s : SessRef)
  | wait (s : SessRef)
  | dataset (s : SessRef)
  | datasetEnd (s : SessRef)
  | delete (s : SessRef)
  deriving DecidableEq, Repr

/-- `TurnComplete` and `cleanupOldSnapshots`. -/
inductive TurnOp where
  | lookup
  | check (s : SessRef)
  | snapshot (s : SessRef) (turn : Nat) (name : String)
  | snapshotEnd (s : SessRef) (turn : Nat) (name : String)
  | record (s : SessRef) (turn : Nat) (name : String)
  | cleanup (s : SessRef)
  | destroySnapshots (s : SessRef) (names : List String)
  deriving DecidableEq, Repr

/-- `CreateSnapshot`. -/
inductive SnapshotOp where
  | lookup
  | call (s : SessRef)
  | callEnd (s : SessRef)
  | record (s : SessRef)
  deriving DecidableEq, Repr

/-- `RollbackSession`. `zfs.Rollback` is in progress while its `callEnd` is pending. -/
inductive RollbackOp where
  | lookup
  | enter (s : SessRef)
  | call (s : SessRef)
  | callEnd (s : SessRef)
  | finish (s : SessRef) (err : Option ZfsError)
  deriving DecidableEq, Repr

inductive Op where
  | create (req : CreateSessionRequest) (op : CreateOp)
  | tool (req : ExecuteToolRequest) (op : ToolOp)
  | pause (id : String) (op : PauseOp)
  | resume (id : String) (op : ResumeOp)
  | destroy (id : String) (op : DestroyOp)
  | turn (id : String) (op : TurnOp)
  | snapshot (id name : String) (op : SnapshotOp)
  | rollback (id snapshotID : String) (op : RollbackOp)
  | ret (result : Result)
  deriving DecidableEq, Repr

/-- What the environment decides: that a call succeeds or fails, what a tool puts out,
the time stamp in a snapshot's name, and which branch a waiting `select` takes. -/
inductive Choice where
  | ok
  | error (message : String)
  | output (out : ToolOutput)
  | stamp (time : String)
  | tick
  | timeout
  | cancelled
  deriving DecidableEq, Repr

/-! ## Updates -/

namespace World

def setSess (w : World) (s : SessRef) (f : Session → Session) : World :=
  { w with sess := Function.update w.sess s (f (w.sess s)) }

/-- A new session, stored in the map under its id. -/
def storeSession (w : World) (v : Session) : World :=
  { w with
    sess := Function.update w.sess w.nSess v
    nSess := w.nSess + 1
    sessions := w.sessions.filter (·.1 ≠ v.id) ++ [(v.id, w.nSess)] }

/-- `sessions.Delete(id)`. -/
def deleteSession (w : World) (id : String) : World :=
  { w with sessions := w.sessions.filter (·.1 ≠ id) }

def getSession (w : World) (id : String) : Option SessRef :=
  (w.sessions.find? (·.1 = id)).map (·.2)

/-- The dataset of a session with id `id`. -/
def datasetOf (w : World) (id : String) : String :=
  String.ofList (w.config.sessionsDataset.toList ++ '/' :: id.toList)

end World

def generateSessionID (n : Nat) : String := String.ofList ("sess-".toList ++ Hex.padded 8 n)

end FlexAgentRuntime.SandboxHost
