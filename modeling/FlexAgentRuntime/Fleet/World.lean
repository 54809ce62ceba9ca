import FlexAgentRuntime.Fleet.Routing
import FlexAgentRuntime.Fleet.SandboxID

/-!
The state of a `FleetSandboxControl` (`internal/sandbox/control/fleet`) and the
atomic actions of its goroutines.

An action is one critical section of the source (under `f.mu` or under one
instance's `mu`), one atomic read or write, or one call to the outside: to the
sandbox-host of an instance, to the provisioner, to the client factory. What the
hosts hold is part of the state, since the fleet is about it; what they answer is
the environment's choice.

A loop over `f.instances` starts with one action that fixes the order of the map's
keys. It reads the instances one by one after that, so that they may change between
two reads as they may in the source, where only the map is locked.
-/

namespace FlexAgentRuntime.Fleet

/-- `FleetConfig`, the fields that `Validate` requires to be non-negative as `Nat`. -/
structure FleetConfig where
  minInstances : Nat
  maxInstances : Nat
  warmPoolTarget : Nat
  maxSessionsPerInstance : Nat
  capacityHeadroom : Rat
  unhealthyThreshold : Nat
  healthyThreshold : Nat
  idleCooldown : Time
  drainTimeout : Time
  provisionTimeout : Time
  maxConcurrentProvisions : Nat
  maxTerminateRetries : Nat
  leaveInstancesOnClose : Bool

/-- `DefaultFleetConfig`, in seconds. -/
def defaultFleetConfig : FleetConfig where
  minInstances := 1
  maxInstances := 50
  warmPoolTarget := 2
  maxSessionsPerInstance := 10
  capacityHeadroom := 4 / 5
  unhealthyThreshold := 3
  healthyThreshold := 3
  idleCooldown := 600
  drainTimeout := 1800
  provisionTimeout := 300
  maxConcurrentProvisions := 3
  maxTerminateRetries := 5
  leaveInstancesOnClose := false

/-- The sandbox-host of a cloud instance: the sandboxes alive on it, by their
host-local session ids, and whether the instance has been terminated. -/
structure Host where
  alive : List String := []
  terminated : Bool := false

/-- `FleetSandboxControl` and its surroundings. `cancelled` is the context of the
control loop, `loopDone` says that the loop has returned, `roundRobin` is the
router's counter. `cloud` lists the instance ids the provisioner has given out. -/
structure World where
  config : FleetConfig
  now : Time
  instances : List (String × MiRef)
  managed : MiRef → ManagedInstance
  nManaged : Nat
  pendingLaunches : Nat
  closed : Bool
  cancelled : Bool
  loopDone : Bool
  roundRobin : Nat
  cloud : List String
  hosts : String → Host

/-! ## Actions -/

/-- Who provisions: an attempt of `CreateSandbox`, or the control loop. -/
inductive Origin where
  | create (attempt : Nat)
  | warm
  deriving DecidableEq, Repr

/-- `provisionInstance` and `provisionWarmInstance`. -/
inductive ProvisionOp where
  | checkTotal
  | reserve
  | launch (start : Time)
  | client (start : Time) (instanceID : String)
  | insert (start : Time) (instanceID : String)
  | unreserve
  deriving DecidableEq, Repr

/-- `CreateSandbox` with `selectAndClaim`. -/
inductive CreateOp where
  | start
  | select (attempt : Nat)
  | snapshot (attempt : Nat) (todo : List MiRef) (snapshots : List Snapshot)
  | claim (attempt : Nat) (mi : MiRef)
  | rpc (mi : MiRef)
  | encode (mi : MiRef) (sessionID : String)
  | rollback (mi : MiRef) (err : FleetError)
  deriving DecidableEq, Repr

/-- `DestroySandbox`; `released` says that `ReleaseSession` has succeeded. -/
inductive DestroyOp where
  | start (sandboxID : String)
  | release (mi : MiRef) (sessionID : String)
  | rpc (mi : MiRef) (sessionID : String) (released : Bool)
  | rollback (mi : MiRef) (sessionID : String)
  deriving DecidableEq, Repr

/-- Who calls `TerminateInstance`, and how its loop goes on: the instances still to
visit, and the ids to delete from the map at the end. -/
inductive Terminator where
  | drain (mi : MiRef) (timedOut : Bool) (todo : List MiRef) (toRemove : List String)
  | stuck (mi : MiRef) (todo : List MiRef) (toRemove : List String)
  | provision (mi : MiRef) (todo : List MiRef) (toRemove : List String)
  | close (mi : MiRef)
  deriving DecidableEq, Repr

/-- The control loop and its phases. -/
inductive LoopOp where
  | wait
  | phaseHealthCheck
  | healthRead (mi : MiRef)
  | healthCheck (mi : MiRef)
  | healthStore (mi : MiRef) (result : Option Int)
  | phaseHandleUnhealthy
  | handleUnhealthy (mi : MiRef)
  | phaseScaleUp
  | scaleUp (total : Nat) (todo : List MiRef) (readyCount : Nat)
  | phaseScaleDown
  | scaleDown (total : Nat) (todo : List MiRef) (idleCount : Nat) (candidates : List MiRef)
  | scaleDownDrain (total idleCount : Nat) (candidates : List MiRef)
  | phaseDrainCompletion
  | drain (todo : List MiRef) (toRemove : List String)
  | drainDecide (mi : MiRef) (state : InstanceState) (sessions : Int)
      (drainStarted : Option Time) (todo : List MiRef) (toRemove : List String)
  | drainTerminated (mi : MiRef) (todo : List MiRef) (toRemove : List String)
  | drainRetry (mi : MiRef) (todo : List MiRef) (toRemove : List String)
  | phaseProvisioningCompletion
  | provisioning (todo : List MiRef) (toRemove : List String)
  | provisioningDecide (mi : MiRef) (provStarted : Option Time) (todo : List MiRef)
      (toRemove : List String)
  | provisioningCheck (mi : MiRef) (todo : List MiRef) (toRemove : List String)
  | provisioningReady (mi : MiRef) (todo : List MiRef) (toRemove : List String)
  | provisioningTerminated (mi : MiRef) (todo : List MiRef) (toRemove : List String)
  | remove (ids : List String)
  deriving DecidableEq, Repr

inductive RecoverOp where
  | list
  | checkExists (instanceID : String)
  | client (instanceID : String)
  | insert (instanceID : String)
  deriving DecidableEq, Repr

inductive CloseOp where
  | start
  | cancelLoop
  | waitLoop
  | collect
  | mark (mi : MiRef)
  | swap
  deriving DecidableEq, Repr

/-- What a call returns. -/
inductive CallResult where
  | created (sandboxID : String)
  | destroyed
  | failed (err : FleetError)
  deriving DecidableEq, Repr

/-- `ret` is a call about to return; `tick` is the passing of time. -/
inductive Op where
  | create (op : CreateOp)
  | provision (origin : Origin) (op : ProvisionOp)
  | destroy (op : DestroyOp)
  | loop (op : LoopOp)
  | terminate (by_ : Terminator)
  | recover (op : RecoverOp)
  | close (op : CloseOp)
  | ret (result : CallResult)
  | tick (d : Time)
  deriving DecidableEq, Repr

/-- What the environment decides: that a call succeeds or fails, the order of a
map, the id the provisioner or a host gives, the session count a host reports, the
instances the provisioner lists, that the control loop sees its context done. -/
inductive Choice where
  | ok
  | error
  | order (mis : List MiRef)
  | launched (instanceID : String)
  | session (sessionID : String)
  | healthy (sessionCount : Int)
  | listed (ids : List String)
  | done
  deriving DecidableEq, Repr

/-! ## Updates -/

namespace World

def setManaged (w : World) (mi : MiRef) (v : ManagedInstance) : World :=
  { w with managed := Function.update w.managed mi v }

def setHost (w : World) (id : String) (h : Host) : World :=
  { w with hosts := Function.update w.hosts id h }

/-- The map insertion `f.instances[id] = mi` of a new instance. -/
def insertInstance (w : World) (v : ManagedInstance) : World :=
  { w with
    managed := Function.update w.managed w.nManaged v
    nManaged := w.nManaged + 1
    instances := w.instances.filter (·.1 ≠ v.instanceID) ++ [(v.instanceID, w.nManaged)] }

def getInstance (w : World) (instanceID : String) : Option MiRef :=
  (w.instances.find? (·.1 = instanceID)).map (·.2)

/-- `delete(f.instances, id)` for each of `ids`. -/
def removeInstances (w : World) (ids : List String) : World :=
  { w with instances := w.instances.filter fun q => !ids.contains q.1 }

/-- The host of a managed instance. -/
def hostOf (w : World) (mi : MiRef) : Host := w.hosts (w.managed mi).instanceID

/-- Terminating an instance ends the sandboxes on it. -/
def terminateHost (w : World) (mi : MiRef) : World :=
  w.setHost (w.managed mi).instanceID ⟨[], true⟩

end World

end FlexAgentRuntime.Fleet
