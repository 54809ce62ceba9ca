import FlexAgentRuntime.Fleet.World
import FlexAgentRuntime.Interleaving.Machine

/-!
Execution of the actions of a `FleetSandboxControl` (`fleet/fleet.go`,
`fleet/control_loop.go`).

Each `exec` gives the new state and the actions the goroutine goes on with; `none`
means that the action cannot be executed with that choice of the environment. A
remote call that fails has no effect on the host; a host creates sessions under new
ids and refuses to destroy sessions it does not have.
-/

namespace FlexAgentRuntime.Fleet

open Interleaving

/-- The iteration order of `f.instances`. -/
def World.rangeInstances (w : World) : Choice → Option (List MiRef)
  | .order l => if l.Perm (w.instances.map (·.2)) then some l else none
  | _ => none

/-! ## CreateSandbox -/

/-- `provisionInstance` has failed: `CreateSandbox` returns `ErrNoCapacity`, the
control loop logs and goes on. -/
def Origin.failed : Origin → List Op
  | .create _ => [.ret (.failed .noCapacity)]
  | .warm => []

/-- The instance has been added: `CreateSandbox` makes its next attempt. -/
def Origin.succeeded : Origin → List Op
  | .create attempt => [.create (.select (attempt + 1))]
  | .warm => []

def maxAttempts : Nat := 3

def CreateOp.exec (x : Choice) : CreateOp → World → Option (World × List Op)
  | .start, w =>
    some (w, if w.closed then [.ret (.failed .fleetClosed)] else [.create (.select 0)])
  | .select attempt, w =>
    if attempt < maxAttempts then
      (w.rangeInstances x).map fun l => (w, [.create (.snapshot attempt l [])])
    else some (w, [.ret (.failed .noCapacity)])
  | .snapshot attempt (mi :: todo) snapshots, w =>
    some (w, [.create (.snapshot attempt todo (snapshots ++ [(w.managed mi).snapshot mi]))])
  | .snapshot attempt [] snapshots, w =>
    match CapacityRouter.selectInstance w.config.capacityHeadroom w.roundRobin snapshots with
    | (none, n) => some ({ w with roundRobin := n }, [.provision (.create attempt) .checkTotal])
    | (some selected, n) =>
      some ({ w with roundRobin := n }, [.create (.claim attempt selected.ref)])
  | .claim attempt mi, w =>
    match (w.managed mi).claimSession with
    | .ok v => some (w.setManaged mi v, [.create (.rpc mi)])
    | .error _ => some (w, [.create (.select (attempt + 1))])
  | .rpc mi, w =>
    match x with
    | .session id =>
      let host := w.hostOf mi
      if host.terminated ∨ id ∈ host.alive then none
      else some (w.setHost (w.managed mi).instanceID { host with alive := host.alive ++ [id] },
        [.create (.encode mi id)])
    | .error => some (w, [.create (.rollback mi .rpc)])
    | _ => none
  | .encode mi id, w =>
    match encodeSandboxID (w.managed mi).instanceID id with
    | .ok sandboxID => some (w, [.ret (.created sandboxID)])
    | .error err => some (w, [.create (.rollback mi (.encodeSandboxID err))])
  | .rollback mi err, w =>
    match (w.managed mi).releaseSession w.now with
    | .ok v => some (w.setManaged mi v, [.ret (.failed err)])
    | .error _ => some (w, [.ret (.failed err)])

/-! ## Provisioning -/

/-- The instance as it enters the map: `provisionInstance` makes it ready,
`provisionWarmInstance` leaves that to the control loop. -/
def Origin.newInstance (w : World) (start : Time) (id : String) : Origin → ManagedInstance
  | .create _ =>
    { instanceID := id, state := .ready, maxSessions := w.config.maxSessionsPerInstance,
      idleSince := some w.now }
  | .warm =>
    { instanceID := id, state := .provisioning, maxSessions := w.config.maxSessionsPerInstance,
      provisionStarted := some start }

def ProvisionOp.exec (o : Origin) (x : Choice) : ProvisionOp → World → Option (World × List Op)
  | .checkTotal, w =>
    some (w, if w.instances.length ≥ w.config.maxInstances then o.failed
      else [.provision o .reserve])
  | .reserve, w =>
    if w.pendingLaunches ≥ w.config.maxConcurrentProvisions then some (w, o.failed)
    else some ({ w with pendingLaunches := w.pendingLaunches + 1 },
      [.provision o (.launch w.now)])
  | .launch start, w =>
    match x with
    | .launched id =>
      -- The id is the cloud provider's unique identifier.
      if id ∈ w.cloud then none
      else some ({ w.setHost id {} with cloud := w.cloud ++ [id] },
        [.provision o (.client start id)])
    | .error => some (w, .provision o .unreserve :: o.failed)
    | _ => none
  | .client start id, w =>
    match x with
    | .ok => some (w, [.provision o (.insert start id)])
    | .error => some (w, .provision o .unreserve :: o.failed)
    | _ => none
  | .insert start id, w =>
    some (w.insertInstance (o.newInstance w start id), .provision o .unreserve :: o.succeeded)
  | .unreserve, w => some ({ w with pendingLaunches := w.pendingLaunches - 1 }, [])

/-! ## DestroySandbox -/

def DestroyOp.exec (x : Choice) : DestroyOp → World → Option (World × List Op)
  | .start sandboxID, w =>
    match parseSandboxID sandboxID with
    | .error err => some (w, [.ret (.failed err)])
    | .ok (instanceID, sessionID) =>
      match w.getInstance instanceID with
      | none => some (w, [.ret (.failed (.instanceNotFound instanceID))])
      | some mi => some (w, [.destroy (.release mi sessionID)])
  | .release mi sessionID, w =>
    match (w.managed mi).releaseSession w.now with
    | .ok v => some (w.setManaged mi v, [.destroy (.rpc mi sessionID true)])
    | .error _ => some (w, [.destroy (.rpc mi sessionID false)])
  | .rpc mi sessionID released, w =>
    match x with
    | .ok =>
      let host := w.hostOf mi
      if host.terminated ∨ sessionID ∉ host.alive then none
      else some (w.setHost (w.managed mi).instanceID
          { host with alive := host.alive.erase sessionID }, [.ret .destroyed])
    | .error =>
      some (w, if released then [.destroy (.rollback mi sessionID)] else [.ret (.failed .rpc)])
    | _ => none
  | .rollback mi _, w =>
    match (w.managed mi).claimSession with
    | .ok v => some (w.setManaged mi v, [.ret (.failed .rpc)])
    | .error _ => some (w, [.ret (.failed .rpc)])

/-! ## The control loop -/

/-- A clock reading is more than `limit` after `start`. -/
def World.expired (w : World) (start : Option Time) (limit : Time) : Bool :=
  match start with
  | some t => decide (limit < w.now - t)
  | none => false

/-- What `phaseHealthCheck` stores; `none` is a failed check. -/
def ManagedInstance.healthChecked (v : ManagedInstance) (now : Time) :
    Option Int → ManagedInstance
  | none => { v with
      consecutiveHealthFailures := v.consecutiveHealthFailures + 1
      consecutiveHealthSuccesses := 0 }
  | some remoteCount =>
    let v := { v with
      consecutiveHealthFailures := 0
      consecutiveHealthSuccesses := v.consecutiveHealthSuccesses + 1 }
    if remoteCount = v.sessionCount then v
    else if remoteCount = 0 ∧ v.state = .active then
      { v with sessionCount := remoteCount, state := .ready, idleSince := some now }
    else if remoteCount > 0 ∧ v.state = .ready then
      { v with sessionCount := remoteCount, state := .active, idleSince := none }
    else { v with sessionCount := remoteCount }

/-- The first half of `phaseHandleUnhealthy`: unhealthy instances are drained. -/
def ManagedInstance.drainUnhealthy (v : ManagedInstance) (config : FleetConfig) (now : Time) :
    ManagedInstance :=
  if v.state.routable ∧ v.consecutiveHealthFailures ≥ config.unhealthyThreshold then
    match v.transitionTo .draining with
    | .ok v => { v with drainReason := some .health, drainStarted := some now }
    | .error _ => v
  else v

/-- The second half: health-drained instances recover. -/
def ManagedInstance.recoverDrained (v : ManagedInstance) (config : FleetConfig) (now : Time) :
    ManagedInstance :=
  if v.state = .draining ∧ v.drainReason = some .health ∧
      v.consecutiveHealthSuccesses ≥ config.healthyThreshold then
    match v.transitionTo .ready with
    | .ok v => { v with drainReason := none, drainStarted := none, idleSince := some now }
    | .error _ => v
  else v

/-- `phaseScaleUp` counts an instance as ready. -/
def ManagedInstance.hasCapacity (v : ManagedInstance) : Bool :=
  v.state.routable && decide (v.sessionCount < v.maxSessions)

/-- `phaseScaleDown` counts an instance as idle. -/
def ManagedInstance.idle (v : ManagedInstance) : Bool :=
  v.state == .ready && v.sessionCount == 0

/-- The six phases of `runIteration`. -/
def runIteration : List LoopOp :=
  [.phaseHealthCheck, .phaseHandleUnhealthy, .phaseScaleUp, .phaseScaleDown,
    .phaseDrainCompletion, .phaseProvisioningCompletion]

def LoopOp.exec (x : Choice) : LoopOp → World → Option (World × List Op)
  | .wait, w =>
    match x with
    | .ok => some (w, runIteration.map .loop ++ [.loop .wait])
    | .done => if w.cancelled then some ({ w with loopDone := true }, []) else none
    | _ => none
  | .phaseHealthCheck, w =>
    (w.rangeInstances x).map fun l => (w, l.map fun mi => .loop (.healthRead mi))
  | .healthRead mi, w =>
    some (w, if (w.managed mi).state.routable ∨ (w.managed mi).state = .draining then
      [.loop (.healthCheck mi)] else [])
  | .healthCheck mi, w =>
    match x with
    | .healthy n => some (w, [.loop (.healthStore mi (some n))])
    | .error => some (w, [.loop (.healthStore mi none)])
    | _ => none
  | .healthStore mi result, w =>
    some (w.setManaged mi ((w.managed mi).healthChecked w.now result), [])
  | .phaseHandleUnhealthy, w =>
    (w.rangeInstances x).map fun l => (w, l.map fun mi => .loop (.handleUnhealthy mi))
  | .handleUnhealthy mi, w =>
    some (w.setManaged mi
      (((w.managed mi).drainUnhealthy w.config w.now).recoverDrained w.config w.now), [])
  | .phaseScaleUp, w =>
    (w.rangeInstances x).map fun l => (w, [.loop (.scaleUp l.length l 0)])
  | .scaleUp total (mi :: todo) readyCount, w =>
    some (w, [.loop (.scaleUp total todo
      (if (w.managed mi).hasCapacity then readyCount + 1 else readyCount))])
  | .scaleUp total [] readyCount, w =>
    some (w, if readyCount ≥ w.config.warmPoolTarget ∨ total ≥ w.config.maxInstances ∨
      w.pendingLaunches ≥ w.config.maxConcurrentProvisions then []
      else [.provision .warm .checkTotal])
  | .phaseScaleDown, w =>
    (w.rangeInstances x).map fun l => (w, [.loop (.scaleDown l.length l 0 [])])
  | .scaleDown total (mi :: todo) idleCount candidates, w =>
    some (w, [.loop (if (w.managed mi).idle then
      .scaleDown total todo (idleCount + 1)
        (if w.expired (w.managed mi).idleSince w.config.idleCooldown then candidates ++ [mi]
          else candidates)
      else .scaleDown total todo idleCount candidates)])
  | .scaleDown total [] idleCount candidates, w =>
    some (w, [.loop (.scaleDownDrain total idleCount candidates)])
  | .scaleDownDrain _ _ [], w => some (w, [])
  | .scaleDownDrain total idleCount (mi :: candidates), w =>
    if total ≤ w.config.minInstances ∨ idleCount ≤ w.config.warmPoolTarget then some (w, [])
    else if (w.managed mi).idle then
      match (w.managed mi).transitionTo .draining with
      | .ok v => some (w.setManaged mi
            { v with drainReason := some .scaleDown, drainStarted := some w.now },
          [.loop (.scaleDownDrain (total - 1) (idleCount - 1) candidates)])
      | .error _ => some (w, [.loop (.scaleDownDrain total idleCount candidates)])
    else some (w, [.loop (.scaleDownDrain total idleCount candidates)])
  | .phaseDrainCompletion, w =>
    (w.rangeInstances x).map fun l => (w, [.loop (.drain l [])])
  | .drain [] toRemove, w =>
    some (w, if toRemove = [] then [] else [.loop (.remove toRemove)])
  | .drain (mi :: todo) toRemove, w =>
    let v := w.managed mi
    some (w, [.loop (.drainDecide mi v.state v.sessionCount v.drainStarted todo toRemove)])
  | .drainDecide mi state sessions drainStarted todo toRemove, w =>
    some (w, if state = .draining then
        if w.expired drainStarted w.config.drainTimeout then
          [.terminate (.drain mi true todo toRemove)]
        else if sessions = 0 then [.terminate (.drain mi false todo toRemove)]
        else [.loop (.drain todo toRemove)]
      else if state = .terminating then [.terminate (.stuck mi todo toRemove)]
      else [.loop (.drain todo toRemove)])
  | .drainTerminated mi todo toRemove, w =>
    some (w.setManaged mi { w.managed mi with state := .terminating },
      [.loop (.drain todo toRemove)])
  | .drainRetry mi todo toRemove, w =>
    some (w.setManaged mi
      { w.managed mi with terminateRetries := (w.managed mi).terminateRetries + 1 },
      [.loop (.drain todo toRemove)])
  | .phaseProvisioningCompletion, w =>
    (w.rangeInstances x).map fun l => (w, [.loop (.provisioning l [])])
  | .provisioning [] toRemove, w =>
    some (w, if toRemove = [] then [] else [.loop (.remove toRemove)])
  | .provisioning (mi :: todo) toRemove, w =>
    let v := w.managed mi
    some (w, [.loop (if v.state = .provisioning then
      .provisioningDecide mi v.provisionStarted todo toRemove else .provisioning todo toRemove)])
  | .provisioningDecide mi provStarted todo toRemove, w =>
    some (w, if w.expired provStarted w.config.provisionTimeout then
        [.terminate (.provision mi todo toRemove)]
      else [.loop (.provisioningCheck mi todo toRemove)])
  | .provisioningCheck mi todo toRemove, w =>
    match x with
    | .healthy _ => some (w, [.loop (.provisioningReady mi todo toRemove)])
    | .error => some (w, [.loop (.provisioning todo toRemove)])
    | _ => none
  | .provisioningReady mi todo toRemove, w =>
    match (w.managed mi).transitionTo .ready with
    | .ok v => some (w.setManaged mi { v with idleSince := some w.now },
        [.loop (.provisioning todo toRemove)])
    | .error _ => some (w, [.loop (.provisioning todo toRemove)])
  | .provisioningTerminated mi todo toRemove, w =>
    some (w.setManaged mi { w.managed mi with state := .terminating },
      [.loop (.provisioning todo toRemove)])
  | .remove ids, w => some (w.removeInstances ids, [])

/-! ## TerminateInstance -/

def Terminator.mi : Terminator → MiRef
  | .drain mi _ _ _ | .stuck mi _ _ | .provision mi _ _ | .close mi => mi

/-- How the caller goes on when `TerminateInstance(id)` has succeeded. -/
def Terminator.succeeded (id : String) : Terminator → List Op
  | .drain mi _ todo toRemove => [.loop (.drainTerminated mi todo (toRemove ++ [id]))]
  | .stuck _ todo toRemove => [.loop (.drain todo (toRemove ++ [id]))]
  | .provision mi todo toRemove => [.loop (.provisioningTerminated mi todo (toRemove ++ [id]))]
  | .close _ => []

/-- How it goes on after an error. Only a drain that has not timed out counts it. -/
def Terminator.failed : Terminator → List Op
  | .drain _ true todo toRemove => [.loop (.drain todo toRemove)]
  | .drain mi false todo toRemove => [.loop (.drainRetry mi todo toRemove)]
  | .stuck _ todo toRemove => [.loop (.drain todo toRemove)]
  | .provision _ todo toRemove => [.loop (.provisioning todo toRemove)]
  | .close _ => []

def Terminator.exec (x : Choice) (t : Terminator) (w : World) : Option (World × List Op) :=
  match x with
  | .ok => some (w.terminateHost t.mi, t.succeeded (w.managed t.mi).instanceID)
  | .error => some (w, t.failed)
  | _ => none

/-! ## RecoverInstances and Close -/

def RecoverOp.exec (x : Choice) : RecoverOp → World → Option (World × List Op)
  | .list, w =>
    match x with
    | .listed ids =>
      if ids.all (w.cloud.contains ·) then
        some (w, ids.map fun id => .recover (.checkExists id))
      else none
    | .error => some (w, [])
    | _ => none
  | .checkExists id, w =>
    some (w, if (w.getInstance id).isSome then [] else [.recover (.client id)])
  | .client id, w =>
    match x with
    | .ok => some (w, [.recover (.insert id)])
    | .error => some (w, [])
    | _ => none
  | .insert id, w =>
    some (w.insertInstance
      { instanceID := id, state := .provisioning, maxSessions := w.config.maxSessionsPerInstance,
        provisionStarted := some w.now }, [])

def CloseOp.exec (x : Choice) : CloseOp → World → Option (World × List Op)
  | .start, w =>
    if w.closed then some (w, [])
    else some ({ w with closed := true },
      [.close .cancelLoop, .close .waitLoop, .close .collect])
  | .cancelLoop, w => some ({ w with cancelled := true }, [])
  | .waitLoop, w => if w.loopDone then some (w, []) else none
  | .collect, w =>
    if w.config.leaveInstancesOnClose then some (w, [])
    else (w.rangeInstances x).map fun l =>
      (w, (l.flatMap fun mi => [.close (.mark mi), .terminate (.close mi)]) ++ [.close .swap])
  | .mark mi, w => some (w.setManaged mi { w.managed mi with state := .terminating }, [])
  | .swap, w => some ({ w with instances := [] }, [])

/-! ## The machine -/

def execOp (x : Choice) : Op → World → Option (World × List Op)
  | .create op, w => op.exec x w
  | .provision o op, w => op.exec o x w
  | .destroy op, w => op.exec x w
  | .loop op, w => op.exec x w
  | .terminate t, w => t.exec x w
  | .recover op, w => op.exec x w
  | .close op, w => op.exec x w
  | .ret _, w => some (w, [])
  | .tick d, w => some ({ w with now := w.now + d }, [])

def exec (x : Choice) (op : Op) (w : World) : Option (Outcome World Op) :=
  (execOp x op w).map fun p => ⟨p.1, p.2, []⟩

/-- The exported methods, and time. -/
def apiEntry (_ : World) : Op → Bool
  | .create .start | .destroy (.start _) | .recover .list | .close .start | .tick _ => true
  | _ => false

def machine (entry : World → Op → Bool) : Machine World Op Choice := ⟨exec, entry⟩

/-- A friendly environment for schedules: calls succeed, and the map is ranged over
in the order `mis`. -/
def defaultChoice (mis : List MiRef) : Op → Choice
  | .create (.select _) | .close .collect | .loop .phaseHealthCheck
  | .loop .phaseHandleUnhealthy | .loop .phaseScaleUp | .loop .phaseScaleDown
  | .loop .phaseDrainCompletion | .loop .phaseProvisioningCompletion => .order mis
  | .create (.rpc _) => .session "s-1"
  | .provision _ (.launch _) => .launched "i-1"
  | .loop (.healthCheck _) | .loop (.provisioningCheck _ _ _) => .healthy 0
  | _ => .ok

/-- A fleet without instances, in a cloud that may hold instances of an earlier
fleet. -/
def World.initial (config : FleetConfig) (cloud : List String) (hosts : String → Host) :
    World where
  config := config
  now := 0
  instances := []
  managed := fun _ => { instanceID := "", state := .provisioning, maxSessions := 0 }
  nManaged := 0
  pendingLaunches := 0
  closed := false
  cancelled := false
  loopDone := false
  roundRobin := 0
  cloud := cloud
  hosts := hosts

/-- `NewFleetSandboxControl` and `StartControlLoop`. -/
def initialConfig (config : FleetConfig) (cloud : List String) (hosts : String → Host) :
    Config World Op :=
  ⟨World.initial config cloud hosts, [[.loop .wait]]⟩

/-- The first `CreateSandbox` of a fleet, as thread 1: it provisions instance `i-1`
and creates session `s-1` there. -/
def firstSandbox : List (Label Op Choice) :=
  [.call (.create .start), .go 1 1, .run 1 (.order []), .go 1 14]

/-- The thread of the control loop makes an iteration in which the health check of the
one instance fails, and begins the next one. -/
def unhealthyIteration : List (Label Op Choice) := [.go 0 3, .run 0 .error, .go 0 18]

/-- A configuration in which one failed check drains and one good check recovers. -/
def eagerConfig : FleetConfig :=
  { defaultFleetConfig with unhealthyThreshold := 1, healthyThreshold := 1, warmPoolTarget := 0 }

end FlexAgentRuntime.Fleet
