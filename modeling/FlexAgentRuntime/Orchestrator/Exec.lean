import Mathlib.Data.List.Sort
import FlexAgentRuntime.Orchestrator.World

/-!
The actions of `orchestrator.go`, `session.go`, `proxy.go` and `health.go`, and
the machine they make together with the shared `AgentLoopService`.

A backend call succeeds (`ok`) or fails without effect (`error`), as the
environment says; with a context that is done it can only fail. The joined errors
of a teardown are not kept.
-/

namespace FlexAgentRuntime.Orchestrator

open AgentLoop (Choice)
open Interleaving

/-! ## Backends -/

/-- The context is cancelled or past its deadline. -/
def Ctx.done (w : World) : Ctx → Bool
  | .background => false
  | .create expired => expired || w.orch.cancelled

/-- A call with an effect on the backend. -/
def attempt (x : Choice) (can : Bool) (w w' : World) : Option (World × List Op) :=
  match x with
  | .ok => if can then some (w', []) else none
  | .error _ => some (w, [])
  | _ => none

/-- The shared service ignores the context; closing an RPC client does nothing. -/
def Backend.exec (x : Choice) (done : Bool) : Backend → World → Option (World × List Op)
  | .destroySession .shared id, w => some (w, [.loop (.svc (.destroySession id))])
  | .destroySession (.remote a) id, w => attempt x (!done && w.answers a) w
      (w.setAgent a fun v => { v with sessions := v.sessions.filter (· ≠ id) })
  | .abort .shared id reason, w => some (w, [.loop (.svc (.abort id reason))])
  | .abort (.remote _) _ _, w => some (w, [])
  | .closeService .shared, w => some (w, [.loop (.svc .close)])
  | .closeService (.remote _), w => some (w, [])
  | .killProcess p, w => attempt x (!done) w (w.setProcess p fun v => { v with running := false })
  | .destroySandbox s, w => attempt x (!done) w
      ((w.setSandbox s fun v => { v with destroyed := true }).stopProcesses s)

/-! ## CreateSession -/

def ret (e : EntryRef) (err : Option OrchestratorError) : Op := .orch (.ret (some e) err)

/-- `addSession`: why the entry is refused. -/
def World.addSessionErr (w : World) (e : EntryRef) : Option OrchestratorError :=
  let id := (w.entries e).sessionID
  if w.orch.closing then some .shuttingDown
  else if w.orch.config.maxSessions > 0 && w.orch.sessions.length ≥ w.orch.config.maxSessions then
    some .maxSessions
  else if (w.getSessionEntry id).isSome then some (.alreadyExists id)
  else none

/-- What the entry holds when its session has been created. -/
def SessionEntry.filled (v : SessionEntry) (s : SandboxRef) (p : Option ProcessRef)
    (svc : ServiceRef) : SessionEntry :=
  { v with
    remoteSessionID := v.sessionID
    sandbox := some s
    process := p
    agentService := some svc
    state := .active
    healthFailures := 0
    healthErr := none }

/-- The compensation for a session that could not be added. The shared service is
not closed here. -/
def cleanupSession (id : String) (s : SandboxRef) (p : Option ProcessRef) :
    ServiceRef → List Backend
  | .shared => [.destroySession .shared id, .destroySandbox s]
  | .remote a => [.destroySession (.remote a) id, .closeService (.remote a)] ++
      (match p with
        | some p => [.killProcess p]
        | none => []) ++ [.destroySandbox s]

/-- The first backend call after the sandbox. -/
def PlacementMode.afterSandbox (s : SandboxRef) : PlacementMode → CreateOp
  | .toolsSandbox => .createShared s
  | .agentDirect | .agentSandbox => .launchProcess s

def CreateOp.exec (e : EntryRef) (cfg : AgentLoop.SessionConfig) (expired : Bool) (x : Choice) :
    CreateOp → World → Option (World × List Op)
  | .createSandbox, w =>
    match x with
    | .ok => if Ctx.done w (.create expired) then none
        else some (w.newSandbox e,
          [.create e cfg expired ((w.entries e).placement.afterSandbox w.nSandboxes)])
    | .error msg => some (w, [.create e cfg expired (.abandon (.backend msg) [])])
    | _ => none
  | .launchProcess s, w =>
    match x with
    | .ok => if Ctx.done w (.create expired) then none
        else some (w.newProcess s, [.create e cfg expired (.connect s w.nProcesses)])
    | .error msg => some (w, [.create e cfg expired (.abandon (.backend msg) [.destroySandbox s])])
    | _ => none
  -- AgentServiceFactory has no context
  | .connect s p, w =>
    match x with
    | .ok => some (w.newAgent p, [.create e cfg expired (.createSession s p w.nAgents)])
    | .error msg => some (w, [.create e cfg expired
        (.abandon (.backend msg) [.killProcess p, .destroySandbox s])])
    | _ => none
  | .createSession s p a, w =>
    let id := (w.entries e).sessionID
    match x with
    | .ok => if Ctx.done w (.create expired) || !w.answers a then none
        else some (w.setAgent a fun v => { v with sessions := v.sessions ++ [id] },
          [.create e cfg expired (.addSession s (some p) (.remote a))])
    | .error msg => some (w, [.create e cfg expired
        (.abandon (.backend msg) (cleanupSession id s (some p) (.remote a)))])
    | _ => none
  | .createShared s, w =>
    let cfg' := { cfg with sessionID := (w.entries e).sessionID }
    match AgentLoop.SvcOp.exec x (.createSession cfg') w.loop with
    | some (loop, []) => some ({ w with loop := loop },
        [.create e cfg expired (.addSession s none .shared)])
    | some (loop, _ :: _) => some ({ w with loop := loop }, [.create e cfg expired
        (.abandon (.backend "create session") [.destroySandbox s])])
    | none => none
  | .addSession s p svc, w =>
    let w' := w.setEntry e fun v => v.filled s p svc
    let id := (w.entries e).sessionID
    match w.addSessionErr e with
    | some err => some (w', [.create e cfg expired (.abandon err (cleanupSession id s p svc))])
    | none => some (w'.setOrch fun o => { o with sessions := o.sessions ++ [(id, e)] },
        [ret e none])
  | .abandon err cleanup, w =>
    some (w, cleanup.map (.backend e (.create expired)) ++ [ret e (some err)])

/-! ## Teardown, pause, resume, proxies and health checks -/

/-- `remoteSessionID`, or the client's id when that is blank. -/
def SessionEntry.remoteID (v : SessionEntry) : String :=
  if Ai.trimSpace v.remoteSessionID = "" then v.sessionID else v.remoteSessionID

/-- The backend calls of `destroySessionEntry`, in their order. The service is
closed whatever the placement. -/
def SessionEntry.teardown (v : SessionEntry) : List Backend :=
  (match v.agentService with
    | some svc => [.destroySession svc v.remoteID]
    | none => []) ++
  (match v.process, v.sandbox with
    | some p, some _ => [.killProcess p]
    | _, _ => []) ++
  (match v.sandbox with
    | some s => [.destroySandbox s]
    | none => []) ++
  (match v.agentService with
    | some svc => [.closeService svc]
    | none => [])

def ProxyRequest.op (id : String) : ProxyRequest → AgentLoop.SvcOp
  | .sendMessage message => .sendMessage id message
  | .continueTurn => .continueTurn id
  | .steer message => .steer id message
  | .followUp message => .followUp id message
  | .abort reason => .abort id reason
  | .subscribeEvents => .subscribeEvents id
  | .resumeSession cfg log => .resumeSession { cfg with sessionID := id } log

/-- Health checks leave these states alone. -/
def SessionState.unchecked : SessionState → Bool
  | .creating | .paused | .destroyed => true
  | .active | .unhealthy => false

def SessionEntry.activated (v : SessionEntry) : SessionEntry :=
  { v with state := .active, healthFailures := 0, healthErr := none }

def SessionEntry.unlocked (v : SessionEntry) : SessionEntry := { v with locked := false }

/-- `abort` before a lossy pause. -/
def SessionEntry.abortForPause (v : SessionEntry) (config : OrchestratorConfig) :
    Except OrchestratorError (List Backend) :=
  if config.directPause && v.placement == .agentDirect then
    match v.agentService with
    | some svc => .ok [.abort svc v.remoteSessionID
        "pause: lossy sandbox pause requires agent stop"]
    | none => .error .noAgentService
  else .ok []

def EntryOp.exec (e : EntryRef) (x : Choice) : EntryOp → World → Option (World × List Op)
  | .destroy _, w =>
    let v := w.entries e
    if v.locked then none
    else some (w.setEntry e fun v => { v with locked := true },
      v.teardown.map (.backend e .background) ++ [.entry e .destroyed])
  | .destroyed, w =>
    some ((w.setEntry e fun v => { v with state := .destroyed, locked := false }).setOrch
      fun o => { o with sessions := o.sessions.filter (·.1 ≠ (w.entries e).sessionID) },
      [ret e none])
  | .pause, w =>
    let v := w.entries e
    if v.locked then none
    else if v.state ≠ .active then
      some (w, [ret e (some (.notInState v.sessionID v.state .active))])
    else if v.sandbox.isNone then some (w, [ret e (some .noSandboxControl)])
    else match v.abortForPause w.orch.config with
      | .error err => some (w, [ret e (some err)])
      | .ok calls => some (w.setEntry e fun v => { v with locked := true },
          calls.map (.backend e .background) ++ [.entry e .pauseSandbox])
  | .pauseSandbox, w =>
    match (w.entries e).sandbox, x with
    | some s, .ok =>
      let w' := (w.setSandbox s fun v => { v with paused := true }).setEntry e
        fun v => { v with state := .paused, locked := false }
      -- stopping the instance of the direct backend ends what runs on it
      some (if (w.entries e).placement = .agentDirect then w'.stopProcesses s else w',
        [ret e none])
    | _, .error msg => some (w.setEntry e SessionEntry.unlocked, [ret e (some (.backend msg))])
    | _, _ => none
  | .resume, w =>
    let v := w.entries e
    if v.locked then none
    else if v.state ≠ .paused then
      some (w, [ret e (some (.notInState v.sessionID v.state .paused))])
    else if v.sandbox.isNone then some (w, [ret e (some .noSandboxControl)])
    else some (w.setEntry e fun v => { v with locked := true }, [.entry e .resumeSandbox])
  | .resumeSandbox, w =>
    match (w.entries e).sandbox, x with
    | some s, .ok =>
      let w' := w.setSandbox s fun v => { v with paused := false }
      if (w.entries e).placement = .agentDirect then some (w', [.entry e .relaunch])
      else some (w'.setEntry e fun v => v.activated.unlocked, [ret e none])
    | _, .error msg => some (w.setEntry e SessionEntry.unlocked, [ret e (some (.backend msg))])
    | _, _ => none
  | .relaunch, w =>
    match (w.entries e).sandbox, x with
    | some s, .ok => some (w.newProcess s, [.entry e (.reconnect w.nProcesses)])
    | _, .error msg => some (w.setEntry e SessionEntry.unlocked, [ret e (some (.backend msg))])
    | _, _ => none
  | .reconnect p, w =>
    match x with
    | .ok => some (w.newAgent p,
        (match (w.entries e).agentService with
          | some svc => [.backend e .background (.closeService svc)]
          | none => []) ++ [.entry e (.reconnected p w.nAgents)])
    | .error msg => some (w, [.backend e .background (.killProcess p), .entry e .unlock,
        ret e (some (.backend msg))])
    | _ => none
  | .reconnected p a, w =>
    some (w.setEntry e fun v =>
      { v.activated.unlocked with process := some p, agentService := some (.remote a) },
      [ret e none])
  | .unlock, w => some (w.setEntry e SessionEntry.unlocked, [])
  -- snapshotProxyTarget, then the call on the service
  | .proxy req, w =>
    let v := w.entries e
    if v.locked then none
    else if v.state = .unhealthy then
      some (w, [ret e (some (.unhealthy v.sessionID v.healthErr))])
    else match v.agentService with
      | none => some (w, [ret e (some .noAgentService)])
      | some .shared => some (w, [.loop (.svc (req.op v.remoteID))])
      | some (.remote _) => some (w, [])
  | .probe, w =>
    let v := w.entries e
    if v.locked then none
    else if v.state.unchecked then some (w, [])
    else some (w, [.entry e .verdict])
  | .verdict, w =>
    let v := w.entries e
    if v.locked then none
    else if v.state.unchecked then some (w, [])
    else match x with
      | .ok => some (w.setEntry e SessionEntry.activated, [])
      | .error msg => some (w.setEntry e fun v => { v with
          state := .unhealthy, healthFailures := v.healthFailures + 1, healthErr := some msg }, [])
      | _ => none

/-! ## The orchestrator -/

/-- `validatePlacement`. -/
def OrchestratorConfig.configured (config : OrchestratorConfig) : PlacementMode → Bool
  | .agentDirect => config.directControl
  | .agentSandbox => config.nodeControl
  | .toolsSandbox => config.agentLoopService && config.nodeControl

/-- `listSessionEntries`: in the order of their creation. -/
def World.listSessionEntries (w : World) : List EntryRef :=
  (w.orch.sessions.map (·.2)).insertionSort (· ≤ ·)

/-- `beginOperation`, and `endOperation` when the call returns. -/
def World.beginOperation (w : World) (op : OrchOp) : World × List Op :=
  if w.orch.closing then (w, [.orch (.ret none (some .shuttingDown))])
  else (w.setOrch fun o => { o with wg := o.wg + 1 }, [.orch op, .orch .endOperation])

/-- `getSessionEntry`, then an action on the entry. -/
def World.withEntry (w : World) (id : String) (op : EntryOp) : World × List Op :=
  match w.getSessionEntry id with
  | some e => (w, [.entry e op])
  | none => (w, [.orch (.ret none (some (.notFound id)))])

def OrchOp.exec (x : Choice) : OrchOp → World → Option (World × List Op)
  | .createSession placement cfg, w => some (w.beginOperation (.place placement cfg))
  | .place none _, w => some (w, [.orch (.ret none (some .invalidPlacement))])
  | .place (some placement) cfg, w =>
    if w.orch.config.configured placement then
      some (w.newEntry placement, [.create w.nEntries cfg false .createSandbox])
    else some (w, [.orch (.ret none (some (.notConfigured placement)))])
  | .destroySession id, w => some (w.beginOperation (.lookupDestroy id))
  | .lookupDestroy id, w => some (w.withEntry id (.destroy false))
  | .pauseSession id, w => some (w.withEntry id .pause)
  | .resumeSessionSandbox id, w => some (w.withEntry id .resume)
  | .proxy id req, w => some (w.withEntry id (.proxy req))
  | .resumeSession id cfg log, w => some (w.beginOperation (.lookupResume id cfg log))
  | .lookupResume id cfg log, w =>
    if Ai.trimSpace id = "" then some (w, [.orch (.ret none (some .sessionIDRequired))])
    else some (w.withEntry id (.proxy (.resumeSession cfg log)))
  | .endOperation, w => some (w.setOrch fun o => { o with wg := o.wg - 1 }, [])
  | .close, w =>
    if w.orch.closing then some (w, [])
    else some (w.setOrch fun o => { o with closing := true },
      [.orch .cancelLifecycle, .orch .waitHealth, .orch .waitOperations, .orch .closeSessions])
  | .cancelLifecycle, w => some (w.setOrch fun o => { o with cancelled := true }, [])
  | .waitHealth, w => if w.orch.healthDone then some (w, []) else none
  | .waitOperations, w => if w.orch.wg = 0 then some (w, []) else none
  | .closeSessions, w =>
    some (w, w.listSessionEntries.map (fun e => .entry e (.destroy true)) ++ [.orch .closeShared])
  | .closeShared, w =>
    some (w, if w.orch.config.agentLoopService then [.loop (.svc .close)] else [])
  -- one turn of runHealthLoop: a tick, or the end of the context
  | .healthTick, w =>
    match x with
    | .go => some (w, w.listSessionEntries.map (fun e => .entry e .probe) ++ [.orch .healthTick])
    | .done =>
      if w.orch.cancelled then some (w.setOrch fun o => { o with healthDone := true }, [])
      else none
    | _ => none
  | .ret _ _, w => some (w, [])

/-! ## The machine -/

/-- Actions without effect on the shared service start no goroutine. -/
def plain (r : Option (World × List Op)) : Option (Outcome World Op) :=
  r.map fun s => ⟨s.1, s.2, []⟩

def exec (x : Choice) : Op → World → Option (Outcome World Op)
  | .orch op, w => plain (op.exec x w)
  -- the deadline of createCtx can pass at any time
  | .create e cfg expired op, w =>
    match x with
    | .timeout => if expired then none else some ⟨w, [.create e cfg true op], []⟩
    | _ => plain (op.exec e cfg expired x w)
  | .entry e op, w => plain (op.exec e x w)
  | .backend _ ctx call, w => plain (call.exec x (ctx.done w) w)
  | .loop op, w => (AgentLoop.exec x op w.loop).map fun o =>
      ⟨{ w with loop := o.state }, o.more.map .loop, o.spawn.map (·.map .loop)⟩

/-- What clients may do at any time: the API of the orchestrator, and reading and
closing the receivers it has handed out; a driver of the shared service other than
`NativeDriver` may emit events. -/
def apiEntry (w : World) : Op → Bool
  | .orch (.createSession _ _) | .orch (.destroySession _) | .orch (.pauseSession _)
  | .orch (.resumeSessionSandbox _) | .orch (.proxy _ _) | .orch (.resumeSession _ _ _)
  | .orch .close => true
  | .loop (.recv r rop) => AgentLoop.serviceEntry w.loop (.recv r rop)
  | .loop (.agent m aop) => AgentLoop.serviceEntry w.loop (.agent m aop)
  | _ => false

def machine : Machine World Op Choice := ⟨exec, apiEntry⟩

/-- A friendly environment. -/
def defaultChoice : Op → Choice
  | .loop op => AgentLoop.Choice.default op
  | .orch _ => .go
  | .create _ _ _ _ | .entry _ _ | .backend _ _ _ => .ok

def World.initial (config : OrchestratorConfig) (publisher : Bool) (maxSess : Nat) : World where
  orch := ⟨[], false, config, false, 0, false, 0⟩
  entries := fun _ => { sessionID := "", placement := .toolsSandbox }
  nEntries := 0
  sandboxes := fun _ => { owner := 0 }
  nSandboxes := 0
  processes := fun _ => { sandbox := 0 }
  nProcesses := 0
  agents := fun _ => { process := 0 }
  nAgents := 0
  loop := AgentLoop.World.initial publisher maxSess

/-- `New`: no session, and the health loop. -/
def initialConfig (config : OrchestratorConfig) (publisher : Bool) (maxSess : Nat) :
    Config World Op :=
  ⟨World.initial config publisher maxSess, [[.orch .healthTick]]⟩

end FlexAgentRuntime.Orchestrator
