import FlexAgentRuntime.Agent.Loop
import FlexAgentRuntime.Text.Hex

/-!
The actions of `event_bus.go` and `service.go`, and the machine they make
together with the actions of the agent.
-/

namespace FlexAgentRuntime.AgentLoop

open Interleaving Function

/-! ## The event bus -/

namespace EventBus

/-- `subscribe`; a closed bus gives no subscription. -/
def subscribe (b : EventBus) (h : Handler) : EventBus × List Nat :=
  if b.closed then (b, [])
  else ({ b with nextID := b.nextID + 1, subs := b.subs ++ [(b.nextID, h)] }, [b.nextID])

/-- The function `subscribe` returns. -/
def unsubscribe (b : EventBus) (id : Nat) : EventBus :=
  { b with subs := b.subs.filter (·.1 ≠ id) }

end EventBus

/-- One subscriber function called with an event. `id` is the session id the
function captured. -/
def Handler.call (m : MsRef) (id : String) (evt : AgentEvent) : Handler → List Op
  | .publisher => [.ms m (.publish (normalizeSessionEvent id evt))]
  | .tracker t => if isTerminalTurnEvent evt then [.turn t (.doneTurn none)] else []
  | .turn r t => [.recv r (.pushCheck (normalizeSessionEvent id evt) (some t))]
  | .stream r => [.recv r (.pushCheck (normalizeSessionEvent id evt) none)]

/-- The rest of a turn call after its receiver is registered. -/
def Kick.op (m : MsRef) (r : RecvRef) (t : TurnRef) : Kick → Op
  | .send message => .ms m (.readStarted r t message)
  | .resume => .call m (.service r t) .continueClaim

/-- What follows the second `setCloseHook`. -/
def Setup.finish (m : MsRef) (r : RecvRef) : Setup → Op
  | .turn t kick => kick.op m r t
  | .stream => .ms m (.handOut r)

def BusOp.exec (m : MsRef) (id : String) (x : Choice) : BusOp → EventBus →
    Option (EventBus × List Op)
  | .subscribeTracker r t kick, b =>
    let (b, ids) := b.subscribe (.tracker t)
    some (b, [.bus m (.subscribeTurn r t kick ids)])
  | .subscribeTurn r t kick tracker, b =>
    let (b, ids) := b.subscribe (.turn r t)
    some (b, [.recv r (.setCloseHook (.unsubscribe (ids ++ tracker)) (.turn t kick))])
  | .subscribeStream r, b =>
    let (b, ids) := b.subscribe (.stream r)
    some (b, [.recv r (.setCloseHook (.unsubscribe ids) .stream)])
  | .publish evt, b =>
    if b.closed then some (b, []) else some (b, [.bus m (.deliver evt (b.subs.map (·.2)))])
  -- the handlers were collected from a map, so any of them can be next
  | .deliver _ [], b => some (b, [])
  | .deliver evt (h :: hs), b =>
    match x with
    | .pick i =>
      match (h :: hs)[i]? with
      | some h' => some (b, h'.call m id evt ++ [.bus m (.deliver evt ((h :: hs).eraseIdx i))])
      | none => none
    | _ => none
  | .unsubscribe id, b => some (b.unsubscribe id, [])
  | .close sc, b => some ({ b with closed := true, subs := [] }, [.svc (.stopped m (sc, none))])

/-! ## The managed session -/

/-- What `DestroySession` and the loop of `Close` do after `closeAllStreams`. -/
def afterTeardown (m : MsRef) : Teardown → List Op
  | (.direct, _) => []
  | (.destroy id, err) => [.svc (.delete id m err)]
  | (.close todo all, _) => [.svc (.closeNext todo all)]

def MsOp.exec (m : MsRef) (x : Choice) : MsOp → ManagedSession →
    Option (ManagedSession × List Op)
  | .setTurnDone r t kick, s =>
    some ({ s with turnDone := some t }, [.bus m (.subscribeTracker r t kick)])
  | .clearTurnDone t, s => some ({ s with turnDone := none }, [.turn t .onceDone])
  -- Start(ms.ctx, ms.agent.Session(), message) and Prompt(ms.ctx, message) are the same call
  | .readStarted r t message, s =>
    some (s, [.call m (.service r t) (.snapshot message)])
  | .setStarted r, s => some ({ s with started := true }, [.ms m (.handOut r)])
  | .handOut _, s => some (s, [])
  | .addStream r setup, s =>
    some ({ s with streams := s.streams ++ [r] }, [.recv r (.setCloseHook .removeStream setup)])
  | .removeStream r, s => some ({ s with streams := s.streams.filter (· ≠ r) }, [])
  | .completeActiveTurn teardown, s => some ({ s with turnDone := none },
      (match s.turnDone with
        | some t => [.turn t (.doneTurn (some m))]
        | none => []) ++
      (match teardown with
        | some td => [.ms m (.closeAllStreams td)]
        | none => []))
  | .closeAllStreams td, s =>
    some ({ s with streams := [] }, .ms m (.closeStreams s.streams) :: afterTeardown m td)
  | .closeStreams [], s => some (s, [])
  | .closeStreams (r :: rs), s =>
    match x with
    | .pick i =>
      match (r :: rs)[i]? with
      | some r' => some (s, [.recv r' (.close .destroyed),
          .ms m (.closeStreams ((r :: rs).eraseIdx i))])
      | none => none
    | _ => none
  | .publish evt, s => some ({ s with published := s.published ++ [evt] }, [])

/-! ## The receiver -/

def newServiceEventReceiver (owner : MsRef) (turn : Option TurnRef) (buffer : Nat) : Receiver :=
  ⟨owner, turn, if buffer = 0 then 1 else buffer, [], false, .idle, []⟩

def turnStreamBufferSize : Nat := 256
def sessionStreamBufferSize : Nat := 512

def Hook.ops (m : MsRef) (r : RecvRef) : Hook → List Op
  | .unsubscribe ids => ids.map fun id => .bus m (.unsubscribe id)
  | .removeStream => [.ms m (.removeStream r)]

def RecvOp.exec (r : RecvRef) (x : Choice) : RecvOp → Receiver → Option (Receiver × List Op)
  -- the closed flag and the done channel are checked in turn and only ever go one
  -- way, so the second check decides
  | .pushCheck evt turn, v =>
    if v.closed then some (v, []) else some (v, [.recv r (.pushSelect evt turn)])
  -- both cases of the select may be ready; the handler of a turn goes on after the send
  | .pushSelect evt turn, v =>
    match x with
    | .send =>
      if v.ch.length < v.buffer then
        some ({ v with ch := v.ch ++ [evt] },
          match turn with
          | some t =>
            if isTerminalTurnEvent evt then
              [.recv r (.close (.terminal evt)), .turn t (.doneTurn none)]
            else []
          | none => [])
      else none
    | .done => if v.closed then some (v, []) else none
    | _ => none
  | .setCloseHook hook setup, v =>
    let next := match hook with
      | .unsubscribe _ => .ms v.owner (.addStream r setup)
      | .removeStream => setup.finish v.owner r
    if v.closed then some (v, hook.ops v.owner r ++ [next])
    else some ({ v with closeHooks := v.closeHooks ++ [hook] }, [next])
  | .close _, v =>
    match v.once with
    | .idle => some ({ v with closed := true, once := .running, closeHooks := [] },
        v.closeHooks.flatMap (Hook.ops v.owner r) ++ [.recv r .hooksDone])
    | .running => none
    | .done => some (v, [])
  | .hooksDone, v => some ({ v with once := .done }, [])
  | .recv, v =>
    if v.closed && v.ch.isEmpty then some (v, []) else some (v, [.recv r (.recvDrain v.closed)])
  | .recvDrain closed, v =>
    match v.ch with
    | _ :: ch => some ({ v with ch := ch }, [])
    | [] => if closed then some (v, []) else some (v, [.recv r .recvWait])
  | .recvWait, v =>
    match x with
    | .send =>
      match v.ch with
      | _ :: ch => some ({ v with ch := ch }, [])
      | [] => none
    | .done => if v.closed then some (v, [.recv r .recv]) else none
    | _ => none

/-! ## The service -/

namespace World

/-- `len(s.sessions)` and the lookup by id. -/
def lookup (w : World) (id : String) : Option MsRef :=
  (w.svc.sessions.find? (·.1 == id)).map (·.2)

def getSession (w : World) (id : String) : Option MsRef :=
  (w.lookup id).filter fun m => !(w.managed m).destroyed

/-- `fmt.Sprintf("agent-%08x", n)`. -/
def generateSessionID (n : Nat) : String := String.ofList ("agent-".toList ++ Hex.padded 8 n)

/-- The id counter moves on. -/
def setGenerated (w : World) (n : Nat) : World :=
  { w with svc := { w.svc with generated := n } }

def newAgent (cfg : SessionConfig) (id : String) (log : List AgentMessage) : Agent where
  session := some ⟨id, id, log, [.idle], {}⟩
  kind := cfg.driver
  driver := { tools := cfg.tools }
  running := false
  state := .idle
  control := newControlQueue 64
  ctxDone := false

/-- The tail of `CreateSession` and `ResumeSession`: `newManagedSessionLocked`
and the entry in the map. -/
def insertSession (w : World) (cfg : SessionConfig) (id : String) (log : List AgentMessage)
    (started : Bool) : World :=
  let m := w.nManaged
  let bus : EventBus := ⟨0, [], false⟩
  let (bus, ids) := if w.svc.publisher then bus.subscribe .publisher else (bus, [])
  { w with
    svc := { w.svc with sessions := w.svc.sessions ++ [(id, m)] }
    agents := update w.agents m (newAgent cfg id log)
    buses := update w.buses m bus
    managed := update w.managed m ⟨id, started, false, [], none, ids.head?, []⟩
    nManaged := m + 1 }

/-- The checks `CreateSession` and `ResumeSession` share, in their order; the id
is generated when the request has none. -/
def checkCreate (w : World) (cfg : SessionConfig) : Except ServiceError (World × String) :=
  if w.svc.closed then .error .closing
  else if w.svc.maxSess > 0 && w.svc.sessions.length ≥ w.svc.maxSess then .error .maxSessions
  else
    let (w, id) :=
      if cfg.sessionID = "" then
        (w.setGenerated (w.svc.generated + 1), generateSessionID (w.svc.generated + 1))
      else (w, cfg.sessionID)
    if (w.lookup id).isSome then .error (.alreadyExists id) else .ok (w, id)

/-- A failed `checkCreate` has still consumed the generated id. -/
def refused (w : World) (cfg : SessionConfig) : World :=
  if w.svc.closed then w
  else if w.svc.maxSess > 0 && w.svc.sessions.length ≥ w.svc.maxSess then w
  else if cfg.sessionID = "" then w.setGenerated (w.svc.generated + 1)
  else w

/-- `CreateSession` and `ResumeSession`; the environment says whether the model,
the tool catalog and the driver can be built. -/
def create (w : World) (cfg : SessionConfig) (log : List AgentMessage) (started : Bool) :
    Choice → Option (World × List Op)
  | .ok =>
    match w.checkCreate cfg with
    | .ok (w', id) => some (w'.insertSession cfg id log started, [])
    | .error err => some (w.refused cfg, [.svc (.refuse err)])
  | .error msg =>
    match w.checkCreate cfg with
    | .ok (w', _) => some (w', [.svc (.refuse (.invalidArgument msg))])
    | .error err => some (w.refused cfg, [.svc (.refuse err)])
  | _ => none

/-- The calls that look a session up and go on with it. -/
def withSession (w : World) (id : String) (next : MsRef → World × List Op) :
    Option (World × List Op) :=
  if id = "" then some (w, [.svc (.refuse (.invalidArgument "session_id is required"))])
  else match w.getSession id with
    | some m => some (next m)
    | none => some (w, [.svc (.refuse (.notFound id))])

/-- `newTurnScopedReceiver` up to `setTurnDone`: the receiver, the closure and
`s.wg.Add(1)`. -/
def newTurn (w : World) (m : MsRef) : World :=
  { w with
    wg := w.wg + 1
    recvs := update w.recvs w.nRecvs
      (newServiceEventReceiver m (some w.nTurns) turnStreamBufferSize)
    nRecvs := w.nRecvs + 1
    turns := update w.turns w.nTurns ⟨m, .idle⟩
    nTurns := w.nTurns + 1 }

def newStream (w : World) (m : MsRef) : World :=
  { w with
    recvs := update w.recvs w.nRecvs
      (newServiceEventReceiver m none sessionStreamBufferSize)
    nRecvs := w.nRecvs + 1 }

def markDestroyed (w : World) (m : MsRef) : World :=
  w.setManaged m { w.managed m with destroyed := true }

def deleteSession (w : World) (id : String) : World :=
  { w with svc := { w.svc with sessions := w.svc.sessions.filter (·.1 ≠ id) } }

end World

/-- `ms.unsubscribe()`, when there is a publisher. -/
def unsubscribePublisher (m : MsRef) (s : ManagedSession) : List Op :=
  match s.unsubscribe with
  | some id => [.bus m (.unsubscribe id)]
  | none => []

def SvcOp.exec (x : Choice) : SvcOp → World → Option (World × List Op)
  | .createSession cfg, w => w.create cfg [] false x
  | .resumeSession cfg log, w => w.create cfg log true x
  | .sendMessage id message, w =>
    w.withSession id fun m => (w, [.svc (.newTurn m (.send message))])
  | .continueTurn id, w => w.withSession id fun m => (w, [.svc (.newTurn m .resume)])
  | .steer id message, w => w.withSession id fun m => (w, [.agent m (.steerCheck message)])
  | .followUp id message, w =>
    w.withSession id fun m => (w, [.agent m (.enqueueCheck ⟨.followUp, message⟩)])
  | .abort id reason, w =>
    w.withSession id fun m => (w, [.agent m (.enqueueCheck ⟨.abort, reason⟩)])
  | .subscribeEvents id, w =>
    w.withSession id fun m => (w.newStream m, [.agent m (.readState w.nRecvs id)])
  -- DestroySession does not ask whether the session is destroyed already
  | .destroySession id, w =>
    if id = "" then some (w, [.svc (.refuse (.invalidArgument "session_id is required"))])
    else match w.lookup id with
      | none => some (w, [.svc (.refuse (.notFound id))])
      | some m => some (w.markDestroyed m,
          unsubscribePublisher m (w.managed m) ++ [.stop m (.destroy id) .begin_])
  | .close, w =>
    if w.svc.closed then some (w, [])
    else some ({ w with svc := { w.svc with closed := true } },
      [.svc (.closeNext w.svc.sessions w.svc.sessions)])
  | .newTurn m kick, w =>
    some (w.newTurn m, [.ms m (.setTurnDone w.nRecvs w.nTurns kick)])
  | .stopped m td, w =>
    match td.1 with
    | .direct => some (w, [.svc (.ret m (td.2.map .agent))])
    | _ => some (w, [.agent m .cancelSession, .ms m (.completeActiveTurn (some td))])
  | .delete id m err, w =>
    some (w.deleteSession id, [.svc (.destroyReturn m (err.map .agent))])
  | .closeNext [] all, w => some (w, [.svc (.closeDelete all)])
  | .closeNext (p :: todo) all, w =>
    match x with
    | .pick i =>
      match (p :: todo)[i]? with
      | some (_, m) => some (w.markDestroyed m, unsubscribePublisher m (w.managed m) ++
          [.stop m (.close ((p :: todo).eraseIdx i) all) .begin_])
      | none => none
    | _ => none
  | .closeDelete all, w =>
    some (all.foldl (fun w p => w.deleteSession p.1) w, [.svc (.closeWait all)])
  -- wg.Wait() or the drain timeout, then a second pass over the sessions
  | .closeWait all, w =>
    match x with
    | .done => if w.wg = 0 then some (w, [.svc (.closeReturn all none)]) else none
    | .timeout => some (w, [.svc (.closeCancel all all)])
    | _ => none
  | .closeCancel [] all, w => some (w, [.svc (.closeWaitAgain all)])
  | .closeCancel (p :: todo) all, w =>
    match x with
    | .pick i =>
      match (p :: todo)[i]? with
      | some (_, m) => some (w, [.agent m .cancelSession, .ms m (.completeActiveTurn none),
          .svc (.closeCancel ((p :: todo).eraseIdx i) all)])
      | none => none
    | _ => none
  | .closeWaitAgain all, w =>
    match x with
    | .done => if w.wg = 0 then some (w, [.svc (.closeReturn all none)]) else none
    | .timeout => some (w, [.svc (.closeReturn all (some .drainTimeout))])
    | _ => none
  | .closeReturn _ _, w => some (w, [])
  | .destroyReturn _ _, w => some (w, [])
  | .ret _ _, w => some (w, [])
  | .refuse _, w => some (w, [])

/-- `doneTurn`: `s.wg.Done()`, then `ms.clearTurnDone()`, once. -/
def TurnOp.exec (t : TurnRef) : TurnOp → World → Option (World × List Op)
  | .doneTurn _, w =>
    let d := w.turns t
    match d.once with
    | .idle => some ({ w with
        wg := w.wg - 1
        turns := update w.turns t { d with once := .running } },
        [.ms d.ms (.clearTurnDone t)])
    | .running => none
    | .done => some (w, [])
  | .onceDone, w =>
    some ({ w with turns := update w.turns t { w.turns t with once := .done } }, [])

/-! ## The machine -/

def exec (x : Choice) : Op → World → Option (Outcome World Op)
  | .call m caller op, w =>
    (op.exec m caller x (w.agents m)).map fun s => ⟨w.setAgent m s.1, s.2.1, s.2.2⟩
  | .run m k op, w => (op.exec m k x (w.agents m)).map fun s => ⟨w.setAgent m s.1, s.2, []⟩
  | .stop m sc op, w => (op.exec m sc x (w.agents m)).map fun s => ⟨w.setAgent m s.1, s.2, []⟩
  | .agent m op, w =>
    let s := op.exec m (w.agents m)
    some ⟨w.setAgent m s.1, s.2, []⟩
  | .bus m op, w =>
    (op.exec m (w.managed m).sessionID x (w.buses m)).map fun s => ⟨w.setBus m s.1, s.2, []⟩
  | .ms m op, w => (op.exec m x (w.managed m)).map fun s => ⟨w.setManaged m s.1, s.2, []⟩
  | .recv r op, w => (op.exec r x (w.recvs r)).map fun s => ⟨w.setRecv r s.1, s.2, []⟩
  | .turn t op, w => (op.exec t w).map fun s => ⟨s.1, s.2, []⟩
  | .svc op, w => (op.exec x w).map fun s => ⟨s.1, s.2, []⟩

/-- What clients of the service may do at any time: its API, and `Recv` and
`Close` on receivers; a driver other than `NativeDriver` may emit events. -/
def serviceEntry (w : World) : Op → Bool
  | .svc (.createSession _) | .svc (.resumeSession _ _) | .svc (.sendMessage _ _)
  | .svc (.continueTurn _) | .svc (.steer _ _) | .svc (.followUp _ _) | .svc (.abort _ _)
  | .svc (.subscribeEvents _) | .svc (.destroySession _) | .svc .close => true
  | .recv r .recv | .recv r (.close .client) => r < w.nRecvs
  | .agent m (.emit evt) =>
    m < w.nManaged && (w.agents m).kind == .external && evt.origin == .external
  | _ => false

/-- User code that holds an `Agent` may also call `Prompt`, `Continue`, `Stop`
and its control methods, and cancel the context of a run. -/
def agentEntry (w : World) : Op → Bool
  | .call m .direct (.snapshot _) | .call m .direct .continueClaim
  | .stop m .direct .begin_ | .agent m (.enqueueCheck _) => m < w.nManaged
  | .agent m (.cancelContext k) =>
    m < w.nManaged && (w.agents m).driver.contexts[k]? == some .direct
  | op => serviceEntry w op

/-- And `Start` with a session of its own. -/
def startEntry (w : World) : Op → Bool
  | .call m .direct (.startClaim _ _) => m < w.nManaged
  | op => agentEntry w op

def machine (entry : World → Op → Bool) : Machine World Op Choice := ⟨exec, entry⟩

def World.initial (publisher : Bool) (maxSess : Nat) : World where
  svc := ⟨[], publisher, maxSess, false, 0⟩
  wg := 0
  agents := fun _ => World.newAgent ⟨"", .native, []⟩ "" []
  buses := fun _ => ⟨0, [], true⟩
  managed := fun _ => ⟨"", false, false, [], none, none, []⟩
  nManaged := 0
  recvs := fun _ => newServiceEventReceiver 0 none 0
  nRecvs := 0
  turns := fun _ => ⟨0, .done⟩
  nTurns := 0

/-- A friendly environment: sessions can be built, the provider answers with a
text, tools and drivers succeed, and channels and maps are served in order. -/
def Choice.default : Op → Choice
  | .svc (.createSession _) | .svc (.resumeSession _ _) | .call _ _ (.startLoop _ _ _)
  | .stop _ _ .driverStop => .ok
  | .svc (.closeNext _ _) | .svc (.closeCancel _ _) | .bus _ (.deliver _ _)
  | .ms _ (.closeStreams _) => .pick 0
  | .recv _ (.pushSelect _ _) | .recv _ .recvWait => .send
  | .svc (.closeWait _) | .svc (.closeWaitAgain _) => .done
  | .run _ _ .providerStream => .answer { content := [.text "ok" ""], stopReason := .stop }
  | .run _ _ (.toolWait _ _) => .toolResult { content := [] } none
  | _ => .go

/-- `NewAgentLoopService`: no session, no goroutine. -/
def initialConfig (publisher : Bool) (maxSess : Nat) : Config World Op :=
  ⟨World.initial publisher maxSess, []⟩

end FlexAgentRuntime.AgentLoop
