import FlexAgentRuntime.Agent.Effects

/-!
The inversion of `exec`, one relation per kind of action: a constructor for
every branch of the source, with its guard. Proofs about steps split these and
never unfold `exec` itself.
-/

namespace FlexAgentRuntime.AgentLoop

open Interleaving

/-! ## Calls of `Start`, `Prompt` and `Continue` -/

/-- The actions that try to claim the agent. -/
def CallOp.claims : CallOp → Bool
  | .startClaim _ _ | .continueClaim => true
  | _ => false

inductive CallOp.Step (m : MsRef) (caller : Caller) (a : Agent) :
    CallOp → Agent → List Op → List (List Op) → Prop where
  | snapshot {prompt} :
      Step m caller a (.snapshot prompt) a [.call m caller (.startClaim a.session prompt)] []
  | claimRefused {op err} : op.claims = true → Step m caller a op a (callFail m err caller) []
  | startClaimed {session prompt} : a.state ≠ .exited → a.running = false →
      Step m caller a (.startClaim session prompt)
        { a with running := true, session := session <|> a.session }
        [.call m caller (.startTransition prompt)] []
  | continueClaimed {s} : a.state ≠ .exited → a.running = false → a.session = some s →
      Step m caller a .continueClaim { a with running := true }
        [.call m caller (.startLoop (some s) "" true)] []
  | transitionFailed {prompt err} : a.transition .streaming = .error err →
      Step m caller a (.startTransition prompt) a [.call m caller (.startUnclaim err)] []
  | transitioned {prompt a' changed} : a.transition .streaming = .ok (a', changed) →
      Step m caller a (.startTransition prompt) a'
        (emitChange m changed .streaming (.start caller) ++
          [.agent m (.emit { type := .sessionStarted, origin := .start caller }),
           .call m caller (.driverStart prompt)]) []
  | unclaimed {err} : Step m caller a (.startUnclaim err) { a with running := false }
      (callFail m (.agent err) caller) []
  | driverStart {prompt} : Step m caller a (.driverStart prompt) a
      [.call m caller (.startLoop a.session prompt false)] []
  | driverOk {session prompt resume} : a.kind = .external →
      Step m caller a (.startLoop session prompt resume) a (callOk m caller) []
  | startFailed {session prompt err} : Step m caller a (.startLoop session prompt false) a
      [.call m caller (.startFailRecord err)] []
  | resumeFailed {session prompt err} : Step m caller a (.startLoop session prompt true) a
      [.call m caller (.continueFailRecord err)] []
  | driverPanic {session prompt resume err} : a.kind = .external →
      Step m caller a (.startLoop session prompt resume) a (callFail m err caller) []
  | looped {session prompt resume} : a.kind = .native → startLoopErr a session = none →
      Step m caller a (.startLoop session prompt resume)
        (a.setDriver fun d => { d with
          contexts := d.contexts ++ [caller], cancel := some d.contexts.length, running := true })
        [.call m caller (.goRun a.driver.contexts.length prompt)] []
  | goRun {k prompt} : Step m caller a (.goRun k prompt) a (callOk m caller)
      [[.run m k (.top prompt), .run m k .deferred]]
  | failRecord {err} : Step m caller a (.startFailRecord err) a.recordError
      [.call m caller (.startFailClear err)] []
  | failClear {err} : Step m caller a (.startFailClear err) { a with running := false }
      [.call m caller (.startFailIdle err)] []
  | failIdleFailed {err} :
      Step m caller a (.startFailIdle err) a (callFail m (.agent err) caller) []
  | failIdle {err a' changed} : a.transition .idle = .ok (a', changed) →
      Step m caller a (.startFailIdle err) a'
        (emitChange m changed .idle (.start caller) ++ callFail m (.agent err) caller) []
  | continueFailRecord {err} : Step m caller a (.continueFailRecord err) a.recordError
      [.call m caller (.continueFailIdle err)] []
  | continueFailIdle {err} : Step m caller a (.continueFailIdle err) a.onDriverIdle
      (callFail m (.agent err) caller) []

theorem CallOp.step_of_exec {op : CallOp} (h : op.exec m caller x a = some (a', more, spawn)) :
    op.Step m caller a a' more spawn := by
  cases op with try simp only [exec] at h
  | startClaim session prompt =>
    split at h
    · cases h; exact .claimRefused rfl
    · rename_i hst
      split at h <;> cases h
      · exact .claimRefused rfl
      · exact .startClaimed hst (Bool.of_not_eq_true ‹_›)
  | startTransition prompt => split at h <;> cases h <;> constructor <;> assumption
  | startLoop session prompt resume =>
    split at h
    · rename_i hk
      cases x <;> cases h
      · exact .driverOk hk
      · cases resume <;> constructor
      · exact .driverPanic hk
    · rename_i hk
      split at h <;> cases h
      · cases resume <;> constructor
      · exact .looped hk ‹_›
  | startFailIdle err =>
    split at h <;> cases h
    · exact .failIdleFailed
    · exact .failIdle ‹_›
  | continueClaim =>
    split at h
    · cases h; exact .claimRefused rfl
    · rename_i hst
      split at h
      · cases h; exact .claimRefused rfl
      · rename_i hr
        split at h <;> cases h
        · exact .claimRefused rfl
        · exact .continueClaimed hst (by simpa using hr) ‹_›
  | _ => cases h; constructor

/-! ## Stop -/

inductive StopOp.Step (m : MsRef) (sc : StopCaller) (a : Agent) :
    Choice → StopOp → Agent → List Op → Prop where
  | beginExited {x} : a.state = .exited → Step m sc a x .begin_ a [.svc (.stopped m (sc, none))]
  | begin_ {x} : a.state ≠ .exited →
      Step m sc a x .begin_ { a with running := false } [.stop m sc .driverStop]
  | driverStop {x cancels} : a.kind = .native →
      (∀ b ∈ cancels, ∃ k, b = .agent m (.cancelContext k)) →
      Step m sc a x .driverStop (a.setDriver fun d => { d with cancel := none, running := false })
        (cancels ++ [.stop m sc .exit])
  | externalStop {x} : a.kind = .external → Step m sc a x .driverStop a [.stop m sc .exit]
  | externalError {msg} : a.kind = .external →
      Step m sc a (.error msg) .driverStop a [.svc (.stopped m (sc, some (.other msg)))]
  | exitAgain {x err} : a.state = .exited →
      Step m sc a x .exit a [.svc (.stopped m (sc, some err))]
  | exit {x a' changed} : a.transition .exited = .ok (a', changed) →
      Step m sc a x .exit a' (emitChange m changed .exited .stop ++
        [.agent m (.emit { type := .sessionEnded, origin := .stop }), .stop m sc .closeControl])
  | closeControl {x} : Step m sc a x .closeControl
      { a with control := { a.control with closed := true } } [.bus m (.close sc)]

theorem StopOp.step_of_exec {op : StopOp} (h : op.exec m sc x a = some (a', more)) :
    op.Step m sc a x a' more := by
  cases op with try simp only [exec] at h
  | begin_ =>
    split at h <;> cases h
    · exact .beginExited ‹_›
    · exact .begin_ ‹_›
  | driverStop =>
    split at h
    · rename_i hk
      cases h
      refine .driverStop hk fun b hb => ?_
      split at hb
      · exact ⟨_, List.mem_singleton.mp hb⟩
      · cases hb
    · cases h; exact .externalStop ‹_›
    · cases h; exact .externalError ‹_›
    · cases h
  | exit =>
    split at h <;> cases h
    · exact .exitAgain (Agent.transition_exited ‹_›)
    · exact .exit ‹_›
  | closeControl => cases h; exact .closeControl

/-! ## Events and control commands -/

/-- The stages of `Steer`, `FollowUp` and `Abort`. -/
def AgentOp.isControl : AgentOp → Bool
  | .steerCheck _ | .enqueueCheck _ | .enqueueSend _ => true
  | _ => false

inductive AgentOp.Step (m : MsRef) (a : Agent) : AgentOp → Agent → List Op → Prop where
  | cancelContext {k} : Step m a (.cancelContext k)
      (a.setDriver fun d => { d with cancelled := k :: d.cancelled }) []
  | cancelSession : Step m a .cancelSession { a with ctxDone := true } []
  | emit {evt} : Step m a (.emit evt) a [.bus m (.publish (fillEvent a evt))]
  | readState {r id} : Step m a (.readState r id) a
      [.recv r (.pushCheck (normalizeSessionEvent id
          { type := .stateChange, origin := .subscribe, state := some a.state }) none),
        .bus m (.subscribeStream r)]
  | refused {op err} : op.isControl = true → Step m a op a [.svc (.ret m (some err))]
  | steer {msg} : Step m a (.steerCheck msg) a [.agent m (.enqueueCheck ⟨.steer, msg⟩)]
  | enqueueCheck {cmd} : Step m a (.enqueueCheck cmd) a [.agent m (.enqueueSend cmd)]
  | enqueued {cmd} : a.control.closed = false → a.control.ch.length < a.control.buffer →
      Step m a (.enqueueSend cmd)
        { a with control := { a.control with ch := a.control.ch ++ [cmd] } }
        [.agent m (.emit (ackEvent cmd)), .svc (.ret m none)]

theorem AgentOp.step_of_exec (m : MsRef) (op : AgentOp) (a : Agent) :
    op.Step m a (op.exec m a).1 (op.exec m a).2 := by
  cases op with
  | steerCheck | enqueueCheck =>
    simp only [exec]
    split
    · exact .refused rfl
    · constructor
  | enqueueSend cmd =>
    simp only [exec]
    split
    · exact .refused rfl
    · rename_i hc
      split
      · exact .enqueued (by simpa using hc) ‹_›
      · exact .refused rfl
  | _ => constructor

/-! ## The bus -/

inductive BusOp.Step (m : MsRef) (id : String) (b : EventBus) :
    BusOp → EventBus → List Op → Prop where
  | subscribeTracker {r t kick} : Step m id b (.subscribeTracker r t kick)
      (b.subscribe (.tracker t)).1
      [.bus m (.subscribeTurn r t kick (b.subscribe (.tracker t)).2)]
  | subscribeTurn {r t kick tracker} : Step m id b (.subscribeTurn r t kick tracker)
      (b.subscribe (.turn r t)).1
      [.recv r (.setCloseHook (.unsubscribe ((b.subscribe (.turn r t)).2 ++ tracker))
        (.turn t kick))]
  | subscribeStream {r} : Step m id b (.subscribeStream r) (b.subscribe (.stream r)).1
      [.recv r (.setCloseHook (.unsubscribe (b.subscribe (.stream r)).2) .stream)]
  | publishDropped {evt} : b.closed = true → Step m id b (.publish evt) b []
  | publish {evt} : b.closed = false →
      Step m id b (.publish evt) b [.bus m (.deliver evt (b.subs.map (·.2)))]
  | delivered {evt} : Step m id b (.deliver evt []) b []
  | deliver {evt hs i h} : hs[i]? = some h → Step m id b (.deliver evt hs) b
      (h.call m id evt ++ [.bus m (.deliver evt (hs.eraseIdx i))])
  | unsubscribe {n} : Step m id b (.unsubscribe n) (b.unsubscribe n) []
  | close {sc} : Step m id b (.close sc) { b with closed := true, subs := [] }
      [.svc (.stopped m (sc, none))]

theorem BusOp.step_of_exec {m : MsRef} {id : String} {x : Choice} {op : BusOp} {b b' : EventBus}
    {more : List Op} (h : op.exec m id x b = some (b', more)) : op.Step m id b b' more := by
  cases op with
  | publish evt =>
    simp only [exec] at h
    split at h <;> cases h
    · exact .publishDropped ‹_›
    · exact .publish (Bool.of_not_eq_true ‹_›)
  | deliver evt hs =>
    cases hs with
    | nil => cases h; exact .delivered
    | cons h' hs =>
      simp only [exec] at h
      split at h
      · split at h <;> cases h
        exact .deliver ‹_›
      · cases h
  | _ => cases h; constructor

/-! ## The managed session -/

def takenTurn (m : MsRef) : Option TurnRef → List Op
  | some t => [.turn t (.doneTurn (some m))]
  | none => []

inductive MsOp.Step (m : MsRef) (s : ManagedSession) : MsOp → ManagedSession → List Op → Prop where
  | setTurnDone {r t kick} : Step m s (.setTurnDone r t kick) { s with turnDone := some t }
      [.bus m (.subscribeTracker r t kick)]
  | clearTurnDone {t} : Step m s (.clearTurnDone t) { s with turnDone := none }
      [.turn t .onceDone]
  | readStarted {r t msg} : Step m s (.readStarted r t msg) s
      [.call m (.service r t) (.snapshot msg)]
  | setStarted {r} : Step m s (.setStarted r) { s with started := true } [.ms m (.handOut r)]
  | handOut {r} : Step m s (.handOut r) s []
  | addStream {r setup} : Step m s (.addStream r setup) { s with streams := s.streams ++ [r] }
      [.recv r (.setCloseHook .removeStream setup)]
  | removeStream {r} : Step m s (.removeStream r)
      { s with streams := s.streams.filter (· ≠ r) } []
  | completeActiveTurn {td} : Step m s (.completeActiveTurn (some td)) { s with turnDone := none }
      (takenTurn m s.turnDone ++ [.ms m (.closeAllStreams td)])
  | completeAgain : Step m s (.completeActiveTurn none) { s with turnDone := none }
      (takenTurn m s.turnDone)
  | closeAllStreams {td} : Step m s (.closeAllStreams td) { s with streams := [] }
      (.ms m (.closeStreams s.streams) :: afterTeardown m td)
  | streamsClosed : Step m s (.closeStreams []) s []
  | closeStream {rs i r} : rs[i]? = some r → Step m s (.closeStreams rs) s
      [.recv r (.close .destroyed), .ms m (.closeStreams (rs.eraseIdx i))]
  | publish {evt} : Step m s (.publish evt) { s with published := s.published ++ [evt] } []

theorem MsOp.step_of_exec {op : MsOp} (h : op.exec m x s = some (s', more)) :
    op.Step m s s' more := by
  cases op with
  | completeActiveTurn td =>
    cases td with
    | none =>
      cases h
      rw [List.append_nil]
      exact .completeAgain
    | some td => cases h; exact .completeActiveTurn
  | closeStreams rs =>
    cases rs with
    | nil => cases h; exact .streamsClosed
    | cons r rs =>
      simp only [exec] at h
      split at h
      · split at h <;> cases h
        exact .closeStream ‹_›
      · cases h
  | _ => cases h; constructor

/-! ## The receiver -/

/-- The action after `setCloseHook`. -/
def Hook.next (m : MsRef) (r : RecvRef) (setup : Setup) : Hook → Op
  | .unsubscribe _ => .ms m (.addStream r setup)
  | .removeStream => setup.finish m r

/-- What the handler of a turn does after a successful push. -/
def pushed (r : RecvRef) (evt : AgentEvent) : Option TurnRef → List Op
  | some t => if isTerminalTurnEvent evt then
      [.recv r (.close (.terminal evt)), .turn t (.doneTurn none)] else []
  | none => []

inductive RecvOp.Step (r : RecvRef) (v : Receiver) :
    Choice → RecvOp → Receiver → List Op → Prop where
  | pushClosed {x evt turn} : v.closed = true → Step r v x (.pushCheck evt turn) v []
  | pushOpen {x evt turn} : v.closed = false →
      Step r v x (.pushCheck evt turn) v [.recv r (.pushSelect evt turn)]
  | send {evt turn} : v.ch.length < v.buffer → Step r v .send (.pushSelect evt turn)
      { v with ch := v.ch ++ [evt] } (pushed r evt turn)
  | sendGivenUp {evt turn} : v.closed = true → Step r v .done (.pushSelect evt turn) v []
  | hookRun {x hook setup} : v.closed = true → Step r v x (.setCloseHook hook setup) v
      (hook.ops v.owner r ++ [hook.next v.owner r setup])
  | hookKept {x hook setup} : v.closed = false → Step r v x (.setCloseHook hook setup)
      { v with closeHooks := v.closeHooks ++ [hook] } [hook.next v.owner r setup]
  | close {x by_} : v.once = .idle → Step r v x (.close by_)
      { v with closed := true, once := .running, closeHooks := [] }
      (v.closeHooks.flatMap (Hook.ops v.owner r) ++ [.recv r .hooksDone])
  | closeAgain {x by_} : v.once = .done → Step r v x (.close by_) v []
  | hooksDone {x} : Step r v x .hooksDone { v with once := .done } []
  | recvEnd {x} : v.closed = true → v.ch = [] → Step r v x .recv v []
  | recv {x} : Step r v x .recv v [.recv r (.recvDrain v.closed)]
  | take {x closed evt ch} : v.ch = evt :: ch →
      Step r v x (.recvDrain closed) { v with ch := ch } []
  | drainEnd {x} : v.ch = [] → Step r v x (.recvDrain true) v []
  | drainWait {x} : v.ch = [] → Step r v x (.recvDrain false) v [.recv r .recvWait]
  | takeWaiting {evt ch} : v.ch = evt :: ch → Step r v .send .recvWait { v with ch := ch } []
  | wakeClosed : v.closed = true → Step r v .done .recvWait v [.recv r .recv]

theorem RecvOp.step_of_exec {op : RecvOp} (h : op.exec r x v = some (v', more)) :
    op.Step r v x v' more := by
  cases op with try simp only [exec] at h
  | pushCheck evt turn =>
    split at h <;> cases h
    · exact .pushClosed ‹_›
    · exact .pushOpen (Bool.of_not_eq_true ‹_›)
  | pushSelect evt turn =>
    cases x <;> simp only [exec] at h <;> try cases h
    · split at h
      · obtain ⟨rfl, hm⟩ := Prod.mk.inj (Option.some.inj h)
        rw [← hm]
        exact .send ‹_›
      · cases h
    · split at h <;> cases h
      exact .sendGivenUp ‹_›
  | setCloseHook hook setup =>
    split at h <;> obtain ⟨rfl, hm⟩ := Prod.mk.inj (Option.some.inj h) <;> rw [← hm]
    · exact .hookRun ‹_›
    · exact .hookKept (Bool.of_not_eq_true ‹_›)
  | close by_ => split at h <;> cases h <;> constructor <;> assumption
  | hooksDone => cases h; exact .hooksDone
  | recv =>
    split at h <;> cases h
    · rename_i hc
      simp only [Bool.and_eq_true, List.isEmpty_iff] at hc
      exact .recvEnd hc.1 hc.2
    · exact .recv
  | recvDrain closed =>
    split at h
    · cases h; exact .take ‹_›
    · cases closed <;> cases h
      · exact .drainWait ‹_›
      · exact .drainEnd ‹_›
  | recvWait =>
    cases x <;> simp only [exec] at h <;> try cases h
    all_goals
      split at h <;> cases h
      constructor
      assumption

/-! ## The closures -/

inductive TurnOp.Step (t : TurnRef) (w : World) : TurnOp → World → List Op → Prop where
  | done {call} : (w.turns t).once = .idle → Step t w (.doneTurn call)
      { w with
        wg := w.wg - 1
        turns := Function.update w.turns t { w.turns t with once := .running } }
      [.ms (w.turns t).ms (.clearTurnDone t)]
  | doneAgain {call} : (w.turns t).once = .done → Step t w (.doneTurn call) w []
  | onceDone : Step t w .onceDone
      { w with turns := Function.update w.turns t { w.turns t with once := .done } } []

theorem TurnOp.step_of_exec {op : TurnOp} (h : op.exec t w = some (w', more)) :
    op.Step t w w' more := by
  cases op with
  | doneTurn call =>
    simp only [exec] at h
    split at h <;> cases h <;> constructor <;> assumption
  | onceDone => cases h; exact .onceDone

/-! ## The service -/

/-- The calls clients make. -/
def SvcOp.isCall : SvcOp → Bool
  | .createSession _ | .resumeSession _ _ | .sendMessage _ _ | .continueTurn _ | .steer _ _
  | .followUp _ _ | .abort _ _ | .subscribeEvents _ | .destroySession _ | .close => true
  | _ => false

/-- The calls that create a session. -/
def SvcOp.creates : SvcOp → Option SessionConfig
  | .createSession cfg | .resumeSession cfg _ => some cfg
  | _ => none

/-- The actions that end a call. -/
def SvcOp.isReturn : SvcOp → Bool
  | .destroyReturn _ _ | .closeReturn _ _ | .ret _ _ | .refuse _ => true
  | _ => false

/-- The calls that look a session up, and what they go on with. -/
inductive SvcOp.Lookup : SvcOp → String → MsRef → Op → Prop where
  | send {id msg m} : Lookup (.sendMessage id msg) id m (.svc (.newTurn m (.send msg)))
  | continue_ {id m} : Lookup (.continueTurn id) id m (.svc (.newTurn m .resume))
  | steer {id msg m} : Lookup (.steer id msg) id m (.agent m (.steerCheck msg))
  | followUp {id msg m} :
      Lookup (.followUp id msg) id m (.agent m (.enqueueCheck ⟨.followUp, msg⟩))
  | abort {id msg m} : Lookup (.abort id msg) id m (.agent m (.enqueueCheck ⟨.abort, msg⟩))

inductive SvcOp.Step (w : World) : Choice → SvcOp → World → List Op → Prop where
  | refused {x op n err} : op.isCall = true →
      Step w x op (w.setGenerated n) [.svc (.refuse err)]
  | created {op cfg id log started n} : op.creates = some cfg →
      w.checkCreate cfg = .ok (w.setGenerated n, id) → w.svc.closed = false →
      (0 < w.svc.maxSess → w.svc.sessions.length < w.svc.maxSess) → w.lookup id = none →
      Step w .ok op ((w.setGenerated n).insertSession cfg id log started) []
  | found {x op id m next} : op.Lookup id m next → (id, m) ∈ w.svc.sessions →
      (w.managed m).destroyed = false → Step w x op w [next]
  | subscribed {x id m} : (id, m) ∈ w.svc.sessions → (w.managed m).destroyed = false →
      Step w x (.subscribeEvents id) (w.newStream m) [.agent m (.readState w.nRecvs id)]
  | destroy {x id m} : w.lookup id = some m → Step w x (.destroySession id)
      (w.markDestroyed m)
      (unsubscribePublisher m (w.managed m) ++ [.stop m (.destroy id) .begin_])
  | closeAgain {x} : w.svc.closed = true → Step w x .close w []
  | close {x} : w.svc.closed = false → Step w x .close
      { w with svc := { w.svc with closed := true } }
      [.svc (.closeNext w.svc.sessions w.svc.sessions)]
  | newTurn {x m kick} : Step w x (.newTurn m kick) (w.newTurn m)
      [.ms m (.setTurnDone w.nRecvs w.nTurns kick)]
  | stoppedDirect {x m err} : Step w x (.stopped m (.direct, err)) w
      [.svc (.ret m (err.map .agent))]
  | stopped {x m td} : td.1 ≠ .direct → Step w x (.stopped m td) w
      [.agent m .cancelSession, .ms m (.completeActiveTurn (some td))]
  | delete {x id m err} : Step w x (.delete id m err) (w.deleteSession id)
      [.svc (.destroyReturn m (err.map .agent))]
  | closedAll {x all} : Step w x (.closeNext [] all) w [.svc (.closeDelete all)]
  | closeNext {x todo all i id m} : todo[i]? = some (id, m) →
      Step w x (.closeNext todo all) (w.markDestroyed m) (unsubscribePublisher m (w.managed m) ++
        [.stop m (.close (todo.eraseIdx i) all) .begin_])
  | closeDelete {x all} : Step w x (.closeDelete all)
      (all.foldl (fun w p => w.deleteSession p.1) w) [.svc (.closeWait all)]
  | drained {x all} : w.wg = 0 → Step w x (.closeWait all) w [.svc (.closeReturn all none)]
  | timedOut {x all} : Step w x (.closeWait all) w [.svc (.closeCancel all all)]
  | cancelledAll {x all} : Step w x (.closeCancel [] all) w [.svc (.closeWaitAgain all)]
  | closeCancel {x todo all i id m} : todo[i]? = some (id, m) →
      Step w x (.closeCancel todo all) w
        [.agent m .cancelSession, .ms m (.completeActiveTurn none),
          .svc (.closeCancel (todo.eraseIdx i) all)]
  | closeEnd {x all err} : Step w x (.closeWaitAgain all) w [.svc (.closeReturn all err)]
  | returned {x op} : op.isReturn = true → Step w x op w []

namespace SvcOp

variable {w w' : World} {x : Choice} {more : List Op}

theorem step_of_create {op : SvcOp} (hop : op.isCall = true) (hcfg : op.creates = some cfg)
    (h : w.create cfg log started x = some (w', more)) : op.Step w x w' more := by
  obtain ⟨n, err, rfl, rfl⟩ | ⟨n, id, rfl, hcheck, rfl, rfl, hc, hmax, hl⟩ := World.create_inv h
  · exact .refused hop
  · exact .created hcfg hcheck hc hmax hl

theorem step_of_lookup {op : SvcOp} {id : String} {next : MsRef → Op} (hop : op.isCall = true)
    (hl : ∀ m, op.Lookup id m (next m))
    (h : w.withSession id (fun m => (w, [next m])) = some (w', more)) : op.Step w x w' more := by
  obtain ⟨err, rfl, rfl⟩ | ⟨m, hm, hd, he⟩ := World.withSession_inv h
  · exact .refused (n := w'.svc.generated) hop
  · cases he
    exact .found (hl m) hm hd

theorem step_of_exec {op : SvcOp} (h : op.exec x w = some (w', more)) : op.Step w x w' more := by
  cases op with
  | createSession | resumeSession => exact step_of_create rfl rfl h
  | sendMessage | continueTurn | steer | followUp | abort =>
    exact step_of_lookup rfl (fun _ => by constructor) h
  | subscribeEvents id =>
    obtain ⟨err, rfl, rfl⟩ | ⟨m, hm, hd, he⟩ := World.withSession_inv h
    · exact .refused (n := w'.svc.generated) rfl
    · cases he
      exact .subscribed hm hd
  | destroySession id =>
    simp only [exec] at h
    split at h
    · cases h; exact .refused (n := w.svc.generated) rfl
    · split at h <;> cases h
      · exact .refused (n := w.svc.generated) rfl
      · exact .destroy ‹_›
  | close =>
    simp only [exec] at h
    split at h <;> cases h
    · exact .closeAgain ‹_›
    · exact .close (Bool.of_not_eq_true ‹_›)
  | stopped m td =>
    obtain ⟨sc, err⟩ := td
    cases sc <;> cases h
    · exact .stoppedDirect
    · exact .stopped nofun
    · exact .stopped nofun
  | closeNext todo all | closeCancel todo all =>
    cases todo with
    | nil => cases h; first | exact .closedAll | exact .cancelledAll
    | cons p todo =>
      simp only [exec] at h
      split at h
      · split at h <;> cases h
        first | exact .closeNext ‹_› | exact .closeCancel ‹_›
      · cases h
  | closeWait all =>
    cases x <;> simp only [exec] at h <;> try cases h
    · split at h <;> cases h
      exact .drained ‹_›
    · exact .timedOut
  | closeWaitAgain all =>
    cases x <;> simp only [exec] at h <;> try cases h
    · split at h <;> cases h
      exact .closeEnd
    · exact .closeEnd
  | closeReturn | destroyReturn | ret | refuse => cases h; exact .returned rfl
  | newTurn => cases h; exact .newTurn
  | delete => cases h; exact .delete
  | closeDelete => cases h; exact .closeDelete

end SvcOp

/-! ## Any action -/

inductive Step (x : Choice) (w : World) : Op → Outcome World Op → Prop where
  | call {m caller op a' more spawn} : op.Step m caller (w.agents m) a' more spawn →
      Step x w (.call m caller op) ⟨w.setAgent m a', more, spawn⟩
  | run {m k op a' more} : op.exec m k x (w.agents m) = some (a', more) →
      Step x w (.run m k op) ⟨w.setAgent m a', more, []⟩
  | stop {m sc op a' more} : op.Step m sc (w.agents m) x a' more →
      Step x w (.stop m sc op) ⟨w.setAgent m a', more, []⟩
  | agent {m op a' more} : op.Step m (w.agents m) a' more →
      Step x w (.agent m op) ⟨w.setAgent m a', more, []⟩
  | bus {m op b' more} : op.Step m (w.managed m).sessionID (w.buses m) b' more →
      Step x w (.bus m op) ⟨w.setBus m b', more, []⟩
  | ms {m op s' more} : op.Step m (w.managed m) s' more →
      Step x w (.ms m op) ⟨w.setManaged m s', more, []⟩
  | recv {r op v' more} : op.Step r (w.recvs r) x v' more →
      Step x w (.recv r op) ⟨w.setRecv r v', more, []⟩
  | turn {t op w' more} : op.Step t w w' more → Step x w (.turn t op) ⟨w', more, []⟩
  | svc {op w' more} : op.Step w x w' more → Step x w (.svc op) ⟨w', more, []⟩

theorem step_of_exec (h : exec x op w = some o) : Step x w op o := by
  cases op with
  | call m caller op =>
    obtain ⟨⟨a', more, spawn⟩, hop, rfl⟩ := Option.map_eq_some_iff.mp h
    exact .call (CallOp.step_of_exec hop)
  | run m k op =>
    obtain ⟨⟨a', more⟩, hop, rfl⟩ := Option.map_eq_some_iff.mp h
    exact .run hop
  | stop m sc op =>
    obtain ⟨⟨a', more⟩, hop, rfl⟩ := Option.map_eq_some_iff.mp h
    exact .stop (StopOp.step_of_exec hop)
  | agent m op =>
    cases h
    exact .agent (AgentOp.step_of_exec m op (w.agents m))
  | bus m op =>
    obtain ⟨⟨b', more⟩, hop, rfl⟩ := Option.map_eq_some_iff.mp h
    exact .bus (BusOp.step_of_exec hop)
  | ms m op =>
    obtain ⟨⟨s', more⟩, hop, rfl⟩ := Option.map_eq_some_iff.mp h
    exact .ms (MsOp.step_of_exec hop)
  | recv r op =>
    obtain ⟨⟨v', more⟩, hop, rfl⟩ := Option.map_eq_some_iff.mp h
    exact .recv (RecvOp.step_of_exec hop)
  | turn t op =>
    obtain ⟨⟨w', more⟩, hop, rfl⟩ := Option.map_eq_some_iff.mp h
    exact .turn (TurnOp.step_of_exec hop)
  | svc op =>
    obtain ⟨⟨w', more⟩, hop, rfl⟩ := Option.map_eq_some_iff.mp h
    exact .svc (SvcOp.step_of_exec hop)

/-! ## Membership in continuations -/

section Continuations

variable {m : MsRef} {r : RecvRef} {b : Op}

@[simp] theorem mem_emitChange :
    b ∈ emitChange m changed dst origin ↔ changed = true ∧
      b = .agent m (.emit { type := .stateChange, origin := origin, state := some dst }) := by
  unfold emitChange
  cases changed <;> simp

@[simp] theorem mem_callOk :
    b ∈ callOk m caller ↔ (∃ r t, caller = .service r t ∧ b = .ms m (.setStarted r)) ∨
      caller = .direct ∧ b = .svc (.ret m none) := by
  cases caller <;> simp [callOk]

@[simp] theorem mem_callFail :
    b ∈ callFail m err caller ↔ (∃ r t, caller = .service r t ∧
      (b = .turn t (.doneTurn (some m)) ∨ b = .recv r (.close .failed))) ∨
      b = .svc (.ret m (some err)) := by
  cases caller <;> simp [callFail, and_assoc, or_assoc]

@[simp] theorem mem_hookOps {hook : Hook} :
    b ∈ hook.ops m r ↔ (∃ ids id, hook = .unsubscribe ids ∧ id ∈ ids ∧
      b = .bus m (.unsubscribe id)) ∨ hook = .removeStream ∧ b = .ms m (.removeStream r) := by
  cases hook <;> simp [Hook.ops, eq_comm]

@[simp] theorem mem_handlerCall {h : Handler} {id : String} {evt : AgentEvent} :
    b ∈ h.call m id evt ↔
      (h = .publisher ∧ b = .ms m (.publish (normalizeSessionEvent id evt))) ∨
      (∃ t, h = .tracker t ∧ isTerminalTurnEvent evt = true ∧ b = .turn t (.doneTurn none)) ∨
      (∃ r t, h = .turn r t ∧
        b = .recv r (.pushCheck (normalizeSessionEvent id evt) (some t))) ∨
      ∃ r, h = .stream r ∧ b = .recv r (.pushCheck (normalizeSessionEvent id evt) none) := by
  cases h <;> simp [Handler.call, and_assoc]

@[simp] theorem mem_unsubscribePublisher :
    b ∈ unsubscribePublisher m s ↔ ∃ id, s.unsubscribe = some id ∧ b = .bus m (.unsubscribe id) := by
  unfold unsubscribePublisher
  cases s.unsubscribe <;> simp

@[simp] theorem mem_afterTeardown :
    b ∈ afterTeardown m td ↔ (∃ id, td.1 = .destroy id ∧ b = .svc (.delete id m td.2)) ∨
      ∃ todo all, td.1 = .close todo all ∧ b = .svc (.closeNext todo all) := by
  obtain ⟨sc, err⟩ := td
  cases sc <;> simp [afterTeardown, and_assoc]

@[simp] theorem mem_takenTurn :
    b ∈ takenTurn m turn ↔ ∃ t, turn = some t ∧ b = .turn t (.doneTurn (some m)) := by
  cases turn <;> simp [takenTurn]

@[simp] theorem mem_pushed :
    b ∈ pushed r evt turn ↔ ∃ t, turn = some t ∧ isTerminalTurnEvent evt = true ∧
      (b = .recv r (.close (.terminal evt)) ∨ b = .turn t (.doneTurn none)) := by
  cases turn with
  | none => simp [pushed]
  | some t => by_cases h : isTerminalTurnEvent evt = true <;> simp [pushed, h]

end Continuations

end FlexAgentRuntime.AgentLoop
