import FlexAgentRuntime.Agent.Steps

/-!
The control flow of the source as a relation: `Follows w op b` says that
executing `op` in `w` can put `b` on the stack, and under which guard. Case
analysis on it answers where an action of a given shape comes from.
-/

namespace FlexAgentRuntime.AgentLoop

open Interleaving List

/-- The stages of a call that need no guard. -/
inductive CallOp.Next : CallOp → CallOp → Prop where
  | unclaim {prompt err} : Next (.startTransition prompt) (.startUnclaim err)
  | driverStart {prompt} : Next (.startTransition prompt) (.driverStart prompt)
  | startLoop {session prompt} : Next (.driverStart prompt) (.startLoop session prompt false)
  | startFailed {session prompt err} :
      Next (.startLoop session prompt false) (.startFailRecord err)
  | resumeFailed {session prompt err} :
      Next (.startLoop session prompt true) (.continueFailRecord err)
  | failClear {err} : Next (.startFailRecord err) (.startFailClear err)
  | failIdle {err} : Next (.startFailClear err) (.startFailIdle err)
  | continueIdle {err} : Next (.continueFailRecord err) (.continueFailIdle err)

/-- The stages at which a call can return an error. -/
def CallOp.fails : CallOp → Bool
  | .startClaim _ _ | .continueClaim | .startUnclaim _ | .startLoop _ _ _ | .startFailIdle _
  | .continueFailIdle _ => true
  | _ => false

/-- The stages at which a call can return nil. -/
def CallOp.succeeds : CallOp → Bool
  | .startLoop _ _ _ | .goRun _ _ => true
  | _ => false

/-- The stages of a call that emit an event. -/
def CallOp.emits : CallOp → Bool
  | .startTransition _ | .startFailIdle _ => true
  | _ => false

inductive Follows (w : World) : Op → Op → Prop where
  -- Start, Prompt, Continue
  | snapshot {m caller prompt} : Follows w (.call m caller (.snapshot prompt))
      (.call m caller (.startClaim (w.agents m).session prompt))
  | startClaimed {m caller session prompt} : (w.agents m).state ≠ .exited →
      (w.agents m).running = false → Follows w (.call m caller (.startClaim session prompt))
        (.call m caller (.startTransition prompt))
  | continueClaimed {m caller s} : (w.agents m).state ≠ .exited →
      (w.agents m).running = false → (w.agents m).session = some s →
      Follows w (.call m caller .continueClaim) (.call m caller (.startLoop (some s) "" true))
  | callNext {m caller cop cop'} : CallOp.Next cop cop' →
      Follows w (.call m caller cop) (.call m caller cop')
  | looped {m caller session prompt resume} : (w.agents m).kind = .native →
      startLoopErr (w.agents m) session = none →
      Follows w (.call m caller (.startLoop session prompt resume))
        (.call m caller (.goRun (w.agents m).driver.contexts.length prompt))
  | callEmit {m caller cop evt} : cop.emits = true → evt.origin = .start caller →
      isTerminalTurnEvent evt = false → Follows w (.call m caller cop) (.agent m (.emit evt))
  | callFailDone {m r t cop} : cop.fails = true →
      Follows w (.call m (.service r t) cop) (.turn t (.doneTurn (some m)))
  | callFailClose {m r t cop} : cop.fails = true →
      Follows w (.call m (.service r t) cop) (.recv r (.close .failed))
  | callStarted {m r t cop} : cop.succeeds = true →
      Follows w (.call m (.service r t) cop) (.ms m (.setStarted r))
  | callRet {m caller cop err} : Follows w (.call m caller cop) (.svc (.ret m err))
  -- the loop
  | run {m k rop b} : RunOp.Next m k rop b → Follows w (.run m k rop) b
  -- Stop
  | driverStop {m sc} : (w.agents m).state ≠ .exited →
      Follows w (.stop m sc .begin_) (.stop m sc .driverStop)
  | stopCancel {m sc k} : Follows w (.stop m sc .driverStop) (.agent m (.cancelContext k))
  | stopExit {m sc} : Follows w (.stop m sc .driverStop) (.stop m sc .exit)
  | stopEmit {m sc evt} : evt.origin = .stop → isTerminalTurnEvent evt = false →
      Follows w (.stop m sc .exit) (.agent m (.emit evt))
  | closeControl {m sc} : Follows w (.stop m sc .exit) (.stop m sc .closeControl)
  | closeBus {m sc} : Follows w (.stop m sc .closeControl) (.bus m (.close sc))
  | stoppedEarly {m sc sop err} : (w.agents m).state = .exited →
      Follows w (.stop m sc sop) (.svc (.stopped m (sc, err)))
  | stopFailed {m sc err} : (w.agents m).kind = .external →
      Follows w (.stop m sc .driverStop) (.svc (.stopped m (sc, err)))
  -- events and control commands
  | publish {m evt} :
      Follows w (.agent m (.emit evt)) (.bus m (.publish (fillEvent (w.agents m) evt)))
  | initialPush {m r id evt} : evt.origin = .subscribe → isTerminalTurnEvent evt = false →
      Follows w (.agent m (.readState r id)) (.recv r (.pushCheck evt none))
  | subscribeStream {m r id} : Follows w (.agent m (.readState r id)) (.bus m (.subscribeStream r))
  | steer {m msg} : Follows w (.agent m (.steerCheck msg)) (.agent m (.enqueueCheck ⟨.steer, msg⟩))
  | enqueue {m cmd} : Follows w (.agent m (.enqueueCheck cmd)) (.agent m (.enqueueSend cmd))
  | ack {m cmd} : Follows w (.agent m (.enqueueSend cmd)) (.agent m (.emit (ackEvent cmd)))
  | controlRet {m aop err} : aop.isControl = true →
      Follows w (.agent m aop) (.svc (.ret m err))
  -- the bus
  | subscribeTurn {m r t kick ids} : ids = ((w.buses m).subscribe (.tracker t)).2 →
      Follows w (.bus m (.subscribeTracker r t kick)) (.bus m (.subscribeTurn r t kick ids))
  | turnHook {m r t kick tracker ids} : ids = ((w.buses m).subscribe (.turn r t)).2 ++ tracker →
      Follows w (.bus m (.subscribeTurn r t kick tracker))
        (.recv r (.setCloseHook (.unsubscribe ids) (.turn t kick)))
  | streamHook {m r ids} : ids = ((w.buses m).subscribe (.stream r)).2 →
      Follows w (.bus m (.subscribeStream r)) (.recv r (.setCloseHook (.unsubscribe ids) .stream))
  | deliver {m evt} : (w.buses m).closed = false → Follows w (.bus m (.publish evt))
      (.bus m (.deliver evt ((w.buses m).subs.map (·.2))))
  | deliverRest {m evt hs i} : Follows w (.bus m (.deliver evt hs))
      (.bus m (.deliver evt (hs.eraseIdx i)))
  | deliverPublisher {m evt hs} : .publisher ∈ hs → Follows w (.bus m (.deliver evt hs))
      (.ms m (.publish (normalizeSessionEvent (w.managed m).sessionID evt)))
  | deliverTracker {m evt hs t} : .tracker t ∈ hs → isTerminalTurnEvent evt = true →
      Follows w (.bus m (.deliver evt hs)) (.turn t (.doneTurn none))
  | deliverTurn {m evt hs r t} : .turn r t ∈ hs → Follows w (.bus m (.deliver evt hs))
      (.recv r (.pushCheck (normalizeSessionEvent (w.managed m).sessionID evt) (some t)))
  | deliverStream {m evt hs r} : .stream r ∈ hs → Follows w (.bus m (.deliver evt hs))
      (.recv r (.pushCheck (normalizeSessionEvent (w.managed m).sessionID evt) none))
  | busClosed {m sc} : Follows w (.bus m (.close sc)) (.svc (.stopped m (sc, none)))
  -- the managed session
  | subscribeTracker {m r t kick} :
      Follows w (.ms m (.setTurnDone r t kick)) (.bus m (.subscribeTracker r t kick))
  | onceDone {m t} : Follows w (.ms m (.clearTurnDone t)) (.turn t .onceDone)
  | callSnapshot {m r t msg} :
      Follows w (.ms m (.readStarted r t msg)) (.call m (.service r t) (.snapshot msg))
  | handOutTurn {m r} : Follows w (.ms m (.setStarted r)) (.ms m (.handOut r))
  | removeHook {m r setup} :
      Follows w (.ms m (.addStream r setup)) (.recv r (.setCloseHook .removeStream setup))
  | completeTurn {m td t} : (w.managed m).turnDone = some t →
      Follows w (.ms m (.completeActiveTurn td)) (.turn t (.doneTurn (some m)))
  | closeAllStreams {m td} :
      Follows w (.ms m (.completeActiveTurn (some td))) (.ms m (.closeAllStreams td))
  | closeStreams {m td} :
      Follows w (.ms m (.closeAllStreams td)) (.ms m (.closeStreams (w.managed m).streams))
  | delete {m id err} :
      Follows w (.ms m (.closeAllStreams (.destroy id, err))) (.svc (.delete id m err))
  | closeGoOn {m todo all err} : Follows w (.ms m (.closeAllStreams (.close todo all, err)))
      (.svc (.closeNext todo all))
  | closeStream {m rs r} : r ∈ rs → Follows w (.ms m (.closeStreams rs)) (.recv r (.close .destroyed))
  | closeStreamsRest {m rs i} :
      Follows w (.ms m (.closeStreams rs)) (.ms m (.closeStreams (rs.eraseIdx i)))
  -- the receiver
  | pushSelect {r evt turn} : (w.recvs r).closed = false →
      Follows w (.recv r (.pushCheck evt turn)) (.recv r (.pushSelect evt turn))
  | pushClose {r evt t} : isTerminalTurnEvent evt = true →
      Follows w (.recv r (.pushSelect evt (some t))) (.recv r (.close (.terminal evt)))
  | pushDone {r evt t} : isTerminalTurnEvent evt = true →
      Follows w (.recv r (.pushSelect evt (some t))) (.turn t (.doneTurn none))
  | addStream {r ids setup} : Follows w (.recv r (.setCloseHook (.unsubscribe ids) setup))
      (.ms (w.recvs r).owner (.addStream r setup))
  | readStarted {r t msg} : Follows w (.recv r (.setCloseHook .removeStream (.turn t (.send msg))))
      (.ms (w.recvs r).owner (.readStarted r t msg))
  | callContinue {r t} : Follows w (.recv r (.setCloseHook .removeStream (.turn t .resume)))
      (.call (w.recvs r).owner (.service r t) .continueClaim)
  | handOutStream {r} : Follows w (.recv r (.setCloseHook .removeStream .stream))
      (.ms (w.recvs r).owner (.handOut r))
  | lateUnsubscribe {r ids id setup} : (w.recvs r).closed = true → id ∈ ids →
      Follows w (.recv r (.setCloseHook (.unsubscribe ids) setup))
        (.bus (w.recvs r).owner (.unsubscribe id))
  | lateRemove {r setup} : (w.recvs r).closed = true →
      Follows w (.recv r (.setCloseHook .removeStream setup))
        (.ms (w.recvs r).owner (.removeStream r))
  | unsubscribe {r by_ ids id} : (w.recvs r).once = .idle →
      .unsubscribe ids ∈ (w.recvs r).closeHooks → id ∈ ids →
      Follows w (.recv r (.close by_)) (.bus (w.recvs r).owner (.unsubscribe id))
  | removeStream {r by_} : (w.recvs r).once = .idle → .removeStream ∈ (w.recvs r).closeHooks →
      Follows w (.recv r (.close by_)) (.ms (w.recvs r).owner (.removeStream r))
  | hooksDone {r by_} : (w.recvs r).once = .idle →
      Follows w (.recv r (.close by_)) (.recv r .hooksDone)
  | recvDrain {r} : Follows w (.recv r .recv) (.recv r (.recvDrain (w.recvs r).closed))
  | recvWait {r} : Follows w (.recv r (.recvDrain false)) (.recv r .recvWait)
  | recvAgain {r} : Follows w (.recv r .recvWait) (.recv r .recv)
  -- the closures
  | clearTurnDone {t call} : (w.turns t).once = .idle →
      Follows w (.turn t (.doneTurn call)) (.ms (w.turns t).ms (.clearTurnDone t))
  -- the service
  | refuse {sop err} : sop.isCall = true → Follows w (.svc sop) (.svc (.refuse err))
  | lookup {sop id m b} : sop.Lookup id m b → (id, m) ∈ w.svc.sessions →
      (w.managed m).destroyed = false → Follows w (.svc sop) b
  | readState {id m} : (id, m) ∈ w.svc.sessions → (w.managed m).destroyed = false →
      Follows w (.svc (.subscribeEvents id)) (.agent m (.readState w.nRecvs id))
  | destroyUnsubscribe {id m n} : w.lookup id = some m → (w.managed m).unsubscribe = some n →
      Follows w (.svc (.destroySession id)) (.bus m (.unsubscribe n))
  | destroyStop {id m} : w.lookup id = some m →
      Follows w (.svc (.destroySession id)) (.stop m (.destroy id) .begin_)
  | closeStart : w.svc.closed = false →
      Follows w (.svc .close) (.svc (.closeNext w.svc.sessions w.svc.sessions))
  | setTurnDone {m kick} :
      Follows w (.svc (.newTurn m kick)) (.ms m (.setTurnDone w.nRecvs w.nTurns kick))
  | stopRet {m err} :
      Follows w (.svc (.stopped m (.direct, err))) (.svc (.ret m (err.map .agent)))
  | cancelSession {m td} : td.1 ≠ .direct → Follows w (.svc (.stopped m td)) (.agent m .cancelSession)
  | completeActiveTurn {m td} : td.1 ≠ .direct →
      Follows w (.svc (.stopped m td)) (.ms m (.completeActiveTurn (some td)))
  | destroyReturn {id m err} :
      Follows w (.svc (.delete id m err)) (.svc (.destroyReturn m (err.map .agent)))
  | closeDelete {all} : Follows w (.svc (.closeNext [] all)) (.svc (.closeDelete all))
  | closeUnsubscribe {todo all id m n} : (id, m) ∈ todo → (w.managed m).unsubscribe = some n →
      Follows w (.svc (.closeNext todo all)) (.bus m (.unsubscribe n))
  | closeStop {todo all i id m} : todo[i]? = some (id, m) →
      Follows w (.svc (.closeNext todo all)) (.stop m (.close (todo.eraseIdx i) all) .begin_)
  | closeWait {all} : Follows w (.svc (.closeDelete all)) (.svc (.closeWait all))
  | closeDrained {all} : Follows w (.svc (.closeWait all)) (.svc (.closeReturn all none))
  | closeTimeout {all} : Follows w (.svc (.closeWait all)) (.svc (.closeCancel all all))
  | closeAgain {all} : Follows w (.svc (.closeCancel [] all)) (.svc (.closeWaitAgain all))
  | closeCancelSession {todo all id m} : (id, m) ∈ todo →
      Follows w (.svc (.closeCancel todo all)) (.agent m .cancelSession)
  | closeComplete {todo all id m} : (id, m) ∈ todo →
      Follows w (.svc (.closeCancel todo all)) (.ms m (.completeActiveTurn none))
  | closeCancelRest {todo all i} :
      Follows w (.svc (.closeCancel todo all)) (.svc (.closeCancel (todo.eraseIdx i) all))
  | closeReturn {all err} : Follows w (.svc (.closeWaitAgain all)) (.svc (.closeReturn all err))

/-! ## Every step follows the relation -/

section Follows

variable {x : Choice} {w : World} {m : MsRef} {b op : Op} {more : List Op} {cop : CallOp}
  {caller : Caller} {a' : Agent} {o : Outcome World Op}

theorem follows_callFail (hf : cop.fails = true) (hb : b ∈ callFail m err caller) :
    Follows w (.call m caller cop) b := by
  rcases mem_callFail.mp hb with ⟨r, t, rfl, rfl | rfl⟩ | rfl
  · exact .callFailDone hf
  · exact .callFailClose hf
  · exact .callRet

theorem follows_callOk (hs : cop.succeeds = true) (hb : b ∈ callOk m caller) :
    Follows w (.call m caller cop) b := by
  rcases mem_callOk.mp hb with ⟨r, t, rfl, rfl⟩ | ⟨rfl, rfl⟩
  · exact .callStarted hs
  · exact .callRet

theorem follows_change (he : cop.emits = true) (hb : b ∈ emitChange m changed dst (.start caller)) :
    Follows w (.call m caller cop) b := by
  obtain ⟨-, rfl⟩ := mem_emitChange.mp hb
  exact .callEmit he rfl rfl

theorem CallOp.claims_fails (h : cop.claims = true) : cop.fails = true := by
  cases cop <;> first | rfl | cases h

theorem CallOp.Step.follows (h : cop.Step m caller (w.agents m) a' more spawn) (hb : b ∈ more) :
    Follows w (.call m caller cop) b := by
  cases h with try rw [mem_singleton.mp hb]
  | snapshot => exact .snapshot
  | claimRefused hc => exact follows_callFail (CallOp.claims_fails hc) hb
  | startClaimed hst hr => exact .startClaimed hst hr
  | continueClaimed hst hr hse => exact .continueClaimed hst hr hse
  | transitionFailed => exact .callNext .unclaim
  | transitioned =>
    rcases mem_append.mp hb with hb | hb
    · exact follows_change rfl hb
    · rcases mem_pair.mp hb with rfl | rfl
      · exact .callEmit rfl rfl rfl
      · exact .callNext .driverStart
  | unclaimed | driverPanic | failIdleFailed | continueFailIdle => exact follows_callFail rfl hb
  | driverStart => exact .callNext .startLoop
  | driverOk | goRun => exact follows_callOk rfl hb
  | startFailed => exact .callNext .startFailed
  | resumeFailed => exact .callNext .resumeFailed
  | looped hk hl => exact .looped hk hl
  | failRecord => exact .callNext .failClear
  | failClear => exact .callNext .failIdle
  | failIdle =>
    rcases mem_append.mp hb with hb | hb
    · exact follows_change rfl hb
    · exact follows_callFail rfl hb
  | continueFailRecord => exact .callNext .continueIdle

theorem StopOp.Step.follows (h : sop.Step m sc (w.agents m) x a' more) (hb : b ∈ more) :
    Follows w (.stop m sc sop) b := by
  cases h with try rw [mem_singleton.mp hb]
  | beginExited hst | exitAgain hst => exact .stoppedEarly hst
  | begin_ hst => exact .driverStop hst
  | driverStop _ hcs =>
    rcases mem_concat.mp hb with hb | rfl
    · obtain ⟨k, rfl⟩ := hcs b hb
      exact .stopCancel
    · exact .stopExit
  | externalStop => exact .stopExit
  | externalError hk => exact .stopFailed hk
  | exit =>
    rcases mem_append.mp hb with hb | hb
    · obtain ⟨-, rfl⟩ := mem_emitChange.mp hb
      exact .stopEmit rfl rfl
    · rcases mem_pair.mp hb with rfl | rfl
      · exact .stopEmit rfl rfl
      · exact .closeControl
  | closeControl => exact .closeBus

theorem AgentOp.Step.follows (h : aop.Step m (w.agents m) a' more) (hb : b ∈ more) :
    Follows w (.agent m aop) b := by
  cases h with try rw [mem_singleton.mp hb]
  | cancelContext | cancelSession => cases hb
  | emit => exact .publish
  | readState =>
    rcases mem_pair.mp hb with rfl | rfl
    · exact .initialPush (origin_normalize _ _) (isTerminal_normalize _ _)
    · exact .subscribeStream
  | refused hc => exact .controlRet hc
  | steer => exact .steer
  | enqueueCheck => exact .enqueue
  | enqueued =>
    rcases mem_pair.mp hb with rfl | rfl
    · exact .ack
    · exact .controlRet rfl

theorem BusOp.Step.follows (h : bop.Step m (w.managed m).sessionID (w.buses m) b' more)
    (hb : b ∈ more) : Follows w (.bus m bop) b := by
  cases h with try rw [mem_singleton.mp hb]
  | subscribeTracker => exact .subscribeTurn rfl
  | subscribeTurn => exact .turnHook rfl
  | subscribeStream => exact .streamHook rfl
  | publishDropped | delivered | unsubscribe => cases hb
  | publish ho => exact .deliver ho
  | deliver hi =>
    have hmem := mem_of_getElem? hi
    rcases mem_concat.mp hb with hb | rfl
    · rcases mem_handlerCall.mp hb with ⟨rfl, rfl⟩ | ⟨t, rfl, hterm, rfl⟩ | ⟨r, t, rfl, rfl⟩ | ⟨r, rfl, rfl⟩
      · exact .deliverPublisher hmem
      · exact .deliverTracker hmem hterm
      · exact .deliverTurn hmem
      · exact .deliverStream hmem
    · exact .deliverRest
  | close => exact .busClosed

theorem MsOp.Step.follows (h : mop.Step m (w.managed m) s' more) (hb : b ∈ more) :
    Follows w (.ms m mop) b := by
  cases h with try rw [mem_singleton.mp hb]
  | setTurnDone => exact .subscribeTracker
  | clearTurnDone => exact .onceDone
  | readStarted => exact .callSnapshot
  | setStarted => exact .handOutTurn
  | handOut | removeStream | streamsClosed | publish => cases hb
  | addStream => exact .removeHook
  | completeActiveTurn =>
    rcases mem_concat.mp hb with hb | rfl
    · obtain ⟨t, ht, rfl⟩ := mem_takenTurn.mp hb
      exact .completeTurn ht
    · exact .closeAllStreams
  | completeAgain =>
    obtain ⟨t, ht, rfl⟩ := mem_takenTurn.mp hb
    exact .completeTurn ht
  | @closeAllStreams td =>
    obtain ⟨sc, err⟩ := td
    rcases mem_cons.mp hb with rfl | hb
    · exact .closeStreams
    · rcases mem_afterTeardown.mp hb with ⟨id, rfl, rfl⟩ | ⟨todo, all, rfl, rfl⟩
      · exact .delete
      · exact .closeGoOn
  | closeStream hi =>
    rcases mem_pair.mp hb with rfl | rfl
    · exact .closeStream (mem_of_getElem? hi)
    · exact .closeStreamsRest

theorem follows_hookNext :
    Follows w (.recv r (.setCloseHook hook setup)) (hook.next (w.recvs r).owner r setup) := by
  cases hook with
  | unsubscribe ids => exact .addStream
  | removeStream =>
    cases setup with
    | turn t kick =>
      cases kick with
      | send msg => exact .readStarted
      | resume => exact .callContinue
    | stream => exact .handOutStream

theorem RecvOp.Step.follows (h : rop.Step r (w.recvs r) x v' more) (hb : b ∈ more) :
    Follows w (.recv r rop) b := by
  cases h with try rw [mem_singleton.mp hb]
  | pushOpen ho => exact .pushSelect ho
  | send =>
    obtain ⟨t, rfl, hterm, rfl | rfl⟩ := mem_pushed.mp hb
    · exact .pushClose hterm
    · exact .pushDone hterm
  | hookRun hc =>
    rcases mem_concat.mp hb with hb | rfl
    · rcases mem_hookOps.mp hb with ⟨ids, id, rfl, hid, rfl⟩ | ⟨rfl, rfl⟩
      · exact .lateUnsubscribe hc hid
      · exact .lateRemove hc
    · exact follows_hookNext
  | hookKept => exact follows_hookNext
  | close hi =>
    rcases mem_concat.mp hb with hb | rfl
    · obtain ⟨hook, hh, hb⟩ := mem_flatMap.mp hb
      rcases mem_hookOps.mp hb with ⟨ids, id, rfl, hid, rfl⟩ | ⟨rfl, rfl⟩
      · exact .unsubscribe hi hh hid
      · exact .removeStream hi hh
    · exact .hooksDone hi
  | recv => exact .recvDrain
  | drainWait => exact .recvWait
  | wakeClosed => exact .recvAgain
  | _ => cases hb

theorem SvcOp.Step.follows (h : sop.Step w x w' more) (hb : b ∈ more) : Follows w (.svc sop) b := by
  cases h with try rw [mem_singleton.mp hb]
  | refused hc => exact .refuse hc
  | created | closeAgain | returned => cases hb
  | found hl hm hd => exact .lookup hl hm hd
  | subscribed hm hd => exact .readState hm hd
  | destroy hl =>
    rcases mem_concat.mp hb with hb | rfl
    · obtain ⟨n, hn, rfl⟩ := mem_unsubscribePublisher.mp hb
      exact .destroyUnsubscribe hl hn
    · exact .destroyStop hl
  | close hc => exact .closeStart hc
  | newTurn => exact .setTurnDone
  | stoppedDirect => exact .stopRet
  | stopped hd =>
    rcases mem_pair.mp hb with rfl | rfl
    · exact .cancelSession hd
    · exact .completeActiveTurn hd
  | delete => exact .destroyReturn
  | closedAll => exact .closeDelete
  | closeNext hi =>
    rcases mem_concat.mp hb with hb | rfl
    · obtain ⟨n, hn, rfl⟩ := mem_unsubscribePublisher.mp hb
      exact .closeUnsubscribe (mem_of_getElem? hi) hn
    · exact .closeStop hi
  | closeDelete => exact .closeWait
  | drained => exact .closeDrained
  | timedOut => exact .closeTimeout
  | cancelledAll => exact .closeAgain
  | closeCancel hi =>
    simp only [mem_cons, not_mem_nil, or_false] at hb
    rcases hb with rfl | rfl | rfl
    · exact .closeCancelSession (mem_of_getElem? hi)
    · exact .closeComplete (mem_of_getElem? hi)
    · exact .closeCancelRest
  | closeEnd => exact .closeReturn

theorem Step.follows (h : Step x w op o) (hb : b ∈ o.more) : Follows w op b := by
  cases h with
  | call hs | stop hs | agent hs | bus hs | ms hs | recv hs | svc hs => exact hs.follows hb
  | run hr => exact .run ((RunOp.exec_effect hr).next b hb)
  | turn hs =>
    cases hs with
    | done hi => rw [mem_singleton.mp hb]; exact .clearTurnDone hi
    | doneAgain | onceDone => cases hb

theorem Step.spawn_origin (h : Step x w op o) (hth : th ∈ o.spawn) :
    ∃ m caller k prompt, op = .call m caller (.goRun k prompt) ∧
      th = [.run m k (.top prompt), .run m k .deferred] := by
  cases h with
  | call hs =>
    cases hs <;> simp at hth
    exact ⟨_, _, _, _, rfl, hth⟩
  | _ => simp at hth

theorem Follows.call_origin (h : Follows w op (.call m caller cop)) :
    (∃ cop', op = .call m caller cop') ∨ ∃ r t, caller = .service r t ∧
      ((∃ msg, op = .ms m (.readStarted r t msg) ∧ cop = .snapshot msg) ∨
        (op = .recv r (.setCloseHook .removeStream (.turn t .resume)) ∧
          m = (w.recvs r).owner ∧ cop = .continueClaim)) := by
  cases h with
  | callSnapshot => exact .inr ⟨_, _, rfl, .inl ⟨_, rfl, rfl⟩⟩
  | callContinue => exact .inr ⟨_, _, rfl, .inr ⟨rfl, rfl, rfl⟩⟩
  | run hn => cases hn
  | lookup hl => cases hl
  | _ => exact .inl ⟨_, rfl⟩

theorem Follows.run_origin (h : Follows w op (.run m k rop)) : ∃ rop', op = .run m k rop' := by
  cases h with
  | run hn => cases hn <;> exact ⟨_, rfl⟩
  | lookup hl => cases hl

theorem pend_cases {c : Config World Op} (ht : c.At i a rest) (hs : Step x c.state a o)
    (hb : (c.advance i rest o).Pend b) : c.Pend b ∨ Follows c.state a b ∨
      ∃ m caller k prompt, a = .call m caller (.goRun k prompt) ∧
        (b = .run m k (.top prompt) ∨ b = .run m k .deferred) := by
  rcases hb.of_advance ht with h | h | ⟨th, hth, h⟩
  · exact .inl h
  · exact .inr (.inl (hs.follows h))
  · obtain ⟨m, caller, k, prompt, ha, rfl⟩ := hs.spawn_origin hth
    refine .inr (.inr ⟨m, caller, k, prompt, ha, ?_⟩)
    simpa using h

end Follows

end FlexAgentRuntime.AgentLoop
