import FlexAgentRuntime.Agent.Flow

/-!
References point where they should: every action that is still to be executed,
and every table of the state, names sessions, receivers and closures that exist
and belong together. A fresh session, receiver or closure is therefore unknown
to everything that is already there.
-/

namespace FlexAgentRuntime.AgentLoop

open Interleaving Config List Function

namespace World

/-- `r` is a receiver of session `m`. -/
def HasRecv (w : World) (m : MsRef) (r : RecvRef) : Prop :=
  r < w.nRecvs ∧ (w.recvs r).owner = m

/-- `t` is a closure of session `m`. -/
def HasTurn (w : World) (m : MsRef) (t : TurnRef) : Prop := t < w.nTurns ∧ (w.turns t).ms = m

/-- `r` and `t` were made by one call of `newTurnScopedReceiver` on `m`. -/
def TurnPair (w : World) (m : MsRef) (r : RecvRef) (t : TurnRef) : Prop :=
  w.HasRecv m r ∧ (w.recvs r).turn = some t ∧ w.HasTurn m t

/-- `r` was made by `SubscribeEvents` on `m`. -/
def StreamOf (w : World) (m : MsRef) (r : RecvRef) : Prop :=
  w.HasRecv m r ∧ (w.recvs r).turn = none

/-- `m` was created under the id `id`. -/
def HasSession (w : World) (p : String × MsRef) : Prop :=
  p.2 < w.nManaged ∧ (w.managed p.2).sessionID = p.1

/-- Steps create sessions, receivers and closures, and never change what those
that exist belong to. -/
structure Extends (w w' : World) : Prop where
  managed : w.nManaged ≤ w'.nManaged
  recvs : w.nRecvs ≤ w'.nRecvs
  turns : w.nTurns ≤ w'.nTurns
  sessionID : ∀ m < w.nManaged, (w'.managed m).sessionID = (w.managed m).sessionID
  owner : ∀ r < w.nRecvs, (w'.recvs r).owner = (w.recvs r).owner
  turn : ∀ r < w.nRecvs, (w'.recvs r).turn = (w.recvs r).turn
  ms : ∀ t < w.nTurns, (w'.turns t).ms = (w.turns t).ms

variable {w w' : World} {m : MsRef} {r : RecvRef} {t : TurnRef}

theorem Extends.refl (w : World) : w.Extends w :=
  ⟨le_rfl, le_rfl, le_rfl, fun _ _ => rfl, fun _ _ => rfl, fun _ _ => rfl, fun _ _ => rfl⟩

theorem Extends.trans (h : w.Extends w') (h' : w'.Extends w'') : w.Extends w'' where
  managed := h.managed.trans h'.managed
  recvs := h.recvs.trans h'.recvs
  turns := h.turns.trans h'.turns
  sessionID m hm := (h'.sessionID m (hm.trans_le h.managed)).trans (h.sessionID m hm)
  owner r hr := (h'.owner r (hr.trans_le h.recvs)).trans (h.owner r hr)
  turn r hr := (h'.turn r (hr.trans_le h.recvs)).trans (h.turn r hr)
  ms t ht := (h'.ms t (ht.trans_le h.turns)).trans (h.ms t ht)

variable (he : w.Extends w')
include he

theorem HasRecv.mono (h : w.HasRecv m r) : w'.HasRecv m r :=
  ⟨h.1.trans_le he.recvs, (he.owner r h.1).trans h.2⟩

theorem HasTurn.mono (h : w.HasTurn m t) : w'.HasTurn m t :=
  ⟨h.1.trans_le he.turns, (he.ms t h.1).trans h.2⟩

theorem TurnPair.mono (h : w.TurnPair m r t) : w'.TurnPair m r t :=
  ⟨h.1.mono he, (he.turn r h.1.1).trans h.2.1, h.2.2.mono he⟩

theorem StreamOf.mono (h : w.StreamOf m r) : w'.StreamOf m r :=
  ⟨h.1.mono he, (he.turn r h.1.1).trans h.2⟩

theorem HasSession.mono (h : w.HasSession p) : w'.HasSession p :=
  ⟨h.1.trans_le he.managed, (he.sessionID p.2 h.1).trans h.2⟩

end World

/-! ## Scope of handlers, callers and actions -/

def Handler.In (w : World) (m : MsRef) : Handler → Prop
  | .publisher => True
  | .tracker t => w.HasTurn m t
  | .turn r t => w.TurnPair m r t
  | .stream r => w.StreamOf m r

def Caller.In (w : World) (m : MsRef) : Caller → Prop
  | .service r t => w.TurnPair m r t
  | .direct => True

def Setup.In (w : World) (m : MsRef) (r : RecvRef) : Setup → Prop
  | .turn t _ => w.TurnPair m r t
  | .stream => w.StreamOf m r

def StopCaller.In (w : World) (m : MsRef) : StopCaller → Prop
  | .direct => True
  | .destroy id => w.HasSession (id, m)
  | .close todo all => (∀ p ∈ todo, w.HasSession p) ∧ ∀ p ∈ all, w.HasSession p

def BusOp.In (w : World) (m : MsRef) : BusOp → Prop
  | .subscribeTracker r t _ | .subscribeTurn r t _ _ => w.TurnPair m r t
  | .subscribeStream r => w.StreamOf m r
  | .deliver _ hs => ∀ h ∈ hs, h.In w m
  | .close sc => sc.In w m
  | .publish _ | .unsubscribe _ => True

def MsOp.In (w : World) (m : MsRef) : MsOp → Prop
  | .setTurnDone r t _ | .readStarted r t _ => w.TurnPair m r t
  | .clearTurnDone t => w.HasTurn m t
  | .setStarted r | .handOut r | .removeStream r => w.HasRecv m r
  | .addStream r setup => setup.In w m r
  | .completeActiveTurn td => ∀ d ∈ td, d.1.In w m
  | .closeAllStreams td => td.1.In w m
  | .closeStreams rs => ∀ r ∈ rs, w.HasRecv m r
  | .publish _ => True

def RecvOp.In (w : World) (r : RecvRef) : RecvOp → Prop
  | .pushCheck _ turn | .pushSelect _ turn =>
    turn = (w.recvs r).turn ∧ ∀ t ∈ turn, w.HasTurn (w.recvs r).owner t
  | .setCloseHook _ setup => setup.In w (w.recvs r).owner r
  | .close _ | .hooksDone | .recv | .recvDrain _ | .recvWait => True

def SvcOp.In (w : World) : SvcOp → Prop
  | .newTurn m _ | .ret m _ | .destroyReturn m _ => m < w.nManaged
  | .stopped m td => m < w.nManaged ∧ td.1.In w m
  | .delete id m _ => w.HasSession (id, m)
  | .closeNext todo all | .closeCancel todo all =>
    (∀ p ∈ todo, w.HasSession p) ∧ ∀ p ∈ all, w.HasSession p
  | .closeDelete all | .closeWait all | .closeWaitAgain all | .closeReturn all _ =>
    ∀ p ∈ all, w.HasSession p
  | .createSession _ | .resumeSession _ _ | .sendMessage _ _ | .continueTurn _ | .steer _ _
  | .followUp _ _ | .abort _ _ | .subscribeEvents _ | .destroySession _ | .close
  | .refuse _ => True

def Op.In (w : World) : Op → Prop
  | .call m caller _ => m < w.nManaged ∧ caller.In w m
  | .run m _ _ => m < w.nManaged
  | .stop m sc _ => m < w.nManaged ∧ sc.In w m
  | .agent m op => m < w.nManaged ∧ ∀ r id, op = .readState r id → w.StreamOf m r
  | .bus m op => m < w.nManaged ∧ op.In w m
  | .ms m op => m < w.nManaged ∧ op.In w m
  | .recv r op => r < w.nRecvs ∧ (w.recvs r).owner < w.nManaged ∧ op.In w r
  | .turn t op => t < w.nTurns ∧ (w.turns t).ms < w.nManaged ∧
      ∀ m, op = .doneTurn (some m) → (w.turns t).ms = m
  | .svc op => op.In w

/-- The tables of the state name what exists. -/
structure World.In (w : World) : Prop where
  sessions : ∀ p ∈ w.svc.sessions, w.HasSession p
  subs : ∀ m < w.nManaged, ∀ p ∈ (w.buses m).subs, p.2.In w m
  streams : ∀ m < w.nManaged, ∀ r ∈ (w.managed m).streams, w.HasRecv m r
  turnDone : ∀ m < w.nManaged, ∀ t ∈ (w.managed m).turnDone, w.HasTurn m t
  recvs : ∀ r < w.nRecvs, (w.recvs r).owner < w.nManaged ∧
    ∀ t ∈ (w.recvs r).turn, w.HasTurn (w.recvs r).owner t
  turns : ∀ t < w.nTurns, (w.turns t).ms < w.nManaged

/-! ### Monotonicity -/

section Mono

variable {w w' : World} {m : MsRef} (he : w.Extends w')
include he

theorem Handler.In.mono {h : Handler} (hi : h.In w m) : h.In w' m := by
  cases h with
  | publisher => trivial
  | tracker t => exact World.HasTurn.mono he hi
  | turn r t => exact World.TurnPair.mono he hi
  | stream r => exact World.StreamOf.mono he hi

theorem Caller.In.mono {caller : Caller} (hi : caller.In w m) : caller.In w' m := by
  cases caller with
  | service r t => exact World.TurnPair.mono he hi
  | direct => trivial

theorem Setup.In.mono {setup : Setup} (hi : setup.In w m r) : setup.In w' m r := by
  cases setup with
  | turn t kick => exact World.TurnPair.mono he hi
  | stream => exact World.StreamOf.mono he hi

theorem StopCaller.In.mono {sc : StopCaller} (hi : sc.In w m) : sc.In w' m := by
  cases sc with
  | direct => trivial
  | destroy id => exact World.HasSession.mono he hi
  | close todo all => exact ⟨fun p hp => (hi.1 p hp).mono he, fun p hp => (hi.2 p hp).mono he⟩

theorem BusOp.In.mono {op : BusOp} (hi : op.In w m) : op.In w' m := by
  cases op with
  | subscribeTracker r t kick | subscribeTurn r t kick ids => exact World.TurnPair.mono he hi
  | subscribeStream r => exact World.StreamOf.mono he hi
  | publish evt | unsubscribe id => trivial
  | deliver evt hs => exact fun h hh => (hi h hh).mono he
  | close sc => exact StopCaller.In.mono he hi

theorem MsOp.In.mono {op : MsOp} (hi : op.In w m) : op.In w' m := by
  cases op with
  | setTurnDone r t kick | readStarted r t message => exact World.TurnPair.mono he hi
  | clearTurnDone t => exact World.HasTurn.mono he hi
  | setStarted r | handOut r | removeStream r => exact World.HasRecv.mono he hi
  | addStream r setup => exact Setup.In.mono he hi
  | completeActiveTurn td => exact fun d hd => (hi d hd).mono he
  | closeAllStreams td => exact StopCaller.In.mono he hi
  | closeStreams rs => exact fun r hr => (hi r hr).mono he
  | publish evt => trivial

theorem RecvOp.In.mono {op : RecvOp} (hr : r < w.nRecvs) (hi : op.In w r) : op.In w' r := by
  cases op with
  | pushCheck evt turn | pushSelect evt turn =>
    refine ⟨hi.1.trans (he.turn r hr).symm, fun t ht => ?_⟩
    rw [he.owner r hr]
    exact (hi.2 t ht).mono he
  | setCloseHook hook setup =>
    show setup.In w' _ r
    rw [he.owner r hr]
    exact Setup.In.mono he hi
  | close by_ | hooksDone | recv | recvDrain closed | recvWait => trivial

theorem SvcOp.In.mono {op : SvcOp} (hi : op.In w) : op.In w' := by
  cases op with
  | newTurn m kick | ret m err | destroyReturn m err => exact lt_of_lt_of_le hi he.managed
  | stopped m td => exact ⟨hi.1.trans_le he.managed, hi.2.mono he⟩
  | delete id m err => exact World.HasSession.mono he hi
  | closeNext todo all | closeCancel todo all =>
    exact ⟨fun p hp => (hi.1 p hp).mono he, fun p hp => (hi.2 p hp).mono he⟩
  | closeDelete all | closeWait all | closeWaitAgain all | closeReturn all err =>
    exact fun p hp => (hi p hp).mono he
  | _ => trivial

theorem Op.In.mono {op : Op} (hi : op.In w) : op.In w' := by
  cases op with
  | call m caller op | stop m sc op | bus m op | ms m op =>
    exact ⟨hi.1.trans_le he.managed, hi.2.mono he⟩
  | run m k op => exact lt_of_lt_of_le hi he.managed
  | agent m op => exact ⟨hi.1.trans_le he.managed, fun r id h => (hi.2 r id h).mono he⟩
  | recv r op =>
    refine ⟨hi.1.trans_le he.recvs, ?_, hi.2.2.mono he hi.1⟩
    rw [he.owner r hi.1]
    exact hi.2.1.trans_le he.managed
  | turn t op =>
    refine ⟨hi.1.trans_le he.turns, ?_, fun m h => ?_⟩
    · rw [he.ms t hi.1]
      exact hi.2.1.trans_le he.managed
    · rw [he.ms t hi.1]
      exact hi.2.2 m h
  | svc op => exact SvcOp.In.mono he hi

end Mono

/-! ## One step -/

section Step

variable {w w' : World} {m : MsRef} {x : Choice} {more : List Op} {op : SvcOp} {r : RecvRef}
  {a a' : Agent} {s s' : ManagedSession} {v v' : Receiver} {o : Outcome World Op} {id : String}

theorem extends_setBus (w : World) (m : MsRef) (b : EventBus) : w.Extends (w.setBus m b) :=
  { World.Extends.refl w with }

theorem extends_setSvc (w : World) (s : AgentLoopService) : w.Extends { w with svc := s } :=
  { World.Extends.refl w with }

theorem extends_setManaged (h : s.sessionID = (w.managed m).sessionID) :
    w.Extends (w.setManaged m s) :=
  { World.Extends.refl w with sessionID := fun m' _ => update_proj ManagedSession.sessionID h m' }

theorem extends_setRecv (ho : v.owner = (w.recvs r).owner) (ht : v.turn = (w.recvs r).turn) :
    w.Extends (w.setRecv r v) :=
  { World.Extends.refl w with
    owner := fun r' _ => update_proj Receiver.owner ho r'
    turn := fun r' _ => update_proj Receiver.turn ht r' }

theorem MsOp.Step.sessionID {op : MsOp} (h : op.Step m s s' more) : s'.sessionID = s.sessionID := by
  cases h <;> rfl

theorem RecvOp.Step.owner {op : RecvOp} (h : op.Step r v x v' more) :
    v'.owner = v.owner ∧ v'.turn = v.turn := by
  cases h <;> exact ⟨rfl, rfl⟩

theorem extends_setOnce (w : World) (t : TurnRef) (wg : Int) (o : Once) :
    w.Extends { w with
      wg := wg
      turns := update w.turns t { w.turns t with once := o } } :=
  { World.Extends.refl w with ms := fun t' _ => update_proj DoneTurn.ms (by rfl) t' }

theorem extends_insertSession (w : World) (cfg : SessionConfig) (id : String)
    (log : List AgentMessage) (started : Bool) :
    w.Extends (w.insertSession cfg id log started) :=
  { World.Extends.refl w with
    managed := Nat.le_succ _
    sessionID := fun m hm => by simp [World.insertSession, ne_of_lt hm] }

theorem extends_newTurn (w : World) (m : MsRef) : w.Extends (w.newTurn m) := by
  refine ⟨le_rfl, Nat.le_succ _, Nat.le_succ _, fun _ _ => rfl, ?_, ?_, ?_⟩ <;>
    exact fun _ h => by simp [World.newTurn, ne_of_lt h]

theorem extends_newStream (w : World) (m : MsRef) : w.Extends (w.newStream m) := by
  refine ⟨le_rfl, Nat.le_succ _, le_rfl, fun _ _ => rfl, ?_, ?_, fun _ _ => rfl⟩ <;>
    exact fun _ h => by simp [World.newStream, ne_of_lt h]

theorem extends_markDestroyed (w : World) (m : MsRef) : w.Extends (w.markDestroyed m) :=
  extends_setManaged rfl

theorem SvcOp.Step.extends (h : op.Step w x w' more) : w.Extends w' := by
  cases h with
  | refused | close | delete => exact extends_setSvc w _
  | created => exact (extends_setSvc w _).trans (extends_insertSession _ _ _ _ _)
  | subscribed => exact extends_newStream w _
  | destroy | closeNext => exact extends_markDestroyed w _
  | newTurn => exact extends_newTurn w _
  | closeDelete =>
    rename_i all
    induction all generalizing w with
    | nil => exact .refl w
    | cons p all ih => exact (extends_setSvc w _).trans ih
  | _ => exact .refl w

theorem Step.extends {op : Op} (h : Step x w op o) : w.Extends o.state := by
  cases h with
  | call | run | stop | agent => exact { World.Extends.refl w with }
  | bus => exact extends_setBus w _ _
  | ms hs => exact extends_setManaged hs.sessionID
  | recv hs => exact extends_setRecv hs.owner.1 hs.owner.2
  | turn hs =>
    cases hs with
    | done => exact extends_setOnce w _ _ _
    | doneAgain => exact .refl w
    | onceDone => exact extends_setOnce w _ w.wg _
  | svc hs => exact hs.extends

/-! ### The tables after a step -/

namespace World.In

variable {a : Agent} {b : EventBus} {s : ManagedSession} {v : Receiver} {r : RecvRef}

theorem setAgent (h : w.In) : (w.setAgent m a).In :=
  ⟨h.sessions, h.subs, h.streams, h.turnDone, h.recvs, h.turns⟩

theorem setBus (h : w.In) (hs : ∀ p ∈ b.subs, p.2.In w m) : (w.setBus m b).In := by
  refine ⟨h.sessions, fun m' hm' p hp => ?_, h.streams, h.turnDone, h.recvs, h.turns⟩
  rcases of_update (p ∈ EventBus.subs ·) hp with ⟨rfl, hnew⟩ | ⟨-, hold⟩
  · exact (hs p hnew).mono (extends_setBus w _ _)
  · exact (h.subs m' hm' p hold).mono (extends_setBus w _ _)

theorem setManaged (h : w.In) (hid : s.sessionID = (w.managed m).sessionID)
    (hst : ∀ r ∈ s.streams, w.HasRecv m r) (htd : ∀ t ∈ s.turnDone, w.HasTurn m t) :
    (w.setManaged m s).In := by
  have he := extends_setManaged hid
  refine ⟨fun p hp => (h.sessions p hp).mono he, fun m' hm' p hp => (h.subs m' hm' p hp).mono he,
    fun m' hm' r hr => ?_, fun m' hm' t ht => ?_, h.recvs, h.turns⟩
  · rcases of_update (r ∈ ManagedSession.streams ·) hr with ⟨rfl, hnew⟩ | ⟨-, hold⟩
    · exact (hst r hnew).mono he
    · exact (h.streams m' hm' r hold).mono he
  · rcases of_update (t ∈ ManagedSession.turnDone ·) ht with ⟨rfl, hnew⟩ | ⟨-, hold⟩
    · exact (htd t hnew).mono he
    · exact (h.turnDone m' hm' t hold).mono he

theorem recv_mono (h : w.In) (he : w.Extends w') (hr : r < w.nRecvs) :
    (w'.recvs r).owner < w'.nManaged ∧
      ∀ t ∈ (w'.recvs r).turn, w'.HasTurn (w'.recvs r).owner t := by
  rw [he.owner r hr, he.turn r hr]
  exact ⟨(h.recvs r hr).1.trans_le he.managed, fun t ht => ((h.recvs r hr).2 t ht).mono he⟩

theorem setRecv (h : w.In) (ho : v.owner = (w.recvs r).owner) (ht : v.turn = (w.recvs r).turn) :
    (w.setRecv r v).In := by
  have he := extends_setRecv ho ht
  exact ⟨h.sessions, fun m hm p hp => (h.subs m hm p hp).mono he,
    fun m hm r' hr => (h.streams m hm r' hr).mono he,
    fun m hm t' ht' => (h.turnDone m hm t' ht').mono he, fun _ hr => h.recv_mono he hr, h.turns⟩

theorem setOnce (h : w.In) (t : TurnRef) (wg : Int) (o : Once) :
    World.In { w with
      wg := wg
      turns := update w.turns t { w.turns t with once := o } } := by
  have he := extends_setOnce w t wg o
  refine ⟨h.sessions, fun m hm p hp => (h.subs m hm p hp).mono he, h.streams,
    fun m hm t' ht' => (h.turnDone m hm t' ht').mono he, fun _ hr => h.recv_mono he hr,
    fun t' ht' => ?_⟩
  rw [he.ms t' ht']
  exact h.turns t' ht'

theorem setSvc (h : w.In) {s : AgentLoopService}
    (hs : ∀ p ∈ s.sessions, p ∈ w.svc.sessions) : World.In { w with svc := s } :=
  ⟨fun p hp => h.sessions p (hs p hp), h.subs, h.streams, h.turnDone, h.recvs, h.turns⟩

theorem setGenerated (h : w.In) (n : Nat) : (w.setGenerated n).In := h.setSvc fun _ h => h

theorem insertSession (h : w.In) (cfg : SessionConfig) (id : String) (log : List AgentMessage)
    (started : Bool) : (w.insertSession cfg id log started).In := by
  have he := extends_insertSession w cfg id log started
  have hlast : ∀ m, m < w.nManaged + 1 → m ≠ w.nManaged → m < w.nManaged := by omega
  refine ⟨fun p hp => ?_, fun m hm p hp => ?_, fun m hm r hr => ?_, fun m hm t ht => ?_,
    fun r hr => ?_, fun t ht => (h.turns t ht).trans_le he.managed⟩
  · rcases mem_concat.mp hp with hp | rfl
    · exact (h.sessions p hp).mono he
    · exact ⟨Nat.lt_succ_self _, by simp [World.insertSession]⟩
  · by_cases hm' : m = w.nManaged
    · subst hm'
      simp only [World.insertSession, update_self] at hp
      split at hp
      · simp only [EventBus.subscribe, Bool.false_eq_true, if_false, nil_append,
          mem_singleton] at hp
        subst hp
        trivial
      · cases hp
    · simp only [World.insertSession, update_of_ne hm'] at hp
      exact (h.subs m (hlast m hm hm') p hp).mono he
  · rcases of_update (r ∈ ManagedSession.streams ·) hr with ⟨-, hr⟩ | ⟨hne, hr⟩
    · cases hr
    · exact (h.streams m (hlast m hm hne) r hr).mono he
  · rcases of_update (t ∈ ManagedSession.turnDone ·) ht with ⟨-, ht⟩ | ⟨hne, ht⟩
    · cases ht
    · exact (h.turnDone m (hlast m hm hne) t ht).mono he
  · exact h.recv_mono he hr

theorem newTurn (h : w.In) (hm : m < w.nManaged) : (w.newTurn m).In := by
  have he := extends_newTurn w m
  have hturn : (w.newTurn m).HasTurn m w.nTurns := ⟨Nat.lt_succ_self _, by simp [World.newTurn]⟩
  refine ⟨h.sessions, fun m hm p hp => (h.subs m hm p hp).mono he,
    fun m hm r hr => (h.streams m hm r hr).mono he,
    fun m hm t ht => (h.turnDone m hm t ht).mono he, fun r hr => ?_, fun t ht => ?_⟩
  · rcases Nat.lt_succ_iff_lt_or_eq.mp hr with hr | rfl
    · exact h.recv_mono he hr
    · have hv : (w.newTurn m).recvs w.nRecvs =
          newServiceEventReceiver m (some w.nTurns) turnStreamBufferSize := by
        simp [World.newTurn]
      rw [hv]
      refine ⟨hm, fun t ht => ?_⟩
      cases ht
      exact hturn
  · rcases Nat.lt_succ_iff_lt_or_eq.mp ht with ht | rfl
    · rw [he.ms t ht]
      exact h.turns t ht
    · rw [hturn.2]
      exact hm

theorem newStream (h : w.In) (hm : m < w.nManaged) : (w.newStream m).In := by
  have he := extends_newStream w m
  refine ⟨h.sessions, fun m hm p hp => (h.subs m hm p hp).mono he,
    fun m hm r hr => (h.streams m hm r hr).mono he, h.turnDone, fun r hr => ?_, h.turns⟩
  rcases Nat.lt_succ_iff_lt_or_eq.mp hr with hr | rfl
  · exact h.recv_mono he hr
  · have hv : (w.newStream m).recvs w.nRecvs =
        newServiceEventReceiver m none sessionStreamBufferSize := by
      simp [World.newStream]
    rw [hv]
    exact ⟨hm, nofun⟩

end World.In

/-! ### What follows a step -/

section Continuations

variable {caller : Caller} {sc : StopCaller} {r : RecvRef} {setup : Setup} {evt : AgentEvent}

section

variable (hm : m < w.nManaged)

include hm

theorem emitChange_in : ∀ b ∈ emitChange m changed dst origin, b.In w := by
  unfold emitChange
  split
  · exact forall_mem_singleton.mpr ⟨hm, nofun⟩
  · exact forall_mem_nil _

theorem callOk_in (hc : caller.In w m) : ∀ b ∈ callOk m caller, b.In w := by
  cases caller with
  | service r t =>
    exact forall_mem_singleton.mpr ⟨hm, hc.1⟩
  | direct =>
    exact forall_mem_singleton.mpr hm

theorem callFail_in (hc : caller.In w m) : ∀ b ∈ callFail m err caller, b.In w := by
  cases caller with
  | service r t =>
    obtain ⟨⟨hr, ho⟩, -, ht, hms⟩ := hc
    simp only [callFail, forall_mem_cons]
    refine ⟨⟨ht, hms ▸ hm, ?_⟩, ⟨hr, ho ▸ hm, trivial⟩, hm, forall_mem_nil _⟩
    rintro m' h
    cases h
    exact hms
  | direct =>
    exact forall_mem_singleton.mpr hm

theorem hookOps_in (hr : w.HasRecv m r) (hook : Hook) : ∀ b ∈ hook.ops m r, b.In w := by
  cases hook with
  | unsubscribe ids =>
    rintro b hb
    obtain ⟨id, -, rfl⟩ := mem_map.mp hb
    exact ⟨hm, trivial⟩
  | removeStream =>
    exact forall_mem_singleton.mpr ⟨hm, hr⟩

theorem finish_in (hs : setup.In w m r) : (setup.finish m r).In w := by
  cases setup with
  | turn t kick => cases kick <;> exact ⟨hm, hs⟩
  | stream => exact ⟨hm, hs.1⟩

theorem hookNext_in (hs : setup.In w m r) (hook : Hook) : (hook.next m r setup).In w := by
  cases hook with
  | unsubscribe ids => exact ⟨hm, hs⟩
  | removeStream => exact finish_in hm hs

theorem handlerCall_in {h : Handler} (hh : h.In w m) : ∀ b ∈ h.call m id evt, b.In w := by
  cases h with
  | publisher =>
    exact forall_mem_singleton.mpr ⟨hm, trivial⟩
  | tracker t =>
    obtain ⟨ht, hms⟩ := hh
    simp only [Handler.call]
    split
    · exact forall_mem_singleton.mpr ⟨ht, hms ▸ hm, fun _ he => by cases he⟩
    · exact forall_mem_nil _
  | turn r t =>
    obtain ⟨⟨hr, ho⟩, htr, ht⟩ := hh
    rintro b hb
    rw [mem_singleton.mp hb]
    refine ⟨hr, ho ▸ hm, htr.symm, fun t' ht' => ?_⟩
    cases ht'
    exact ho ▸ ht
  | stream r =>
    obtain ⟨⟨hr, ho⟩, htr⟩ := hh
    exact forall_mem_singleton.mpr ⟨hr, ho ▸ hm, htr.symm, fun _ he => by cases he⟩

theorem unsubscribePublisher_in (s : ManagedSession) : ∀ b ∈ unsubscribePublisher m s, b.In w := by
  unfold unsubscribePublisher
  split
  · exact forall_mem_singleton.mpr ⟨hm, trivial⟩
  · exact forall_mem_nil _

end

theorem afterTeardown_in (ht : td.1.In w m) : ∀ b ∈ afterTeardown m td, b.In w := by
  obtain ⟨sc, err⟩ := td
  cases sc with
  | direct => exact forall_mem_nil _
  | destroy id | close todo all => exact forall_mem_singleton.mpr ht

theorem pushed_in (hr : r < w.nRecvs) (ho : (w.recvs r).owner < w.nManaged)
    (ht : ∀ t ∈ turn, w.HasTurn (w.recvs r).owner t) : ∀ b ∈ pushed r evt turn, b.In w := by
  cases turn with
  | none => exact forall_mem_nil _
  | some t =>
    obtain ⟨ht, hms⟩ := ht t rfl
    by_cases hterm : isTerminalTurnEvent evt = true
    · rw [pushed, if_pos hterm]
      exact forall_mem_cons.mpr
        ⟨⟨hr, ho, trivial⟩, forall_mem_singleton.mpr ⟨ht, hms ▸ ho, fun _ he => by cases he⟩⟩
    · rw [pushed, if_neg hterm]
      exact forall_mem_nil _

end Continuations

theorem subscribe_in {b : EventBus} {h : Handler} (hb : ∀ p ∈ b.subs, p.2.In w m)
    (hh : h.In w m) : ∀ p ∈ (b.subscribe h).1.subs, p.2.In w m := by
  unfold EventBus.subscribe
  split
  · exact hb
  · exact forall_mem_concat.mpr ⟨hb, hh⟩

theorem CallOp.Step.next_in {caller : Caller} {op : CallOp} (h : op.Step m caller a a' more spawn)
    (hm : m < w.nManaged) (hc : caller.In w m) :
    (∀ b ∈ more, b.In w) ∧ ∀ th ∈ spawn, ∀ b ∈ th, b.In w := by
  have hcall : ∀ op, ∀ b ∈ [Op.call m caller op], b.In w :=
    fun _ => forall_mem_singleton.mpr ⟨hm, hc⟩
  cases h with
  | claimRefused | unclaimed | driverPanic | failIdleFailed | continueFailIdle =>
    exact ⟨callFail_in hm hc, forall_mem_nil _⟩
  | transitioned =>
    refine ⟨forall_mem_append.mpr ⟨emitChange_in hm, ?_⟩, forall_mem_nil _⟩
    exact forall_mem_cons.mpr ⟨⟨hm, nofun⟩, hcall _⟩
  | driverOk => exact ⟨callOk_in hm hc, forall_mem_nil _⟩
  | goRun =>
    refine ⟨callOk_in hm hc, ?_⟩
    simp only [forall_mem_cons]
    exact ⟨⟨hm, hm, forall_mem_nil _⟩, forall_mem_nil _⟩
  | failIdle =>
    exact ⟨forall_mem_append.mpr ⟨emitChange_in hm, callFail_in hm hc⟩, forall_mem_nil _⟩
  | _ => exact ⟨hcall _, forall_mem_nil _⟩

theorem StopOp.Step.next_in {sc : StopCaller} {op : StopOp} (h : op.Step m sc a x a' more)
    (hm : m < w.nManaged) (hs : sc.In w m) : ∀ b ∈ more, b.In w := by
  cases h with
  | driverStop _ hcs =>
    refine forall_mem_concat.mpr ⟨fun b hb => ?_, ⟨hm, hs⟩⟩
    obtain ⟨k, rfl⟩ := hcs b hb
    exact ⟨hm, nofun⟩
  | exit =>
    refine forall_mem_append.mpr ⟨emitChange_in hm, ?_⟩
    exact forall_mem_cons.mpr ⟨⟨hm, nofun⟩, forall_mem_singleton.mpr ⟨hm, hs⟩⟩
  | _ => exact forall_mem_singleton.mpr ⟨hm, hs⟩

theorem SvcOp.Lookup.next_in {next : Op} (h : op.Lookup id m next) (hm : m < w.nManaged) :
    next.In w := by
  cases h with
  | send | continue_ => exact hm
  | steer | followUp | abort => exact ⟨hm, nofun⟩

theorem deleteAll_eq (w : World) (all : List (String × MsRef)) :
    all.foldl (fun w p => w.deleteSession p.1) w = { w with svc := { w.svc with
      sessions := w.svc.sessions.filter fun q => all.all fun p => q.1 ≠ p.1 } } := by
  induction all generalizing w with
  | nil => simp
  | cons p all ih =>
    rw [foldl_cons, ih]
    simp [World.deleteSession, filter_filter, Bool.and_comm]

theorem SvcOp.Step.agents (h : op.Step w x w' more) (hm : m < w.nManaged) :
    w'.agents m = w.agents m := by
  cases h with
  | created => exact update_of_ne (ne_of_lt hm) _ _
  | closeDelete =>
    rw [deleteAll_eq]
  | _ => rfl

theorem SvcOp.Step.in_ (h : op.Step w x w' more) (hw : w.In) (ho : op.In w) :
    w'.In ∧ ∀ b ∈ more, b.In w' := by
  have hsub : ∀ todo : List (String × MsRef), (∀ p ∈ todo, w.HasSession p) →
      ∀ i, ∀ p ∈ todo.eraseIdx i, w.HasSession p :=
    fun todo ht i p hp => ht p (mem_of_mem_eraseIdx hp)
  cases h with
  | refused => exact ⟨hw.setSvc fun _ h => h, forall_mem_singleton.mpr trivial⟩
  | created => exact ⟨World.In.insertSession (hw.setGenerated _) _ _ _ _, forall_mem_nil _⟩
  | found hl hmem => exact ⟨hw, forall_mem_singleton.mpr (hl.next_in (hw.sessions _ hmem).1)⟩
  | subscribed hmem =>
    have hm := (hw.sessions _ hmem).1
    refine ⟨hw.newStream hm, forall_mem_singleton.mpr ⟨hm, ?_⟩⟩
    rintro r id' h
    cases h
    exact ⟨⟨Nat.lt_succ_self _, by simp [World.newStream, newServiceEventReceiver]⟩,
      by simp [World.newStream, newServiceEventReceiver]⟩
  | @destroy _ _ m hl =>
    have hs := hw.sessions _ (World.lookup_some hl)
    refine ⟨hw.setManaged rfl (hw.streams _ hs.1) (hw.turnDone _ hs.1), ?_⟩
    have he := extends_markDestroyed w m
    refine forall_mem_append.mpr ⟨fun b hb => (unsubscribePublisher_in hs.1 _ b hb).mono he, ?_⟩
    exact forall_mem_singleton.mpr ⟨hs.1, hs.mono he⟩
  | closeAgain | returned => exact ⟨hw, forall_mem_nil _⟩
  | close =>
    exact ⟨hw.setSvc fun _ h => h, forall_mem_singleton.mpr ⟨hw.sessions, hw.sessions⟩⟩
  | newTurn =>
    refine ⟨hw.newTurn ho, forall_mem_singleton.mpr ⟨ho, ⟨⟨Nat.lt_succ_self _, ?_⟩, ?_,
      Nat.lt_succ_self _, ?_⟩⟩⟩ <;> simp [World.newTurn, newServiceEventReceiver]
  | stoppedDirect => exact ⟨hw, forall_mem_singleton.mpr ho.1⟩
  | stopped =>
    refine ⟨hw, forall_mem_cons.mpr ⟨⟨ho.1, nofun⟩, forall_mem_singleton.mpr ⟨ho.1, ?_⟩⟩⟩
    rintro d hd
    cases hd
    exact ho.2
  | delete =>
    exact ⟨hw.setSvc fun _ h => (mem_filter.mp h).1, forall_mem_singleton.mpr ho.1⟩
  | closedAll | cancelledAll => exact ⟨hw, forall_mem_singleton.mpr ho.2⟩
  | @closeNext _ todo all i id m hi =>
    have hs := ho.1 _ (mem_of_getElem? hi)
    have he := extends_markDestroyed w m
    refine ⟨hw.setManaged rfl (hw.streams _ hs.1) (hw.turnDone _ hs.1), ?_⟩
    refine forall_mem_append.mpr ⟨fun b hb => (unsubscribePublisher_in hs.1 _ b hb).mono he, ?_⟩
    exact forall_mem_singleton.mpr ⟨hs.1, fun p hp => (hsub _ ho.1 _ p hp).mono he,
      fun p hp => (ho.2 p hp).mono he⟩
  | closeDelete =>
    rw [deleteAll_eq]
    exact ⟨hw.setSvc fun _ hp => (mem_filter.mp hp).1, forall_mem_singleton.mpr ho⟩
  | drained | closeEnd => exact ⟨hw, forall_mem_singleton.mpr ho⟩
  | timedOut => exact ⟨hw, forall_mem_singleton.mpr ⟨ho, ho⟩⟩
  | closeCancel hi =>
    have hs := ho.1 _ (mem_of_getElem? hi)
    refine ⟨hw, forall_mem_cons.mpr ⟨⟨hs.1, nofun⟩, forall_mem_cons.mpr ⟨⟨hs.1, nofun⟩,
      forall_mem_singleton.mpr ⟨hsub _ ho.1 _, ho.2⟩⟩⟩⟩

theorem BusOp.Step.in_ {op : BusOp} {b' : EventBus} (h : op.Step m id (w.buses m) b' more)
    (hw : w.In) (hm : m < w.nManaged) (ho : op.In w m) :
    (∀ p ∈ b'.subs, p.2.In w m) ∧ ∀ b ∈ more, b.In w := by
  have hsubs := hw.subs m hm
  cases h with
  | subscribeTracker =>
    exact ⟨subscribe_in hsubs ho.2.2, forall_mem_singleton.mpr ⟨hm, ho⟩⟩
  | subscribeTurn | subscribeStream =>
    have hown := ho.1
    exact ⟨subscribe_in hsubs ho, forall_mem_singleton.mpr ⟨hown.1, hown.2 ▸ hm, hown.2 ▸ ho⟩⟩
  | publishDropped | delivered => exact ⟨hsubs, forall_mem_nil _⟩
  | publish =>
    refine ⟨hsubs, forall_mem_singleton.mpr ⟨hm, fun h hh => ?_⟩⟩
    obtain ⟨p, hp, rfl⟩ := mem_map.mp hh
    exact hsubs p hp
  | deliver hi =>
    refine ⟨hsubs, forall_mem_append.mpr ⟨handlerCall_in hm (ho _ (mem_of_getElem? hi)), ?_⟩⟩
    exact forall_mem_singleton.mpr ⟨hm, fun h hh => ho h (mem_of_mem_eraseIdx hh)⟩
  | unsubscribe =>
    exact ⟨fun p hp => hsubs p ((mem_filter.mp hp).1), forall_mem_nil _⟩
  | close => exact ⟨forall_mem_nil _, forall_mem_singleton.mpr ⟨hm, ho⟩⟩

theorem MsOp.Step.in_ {op : MsOp} (h : op.Step m (w.managed m) s' more) (hw : w.In)
    (hm : m < w.nManaged) (ho : op.In w m) :
    (∀ r ∈ s'.streams, w.HasRecv m r) ∧ (∀ t ∈ s'.turnDone, w.HasTurn m t) ∧
      ∀ b ∈ more, b.In w := by
  have hst := hw.streams m hm
  have htd := hw.turnDone m hm
  have htaken : ∀ b ∈ takenTurn m (w.managed m).turnDone, b.In w := by
    cases hd : (w.managed m).turnDone with
    | none => exact forall_mem_nil _
    | some t =>
      obtain ⟨ht, hms⟩ := htd t hd
      refine forall_mem_singleton.mpr ⟨ht, hms ▸ hm, ?_⟩
      rintro m' h
      cases h
      exact hms
  cases h with
  | setTurnDone =>
    refine ⟨hst, fun t ht => ?_, forall_mem_singleton.mpr ⟨hm, ho⟩⟩
    cases ht
    exact ho.2.2
  | clearTurnDone =>
    exact ⟨hst, nofun, forall_mem_singleton.mpr ⟨ho.1, ho.2 ▸ hm, nofun⟩⟩
  | readStarted | setStarted => exact ⟨hst, htd, forall_mem_singleton.mpr ⟨hm, ho⟩⟩
  | handOut | streamsClosed | publish => exact ⟨hst, htd, forall_mem_nil _⟩
  | @addStream r setup =>
    have hr : w.HasRecv m r := by
      cases setup with
      | turn t kick | stream => exact ho.1
    refine ⟨fun r' hr' => ?_, htd, ?_⟩
    · rcases mem_concat.mp hr' with h | rfl
      · exact hst r' h
      · exact hr
    · refine forall_mem_singleton.mpr ⟨hr.1, hr.2 ▸ hm, ?_⟩
      show setup.In w (w.recvs r).owner r
      rw [hr.2]
      exact ho
  | removeStream =>
    exact ⟨fun r hr => hst r ((mem_filter.mp hr).1), htd, forall_mem_nil _⟩
  | completeActiveTurn =>
    exact ⟨hst, nofun, forall_mem_concat.mpr ⟨htaken, ⟨hm, ho _ rfl⟩⟩⟩
  | completeAgain => exact ⟨hst, nofun, htaken⟩
  | closeAllStreams =>
    exact ⟨forall_mem_nil _, htd, forall_mem_cons.mpr ⟨⟨hm, hst⟩, afterTeardown_in ho⟩⟩
  | closeStream hi =>
    obtain ⟨hr, hown⟩ := ho _ (mem_of_getElem? hi)
    exact ⟨hst, htd, forall_mem_cons.mpr ⟨⟨hr, hown ▸ hm, trivial⟩,
      forall_mem_singleton.mpr ⟨hm, fun r hr => ho r (mem_of_mem_eraseIdx hr)⟩⟩⟩

theorem RecvOp.Step.next_in {op : RecvOp} (h : op.Step r (w.recvs r) x v' more) (hr : r < w.nRecvs)
    (hown : (w.recvs r).owner < w.nManaged) (ho : op.In w r) : ∀ b ∈ more, b.In w := by
  have hself : w.HasRecv (w.recvs r).owner r := ⟨hr, rfl⟩
  cases h with
  | pushOpen => exact forall_mem_singleton.mpr ⟨hr, hown, ho⟩
  | send => exact pushed_in hr hown ho.2
  | hookRun =>
    exact forall_mem_concat.mpr
      ⟨hookOps_in hown hself _, (hookNext_in hown ho _)⟩
  | hookKept => exact forall_mem_singleton.mpr (hookNext_in hown ho _)
  | close =>
    refine forall_mem_concat.mpr ⟨fun b hb => ?_, ⟨hr, hown, trivial⟩⟩
    obtain ⟨hook, -, hb⟩ := mem_flatMap.mp hb
    exact hookOps_in hown hself hook b hb
  | recv | drainWait | wakeClosed => exact forall_mem_singleton.mpr ⟨hr, hown, trivial⟩
  | _ => exact forall_mem_nil _

theorem AgentOp.Step.next_in {op : AgentOp} (h : op.Step m a a' more) (hm : m < w.nManaged)
    (ho : ∀ r id, op = .readState r id → w.StreamOf m r) : ∀ b ∈ more, b.In w := by
  cases h with
  | emit => exact forall_mem_singleton.mpr ⟨hm, trivial⟩
  | readState =>
    obtain ⟨⟨hr, hown⟩, ht⟩ := ho _ _ rfl
    exact forall_mem_cons.mpr ⟨⟨hr, hown ▸ hm, ht.symm, nofun⟩,
      forall_mem_singleton.mpr ⟨hm, ho _ _ rfl⟩⟩
  | refused => exact forall_mem_singleton.mpr hm
  | steer | enqueueCheck => exact forall_mem_singleton.mpr ⟨hm, nofun⟩
  | enqueued => exact forall_mem_cons.mpr ⟨⟨hm, nofun⟩, forall_mem_singleton.mpr hm⟩
  | _ => exact forall_mem_nil _

theorem Step.in_ {op : Op} (h : Step x w op o) (hw : w.In) (ho : op.In w) :
    o.state.In ∧ (∀ b ∈ o.more, b.In o.state) ∧ ∀ th ∈ o.spawn, ∀ b ∈ th, b.In o.state := by
  have he := h.extends
  cases h with
  | call hs =>
    obtain ⟨hmore, hspawn⟩ := hs.next_in ho.1 ho.2
    exact ⟨hw.setAgent, fun b hb => (hmore b hb).mono he,
      fun th hth b hb => (hspawn th hth b hb).mono he⟩
  | run hr =>
    refine ⟨hw.setAgent, fun b hb => ?_, forall_mem_nil _⟩
    cases (RunOp.exec_effect hr).next b hb with
    | run | idle => exact ho
    | emit => exact ⟨ho, nofun⟩
  | stop hs | agent hs =>
    exact ⟨hw.setAgent, fun b hb => (hs.next_in ho.1 ho.2 b hb).mono he, forall_mem_nil _⟩
  | bus hs =>
    obtain ⟨hsubs, hmore⟩ := hs.in_ hw ho.1 ho.2
    exact ⟨hw.setBus hsubs, fun b hb => (hmore b hb).mono he, forall_mem_nil _⟩
  | ms hs =>
    obtain ⟨hst, htd, hmore⟩ := hs.in_ hw ho.1 ho.2
    exact ⟨hw.setManaged hs.sessionID hst htd, fun b hb => (hmore b hb).mono he, forall_mem_nil _⟩
  | recv hs =>
    exact ⟨hw.setRecv hs.owner.1 hs.owner.2,
      fun b hb => (hs.next_in ho.1 ho.2.1 ho.2.2 b hb).mono he, forall_mem_nil _⟩
  | turn hs =>
    obtain ⟨ht, hms, -⟩ := ho
    cases hs with
    | done =>
      exact ⟨hw.setOnce _ _ _, forall_mem_singleton.mpr ⟨hms, World.HasTurn.mono he ⟨ht, rfl⟩⟩,
        forall_mem_nil _⟩
    | doneAgain => exact ⟨hw, forall_mem_nil _, forall_mem_nil _⟩
    | onceDone =>
      exact ⟨hw.setOnce _ w.wg _, forall_mem_nil _, forall_mem_nil _⟩
  | svc hs =>
    obtain ⟨hw', hmore⟩ := hs.in_ hw ho
    exact ⟨hw', hmore, forall_mem_nil _⟩

end Step

/-! ## Every reachable configuration -/

/-- All references of a configuration are in scope. -/
structure Scoped (c : Config World Op) : Prop where
  world : c.state.In
  ops : ∀ b, c.Pend b → b.In c.state

variable {w : World} {op : Op} {c : Config World Op}

theorem startEntry_in (hw : w.In) (h : startEntry w op = true) : op.In w := by
  unfold startEntry at h
  split at h
  · exact ⟨by simpa using h, trivial⟩
  · unfold agentEntry at h
    split at h
    · exact ⟨by simpa using h, trivial⟩
    · exact ⟨by simpa using h, trivial⟩
    · exact ⟨by simpa using h, trivial⟩
    · exact ⟨by simpa using h, nofun⟩
    · simp only [Bool.and_eq_true, decide_eq_true_eq] at h
      exact ⟨h.1, nofun⟩
    · unfold serviceEntry at h
      split at h
      all_goals first
        | trivial
        | cases h
        | skip
      · have hr := of_decide_eq_true h
        exact ⟨hr, (hw.recvs _ hr).1, trivial⟩
      · have hr := of_decide_eq_true h
        exact ⟨hr, (hw.recvs _ hr).1, trivial⟩
      · simp only [Bool.and_eq_true, decide_eq_true_eq] at h
        exact ⟨h.1.1, nofun⟩

theorem Scoped.initial (publisher : Bool) (maxSess : Nat) :
    Scoped (initialConfig publisher maxSess) :=
  ⟨⟨forall_mem_nil _, nofun, nofun, nofun, nofun, nofun⟩, fun b hb => by
    obtain ⟨th, hth, -⟩ := hb
    cases hth⟩

theorem Scoped.call (h : Scoped c) (he : startEntry c.state a = true) : Scoped (c.call a) :=
  ⟨h.world, forall_pend_call h.ops (startEntry_in h.world he)⟩

theorem Scoped.step {i : Nat} {a : Op} {rest : List Op} {x : Choice} {o : Outcome World Op}
    (h : Scoped c) (ht : c.At i a rest) (hs : Step x c.state a o) :
    Scoped (c.advance i rest o) := by
  obtain ⟨hw, hmore, hspawn⟩ := hs.in_ h.world (h.ops a (pend_head ht))
  exact ⟨hw, forall_pend_advance ht h.ops (fun b hb => hb.mono hs.extends) hmore hspawn⟩

theorem Reach.scoped (hr : Reach (machine entry) N h₀ (initialConfig publisher maxSess) h c)
    (hentry : ∀ w op, entry w op = true → startEntry w op = true := by exact fun _ _ he => he) :
    Scoped c :=
  hr.invariant (fun _ c => Scoped c) (Scoped.initial publisher maxSess)
    (fun _ _ _ hc he => hc.call (hentry _ _ he))
    (fun _ _ _ _ _ _ _ hc ht hx _ => hc.step ht (step_of_exec hx))

theorem startEntry_of_agentEntry (h : agentEntry w op = true) : startEntry w op = true := by
  unfold startEntry
  split
  · cases h
  · exact h

theorem agentEntry_of_serviceEntry (h : serviceEntry w op = true) : agentEntry w op = true := by
  unfold agentEntry
  split
  all_goals first
    | exact h
    | cases h

end FlexAgentRuntime.AgentLoop
