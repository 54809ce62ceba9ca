import FlexAgentRuntime.Interleaving.Machine
import FlexAgentRuntime.Sandbox.World

/-!
The managed processes of one session (`sandbox/process.go`) with the direct runtime, and
`DestroySession` as far as it is about them.

An action is one critical section (under the session's `mu` or the process's `mu`), one
access to the map of sessions, the start of the child, a signal, or one `select`. The
clock, the exit of a child, the order in which a map is ranged over, whether a call fails
and which branch a `select` takes is the environment's choice. A signal to a child that
has been started is delivered; the child then exits before a wait for it times out.
-/

namespace FlexAgentRuntime.ProcessHost

open Interleaving Function List
open SandboxHost (SessionState)

/-- References to the `ManagedProcess`es that have been registered. -/
abbrev ProcRef := Nat

inductive ProcessStatus where
  | starting | running | exited
  deriving DecidableEq, Repr

/-- The operating system's process behind a `ManagedProcess`. -/
inductive Child where
  | unborn | running | gone
  deriving DecidableEq, Repr

/-- `ManagedProcess`. `cmd` says that the field is set, `proxy` is the address of the
field's `portProxy`; `child`, `signalled` and `listening` are what there is of the process
and of the proxy's listener outside the record. -/
structure ManagedProcess where
  id : String
  status : ProcessStatus := .starting
  exitCode : Option Int := none
  exitedAt : Option Nat := none
  killSignal : Nat := 0
  cmd : Bool := false
  proxy : Option String := none
  done : Bool := false
  child : Child := .unborn
  signalled : Bool := false
  listening : Bool := false

structure World where
  sessionID : String
  /-- The map of sessions has the session. -/
  stored : Bool
  state : SessionState
  processes : List (String × ProcRef)
  processSeq : Nat
  proc : ProcRef → ManagedProcess
  nProc : Nat

structure LaunchProcessRequest where
  sessionID : String
  binary : String
  exposePort : Int
  deriving DecidableEq, Repr

structure KillProcessRequest where
  sessionID : String
  processID : String
  signal : Nat
  deriving DecidableEq, Repr

inductive ProcError where
  | sessionRequired
  | binaryRequired
  | portRange
  | processRequired
  | sessionNotFound (id : String)
  | invalidState (state : SessionState)
  | proxySetup (message : String)
  | launch (message : String)
  | processNotFound (id : String)
  | cancelled
  deriving DecidableEq, Repr

/-- `Error()`. -/
def ProcError.message : ProcError → String
  | .sessionRequired => "session_id is required"
  | .binaryRequired => "binary is required"
  | .portRange => "expose_port must be in range [0,65535]"
  | .processRequired => "process_id is required"
  | .sessionNotFound id => "sandbox: session not found: " ++ id
  | .invalidState state => "sandbox: invalid session state: session is " ++ state.name
  | .proxySetup message => "setup port proxy: " ++ message
  | .launch message => "launch process: " ++ message
  | .processNotFound id => "sandbox: process not found: " ++ id
  | .cancelled => "context canceled"

inductive Result where
  | launched (id address : String) (status : ProcessStatus)
  | done
  | failed (err : ProcError)
  deriving DecidableEq, Repr

/-! ## Actions -/

/-- `LaunchProcess`. -/
inductive LaunchOp where
  | start
  | lookup
  | register
  | createProxy (p : ProcRef)
  | setProxy (p : ProcRef) (address : String)
  | run (p : ProcRef)
  | publish (p : ProcRef)
  | closeProxy (p : ProcRef) (err : ProcError)
  | unregister (p : ProcRef) (err : ProcError)
  | closeDone (p : ProcRef) (err : ProcError)
  | respond (p : ProcRef)
  deriving DecidableEq, Repr

/-- `KillProcess`. -/
inductive KillOp where
  | start
  | lookup
  | find
  | kill (p : ProcRef) (sig : Nat)
  | signal (p : ProcRef) (sig : Nat)
  deriving DecidableEq, Repr

/-- `monitorProcess`. -/
inductive MonitorOp where
  | wait (p : ProcRef)
  | markExited (p : ProcRef)
  | closeProxy (p : ProcRef)
  | closeDone (p : ProcRef)
  deriving DecidableEq, Repr

/-- `DestroySession` with `destroySessionProcesses`. The lists are what its two loops have
still to do, and `all` the processes of the second one. -/
inductive DestroyOp where
  | lookup
  | mark
  | drain
  | list
  | killing (todo all : List ProcRef)
  | signalling (p : ProcRef) (todo all : List ProcRef)
  | awaiting (todo : List ProcRef)
  | killAgain (p : ProcRef) (todo : List ProcRef)
  | signalAgain (p : ProcRef) (todo : List ProcRef)
  | awaitAgain (p : ProcRef) (todo : List ProcRef)
  | closeProxy (p : ProcRef) (todo : List ProcRef)
  | clear
  | storage
  | delete
  deriving DecidableEq, Repr

inductive Op where
  | launch (req : LaunchProcessRequest) (op : LaunchOp)
  | kill (req : KillProcessRequest) (op : KillOp)
  | monitor (op : MonitorOp)
  | destroy (id : String) (op : DestroyOp)
  /-- The child exits. -/
  | exit (p : ProcRef)
  | ret (result : Result)
  deriving DecidableEq, Repr

inductive Choice where
  | ok
  | error (message : String)
  | address (text : String)
  | time (now : Nat)
  | exited (code : Int) (now : Nat)
  | order (procs : List ProcRef)
  | timeout
  | cancelled
  deriving DecidableEq, Repr

/-! ## Execution -/

def World.setProc (w : World) (p : ProcRef) (f : ManagedProcess → ManagedProcess) : World :=
  { w with proc := update w.proc p (f (w.proc p)) }

/-- `getSession`. -/
def World.has (w : World) (id : String) : Bool := w.stored && id == w.sessionID

/-- `exitedProcessRetention` in seconds. -/
def exitedProcessRetention : Nat := 600

/-- The process has exited and its retention has passed. -/
def ManagedProcess.stale (v : ManagedProcess) (now : Nat) : Bool :=
  v.status == .exited && v.exitedAt.any fun t => now - t > exitedProcessRetention

/-- `pruneExitedProcessesLocked`. -/
def World.prune (w : World) (now : Nat) : World :=
  { w with processes := w.processes.filter fun q => !(w.proc q.2).stale now }

def shortSessionID (id : String) : String := String.ofList (id.toList.take 8)

/-- `fmt.Sprintf("proc-%s-%d", shortSessionID(id), seq)`. -/
def processID (id : String) (seq : Nat) : String :=
  String.ofList ("proc-".toList ++ (shortSessionID id).toList ++ '-' :: Nat.toDigits 10 seq)

theorem processID_injective (id : String) : Injective (processID id) := by
  intro m n h
  have hcs := append_cancel_left (String.ofList_injective h)
  have hnum := congrArg (fun cs => Nat.ofDigitChars 10 cs 0) (tail_eq_of_cons_eq hcs)
  simpa only [Nat.ofDigitChars_toDigits (b := 10) (by decide) (by decide)] using hnum

/-- A new process, stored in the map of processes. -/
def World.register (w : World) : World :=
  { w with
    processSeq := w.processSeq + 1
    processes := w.processes.filter (·.1 ≠ processID w.sessionID (w.processSeq + 1)) ++
      [(processID w.sessionID (w.processSeq + 1), w.nProc)]
    proc := update w.proc w.nProc { id := processID w.sessionID (w.processSeq + 1) }
    nProc := w.nProc + 1 }

/-- `proxy.close()` on the proxy of the record, if there is one. -/
def ManagedProcess.closeProxy (v : ManagedProcess) : ManagedProcess :=
  if v.proxy.isSome then { v with listening := false } else v

/-- The critical section of `killManagedProcess`. -/
def ManagedProcess.kill (v : ManagedProcess) (sig : Nat) : ManagedProcess :=
  if v.status = .exited then v else { v with killSignal := sig }

/-- `killManagedProcess` goes on to signal the process. -/
def ManagedProcess.signals (v : ManagedProcess) : Bool := v.status != .exited && v.cmd

def ManagedProcess.signal (v : ManagedProcess) : ManagedProcess :=
  if v.child = .running then { v with signalled := true } else v

def LaunchOp.exec (req : LaunchProcessRequest) (x : Choice) :
    LaunchOp → World → Option (World × List Op)
  | .start, w =>
    some (w,
      if req.sessionID = "" then [.ret (.failed .sessionRequired)]
      else if req.binary = "" then [.ret (.failed .binaryRequired)]
      else if req.exposePort < 0 ∨ req.exposePort > 65535 then [.ret (.failed .portRange)]
      else [.launch req .lookup])
  | .lookup, w =>
    some (w, if w.has req.sessionID then [.launch req .register]
      else [.ret (.failed (.sessionNotFound req.sessionID))])
  | .register, w =>
    match x with
    | .time now =>
      if w.state ≠ .active then some (w, [.ret (.failed (.invalidState w.state))])
      else some ((w.prune now).register,
        if req.exposePort > 0 then [.launch req (.createProxy w.nProc)]
        else [.launch req (.run w.nProc)])
    | _ => none
  | .createProxy p, w =>
    match x with
    | .address text =>
      some (w.setProc p fun v => { v with listening := true }, [.launch req (.setProxy p text)])
    | .error message => some (w, [.launch req (.unregister p (.proxySetup message))])
    | _ => none
  | .setProxy p text, w =>
    some (w.setProc p fun v => { v with proxy := some text }, [.launch req (.run p)])
  -- `cmd.Start`: the child runs before the record says so
  | .run p, w =>
    match x with
    | .ok => some (w.setProc p fun v => { v with child := .running }, [.launch req (.publish p)])
    | .error message => some (w, [.launch req (.closeProxy p (.launch message))])
    | _ => none
  | .publish p, w =>
    some (w.setProc p fun v => { v with cmd := true, status := .running },
      [.launch req (.respond p)])
  | .closeProxy p err, w =>
    some (w.setProc p ManagedProcess.closeProxy, [.launch req (.unregister p err)])
  | .unregister p err, w =>
    some ({ w with processes := w.processes.filter (·.1 ≠ (w.proc p).id) },
      [.launch req (.closeDone p err)])
  | .closeDone p err, w =>
    some (w.setProc p fun v => { v with done := true }, [.ret (.failed err)])
  | .respond p, w =>
    some (w, [.ret (.launched (w.proc p).id ((w.proc p).proxy.getD "") (w.proc p).status)])

/-- The monitor that `LaunchProcess` starts when it answers. -/
def LaunchOp.spawn : LaunchOp → List (List Op)
  | .respond p => [[.monitor (.wait p)]]
  | _ => []

def KillOp.exec (req : KillProcessRequest) : KillOp → World → Option (World × List Op)
  | .start, w =>
    some (w,
      if req.sessionID = "" then [.ret (.failed .sessionRequired)]
      else if req.processID = "" then [.ret (.failed .processRequired)]
      else [.kill req .lookup])
  | .lookup, w =>
    some (w, if w.has req.sessionID then [.kill req .find]
      else [.ret (.failed (.sessionNotFound req.sessionID))])
  | .find, w =>
    some (w, match w.processes.find? (·.1 = req.processID) with
      | some q => [.kill req (.kill q.2 (if req.signal = 0 then 15 else req.signal))]
      | none => [.ret (.failed (.processNotFound req.processID))])
  | .kill p sig, w =>
    some (w.setProc p (·.kill sig),
      if (w.proc p).signals then [.kill req (.signal p sig)] else [.ret .done])
  | .signal p _, w => some (w.setProc p ManagedProcess.signal, [.ret .done])

def MonitorOp.exec (x : Choice) : MonitorOp → World → Option (World × List Op)
  -- `cmd.Wait`
  | .wait p, w => if (w.proc p).child = .running then none else some (w, [.monitor (.markExited p)])
  | .markExited p, w =>
    match x with
    | .exited code now =>
      if (w.proc p).status = .exited then some (w, [.monitor (.closeDone p)])
      else some (w.setProc p fun v =>
          { v with status := .exited, exitCode := some code, exitedAt := some now },
        [.monitor (.closeProxy p)])
    | _ => none
  | .closeProxy p, w =>
    some (w.setProc p ManagedProcess.closeProxy, [.monitor (.closeDone p)])
  | .closeDone p, w => some (w.setProc p fun v => { v with done := true }, [])

/-- A `select` on `proc.done`, the context and a timer. -/
def World.select (w : World) (x : Choice) (p : ProcRef) (later : List Op) (expired : List Op) :
    Option (World × List Op) :=
  match x with
  | .ok => if (w.proc p).done then some (w, later) else none
  | .cancelled => some (w, later)
  -- a child that has been signalled has exited by then
  | .timeout =>
    if (w.proc p).signalled && (w.proc p).child == .running then none else some (w, expired)
  | _ => none

def DestroyOp.exec (id : String) (x : Choice) : DestroyOp → World → Option (World × List Op)
  | .lookup, w =>
    some (w, if w.has id then [.destroy id .mark] else [.ret (.failed (.sessionNotFound id))])
  | .mark, w => some ({ w with state := .destroying }, [.destroy id .drain])
  -- the tools in flight return, or the deadline passes
  | .drain, w =>
    match x with
    | .ok | .timeout => some (w, [.destroy id .list])
    | .cancelled => some (w, [.ret (.failed .cancelled)])
    | _ => none
  | .list, w =>
    if w.processes.isEmpty then some (w, [.destroy id .storage])
    else
      match x with
      | .order procs =>
        if procs.isPerm (w.processes.map (·.2)) then some (w, [.destroy id (.killing procs procs)])
        else none
      | _ => none
  | .killing [] all, w => some (w, [.destroy id (.awaiting all)])
  | .killing (p :: todo) all, w =>
    some (w.setProc p (·.kill 15),
      if (w.proc p).signals then [.destroy id (.signalling p todo all)]
      else [.destroy id (.killing todo all)])
  | .signalling p todo all, w =>
    some (w.setProc p ManagedProcess.signal, [.destroy id (.killing todo all)])
  | .awaiting [], w => some (w, [.destroy id .clear])
  | .awaiting (p :: todo), w =>
    w.select x p [.destroy id (.closeProxy p todo)] [.destroy id (.killAgain p todo)]
  | .killAgain p todo, w =>
    some (w.setProc p (·.kill 9),
      if (w.proc p).signals then [.destroy id (.signalAgain p todo)]
      else [.destroy id (.awaitAgain p todo)])
  | .signalAgain p todo, w =>
    some (w.setProc p ManagedProcess.signal, [.destroy id (.awaitAgain p todo)])
  | .awaitAgain p todo, w =>
    w.select x p [.destroy id (.closeProxy p todo)] [.destroy id (.closeProxy p todo)]
  | .closeProxy p todo, w =>
    some (w.setProc p ManagedProcess.closeProxy, [.destroy id (.awaiting todo)])
  | .clear, w => some ({ w with processes := [] }, [.destroy id .storage])
  -- the errors of the storage are ignored
  | .storage, w => some (w, [.destroy id .delete])
  | .delete, w => some ({ w with stored := false }, [.ret .done])

def exec (x : Choice) : Op → World → Option (Outcome World Op)
  | .launch req op, w => (op.exec req x w).map fun r => ⟨r.1, r.2, op.spawn⟩
  | .kill req op, w => (op.exec req w).map fun r => ⟨r.1, r.2, []⟩
  | .monitor op, w => (op.exec x w).map fun r => ⟨r.1, r.2, []⟩
  | .destroy id op, w => (op.exec id x w).map fun r => ⟨r.1, r.2, []⟩
  | .exit p, w =>
    if (w.proc p).child = .running then
      some ⟨w.setProc p fun v => { v with child := .gone }, [], []⟩
    else none
  | .ret _, w => some ⟨w, [], []⟩

/-- The requests, and the exits of children. -/
def apiEntry (_ : World) : Op → Bool
  | .launch _ .start | .kill _ .start | .destroy _ .lookup | .exit _ => true
  | _ => false

def machine : Machine World Op Choice := ⟨exec, apiEntry⟩

/-- A session that has just been created. -/
def World.initial (id : String) : World where
  sessionID := id
  stored := true
  state := .active
  processes := []
  processSeq := 0
  proc := fun _ => { id := "" }
  nProc := 0

def initialConfig (id : String) : Config World Op := ⟨World.initial id, []⟩

/-! ## What an action can do -/

/-- Action `a` leaves process `p` with the value `v`. -/
inductive Change (w : World) (a : Op) (p : ProcRef) (v : ManagedProcess) : Prop where
  | same : v = w.proc p → Change w a p v
  | listens {req} : a = .launch req (.createProxy p) → v = { w.proc p with listening := true } →
      Change w a p v
  | proxied {req text} : a = .launch req (.setProxy p text) →
      v = { w.proc p with proxy := some text } → Change w a p v
  | born {req} : a = .launch req (.run p) → v = { w.proc p with child := .running } → Change w a p v
  | published {req} : a = .launch req (.publish p) →
      v = { w.proc p with cmd := true, status := .running } → Change w a p v
  | closed : v = (w.proc p).closeProxy → Change w a p v
  | killed (sig : Nat) : v = (w.proc p).kill sig → Change w a p v
  | signalled : v = (w.proc p).signal → Change w a p v
  | died : (w.proc p).child = .running → v = { w.proc p with child := .gone } → Change w a p v
  | marked {code now} : a = .monitor (.markExited p) →
      v = { w.proc p with status := .exited, exitCode := some code, exitedAt := some now } →
      Change w a p v
  | finished : (∃ req err, a = .launch req (.closeDone p err)) ∨ a = .monitor (.closeDone p) →
      v = { w.proc p with done := true } → Change w a p v
  | registered {req} : a = .launch req .register → p = w.nProc →
      v = { id := processID w.sessionID (w.processSeq + 1) } → Change w a p v

/-- What an action does to the session and to its map of processes. -/
inductive MapChange (w : World) (x : Choice) : Op → World → Prop where
  | same {a w'} : w'.state = w.state → w'.processes = w.processes → w'.nProc = w.nProc →
      w'.processSeq = w.processSeq → w'.sessionID = w.sessionID → MapChange w x a w'
  | registered {req now} : w.state = .active → x = .time now →
      MapChange w x (.launch req .register) (w.prune now).register
  | unregistered {req p err} : MapChange w x (.launch req (.unregister p err))
      { w with processes := w.processes.filter (·.1 ≠ (w.proc p).id) }
  | marked {id} : MapChange w x (.destroy id .mark) { w with state := .destroying }
  | cleared {id} : MapChange w x (.destroy id .clear) { w with processes := [] }

/-- All actions that an outcome adds. -/
def added (o : Outcome World Op) : List Op := o.more ++ o.spawn.flatten

/-- What an action does to the state, and the actions that it adds. -/
inductive Step (w : World) (x : Choice) : Op → World → List Op → Prop where
  | refused {req r} : Step w x (.launch req .start) w [.ret r]
  | notFound {req r} : Step w x (.launch req .lookup) w [.ret r]
  | notRegistered {req r} : Step w x (.launch req .register) w [.ret r]
  | started {req} : Step w x (.launch req .start) w [.launch req .lookup]
  | found {req} : Step w x (.launch req .lookup) w [.launch req .register]
  | registered {req now op} : w.state = .active → x = .time now →
      op = .createProxy w.nProc ∨ op = .run w.nProc →
      Step w x (.launch req .register) (w.prune now).register [.launch req op]
  | listens {req p text} : Step w x (.launch req (.createProxy p))
      (w.setProc p fun v => { v with listening := true }) [.launch req (.setProxy p text)]
  | proxyFailed {req p err} :
      Step w x (.launch req (.createProxy p)) w [.launch req (.unregister p err)]
  | proxied {req p text} : Step w x (.launch req (.setProxy p text))
      (w.setProc p fun v => { v with proxy := some text }) [.launch req (.run p)]
  | born {req p} : Step w x (.launch req (.run p))
      (w.setProc p fun v => { v with child := .running }) [.launch req (.publish p)]
  | runFailed {req p err} : Step w x (.launch req (.run p)) w [.launch req (.closeProxy p err)]
  | published {req p} : Step w x (.launch req (.publish p))
      (w.setProc p fun v => { v with cmd := true, status := .running }) [.launch req (.respond p)]
  | launchCloses {req p err} : Step w x (.launch req (.closeProxy p err))
      (w.setProc p ManagedProcess.closeProxy) [.launch req (.unregister p err)]
  | unregistered {req p err} : Step w x (.launch req (.unregister p err))
      { w with processes := w.processes.filter (·.1 ≠ (w.proc p).id) }
      [.launch req (.closeDone p err)]
  | launchDone {req p err} : Step w x (.launch req (.closeDone p err))
      (w.setProc p fun v => { v with done := true }) [.ret (.failed err)]
  | responded {req p r} : Step w x (.launch req (.respond p)) w [.ret r, .monitor (.wait p)]
  | killLooks {req op b} : (∃ op', b = .kill req op') ∨ (∃ r, b = .ret r) →
      Step w x (.kill req op) w [b]
  | killed {req p sig b} : (∃ op', b = .kill req op') ∨ (∃ r, b = .ret r) →
      Step w x (.kill req (.kill p sig)) (w.setProc p (·.kill sig)) [b]
  | signalled {req p sig} :
      Step w x (.kill req (.signal p sig)) (w.setProc p ManagedProcess.signal) [.ret .done]
  | waited {p} : (w.proc p).child ≠ .running →
      Step w x (.monitor (.wait p)) w [.monitor (.markExited p)]
  | markedBefore {p} : (w.proc p).status = .exited →
      Step w x (.monitor (.markExited p)) w [.monitor (.closeDone p)]
  | marked {p code now} : Step w x (.monitor (.markExited p))
      (w.setProc p fun v =>
        { v with status := .exited, exitCode := some code, exitedAt := some now })
      [.monitor (.closeProxy p)]
  | monitorCloses {p} : Step w x (.monitor (.closeProxy p))
      (w.setProc p ManagedProcess.closeProxy) [.monitor (.closeDone p)]
  | monitorDone {p} :
      Step w x (.monitor (.closeDone p)) (w.setProc p fun v => { v with done := true }) []
  | destroyNotFound {id r} : Step w x (.destroy id .lookup) w [.ret r]
  | notDrained {id r} : Step w x (.destroy id .drain) w [.ret r]
  | destroyFound {id} : Step w x (.destroy id .lookup) w [.destroy id .mark]
  | destroying {id} :
      Step w x (.destroy id .mark) { w with state := .destroying } [.destroy id .drain]
  | drained {id} : Step w x (.destroy id .drain) w [.destroy id .list]
  | listedNone {id} : w.processes = [] → Step w x (.destroy id .list) w [.destroy id .storage]
  | listed {id procs} : procs.Perm (w.processes.map (·.2)) →
      Step w x (.destroy id .list) w [.destroy id (.killing procs procs)]
  | killedAll {id all} :
      Step w x (.destroy id (.killing [] all)) w [.destroy id (.awaiting all)]
  | killing {id p todo all} : Step w x (.destroy id (.killing (p :: todo) all))
      (w.setProc p (·.kill 15)) [.destroy id (.signalling p todo all)]
  | notKilled {id p todo all} : (w.proc p).signals = false →
      Step w x (.destroy id (.killing (p :: todo) all)) (w.setProc p (·.kill 15))
        [.destroy id (.killing todo all)]
  | signalling {id p todo all} : Step w x (.destroy id (.signalling p todo all))
      (w.setProc p ManagedProcess.signal) [.destroy id (.killing todo all)]
  | awaitedAll {id} : Step w x (.destroy id (.awaiting [])) w [.destroy id .clear]
  | awaited {id p todo op} : op = .closeProxy p todo ∨ op = .killAgain p todo →
      (w.proc p).done = true ∨ x = .cancelled ∨
        ¬ ((w.proc p).signalled = true ∧ (w.proc p).child = .running) →
      Step w x (.destroy id (.awaiting (p :: todo))) w [.destroy id op]
  | killAgain {id p todo op} : op = .signalAgain p todo ∨ op = .awaitAgain p todo →
      Step w x (.destroy id (.killAgain p todo)) (w.setProc p (·.kill 9)) [.destroy id op]
  | signalAgain {id p todo} : Step w x (.destroy id (.signalAgain p todo))
      (w.setProc p ManagedProcess.signal) [.destroy id (.awaitAgain p todo)]
  | awaitedAgain {id p todo} :
      Step w x (.destroy id (.awaitAgain p todo)) w [.destroy id (.closeProxy p todo)]
  | destroyCloses {id p todo} : Step w x (.destroy id (.closeProxy p todo))
      (w.setProc p ManagedProcess.closeProxy) [.destroy id (.awaiting todo)]
  | cleared {id} : Step w x (.destroy id .clear) { w with processes := [] } [.destroy id .storage]
  | unstored {id} : Step w x (.destroy id .storage) w [.destroy id .delete]
  | deleted {id} : Step w x (.destroy id .delete) { w with stored := false } [.ret .done]
  | died {p} : (w.proc p).child = .running →
      Step w x (.exit p) (w.setProc p fun v => { v with child := .gone }) []
  | returned {r} : Step w x (.ret r) w []

section Inversion

variable {w w' : World} {a : Op} {x : Choice} {o : Outcome World Op} {p : ProcRef}
  {more : List Op}

theorem select_eq (h : w.select x r later expired = some (w', more)) :
    w' = w ∧ (((w.proc r).done = true ∧ more = later) ∨ (x = .cancelled ∧ more = later) ∨
      (¬ ((w.proc r).signalled = true ∧ (w.proc r).child = .running) ∧ more = expired)) := by
  unfold World.select at h
  split at h
  · split at h <;> cases h
    exact ⟨rfl, .inl ⟨‹_›, rfl⟩⟩
  · cases h
    exact ⟨rfl, .inr (.inl ⟨rfl, rfl⟩)⟩
  · split at h <;> cases h
    rename_i hne
    exact ⟨rfl, .inr (.inr ⟨by simpa using hne, rfl⟩)⟩
  · cases h

theorem LaunchOp.step (h : op.exec req x w = some (w', more)) :
    Step w x (.launch req op) w' (more ++ op.spawn.flatten) := by
  cases op with try dsimp only [exec] at h
  | start =>
    cases h
    split
    · exact .refused
    · split
      · exact .refused
      · split
        · exact .refused
        · exact .started
  | lookup =>
    cases h
    split
    · exact .found
    · exact .notFound
  | register =>
    split at h
    · split at h <;> cases h
      · exact .notRegistered
      · rename_i hst
        have hact : w.state = .active := by simpa using hst
        split
        · exact .registered hact rfl (.inl rfl)
        · exact .registered hact rfl (.inr rfl)
    · cases h
  | createProxy p =>
    split at h <;> cases h
    · exact .listens
    · exact .proxyFailed
  | run p =>
    split at h <;> cases h
    · exact .born
    · exact .runFailed
  | _ =>
    cases h
    constructor

theorem KillOp.step (h : op.exec req w = some (w', more)) : Step w x (.kill req op) w' more := by
  cases op with
  | start =>
    cases h
    split
    · exact .killLooks (.inr ⟨_, rfl⟩)
    · split
      · exact .killLooks (.inr ⟨_, rfl⟩)
      · exact .killLooks (.inl ⟨_, rfl⟩)
  | lookup | find =>
    cases h
    split
    · exact .killLooks (.inl ⟨_, rfl⟩)
    · exact .killLooks (.inr ⟨_, rfl⟩)
  | kill r sig =>
    cases h
    split
    · exact .killed (.inl ⟨_, rfl⟩)
    · exact .killed (.inr ⟨_, rfl⟩)
  | signal r sig =>
    cases h
    exact .signalled

theorem MonitorOp.step (h : op.exec x w = some (w', more)) : Step w x (.monitor op) w' more := by
  cases op with
  | wait r =>
    dsimp only [exec] at h
    split at h <;> cases h
    exact .waited ‹_›
  | markExited r =>
    dsimp only [exec] at h
    split at h
    · split at h <;> cases h
      · exact .markedBefore ‹_›
      · exact .marked
    · cases h
  | closeProxy r | closeDone r =>
    cases h
    constructor

theorem DestroyOp.step {id : String} {op : DestroyOp} (h : op.exec id x w = some (w', more)) :
    Step w x (.destroy id op) w' more := by
  cases op with
  | lookup =>
    cases h
    split
    · exact .destroyFound
    · exact .destroyNotFound
  | drain =>
    dsimp only [exec] at h
    split at h <;> cases h
    · exact .drained
    · exact .drained
    · exact .notDrained
  | list =>
    dsimp only [exec] at h
    split at h
    · cases h
      exact .listedNone (isEmpty_iff.mp ‹_›)
    · split at h
      · split at h <;> cases h
        exact .listed (isPerm_iff.mp ‹_›)
      · cases h
  | killing todo all =>
    cases todo with
    | nil =>
      cases h
      exact .killedAll
    | cons r todo =>
      cases h
      split
      · exact .killing
      · exact .notKilled (Bool.eq_false_iff.mpr ‹_›)
  | awaiting todo =>
    cases todo with
    | nil =>
      cases h
      exact .awaitedAll
    | cons r todo =>
      obtain ⟨rfl, ⟨hd, rfl⟩ | ⟨hc, rfl⟩ | ⟨hs, rfl⟩⟩ := select_eq h
      · exact .awaited (.inl rfl) (.inl hd)
      · exact .awaited (.inl rfl) (.inr (.inl hc))
      · exact .awaited (.inr rfl) (.inr (.inr hs))
  | killAgain r todo =>
    cases h
    split
    · exact .killAgain (.inl rfl)
    · exact .killAgain (.inr rfl)
  | awaitAgain r todo =>
    obtain ⟨rfl, ⟨-, rfl⟩ | ⟨-, rfl⟩ | ⟨-, rfl⟩⟩ := select_eq h <;> exact .awaitedAgain
  | _ =>
    cases h
    constructor

theorem step_of_exec (hx : exec x a w = some o) : Step w x a o.state (added o) := by
  have hnil : ∀ {w' : World} {l : List Op}, Step w x a w' l → Step w x a w' (l ++ [].flatten) := by
    intro w' l hs
    rwa [flatten_nil, append_nil]
  cases a with try obtain ⟨r, hr, rfl⟩ := Option.map_eq_some_iff.mp hx
  | launch req op => exact LaunchOp.step hr
  | kill req op => exact hnil (KillOp.step hr)
  | monitor op => exact hnil (MonitorOp.step hr)
  | destroy id op => exact hnil (DestroyOp.step hr)
  | exit r =>
    dsimp only [exec] at hx
    split at hx <;> cases hx
    exact .died ‹_›
  | ret result =>
    cases hx
    exact .returned

theorem Change.update (h : Change w a r v) : Change w a p (update w.proc r v p) :=
  update_keeps (Change w a p) (.same rfl) fun heq => heq ▸ h

theorem Step.change (hs : Step w x a w' more) (p : ProcRef) : Change w a p (w'.proc p) := by
  cases hs with
  | registered => exact .update (.registered rfl rfl rfl)
  | listens => exact .update (.listens rfl rfl)
  | proxied => exact .update (.proxied rfl rfl)
  | born => exact .update (.born rfl rfl)
  | published => exact .update (.published rfl rfl)
  | launchCloses | monitorCloses | destroyCloses => exact .update (.closed rfl)
  | launchDone => exact .update (.finished (.inl ⟨_, _, rfl⟩) rfl)
  | monitorDone => exact .update (.finished (.inr rfl) rfl)
  | killed | killing | notKilled | killAgain => exact .update (.killed _ rfl)
  | signalled | signalling | signalAgain => exact .update (.signalled rfl)
  | marked => exact .update (.marked rfl rfl)
  | died hrun => exact .update (.died hrun rfl)
  | _ => exact .same rfl

theorem Step.mapChange (hs : Step w x a w' more) : MapChange w x a w' := by
  cases hs with
  | registered hact hnow => exact .registered hact hnow
  | unregistered => exact .unregistered
  | destroying => exact .marked
  | cleared => exact .cleared
  | _ => exact .same rfl rfl rfl rfl rfl

end Inversion

end FlexAgentRuntime.ProcessHost
