import FlexAgentRuntime.Sandbox.World
import FlexAgentRuntime.Interleaving.Machine
import FlexAgentRuntime.Text.SlashPath

/-!
Execution of the actions of a `SandboxHostService` (`sandbox/service.go`,
`sandbox/execute.go`, `sandbox/snapshot.go`).

Each `exec` gives the new state and the actions the goroutine goes on with; `none`
means that the action cannot be executed with that choice of the environment. A call
to the storage that fails has no effect.
-/

namespace FlexAgentRuntime.SandboxHost

open Interleaving

/-- The end of a call to the storage: it takes effect, or it fails, with the storage's
own error or with another one. -/
def World.storage (w : World) (x : Choice) (call : Zfs → Except ZfsError Zfs) :
    Option (World × Option ZfsError) :=
  match x with
  | .ok =>
    match call w.zfs with
    | .ok z => some ({ w with zfs := z }, none)
    | .error err => some (w, some err)
  | .error message => some (w, some (.command message))
  | _ => none

/-! ## CreateSession -/

def validateSessionID (id : String) : Except HostError Unit :=
  if !(decide (id.toList.length ≤ 128) && matchesName ['.', '_', '-'] id.toList) then
    .error (.invalidSessionID id "must match ^[a-zA-Z0-9][a-zA-Z0-9._-]\x7b0,127\x7d$")
  else if hasDotDot id.toList then .error (.invalidSessionID id "path traversal segment")
  else .ok ()

def safeSessionPath (rootDir id : String) : Except HostError String :=
  match validateSessionID id with
  | .error err => .error err
  | .ok () =>
    let cleanRoot := SlashPath.clean rootDir.toList
    let target := SlashPath.clean (SlashPath.join cleanRoot id.toList)
    match SlashPath.rel cleanRoot target with
    | none => .error (.unresolvedPath (String.ofList cleanRoot) (String.ofList target))
    | some rel =>
      if rel.take 2 = SlashPath.dotDot then .error (.escapesRoot id)
      else .ok (String.ofList target)

def CreateOp.exec (req : CreateSessionRequest) (x : Choice) :
    CreateOp → World → Option (World × List Op)
  | .start, w =>
    if req.sessionID = "" then
      some ({ w with idCounter := w.idCounter + 1 },
        [.create req (.reserve (generateSessionID (w.idCounter + 1)))])
    else some (w, [.create req (.reserve req.sessionID)])
  | .reserve id, w =>
    if w.config.maxSessions > 0 ∧ w.sessions.length ≥ w.config.maxSessions then
      some (w, [.ret (.failed .maxSessionsReached)])
    else if (w.getSession id).isSome then some (w, [.ret (.failed (.sessionExists id))])
    else some (w.storeSession { id := id, state := .creating },
      match w.config.storageBackend with
      | .zfs =>
        if req.baseSnapshot = "" then [.create req (.forget id .baseSnapshotRequired)]
        else [.create req (.clone id)]
      | .localDisk =>
        match safeSessionPath w.config.sessionsRootDir id with
        | .ok _ => [.create req (.mkdir id)]
        | .error err => [.create req (.forget id err)])
  | .clone id, w =>
    (w.storage x fun z => z.cloneFromSnapshot req.baseSnapshot (w.datasetOf id)).map fun p =>
      (p.1, match p.2 with
        | some err => [.create req (.forget id (.storage "clone base snapshot" err))]
        | none =>
          if (if req.quota = 0 then w.config.defaultSessionQuota else req.quota) > 0 then
            [.create req (.quota id)]
          else [.create req (.mountpoint id)])
  | .quota id, w =>
    match x, w.zfs.setQuota (w.datasetOf id) with
    | .ok, .ok () => some (w, [.create req (.mountpoint id)])
    | .ok, .error err => some (w, [.create req (.destroyDataset id (.storage "set quota" err))])
    | .error message, _ =>
      some (w, [.create req (.destroyDataset id (.storage "set quota" (.command message)))])
    | _, _ => none
  | .mountpoint id, w =>
    match x, w.zfs.getMountpoint (w.datasetOf id) with
    | .ok, .ok mp => some (w, [.create req (.store id (w.datasetOf id) mp)])
    | .ok, .error err =>
      some (w, [.create req (.destroyDataset id (.storage "get mountpoint" err))])
    | .error message, _ =>
      some (w, [.create req (.destroyDataset id (.storage "get mountpoint" (.command message)))])
    | _, _ => none
  | .mkdir id, w =>
    match x, safeSessionPath w.config.sessionsRootDir id with
    | .ok, .ok mp => some ({ w with dirs := w.dirs ++ [mp] }, [.create req (.store id "" mp)])
    | .error message, _ =>
      some (w, [.create req (.forget id (.storage "create session directory" (.command message)))])
    | _, _ => none
  | .destroyDataset id err, w =>
    (w.storage x fun z => z.destroyDataset (w.datasetOf id)).map fun p =>
      (p.1, [.create req (.forget id err)])
  | .forget id err, w => some (w.deleteSession id, [.ret (.failed err)])
  | .store id dataset mp, w =>
    some (w.storeSession { id := id, state := .active, dataset := dataset, mountpoint := mp },
      [.ret (.created id)])

/-! ## ExecuteTool -/

/-- `ClassifyTool`, and tier 1 for every tool without a container runtime. -/
def classifyTool (runtime : ContainerRuntime) (name : String) : Nat :=
  if runtime = .none then 1
  else if name ∈ ["read_file", "write_file", "edit_file", "grep", "glob",
    "git_status", "git_diff", "git_log", "git_show"] then 1
  else 2

/-- The check of `getActiveSession`. -/
def SessionState.checkActive : SessionState → Except HostError Unit
  | .active => .ok ()
  | .paused => .error .sessionPaused
  | .destroying => .error .sessionDestroying
  | st => .error (.invalidState st.name)

/-- `fmt.Errorf("%w: session is %s", ErrInvalidState, state)`. -/
def SessionState.invalid (st : SessionState) : HostError := .invalidState ("session is " ++ st.name)

def ToolOp.exec (req : ExecuteToolRequest) (x : Choice) :
    ToolOp → World → Option (World × List Op)
  | .lookup, w =>
    some (w, match w.getSession req.sessionID with
      | some s => [.tool req (.checkActive s)]
      | none => [.tool req (.ret (.failed (.sessionNotFound req.sessionID)))])
  | .checkActive s, w =>
    some (w, match (w.sess s).state.checkActive with
      | .ok () => [.tool req (.enter s)]
      | .error err => [.tool req (.ret (.failed err))])
  | .enter s, w =>
    if (w.sess s).state ≠ .active then
      some (w, [.tool req (.ret (.failed (w.sess s).state.invalid))])
    else if (w.sess s).rollingBack then
      some (w, [.tool req (.ret (.failed .rollbackInProgress))])
    else some (w.setSess s fun v => { v with activeTools := v.activeTools + 1 },
      [.tool req (.run s)])
  | .run s, w =>
    match x with
    | .output out =>
      let resp : ExecuteToolResponse :=
        { output := out, tier := classifyTool w.config.containerRuntime req.toolName }
      some (w, if w.config.perToolSnapshots && w.config.storageBackend == .zfs &&
          req.toolCallID != "" then
          [.tool req (.snapshot s resp)]
        else [.tool req (.finish s (.executed resp))])
    | .error message => some (w, [.tool req (.finish s (.failed (.tool message)))])
    | _ => none
  -- the snapshot's name carries the time; from here on the call is in progress
  | .snapshot s resp, w =>
    match x with
    | .stamp time => some (w, [.tool req (.snapshotEnd s (String.ofList
        ("tool-".toList ++ req.toolCallID.toList ++ '-' :: time.toList)) resp)])
    | _ => none
  | .snapshotEnd s name resp, w =>
    (w.storage x fun z => z.createSnapshot (w.sess s).dataset name).map fun p =>
      (p.1, match p.2 with
        | none => [.tool req (.record s name { resp with snapshotID := name })]
        | some _ => [.tool req (.finish s (.executed resp))])
  | .record s name resp, w =>
    some (w.setSess s fun v => { v with snapshots := v.snapshots ++ [⟨name, false⟩] },
      [.tool req (.finish s (.executed resp))])
  -- the deferred decrement
  | .finish s result, w =>
    some (w.setSess s fun v => { v with activeTools := v.activeTools - 1 },
      [.tool req (.ret result)])
  | .ret _, w => some (w, [])

/-! ## PauseSession and ResumeSession -/

/-- `getSession`, then an action on the session. -/
def World.withSession (w : World) (id : String) (next : SessRef → Op) : World × List Op :=
  (w, match w.getSession id with
    | some s => [next s]
    | none => [.ret (.failed (.sessionNotFound id))])

def PauseOp.exec (id : String) (x : Choice) : PauseOp → World → Option (World × List Op)
  | .lookup, w => some (w.withSession id fun s => .pause id (.checkActive s))
  | .checkActive s, w =>
    some (w, match (w.sess s).state.checkActive with
      | .ok () => [.pause id (.wait s)]
      | .error err => [.ret (.failed err)])
  -- the counter is polled without the lock
  | .wait s, w =>
    if (w.sess s).activeTools > 0 then
      match x with
      | .tick => some (w, [.pause id (.wait s)])
      | .cancelled => some (w, [.ret (.failed .cancelled)])
      | .timeout => some (w, [.ret (.failed (.toolsInFlight (": timed out waiting for " ++
          toString (w.sess s).activeTools ++ " in-flight tools")))])
      | _ => none
    else some (w, [.pause id (.set s)])
  | .set s, w =>
    if (w.sess s).state ≠ .active then
      some (w, [.ret (.failed
        (.invalidState ("session is " ++ (w.sess s).state.name ++ ", not active")))])
    else some (w.setSess s fun v => { v with state := .paused }, [.ret .done])

def ResumeOp.exec (id : String) : ResumeOp → World → Option (World × List Op)
  | .lookup, w => some (w.withSession id fun s => .resume id (.set s))
  | .set s, w =>
    if (w.sess s).state ≠ .paused then
      some (w, [.ret (.failed
        (.invalidState ("session is " ++ (w.sess s).state.name ++ ", not paused")))])
    else some (w.setSess s fun v => { v with state := .active }, [.ret .done])

/-! ## DestroySession -/

def DestroyOp.exec (id : String) (x : Choice) : DestroyOp → World → Option (World × List Op)
  | .lookup, w => some (w.withSession id fun s => .destroy id (.mark s))
  | .mark s, w =>
    some (w.setSess s fun v => { v with state := .destroying }, [.destroy id (.wait s)])
  -- a timeout goes on with the tools in flight, a cancelled context returns
  | .wait s, w =>
    if (w.sess s).activeTools > 0 then
      match x with
      | .tick => some (w, [.destroy id (.wait s)])
      | .cancelled => some (w, [.ret (.failed .cancelled)])
      | .timeout => some (w, [.destroy id (.dataset s)])
      | _ => none
    else some (w, [.destroy id (.dataset s)])
  | .dataset s, w =>
    match w.config.storageBackend with
    | .zfs => some (w, [.destroy id (.datasetEnd s)])
    | .localDisk => some ({ w with dirs := w.dirs.filter (· ≠ (w.sess s).mountpoint) },
        [.destroy id (.delete s)])
  -- the error of DestroyDataset is ignored
  | .datasetEnd s, w =>
    (w.storage x fun z => z.destroyDataset (w.sess s).dataset).map fun p =>
      (p.1, [.destroy id (.delete s)])
  | .delete _, w => some (w.deleteSession id, [.ret .done])

/-! ## Snapshots -/

/-- `fmt.Sprintf("%s-%04d", prefix, turn)`. -/
def turnSnapshotName (snapshotPrefix : String) (turn : Nat) : String :=
  let digits := Nat.toDigits 10 turn
  String.ofList (snapshotPrefix.toList ++ '-' :: (List.replicate (4 - digits.length) '0' ++ digits))

/-- `TurnComplete` returns, after `cleanupOldSnapshots` if there is a limit. -/
def TurnOp.after (id : String) (s : SessRef) (turn : Nat) (name : String) (w : World) : List Op :=
  (if w.config.maxSnapshotsPerSession > 0 then [.turn id (.cleanup s)] else []) ++
    [.ret (.snapshot name turn)]

def TurnOp.exec (id : String) (x : Choice) : TurnOp → World → Option (World × List Op)
  | .lookup, w =>
    if w.config.storageBackend ≠ .zfs then some (w, [.ret .done])
    else some (w.withSession id fun s => .turn id (.check s))
  | .check s, w =>
    if (w.sess s).state ≠ .active ∨ (w.sess s).rollingBack then
      some (w, [.ret (.failed (w.sess s).state.invalid)])
    else
      let turn := (w.sess s).turnCount + 1
      some (w, [.turn id (.snapshot s turn (turnSnapshotName w.config.snapshotPrefix turn))])
  | .snapshot s turn name, w => some (w, [.turn id (.snapshotEnd s turn name)])
  | .snapshotEnd s turn name, w =>
    (w.storage x fun z => z.createSnapshot (w.sess s).dataset name).map fun p =>
      (p.1, match p.2 with
        | none => [.turn id (.record s turn name)]
        | some err => [.ret (.failed (.storage ("snapshot turn " ++ toString turn) err))])
  | .record s turn name, w =>
    some (w.setSess s fun v =>
      { v with turnCount := turn, snapshots := v.snapshots ++ [⟨name, true⟩] },
      TurnOp.after id s turn name w)
  | .cleanup s, w =>
    let v := w.sess s
    if v.snapshots.length ≤ w.config.maxSnapshotsPerSession then some (w, [])
    else
      let n := v.snapshots.length - w.config.maxSnapshotsPerSession
      some (w.setSess s fun v => { v with snapshots := v.snapshots.drop n },
        [.turn id (.destroySnapshots s ((v.snapshots.take n).map (·.name)))])
  | .destroySnapshots _ [], w => some (w, [])
  | .destroySnapshots s (name :: names), w =>
    (w.storage x fun z => z.destroySnapshot (w.sess s).dataset name).map fun p =>
      (p.1, [.turn id (.destroySnapshots s names)])

def SnapshotOp.exec (id name : String) (x : Choice) :
    SnapshotOp → World → Option (World × List Op)
  | .lookup, w =>
    if w.config.storageBackend ≠ .zfs then some (w, [.ret (.failed .snapshotsNotAvailable)])
    else some (w.withSession id fun s => .snapshot id name (.call s))
  | .call s, w => some (w, [.snapshot id name (.callEnd s)])
  | .callEnd s, w =>
    (w.storage x fun z => z.createSnapshot (w.sess s).dataset name).map fun p =>
      (p.1, match p.2 with
        | none => [.snapshot id name (.record s)]
        | some err => [.ret (.failed (.storage ("snapshot " ++ name) err))])
  | .record s, w =>
    some (w.setSess s fun v => { v with snapshots := v.snapshots ++ [⟨name, false⟩] },
      [.ret (.snapshot name 0)])

/-! ## RollbackSession -/

/-- The snapshots up to the first one called `name`, or all of them. -/
def keepSnapshots (name : String) : List SnapshotEntry → Option (List SnapshotEntry)
  | [] => none
  | e :: es => if e.name = name then some [e] else (keepSnapshots name es).map (e :: ·)

/-- What `RollbackSession` records of a rollback that has succeeded. -/
def Session.rolledBack (v : Session) (name : String) : Session :=
  match keepSnapshots name v.snapshots with
  | some kept => { v with snapshots := kept, turnCount := kept.countP (·.isTurnSnapshot) }
  | none => v

def RollbackOp.exec (id snapshotID : String) (x : Choice) :
    RollbackOp → World → Option (World × List Op)
  | .lookup, w =>
    if w.config.storageBackend ≠ .zfs then some (w, [.ret (.failed .snapshotsNotAvailable)])
    else some (w.withSession id fun s => .rollback id snapshotID (.enter s))
  | .enter s, w =>
    if (w.sess s).state ≠ .active then some (w, [.ret (.failed (w.sess s).state.invalid)])
    else if (w.sess s).activeTools > 0 then some (w, [.ret (.failed (.toolsInFlight ""))])
    else some (w.setSess s fun v => { v with rollingBack := true },
      [.rollback id snapshotID (.call s)])
  | .call s, w => some (w, [.rollback id snapshotID (.callEnd s)])
  | .callEnd s, w =>
    (w.storage x fun z => z.rollback (w.sess s).dataset snapshotID).map fun p =>
      (p.1, [.rollback id snapshotID (.finish s p.2)])
  -- every finishing rollback clears the flag
  | .finish s none, w =>
    some (w.setSess s fun v => { v with rollingBack := false }.rolledBack snapshotID, [.ret .done])
  | .finish s (some err), w =>
    some (w.setSess s fun v => { v with rollingBack := false, state := .failed },
      [.ret (.failed (.storage ("rollback to " ++ snapshotID) err))])

/-! ## The machine -/

def execOp (x : Choice) : Op → World → Option (World × List Op)
  | .create req op, w => op.exec req x w
  | .tool req op, w => op.exec req x w
  | .pause id op, w => op.exec id x w
  | .resume id op, w => op.exec id w
  | .destroy id op, w => op.exec id x w
  | .turn id op, w => op.exec id x w
  | .snapshot id name op, w => op.exec id name x w
  | .rollback id snapshotID op, w => op.exec id snapshotID x w
  | .ret _, w => some (w, [])

def exec (x : Choice) (op : Op) (w : World) : Option (Outcome World Op) :=
  (execOp x op w).map fun p => ⟨p.1, p.2, []⟩

/-- The requests. -/
def apiEntry (_ : World) : Op → Bool
  | .create _ .start | .tool _ .lookup | .pause _ .lookup | .resume _ .lookup
  | .destroy _ .lookup | .turn _ .lookup | .snapshot _ _ .lookup | .rollback _ _ .lookup => true
  | _ => false

def machine : Machine World Op Choice := ⟨exec, apiEntry⟩

/-- A friendly environment: calls succeed and tools answer. -/
def defaultChoice : Op → Choice
  | .tool _ (.run _) => .output { content := "ok" }
  | .tool _ (.snapshot _ _) => .stamp "20260101-000000"
  | _ => .ok

def World.initial (config : ServiceConfig) (zfs : Zfs) : World where
  config := config
  sessions := []
  sess := fun _ => { id := "", state := .creating }
  nSess := 0
  zfs := zfs
  dirs := []
  idCounter := 0

/-- `NewSandboxHostService`: no session, no goroutine. -/
def initialConfig (config : ServiceConfig) (zfs : Zfs) : Config World Op :=
  ⟨World.initial config zfs, []⟩

end FlexAgentRuntime.SandboxHost
