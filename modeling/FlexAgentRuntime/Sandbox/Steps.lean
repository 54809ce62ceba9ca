import FlexAgentRuntime.Sandbox.Exec

/-!
What the actions of the sandbox host can do, said once: a step relation for each
kind of request, with what the action has checked, and the inversion of `exec`.

A failure that returns to the caller is one constructor, `returned`, whatever the
error is. `CreateSession` appears twice, by what it does (`CreateOp.Does`) and by its
effects only: it works on sessions that no other request can have.
-/

namespace FlexAgentRuntime.SandboxHost

variable {w w' : World} {x : Choice} {more : List Op} {id : String} {req : CreateSessionRequest}

/-- `w'` differs from `w` in the storage at most. -/
def World.SameSessions (w w' : World) : Prop :=
  w'.sess = w.sess ∧ w'.nSess = w.nSess ∧ w'.sessions = w.sessions ∧ w'.config = w.config

theorem World.SameSessions.refl (w : World) : w.SameSessions w := ⟨rfl, rfl, rfl, rfl⟩

theorem of_storage {P : World → List Op → Prop} {f : World × Option ZfsError → World × List Op}
    (h : (w.storage x call).map f = some (w', more))
    (hok : ∀ z, call w.zfs = .ok z → let p := f ({ w with zfs := z }, none); P p.1 p.2)
    (herr : ∀ err, (x = .ok → call w.zfs = .error err) → let p := f (w, some err); P p.1 p.2) :
    P w' more := by
  obtain ⟨p, hp, heq⟩ := Option.map_eq_some_iff.mp h
  suffices hf : P (f p).1 (f p).2 by rwa [heq] at hf
  unfold World.storage at hp
  split at hp
  · split at hp <;> cases hp
    · exact hok _ ‹_›
    · exact herr _ fun _ => ‹_›
  · cases hp
    exact herr _ fun hx => by cases hx
  · cases hp

/-! ## CreateSession -/

/-- The dataset of session `id`. -/
def ServiceConfig.datasetOf (config : ServiceConfig) (id : String) : String :=
  String.ofList (config.sessionsDataset.toList ++ '/' :: id.toList)

/-- The id of the session that a `CreateSession` past its reservation is building. -/
def CreateOp.building : CreateOp → Option String
  | .clone id | .quota id | .mountpoint id | .mkdir id | .destroyDataset id _ | .forget id _
  | .store id _ _ => some id
  | .start | .reserve _ => none

/-- The storage that session `id` is to have. -/
def ServiceConfig.Places (config : ServiceConfig) (id dataset mountpoint : String) : Prop :=
  match config.storageBackend with
  | .zfs => dataset = config.datasetOf id ∧ mountpoint ≠ ""
  | .localDisk => dataset = "" ∧ safeSessionPath config.sessionsRootDir id = .ok mountpoint

/-- A `CreateSession` works on the storage of the host, and stores what it has set up. -/
def CreateOp.Fits (config : ServiceConfig) : CreateOp → Prop
  | .clone _ | .quota _ | .mountpoint _ | .destroyDataset _ _ => config.storageBackend = .zfs
  | .mkdir _ => config.storageBackend = .localDisk
  | .store id dataset mp => config.Places id dataset mp
  | _ => True

inductive CreateOp.Does (w : World) (req : CreateSessionRequest) :
    CreateOp → World → List Op → Prop where
  | begun {id : String} {w' : World} : w.SameSessions w' → req.sessionID = "" ∨ req.sessionID = id →
      Does w req .start w' [.create req (.reserve id)]
  | refused {id : String} {err} : Does w req (.reserve id) w [.ret (.failed err)]
  | reserved {id : String} {next} : w.getSession id = none →
      (w.config.maxSessions > 0 → w.sessions.length < w.config.maxSessions) →
      next.building = some id → next.Fits w.config →
      Does w req (.reserve id) (w.storeSession { id := id, state := .creating })
        [.create req next]
  | worked {op next} {id : String} {w' : World} : w.SameSessions w' → op.building = some id →
      next.building = some id → (op.Fits w.config → next.Fits w.config) →
      Does w req op w' [.create req next]
  | forgot {id : String} {err} : Does w req (.forget id err) (w.deleteSession id) [.ret (.failed err)]
  | stored {id : String} {dataset mp} : Does w req (.store id dataset mp)
      (w.storeSession { id := id, state := .active, dataset := dataset, mountpoint := mp })
      [.ret (.created id)]

theorem getMountpoint_ne_empty {z : Zfs} (h : z.getMountpoint dataset = .ok mp) : mp ≠ "" := by
  unfold Zfs.getMountpoint at h
  simp only [bind, Except.bind] at h
  split at h
  · cases h
  · split at h <;> cases h
    intro hnil
    have hlist := congrArg String.toList hnil
    simp at hlist

theorem CreateOp.does {op : CreateOp} (h : op.exec req x w = some (w', more)) :
    CreateOp.Does w req op w' more := by
  cases op with try dsimp only [exec] at h
  | start =>
    split at h <;> cases h
    · exact .begun ⟨rfl, rfl, rfl, rfl⟩ (.inl ‹_›)
    · exact .begun (.refl w) (.inr rfl)
  | reserve id =>
    split at h
    · cases h
      exact .refused
    · rename_i hmax
      split at h <;> cases h
      · exact .refused
      · rename_i hnone
        have hfree : w.getSession id = none := by simpa using hnone
        have hroom : w.config.maxSessions > 0 → w.sessions.length < w.config.maxSessions := by
          intro hpos
          by_contra hfull
          exact hmax ⟨hpos, by omega⟩
        split
        · rename_i hzfs
          split
          · exact .reserved hfree hroom rfl trivial
          · exact .reserved hfree hroom rfl hzfs
        · rename_i hlocal
          split
          · exact .reserved hfree hroom rfl hlocal
          · exact .reserved hfree hroom rfl trivial
  | clone id =>
    refine of_storage h (fun z _ => ?_) fun _ _ => .worked (.refl w) rfl rfl fun _ => trivial
    dsimp only
    split_ifs <;> exact .worked (.refl w) rfl rfl fun h => h
  | quota id =>
    split at h <;> cases h
    all_goals exact .worked (.refl w) rfl rfl fun h => h
  | mountpoint id =>
    split at h <;> cases h
    · rename_i mp hmp
      refine .worked (.refl w) rfl rfl fun hzfs => ?_
      show w.config.Places id (w.datasetOf id) mp
      unfold ServiceConfig.Places
      rw [show w.config.storageBackend = .zfs from hzfs]
      exact ⟨rfl, getMountpoint_ne_empty hmp⟩
    · exact .worked (.refl w) rfl rfl fun h => h
    · exact .worked (.refl w) rfl rfl fun h => h
  | mkdir id =>
    split at h <;> cases h
    · rename_i mp hmp
      refine .worked ⟨rfl, rfl, rfl, rfl⟩ rfl rfl fun hlocal => ?_
      show w.config.Places id "" mp
      unfold ServiceConfig.Places
      rw [show w.config.storageBackend = .localDisk from hlocal]
      exact ⟨rfl, hmp⟩
    · exact .worked (.refl w) rfl rfl fun _ => trivial
  | destroyDataset id err =>
    refine of_storage h (fun z _ => ?_) fun _ _ => ?_
    all_goals exact .worked (.refl w) rfl rfl fun _ => trivial
  | forget id err =>
    cases h
    exact .forgot
  | store id dataset mp =>
    cases h
    exact .stored

/-- A session as `CreateSession` builds it. -/
def Session.new (v : Session) : Prop :=
  v.activeTools = 0 ∧ v.rollingBack = false ∧ v.turnCount = 0 ∧ v.snapshots = [] ∧
    (v.state = .creating ∨ v.state = .active)

/-- What `CreateSession` goes on with. -/
def CreateOp.Goes (req : CreateSessionRequest) (more : List Op) : Prop :=
  ∃ b, more = [b] ∧ ((∃ op, b = .create req op) ∨ ∃ r, b = .ret r)

inductive CreateOp.Step (w : World) (req : CreateSessionRequest) :
    CreateOp → World → List Op → Prop where
  | quiet {op w' more} : w'.sess = w.sess → w'.nSess = w.nSess → w'.config = w.config →
      (w'.sessions = w.sessions ∨ ∃ id, w'.sessions = w.sessions.filter (·.1 ≠ id)) →
      Goes req more → Step w req op w' more
  | stored {op v more} : v.new → Goes req more → Step w req op (w.storeSession v) more

theorem CreateOp.goes_create (op : CreateOp) :
    Goes req [.create req op] := ⟨_, rfl, .inl ⟨op, rfl⟩⟩

theorem CreateOp.goes_ret (r : Result) : Goes req [.ret r] :=
  ⟨_, rfl, .inr ⟨r, rfl⟩⟩

theorem CreateOp.Step.same (h : w.SameSessions w') (hm : Goes req more) :
    CreateOp.Step w req op w' more :=
  .quiet h.1 h.2.1 h.2.2.2 (.inl h.2.2.1) hm

theorem CreateOp.Does.step (h : CreateOp.Does w req op w' more) : CreateOp.Step w req op w' more := by
  cases h with
  | begun h | worked h => exact .same h (goes_create _)
  | refused => exact .same (.refl w) (goes_ret _)
  | reserved => exact .stored ⟨rfl, rfl, rfl, rfl, .inl rfl⟩ (goes_create _)
  | @forgot id => exact .quiet rfl rfl rfl (.inr ⟨id, rfl⟩) (goes_ret _)
  | stored => exact .stored ⟨rfl, rfl, rfl, rfl, .inr rfl⟩ (goes_ret _)

/-! ## ExecuteTool -/

/-- The actions before a tool call is let in. -/
def ToolOp.starting : ToolOp → Bool
  | .lookup | .checkActive _ | .enter _ => true
  | _ => false

inductive ToolOp.Step (w : World) (req : ExecuteToolRequest) :
    ToolOp → World → List Op → Prop where
  | found {s} : w.getSession req.sessionID = some s →
      Step w req .lookup w [.tool req (.checkActive s)]
  | checked {s} : (w.sess s).state = .active →
      Step w req (.checkActive s) w [.tool req (.enter s)]
  | refused {op err} : op.starting = true → Step w req op w [.tool req (.ret (.failed err))]
  | entered {s} : (w.sess s).state = .active → (w.sess s).rollingBack = false →
      Step w req (.enter s) (w.setSess s fun v => { v with activeTools := v.activeTools + 1 })
        [.tool req (.run s)]
  | ran {s result} : Step w req (.run s) w [.tool req (.finish s result)]
  | snapshots {s resp} : w.config.perToolSnapshots = true →
      Step w req (.run s) w [.tool req (.snapshot s resp)]
  | snapshotStarted {s resp name} :
      Step w req (.snapshot s resp) w [.tool req (.snapshotEnd s name resp)]
  | snapshotTaken {s name resp resp' w'} : w.SameSessions w' →
      Step w req (.snapshotEnd s name resp) w' [.tool req (.record s name resp')]
  | snapshotFailed {s name resp w'} : w.SameSessions w' →
      Step w req (.snapshotEnd s name resp) w' [.tool req (.finish s (.executed resp))]
  | recorded {s name resp} : Step w req (.record s name resp)
      (w.setSess s fun v => { v with snapshots := v.snapshots ++ [⟨name, false⟩] })
      [.tool req (.finish s (.executed resp))]
  | finished {s result} : Step w req (.finish s result)
      (w.setSess s fun v => { v with activeTools := v.activeTools - 1 }) [.tool req (.ret result)]
  | ret {result} : Step w req (.ret result) w []

theorem checkActive_ok {st : SessionState} (h : st.checkActive = .ok ()) : st = .active := by
  cases st <;> first | rfl | cases h

theorem ToolOp.step {req : ExecuteToolRequest} {op : ToolOp}
    (h : op.exec req x w = some (w', more)) : ToolOp.Step w req op w' more := by
  cases op with try dsimp only [exec] at h
  | lookup =>
    cases h
    split
    · exact .found ‹_›
    · exact .refused rfl
  | checkActive s =>
    cases h
    split
    · exact .checked (checkActive_ok ‹_›)
    · exact .refused rfl
  | enter s =>
    split at h
    · cases h
      exact .refused rfl
    · rename_i hst
      split at h <;> cases h
      · exact .refused rfl
      · rename_i hrb
        exact .entered (by simpa using hst) (by simpa using hrb)
  | run s =>
    split at h <;> cases h
    · split
      · rename_i hp
        simp only [Bool.and_eq_true] at hp
        exact .snapshots hp.1.1
      · exact .ran
    · exact .ran
  | snapshot s resp =>
    split at h <;> cases h
    exact .snapshotStarted
  | snapshotEnd s name resp =>
    exact of_storage h (fun _ _ => .snapshotTaken (.refl w)) fun _ _ => .snapshotFailed (.refl w)
  | record => cases h; exact .recorded
  | finish => cases h; exact .finished
  | ret => cases h; exact .ret

/-! ## PauseSession, ResumeSession and DestroySession -/

inductive PauseOp.Step (w : World) (id : String) : PauseOp → World → List Op → Prop where
  | found {s} : w.getSession id = some s → Step w id .lookup w [.pause id (.checkActive s)]
  | checked {s} : (w.sess s).state = .active →
      Step w id (.checkActive s) w [.pause id (.wait s)]
  | polled {s} : Step w id (.wait s) w [.pause id (.wait s)]
  | drained {s} : (w.sess s).activeTools ≤ 0 → Step w id (.wait s) w [.pause id (.set s)]
  | paused {s} : (w.sess s).state = .active →
      Step w id (.set s) (w.setSess s fun v => { v with state := .paused }) [.ret .done]
  | returned {op err} : Step w id op w [.ret (.failed err)]

theorem of_withSession {P : World → List Op → Prop}
    (h : some (w.withSession id next) = some (w', more))
    (hfound : ∀ s, w.getSession id = some s → P w [next s])
    (hnot : P w [.ret (.failed (.sessionNotFound id))]) : P w' more := by
  cases h
  cases hs : w.getSession id with
  | some s => exact hfound s hs
  | none => exact hnot

theorem PauseOp.step {op : PauseOp} (h : op.exec id x w = some (w', more)) :
    PauseOp.Step w id op w' more := by
  cases op with
  | lookup => exact of_withSession h (fun _ => .found) .returned
  | checkActive s =>
    cases h
    split
    · exact .checked (checkActive_ok ‹_›)
    · exact .returned
  | wait s =>
    dsimp only [exec] at h
    split at h
    · split at h <;> cases h
      · exact .polled
      · exact .returned
      · exact .returned
    · cases h
      exact .drained (by omega)
  | set s =>
    dsimp only [exec] at h
    split at h <;> cases h
    · exact .returned
    · exact .paused (Decidable.not_not.mp ‹_›)

inductive ResumeOp.Step (w : World) (id : String) : ResumeOp → World → List Op → Prop where
  | found {s} : w.getSession id = some s → Step w id .lookup w [.resume id (.set s)]
  | resumed {s} : (w.sess s).state = .paused →
      Step w id (.set s) (w.setSess s fun v => { v with state := .active }) [.ret .done]
  | returned {op err} : Step w id op w [.ret (.failed err)]

theorem ResumeOp.step (h : op.exec id w = some (w', more)) : ResumeOp.Step w id op w' more := by
  cases op with
  | lookup => exact of_withSession h (fun _ => .found) .returned
  | set s =>
    dsimp only [exec] at h
    split at h <;> cases h
    · exact .returned
    · exact .resumed (Decidable.not_not.mp ‹_›)

inductive DestroyOp.Step (w : World) (id : String) : DestroyOp → World → List Op → Prop where
  | found {s} : w.getSession id = some s → Step w id .lookup w [.destroy id (.mark s)]
  | marked {s} : Step w id (.mark s) (w.setSess s fun v => { v with state := .destroying })
      [.destroy id (.wait s)]
  | polled {s} : Step w id (.wait s) w [.destroy id (.wait s)]
  | waited {s} : Step w id (.wait s) w [.destroy id (.dataset s)]
  | datasetStarted {s} : Step w id (.dataset s) w [.destroy id (.datasetEnd s)]
  | removed {s w'} : w.SameSessions w' → Step w id (.dataset s) w' [.destroy id (.delete s)]
  | datasetEnded {s w'} : w.SameSessions w' →
      Step w id (.datasetEnd s) w' [.destroy id (.delete s)]
  | deleted {s} : Step w id (.delete s) (w.deleteSession id) [.ret .done]
  | returned {op err} : Step w id op w [.ret (.failed err)]

theorem DestroyOp.step (h : op.exec id x w = some (w', more)) : DestroyOp.Step w id op w' more := by
  cases op with
  | lookup => exact of_withSession h (fun _ => .found) .returned
  | mark => cases h; exact .marked
  | wait s =>
    dsimp only [exec] at h
    split at h
    · split at h <;> cases h
      · exact .polled
      · exact .returned
      · exact .waited
    · cases h
      exact .waited
  | dataset s =>
    dsimp only [exec] at h
    split at h <;> cases h
    · exact .datasetStarted
    · exact .removed ⟨rfl, rfl, rfl, rfl⟩
  | datasetEnd s =>
    exact of_storage h (fun _ _ => .datasetEnded (.refl w)) fun _ _ => .datasetEnded (.refl w)
  | delete => cases h; exact .deleted

/-! ## Snapshots -/

inductive TurnOp.Step (w : World) (id : String) : TurnOp → World → List Op → Prop where
  | found {s} : w.getSession id = some s → Step w id .lookup w [.turn id (.check s)]
  | skipped : Step w id .lookup w [.ret .done]
  | checked {s turn name} : (w.sess s).state = .active → (w.sess s).rollingBack = false →
      Step w id (.check s) w [.turn id (.snapshot s turn name)]
  | snapshotStarted {s turn name} :
      Step w id (.snapshot s turn name) w [.turn id (.snapshotEnd s turn name)]
  | snapshotTaken {s turn name w'} : w.SameSessions w' →
      Step w id (.snapshotEnd s turn name) w' [.turn id (.record s turn name)]
  | snapshotFailed {s turn name err w'} : w.SameSessions w' →
      Step w id (.snapshotEnd s turn name) w' [.ret (.failed err)]
  | recorded {s turn name} : Step w id (.record s turn name)
      (w.setSess s fun v =>
        { v with turnCount := turn, snapshots := v.snapshots ++ [⟨name, true⟩] })
      (TurnOp.after id s turn name w)
  | kept {s} : Step w id (.cleanup s) w []
  | cleaned {s n names} : Step w id (.cleanup s)
      (w.setSess s fun v => { v with snapshots := v.snapshots.drop n })
      [.turn id (.destroySnapshots s names)]
  | cleanedUp {s} : Step w id (.destroySnapshots s []) w []
  | snapshotDestroyed {s name names w'} : w.SameSessions w' →
      Step w id (.destroySnapshots s (name :: names)) w' [.turn id (.destroySnapshots s names)]
  | returned {op err} : Step w id op w [.ret (.failed err)]

theorem TurnOp.step (h : op.exec id x w = some (w', more)) : TurnOp.Step w id op w' more := by
  cases op with try dsimp only [exec] at h
  | lookup =>
    split at h
    · cases h
      exact .skipped
    · exact of_withSession h (fun _ => .found) .returned
  | check s =>
    split at h <;> cases h
    · exact .returned
    · rename_i hst
      rw [not_or] at hst
      exact .checked (by simpa using hst.1) (by simpa using hst.2)
  | snapshot => cases h; exact .snapshotStarted
  | snapshotEnd s turn name =>
    exact of_storage h (fun _ _ => .snapshotTaken (.refl w)) fun _ _ => .snapshotFailed (.refl w)
  | record => cases h; exact .recorded
  | cleanup s =>
    split at h <;> cases h
    · exact .kept
    · exact .cleaned
  | destroySnapshots s names =>
    cases names with
    | nil => cases h; exact .cleanedUp
    | cons name names =>
      exact of_storage h (fun _ _ => .snapshotDestroyed (.refl w))
        fun _ _ => .snapshotDestroyed (.refl w)

inductive SnapshotOp.Step (w : World) (id name : String) :
    SnapshotOp → World → List Op → Prop where
  | found {s} : w.getSession id = some s → Step w id name .lookup w [.snapshot id name (.call s)]
  | started {s} : Step w id name (.call s) w [.snapshot id name (.callEnd s)]
  | taken {s w'} : w.SameSessions w' →
      Step w id name (.callEnd s) w' [.snapshot id name (.record s)]
  | failed {s err w'} : w.SameSessions w' →
      Step w id name (.callEnd s) w' [.ret (.failed err)]
  | recorded {s} : Step w id name (.record s)
      (w.setSess s fun v => { v with snapshots := v.snapshots ++ [⟨name, false⟩] })
      [.ret (.snapshot name 0)]
  | returned {op err} : Step w id name op w [.ret (.failed err)]

theorem SnapshotOp.step (h : op.exec id name x w = some (w', more)) :
    SnapshotOp.Step w id name op w' more := by
  cases op with
  | lookup =>
    dsimp only [exec] at h
    split at h
    · cases h
      exact .returned
    · exact of_withSession h (fun _ => .found) .returned
  | call => cases h; exact .started
  | callEnd s =>
    exact of_storage h (fun _ _ => .taken (.refl w)) fun _ _ => .failed (.refl w)
  | record => cases h; exact .recorded

/-! ## RollbackSession -/

inductive RollbackOp.Step (w : World) (id snapshotID : String) :
    RollbackOp → World → List Op → Prop where
  | found {s} : w.getSession id = some s →
      Step w id snapshotID .lookup w [.rollback id snapshotID (.enter s)]
  | entered {s} : (w.sess s).state = .active → (w.sess s).activeTools ≤ 0 →
      Step w id snapshotID (.enter s) (w.setSess s fun v => { v with rollingBack := true })
        [.rollback id snapshotID (.call s)]
  | started {s} : Step w id snapshotID (.call s) w [.rollback id snapshotID (.callEnd s)]
  | ended {s err w'} : w.SameSessions w' →
      Step w id snapshotID (.callEnd s) w' [.rollback id snapshotID (.finish s err)]
  | finished {s} : Step w id snapshotID (.finish s none)
      (w.setSess s fun v => { v with rollingBack := false }.rolledBack snapshotID) [.ret .done]
  | failed {s err r} : Step w id snapshotID (.finish s (some err))
      (w.setSess s fun v => { v with rollingBack := false, state := .failed }) [.ret r]
  | returned {op err} : op = .lookup ∨ (∃ s, op = .enter s) →
      Step w id snapshotID op w [.ret (.failed err)]

theorem RollbackOp.step (h : op.exec id snapshotID x w = some (w', more)) :
    RollbackOp.Step w id snapshotID op w' more := by
  cases op with
  | lookup =>
    dsimp only [exec] at h
    split at h
    · cases h
      exact .returned (.inl rfl)
    · exact of_withSession h (fun _ => .found) (.returned (.inl rfl))
  | enter s =>
    dsimp only [exec] at h
    split at h
    · cases h
      exact .returned (.inr ⟨s, rfl⟩)
    · rename_i hst
      split at h <;> cases h
      · exact .returned (.inr ⟨s, rfl⟩)
      · exact .entered (by simpa using hst) (by omega)
  | call => cases h; exact .started
  | callEnd s =>
    exact of_storage h (fun _ _ => .ended (.refl w)) fun _ _ => .ended (.refl w)
  | finish s err =>
    cases err with
    | none => cases h; exact .finished
    | some err => cases h; exact .failed

/-! ## All actions -/

inductive Step (w : World) : Op → World → List Op → Prop where
  | create {req op w' more} : CreateOp.Step w req op w' more → Step w (.create req op) w' more
  | tool {req op w' more} : ToolOp.Step w req op w' more → Step w (.tool req op) w' more
  | pause {id op w' more} : PauseOp.Step w id op w' more → Step w (.pause id op) w' more
  | resume {id op w' more} : ResumeOp.Step w id op w' more → Step w (.resume id op) w' more
  | destroy {id op w' more} : DestroyOp.Step w id op w' more → Step w (.destroy id op) w' more
  | turn {id op w' more} : TurnOp.Step w id op w' more → Step w (.turn id op) w' more
  | snapshot {id name op w' more} : SnapshotOp.Step w id name op w' more →
      Step w (.snapshot id name op) w' more
  | rollback {id name op w' more} : RollbackOp.Step w id name op w' more →
      Step w (.rollback id name op) w' more
  | ret {r} : Step w (.ret r) w []

theorem step_of_exec (h : exec x a w = some o) : Step w a o.state o.more ∧ o.spawn = [] := by
  obtain ⟨p, hp, rfl⟩ := Option.map_eq_some_iff.mp h
  refine ⟨?_, rfl⟩
  cases a with
  | create req op => exact .create (CreateOp.does hp).step
  | tool req op => exact .tool (ToolOp.step hp)
  | pause id op => exact .pause (PauseOp.step hp)
  | resume id op => exact .resume (ResumeOp.step hp)
  | destroy id op => exact .destroy (DestroyOp.step hp)
  | turn id op => exact .turn (TurnOp.step hp)
  | snapshot id name op => exact .snapshot (SnapshotOp.step hp)
  | rollback id name op => exact .rollback (RollbackOp.step hp)
  | ret r =>
    cases hp
    exact .ret

end FlexAgentRuntime.SandboxHost
