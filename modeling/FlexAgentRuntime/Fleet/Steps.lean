import FlexAgentRuntime.Fleet.Exec

/-!
What each action of the fleet can do: one relation per kind of action, and the
theorem that an executed action is in it. The invariants are proved by cases on
these relations.

Most actions of the control loop only read. `LoopOp.Reads` collects them, with the
actions they go on with.

* `step_of_exec`: every executed action is a `Step`.
-/

namespace FlexAgentRuntime.Fleet

variable {x : Choice} {w w' : World} {more : List Op}

theorem rangeInstances_eq_some (h : w.rangeInstances x = some l) :
    l.Perm (w.instances.map (·.2)) := by
  unfold World.rangeInstances at h
  split at h
  · split at h <;> cases h
    assumption
  · cases h

theorem range_eq_some {f : List MiRef → List Op}
    (h : ((w.rangeInstances x).map fun l => (w, f l)) = some (w', more)) :
    ∃ l, l.Perm (w.instances.map (·.2)) ∧ w' = w ∧ more = f l := by
  obtain ⟨l, hl, heq⟩ := Option.map_eq_some_iff.mp h
  cases heq
  exact ⟨l, rangeInstances_eq_some hl, rfl, rfl⟩

/-! ## CreateSandbox -/

inductive CreateOp.Step (w : World) : CreateOp → World → List Op → Prop where
  | closed : w.closed = true → Step w .start w [.ret (.failed .fleetClosed)]
  | started : w.closed = false → Step w .start w [.create (.select 0)]
  | gaveUp {attempt} : Step w (.select attempt) w [.ret (.failed .noCapacity)]
  | select {attempt} {l : List MiRef} : l.Perm (w.instances.map (·.2)) →
      Step w (.select attempt) w [.create (.snapshot attempt l [])]
  | read {attempt mi todo snapshots} :
      Step w (.snapshot attempt (mi :: todo) snapshots) w
        [.create (.snapshot attempt todo (snapshots ++ [(w.managed mi).snapshot mi]))]
  | noCapacity {attempt snapshots n} :
      Step w (.snapshot attempt [] snapshots) { w with roundRobin := n }
        [.provision (.create attempt) .checkTotal]
  | selected {attempt snapshots s n} : s ∈ snapshots →
      Step w (.snapshot attempt [] snapshots) { w with roundRobin := n }
        [.create (.claim attempt s.ref)]
  | claimed {attempt mi v} : (w.managed mi).claimSession = .ok v →
      Step w (.claim attempt mi) (w.setManaged mi v) [.create (.rpc mi)]
  | claimLost {attempt mi err} : (w.managed mi).claimSession = .error err →
      Step w (.claim attempt mi) w [.create (.select (attempt + 1))]
  | created {mi id} : (w.hostOf mi).terminated = false → id ∉ (w.hostOf mi).alive →
      Step w (.rpc mi) (w.setHost (w.managed mi).instanceID
        { w.hostOf mi with alive := (w.hostOf mi).alive ++ [id] }) [.create (.encode mi id)]
  | rpcFailed {mi} : Step w (.rpc mi) w [.create (.rollback mi .rpc)]
  | encoded {mi id sandboxID} : encodeSandboxID (w.managed mi).instanceID id = .ok sandboxID →
      Step w (.encode mi id) w [.ret (.created sandboxID)]
  | encodeFailed {mi id err} : encodeSandboxID (w.managed mi).instanceID id = .error err →
      Step w (.encode mi id) w [.create (.rollback mi (.encodeSandboxID err))]
  | rolledBack {mi err v} : (w.managed mi).releaseSession w.now = .ok v →
      Step w (.rollback mi err) (w.setManaged mi v) [.ret (.failed err)]
  | rollbackFailed {mi err e} : (w.managed mi).releaseSession w.now = .error e →
      Step w (.rollback mi err) w [.ret (.failed err)]

theorem CreateOp.step_of_exec {op : CreateOp} (h : op.exec x w = some (w', more)) :
    op.Step w w' more := by
  cases op with try simp only [exec] at h
  | start =>
    cases h
    split
    · exact .closed ‹_›
    · exact .started (Bool.of_not_eq_true ‹_›)
  | select attempt =>
    split at h
    · obtain ⟨l, hl, rfl, rfl⟩ := range_eq_some h
      exact .select hl
    · cases h; exact .gaveUp
  | snapshot attempt todo snapshots =>
    cases todo with
    | cons mi todo => cases h; exact .read
    | nil =>
      simp only [exec] at h
      split at h
      · cases h; exact .noCapacity
      · rename_i hs
        cases h
        exact .selected (CapacityRouter.selectInstance_eligible hs).1
  | rpc mi =>
    split at h
    · split at h
      · cases h
      · rename_i hok
        cases h
        rw [not_or] at hok
        exact .created (by simpa using hok.1) hok.2
    · cases h; exact .rpcFailed
    · cases h
  | claim | encode | rollback => split at h <;> cases h <;> constructor <;> assumption

/-! ## Provisioning -/

inductive ProvisionOp.Step (o : Origin) (w : World) : ProvisionOp → World → List Op → Prop where
  | ceiling : w.config.maxInstances ≤ w.instances.length → Step o w .checkTotal w o.failed
  | below : w.instances.length < w.config.maxInstances →
      Step o w .checkTotal w [.provision o .reserve]
  | busy : w.config.maxConcurrentProvisions ≤ w.pendingLaunches → Step o w .reserve w o.failed
  | reserved : w.pendingLaunches < w.config.maxConcurrentProvisions →
      Step o w .reserve { w with pendingLaunches := w.pendingLaunches + 1 }
        [.provision o (.launch w.now)]
  | launched {start id} : id ∉ w.cloud → Step o w (.launch start)
      { w.setHost id {} with cloud := w.cloud ++ [id] } [.provision o (.client start id)]
  | launchFailed {start} : Step o w (.launch start) w (.provision o .unreserve :: o.failed)
  | connected {start id} : Step o w (.client start id) w [.provision o (.insert start id)]
  | clientFailed {start id} : Step o w (.client start id) w (.provision o .unreserve :: o.failed)
  | inserted {start id} : Step o w (.insert start id)
      (w.insertInstance (o.newInstance w start id)) (.provision o .unreserve :: o.succeeded)
  | unreserved : Step o w .unreserve { w with pendingLaunches := w.pendingLaunches - 1 } []

theorem ProvisionOp.step_of_exec {op : ProvisionOp} (h : op.exec o x w = some (w', more)) :
    op.Step o w w' more := by
  cases op with try simp only [exec] at h
  | checkTotal =>
    cases h
    split
    · exact .ceiling ‹_›
    · exact .below (Nat.lt_of_not_le ‹_›)
  | reserve =>
    split at h
    · cases h; exact .busy ‹_›
    · cases h; exact .reserved (Nat.lt_of_not_le ‹_›)
  | launch start =>
    split at h
    · split at h <;> cases h
      exact .launched ‹_›
    · cases h; exact .launchFailed
    · cases h
  | client => split at h <;> cases h <;> constructor
  | insert | unreserve => cases h; constructor

/-! ## DestroySandbox -/

inductive DestroyOp.Step (w : World) : DestroyOp → World → List Op → Prop where
  | malformed {sandboxID err} : parseSandboxID sandboxID = .error err →
      Step w (.start sandboxID) w [.ret (.failed err)]
  | notFound {sandboxID instanceID sessionID} :
      parseSandboxID sandboxID = .ok (instanceID, sessionID) → w.getInstance instanceID = none →
      Step w (.start sandboxID) w [.ret (.failed (.instanceNotFound instanceID))]
  | found {sandboxID instanceID sessionID mi} :
      parseSandboxID sandboxID = .ok (instanceID, sessionID) →
      w.getInstance instanceID = some mi →
      Step w (.start sandboxID) w [.destroy (.release mi sessionID)]
  | released {mi sessionID v} : (w.managed mi).releaseSession w.now = .ok v →
      Step w (.release mi sessionID) (w.setManaged mi v) [.destroy (.rpc mi sessionID true)]
  | notReleased {mi sessionID err} : (w.managed mi).releaseSession w.now = .error err →
      Step w (.release mi sessionID) w [.destroy (.rpc mi sessionID false)]
  | destroyed {mi sessionID released} : (w.hostOf mi).terminated = false →
      sessionID ∈ (w.hostOf mi).alive →
      Step w (.rpc mi sessionID released) (w.setHost (w.managed mi).instanceID
        { w.hostOf mi with alive := (w.hostOf mi).alive.erase sessionID }) [.ret .destroyed]
  | rpcFailed {mi sessionID} : Step w (.rpc mi sessionID true) w [.destroy (.rollback mi sessionID)]
  | rpcFailedUnreleased {mi sessionID} :
      Step w (.rpc mi sessionID false) w [.ret (.failed .rpc)]
  | rolledBack {mi sessionID v} : (w.managed mi).claimSession = .ok v →
      Step w (.rollback mi sessionID) (w.setManaged mi v) [.ret (.failed .rpc)]
  | rollbackFailed {mi sessionID err} : (w.managed mi).claimSession = .error err →
      Step w (.rollback mi sessionID) w [.ret (.failed .rpc)]

theorem DestroyOp.step_of_exec {op : DestroyOp} (h : op.exec x w = some (w', more)) :
    op.Step w w' more := by
  cases op with try simp only [exec] at h
  | start sandboxID =>
    split at h
    · cases h; exact .malformed ‹_›
    · split at h
      · cases h; exact .notFound ‹_› ‹_›
      · cases h; exact .found ‹_› ‹_›
  | rpc mi sessionID released =>
    split at h
    · split at h
      · cases h
      · rename_i hok
        cases h
        rw [not_or, not_not] at hok
        exact .destroyed (by simpa using hok.1) hok.2
    · cases h
      cases released <;> constructor
    · cases h
  | release | rollback => split at h <;> cases h <;> constructor <;> assumption

/-! ## The control loop -/

theorem mem_iteration {b : Op} : b ∈ runIteration.map Op.loop ++ [.loop .wait] ↔
    b = .loop .phaseHealthCheck ∨ b = .loop .phaseHandleUnhealthy ∨ b = .loop .phaseScaleUp ∨
      b = .loop .phaseScaleDown ∨ b = .loop .phaseDrainCompletion ∨
      b = .loop .phaseProvisioningCompletion ∨ b = .loop .wait := by
  simp [runIteration]

/-- The actions of the loop that leave the state alone, and what follows them. -/
inductive LoopOp.Reads (w : World) : LoopOp → List Op → Prop where
  | iterate : Reads w .wait (runIteration.map .loop ++ [.loop .wait])
  | phaseHealthCheck {l : List MiRef} : l.Perm (w.instances.map (·.2)) →
      Reads w .phaseHealthCheck (l.map fun mi => .loop (.healthRead mi))
  | healthSkip {mi} : Reads w (.healthRead mi) []
  | healthRead {mi} : (w.managed mi).state.routable = true ∨ (w.managed mi).state = .draining →
      Reads w (.healthRead mi) [.loop (.healthCheck mi)]
  | healthCheck {mi result} : Reads w (.healthCheck mi) [.loop (.healthStore mi result)]
  | phaseHandleUnhealthy {l : List MiRef} : l.Perm (w.instances.map (·.2)) →
      Reads w .phaseHandleUnhealthy (l.map fun mi => .loop (.handleUnhealthy mi))
  | phaseScaleUp {l : List MiRef} : l.Perm (w.instances.map (·.2)) →
      Reads w .phaseScaleUp [.loop (.scaleUp l.length l 0)]
  | scaleUp {total mi todo n} : Reads w (.scaleUp total (mi :: todo) n)
      [.loop (.scaleUp total todo (if (w.managed mi).hasCapacity then n + 1 else n))]
  | scaleUpNot {total n} : Reads w (.scaleUp total [] n) []
  | scaleUpGo {total n} : total < w.config.maxInstances →
      Reads w (.scaleUp total [] n) [.provision .warm .checkTotal]
  | phaseScaleDown {l : List MiRef} : l.Perm (w.instances.map (·.2)) →
      Reads w .phaseScaleDown [.loop (.scaleDown l.length l 0 [])]
  | scaleDownIdle {total mi todo n candidates} : (w.managed mi).idle = true →
      Reads w (.scaleDown total (mi :: todo) n candidates)
        [.loop (.scaleDown total todo (n + 1)
          (if w.expired (w.managed mi).idleSince w.config.idleCooldown then candidates ++ [mi]
            else candidates))]
  | scaleDownUsed {total mi todo n candidates} : (w.managed mi).idle = false →
      Reads w (.scaleDown total (mi :: todo) n candidates)
        [.loop (.scaleDown total todo n candidates)]
  | scaleDownScanned {total n candidates} : Reads w (.scaleDown total [] n candidates)
      [.loop (.scaleDownDrain total n candidates)]
  | scaleDownEnd {total n candidates} : Reads w (.scaleDownDrain total n candidates) []
  | scaleDownSkip {total n mi candidates} :
      Reads w (.scaleDownDrain total n (mi :: candidates))
        [.loop (.scaleDownDrain total n candidates)]
  | phaseDrainCompletion {l : List MiRef} : l.Perm (w.instances.map (·.2)) →
      Reads w .phaseDrainCompletion [.loop (.drain l [])]
  | drainEnd {toRemove} : Reads w (.drain [] toRemove) []
  | drainRemove {toRemove} : Reads w (.drain [] toRemove) [.loop (.remove toRemove)]
  | drainRead {mi todo toRemove} : Reads w (.drain (mi :: todo) toRemove)
      [.loop (.drainDecide mi (w.managed mi).state (w.managed mi).sessionCount
        (w.managed mi).drainStarted todo toRemove)]
  | drainTimeout {mi n drainStarted todo toRemove} :
      w.expired drainStarted w.config.drainTimeout = true →
      Reads w (.drainDecide mi .draining n drainStarted todo toRemove)
        [.terminate (.drain mi true todo toRemove)]
  | drainEmpty {mi drainStarted todo toRemove} :
      w.expired drainStarted w.config.drainTimeout = false →
      Reads w (.drainDecide mi .draining 0 drainStarted todo toRemove)
        [.terminate (.drain mi false todo toRemove)]
  | drainStuck {mi n drainStarted todo toRemove} :
      Reads w (.drainDecide mi .terminating n drainStarted todo toRemove)
        [.terminate (.stuck mi todo toRemove)]
  | drainNext {mi state n drainStarted todo toRemove} :
      Reads w (.drainDecide mi state n drainStarted todo toRemove)
        [.loop (.drain todo toRemove)]
  | phaseProvisioningCompletion {l : List MiRef} : l.Perm (w.instances.map (·.2)) →
      Reads w .phaseProvisioningCompletion [.loop (.provisioning l [])]
  | provisioningEnd {toRemove} : Reads w (.provisioning [] toRemove) []
  | provisioningRemove {toRemove} :
      Reads w (.provisioning [] toRemove) [.loop (.remove toRemove)]
  | provisioningRead {mi todo toRemove} : (w.managed mi).state = .provisioning →
      Reads w (.provisioning (mi :: todo) toRemove)
        [.loop (.provisioningDecide mi (w.managed mi).provisionStarted todo toRemove)]
  | provisioningSkip {mi todo toRemove} : (w.managed mi).state ≠ .provisioning →
      Reads w (.provisioning (mi :: todo) toRemove) [.loop (.provisioning todo toRemove)]
  | provisioningTimeout {mi provStarted todo toRemove} :
      Reads w (.provisioningDecide mi provStarted todo toRemove)
        [.terminate (.provision mi todo toRemove)]
  | provisioningPoll {mi provStarted todo toRemove} :
      Reads w (.provisioningDecide mi provStarted todo toRemove)
        [.loop (.provisioningCheck mi todo toRemove)]
  | provisioningHealthy {mi todo toRemove} : Reads w (.provisioningCheck mi todo toRemove)
      [.loop (.provisioningReady mi todo toRemove)]
  | provisioningUnhealthy {mi todo toRemove} : Reads w (.provisioningCheck mi todo toRemove)
      [.loop (.provisioning todo toRemove)]
  | provisioningRefused {mi todo toRemove} : Reads w (.provisioningReady mi todo toRemove)
      [.loop (.provisioning todo toRemove)]

inductive LoopOp.Step (w : World) : LoopOp → World → List Op → Prop where
  | reads {op more} : op.Reads w more → Step w op w more
  | done : w.cancelled = true → Step w .wait { w with loopDone := true } []
  | healthStored {mi result} : Step w (.healthStore mi result)
      (w.setManaged mi ((w.managed mi).healthChecked w.now result)) []
  | handled {mi} : Step w (.handleUnhealthy mi) (w.setManaged mi
      (((w.managed mi).drainUnhealthy w.config w.now).recoverDrained w.config w.now)) []
  | scaledDown {total n mi candidates} : w.config.minInstances < total →
      w.config.warmPoolTarget < n → (w.managed mi).idle = true →
      Step w (.scaleDownDrain total n (mi :: candidates)) (w.setManaged mi
        { w.managed mi with
          state := .draining, drainReason := some .scaleDown, drainStarted := some w.now })
        [.loop (.scaleDownDrain (total - 1) (n - 1) candidates)]
  | drainTerminated {mi todo toRemove} : Step w (.drainTerminated mi todo toRemove)
      (w.setManaged mi { w.managed mi with state := .terminating })
      [.loop (.drain todo toRemove)]
  | drainRetry {mi todo toRemove} : Step w (.drainRetry mi todo toRemove)
      (w.setManaged mi
        { w.managed mi with terminateRetries := (w.managed mi).terminateRetries + 1 })
      [.loop (.drain todo toRemove)]
  | provisioningReady {mi todo toRemove} :
      validTransitions (w.managed mi).state .ready = true →
      ((w.managed mi).state = .draining → (w.managed mi).drainReason = some .health) →
      Step w (.provisioningReady mi todo toRemove)
        (w.setManaged mi { w.managed mi with state := .ready, idleSince := some w.now })
        [.loop (.provisioning todo toRemove)]
  | provisioningTerminated {mi todo toRemove} : Step w (.provisioningTerminated mi todo toRemove)
      (w.setManaged mi { w.managed mi with state := .terminating })
      [.loop (.provisioning todo toRemove)]
  | removed {ids} : Step w (.remove ids) (w.removeInstances ids) []

theorem LoopOp.step_of_exec {op : LoopOp} (h : op.exec x w = some (w', more)) :
    op.Step w w' more := by
  cases op with try simp only [exec] at h
  | wait =>
    split at h
    · cases h; exact .reads .iterate
    · split at h <;> cases h
      exact .done ‹_›
    · cases h
  | phaseHealthCheck | phaseHandleUnhealthy | phaseScaleUp | phaseScaleDown | phaseDrainCompletion
  | phaseProvisioningCompletion =>
    obtain ⟨l, hl, rfl, rfl⟩ := range_eq_some h
    exact .reads (by constructor; exact hl)
  | healthStore | handleUnhealthy | drainTerminated | drainRetry | provisioningTerminated | remove =>
    cases h
    constructor
  | healthRead mi =>
    cases h
    split
    · exact .reads (.healthRead ‹_›)
    · exact .reads .healthSkip
  | healthCheck mi | provisioningCheck mi todo toRemove =>
    split at h <;> cases h <;> exact .reads (by constructor)
  | scaleUp total todo n =>
    cases todo with
    | cons mi todo => cases h; exact .reads .scaleUp
    | nil =>
      cases h
      split
      · exact .reads .scaleUpNot
      · rename_i hno
        exact .reads (.scaleUpGo (by omega))
  | scaleDown total todo n candidates =>
    cases todo with
    | nil => cases h; exact .reads .scaleDownScanned
    | cons mi todo =>
      cases h
      split
      · exact .reads (.scaleDownIdle ‹_›)
      · exact .reads (.scaleDownUsed (Bool.of_not_eq_true ‹_›))
  | scaleDownDrain total n candidates =>
    cases candidates with
    | nil => cases h; exact .reads .scaleDownEnd
    | cons mi candidates =>
      simp only [exec] at h
      split at h
      · cases h; exact .reads .scaleDownEnd
      · rename_i hfloor
        rw [not_or] at hfloor
        split at h
        · rename_i hidle
          split at h
          · rename_i hv
            obtain ⟨-, -, rfl⟩ := ManagedInstance.transitionTo_eq_ok hv
            cases h
            exact .scaledDown (Nat.lt_of_not_le hfloor.1) (Nat.lt_of_not_le hfloor.2) hidle
          · cases h; exact .reads .scaleDownSkip
        · cases h; exact .reads .scaleDownSkip
  | drain todo toRemove =>
    cases todo with
    | cons mi todo => cases h; exact .reads .drainRead
    | nil =>
      cases h
      split <;> exact .reads (by constructor)
  | drainDecide mi state n drainStarted todo toRemove =>
    cases h
    split
    · rename_i hd
      subst hd
      split
      · exact .reads (.drainTimeout ‹_›)
      · rename_i hexp
        split
        · rename_i hn
          subst hn
          exact .reads (.drainEmpty (Bool.of_not_eq_true hexp))
        · exact .reads .drainNext
    · split
      · rename_i hst
        subst hst
        exact .reads .drainStuck
      · exact .reads .drainNext
  | provisioning todo toRemove =>
    cases todo with
    | cons mi todo =>
      cases h
      split
      · exact .reads (.provisioningRead ‹_›)
      · exact .reads (.provisioningSkip ‹_›)
    | nil =>
      cases h
      split <;> exact .reads (by constructor)
  | provisioningDecide mi provStarted todo toRemove =>
    cases h
    split <;> exact .reads (by constructor)
  | provisioningReady mi todo toRemove =>
    split at h
    · rename_i hv
      obtain ⟨hvalid, hreason, rfl⟩ := ManagedInstance.transitionTo_eq_ok hv
      cases h
      exact .provisioningReady hvalid fun hd => hreason hd rfl
    · cases h; exact .reads .provisioningRefused

/-! ## RecoverInstances and Close -/

inductive RecoverOp.Step (w : World) : RecoverOp → World → List Op → Prop where
  | listed {ids : List String} : (∀ id ∈ ids, id ∈ w.cloud) →
      Step w .list w (ids.map fun id => .recover (.checkExists id))
  | unlisted : Step w .list w []
  | present {id} : Step w (.checkExists id) w []
  | absent {id} : w.getInstance id = none → Step w (.checkExists id) w [.recover (.client id)]
  | connected {id} : Step w (.client id) w [.recover (.insert id)]
  | unconnected {id} : Step w (.client id) w []
  | inserted {id} : Step w (.insert id) (w.insertInstance
      { instanceID := id, state := .provisioning, maxSessions := w.config.maxSessionsPerInstance,
        provisionStarted := some w.now }) []

theorem RecoverOp.step_of_exec {op : RecoverOp} (h : op.exec x w = some (w', more)) :
    op.Step w w' more := by
  cases op with
  | list =>
    simp only [exec] at h
    split at h
    · split at h
      · rename_i hall
        cases h
        exact .listed (by simpa using hall)
      · cases h
    · cases h; exact .unlisted
    · cases h
  | checkExists id =>
    cases h
    split
    · exact .present
    · exact .absent (Option.not_isSome_iff_eq_none.mp ‹_›)
  | client =>
    simp only [exec] at h
    split at h <;> cases h <;> constructor
  | insert => cases h; constructor

inductive CloseOp.Step (w : World) : CloseOp → World → List Op → Prop where
  | again : w.closed = true → Step w .start w []
  | started : w.closed = false → Step w .start { w with closed := true }
      [.close .cancelLoop, .close .waitLoop, .close .collect]
  | cancelLoop : Step w .cancelLoop { w with cancelled := true } []
  | waitLoop : w.loopDone = true → Step w .waitLoop w []
  | leave : w.config.leaveInstancesOnClose = true → Step w .collect w []
  | collect {l : List MiRef} : l.Perm (w.instances.map (·.2)) → Step w .collect w
      ((l.flatMap fun mi => [.close (.mark mi), .terminate (.close mi)]) ++ [.close .swap])
  | mark {mi} : Step w (.mark mi)
      (w.setManaged mi { w.managed mi with state := .terminating }) []
  | swap : Step w .swap { w with instances := [] } []

theorem mem_collect {l : List MiRef} {b : Op} :
    b ∈ (l.flatMap fun mi => [.close (.mark mi), .terminate (.close mi)]) ++ [.close .swap] ↔
      (∃ mi ∈ l, b = .close (.mark mi) ∨ b = .terminate (.close mi)) ∨ b = .close .swap := by
  simp

theorem CloseOp.step_of_exec {op : CloseOp} (h : op.exec x w = some (w', more)) :
    op.Step w w' more := by
  cases op with try simp only [exec] at h
  | start =>
    split at h
    · cases h; exact .again ‹_›
    · cases h; exact .started (Bool.of_not_eq_true ‹_›)
  | waitLoop =>
    split at h <;> cases h
    exact .waitLoop ‹_›
  | collect =>
    split at h
    · cases h; exact .leave ‹_›
    · obtain ⟨l, hl, rfl, rfl⟩ := range_eq_some h
      exact .collect hl
  | cancelLoop | mark | swap => cases h; constructor

/-! ## All actions -/

inductive Step (w : World) : Op → World → List Op → Prop where
  | create {op w' more} : op.Step w w' more → Step w (.create op) w' more
  | provision {o op w' more} : op.Step o w w' more → Step w (.provision o op) w' more
  | destroy {op w' more} : op.Step w w' more → Step w (.destroy op) w' more
  | loop {op w' more} : op.Step w w' more → Step w (.loop op) w' more
  | terminated {t : Terminator} : Step w (.terminate t) (w.terminateHost t.mi)
      (t.succeeded (w.managed t.mi).instanceID)
  | terminateFailed {t : Terminator} : Step w (.terminate t) w t.failed
  | recover {op w' more} : op.Step w w' more → Step w (.recover op) w' more
  | close {op w' more} : op.Step w w' more → Step w (.close op) w' more
  | ret {r} : Step w (.ret r) w []
  | tick {d} : Step w (.tick d) { w with now := w.now + d } []

theorem step_of_exec (h : exec x op w = some o) : Step w op o.state o.more ∧ o.spawn = [] := by
  obtain ⟨⟨w', more⟩, hx, rfl⟩ := Option.map_eq_some_iff.mp h
  refine ⟨?_, rfl⟩
  cases op with
  | create op => exact .create (CreateOp.step_of_exec hx)
  | provision o op => exact .provision (ProvisionOp.step_of_exec hx)
  | destroy op => exact .destroy (DestroyOp.step_of_exec hx)
  | loop op => exact .loop (LoopOp.step_of_exec hx)
  | terminate t =>
    simp only [execOp, Terminator.exec] at hx
    split at hx <;> cases hx
    · exact .terminated
    · exact .terminateFailed
  | recover op => exact .recover (RecoverOp.step_of_exec hx)
  | close op => exact .close (CloseOp.step_of_exec hx)
  | ret r => cases hx; exact .ret
  | tick d => cases hx; exact .tick

end FlexAgentRuntime.Fleet
