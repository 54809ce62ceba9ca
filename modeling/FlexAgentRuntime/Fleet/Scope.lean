import FlexAgentRuntime.Fleet.Effects

/-!
References and identities: actions refer to instances that exist, an instance keeps
its id and its maximum, and the control loop is one goroutine.

* `Step.instanceID`, `Step.maxSessions`: what no action changes;
* `Reach.scoped`: in every reachable configuration the map and the pending actions
  refer to existing instances, and instance ids have been given out by the cloud;
* `Reach.solo`: the actions of the control loop are those of one thread, and only
  its next action can rest on what the loop has read.
-/

namespace FlexAgentRuntime.Fleet

open Interleaving Config List

/-! ## What actions refer to -/

def CreateOp.refs : CreateOp → List MiRef
  | .snapshot _ todo snapshots => todo ++ snapshots.map (·.ref)
  | .claim _ mi | .rpc mi | .encode mi _ | .rollback mi _ => [mi]
  | .start | .select _ => []

def DestroyOp.refs : DestroyOp → List MiRef
  | .release mi _ | .rpc mi _ _ | .rollback mi _ => [mi]
  | .start _ => []

def Terminator.refs : Terminator → List MiRef
  | .drain mi _ todo _ | .stuck mi todo _ | .provision mi todo _ => mi :: todo
  | .close mi => [mi]

def LoopOp.refs : LoopOp → List MiRef
  | .healthRead mi | .healthCheck mi | .healthStore mi _ | .handleUnhealthy mi => [mi]
  | .scaleUp _ todo _ | .drain todo _ | .provisioning todo _ => todo
  | .scaleDown _ todo _ candidates => todo ++ candidates
  | .scaleDownDrain _ _ candidates => candidates
  | .drainDecide mi _ _ _ todo _ | .drainTerminated mi todo _ | .drainRetry mi todo _
  | .provisioningDecide mi _ todo _ | .provisioningCheck mi todo _
  | .provisioningReady mi todo _ | .provisioningTerminated mi todo _ => mi :: todo
  | _ => []

def CloseOp.refs : CloseOp → List MiRef
  | .mark mi => [mi]
  | _ => []

def Op.refs : Op → List MiRef
  | .create op => op.refs
  | .destroy op => op.refs
  | .loop op => op.refs
  | .terminate t => t.refs
  | .close op => op.refs
  | .provision _ _ | .recover _ | .ret _ | .tick _ => []

/-- The instance ids that a provisioning or recovering call works on. -/
def Op.ids : Op → List String
  | .provision _ (.client _ id) | .provision _ (.insert _ id) => [id]
  | .recover (.checkExists id) | .recover (.client id) | .recover (.insert id) => [id]
  | _ => []

structure World.In (w : World) : Prop where
  instances : ∀ q ∈ w.instances, q.2 < w.nManaged ∧ (w.managed q.2).instanceID = q.1
  maxSessions : ∀ mi < w.nManaged, (w.managed mi).maxSessions = w.config.maxSessionsPerInstance
  ids : ∀ mi < w.nManaged, (w.managed mi).instanceID ∈ w.cloud

def Op.In (w : World) (a : Op) : Prop := (∀ r ∈ a.refs, r < w.nManaged) ∧ ∀ id ∈ a.ids, id ∈ w.cloud

section Step

variable {w w' : World} {a b : Op} {more : List Op} {mi : MiRef} {v : ManagedInstance} {id : String}

theorem ManagedInstance.healthChecked_keeps (v : ManagedInstance) (now : Time) (r : Option Int) :
    ((v.healthChecked now r).instanceID = v.instanceID ∧
        (v.healthChecked now r).maxSessions = v.maxSessions) ∧
      (v.healthChecked now r).drainReason = v.drainReason ∧
      ((v.healthChecked now r).state = v.state ∨
        v.state = .active ∧ (v.healthChecked now r).state = .ready ∨
        v.state = .ready ∧ (v.healthChecked now r).state = .active) := by
  cases r with
  | none => exact ⟨⟨rfl, rfl⟩, rfl, .inl rfl⟩
  | some n =>
    dsimp only [healthChecked]
    split
    · exact ⟨⟨rfl, rfl⟩, rfl, .inl rfl⟩
    · split
      · rename_i hc
        exact ⟨⟨rfl, rfl⟩, rfl, .inr (.inl ⟨hc.2, rfl⟩)⟩
      · split
        · rename_i hc
          exact ⟨⟨rfl, rfl⟩, rfl, .inr (.inr ⟨hc.2, rfl⟩)⟩
        · exact ⟨⟨rfl, rfl⟩, rfl, .inl rfl⟩

/-- The first half of `phaseHandleUnhealthy`, without its error path: draining is
a valid transition from the routable states. -/
theorem ManagedInstance.drainUnhealthy_eq (v : ManagedInstance) (config : FleetConfig)
    (now : Time) : v.drainUnhealthy config now =
      if v.state.routable ∧ v.consecutiveHealthFailures ≥ config.unhealthyThreshold then
        { v with state := .draining, drainReason := some .health, drainStarted := some now }
      else v := by
  unfold drainUnhealthy
  split
  · rename_i hc
    have hs := hc.1
    revert hs
    cases hst : v.state <;> simp [InstanceState.routable, transitionTo, validTransitions, hst]
  · rfl

theorem ManagedInstance.recoverDrained_eq (v : ManagedInstance) (config : FleetConfig)
    (now : Time) : v.recoverDrained config now =
      if v.state = .draining ∧ v.drainReason = some .health ∧
          v.consecutiveHealthSuccesses ≥ config.healthyThreshold then
        { v with
          state := .ready, drainReason := none, drainStarted := none, idleSince := some now }
      else v := by
  unfold recoverDrained
  split
  · rename_i hc
    simp [transitionTo, validTransitions, hc.1, hc.2.1]
  · rfl

theorem ManagedInstance.handled_id (v : ManagedInstance) (config : FleetConfig) (now : Time) :
    ((v.drainUnhealthy config now).recoverDrained config now).instanceID = v.instanceID ∧
      ((v.drainUnhealthy config now).recoverDrained config now).maxSessions = v.maxSessions := by
  rw [recoverDrained_eq, drainUnhealthy_eq]
  split <;> split <;> exact ⟨rfl, rfl⟩

theorem Change.ids (hc : Change w a mi v) (hlt : mi < w.nManaged) :
    v.instanceID = (w.managed mi).instanceID ∧ v.maxSessions = (w.managed mi).maxSessions := by
  cases hc with
  | same h | scaledDown _ _ h | terminated _ h | retried _ h | ready _ _ _ h => exact h ▸ ⟨rfl, rfl⟩
  | claimed h =>
    obtain ⟨-, -, rfl⟩ := ManagedInstance.claimSession_eq_ok h
    exact ⟨rfl, rfl⟩
  | released h =>
    obtain ⟨-, -, hid, hmax, -⟩ := ManagedInstance.releaseSession_eq_ok h
    exact ⟨hid, hmax⟩
  | healthChecked r _ h => exact h ▸ (ManagedInstance.healthChecked_keeps ..).1
  | handled _ h => exact h ▸ ManagedInstance.handled_id ..
  | provisioned _ _ _ h | recovered _ h => exact absurd h (ne_of_lt hlt)

theorem Step.instanceID (hs : Step w a w' more) (hlt : mi < w.nManaged) :
    (w'.managed mi).instanceID = (w.managed mi).instanceID := ((hs.change mi).ids hlt).1

theorem Step.inserted (hs : Step w a w' more)
    (ha : (∃ o start, a = .provision o (.insert start id)) ∨ a = .recover (.insert id)) :
    (w'.managed w.nManaged).instanceID = id ∧
      (w'.managed w.nManaged).maxSessions = w.config.maxSessionsPerInstance := by
  rcases ha with ⟨o, start, rfl⟩ | rfl
  · cases hs with
    | provision hs =>
      cases hs
      simp only [World.insertInstance, Function.update_self]
      cases o <;> exact ⟨rfl, rfl⟩
  · cases hs with
    | recover hs =>
      cases hs
      simp [World.insertInstance]

theorem World.In.step (hw : w.In) (hin : a.In w) (hs : Step w a w' more) : w'.In := by
  have hold : ∀ q ∈ w.instances, q.2 < w'.nManaged ∧ (w'.managed q.2).instanceID = q.1 := by
    intro q hq
    obtain ⟨hlt, hid⟩ := hw.instances q hq
    exact ⟨hlt.trans_le hs.nManaged_le, (hs.instanceID hlt).trans hid⟩
  have hmax : ∀ mi < w.nManaged,
      (w'.managed mi).maxSessions = w'.config.maxSessionsPerInstance := by
    intro mi hlt
    rw [((hs.change mi).ids hlt).2, hs.config_eq]
    exact hw.maxSessions mi hlt
  have hids : ∀ mi < w.nManaged, (w'.managed mi).instanceID ∈ w'.cloud := by
    intro mi hlt
    rw [hs.instanceID hlt]
    exact hs.cloud_mono _ (hw.ids mi hlt)
  cases hs.instances with
  | same hn hi => exact ⟨hi ▸ hold, hn ▸ hmax, hn ▸ hids⟩
  | inserted id ha hn hi =>
    obtain ⟨hnew, hnewMax⟩ := hs.inserted ha
    have hcloud : id ∈ w.cloud := by
      rcases ha with ⟨o, start, rfl⟩ | rfl <;> exact hin.2 id (mem_singleton.mpr rfl)
    have hcases : ∀ mi < w'.nManaged, mi < w.nManaged ∨ mi = w.nManaged :=
      fun mi hlt => Nat.lt_succ_iff_lt_or_eq.mp (hlt.trans_eq hn)
    refine ⟨fun q hq => ?_, fun mi hlt => ?_, fun mi hlt => ?_⟩
    · rw [hi] at hq
      rcases mem_concat.mp hq with hq | rfl
      · exact hold q (mem_filter.mp hq).1
      · exact ⟨hn ▸ Nat.lt_succ_self _, hnew⟩
    · rcases hcases mi hlt with h | rfl
      · exact hmax mi h
      · rw [hnewMax, hs.config_eq]
    · rcases hcases mi hlt with h | rfl
      · exact hids mi h
      · rw [hnew]
        exact hs.cloud_mono _ hcloud
  | removed ids _ hn hi =>
    refine ⟨fun q hq => ?_, hn ▸ hmax, hn ▸ hids⟩
    rw [hi] at hq
    exact hold q (mem_filter.mp hq).1
  | swapped _ hn hi => exact ⟨by simp [hi], hn ▸ hmax, hn ▸ hids⟩

theorem Op.In.mono (hb : b.In w) (hs : Step w a w' more) : b.In w' :=
  ⟨fun r hr => (hb.1 r hr).trans_le hs.nManaged_le, fun id hid => hs.cloud_mono id (hb.2 id hid)⟩

theorem getInstance_some (h : w.getInstance id = some mi) : (id, mi) ∈ w.instances := by
  obtain ⟨⟨id', mi'⟩, hf, rfl⟩ := Option.map_eq_some_iff.mp h
  have hid : id' = id := by simpa using List.find?_some hf
  exact hid ▸ mem_of_find?_eq_some hf

theorem World.In.range (hw : w.In) {l : List MiRef} (hl : l.Perm (w.instances.map (·.2))) :
    ∀ r ∈ l, r < w.nManaged := by
  intro r hr
  obtain ⟨q, hq, rfl⟩ := mem_map.mp (hl.mem_iff.mp hr)
  exact (hw.instances q hq).1

theorem Op.in_one (h : ∀ r ∈ b.refs, r < w.nManaged) (hi : b.ids = [] := by rfl) :
    ∀ b' ∈ [b], b'.In w :=
  forall_mem_singleton.mpr ⟨h, hi ▸ forall_mem_nil _⟩

theorem CreateOp.Step.refs {op : CreateOp} (hs : op.Step w w' more) (hw : w.In)
    (hin : ∀ r ∈ op.refs, r < w.nManaged) : ∀ b ∈ more, b.In w := by
  cases hs with
  | select hl => exact Op.in_one (fun r hr => hw.range hl r (by simpa [Op.refs, CreateOp.refs] using hr))
  | @read attempt mi todo snapshots =>
    refine Op.in_one (fun r hr => hin r ?_)
    simp only [Op.refs, CreateOp.refs, map_append, map_cons, map_nil, mem_append,
      cons_append, mem_cons, ManagedInstance.snapshot] at hr ⊢
    tauto
  | selected hm =>
    refine Op.in_one (fun r hr => hin r ?_)
    cases mem_singleton.mp hr
    exact mem_append_right _ (mem_map_of_mem hm)
  | claimed | created | rpcFailed | encodeFailed => exact Op.in_one hin
  | _ => exact Op.in_one (forall_mem_nil _)

theorem LoopOp.Reads.refs {op : LoopOp} (hs : op.Reads w more) (hw : w.In)
    (hin : ∀ r ∈ op.refs, r < w.nManaged) : ∀ b ∈ more, b.In w := by
  have heach : ∀ {l : List MiRef} {f : MiRef → LoopOp}, l.Perm (w.instances.map (·.2)) →
      (∀ mi, (f mi).refs = [mi]) → ∀ b ∈ l.map (fun mi => Op.loop (f mi)), b.In w := by
    intro l f hl hf b hb
    obtain ⟨mi, hm, rfl⟩ := mem_map.mp hb
    refine ⟨fun r hr => ?_, forall_mem_nil _⟩
    rw [Op.refs, hf] at hr
    cases mem_singleton.mp hr
    exact hw.range hl _ hm
  cases hs with
  | iterate =>
    intro b hb
    rcases mem_iteration.mp hb with rfl | rfl | rfl | rfl | rfl | rfl | rfl <;>
      exact ⟨forall_mem_nil _, forall_mem_nil _⟩
  | phaseHealthCheck hl | phaseHandleUnhealthy hl => exact heach hl fun _ => rfl
  | healthRead | healthCheck | scaleDownScanned | drainRead | provisioningRead | provisioningPoll
  | provisioningHealthy | drainTimeout | drainEmpty | drainStuck | provisioningTimeout =>
    exact Op.in_one hin
  | phaseScaleUp hl | phaseDrainCompletion hl | phaseProvisioningCompletion hl =>
    exact Op.in_one (hw.range hl)
  | scaleUp | scaleDownUsed | scaleDownSkip | drainNext | provisioningSkip
  | provisioningUnhealthy | provisioningRefused =>
    exact Op.in_one (forall_mem_cons.mp hin).2
  | phaseScaleDown hl =>
    exact Op.in_one (fun r hr => hw.range hl r (by simpa [Op.refs, LoopOp.refs] using hr))
  | @scaleDownIdle total mi todo n candidates _ =>
    refine Op.in_one (fun r hr => hin r ?_)
    simp only [Op.refs, LoopOp.refs, cons_append, mem_append, mem_cons] at hr ⊢
    split at hr
    · simp only [mem_append, mem_singleton] at hr
      tauto
    · tauto
  | scaleUpGo | drainRemove | provisioningRemove => exact Op.in_one (forall_mem_nil _)
  | _ => exact forall_mem_nil _

theorem Terminator.succeeded_in {t : Terminator} (hin : ∀ r ∈ t.refs, r < w.nManaged) :
    ∀ b ∈ t.succeeded id, b.In w := by
  cases t with
  | drain mi timedOut todo toRemove | provision mi todo toRemove => exact Op.in_one hin
  | stuck mi todo toRemove => exact Op.in_one (forall_mem_cons.mp hin).2
  | close mi => exact forall_mem_nil _

theorem Terminator.failed_in {t : Terminator} (hin : ∀ r ∈ t.refs, r < w.nManaged) :
    ∀ b ∈ t.failed, b.In w := by
  cases t with
  | drain mi timedOut todo toRemove =>
    cases timedOut with
    | true => exact Op.in_one (forall_mem_cons.mp hin).2
    | false => exact Op.in_one hin
  | stuck mi todo toRemove | provision mi todo toRemove =>
    exact Op.in_one (forall_mem_cons.mp hin).2
  | close mi => exact forall_mem_nil _

theorem ProvisionOp.Step.refs (hs : op.Step o w w' more) (hin : (Op.provision o op).In w) :
    ∀ b ∈ more, b.In w' := by
  have hend : (∀ b ∈ o.failed, b.In w') ∧ ∀ b ∈ o.succeeded, b.In w' := by
    cases o <;> simp [Origin.failed, Origin.succeeded, Op.In, Op.refs, Op.ids, CreateOp.refs]
  have hone : ∀ {op' : ProvisionOp}, (∀ id ∈ (Op.provision o op').ids, id ∈ w'.cloud) →
      (Op.provision o op').In w' := fun h => ⟨forall_mem_nil _, h⟩
  cases hs with
  | ceiling | busy => exact hend.1
  | below | reserved => exact forall_mem_singleton.mpr (hone (forall_mem_nil _))
  | launched =>
    exact forall_mem_singleton.mpr (hone (forall_mem_singleton.mpr
      (mem_append_right _ (mem_singleton.mpr rfl))))
  | launchFailed | clientFailed =>
    exact forall_mem_cons.mpr ⟨hone (forall_mem_nil _), hend.1⟩
  | connected => exact forall_mem_singleton.mpr (hone hin.2)
  | inserted => exact forall_mem_cons.mpr ⟨hone (forall_mem_nil _), hend.2⟩
  | unreserved => exact forall_mem_nil _

theorem Step.more_in (hs : Step w a w' more) (hw : w.In) (hin : a.In w) :
    ∀ b ∈ more, b.In w' := by
  have hkeep : (∀ b ∈ more, b.In w) → ∀ b ∈ more, b.In w' := fun h b hb => (h b hb).mono hs
  cases hs with
  | create hs => exact hkeep (hs.refs hw hin.1)
  | provision hs => exact hs.refs hin
  | destroy hs =>
    refine hkeep ?_
    cases hs with
    | found _ hm =>
      exact Op.in_one (forall_mem_singleton.mpr (hw.instances _ (getInstance_some hm)).1)
    | released | notReleased | rpcFailed => exact Op.in_one hin.1
    | _ => exact Op.in_one (forall_mem_nil _)
  | loop hs =>
    refine hkeep ?_
    cases hs with
    | reads hs => exact hs.refs hw hin.1
    | scaledDown | drainTerminated | drainRetry | provisioningReady | provisioningTerminated =>
      exact Op.in_one (forall_mem_cons.mp hin.1).2
    | _ => exact forall_mem_nil _
  | terminated => exact hkeep (Terminator.succeeded_in hin.1)
  | terminateFailed => exact hkeep (Terminator.failed_in hin.1)
  | recover hs =>
    refine hkeep ?_
    cases hs with
    | listed hl =>
      intro b hb
      obtain ⟨id, hid, rfl⟩ := mem_map.mp hb
      exact ⟨forall_mem_nil _, forall_mem_singleton.mpr (hl id hid)⟩
    | absent | connected => exact forall_mem_singleton.mpr ⟨forall_mem_nil _, hin.2⟩
    | _ => exact forall_mem_nil _
  | close hs =>
    refine hkeep ?_
    cases hs with
    | started =>
      intro b hb
      simp only [mem_cons, not_mem_nil, or_false] at hb
      rcases hb with rfl | rfl | rfl <;> exact ⟨forall_mem_nil _, forall_mem_nil _⟩
    | collect hl =>
      intro b hb
      rcases mem_collect.mp hb with ⟨mi, hm, rfl | rfl⟩ | rfl
      · exact ⟨forall_mem_singleton.mpr (hw.range hl mi hm), forall_mem_nil _⟩
      · exact ⟨forall_mem_singleton.mpr (hw.range hl mi hm), forall_mem_nil _⟩
      · exact ⟨forall_mem_nil _, forall_mem_nil _⟩
    | _ => exact forall_mem_nil _
  | ret | tick => exact forall_mem_nil _

end Step

/-- The map and the pending actions refer to what exists. -/
structure Scoped (c : Config World Op) : Prop where
  world : c.state.In
  ops : ∀ b, c.Pend b → b.In c.state

/-- The action does not refer to anything yet. -/
def Op.fresh (a : Op) : Prop := a.refs = [] ∧ a.ids = []

variable {a : Op} {c c₀ : Config World Op} {w : World} {γ : Type} {N : Monitor World Op Choice γ}
  {h₀ h : γ}

theorem apiEntry_fresh (h : apiEntry w a = true) : a.fresh := by
  unfold apiEntry at h
  split at h
  all_goals first
    | exact ⟨rfl, rfl⟩
    | cases h

theorem Scoped.step (h : Scoped c) (ht : c.At i a rest) (hx : exec x a c.state = some o) :
    Scoped (c.advance i rest o) := by
  obtain ⟨hs, hspawn⟩ := step_of_exec hx
  have hin := h.ops a (pend_head ht)
  refine ⟨h.world.step hin hs, forall_pend_advance ht h.ops (fun b hb => hb.mono hs)
    (hs.more_in h.world hin) ?_⟩
  rw [hspawn]
  exact forall_mem_nil _

theorem Scoped.initial (config : FleetConfig) (cloud : List String) (hosts : String → Host) :
    Scoped (initialConfig config cloud hosts) := by
  refine ⟨⟨forall_mem_nil _, nofun, nofun⟩, ?_⟩
  exact forall_pend_singleton ⟨forall_mem_nil _, forall_mem_nil _⟩

theorem Scoped.call (h : Scoped c) (hfresh : a.fresh) : Scoped (c.call a) := by
  refine ⟨h.world, forall_pend_call h.ops ?_⟩
  exact ⟨hfresh.1 ▸ forall_mem_nil _, hfresh.2 ▸ forall_mem_nil _⟩

theorem Reach.scoped (hentry : ∀ w a, entry w a = true → a.fresh)
    (hr : Reach (machine entry) N h₀ c₀ h c) (hc₀ : Scoped c₀) : Scoped c := by
  refine hr.invariant (fun _ c => Scoped c) hc₀ ?_ ?_
  · intro _ c a hc he
    exact hc.call (hentry _ _ he)
  · intro _ c i a rest x o hc ht hx _
    exact hc.step ht hx

/-! ## What follows an action -/

/-- The kinds of actions that an action can put. -/
inductive Follows : Op → Op → Prop where
  | create {op op'} : Follows (.create op) (.create op')
  | provisions {op k} : Follows (.create op) (.provision (.create k) .checkTotal)
  | provision {o op op'} : Follows (.provision o op) (.provision o op')
  | attempts {k op k'} : Follows (.provision (.create k) op) (.create (.select k'))
  | destroy {op op'} : Follows (.destroy op) (.destroy op')
  | loop {op op'} : Follows (.loop op) (.loop op')
  | warms {op} : Follows (.loop op) (.provision .warm .checkTotal)
  | terminates {op t} : (∀ mi, t ≠ .close mi) → Follows (.loop op) (.terminate t)
  | terminated {t op} : (∀ mi, t ≠ .close mi) → Follows (.terminate t) (.loop op)
  | recover {op op'} : Follows (.recover op) (.recover op')
  | close {op op'} : Follows (.close op) (.close op')
  | closes {op mi} : Follows (.close op) (.terminate (.close mi))
  | ret {a r} : Follows a (.ret r)

section Follows

variable {w w' : World} {a : Op} {more : List Op}

theorem Origin.follows_failed (o : Origin) (op : ProvisionOp) :
    ∀ b ∈ o.failed, Follows (.provision o op) b := by
  cases o with
  | create k => exact forall_mem_singleton.mpr .ret
  | warm => exact forall_mem_nil _

theorem Origin.follows_succeeded (o : Origin) (op : ProvisionOp) :
    ∀ b ∈ o.succeeded, Follows (.provision o op) b := by
  cases o with
  | create k => exact forall_mem_singleton.mpr .attempts
  | warm => exact forall_mem_nil _

theorem LoopOp.Reads.follows (hr : op.Reads w more) : ∀ b ∈ more, Follows (.loop op) b := by
  intro b hb
  cases hr with
  | iterate =>
    rcases mem_iteration.mp hb with rfl | rfl | rfl | rfl | rfl | rfl | rfl <;> exact .loop
  | phaseHealthCheck | phaseHandleUnhealthy =>
    obtain ⟨_, -, rfl⟩ := mem_map.mp hb
    exact .loop
  | scaleUpGo =>
    cases mem_singleton.mp hb
    exact .warms
  | _ => first
    | cases hb
      done
    | cases mem_singleton.mp hb
      first
        | exact .loop
        | exact .terminates nofun

theorem Terminator.follows_succeeded (t : Terminator) (id : String) :
    ∀ b ∈ t.succeeded id, Follows (.terminate t) b := by
  cases t with
  | close mi => exact forall_mem_nil _
  | _ => exact forall_mem_singleton.mpr (.terminated nofun)

theorem Terminator.follows_failed (t : Terminator) : ∀ b ∈ t.failed, Follows (.terminate t) b := by
  cases t with
  | close mi => exact forall_mem_nil _
  | drain mi timedOut todo toRemove =>
    cases timedOut <;> exact forall_mem_singleton.mpr (.terminated nofun)
  | _ => exact forall_mem_singleton.mpr (.terminated nofun)

theorem Step.follows (hs : Step w a w' more) : ∀ b ∈ more, Follows a b := by
  cases hs with
  | create hs =>
    cases hs with
    | noCapacity => exact forall_mem_singleton.mpr .provisions
    | _ => exact forall_mem_singleton.mpr (by constructor)
  | @provision o _ _ _ hs =>
    cases hs with
    | ceiling | busy => exact o.follows_failed _
    | launchFailed | clientFailed => exact forall_mem_cons.mpr ⟨.provision, o.follows_failed _⟩
    | inserted => exact forall_mem_cons.mpr ⟨.provision, o.follows_succeeded _⟩
    | unreserved => exact forall_mem_nil _
    | _ => exact forall_mem_singleton.mpr .provision
  | destroy hs => cases hs <;> exact forall_mem_singleton.mpr (by constructor)
  | loop hs =>
    cases hs with
    | reads hs => exact hs.follows
    | done | healthStored | handled | removed => exact forall_mem_nil _
    | _ => exact forall_mem_singleton.mpr .loop
  | terminated => exact Terminator.follows_succeeded _ _
  | terminateFailed => exact Terminator.follows_failed _
  | recover hs =>
    cases hs with
    | listed =>
      intro b hb
      obtain ⟨_, -, rfl⟩ := mem_map.mp hb
      exact .recover
    | absent | connected => exact forall_mem_singleton.mpr .recover
    | _ => exact forall_mem_nil _
  | close hs =>
    cases hs with
    | started =>
      intro b hb
      simp only [mem_cons, not_mem_nil, or_false] at hb
      rcases hb with rfl | rfl | rfl <;> exact .close
    | collect =>
      intro b hb
      rcases mem_collect.mp hb with ⟨mi, -, rfl | rfl⟩ | rfl
      · exact .close
      · exact .closes
      · exact .close
    | _ => exact forall_mem_nil _
  | ret | tick => exact forall_mem_nil _

end Follows

/-! ## One control loop -/

/-- The actions that only the control loop executes. -/
def Op.inLoop : Op → Bool
  | .loop _ | .provision .warm _ | .terminate (.drain _ _ _ _) | .terminate (.stuck _ _ _)
  | .terminate (.provision _ _ _) => true
  | _ => false

/-- The actions that rest on what the loop has read about an instance. -/
def Op.holds : Op → Bool
  | .loop (.healthCheck _) | .loop (.healthStore _ _) | .loop (.drainDecide _ _ _ _ _ _)
  | .loop (.provisioningDecide _ _ _ _) | .loop (.provisioningCheck _ _ _)
  | .loop (.provisioningReady _ _ _) | .terminate (.drain _ _ _ _)
  | .terminate (.provision _ _ _) => true
  | _ => false

theorem Op.inLoop_of_holds {b : Op} (h : b.holds = true) : b.inLoop = true := by
  unfold Op.holds at h
  split at h
  all_goals first
    | rfl
    | cases h

section Solo

variable {w w' : World} {a b : Op} {more : List Op}

theorem Terminator.inLoop_iff : (Op.terminate t).inLoop = true ↔ ∀ mi, t ≠ .close mi := by
  cases t <;> simp [Op.inLoop]

/-- The control loop goes on with its own actions, and no other thread does. -/
theorem Follows.inLoop (h : Follows a b) (hb : ∀ r, b ≠ .ret r) : b.inLoop = a.inLoop := by
  cases h with
  | terminates ht => exact Terminator.inLoop_iff.mpr ht
  | terminated ht => exact (Terminator.inLoop_iff.mpr ht).symm
  | ret => exact absurd rfl (hb _)
  | provision => rename_i o _ _; cases o <;> rfl
  | _ => rfl

theorem Step.inLoop (hs : Step w a w' more) (ha : a.inLoop = false) :
    ∀ b ∈ more, b.inLoop = false := by
  intro b hb
  by_cases hret : ∃ r, b = .ret r
  · obtain ⟨r, rfl⟩ := hret
    rfl
  · exact ((hs.follows b hb).inLoop fun r hr => hret ⟨r, hr⟩).trans ha

/-- The reads of the loop that put an action which rests on them. -/
inductive LoopOp.Finds (w : World) : LoopOp → Op → Prop where
  | healthRead {mi} : (w.managed mi).state.routable = true ∨ (w.managed mi).state = .draining →
      Finds w (.healthRead mi) (.loop (.healthCheck mi))
  | healthCheck {mi result} : Finds w (.healthCheck mi) (.loop (.healthStore mi result))
  | drainRead {mi todo toRemove} : Finds w (.drain (mi :: todo) toRemove)
      (.loop (.drainDecide mi (w.managed mi).state (w.managed mi).sessionCount
        (w.managed mi).drainStarted todo toRemove))
  | drainTimeout {mi n drainStarted todo toRemove} :
      Finds w (.drainDecide mi .draining n drainStarted todo toRemove)
        (.terminate (.drain mi true todo toRemove))
  | drainEmpty {mi drainStarted todo toRemove} :
      Finds w (.drainDecide mi .draining 0 drainStarted todo toRemove)
        (.terminate (.drain mi false todo toRemove))
  | provisioningRead {mi todo toRemove} : (w.managed mi).state = .provisioning →
      Finds w (.provisioning (mi :: todo) toRemove)
        (.loop (.provisioningDecide mi (w.managed mi).provisionStarted todo toRemove))
  | provisioningTimeout {mi provStarted todo toRemove} :
      Finds w (.provisioningDecide mi provStarted todo toRemove)
        (.terminate (.provision mi todo toRemove))
  | provisioningPoll {mi provStarted todo toRemove} :
      Finds w (.provisioningDecide mi provStarted todo toRemove)
        (.loop (.provisioningCheck mi todo toRemove))
  | provisioningHealthy {mi todo toRemove} : Finds w (.provisioningCheck mi todo toRemove)
      (.loop (.provisioningReady mi todo toRemove))

theorem LoopOp.Reads.finds {op : LoopOp} (hr : op.Reads w more) (hb : b ∈ more)
    (hh : b.holds = true) : op.Finds w b := by
  cases hr with try cases mem_singleton.mp hb
  | iterate =>
    rcases mem_iteration.mp hb with rfl | rfl | rfl | rfl | rfl | rfl | rfl <;> cases hh
  | phaseHealthCheck | phaseHandleUnhealthy =>
    obtain ⟨_, -, rfl⟩ := mem_map.mp hb
    cases hh
  | healthRead hst => exact .healthRead hst
  | provisioningRead hst => exact .provisioningRead hst
  | _ => first
    | cases hb
      done
    | cases mem_singleton.mp hb
      first
        | cases hh
          done
        | constructor

theorem Step.holds_more (hs : Step w a w' more) (hb : b ∈ more) (hh : b.holds = true) :
    w' = w ∧ ∃ op, a = .loop op ∧ op.Finds w b := by
  have hnone : (∀ b ∈ more, b.holds = false) → w' = w ∧ ∃ op, a = .loop op ∧ op.Finds w b := by
    intro h
    rw [h b hb] at hh
    cases hh
  cases hs with
  | create hs | destroy hs | recover hs => exact hnone (by cases hs <;> simp [Op.holds])
  | @provision o _ _ _ hs =>
    exact hnone (by cases hs <;> cases o <;> simp [Op.holds, Origin.failed, Origin.succeeded])
  | loop hs =>
    cases hs with
    | reads hs => exact ⟨rfl, _, rfl, hs.finds hb hh⟩
    | _ => exact hnone (by simp [Op.holds])
  | @terminated t => exact hnone (by cases t <;> simp [Op.holds, Terminator.succeeded])
  | @terminateFailed t =>
    refine hnone ?_
    cases t with
    | drain mi timedOut todo toRemove => cases timedOut <;> simp [Op.holds, Terminator.failed]
    | _ => simp [Op.holds, Terminator.failed]
  | close hs =>
    refine hnone ?_
    cases hs with
    | collect =>
      intro b hb
      rcases mem_collect.mp hb with ⟨mi, -, rfl | rfl⟩ | rfl <;> rfl
    | _ => simp [Op.holds]
  | ret | tick => cases hb

/-- Of the actions that follow only the first can rest on what has been read. -/
theorem Step.holds_tail (hs : Step w a w' more) : ∀ b ∈ more.tail, b.holds = false := by
  refine fun b hb => Bool.eq_false_iff.mpr fun hh => ?_
  obtain ⟨-, op, rfl, hf⟩ := hs.holds_more (mem_of_mem_tail hb) hh
  cases hs with
  | loop hs =>
    cases hs with
    | reads hs => cases hf <;> cases hs <;> cases hb
    | _ => cases hb

/-- The control loop is thread 0, and what it holds is at the head of its stack. -/
structure Solo (c : Config World Op) : Prop where
  nonempty : 0 < c.threads.length
  others : ∀ (i : Nat) (th : List Op), c.threads[i]? = some th → i ≠ 0 →
    ∀ b ∈ th, b.inLoop = false
  head : ∀ (i : Nat) (th : List Op), c.threads[i]? = some th → ∀ b ∈ th.tail, b.holds = false

theorem Solo.initial (config : FleetConfig) (cloud : List String) (hosts : String → Host) :
    Solo (initialConfig config cloud hosts) := by
  refine ⟨Nat.zero_lt_one, fun i th hth hi => ?_, fun i th hth => ?_⟩
  · cases i with
    | zero => exact absurd rfl hi
    | succ i => simp [initialConfig] at hth
  · cases mem_singleton.mp (mem_of_getElem? hth)
    exact forall_mem_nil _

variable {c : Config World Op} {i : Nat} {rest : List Op} {x : Choice} {o : Outcome World Op}

theorem Solo.call (h : Solo c) (ha : a.inLoop = false) : Solo (c.call a) := by
  have hcases : ∀ (j : Nat) (th : List Op), (c.call a).threads[j]? = some th →
      c.threads[j]? = some th ∨ th = [a] := by
    intro j th hth
    simp only [Config.call] at hth
    by_cases hj : j < c.threads.length
    · rw [List.getElem?_append_left hj] at hth
      exact .inl hth
    · rw [List.getElem?_append_right (Nat.le_of_not_lt hj)] at hth
      exact .inr (mem_singleton.mp (mem_of_getElem? hth))
  refine ⟨?_, fun j th hth hj => ?_, fun j th hth => ?_⟩
  · simp [Config.call]
  · rcases hcases j th hth with hth | rfl
    · exact h.others j th hth hj
    · exact forall_mem_singleton.mpr ha
  · rcases hcases j th hth with hth | rfl
    · exact h.head j th hth
    · exact forall_mem_nil _

theorem Solo.step (h : Solo c) (ht : c.At i a rest)
    (hx : exec x a c.state = some o) : Solo (c.advance i rest o) := by
  obtain ⟨hs, hspawn⟩ := step_of_exec hx
  refine ⟨?_, fun j th hth hj => ?_, fun j th hth => ?_⟩
  · simpa [Config.advance, hspawn] using h.nonempty
  · rcases getElem?_advance_cases hspawn hth with ⟨-, hth⟩ | ⟨rfl, rfl⟩
    · exact h.others j th hth hj
    · have hall := forall_mem_cons.mp (h.others j _ ht hj)
      exact forall_mem_append.mpr ⟨hs.inLoop hall.1, hall.2⟩
  · rcases getElem?_advance_cases hspawn hth with ⟨-, hth⟩ | ⟨rfl, rfl⟩
    · exact h.head j th hth
    · have hrest : ∀ b ∈ rest, b.holds = false := h.head j _ ht
      have htail := hs.holds_tail
      generalize o.more = more at htail ⊢
      cases more with
      | nil => exact fun b hb => hrest b (mem_of_mem_tail hb)
      | cons b' more => exact forall_mem_append.mpr ⟨htail, hrest⟩

theorem Solo.loop_cases (h : Solo c) (ht : c.At i a rest)
    (hspawn : o.spawn = []) (hb : (c.advance i rest o).Pend b) (hl : b.inLoop = true) :
    b ∈ o.more ∨ b ∈ rest ∨ c.Pend b ∧ a.inLoop = false := by
  obtain ⟨th, hth, hb⟩ := hb
  obtain ⟨j, hj⟩ := mem_iff_getElem?.mp hth
  rcases getElem?_advance_cases hspawn hj with ⟨hne, hj⟩ | ⟨rfl, rfl⟩
  · -- The action is in the loop's thread, so the step was taken by another one.
    refine .inr (.inr ⟨⟨th, mem_of_getElem? hj, hb⟩, ?_⟩)
    have hj0 : j = 0 := by
      by_contra hj0
      have := h.others j th hj hj0 b hb
      rw [hl] at this
      cases this
    subst hj0
    exact h.others i _ ht (Ne.symm hne) a (mem_cons_self ..)
  · exact (mem_append.mp hb).imp_right .inl

/-- An action that rests on what the loop has read has just been put there, or the
loop has not moved since. -/
theorem Solo.pend_cases (h : Solo c) (ht : c.At i a rest)
    (hspawn : o.spawn = []) (hb : (c.advance i rest o).Pend b) (hh : b.holds = true) :
    b ∈ o.more ∨ c.Pend b ∧ a.inLoop = false := by
  refine (h.loop_cases ht hspawn hb (Op.inLoop_of_holds hh)).imp_right fun hb => hb.resolve_left ?_
  intro hb
  rw [h.head i _ ht b hb] at hh
  cases hh

/-- `phaseHandleUnhealthy` drains routable instances and makes health drains ready. -/
theorem ManagedInstance.handled_state (v : ManagedInstance) (config : FleetConfig) (now : Time) :
    (v.drainUnhealthy config now).recoverDrained config now = v ∨
      (v.state.routable = true ∨ v.state = .draining ∧ v.drainReason = some .health) ∧
        (((v.drainUnhealthy config now).recoverDrained config now).state = .draining ∧
            v.state.routable = true ∨
          ((v.drainUnhealthy config now).recoverDrained config now).state = .ready) := by
  rw [recoverDrained_eq, drainUnhealthy_eq]
  by_cases hd : v.state.routable ∧ v.consecutiveHealthFailures ≥ config.unhealthyThreshold
  · rw [if_pos hd]
    refine .inr ⟨.inl hd.1, ?_⟩
    split
    · exact .inr rfl
    · exact .inl ⟨rfl, hd.1⟩
  · rw [if_neg hd]
    split
    · rename_i hc
      exact .inr ⟨.inr ⟨hc.1, hc.2.1⟩, .inr rfl⟩
    · exact .inl rfl

/-- Outside the loop an instance that is not routable keeps its state or is terminated, and
gets no session. -/
theorem Change.outside (hc : Change w a mi v) (ha : a.inLoop = false) (hlt : mi < w.nManaged)
    (hr : (w.managed mi).state.routable = false) :
    (v.state = (w.managed mi).state ∨ v.state = .terminating) ∧
      v.sessionCount ≤ (w.managed mi).sessionCount := by
  cases hc with
  | same hv =>
    subst hv
    exact ⟨.inl rfl, Int.le_refl _⟩
  | claimed hv =>
    rw [(ManagedInstance.claimSession_eq_ok hv).1] at hr
    cases hr
  | released hv =>
    obtain ⟨-, hcount, -, -, ⟨hs, -⟩ | ⟨-, hact, -⟩⟩ := ManagedInstance.releaseSession_eq_ok hv
    · exact ⟨.inl hs, by omega⟩
    · rw [hact] at hr
      cases hr
  | terminated _ hv => exact hv ▸ ⟨.inr rfl, Int.le_refl _⟩
  | provisioned _ _ _ hn | recovered _ hn => exact absurd hn (ne_of_lt hlt)
  | healthChecked _ hop | handled hop => subst hop; cases ha
  | scaledDown hop =>
    obtain ⟨_, _, _, rfl⟩ := hop
    cases ha
  | retried hop | ready hop =>
    obtain ⟨_, _, rfl⟩ := hop
    cases ha

end Solo

theorem apiEntry_not_inLoop (h : apiEntry w a = true) : a.inLoop = false := by
  unfold apiEntry at h
  split at h
  all_goals first
    | rfl
    | cases h

theorem Reach.solo (hr : Reach (machine apiEntry) N h₀ c₀ h c) (hc₀ : Solo c₀) : Solo c := by
  refine hr.invariant (fun _ c => Solo c) hc₀ ?_ ?_
  · intro _ c a hc he
    exact hc.call (apiEntry_not_inLoop (w := c.state) he)
  · intro _ c i a rest x o hc ht hx _
    exact hc.step ht hx

end FlexAgentRuntime.Fleet
