import FlexAgentRuntime.Fleet.Scope

/-!
Slot accounting: the session count of an instance against the sandboxes alive on its
host and the calls in flight.

A `CreateSandbox` call holds a slot from its claim until its remote call has ended; a
`DestroySandbox` call that has released a slot owes it until its remote call has
ended. `Op.slots` weighs pending actions by that, and `World.spare` is the part of
the count that no live sandbox accounts for.

* `Step.balance`: each step moves the two by the same amount, apart from the steps
  it lists;
* `Distinct.step`: each cloud instance has at most one managed instance;
* `Reach.covered`: when the steps that lose slots are excluded, every live sandbox and
  every claim in flight is covered by the count.
-/

namespace FlexAgentRuntime.Fleet

open Interleaving Config List Function

/-! ## Slots -/

/-- The action is part of a `CreateSandbox` call that has claimed a slot of `mi`. -/
def Op.claims (mi : MiRef) : Op → Bool
  | .create (.rpc r) | .create (.rollback r _) => r == mi
  | _ => false

/-- The action is part of a `DestroySandbox` call that has released a slot of `mi`
and does not know yet whether the sandbox is gone. -/
def Op.owes (mi : MiRef) : Op → Bool
  | .destroy (.rpc r _ true) | .destroy (.rollback r _) => r == mi
  | _ => false

def Op.slots (mi : MiRef) (a : Op) : Int :=
  (if a.claims mi then 1 else 0) - (if a.owes mi then 1 else 0)

def slotSum (mi : MiRef) (l : List Op) : Int := (l.map (Op.slots mi)).sum

@[simp] theorem slotSum_nil (mi : MiRef) : slotSum mi [] = 0 := rfl

@[simp] theorem slotSum_singleton (mi : MiRef) (a : Op) : slotSum mi [a] = a.slots mi := by
  simp [slotSum]

theorem slotSum_eq_zero (h : ∀ b ∈ l, b.slots mi = 0) : slotSum mi l = 0 := by
  induction l with
  | nil => rfl
  | cons b l ih =>
    obtain ⟨hb, hl⟩ := forall_mem_cons.mp h
    have := ih hl
    simp only [slotSum, map_cons, sum_cons] at this ⊢
    omega

/-- Sandboxes alive on the host of an instance. -/
def World.aliveCount (w : World) (mi : MiRef) : Nat := (w.hostOf mi).alive.length

/-- The part of the session count that no live sandbox accounts for. -/
def World.spare (w : World) (mi : MiRef) : Int := (w.managed mi).sessionCount - w.aliveCount mi

/-- Different managed instances are different cloud instances. -/
def World.Injective (w : World) : Prop :=
  ∀ mi < w.nManaged, ∀ mi' < w.nManaged,
    (w.managed mi).instanceID = (w.managed mi').instanceID → mi = mi'

variable {w w' : World} {a b : Op} {more : List Op} {mi r : MiRef} {v : ManagedInstance}

/-- How a step moves the spare slots of `mi` against those in flight. -/
inductive Balance (w : World) (a : Op) (w' : World) (more : List Op) (mi : MiRef) : Prop where
  | exact : w'.spare mi - w.spare mi = slotSum mi more - a.slots mi → Balance w a w' more mi
  | unreleased : ((∃ err, a = .create (.rollback mi err)) ∧ (w.managed mi).sessionCount ≤ 0 ∨
        ∃ id, a = .destroy (.rpc mi id false)) →
      w'.spare mi - w.spare mi = slotSum mi more - a.slots mi + 1 → Balance w a w' more mi
  | rollbackFailed (id : String) (err : FleetError) : a = .destroy (.rollback mi id) →
      (w.managed mi).claimSession = .error err → Balance w a w' more mi
  | encodeFailed (id : String) (err : FleetError) : a = .create (.encode mi id) →
      encodeSandboxID (w.managed mi).instanceID id = .error err → Balance w a w' more mi
  | reconciled (n : Int) : a = .loop (.healthStore mi (some n)) → more = [] →
      (w'.managed mi).sessionCount = n → w'.aliveCount mi = w.aliveCount mi →
      Balance w a w' more mi
  | terminated (t : Terminator) : a = .terminate t → slotSum mi more = 0 →
      (w'.managed mi).sessionCount = (w.managed mi).sessionCount → w'.aliveCount mi = 0 →
      Balance w a w' more mi

theorem Balance.quiet
    (hm : (w'.managed mi).sessionCount = (w.managed mi).sessionCount := by rfl)
    (ha : w'.aliveCount mi = w.aliveCount mi := by rfl)
    (hmore : slotSum mi more = a.slots mi := by simp [Op.slots, Op.claims, Op.owes]) :
    Balance w a w' more mi := by
  refine .exact ?_
  simp only [World.spare, hm, ha, hmore]
  omega

theorem ManagedInstance.healthChecked_count (v : ManagedInstance) (now : Time) (r : Option Int) :
    (v.healthChecked now r).sessionCount = r.getD v.sessionCount := by
  cases r with
  | none => rfl
  | some n =>
    dsimp only [healthChecked]
    split
    · rename_i h
      exact h.symm
    · split
      · rfl
      · split <;> rfl

theorem ManagedInstance.count_of_not_released (h : v.releaseSession now = .error err) :
    v.sessionCount ≤ 0 := by
  by_contra hpos
  unfold releaseSession at h
  rw [if_neg hpos] at h
  split at h <;> cases h

theorem ManagedInstance.handled_count (v : ManagedInstance) (config : FleetConfig) (now : Time) :
    ((v.drainUnhealthy config now).recoverDrained config now).sessionCount = v.sessionCount := by
  rw [recoverDrained_eq, drainUnhealthy_eq]
  split <;> split <;> rfl

theorem World.sessionCount_setManaged_of_ne (h : mi ≠ r) :
    ((w.setManaged r v).managed mi).sessionCount = (w.managed mi).sessionCount := by
  rw [show (w.setManaged r v).managed mi = w.managed mi from update_of_ne h _ _]

theorem World.aliveCount_setManaged (hid : v.instanceID = (w.managed r).instanceID) :
    (w.setManaged r v).aliveCount mi = w.aliveCount mi := by
  have heq : ((w.setManaged r v).managed mi).instanceID = (w.managed mi).instanceID :=
    update_proj ManagedInstance.instanceID hid mi
  unfold World.aliveCount World.hostOf
  rw [heq]
  rfl

theorem World.Injective.aliveCount_setHost (hinj : w.Injective) (hlt : mi < w.nManaged)
    (hr : r < w.nManaged) :
    (w.setHost (w.managed r).instanceID host).aliveCount mi =
      if mi = r then host.alive.length else w.aliveCount mi := by
  unfold World.aliveCount World.hostOf World.setHost
  by_cases h : mi = r
  · subst h
    simp
  · have hne : (w.managed mi).instanceID ≠ (w.managed r).instanceID :=
      fun heq => h (hinj mi hlt r hr heq)
    simp [h, hne]

theorem World.spare_setHost :
    (w.setHost (w.managed mi).instanceID host).spare mi =
      w.spare mi + w.aliveCount mi - host.alive.length := by
  have hhost : ((w.setHost (w.managed mi).instanceID host).hostOf mi) = host :=
    update_self ..
  have hm : (w.setHost (w.managed mi).instanceID host).managed = w.managed := rfl
  simp only [World.spare, World.aliveCount, hhost, hm]
  omega

theorem Op.slots_of_inLoop (h : b.inLoop = true) : b.slots mi = 0 := by
  unfold Op.inLoop at h
  split at h
  all_goals first
    | rfl
    | cases h

/-- The control loop and what it calls do not hold or owe slots. -/
theorem Step.slotSum_of_inLoop (hs : Step w a w' more) (ha : a.inLoop = true) :
    slotSum mi more = a.slots mi := by
  rw [Op.slots_of_inLoop ha]
  refine slotSum_eq_zero fun b hb => ?_
  by_cases hret : ∃ r, b = .ret r
  · obtain ⟨r, rfl⟩ := hret
    rfl
  · exact Op.slots_of_inLoop (((hs.follows b hb).inLoop fun r hr => hret ⟨r, hr⟩).trans ha)

theorem Balance.keepsCount (hcount : v.sessionCount = (w.managed r).sessionCount)
    (hid : v.instanceID = (w.managed r).instanceID) (hmore : slotSum mi more = a.slots mi) :
    Balance w a (w.setManaged r v) more mi := by
  refine .quiet ?_ (World.aliveCount_setManaged hid) hmore
  exact update_proj ManagedInstance.sessionCount hcount mi

theorem Balance.counts (hcount : v.sessionCount = (w.managed r).sessionCount + d)
    (hid : v.instanceID = (w.managed r).instanceID)
    (hself : slotSum r more = a.slots r + d := by simp [Op.slots, Op.claims, Op.owes])
    (hother : mi ≠ r → slotSum mi more = a.slots mi := by
      intro h; simp [Op.slots, Op.claims, Op.owes, Ne.symm h]) :
    Balance w a (w.setManaged r v) more mi := by
  by_cases h : mi = r
  · subst h
    refine .exact ?_
    have hm : (w.setManaged mi v).managed mi = v := update_self ..
    simp only [World.spare, hm, hcount, World.aliveCount_setManaged hid, hself]
    omega
  · exact .quiet (World.sessionCount_setManaged_of_ne h) (World.aliveCount_setManaged hid)
      (hother h)

theorem CreateOp.Step.balance (hs : op.Step w w' more) (hinj : w.Injective)
    (hin : ∀ r ∈ op.refs, r < w.nManaged) (hlt : mi < w.nManaged) :
    Balance w (.create op) w' more mi := by
  cases hs with
  | @claimed k r v hv =>
    obtain ⟨-, -, rfl⟩ := ManagedInstance.claimSession_eq_ok hv
    exact .counts (d := 1) rfl rfl
  | @created r id _ _ =>
    have hr := hin r (mem_singleton.mpr rfl)
    by_cases h : mi = r
    · subst h
      refine .exact ?_
      rw [World.spare_setHost, length_append]
      simp [Op.slots, Op.claims, Op.owes, World.aliveCount]
      omega
    · refine .quiet rfl ?_ (by simp [Op.slots, Op.claims, Op.owes, Ne.symm h])
      rw [hinj.aliveCount_setHost hlt hr, if_neg h]
  | @encodeFailed r id err he =>
    by_cases h : mi = r
    · subst h
      exact .encodeFailed id err rfl he
    · exact .quiet rfl rfl (by simp [Op.slots, Op.claims, Op.owes, Ne.symm h])
  | @rolledBack r err v hv =>
    obtain ⟨-, hcount, hid, -, -⟩ := ManagedInstance.releaseSession_eq_ok hv
    exact .counts (d := -1) hcount hid
  | @rollbackFailed r err e he =>
    by_cases h : mi = r
    · subst h
      refine .unreleased (.inl ⟨⟨err, rfl⟩, ManagedInstance.count_of_not_released he⟩) ?_
      simp [Op.slots, Op.claims, Op.owes]
    · exact .quiet rfl rfl (by simp [Op.slots, Op.claims, Op.owes, Ne.symm h])
  | _ => exact .quiet

theorem DestroyOp.Step.balance (hs : op.Step w w' more) (hinj : w.Injective)
    (hin : ∀ r ∈ op.refs, r < w.nManaged) (hlt : mi < w.nManaged) :
    Balance w (.destroy op) w' more mi := by
  cases hs with
  | @released r id v hv =>
    obtain ⟨-, hcount, hid, -, -⟩ := ManagedInstance.releaseSession_eq_ok hv
    exact .counts (d := -1) hcount hid
  | @destroyed r id released _ hid =>
    have hr := hin r (mem_singleton.mpr rfl)
    by_cases h : mi = r
    · subst h
      have hpos : 0 < (w.hostOf mi).alive.length := length_pos_of_mem hid
      have hspare : (w.setHost (w.managed mi).instanceID
          { w.hostOf mi with alive := (w.hostOf mi).alive.erase id }).spare mi =
          w.spare mi + 1 := by
        rw [World.spare_setHost, length_erase_of_mem hid, World.aliveCount]
        omega
      cases released with
      | true =>
        refine .exact ?_
        rw [hspare]
        simp only [slotSum_singleton, Op.slots, Op.claims, Op.owes, beq_self_eq_true, if_true,
          Bool.false_eq_true, if_false]
        omega
      | false =>
        refine .unreleased (.inr ⟨id, rfl⟩) ?_
        rw [hspare]
        simp only [slotSum_singleton, Op.slots, Op.claims, Op.owes, Bool.false_eq_true, if_false]
        omega
    · refine .quiet rfl ?_ (by cases released <;> simp [Op.slots, Op.claims, Op.owes, Ne.symm h])
      rw [hinj.aliveCount_setHost hlt hr, if_neg h]
  | @rolledBack r _ v hv =>
    obtain ⟨-, -, rfl⟩ := ManagedInstance.claimSession_eq_ok hv
    exact .counts (d := 1) rfl rfl
  | @rollbackFailed r id err he =>
    by_cases h : mi = r
    · subst h
      exact .rollbackFailed id err rfl he
    · exact .quiet rfl rfl (by simp [Op.slots, Op.claims, Op.owes, Ne.symm h])
  | _ => exact .quiet

theorem LoopOp.Step.balance (hs : op.Step w w' more) : Balance w (.loop op) w' more mi := by
  have hmore : slotSum mi more = (Op.loop op).slots mi := (Fleet.Step.loop hs).slotSum_of_inLoop rfl
  cases hs with
  | @healthStored r result =>
    by_cases h : mi = r
    · subst h
      have hm : (w.setManaged mi ((w.managed mi).healthChecked w.now result)).managed mi =
          (w.managed mi).healthChecked w.now result := update_self ..
      have halive : (w.setManaged mi ((w.managed mi).healthChecked w.now result)).aliveCount mi =
          w.aliveCount mi :=
        World.aliveCount_setManaged ((w.managed mi).healthChecked_keeps w.now result).1.1
      cases result with
      | none => exact .quiet (by rw [hm]; rfl) halive hmore
      | some n =>
        refine .reconciled n rfl rfl ?_ halive
        rw [hm, ManagedInstance.healthChecked_count]
        rfl
    · exact .quiet (World.sessionCount_setManaged_of_ne h)
        (World.aliveCount_setManaged (ManagedInstance.healthChecked_keeps ..).1.1) hmore
  | handled =>
    exact .keepsCount (ManagedInstance.handled_count ..) (ManagedInstance.handled_id ..).1 hmore
  | scaledDown | drainTerminated | drainRetry | provisioningReady | provisioningTerminated =>
    exact .keepsCount rfl rfl hmore
  | _ => exact .quiet rfl rfl hmore

theorem Balance.insertInstance (hlt : mi < w.nManaged) (hmore : slotSum mi more = a.slots mi) :
    Balance w a (w.insertInstance v) more mi := by
  have hm : (w.insertInstance v).managed mi = w.managed mi :=
    update_of_ne (ne_of_lt hlt) _ _
  refine .quiet (by rw [hm]) ?_ hmore
  unfold World.aliveCount World.hostOf
  rw [hm]
  rfl

theorem Step.balance (hs : Step w a w' more) (hw : w.In) (hinj : w.Injective) (hin : a.In w)
    (hlt : mi < w.nManaged) : Balance w a w' more mi := by
  cases hs with
  | create hs | destroy hs => exact hs.balance hinj hin.1 hlt
  | @provision o _ _ _ hs =>
    have hend : slotSum mi o.failed = 0 ∧ slotSum mi o.succeeded = 0 ∧
        slotSum mi (.provision o .unreserve :: o.failed) = 0 ∧
        slotSum mi (.provision o .unreserve :: o.succeeded) = 0 := by
      cases o <;> simp [slotSum, Op.slots, Op.claims, Op.owes, Origin.failed, Origin.succeeded]
    cases hs with
    | ceiling | busy => exact .quiet rfl rfl hend.1
    | launchFailed | clientFailed => exact .quiet rfl rfl hend.2.2.1
    | inserted => exact .insertInstance hlt hend.2.2.2
    | @launched start id hid =>
      refine .quiet rfl ?_ (by simp [Op.slots, Op.claims, Op.owes])
      have hne : (w.managed mi).instanceID ≠ id := fun h => hid (h ▸ hw.ids mi hlt)
      simp [World.aliveCount, World.hostOf, World.setHost, hne]
    | _ => exact .quiet
  | loop hs => exact hs.balance
  | @terminated t =>
    have hmore : slotSum mi (t.succeeded (w.managed t.mi).instanceID) = 0 := by
      cases t <;> simp [slotSum, Terminator.succeeded, Op.slots, Op.claims, Op.owes]
    have ht : t.mi < w.nManaged := hin.1 _ (by cases t <;> simp [Op.refs, Terminator.refs, Terminator.mi])
    have hcount : (w.terminateHost t.mi).aliveCount mi = if mi = t.mi then 0 else w.aliveCount mi :=
      hinj.aliveCount_setHost hlt ht
    by_cases h : mi = t.mi
    · rw [if_pos h] at hcount
      exact .terminated t rfl hmore rfl hcount
    · rw [if_neg h] at hcount
      exact .quiet rfl hcount hmore
  | @terminateFailed t =>
    refine .quiet rfl rfl ?_
    cases t with
    | drain r timedOut todo toRemove =>
      cases timedOut <;> simp [Terminator.failed, Op.slots, Op.claims, Op.owes]
    | _ => simp [Terminator.failed, Op.slots, Op.claims, Op.owes]
  | recover hs =>
    cases hs with
    | inserted => exact .insertInstance hlt (by simp [Op.slots, Op.claims, Op.owes])
    | listed =>
      refine .quiet rfl rfl (slotSum_eq_zero fun b hb => ?_)
      obtain ⟨id, -, rfl⟩ := mem_map.mp hb
      rfl
    | _ => exact .quiet
  | close hs =>
    cases hs with
    | mark => exact .keepsCount rfl rfl (by simp [Op.slots, Op.claims, Op.owes])
    | collect =>
      refine .quiet rfl rfl (slotSum_eq_zero fun b hb => ?_)
      rcases mem_collect.mp hb with ⟨r, -, rfl | rfl⟩ | rfl <;> rfl
    | _ => exact .quiet rfl rfl (by simp [slotSum, Op.slots, Op.claims, Op.owes])
  | ret | tick => exact .quiet

/-! ## One managed instance per cloud instance -/

/-- The instance that a provisioning call has launched and not yet inserted. -/
def Op.launchedID : Op → Option String
  | .provision _ (.client _ id) | .provision _ (.insert _ id) => some id
  | _ => none

def Op.launches (id : String) (b : Op) : Bool := b.launchedID == some id

/-- `RecoverInstances` adds an instance that this fleet has not had, that no call is
provisioning, and on which nothing is alive. -/
def recoversFresh (c : Config World Op) (id : String) : Bool :=
  (List.range c.state.nManaged).all (fun mi => (c.state.managed mi).instanceID != id) &&
    c.pending (Op.launches id) == 0 && (c.state.hosts id).alive.isEmpty

structure Distinct (c : Config World Op) : Prop where
  injective : c.state.Injective
  once : ∀ id, c.pending (Op.launches id) ≤ 1
  unmanaged : ∀ id, 0 < c.pending (Op.launches id) →
    ∀ mi < c.state.nManaged, (c.state.managed mi).instanceID ≠ id
  empty : ∀ id, 0 < c.pending (Op.launches id) → (c.state.hosts id).alive = []

variable {id : String} {c : Config World Op} {i : Nat} {rest : List Op} {x : Choice}
  {o : Outcome World Op}

theorem Op.mem_ids_of_launches (h : b.launches id = true) : id ∈ b.ids := by
  have h : b.launchedID = some id := by simpa [Op.launches] using h
  unfold Op.launchedID at h
  split at h
  all_goals first
    | cases h; exact mem_singleton.mpr rfl
    | cases h

theorem Step.launches_more (hs : Step w a w' more) (id : String) :
    more.countP (Op.launches id) ≤ (if a.launches id then 1 else 0) ∨
      id ∉ w.cloud ∧ more.countP (Op.launches id) ≤ 1 ∧ a.launches id = false ∧
        w'.nManaged = w.nManaged ∧ (w'.hosts id).alive = [] := by
  have hzero (h : ∀ b ∈ more, b.launchedID = none) :
      more.countP (Op.launches id) ≤ (if a.launches id then 1 else 0) := by
    have hz : more.countP (Op.launches id) = 0 :=
      countP_eq_zero.mpr fun b hb => by simp [Op.launches, h b hb]
    omega
  have hother (hne : ∀ o op, a ≠ .provision o op) :
      more.countP (Op.launches id) ≤ (if a.launches id then 1 else 0) := by
    refine hzero fun b hb => ?_
    cases hs.follows b hb with
    | provision => exact absurd rfl (hne _ _)
    | _ => rfl
  cases hs with
  | @provision o _ _ _ hs =>
    cases hs with
    | @launched start id' hid =>
      by_cases h : id' = id
      · subst h
        refine .inr ⟨hid, ?_, rfl, rfl, ?_⟩
        · simp [Op.launches, Op.launchedID]
        · simp [World.setHost]
      · refine .inl ?_
        simp [Op.launches, Op.launchedID, h]
    | connected => exact .inl (by simp [Op.launches, Op.launchedID])
    | _ =>
      exact .inl (hzero (by
        cases o <;> simp [Op.launchedID, Origin.failed, Origin.succeeded]))
  | _ => exact .inl (hother fun _ _ he => by cases he)

theorem Step.alive_unmanaged (hs : Step w a w' more) (hin : a.In w)
    (hun : ∀ mi < w.nManaged, (w.managed mi).instanceID ≠ id) (h : (w.hosts id).alive = []) :
    (w'.hosts id).alive = [] := by
  cases hs.hosts with
  | same hh => rw [hh, h]
  | created r id' ha _ _ hh | destroyed r id' rel ha _ _ hh =>
    subst ha
    rw [hh, update_of_ne (Ne.symm (hun r (hin.1 r (mem_singleton.mpr rfl)))), h]
  | launched _ _ _ hh | terminated _ _ hh =>
    rw [hh]
    exact update_keeps (Host.alive · = []) h fun _ => rfl

theorem Step.managed_cases (hs : Step w a w' more) (hlt : mi < w'.nManaged) :
    mi < w.nManaged ∨ ∃ id, (w'.managed mi).instanceID = id ∧ mi = w.nManaged ∧
      ((∃ o start, a = .provision o (.insert start id)) ∨ a = .recover (.insert id)) := by
  cases hs.instances with
  | same hn | removed _ _ hn | swapped _ hn => exact .inl (hn ▸ hlt)
  | inserted id ha hn =>
    rcases Nat.lt_succ_iff_lt_or_eq.mp (hlt.trans_eq hn) with h | rfl
    · exact .inl h
    · exact .inr ⟨id, (hs.inserted ha).1, rfl, ha⟩

theorem Distinct.step (h : Distinct c) (hsc : Scoped c) (ht : c.At i a rest)
    (hx : exec x a c.state = some o)
    (hrec : ∀ id, a = .recover (.insert id) → recoversFresh c id = true) :
    Distinct (c.advance i rest o) := by
  obtain ⟨hs, hspawn⟩ := step_of_exec hx
  have hin := hsc.ops a (pend_head ht)
  have hbal := fun id => pending_advance_nil (Op.launches id) ht hspawn
  -- Nothing is launched under the id of an inserted instance any more.
  have hnew : ∀ mi < o.state.nManaged, ¬ mi < c.state.nManaged →
      (c.advance i rest o).pending (Op.launches (o.state.managed mi).instanceID) = 0 ∧
        ∀ mi' < c.state.nManaged,
          (c.state.managed mi').instanceID ≠ (o.state.managed mi).instanceID := by
    intro mi hlt hge
    obtain ⟨id, hid, -, ha⟩ := (hs.managed_cases hlt).resolve_left hge
    rw [hid]
    have hb := hbal id
    have hz : o.more.countP (Op.launches id) = 0 := by
      obtain ⟨p, hp, rfl⟩ := Option.map_eq_some_iff.mp hx
      rcases ha with ⟨o', start, rfl⟩ | rfl <;> cases hp
      · cases o' <;> simp [Origin.succeeded, Op.launches, Op.launchedID]
      · rfl
    rcases ha with ⟨o', start, rfl⟩ | rfl
    · have hla : (Op.provision o' (.insert start id)).launches id = true := by
        simp [Op.launches, Op.launchedID]
      have honce := h.once id
      refine ⟨?_, h.unmanaged id (pending_head ht hla)⟩
      rw [hla, if_pos rfl] at hb
      omega
    · have hf := hrec id rfl
      simp only [recoversFresh, Bool.and_eq_true, all_eq_true, mem_range,
        bne_iff_ne, beq_iff_eq] at hf
      refine ⟨?_, hf.1.1⟩
      omega
  refine ⟨fun mi hmi mi' hmi' heq => ?_, fun id => ?_, fun id hpos mi hmi => ?_, fun id hpos => ?_⟩
  · by_cases hlt : mi < c.state.nManaged
    · by_cases hlt' : mi' < c.state.nManaged
      · exact h.injective mi hlt mi' hlt'
          ((hs.instanceID hlt).symm.trans (heq.trans (hs.instanceID hlt')))
      · exact absurd ((hs.instanceID hlt).symm.trans heq) ((hnew mi' hmi' hlt').2 mi hlt)
    · by_cases hlt' : mi' < c.state.nManaged
      · exact absurd ((hs.instanceID hlt').symm.trans heq.symm) ((hnew mi hmi hlt).2 mi' hlt')
      · obtain ⟨-, -, hn, -⟩ := (hs.managed_cases hmi).resolve_left hlt
        obtain ⟨-, -, hn', -⟩ := (hs.managed_cases hmi').resolve_left hlt'
        rw [hn, hn']
  · have hb := hbal id
    have honce := h.once id
    rcases hs.launches_more id with hmore | ⟨hcloud, hmore, hla, -, -⟩
    · omega
    · have hz : c.pending (Op.launches id) = 0 := pending_none fun b hb hl =>
        hcloud ((hsc.ops b hb).2 id (Op.mem_ids_of_launches hl))
      rw [hla] at hb
      simp only [Bool.false_eq_true, if_false] at hb
      omega
  · by_cases hlt : mi < c.state.nManaged
    · rw [show ((c.advance i rest o).state.managed mi).instanceID = _ from hs.instanceID hlt]
      have hb := hbal id
      rcases hs.launches_more id with hmore | ⟨hcloud, -, -, -, -⟩
      · exact h.unmanaged id (by omega) mi hlt
      · exact fun he => hcloud (he ▸ hsc.world.ids mi hlt)
    · intro he
      have := (hnew mi hmi hlt).1
      rw [show (o.state.managed mi).instanceID = id from he] at this
      omega
  · have hb := hbal id
    rcases hs.launches_more id with hmore | ⟨-, -, -, -, hempty⟩
    · have hpos' : 0 < c.pending (Op.launches id) := by omega
      exact hs.alive_unmanaged hin (h.unmanaged id hpos') (h.empty id hpos')
    · exact hempty

/-! ## Coverage -/

/-- The steps that do not lose slots: sandbox ids can be encoded, a failed destroy
takes its slot back, a reported count covers the sandboxes alive and the claims in
flight, and recovered instances are new. -/
def keepsSlots (c : Config World Op) : Op → Choice → Bool
  | .create (.encode mi id), _ => (encodeSandboxID (c.state.managed mi).instanceID id).isOk
  | .destroy (.rollback mi _), _ => (c.state.managed mi).claimSession.isOk
  | .loop (.healthStore mi (some remoteCount)), _ =>
    decide ((c.state.aliveCount mi + c.pending (Op.claims mi) : Int) ≤ remoteCount)
  | .recover (.insert id), _ => recoversFresh c id
  | _, _ => true

/-- The session count covers the sandboxes alive and the claims in flight, as far as
no release in flight accounts for them. -/
structure Covered (c : Config World Op) : Prop where
  scope : Scoped c
  distinct : Distinct c
  covered : ∀ mi < c.state.nManaged, c.weight (Op.slots mi) ≤ c.state.spare mi

theorem Op.mem_refs_of_claims (h : b.claims mi = true) : mi ∈ b.refs := by
  unfold Op.claims at h
  split at h
  all_goals first
    | exact mem_singleton.mpr (beq_iff_eq.mp h).symm
    | cases h

theorem Op.mem_refs_of_owes (h : b.owes mi = true) : mi ∈ b.refs := by
  unfold Op.owes at h
  split at h
  all_goals first
    | exact mem_singleton.mpr (beq_iff_eq.mp h).symm
    | cases h

theorem Op.slots_eq_zero (h : mi ∉ b.refs) : b.slots mi = 0 := by
  have hc : b.claims mi = false := Bool.of_not_eq_true fun hc => h (Op.mem_refs_of_claims hc)
  have ho : b.owes mi = false := Bool.of_not_eq_true fun ho => h (Op.mem_refs_of_owes ho)
  simp [Op.slots, hc, ho]

theorem Scoped.weight_eq_zero (h : Scoped c) (hge : ¬ mi < c.state.nManaged) :
    c.weight (Op.slots mi) = 0 := by
  refine slotSum_eq_zero fun b hb => Op.slots_eq_zero fun hr => hge ?_
  obtain ⟨th, hth, hb⟩ := mem_flatten.mp hb
  exact (h.ops b ⟨th, hth, hb⟩).1 mi hr

theorem Config.weight_slots (c : Config World Op) (mi : MiRef) :
    c.weight (Op.slots mi) = (c.pending (Op.claims mi) : Int) - c.pending (Op.owes mi) :=
  Interleaving.Config.weight_eq_sub c fun _ => rfl

theorem Covered.new (h : Covered c) (ht : c.At i a rest)
    (hx : exec x a c.state = some o) (hkeep : keepsSlots c a x = true)
    (hlt : mi < o.state.nManaged) (hge : ¬ mi < c.state.nManaged) :
    o.state.aliveCount mi = 0 ∧ (o.state.managed mi).sessionCount = 0 ∧
      slotSum mi o.more = 0 ∧ a.slots mi = 0 := by
  obtain ⟨hs, -⟩ := step_of_exec hx
  obtain ⟨id, hid, rfl, ha⟩ := (hs.managed_cases hlt).resolve_left hge
  have hempty : (c.state.hosts id).alive = [] := by
    rcases ha with ⟨o', start, rfl⟩ | rfl
    · refine h.distinct.empty id (pending_head ht ?_)
      simp [Op.launches, Op.launchedID]
    · simp only [keepsSlots, recoversFresh, Bool.and_eq_true, List.isEmpty_iff] at hkeep
      exact hkeep.2
  obtain ⟨p, hp, rfl⟩ := Option.map_eq_some_iff.mp hx
  have halive (hh : p.1.hosts = c.state.hosts) : p.1.aliveCount c.state.nManaged = 0 := by
    simp only [World.aliveCount, World.hostOf, hh]
    rw [show (p.1.managed c.state.nManaged).instanceID = id from hid, hempty]
    rfl
  rcases ha with ⟨o', start, rfl⟩ | rfl <;> cases hp
  · refine ⟨halive rfl, ?_, ?_, rfl⟩
    · cases o' <;> simp [World.insertInstance, Origin.newInstance]
    · cases o' <;> simp [slotSum, Origin.succeeded, Op.slots, Op.claims, Op.owes]
  · exact ⟨halive rfl, by simp [World.insertInstance], rfl, rfl⟩

theorem Covered.step (h : Covered c) (ht : c.At i a rest)
    (hx : exec x a c.state = some o) (hkeep : keepsSlots c a x = true) :
    Covered (c.advance i rest o) := by
  obtain ⟨hs, hspawn⟩ := step_of_exec hx
  have hin := h.scope.ops a (pend_head ht)
  refine ⟨h.scope.step ht hx, h.distinct.step h.scope ht hx ?_, fun mi hlt => ?_⟩
  · rintro id rfl
    exact hkeep
  have hw := weight_advance (Op.slots mi) ht hspawn
  change _ = _ + slotSum mi o.more at hw
  change _ ≤ o.state.spare mi
  by_cases hold : mi < c.state.nManaged
  · have hcov := h.covered mi hold
    cases hs.balance h.scope.world h.distinct.injective hin hold with
    | exact hb | unreleased _ hb => omega
    | rollbackFailed id err ha he | encodeFailed id err ha he =>
      subst ha
      simp [keepsSlots, he, Except.isOk, Except.toBool] at hkeep
    | reconciled n ha hmore hcount halive =>
      subst ha
      have hslots : (Op.loop (.healthStore mi (some n))).slots mi = 0 := rfl
      have hk : ((c.state.aliveCount mi : Int) + c.pending (Op.claims mi)) ≤ n := by
        simpa [keepsSlots] using hkeep
      rw [hmore, slotSum_nil, hslots, Config.weight_slots c] at hw
      simp only [World.spare, hcount, halive]
      omega
    | terminated t ha hmore hcount halive =>
      subst ha
      have hslots : (Op.terminate t).slots mi = 0 := rfl
      rw [hmore, hslots] at hw
      simp only [World.spare, hcount, halive] at hcov ⊢
      omega
  · obtain ⟨halive, hcount, hmore, ha⟩ := h.new ht hx hkeep hlt hold
    rw [h.scope.weight_eq_zero hold, hmore, ha] at hw
    rw [World.spare, halive, hcount]
    omega

theorem Covered.call (h : Covered c) (hfresh : a.fresh) : Covered (c.call a) := by
  have hslots : ∀ mi, a.slots mi = 0 := fun mi => Op.slots_eq_zero (by simp [hfresh.1])
  have hla : ∀ id, a.launches id = false := by
    intro id
    by_contra hl
    have hmem : id ∈ a.ids := Op.mem_ids_of_launches (by simpa using hl)
    rw [hfresh.2] at hmem
    cases hmem
  refine ⟨h.scope.call hfresh, ⟨h.distinct.injective, fun id => ?_, fun id hpos => ?_,
    fun id hpos => ?_⟩, fun mi hlt => ?_⟩
  · simpa [hla] using h.distinct.once id
  · exact h.distinct.unmanaged id (by simpa [hla] using hpos)
  · exact h.distinct.empty id (by simpa [hla] using hpos)
  · rw [weight_call, hslots, Int.add_zero]
    exact h.covered mi hlt

theorem Covered.initial (config : FleetConfig) (cloud : List String) (hosts : String → Host) :
    Covered (initialConfig config cloud hosts) := by
  have hla : ∀ id, (initialConfig config cloud hosts).pending (Op.launches id) = 0 := by
    intro id
    simp [initialConfig, Config.pending, Op.launches, Op.launchedID]
  refine ⟨Scoped.initial .., ⟨fun _ h => ?_, fun id => ?_, fun id h => ?_, fun id h => ?_⟩,
    fun _ h => ?_⟩
  all_goals try rw [hla] at *
  · cases h
  · exact Nat.zero_le 1
  all_goals cases h

theorem Reach.covered {γ : Type} {N : Monitor World Op Choice γ} {h₀ h : γ}
    {config : FleetConfig} {cloud : List String} {hosts : String → Host} {c : Config World Op}
    (hmeets : ∀ h c a x, N.meets h c a x = true → keepsSlots c a x = true)
    (hr : Reach (machine apiEntry) N h₀ (initialConfig config cloud hosts) h c) : Covered c := by
  refine hr.invariant (fun _ c => Covered c) (Covered.initial config cloud hosts) ?_ ?_
  · intro _ c a hc he
    exact hc.call (apiEntry_fresh (w := c.state) he)
  · intro h c i a rest x o hc ht hx hm
    exact hc.step ht hx (hmeets h c a x hm)

end FlexAgentRuntime.Fleet
