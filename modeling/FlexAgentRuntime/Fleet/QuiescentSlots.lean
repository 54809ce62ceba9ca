import FlexAgentRuntime.Fleet.Accounting

/-!
Quiescent slot accounting: `CreateSandbox` and `DestroySandbox` calls interleaved with
the phases that drain instances, without reconciliation.

As long as every undo succeeds, the count of an instance is what is alive on it, with
the claims in flight and without the released slots in flight. That the undo of a
create can always be made follows: the sandboxes under destruction are different live
ones, so the count is at least the number of claims. The undo of a destroy is a claim
of its own and may be refused.

* `Exact.owes_le`: the released slots in flight are those of different live sandboxes;
* `quiescent_count_exact`: without calls in flight the count is what is alive;
* `refused_rollback_loses_slot`: a slot is lost to a create that came in between.
-/

namespace FlexAgentRuntime.Fleet

open Interleaving Config List Function

/-- `CreateSandbox`, `DestroySandbox`, time, and the health checks with the two phases
that act on counts. -/
def slotEntry (_ : World) : Op → Bool
  | .create .start | .destroy (.start _) | .tick _ | .loop .phaseHealthCheck
  | .loop .phaseHandleUnhealthy | .loop .phaseScaleDown => true
  | _ => false

/-- A fleet without instances and without control loop. -/
def quietConfig (config : FleetConfig) (cloud : List String) (hosts : String → Host) :
    Config World Op := ⟨World.initial config cloud hosts, []⟩

/-- The sandbox of `mi` that the action is part of destroying. -/
def Op.destroying (mi : MiRef) : Op → Option String
  | .destroy (.release r id) | .destroy (.rpc r id _) | .destroy (.rollback r id) =>
    if r = mi then some id else none
  | _ => none

def Op.destroys (mi : MiRef) (id : String) (b : Op) : Bool := b.destroying mi == some id

/-- The action is about to release a slot of `mi`. -/
def Op.releases (mi : MiRef) : Op → Bool
  | .destroy (.release r _) => r == mi
  | _ => false

/-- The sandbox is alive and no other call is destroying it. -/
def destroysLive (c : Config World Op) (sandboxID : String) : Bool :=
  match parseSandboxID sandboxID with
  | .error _ => false
  | .ok (instanceID, sessionID) =>
    match c.state.getInstance instanceID with
    | none => false
    | some mi => decide (sessionID ∈ (c.state.hostOf mi).alive) &&
      c.pending (Op.destroys mi sessionID) == 0

/-- Calls destroy live sandboxes, one call each, and reports do not correct counts. -/
def withoutReconciliation (c : Config World Op) : Op → Choice → Bool
  | .destroy (.start sandboxID), _ => destroysLive c sandboxID
  | .loop (.healthStore mi (some remoteCount)), _ =>
    remoteCount == (c.state.managed mi).sessionCount
  | _, _ => true

/-- Besides, sandbox ids can be encoded and a failed destroy takes its slot back. -/
def rollsBack (c : Config World Op) (a : Op) (x : Choice) : Bool :=
  withoutReconciliation c a x &&
    match a with
    | .create (.encode mi id) => (encodeSandboxID (c.state.managed mi).instanceID id).isOk
    | .destroy (.rollback mi _) => (c.state.managed mi).claimSession.isOk
    | _ => true

/-! ## The actions of these runs -/

def LoopOp.inSlots : LoopOp → Bool
  | .phaseHealthCheck | .healthRead _ | .healthCheck _ | .healthStore _ _
  | .phaseHandleUnhealthy | .handleUnhealthy _ | .phaseScaleDown | .scaleDown _ _ _ _
  | .scaleDownDrain _ _ _ => true
  | _ => false

def Op.inSlots : Op → Bool
  | .create _ | .provision _ _ | .destroy _ | .ret _ | .tick _ => true
  | .loop op => op.inSlots
  | _ => false

variable {config : FleetConfig} {cloud : List String} {hosts : String → Host} {c : Config World Op}
  {w w' : World} {a b : Op} {more rest : List Op} {mi : MiRef} {id : String} {i : Nat} {x : Choice}
  {o : Outcome World Op}

theorem LoopOp.Reads.inSlots {op : LoopOp} (hr : op.Reads w more) (h : op.inSlots = true) :
    ∀ b ∈ more, b.inSlots = true := by
  intro b hb
  cases hr with
  | phaseHealthCheck | phaseHandleUnhealthy =>
    obtain ⟨_, -, rfl⟩ := mem_map.mp hb
    rfl
  | _ => first
    | cases hb
      done
    | cases h
      done
    | cases mem_singleton.mp hb
      rfl

theorem Step.inSlots (hs : Step w a w' more) (ha : a.inSlots = true) :
    ∀ b ∈ more, b.inSlots = true := by
  have hf := hs.follows
  cases hs with
  | loop hs =>
    cases hs with
    | reads hs => exact hs.inSlots ha
    | scaledDown => exact forall_mem_singleton.mpr rfl
    | healthStored | handled => exact forall_mem_nil _
    | _ => cases ha
  | terminated | terminateFailed | recover | close => cases ha
  | create | provision | destroy =>
    intro b hb
    cases hf b hb <;> rfl
  | ret | tick => exact forall_mem_nil _

theorem Op.mem_refs_of_destroys (h : b.destroys mi id = true) : mi ∈ b.refs := by
  have h : b.destroying mi = some id := by simpa [Op.destroys] using h
  unfold Op.destroying at h
  split at h
  all_goals first
    | obtain ⟨rfl, -⟩ := Option.ite_none_right_eq_some.mp h
      exact mem_singleton.mpr rfl
    | cases h

theorem Step.destroys_more (hs : Step w a w' more) (mi : MiRef) (id : String) :
    more.countP (Op.destroys mi id) ≤ (if a.destroys mi id then 1 else 0) ∨
      ∃ sandboxID instanceID, a = .destroy (.start sandboxID) ∧
        parseSandboxID sandboxID = .ok (instanceID, id) ∧
        w.getInstance instanceID = some mi ∧ more.countP (Op.destroys mi id) ≤ 1 := by
  by_cases hd : ∃ op, a = .destroy op
  · obtain ⟨op, rfl⟩ := hd
    cases hs with
    | destroy hs =>
      cases hs with
      | @found sandboxID instanceID sessionID r hparse hget =>
        by_cases h : r = mi ∧ sessionID = id
        · obtain ⟨rfl, rfl⟩ := h
          exact .inr ⟨_, _, rfl, hparse, hget, by simp [Op.destroys, Op.destroying]⟩
        · refine .inl ?_
          have hno : (Op.destroy (.release r sessionID)).destroys mi id = false := by
            by_cases hr : r = mi
            · have hi : sessionID ≠ id := fun hi => h ⟨hr, hi⟩
              simp [Op.destroys, Op.destroying, hi]
            · simp [Op.destroys, Op.destroying, hr]
          simp [hno]
      | _ =>
        refine .inl ?_
        simp [Op.destroys, Op.destroying]
  · refine .inl (le_trans (le_of_eq ?_) (Nat.zero_le _))
    refine countP_eq_zero.mpr fun b hb => ?_
    cases hs.follows b hb with
    | destroy => exact absurd ⟨_, rfl⟩ hd
    | _ => simp [Op.destroys, Op.destroying]

theorem Step.unreleased (hs : Step w a w' more) (hb : .destroy (.rpc mi id false) ∈ more) :
    a = .destroy (.release mi id) ∧ (w.managed mi).sessionCount ≤ 0 := by
  cases hs.follows _ hb with
  | destroy =>
    cases hs with
    | destroy hs =>
      cases hs with
      | @notReleased r sessionID err he =>
        cases mem_singleton.mp hb
        exact ⟨rfl, ManagedInstance.count_of_not_released he⟩
      | _ => simp at hb

theorem Step.alive_mem (hs : Step w a w' more) (hw : w.In) (hinj : w.Injective) (hin : a.In w)
    (hlt : mi < w.nManaged) (hterm : ∀ t, a ≠ .terminate t) (h : id ∈ (w.hostOf mi).alive) :
    id ∈ (w'.hostOf mi).alive ∨
      ∃ released, a = .destroy (.rpc mi id released) ∧ more = [.ret .destroyed] := by
  rw [World.hostOf, hs.instanceID hlt]
  cases hs.hosts with
  | same hh => exact .inl (hh ▸ h)
  | created r id' ha _ _ hh =>
    rw [hh]
    refine .inl (update_keeps (id ∈ Host.alive ·) h fun he => ?_)
    rw [World.hostOf, ← he]
    exact mem_append_left _ h
  | destroyed r id' released ha _ _ hh =>
    subst ha
    by_cases he : (w.managed mi).instanceID = (w.managed r).instanceID
    · obtain rfl : mi = r := hinj mi hlt r (hin.1 r (mem_singleton.mpr rfl)) he
      by_cases hid : id = id'
      · subst hid
        cases hs with
        | destroy hs =>
          cases hs with
          | destroyed => exact .inr ⟨_, rfl, rfl⟩
          | rpcFailed | rpcFailedUnreleased => exact .inl h
      · rw [hh, update_self]
        exact .inl ((mem_erase_of_ne hid).mpr h)
    · rw [hh, update_of_ne he]
      exact .inl h
  | launched id' _ hid hh =>
    have hne : (w.managed mi).instanceID ≠ id' := fun he => hid (he ▸ hw.ids mi hlt)
    rw [hh, update_of_ne hne]
    exact .inl h
  | terminated t ha => exact absurd ha (hterm t)

/-! ## The invariant -/

structure Exact (c : Config World Op) : Prop where
  scope : Scoped c
  distinct : Distinct c
  ops : ∀ b, c.Pend b → b.inSlots = true
  released : ∀ mi id, ¬ c.Pend (.destroy (.rpc mi id false))
  exact : ∀ mi < c.state.nManaged, c.weight (Op.slots mi) = c.state.spare mi
  once : ∀ mi id, c.pending (Op.destroys mi id) ≤ 1
  alive : ∀ mi id, 0 < c.pending (Op.destroys mi id) → id ∈ (c.state.hostOf mi).alive

theorem Exact.covers (h : Exact c) : Covered c :=
  ⟨h.scope, h.distinct, fun mi hlt => Int.le_of_eq (h.exact mi hlt)⟩

/-- The sandboxes under destruction are different live ones. -/
theorem Exact.owes_le (h : Exact c) (mi : MiRef) :
    c.pending (Op.owes mi) + c.pending (Op.releases mi) ≤ c.state.aliveCount mi := by
  refine le_trans (c.pending_add_le (r := fun b => (b.destroying mi).isSome) fun b => ?_)
    (c.pending_isSome_le _ (h.once mi) (h.alive mi))
  cases b with
  | destroy op =>
    cases op with
    | start => simp [Op.owes, Op.releases, Op.destroying]
    | release r id | rollback r id =>
      by_cases hr : r = mi <;> simp [Op.owes, Op.releases, Op.destroying, hr]
    | rpc r id released =>
      cases released <;> by_cases hr : r = mi <;>
        simp [Op.owes, Op.releases, Op.destroying, hr]
  | _ => simp [Op.owes, Op.releases, Op.destroying]

/-- An action that has claimed a slot, or that is about to release one, finds a
positive count. -/
theorem Exact.count_pos (h : Exact c) (hlt : mi < c.state.nManaged) (hb : c.Pend b)
    (hslot : b.claims mi = true ∨ b.releases mi = true) :
    0 < (c.state.managed mi).sessionCount := by
  have hexact := h.exact mi hlt
  have howes := h.owes_le mi
  have hpos : 0 < c.pending (Op.claims mi) ∨ 0 < c.pending (Op.releases mi) :=
    hslot.imp (fun hc => pending_pos.mpr ⟨b, hb, hc⟩) fun hr => pending_pos.mpr ⟨b, hb, hr⟩
  rw [Config.weight_slots, World.spare] at hexact
  omega

theorem Exact.exact_step (h : Exact c) (ht : c.At i a rest)
    (hx : exec x a c.state = some o) (hm : rollsBack c a x = true)
    (hlt : mi < c.state.nManaged) :
    (c.advance i rest o).weight (Op.slots mi) = o.state.spare mi := by
  obtain ⟨hs, hspawn⟩ := step_of_exec hx
  have hpend := pend_head ht
  obtain ⟨hdomain, hcond⟩ := Bool.and_eq_true_iff.mp hm
  have hw := weight_advance (Op.slots mi) ht hspawn
  change _ = _ + slotSum mi o.more at hw
  have hexact := h.exact mi hlt
  cases hs.balance h.scope.world h.distinct.injective (h.scope.ops a hpend) hlt with
  | exact hb => omega
  | unreleased hun =>
    rcases hun with ⟨⟨err, rfl⟩, hcount⟩ | ⟨id, rfl⟩
    · have := h.count_pos hlt hpend (.inl (by simp [Op.claims]))
      omega
    · exact absurd hpend (h.released mi id)
  | rollbackFailed id err ha he | encodeFailed id err ha he =>
    subst ha
    simp [he, Except.isOk, Except.toBool] at hcond
  | reconciled n ha hmore hcount halive =>
    subst ha
    have hn : n = (c.state.managed mi).sessionCount := by
      simpa [withoutReconciliation] using hdomain
    have hslots : (Op.loop (.healthStore mi (some n))).slots mi = 0 := rfl
    rw [hmore, slotSum_nil, hslots] at hw
    simp only [World.spare, hcount, halive] at hexact ⊢
    omega
  | terminated t ha =>
    subst ha
    cases h.ops _ hpend

/-- A destroy that begins is of a live sandbox that no other call destroys. -/
theorem destroysLive_found (hm : rollsBack c (.destroy (.start sandboxID)) x = true)
    (hparse : parseSandboxID sandboxID = .ok (instanceID, id))
    (hget : c.state.getInstance instanceID = some mi) :
    id ∈ (c.state.hostOf mi).alive ∧ c.pending (Op.destroys mi id) = 0 := by
  have := (Bool.and_eq_true_iff.mp hm).1
  simpa [withoutReconciliation, destroysLive, hparse, hget] using this

section

variable (ht : c.At i a rest) (hx : exec x a c.state = some o)

include ht hx

theorem Exact.once_step (h : Exact c) (hm : rollsBack c a x = true) (mi : MiRef) (id : String) :
    (c.advance i rest o).pending (Op.destroys mi id) ≤ 1 := by
  obtain ⟨hs, hspawn⟩ := step_of_exec hx
  have hb := pending_advance_nil (Op.destroys mi id) ht hspawn
  have honce := h.once mi id
  rcases hs.destroys_more mi id with hmore | ⟨_, _, rfl, hparse, hget, hmore⟩
  · omega
  · have := (destroysLive_found hm hparse hget).2
    omega

theorem Exact.alive_step (h : Exact c)
    (hm : rollsBack c a x = true) (hpos : 0 < (c.advance i rest o).pending (Op.destroys mi id)) :
    id ∈ (o.state.hostOf mi).alive := by
  obtain ⟨hs, hspawn⟩ := step_of_exec hx
  have hpend := pend_head ht
  have hb := pending_advance_nil (Op.destroys mi id) ht hspawn
  have honce := h.once mi id
  have hbefore : mi < c.state.nManaged ∧ id ∈ (c.state.hostOf mi).alive := by
    rcases hs.destroys_more mi id with hmore | ⟨_, _, rfl, hparse, hget, -⟩
    · have hpos' : 0 < c.pending (Op.destroys mi id) := by omega
      obtain ⟨b, hb, hd⟩ := pending_pos.mp hpos'
      exact ⟨(h.scope.ops b hb).1 mi (Op.mem_refs_of_destroys hd), h.alive mi id hpos'⟩
    · exact ⟨(h.scope.world.instances _ (getInstance_some hget)).1,
        (destroysLive_found hm hparse hget).1⟩
  have hterm : ∀ t, a ≠ .terminate t := by
    rintro t rfl
    cases h.ops _ hpend
  rcases hs.alive_mem h.scope.world h.distinct.injective (h.scope.ops a hpend) hbefore.1 hterm
    hbefore.2 with hal | ⟨released, rfl, hmore⟩
  · exact hal
  · -- The one call that was destroying the sandbox has done so.
    have hd : (Op.destroy (.rpc mi id released)).destroys mi id = true := by
      simp [Op.destroys, Op.destroying]
    have hz : [Op.ret .destroyed].countP (Op.destroys mi id) = 0 := rfl
    rw [hd, if_pos rfl, hmore] at hb
    omega

theorem Exact.exact_new (h : Exact c) (hlt : mi < o.state.nManaged)
    (hge : ¬ mi < c.state.nManaged) :
    (c.advance i rest o).weight (Op.slots mi) = o.state.spare mi := by
  obtain ⟨hs, hspawn⟩ := step_of_exec hx
  have hkeep : keepsSlots c a x = true := by
    obtain ⟨_, -, -, ⟨_, _, rfl⟩ | rfl⟩ := (hs.managed_cases hlt).resolve_left hge
    · rfl
    · cases h.ops _ (pend_head ht)
  obtain ⟨halive, hcount, hmore, ha⟩ := h.covers.new ht hx hkeep hlt hge
  have hw := weight_advance (Op.slots mi) ht hspawn
  change _ = _ + slotSum mi o.more at hw
  rw [h.scope.weight_eq_zero hge, hmore, ha] at hw
  rw [World.spare, halive, hcount]
  omega

theorem Exact.step (h : Exact c) (hm : rollsBack c a x = true) : Exact (c.advance i rest o) := by
  obtain ⟨hs, hspawn⟩ := step_of_exec hx
  have hpend := pend_head ht
  refine ⟨h.scope.step ht hx, h.distinct.step h.scope ht hx ?_, fun b hb => ?_,
    fun mi id hb => ?_, fun mi hlt => ?_, h.once_step ht hx hm, fun mi id => h.alive_step ht hx hm⟩
  · rintro id rfl
    cases h.ops _ hpend
  · rcases hb.of_advance_nil ht hspawn with hb | hb
    · exact h.ops b hb
    · exact hs.inSlots (h.ops a hpend) b hb
  · rcases hb.of_advance_nil ht hspawn with hb | hb
    · exact h.released mi id hb
    · -- The release before it found a session to release.
      obtain ⟨rfl, hcount⟩ := hs.unreleased hb
      have hlt := (h.scope.ops _ hpend).1 mi (mem_singleton.mpr rfl)
      have hpos := h.count_pos hlt hpend (.inr (by simp [Op.releases]))
      omega
  · by_cases hold : mi < c.state.nManaged
    · exact h.exact_step ht hx hm hold
    · exact h.exact_new ht hx hlt hold

end

theorem Exact.call (h : Exact c) (ha : slotEntry c.state a = true) : Exact (c.call a) := by
  have hnew : a.fresh ∧ a.inSlots = true ∧ ∀ mi id, a ≠ .destroy (.rpc mi id false) := by
    unfold slotEntry at ha
    split at ha
    all_goals first
      | exact ⟨⟨rfl, rfl⟩, rfl, nofun⟩
      | cases ha
  have hdestroys : ∀ mi id, a.destroys mi id = false := fun mi id => Bool.of_not_eq_true fun hd => by
    have := Op.mem_refs_of_destroys hd
    rw [hnew.1.1] at this
    cases this
  obtain ⟨hscope, hdistinct, -⟩ := h.covers.call hnew.1
  refine ⟨hscope, hdistinct, forall_pend_call h.ops hnew.2.1, fun mi id hb => ?_,
    fun mi hlt => ?_, fun mi id => ?_, fun mi id hpos => ?_⟩
  · rcases pend_call.mp hb with hb | hb
    · exact h.released mi id hb
    · exact hnew.2.2 mi id hb.symm
  · rw [weight_call, Op.slots_eq_zero (by simp [hnew.1.1]), Int.add_zero]
    exact h.exact mi hlt
  · simpa [hdestroys] using h.once mi id
  · exact h.alive mi id (by simpa [hdestroys] using hpos)

/-- The action is part of a `CreateSandbox` or `DestroySandbox` call. -/
def Op.inCall : Op → Bool
  | .create _ | .provision _ _ | .destroy _ => true
  | _ => false

theorem Reach.exact
    (hr : Reach (machine slotEntry) (.when rollsBack) () (quietConfig config cloud hosts) () c) :
    Exact c := by
  refine hr.invariant (fun _ c => Exact c) ?_ (fun _ _ _ h => h.call) fun _ _ _ _ _ _ _ h => h.step
  exact ⟨⟨⟨nofun, nofun, nofun⟩, fun b hb => absurd hb not_pend_nil⟩,
    ⟨nofun, fun _ => Nat.zero_le 1, nofun, nofun⟩, fun b hb => absurd hb not_pend_nil,
    fun _ _ => not_pend_nil, nofun, fun _ _ => Nat.zero_le 1, nofun⟩

/-- In every run of `CreateSandbox` and `DestroySandbox` calls with the draining phases
in which sandbox ids can be encoded and failed destroys take their slot back, whenever
no call is in flight the session count of every instance is the number of sandboxes
alive on it. -/
theorem quiescent_count_exact
    (hr : Reach (machine slotEntry) (.when rollsBack) () (quietConfig config cloud hosts) () c)
    (hquiet : ∀ b, c.Pend b → b.inCall = false) :
    ∀ mi < c.state.nManaged,
      (c.state.managed mi).sessionCount = (c.state.hostOf mi).alive.length := by
  intro mi hlt
  have hidle {p : Op → Bool} (hp : ∀ b, b.inCall = false → p b = false) : c.pending p = 0 :=
    pending_eq_zero.mpr fun b hb => hp b (hquiet b hb)
  have hexact := (Reach.exact hr).exact mi hlt
  rw [Config.weight_slots, hidle (by rintro ⟨⟩ <;> simp [Op.inCall, Op.claims]),
    hidle (by rintro ⟨⟩ <;> simp [Op.inCall, Op.owes]), World.spare, World.aliveCount] at hexact
  omega

/-- The first sandbox cannot be destroyed, and the slot is taken back. -/
def failedDestroy : List (Label Op Choice) :=
  [.call (.tick 1), .go 0 1] ++ firstSandbox ++
    [.call (.destroy (.start "fleet:i-1:s-1")), .go 2 2, .run 2 .error, .go 2 2]

theorem quiescent_count_exact_failed_destroy :
    ∃ c, Reach (machine slotEntry) (.when rollsBack) ()
        (quietConfig defaultFleetConfig [] fun _ => {}) () c ∧
      (c.state.hostOf 0).alive = ["s-1"] ∧
      (c.state.managed 0).sessionCount = (c.state.hostOf 0).alive.length := by
  refine Machine.follow_state_imp (defaultChoice [0]) failedDestroy
    (fun c => (∀ b, ¬ c.Pend b) ∧ 0 < c.state.nManaged ∧
      (c.state.hostOf 0).alive = ["s-1"]) ?_
  rintro c hr ⟨hidle, hlt, halive⟩
  exact ⟨halive, quiescent_count_exact hr
    (fun b hb => absurd hb (hidle b)) 0 hlt⟩

/-- The last slot is taken while the destroy of the first sandbox fails. -/
def createDuringFailedDestroy : List (Label Op Choice) :=
  [.call (.tick 1), .go 0 1] ++ firstSandbox ++
    [.call (.destroy (.start "fleet:i-1:s-1")), .go 2 2, .call (.create .start), .go 3 5,
      .run 3 (.session "s-2"), .go 3 2, .run 2 .error, .go 2 2]

theorem refused_rollback_loses_slot :
    ∃ c, Reach (machine slotEntry) (.when withoutReconciliation) ()
        (quietConfig { defaultFleetConfig with maxSessionsPerInstance := 1 } [] fun _ => {}) () c ∧
      c.threads = [[], [], [], []] ∧ 0 < c.state.nManaged ∧
      (c.state.hostOf 0).alive = ["s-1", "s-2"] ∧ (c.state.managed 0).sessionCount = 1 :=
  Machine.follow_state (defaultChoice [0]) createDuringFailedDestroy

end FlexAgentRuntime.Fleet
