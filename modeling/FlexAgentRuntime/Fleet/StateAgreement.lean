import FlexAgentRuntime.Fleet.Scope

/-!
An instance's state agrees with its session count: ready instances have no session,
active ones have at least one.

Claim, release and reconciliation keep the agreement. Drain recovery does not look at
the count, and makes an instance ready whatever it holds.

* `Agrees.change`: what each change of an instance needs to keep the agreement;
* `state_agrees_with_count`: the agreement holds in every run in which drained
  instances recover without sessions;
* `recovery_breaks_agreement`: a run that recovers an instance with a session.
-/

namespace FlexAgentRuntime.Fleet

open Interleaving Config

/-- The agreement. A provisioning instance has no sessions either. -/
structure Agrees (v : ManagedInstance) : Prop where
  nonneg : 0 ≤ v.sessionCount
  ready : v.state = .ready → v.sessionCount = 0
  active : v.state = .active → 1 ≤ v.sessionCount
  provisioning : v.state = .provisioning → v.sessionCount = 0

/-- The states between the launch of an instance and its first promotion. -/
def InstanceState.unpromoted : InstanceState → Bool
  | .provisioning | .terminating => true
  | _ => false

/-- The instance that the control loop is about to promote. -/
def Op.promotes : Op → Option MiRef
  | .loop (.provisioningDecide mi _ _ _) | .loop (.provisioningCheck mi _ _)
  | .loop (.provisioningReady mi _ _) => some mi
  | _ => none

/-- The instance whose health check is under way. -/
def Op.checks : Op → Option MiRef
  | .loop (.healthCheck mi) | .loop (.healthStore mi _) => some mi
  | _ => none

/-- The condition under which `phaseHandleUnhealthy` lets an instance recover. -/
def ManagedInstance.recovering (v : ManagedInstance) (config : FleetConfig) : Bool :=
  decide (v.state = .draining) && decide (v.drainReason = some .health) &&
    decide (config.healthyThreshold ≤ v.consecutiveHealthSuccesses)

/-- Reported counts are not negative, and drain recovery finds no session. -/
def recoversEmpty (c : Config World Op) : Op → Choice → Bool
  | .loop (.healthStore _ (some remoteCount)), _ => decide (0 ≤ remoteCount)
  | .loop (.handleUnhealthy mi), _ =>
    let v := (c.state.managed mi).drainUnhealthy c.state.config c.state.now
    !v.recovering c.state.config || decide (v.sessionCount = 0)
  | _, _ => true

variable {config : FleetConfig} {cloud : List String} {hosts : String → Host} {c : Config World Op}
  {v v' : ManagedInstance} {now : Time} {w w' : World} {a b : Op} {more rest : List Op} {mi : MiRef}
  {i : Nat} {x : Choice} {o : Outcome World Op}

/-- In states other than these three only the sign of the count matters. -/
theorem Agrees.of_state (h : 0 ≤ v.sessionCount) (hr : v.state ≠ .ready) (ha : v.state ≠ .active)
    (hp : v.state ≠ .provisioning) : Agrees v :=
  ⟨h, fun h => absurd h hr, fun h => absurd h ha, fun h => absurd h hp⟩

theorem Agrees.claimSession (h : Agrees v) (hv : v.claimSession = .ok v') : Agrees v' := by
  obtain ⟨-, -, rfl⟩ := ManagedInstance.claimSession_eq_ok hv
  have := h.nonneg
  refine ⟨?_, nofun, fun _ => ?_, nofun⟩
  · change 0 ≤ v.sessionCount + 1
    omega
  · change 1 ≤ v.sessionCount + 1
    omega

theorem Agrees.releaseSession (h : Agrees v) (hv : v.releaseSession now = .ok v') : Agrees v' := by
  obtain ⟨hpos, hcount, -, -, hstate⟩ := ManagedInstance.releaseSession_eq_ok hv
  rcases hstate with ⟨hs, hne⟩ | ⟨hone, -, hready⟩
  · refine ⟨by omega, fun hr => ?_, fun ha => ?_, fun hp => ?_⟩
    · have := h.ready (hs ▸ hr)
      omega
    · -- The last session of an active instance makes it ready instead.
      rcases hne with hne | hne
      · omega
      · exact absurd (hs ▸ ha) hne
    · have := h.provisioning (hs ▸ hp)
      omega
  · refine ⟨by omega, fun _ => by omega, fun ha => ?_, fun hp => ?_⟩
    · rw [hready] at ha
      cases ha
    · rw [hready] at hp
      cases hp

theorem Agrees.healthChecked (h : Agrees v) (hres : ∀ n ∈ result, 0 ≤ n)
    (hp : v.state ≠ .provisioning) : Agrees (v.healthChecked now result) := by
  cases result with
  | none => exact ⟨h.nonneg, h.ready, h.active, h.provisioning⟩
  | some n =>
    have hn := hres n rfl
    dsimp only [ManagedInstance.healthChecked]
    split
    · exact ⟨h.nonneg, h.ready, h.active, h.provisioning⟩
    · split
      · rename_i hzero
        exact ⟨hn, fun _ => hzero.1, nofun, nofun⟩
      · rename_i hnz
        split
        · rename_i hpos
          exact ⟨hn, nofun, fun _ => hpos.1, nofun⟩
        · rename_i hnpos
          refine ⟨hn, fun hr => ?_, fun ha => ?_, fun hp' => absurd hp' hp⟩
          · by_contra hne
            change ¬ n = 0 at hne
            exact hnpos ⟨by omega, hr⟩
          · by_contra hlt
            change ¬ 1 ≤ n at hlt
            exact hnz ⟨by omega, ha⟩

theorem Agrees.drainUnhealthy (h : Agrees v) : Agrees (v.drainUnhealthy config now) := by
  rw [ManagedInstance.drainUnhealthy_eq]
  split
  · exact .of_state h.nonneg nofun nofun nofun
  · exact h

theorem Agrees.recoverDrained (h : Agrees v)
    (hempty : v.recovering config = true → v.sessionCount = 0) :
    Agrees (v.recoverDrained config now) := by
  rw [ManagedInstance.recoverDrained_eq]
  split
  · rename_i hc
    have hzero : v.sessionCount = 0 := by
      apply hempty
      simpa [ManagedInstance.recovering, and_assoc] using hc
    exact ⟨h.nonneg, fun _ => hzero, nofun, nofun⟩
  · exact h

/-- The pending promotions are of instances that have not been promoted. -/
def Op.Unpromoted (w : World) (b : Op) : Prop :=
  ∀ mi ∈ b.promotes, (w.managed mi).state.unpromoted = true

/-- Health checks are made of instances that have left provisioning. -/
def Op.Provisioned (w : World) (b : Op) : Prop :=
  ∀ mi ∈ b.checks, (w.managed mi).state ≠ .provisioning

theorem Change.provisioning (hc : Change w a mi v) (hlt : mi < w.nManaged)
    (h : (w.managed mi).state ≠ .provisioning) : v.state ≠ .provisioning := by
  cases hc with
  | same hv | retried _ hv => exact hv ▸ h
  | claimed hv =>
    obtain ⟨-, -, rfl⟩ := ManagedInstance.claimSession_eq_ok hv
    exact nofun
  | released hv =>
    obtain ⟨-, -, -, -, ⟨hs, -⟩ | ⟨-, -, hs⟩⟩ := ManagedInstance.releaseSession_eq_ok hv
    · rw [hs]
      exact h
    · rw [hs]
      exact nofun
  | healthChecked r _ hv =>
    subst hv
    obtain ⟨-, hs | ⟨-, hs⟩ | ⟨-, hs⟩⟩ :=
      ((w.managed mi).healthChecked_keeps w.now r).2
    · exact hs ▸ h
    all_goals
      rw [hs]
      exact nofun
  | handled _ hv =>
    subst hv
    rcases ManagedInstance.handled_state (w.managed mi) w.config w.now with hs | ⟨-, ⟨hs, -⟩ | hs⟩
    · exact hs.symm ▸ h
    all_goals
      rw [hs]
      exact nofun
  | scaledDown _ _ hv | terminated _ hv | ready _ _ _ hv => subst hv; exact nofun
  | provisioned _ _ _ hn | recovered _ hn => exact absurd hn (ne_of_lt hlt)

theorem Op.holds_of_checks (h : mi ∈ b.checks) : b.holds = true := by
  unfold Op.checks at h
  split at h
  all_goals first
    | rfl
    | cases h

theorem Op.holds_of_promotes (h : mi ∈ b.promotes) : b.holds = true := by
  unfold Op.promotes at h
  split at h
  all_goals first
    | rfl
    | cases h

theorem Op.mem_refs_of_checks (h : mi ∈ b.checks) : mi ∈ b.refs := by
  unfold Op.checks at h
  split at h
  all_goals first
    | cases h; exact List.mem_singleton.mpr rfl
    | cases h

theorem Op.mem_refs_of_promotes (h : mi ∈ b.promotes) : mi ∈ b.refs := by
  unfold Op.promotes at h
  split at h
  all_goals first
    | cases h; exact List.mem_cons_self ..
    | cases h

theorem Step.provisioned_more (hs : Step w a w' more) (ha : a.Provisioned w) :
    ∀ b ∈ more, b.Provisioned w' := by
  intro b hb mi hmi
  obtain ⟨rfl, op, rfl, hf⟩ := hs.holds_more hb (Op.holds_of_checks hmi)
  cases hf with
  | healthRead hst =>
    cases hmi
    intro hp
    rw [hp] at hst
    simp [InstanceState.routable] at hst
  | healthCheck => exact ha mi hmi
  | _ => cases hmi

theorem Change.unpromoted (hc : Change w a mi v) (ha : a.inLoop = false) (hlt : mi < w.nManaged)
    (h : (w.managed mi).state.unpromoted = true) : v.state.unpromoted = true := by
  have hr : (w.managed mi).state.routable = false := by
    revert h
    cases (w.managed mi).state <;> simp [InstanceState.routable, InstanceState.unpromoted]
  obtain ⟨hs | hs, -⟩ := hc.outside ha hlt hr
  · exact hs ▸ h
  · exact hs ▸ rfl

theorem Step.unpromoted_more (hs : Step w a w' more) (ha : a.Unpromoted w) :
    ∀ b ∈ more, b.Unpromoted w' := by
  intro b hb mi hmi
  obtain ⟨rfl, op, rfl, hf⟩ := hs.holds_more hb (Op.holds_of_promotes hmi)
  cases hf with
  | provisioningRead hst =>
    cases hmi
    rw [hst]
    rfl
  | provisioningPoll | provisioningHealthy => exact ha mi hmi
  | _ => cases hmi

/-! ## Along a run -/

structure AgreesAll (c : Config World Op) : Prop where
  instances : ∀ mi, Agrees (c.state.managed mi)
  promoted : ∀ b, c.Pend b → b.Unpromoted c.state
  checked : ∀ b, c.Pend b → b.Provisioned c.state

/-- What each change of an instance needs to keep the agreement. -/
theorem Agrees.change (hc : Change w a mi v) (h : Agrees (w.managed mi)) (hprom : a.Unpromoted w)
    (hchk : a.Provisioned w) (hres : ∀ n, a = .loop (.healthStore mi (some n)) → 0 ≤ n)
    (hempty : a = .loop (.handleUnhealthy mi) →
      ((w.managed mi).drainUnhealthy w.config w.now).recovering w.config = true →
      ((w.managed mi).drainUnhealthy w.config w.now).sessionCount = 0) : Agrees v := by
  cases hc with
  | same hv => exact hv ▸ h
  | claimed hv => exact h.claimSession hv
  | released hv => exact h.releaseSession hv
  | healthChecked r ha hv =>
    subst ha hv
    refine h.healthChecked (fun n hn => hres n ?_) (hchk mi rfl)
    cases hn
    rfl
  | handled ha hv => exact hv ▸ h.drainUnhealthy.recoverDrained (hempty ha)
  | scaledDown _ _ hv | terminated _ hv =>
    exact hv ▸ .of_state h.nonneg (fun h => by cases h) (fun h => by cases h) (fun h => by cases h)
  | retried _ hv => exact hv ▸ ⟨h.nonneg, h.ready, h.active, h.provisioning⟩
  | ready ha hvalid _ hv =>
    obtain ⟨todo, toRemove, rfl⟩ := ha
    subst hv
    -- Only a provisioning instance is promoted, and it has no session.
    have hst : (w.managed mi).state = .provisioning := by
      have hun := hprom mi rfl
      revert hvalid hun
      cases (w.managed mi).state <;> simp [InstanceState.unpromoted, validTransitions]
    exact ⟨h.nonneg, fun _ => h.provisioning hst, (fun h => by cases h), (fun h => by cases h)⟩
  | provisioned o start id _ _ hv =>
    subst hv
    cases o with
    | create k => exact ⟨Int.le_refl 0, fun _ => rfl, (fun h => by cases h), (fun h => by cases h)⟩
    | warm => exact ⟨Int.le_refl 0, (fun h => by cases h), (fun h => by cases h), fun _ => rfl⟩
  | recovered id _ _ hv => exact hv ▸ ⟨Int.le_refl 0, (fun h => by cases h), (fun h => by cases h), fun _ => rfl⟩

theorem AgreesAll.step (h : AgreesAll c) (hsc : Scoped c) (hsolo : Solo c)
    (ht : c.At i a rest) (hx : exec x a c.state = some o)
    (hm : recoversEmpty c a x = true) : AgreesAll (c.advance i rest o) := by
  obtain ⟨hs, hspawn⟩ := step_of_exec hx
  have hpend := pend_head ht
  have href : ∀ b, c.Pend b → ∀ mi ∈ b.refs, mi < c.state.nManaged := fun b hb => (hsc.ops b hb).1
  refine ⟨fun mi => ?_, fun b hb => ?_, fun b hb => ?_⟩
  · refine Agrees.change (hs.change mi) (h.instances mi) (h.promoted a hpend)
      (h.checked a hpend) ?_ ?_
    · rintro n rfl
      simpa [recoversEmpty] using hm
    · rintro rfl hrec
      simpa [recoversEmpty, hrec] using hm
  · intro mi hmi
    have hold := Op.holds_of_promotes hmi
    rcases hsolo.pend_cases ht hspawn hb hold with hb | ⟨hb, ha⟩
    · exact hs.unpromoted_more (h.promoted a hpend) b hb mi hmi
    · exact (hs.change mi).unpromoted ha (href b hb mi (Op.mem_refs_of_promotes hmi))
        (h.promoted b hb mi hmi)
  · intro mi hmi
    rcases hb.of_advance_nil ht hspawn with hb | hb
    · exact (hs.change mi).provisioning (href b hb mi (Op.mem_refs_of_checks hmi))
        (h.checked b hb mi hmi)
    · exact hs.provisioned_more (h.checked a hpend) b hb mi hmi

theorem Reach.agreesAll
    (hr : Reach (machine apiEntry) (.when recoversEmpty) ()
      (initialConfig config cloud hosts) () c) : AgreesAll c := by
  refine hr.invariant_of_reach (fun _ c => AgreesAll c) ?_ ?_ ?_
  · exact ⟨fun mi => ⟨Int.le_refl 0, nofun, nofun, fun _ => rfl⟩, forall_pend_singleton nofun,
      forall_pend_singleton nofun⟩
  · intro _ c a _ ih he
    have hnew : a.promotes = none ∧ a.checks = none := by
      change apiEntry c.state a = true at he
      unfold apiEntry at he
      split at he
      all_goals first
        | exact ⟨rfl, rfl⟩
        | cases he
    exact ⟨ih.instances, forall_pend_call ih.promoted fun mi hmi => (nomatch hnew.1 ▸ hmi),
      forall_pend_call ih.checked fun mi hmi => nomatch hnew.2 ▸ hmi⟩
  · intro _ c i a rest x o hr ih ht hx hm
    exact ih.step (Reach.scoped (fun _ _ he => apiEntry_fresh he) hr (Scoped.initial ..))
      (Reach.solo hr (Solo.initial ..)) ht hx hm

/-- In every run in which reported counts are not negative and a drained instance
recovers only without sessions, every managed instance that is ready has no session,
every active one has a session, and no count is negative. -/
theorem state_agrees_with_count
    (hr : Reach (machine apiEntry) (.when recoversEmpty) ()
      (initialConfig config cloud hosts) () c) :
    ∀ q ∈ c.state.instances, 0 ≤ (c.state.managed q.2).sessionCount ∧
      ((c.state.managed q.2).state = .ready → (c.state.managed q.2).sessionCount = 0) ∧
      ((c.state.managed q.2).state = .active → 1 ≤ (c.state.managed q.2).sessionCount) := by
  intro q _
  have h := (Reach.agreesAll hr).instances q.2
  exact ⟨h.nonneg, h.ready, h.active⟩

/-- The instance is drained, its sandbox is destroyed, and it recovers. -/
def recoverEmpty : List (Label Op Choice) :=
  firstSandbox ++ unhealthyIteration ++
    [.call (.destroy (.start "fleet:i-1:s-1")), .go 2 4, .go 0 6]

theorem state_agrees_with_count_recovered :
    ∃ c, Reach (machine apiEntry) (.when recoversEmpty) ()
        (initialConfig eagerConfig [] fun _ => {}) () c ∧
      c.state.instances = [("i-1", 0)] ∧ (c.state.managed 0).state = .ready ∧
      (c.state.managed 0).sessionCount = 0 := by
  refine Machine.follow_state_imp (defaultChoice [0]) recoverEmpty
    (fun c => c.state.instances = [("i-1", 0)] ∧ (c.state.managed 0).state = .ready) ?_
  rintro c hr ⟨hinst, hst⟩
  obtain ⟨-, hready, -⟩ := state_agrees_with_count hr ("i-1", 0) (by simp [hinst])
  exact ⟨hinst, hst, hready hst⟩

/-- The instance is drained and recovers with its sandbox. -/
def recoverActive : List (Label Op Choice) :=
  firstSandbox ++ unhealthyIteration ++ [.go 0 2, .run 0 (.healthy 1), .go 0 3]

/-- All reports are true, and a ready instance has a session. -/
theorem recovery_breaks_agreement :
    ∃ c, Reach (machine apiEntry) .free () (initialConfig eagerConfig [] fun _ => {}) () c ∧
      ("i-1", 0) ∈ c.state.instances ∧ (c.state.managed 0).state = .ready ∧
      (c.state.managed 0).sessionCount = 1 ∧ (c.state.hostOf 0).alive = ["s-1"] :=
  Machine.follow_state (defaultChoice [0]) recoverActive

end FlexAgentRuntime.Fleet
