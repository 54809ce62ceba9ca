import FlexAgentRuntime.Fleet.Scope

/-!
The fleet ceiling: instances against `MaxInstances`, launches against
`MaxConcurrentProvisions`.

`provisionInstance` and `provisionWarmInstance` test the size of the map, reserve a
launch, launch, and insert. The size that the test sees does not count the calls that
have passed it. The reservation is counted by `pendingLaunches`, from before
`LaunchInstance` is called until the function returns.

* `Step.occupies`, `Step.reserves`: the balances of a step;
* `fleet_within_ceiling`: the bounds, in runs in which the test counts the calls that
  have passed it;
* `concurrent_provisions_pass_ceiling`: two calls pass the test for one place.
-/

namespace FlexAgentRuntime.Fleet

open Interleaving Config List

/-- The ceiling test has passed and the instance is not yet in the map. -/
def Op.provisioning : Op → Bool
  | .provision _ .reserve | .provision _ (.launch _) | .provision _ (.client _ _)
  | .provision _ (.insert _ _) => true
  | _ => false

/-- A call of `LaunchInstance` is in flight. -/
def Op.launching : Op → Bool
  | .provision _ (.launch _) => true
  | _ => false

/-- `LaunchInstance` has returned, and the deferred decrement is still to come. -/
def Op.settling : Op → Bool
  | .provision _ (.client _ _) | .provision _ (.insert _ _) | .provision _ .unreserve => true
  | _ => false

/-- The exported methods without `RecoverInstances`, and time. -/
def provisionEntry (_ : World) : Op → Bool
  | .create .start | .destroy (.start _) | .close .start | .tick _ => true
  | _ => false

/-- The ceiling test passes only if there is room for the instances and for the calls
that have passed it before. -/
def countsLaunches (c : Config World Op) : Op → Choice → Bool
  | .provision _ .checkTotal, _ =>
    decide (c.state.config.maxInstances ≤ c.state.instances.length) ||
      decide (c.state.instances.length + c.pending Op.provisioning < c.state.config.maxInstances)
  | _, _ => true

variable {w₀ w w' : World} {c : Config World Op} {a b : Op} {more rest : List Op}
  {config : FleetConfig} {i : Nat} {x : Choice} {o : Outcome World Op}

theorem Step.not_provisioning (hs : Step w a w' more) (ha : ∀ o op, a ≠ .provision o op) :
    ∀ b ∈ more, b.provisioning = false ∧ b.launching = false ∧ b.settling = false := by
  intro b hb
  cases hs.follows b hb with
  | provision => exact absurd rfl (ha _ _)
  | _ => exact ⟨rfl, rfl, rfl⟩

theorem Step.occupies (hs : Step w a w' more) (hrec : ∀ op, a ≠ .recover op) :
    w'.instances.length + more.countP Op.provisioning ≤
        w.instances.length + (if a.provisioning then 1 else 0) ∨
      (∃ o, a = .provision o .checkTotal) ∧ w.instances.length < w.config.maxInstances ∧
        w'.instances = w.instances ∧ more.countP Op.provisioning = 1 := by
  by_cases hp : ∃ o op, a = .provision o op
  · obtain ⟨o, op, rfl⟩ := hp
    cases hs with
    | provision hs =>
      cases hs with
      | below hlt => exact .inr ⟨⟨o, rfl⟩, hlt, rfl, rfl⟩
      | @inserted start id =>
        refine .inl ?_
        have hlen : (w.insertInstance (o.newInstance w start id)).instances.length ≤
            w.instances.length + 1 := by
          simp only [World.insertInstance, length_append, length_singleton]
          exact Nat.add_le_add_right (length_filter_le _ _) 1
        cases o <;> simpa [Origin.succeeded, Op.provisioning] using hlen
      | ceiling | busy | launchFailed | clientFailed =>
        exact .inl (by cases o <;> simp [Origin.failed, Op.provisioning])
      | launched => exact .inl (by simp [Op.provisioning, World.setHost])
      | _ => exact .inl (by simp [Op.provisioning])
  · refine .inl ?_
    simp only [not_exists] at hp
    have hzero : more.countP Op.provisioning = 0 :=
      countP_eq_zero.mpr fun b hb => by simp [(hs.not_provisioning hp b hb).1]
    have hlen : w'.instances.length ≤ w.instances.length := by
      cases hs.instances with
      | same _ hi => rw [hi]
      | inserted id ha =>
        rcases ha with ⟨o, start, rfl⟩ | rfl
        · exact absurd rfl (hp _ _)
        · exact absurd rfl (hrec _)
      | removed ids _ _ hi =>
        rw [hi]
        exact length_filter_le _ _
      | swapped _ _ hi =>
        rw [hi]
        exact Nat.zero_le _
    omega

/-- The reservations are those of the calls between the reservation and the deferred
decrement. -/
theorem Step.reserves (hs : Step w a w' more) (hpos : a.settling = true → 0 < w.pendingLaunches) :
    w'.pendingLaunches + (if a.launching then 1 else 0) + (if a.settling then 1 else 0) =
      w.pendingLaunches + more.countP Op.launching + more.countP Op.settling := by
  by_cases hp : ∃ o op, a = .provision o op
  · obtain ⟨o, op, rfl⟩ := hp
    cases hs with
    | provision hs =>
      cases hs with
      | ceiling | busy => cases o <;> simp [Origin.failed, Op.launching, Op.settling]
      | launchFailed | clientFailed =>
        cases o <;> simp [Origin.failed, Op.launching, Op.settling, countP_cons]
      | inserted =>
        cases o <;> simp [Origin.succeeded, Op.launching, Op.settling, World.insertInstance,
          countP_cons]
      | unreserved =>
        have := hpos rfl
        simp only [Op.launching, Op.settling, countP_nil, if_true]
        simp only [Bool.false_eq_true, if_false]
        omega
      | _ => simp [Op.launching, Op.settling, World.setHost]
  · simp only [not_exists] at hp
    have hmore := hs.not_provisioning hp
    have hlaunch : more.countP Op.launching = 0 :=
      countP_eq_zero.mpr fun b hb => by simp [(hmore b hb).2.1]
    have hsettle : more.countP Op.settling = 0 :=
      countP_eq_zero.mpr fun b hb => by simp [(hmore b hb).2.2]
    have hsame : w'.pendingLaunches = w.pendingLaunches := by
      cases hs with
      | create hs | destroy hs | loop hs | recover hs | close hs => cases hs <;> rfl
      | provision => exact absurd rfl (hp _ _)
      | _ => rfl
    have ha : a.launching = false ∧ a.settling = false := by
      cases a with
      | provision o op => exact absurd rfl (hp _ _)
      | _ => exact ⟨rfl, rfl⟩
    rw [hlaunch, hsettle, hsame, ha.1, ha.2]
    rfl

/-- A launch is reserved only below the limit. -/
theorem Step.reserves_le (hs : Step w a w' more)
    (h : w.pendingLaunches ≤ w.config.maxConcurrentProvisions) :
    w'.pendingLaunches ≤ w'.config.maxConcurrentProvisions := by
  cases hs with
  | create hs | destroy hs | loop hs | recover hs | close hs => cases hs <;> exact h
  | provision hs =>
    cases hs with
    | reserved hlt => exact hlt
    | unreserved => exact le_trans (Nat.sub_le _ _) h
    | _ => exact h
  | _ => exact h

structure Within (config : FleetConfig) (c : Config World Op) : Prop where
  config_eq : c.state.config = config
  recovers : ∀ op, ¬ c.Pend (.recover op)
  room : c.state.instances.length + c.pending Op.provisioning ≤ config.maxInstances
  launches : c.state.pendingLaunches = c.pending Op.launching + c.pending Op.settling
  limit : c.state.pendingLaunches ≤ config.maxConcurrentProvisions

theorem Within.call (h : Within config c) (ha : provisionEntry c.state a = true) :
    Within config (c.call a) := by
  have hnew : a.provisioning = false ∧ a.launching = false ∧ a.settling = false ∧
      ∀ op, a ≠ .recover op := by
    unfold provisionEntry at ha
    split at ha
    all_goals first
      | exact ⟨rfl, rfl, rfl, nofun⟩
      | cases ha
  refine ⟨h.config_eq, fun op hb => ?_, ?_, ?_, h.limit⟩
  · rcases pend_call.mp hb with hb | rfl
    · exact h.recovers op hb
    · exact hnew.2.2.2 op rfl
  · rw [pending_call, hnew.1]
    exact h.room
  · rw [pending_call, pending_call, hnew.2.1, hnew.2.2.1]
    exact h.launches

theorem Within.step (h : Within config c) (ht : c.At i a rest)
    (hx : exec x a c.state = some o) (hm : countsLaunches c a x = true) :
    Within config (c.advance i rest o) := by
  obtain ⟨hs, hspawn⟩ := step_of_exec hx
  have hpend := pend_head ht
  have hbal := fun p : Op → Bool => pending_advance_nil p ht hspawn
  have hrec : ∀ op, a ≠ .recover op := by
    rintro op rfl
    exact h.recovers op hpend
  refine ⟨hs.config_eq.trans h.config_eq, fun op hb => ?_, ?_, ?_, ?_⟩
  · rcases hb.of_advance_nil ht hspawn with hb | hb
    · exact h.recovers op hb
    · cases hs.follows _ hb with
      | recover => exact hrec _ rfl
  · have hroom := h.room
    have hb := hbal Op.provisioning
    change o.state.instances.length + _ ≤ _
    rcases hs.occupies hrec with hle | ⟨⟨o', rfl⟩, hlt, hsame, hone⟩
    · omega
    · -- The test counts what has passed it before.
      have hc : c.state.instances.length + c.pending Op.provisioning < config.maxInstances := by
        simp only [countsLaunches, Bool.or_eq_true, decide_eq_true_eq, h.config_eq] at hm
        rw [h.config_eq] at hlt
        omega
      rw [hone] at hb
      simp only [Op.provisioning, Bool.false_eq_true, if_false] at hb
      rw [hsame]
      omega
  · have hlaunch := hbal Op.launching
    have hsettle := hbal Op.settling
    have hold := h.launches
    have := hs.reserves fun ha => by
      have hpos : 0 < c.pending Op.settling := pending_pos.mpr ⟨a, hpend, ha⟩
      omega
    change o.state.pendingLaunches = _
    omega
  · have := hs.reserves_le (by rw [h.config_eq]; exact h.limit)
    rwa [hs.config_eq, h.config_eq] at this

theorem Reach.within (hsize : w₀.instances.length ≤ w₀.config.maxInstances)
    (hidle : w₀.pendingLaunches = 0)
    (hr : Reach (machine provisionEntry) (.when countsLaunches) () ⟨w₀, [[.loop .wait]]⟩ () c) :
    Within w₀.config c := by
  refine hr.invariant (fun _ c => Within w₀.config c) ⟨rfl, ?_, hsize, hidle, ?_⟩
    (fun _ _ _ h => h.call) fun _ _ _ _ _ _ _ h => h.step
  · rintro op ⟨th, hth, hb⟩
    cases mem_singleton.mp hth
    cases mem_singleton.mp hb
  · rw [show (⟨w₀, [[.loop .wait]]⟩ : Config World Op).state = w₀ from rfl, hidle]
    exact Nat.zero_le _

/-- From any fleet within the ceiling that is launching nothing, in every run in which
the ceiling test counts the calls that have passed it, the fleet stays within
`MaxInstances`, the launches in flight stay within `MaxConcurrentProvisions`, and
`pendingLaunches` counts them together with the calls that have launched and not yet
returned. -/
theorem fleet_within_ceiling (hsize : w₀.instances.length ≤ w₀.config.maxInstances)
    (hidle : w₀.pendingLaunches = 0)
    (hr : Reach (machine provisionEntry) (.when countsLaunches) () ⟨w₀, [[.loop .wait]]⟩ () c) :
    c.state.instances.length ≤ w₀.config.maxInstances ∧
      c.pending Op.launching ≤ w₀.config.maxConcurrentProvisions ∧
      c.state.pendingLaunches = c.pending Op.launching + c.pending Op.settling ∧
      (c.pending Op.settling = 0 → c.pending Op.launching = c.state.pendingLaunches) := by
  obtain ⟨-, -, hroom, hlaunches, hlimit⟩ := Reach.within hsize hidle hr
  exact ⟨by omega, by omega, hlaunches, by omega⟩

/-- One instance. -/
def oneInstance : World :=
  World.initial { defaultFleetConfig with maxInstances := 1 } [] fun _ => {}

theorem fleet_within_ceiling_one :
    ∃ c, Reach (machine provisionEntry) (.when countsLaunches) () ⟨oneInstance, [[.loop .wait]]⟩
        () c ∧
      c.state.instances = [("i-1", 0)] ∧ c.state.instances.length ≤ 1 ∧
      c.pending Op.launching = c.state.pendingLaunches := by
  refine Machine.follow_state_imp (defaultChoice [0]) firstSandbox
    (fun c => c.state.instances = [("i-1", 0)] ∧ c.pending Op.settling = 0) ?_
  rintro c hr ⟨hinst, hsettled⟩
  obtain ⟨hlen, -, -, heq⟩ := fleet_within_ceiling (by decide) (by decide) hr
  exact ⟨hinst, hlen, heq hsettled⟩

/-- Two `CreateSandbox` calls test the ceiling before either of them inserts. -/
def twoProvisions : List (Label Op Choice) :=
  [.call (.create .start), .go 1 1, .run 1 (.order []), .go 1 2,
    .call (.create .start), .go 2 1, .run 2 (.order []), .go 2 2,
    .go 1 4, .go 2 1, .run 2 (.launched "i-2"), .go 2 2]

theorem concurrent_provisions_pass_ceiling :
    ∃ c, Reach (machine provisionEntry) .free () ⟨oneInstance, [[.loop .wait]]⟩ () c ∧
      c.state.instances = [("i-1", 0), ("i-2", 1)] ∧
      ¬ c.state.instances.length ≤ oneInstance.config.maxInstances ∧
      c.pending Op.launching = 0 ∧ c.state.pendingLaunches = 2 :=
  Machine.follow_state (defaultChoice [0]) twoProvisions

end FlexAgentRuntime.Fleet
