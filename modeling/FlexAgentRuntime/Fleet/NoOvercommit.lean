import FlexAgentRuntime.Fleet.Accounting

/-!
No over-commit: the sandboxes alive on an instance against its maximum.

Admission looks at the session count. The count is lowered before a destroy has taken
effect, and overwritten by reports taken at another time, so that it may admit a
sandbox for which there is no room.

* `Step.committed_le`: only a claim commits an instance to another sandbox;
* `alive_within_maximum`: the bound, in runs in which the count covers what is there
  when a slot is claimed;
* `create_overtakes_destroy`: two live sandboxes on an instance for one.
-/

namespace FlexAgentRuntime.Fleet

open Interleaving Config

/-- Besides keeping slots, a slot is claimed only when no `DestroySandbox` call has
released one of the instance and is still in flight. -/
def claimsSettled (c : Config World Op) (a : Op) (x : Choice) : Bool :=
  keepsSlots c a x &&
    match a with
    | .create (.claim _ mi) => c.pending (Op.owes mi) == 0
    | _ => true

variable {config : FleetConfig} {cloud : List String} {hosts : String → Host} {c : Config World Op}
  {w w' : World} {a b : Op} {more rest : List Op} {mi : MiRef} {i : Nat} {x : Choice}
  {o : Outcome World Op}

theorem Step.claims_more (hs : Step w a w' more) (ha : ∀ op, a ≠ .create op) :
    more.countP (Op.claims mi) = 0 := by
  refine List.countP_eq_zero.mpr fun b hb => ?_
  cases hs.follows b hb with
  | create => exact absurd rfl (ha _)
  | _ => simp [Op.claims]

/-- The sandboxes alive on an instance and the claims in flight grow by a claim only. -/
theorem Step.committed_le (hs : Step w a w' more) (hw : w.In) (hinj : w.Injective)
    (hin : a.In w) (hlt : mi < w.nManaged)
    (henc : ∀ id err, a = .create (.encode mi id) →
      encodeSandboxID (w.managed mi).instanceID id ≠ .error err) :
    w'.aliveCount mi + more.countP (Op.claims mi) ≤
        w.aliveCount mi + (if a.claims mi then 1 else 0) ∨
      (∃ attempt v, a = .create (.claim attempt mi) ∧ (w.managed mi).claimSession = .ok v) ∧
        w'.aliveCount mi = w.aliveCount mi ∧ more.countP (Op.claims mi) = 1 ∧
        a.claims mi = false := by
  by_cases hcreate : ∃ op, a = .create op
  · obtain ⟨op, rfl⟩ := hcreate
    cases hs with
    | create hs =>
      cases hs with
      | @claimed k r v hv =>
        have hid : v.instanceID = (w.managed r).instanceID := by
          obtain ⟨-, -, rfl⟩ := ManagedInstance.claimSession_eq_ok hv
          rfl
        rw [World.aliveCount_setManaged hid]
        by_cases h : r = mi
        · subst h
          exact .inr ⟨⟨k, v, rfl, hv⟩, rfl, by simp [Op.claims], rfl⟩
        · refine .inl ?_
          simp [Op.claims, h]
      | @created r id _ _ =>
        rw [hinj.aliveCount_setHost hlt (hin.1 r (List.mem_singleton.mpr rfl))]
        refine .inl ?_
        by_cases h : mi = r
        · subst h
          simp [Op.claims, World.aliveCount]
        · simp [Op.claims, h]
      | rpcFailed => exact .inl (by simp [Op.claims, List.countP_cons])
      | @encodeFailed r id err he =>
        refine .inl ?_
        by_cases h : r = mi
        · subst h
          exact absurd he (henc id err rfl)
        · simp [Op.claims, h]
      | rolledBack hv =>
        obtain ⟨-, -, hid, -, -⟩ := ManagedInstance.releaseSession_eq_ok hv
        rw [World.aliveCount_setManaged hid]
        exact .inl (by simp [Op.claims])
      | _ => exact .inl (by simp [Op.claims, World.aliveCount, World.hostOf])
  · have hz : more.countP (Op.claims mi) = 0 := hs.claims_more fun op h => hcreate ⟨op, h⟩
    refine .inl ?_
    have hle : w'.aliveCount mi ≤ w.aliveCount mi := by
      rw [World.aliveCount, World.hostOf, hs.instanceID hlt]
      have hkeep {id : String} {v : Host} := update_keeps (v := v) (a := id)
        (fun h : Host => h.alive.length ≤ w.aliveCount mi) (g := w.hosts) le_rfl
      cases hs.hosts with
      | same hh => rw [hh]; exact le_rfl
      | created r id ha => exact absurd ⟨_, ha⟩ hcreate
      | destroyed r id rel _ _ _ hh =>
        rw [hh]
        refine hkeep fun h => ?_
        rw [World.aliveCount, World.hostOf, World.hostOf, h]
        exact List.length_erase_le
      | launched id _ hc hh =>
        rw [hh]
        exact hkeep fun h => absurd (h ▸ hw.ids mi hlt) hc
      | terminated t _ hh =>
        rw [hh]
        exact hkeep fun _ => Nat.zero_le _
    omega

/-! ## Along a run -/

/-- What an instance is committed to fits its maximum. -/
def Fits (c : Config World Op) : Prop :=
  ∀ mi < c.state.nManaged,
    c.state.aliveCount mi + c.pending (Op.claims mi) ≤ c.state.config.maxSessionsPerInstance

/-- When the count covers an instance and no release is in flight, a claim leaves
room for its sandbox. -/
theorem Covered.claim_fits (hcov : Covered c) (hlt : mi < c.state.nManaged)
    (howes : c.pending (Op.owes mi) = 0) {v : ManagedInstance}
    (hv : (c.state.managed mi).claimSession = .ok v) :
    c.state.aliveCount mi + c.pending (Op.claims mi) + 1 ≤
      c.state.config.maxSessionsPerInstance := by
  obtain ⟨-, hmax, -⟩ := ManagedInstance.claimSession_eq_ok hv
  have hle := hcov.covered mi hlt
  rw [Config.weight_slots, howes, World.spare] at hle
  rw [hcov.scope.world.maxSessions mi hlt] at hmax
  omega

theorem Fits.step (h : Fits c) (hcov : Covered c) (ht : c.At i a rest)
    (hx : exec x a c.state = some o) (hm : claimsSettled c a x = true) :
    Fits (c.advance i rest o) := by
  obtain ⟨hs, hspawn⟩ := step_of_exec hx
  have hin := hcov.scope.ops a (pend_head ht)
  obtain ⟨hkeep, hsettled⟩ := Bool.and_eq_true_iff.mp hm
  intro mi hlt
  change o.state.aliveCount mi + _ ≤ o.state.config.maxSessionsPerInstance
  rw [hs.config_eq]
  have hb := pending_advance_nil (Op.claims mi) ht hspawn
  by_cases hold : mi < c.state.nManaged
  · have hfit := h mi hold
    have henc : ∀ id err, a = .create (.encode mi id) →
        encodeSandboxID (c.state.managed mi).instanceID id ≠ .error err := by
      rintro id err rfl he
      simp [keepsSlots, he, Except.isOk, Except.toBool] at hkeep
    rcases hs.committed_le hcov.scope.world hcov.distinct.injective hin hold henc with
      hle | ⟨⟨k, v, rfl, hv⟩, halive, hone, hclaim⟩
    · omega
    · have howes : c.pending (Op.owes mi) = 0 := by simpa using hsettled
      have := hcov.claim_fits hold howes hv
      rw [hclaim, hone] at hb
      simp only [Bool.false_eq_true, if_false] at hb
      omega
  · -- A new instance: nothing is alive on it and no action refers to it.
    obtain ⟨halive, -, -, -⟩ := hcov.new ht hx hkeep hlt hold
    have hz : c.pending (Op.claims mi) = 0 := pending_none fun b hb hc =>
      hold ((hcov.scope.ops b hb).1 mi (Op.mem_refs_of_claims hc))
    have hmore : o.more.countP (Op.claims mi) = 0 := by
      refine hs.claims_more ?_
      obtain ⟨id, -, -, ha⟩ := (hs.managed_cases hlt).resolve_left hold
      rintro k rfl
      rcases ha with ⟨_, _, he⟩ | he <;> cases he
    omega

theorem Reach.fits
    (hr : Reach (machine apiEntry) (.when claimsSettled) ()
      (initialConfig config cloud hosts) () c) :
    Fits c ∧ c.state.config = config := by
  refine hr.invariant_of_reach (fun _ c => Fits c ∧ c.state.config = config) ⟨nofun, rfl⟩ ?_ ?_
  · intro _ c a _ ih he
    refine ⟨fun mi hlt => ?_, ih.2⟩
    have hclaim : a.claims mi = false := Bool.of_not_eq_true fun hc => by
      have := Op.mem_refs_of_claims hc
      rw [(apiEntry_fresh (w := c.state) he).1] at this
      cases this
    rw [pending_call, hclaim]
    exact ih.1 mi hlt
  · intro _ c i a rest x o hr ih ht hx hm
    have hcov := Reach.covered (fun _ c a x hm => (Bool.and_eq_true_iff.mp hm).1) hr
    exact ⟨ih.1.step hcov ht hx hm, (step_of_exec hx).1.config_eq.trans ih.2⟩

/-- In every run in which ids can be encoded, failed destroys take their slot back,
reports cover what is alive and claimed, recovered instances are new, and slots are
claimed only while no released slot is in flight, no instance ever has more live
sandboxes than its maximum. -/
theorem alive_within_maximum
    (hr : Reach (machine apiEntry) (.when claimsSettled) ()
      (initialConfig config cloud hosts) () c) :
    ∀ mi < c.state.nManaged, (c.state.hostOf mi).alive.length ≤ config.maxSessionsPerInstance := by
  intro mi hlt
  obtain ⟨hfit, hconfig⟩ := Reach.fits hr
  have := hfit mi hlt
  rw [hconfig] at this
  exact (Nat.le_add_right _ _).trans this

/-- One sandbox for each instance. -/
def singleConfig : FleetConfig :=
  { defaultFleetConfig with maxSessionsPerInstance := 1, warmPoolTarget := 0 }

/-- The first sandbox is destroyed before the second one is created. -/
def destroyThenCreate : List (Label Op Choice) :=
  firstSandbox ++ [.call (.destroy (.start "fleet:i-1:s-1")), .go 2 4, .call (.create .start),
    .go 3 5, .run 3 (.session "s-2")]

theorem alive_within_maximum_reused :
    ∃ c, Reach (machine apiEntry) (.when claimsSettled) ()
        (initialConfig singleConfig [] fun _ => {}) () c ∧
      (c.state.hostOf 0).alive = ["s-2"] ∧
      (c.state.hostOf 0).alive.length ≤ singleConfig.maxSessionsPerInstance := by
  refine Machine.follow_state_imp (defaultChoice [0]) destroyThenCreate
    (fun c => 0 < c.state.nManaged ∧ (c.state.hostOf 0).alive = ["s-2"]) ?_
  rintro c hr ⟨hlt, halive⟩
  exact ⟨halive, alive_within_maximum hr 0 hlt⟩

/-- The second sandbox is created while the destroy of the first one is on its way. -/
def createDuringDestroy : List (Label Op Choice) :=
  firstSandbox ++ [.call (.destroy (.start "fleet:i-1:s-1")), .go 2 2, .call (.create .start),
    .go 3 5, .run 3 (.session "s-2")]

theorem create_overtakes_destroy :
    ∃ c, Reach (machine apiEntry) .free () (initialConfig singleConfig [] fun _ => {}) () c ∧
      0 < c.state.nManaged ∧ (c.state.hostOf 0).alive = ["s-1", "s-2"] ∧
      ¬ (c.state.hostOf 0).alive.length ≤ singleConfig.maxSessionsPerInstance :=
  Machine.follow_state (defaultChoice [0]) createDuringDestroy

end FlexAgentRuntime.Fleet
