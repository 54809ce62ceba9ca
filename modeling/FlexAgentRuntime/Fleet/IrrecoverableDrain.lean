import FlexAgentRuntime.Fleet.SafeTermination

/-!
Irrecoverable drains: an instance that drains for another reason than its health, or
that is terminating, is never routed to again.

The state of an instance is written in eight places, and only two of them go through
`TransitionTo`. A claim, a release and a reconciliation look at the state they
change in the same critical section. The drain and the provisioning phase write
`Terminating` on the strength of what they read before the call to the provisioner;
only the control loop takes an instance out of these states, and it is waiting for
that call.

* `Change.irrecoverable`, `Reach.irrecoverable`: what is irrecoverable stays so;
* `Doomed.step`: what a phase has read before it terminates an instance stays true;
* `irrecoverable_stays_drained`: both together, for every run.
-/

namespace FlexAgentRuntime.Fleet

open Interleaving Config List

/-- Draining for a reason other than health, or terminating. -/
def ManagedInstance.irrecoverable (v : ManagedInstance) : Bool :=
  (v.state == .draining && v.drainReason != some .health) || v.state == .terminating

/-- The instance that an action is going to terminate or to record as terminated, and
the state it has been found in. -/
def Op.doomed : Op → Option (MiRef × InstanceState)
  | .loop (.drainDecide mi state _ _ _ _) =>
    if state = .draining then some (mi, .draining) else none
  | .terminate (.drain mi _ _ _) | .loop (.drainTerminated mi _ _) => some (mi, .draining)
  | .loop (.provisioningDecide mi _ _ _) | .terminate (.provision mi _ _)
  | .loop (.provisioningTerminated mi _ _) => some (mi, .provisioning)
  | _ => none

/-- The action records a termination. -/
def Op.records : Op → Bool
  | .loop (.drainTerminated _ _ _) | .loop (.provisioningTerminated _ _ _) => true
  | _ => false

/-- What has been found still holds, unless `Close` has got there first. -/
def Op.Doomed (w : World) (b : Op) : Prop :=
  ∀ q ∈ b.doomed, (w.managed q.1).state = q.2 ∨ (w.managed q.1).state = .terminating

variable {config : FleetConfig} {cloud : List String} {hosts : String → Host} {c : Config World Op}
  {w w' : World} {a b : Op} {more rest : List Op} {mi : MiRef} {v : ManagedInstance}
  {q : MiRef × InstanceState} {i : Nat} {x : Choice} {o : Outcome World Op} {γ : Type}
  {N : Monitor World Op Choice γ} {h₀ h : γ}

theorem ManagedInstance.irrecoverable_iff :
    v.irrecoverable = true ↔
      (v.state = .draining ∧ v.drainReason ≠ some .health) ∨ v.state = .terminating := by
  simp [irrecoverable]

theorem ManagedInstance.irrecoverable.not_routable (h : v.irrecoverable = true) :
    v.state.routable = false := by
  rcases ManagedInstance.irrecoverable_iff.mp h with ⟨hs, -⟩ | hs <;> rw [hs] <;> rfl

/-- No writer takes an instance out of an irrecoverable drain. -/
theorem Change.irrecoverable (hc : Change w a mi v) (hlt : mi < w.nManaged)
    (h : (w.managed mi).irrecoverable = true) : v.irrecoverable = true := by
  have hroute := ManagedInstance.irrecoverable.not_routable h
  cases hc with
  | same hv | retried _ hv => exact hv ▸ h
  | claimed hv =>
    rw [(ManagedInstance.claimSession_eq_ok hv).1] at hroute
    cases hroute
  | released hv =>
    unfold ManagedInstance.releaseSession at hv
    split at hv
    · cases hv
    · split at hv
      · rename_i hlast
        rw [hlast.2] at hroute
        cases hroute
      · cases hv
        exact h
  | healthChecked r _ hv =>
    subst hv
    obtain ⟨hreason, hs | ⟨hs, -⟩ | ⟨hs, -⟩⟩ :=
      ((w.managed mi).healthChecked_keeps w.now r).2
    · rw [ManagedInstance.irrecoverable_iff] at h ⊢
      rw [hreason, hs]
      exact h
    all_goals
      rw [hs] at hroute
      cases hroute
  | handled _ hv =>
    subst hv
    rcases ManagedInstance.handled_state (w.managed mi) w.config w.now with hs | ⟨hs, -⟩
    · rw [hs]
      exact h
    · rcases hs with hs | ⟨hs, hreason⟩
      · rw [hs] at hroute
        cases hroute
      · have ht := (ManagedInstance.irrecoverable_iff.mp h).resolve_left fun hd => hd.2 hreason
        rw [hs] at ht
        cases ht
  | scaledDown _ hidle =>
    have hs : (w.managed mi).state = .ready := by
      simp only [ManagedInstance.idle, Bool.and_eq_true, beq_iff_eq] at hidle
      exact hidle.1
    rw [hs] at hroute
    cases hroute
  | terminated _ hv => exact hv ▸ ManagedInstance.irrecoverable_iff.mpr (.inr rfl)
  | ready _ hvalid hreason =>
    rcases ManagedInstance.irrecoverable_iff.mp h with ⟨hs, hne⟩ | hs
    · exact absurd (hreason hs) hne
    · rw [hs] at hvalid
      cases hvalid
  | provisioned _ _ _ hn | recovered _ hn => exact absurd hn (ne_of_lt hlt)

/-- Every change but that of `Close` is an edge of `validTransitions`, when what a
phase records is what it has found. -/
theorem Change.edge (hc : Change w a mi v) (ha : a ≠ .close (.mark mi)) (hd : a.Doomed w)
    (hlt : mi < w.nManaged) :
    v.state = (w.managed mi).state ∨ validTransitions (w.managed mi).state v.state = true := by
  cases hc with
  | same hv | retried _ hv => exact .inl (hv ▸ rfl)
  | claimed hv =>
    obtain ⟨hr, -, rfl⟩ := ManagedInstance.claimSession_eq_ok hv
    revert hr
    cases (w.managed mi).state <;> simp [InstanceState.routable, validTransitions]
  | released hv =>
    obtain ⟨-, -, -, -, ⟨hs, -⟩ | ⟨-, hact, hready⟩⟩ := ManagedInstance.releaseSession_eq_ok hv
    · exact .inl hs
    · exact .inr (by rw [hact, hready]; rfl)
  | healthChecked r _ hv =>
    subst hv
    obtain ⟨-, hs | ⟨hs, hs'⟩ | ⟨hs, hs'⟩⟩ :=
      ((w.managed mi).healthChecked_keeps w.now r).2
    · exact .inl hs
    · exact .inr (by rw [hs, hs']; rfl)
    · exact .inr (by rw [hs, hs']; rfl)
  | handled _ hv =>
    subst hv
    rcases ManagedInstance.handled_state (w.managed mi) w.config w.now with hs | ⟨hs, hs'⟩
    · exact .inl (by rw [hs])
    · rcases hs' with ⟨hs', hr⟩ | hs'
      · rw [hs']
        revert hr
        cases (w.managed mi).state <;> simp [InstanceState.routable, validTransitions]
      · rw [hs']
        rcases hs with hr | ⟨hdr, -⟩
        · revert hr
          cases (w.managed mi).state <;> simp [InstanceState.routable, validTransitions]
        · exact .inr (by rw [hdr]; rfl)
  | scaledDown _ hidle hv =>
    simp only [ManagedInstance.idle, Bool.and_eq_true, beq_iff_eq] at hidle
    subst hv
    exact .inr (by rw [hidle.1]; rfl)
  | terminated hop hv =>
    subst hv
    rcases hop with rfl | ⟨todo, toRemove, rfl | rfl⟩
    · exact absurd rfl ha
    all_goals
      rcases hd _ rfl with hs | hs
      · exact .inr (by rw [hs]; rfl)
      · exact .inl hs.symm
  | ready _ hvalid _ hv => exact .inr (hv ▸ hvalid)
  | provisioned _ _ _ hn | recovered _ hn => exact absurd hn (ne_of_lt hlt)

/-! ### What a phase has found -/

theorem Op.holds_or_records (h : q ∈ b.doomed) : b.holds = true ∨ b.records = true := by
  unfold Op.doomed at h
  split at h
  all_goals first
    | exact .inl rfl
    | exact .inr rfl
    | cases h

theorem Op.mem_refs_of_doomed (h : q ∈ b.doomed) : q.1 ∈ b.refs := by
  unfold Op.doomed at h
  split at h
  · split at h <;> cases h
    exact mem_cons_self ..
  all_goals first
    | cases h; exact mem_cons_self ..
    | cases h

theorem Op.inLoop_of_records (h : b.records = true) : b.inLoop = true := by
  unfold Op.records at h
  split at h
  all_goals first
    | rfl
    | cases h

theorem LoopOp.Reads.not_records {op : LoopOp} (hr : op.Reads w more) :
    ∀ b ∈ more, b.records = false := by
  intro b hb
  cases hr with
  | iterate =>
    rcases mem_iteration.mp hb with rfl | rfl | rfl | rfl | rfl | rfl | rfl <;> rfl
  | phaseHealthCheck | phaseHandleUnhealthy =>
    obtain ⟨_, -, rfl⟩ := mem_map.mp hb
    rfl
  | _ => first
    | cases hb
      done
    | cases mem_singleton.mp hb
      rfl

theorem Step.records_more (hs : Step w a w' more) (hb : b ∈ more) (hr : b.records = true) :
    more = [b] ∧ w'.managed = w.managed ∧ b.doomed = a.doomed := by
  have hnone : (∀ b ∈ more, b.records = false) →
      more = [b] ∧ w'.managed = w.managed ∧ b.doomed = a.doomed := by
    intro h
    rw [h b hb] at hr
    cases hr
  have hf := hs.follows b hb
  cases hs with
  | loop hs =>
    cases hs with
    | reads hs => exact hnone hs.not_records
    | _ => exact hnone (by simp [Op.records])
  | @terminated t =>
    cases t with
    | close mi => cases hb
    | stuck mi todo toRemove => exact hnone (forall_mem_singleton.mpr rfl)
    | _ =>
      cases mem_singleton.mp hb
      exact ⟨rfl, rfl, rfl⟩
  | @terminateFailed t =>
    refine hnone ?_
    cases t with
    | drain mi timedOut todo toRemove => cases timedOut <;> simp [Op.records, Terminator.failed]
    | _ => simp [Op.records, Terminator.failed]
  | ret | tick => cases hb
  -- the other actions do not go on in the control loop
  | _ =>
    cases hf
    all_goals cases hr

theorem Step.doomed_more (hs : Step w a w' more) (ha : a.Doomed w) : ∀ b ∈ more, b.Doomed w' := by
  intro b hb q hq
  rcases Op.holds_or_records hq with hh | hr
  · obtain ⟨rfl, op, rfl, hf⟩ := hs.holds_more hb hh
    cases hf with
    | drainRead =>
      obtain ⟨hst, heq⟩ := Option.ite_none_right_eq_some.mp hq
      cases heq
      exact .inl hst
    | drainTimeout | drainEmpty | provisioningTimeout => exact ha q hq
    | provisioningRead hst =>
      cases hq
      exact .inl hst
    | _ => cases hq
  · obtain ⟨-, hm, hd⟩ := hs.records_more hb hr
    rw [hm]
    exact ha q (hd ▸ hq)

/-- Outside the loop an instance leaves these states only when `Close` terminates it. -/
theorem Change.doomed (hc : Change w a mi v) (ha : a.inLoop = false) (hlt : mi < w.nManaged)
    (hs : s.routable = false) (h : (w.managed mi).state = s ∨ (w.managed mi).state = .terminating) :
    v.state = s ∨ v.state = .terminating := by
  have hroute : (w.managed mi).state.routable = false := by
    rcases h with h | h <;> rw [h]
    · exact hs
    · rfl
  obtain ⟨hst | hst, -⟩ := hc.outside ha hlt hroute
  · rw [hst]
    exact h
  · exact .inr hst

theorem Op.not_routable_of_doomed (h : q ∈ b.doomed) : q.2.routable = false := by
  unfold Op.doomed at h
  split at h
  · split at h <;> cases h
    rfl
  all_goals first
    | cases h; rfl
    | cases h

/-! ## Along a run -/

/-- What the phases have found holds, and a termination is recorded before the loop
does anything else. -/
structure DoomedAll (c : Config World Op) : Prop where
  found : ∀ b, c.Pend b → b.Doomed c.state
  head : ∀ th ∈ c.threads, ∀ b ∈ th.tail, b.records = false

/-- An action that rests on what a phase has found has just been put there, or the
loop has not moved since. -/
theorem DoomedAll.pend_cases (h : DoomedAll c) (hsolo : Solo c) (ht : c.At i a rest)
    (hspawn : o.spawn = []) (hb : (c.advance i rest o).Pend b) (hq : q ∈ b.doomed) :
    b ∈ o.more ∨ c.Pend b ∧ a.inLoop = false := by
  rcases Op.holds_or_records hq with hh | hr
  · exact hsolo.pend_cases ht hspawn hb hh
  · refine (hsolo.loop_cases ht hspawn hb (Op.inLoop_of_records hr)).imp_right fun hb =>
      hb.resolve_left fun hb => ?_
    rw [h.head _ (mem_of_getElem? ht) b hb] at hr
    cases hr

theorem DoomedAll.step (h : DoomedAll c) (hsc : Scoped c) (hsolo : Solo c)
    (ht : c.At i a rest) (hx : exec x a c.state = some o) :
    DoomedAll (c.advance i rest o) := by
  obtain ⟨hs, hspawn⟩ := step_of_exec hx
  refine ⟨fun b hb q hq => ?_, fun th hth b hb => ?_⟩
  · rcases h.pend_cases hsolo ht hspawn hb hq with hb | ⟨hb, ha⟩
    · exact hs.doomed_more (h.found a (pend_head ht)) b hb q hq
    · exact (hs.change q.1).doomed ha ((hsc.ops b hb).1 q.1 (Op.mem_refs_of_doomed hq))
        (Op.not_routable_of_doomed hq) (h.found b hb q hq)
  · obtain ⟨j, hj⟩ := mem_iff_getElem?.mp hth
    rcases getElem?_advance_cases hspawn hj with ⟨-, hj⟩ | ⟨rfl, rfl⟩
    · exact h.head th (mem_of_getElem? hj) b hb
    · have hrest : ∀ b ∈ rest, b.records = false := h.head _ (mem_of_getElem? ht)
      cases hrec : b.records with
      | false => rfl
      | true =>
        -- a recording among the new actions is the only one, so it is the head
        have hmore : b ∈ o.more := by
          rcases mem_append.mp (mem_of_mem_tail hb) with hb | hb
          · exact hb
          · rw [hrest b hb] at hrec
            cases hrec
        rw [(hs.records_more hmore hrec).1] at hb
        rw [hrest b hb] at hrec
        cases hrec

theorem Reach.doomedAll (hr : Reach (machine apiEntry) N h₀ (initialConfig config cloud hosts) h c)
    :
    DoomedAll c := by
  refine hr.invariant_of_reach (fun _ c => DoomedAll c) ?_ ?_ ?_
  · refine ⟨forall_pend_singleton nofun, fun th hth => ?_⟩
    cases mem_singleton.mp hth
    exact forall_mem_nil _
  · intro _ c a _ ih he
    refine ⟨forall_pend_call ih.found fun q hq => ?_, fun th hth => ?_⟩
    · have := Op.mem_refs_of_doomed hq
      rw [(apiEntry_fresh (w := c.state) he).1] at this
      cases this
    · rcases mem_concat.mp hth with hth | rfl
      · exact ih.head th hth
      · exact forall_mem_nil _
  · intro _ c i a rest x o hr ih ht hx _
    exact ih.step (Reach.scoped (fun _ _ he => apiEntry_fresh he) hr (Scoped.initial ..))
      (Reach.solo hr (Solo.initial ..)) ht hx

theorem Reach.irrecoverable (hr : Reach (machine apiEntry) N h₀ c h c')
    (hlt : mi < c.state.nManaged) (hi : (c.state.managed mi).irrecoverable = true) :
    (c'.state.managed mi).irrecoverable = true := by
  have hboth := hr.invariant
    (fun _ c => mi < c.state.nManaged ∧ (c.state.managed mi).irrecoverable = true) ⟨hlt, hi⟩
    (fun _ _ _ ih _ => ih) ?_
  · exact hboth.2
  · intro _ c i a rest x o ih ht hx _
    obtain ⟨hs, -⟩ := step_of_exec hx
    exact ⟨lt_of_lt_of_le ih.1 hs.nManaged_le, (hs.change mi).irrecoverable ih.1 ih.2⟩

/-- `selectAndClaim` does not get a slot of an instance that is not routable. -/
theorem claim_refused (h : (w.managed mi).state.routable = false) (x : Choice) (attempt : Nat) :
    exec x (.create (.claim attempt mi)) w = some ⟨w, [.create (.select (attempt + 1))], []⟩ := by
  simp [exec, execOp, CreateOp.exec, ManagedInstance.claimSession, h]

/-! ## The result -/

/-- In every run of the fleet, an instance that drains for another reason than its
health, or that is terminating, is never ready or active again and no claim on it
succeeds; and every change of an instance's state that is not made by `Close` is an
edge of `validTransitions`. -/
theorem irrecoverable_stays_drained
    (hr : Reach (machine apiEntry) .free () (initialConfig config cloud hosts) () c) :
    (∀ mi < c.state.nManaged, (c.state.managed mi).irrecoverable = true →
      ∀ c', Reach (machine apiEntry) .free () c () c' →
        (c'.state.managed mi).state ≠ .ready ∧ (c'.state.managed mi).state ≠ .active ∧
        ∀ x attempt, exec x (.create (.claim attempt mi)) c'.state =
          some ⟨c'.state, [.create (.select (attempt + 1))], []⟩) ∧
    (∀ (i : Nat) (a : Op) rest x o, c.threads[i]? = some (a :: rest) → exec x a c.state = some o →
      ∀ mi < c.state.nManaged, a ≠ .close (.mark mi) →
        (o.state.managed mi).state ≠ (c.state.managed mi).state →
        validTransitions (c.state.managed mi).state (o.state.managed mi).state = true) := by
  constructor
  · intro mi hlt hi c' hr'
    have hroute := ManagedInstance.irrecoverable.not_routable (Reach.irrecoverable hr' hlt hi)
    refine ⟨fun hs => ?_, fun hs => ?_, claim_refused hroute⟩
    all_goals
      rw [hs] at hroute
      cases hroute
  · intro i a rest x o ht hx mi hlt ha hne
    obtain ⟨hs, -⟩ := step_of_exec hx
    have hd := (Reach.doomedAll hr).found a (pend_head ht)
    exact ((hs.change mi).edge ha hd hlt).resolve_left hne

/-- The idle instance of a fleet that keeps none is drained: it is not claimed by any
`CreateSandbox` that comes later. -/
theorem irrecoverable_stays_drained_idle :
    ∃ c, Reach (machine apiEntry) .free () (initialConfig scaleToZeroConfig [] fun _ => {}) () c ∧
      (c.state.managed 0).state = .draining ∧
      (c.state.managed 0).drainReason = some .scaleDown ∧
      ∀ c', Reach (machine apiEntry) .free () c () c' →
        (c'.state.managed 0).state ≠ .ready ∧ (c'.state.managed 0).state ≠ .active := by
  refine Machine.follow_state_imp (defaultChoice [0])
    (firstSandbox ++ [.call (.destroy (.start "fleet:i-1:s-1")), .go 2 4] ++ drainIdle)
    (fun c => (c.state.managed 0).state = .draining ∧
      (c.state.managed 0).drainReason = some .scaleDown ∧ 0 < c.state.nManaged) ?_
  rintro c hr ⟨hst, hreason, hlt⟩
  have hi : (c.state.managed 0).irrecoverable = true :=
    ManagedInstance.irrecoverable_iff.mpr (.inl ⟨hst, by rw [hreason]; exact nofun⟩)
  refine ⟨hst, hreason, fun c' hr' => ?_⟩
  obtain ⟨hready, hactive, -⟩ := (irrecoverable_stays_drained hr).1 0 hlt hi c' hr'
  exact ⟨hready, hactive⟩

end FlexAgentRuntime.Fleet
