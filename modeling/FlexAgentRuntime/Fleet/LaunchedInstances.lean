import FlexAgentRuntime.Fleet.Accounting

/-!
No launched instance is lost: every instance that `LaunchInstance` has returned is in
the map, or `TerminateInstance` has been called for it, or a call is about to insert
it.

Two steps break this. A provisioning call whose client factory fails returns without
terminating what it has launched. `Close` replaces the map after it has terminated the
instances it had collected, and with the map goes what was inserted in between.

* `Step.removes_more`: the control loop removes what it has terminated;
* `no_launched_instance_lost`: the property, in runs without those two;
* `failed_client_orphans_instance`: an instance that nobody terminates.
-/

namespace FlexAgentRuntime.Fleet

open Interleaving Config List

/-- The instances that `LaunchInstance` has returned, and those for which
`TerminateInstance` has been called. -/
structure Ledger where
  launched : List String
  terminateCalled : List String

def Ledger.note (h : Ledger) (c : Config World Op) : Op → Choice → Ledger
  | .provision _ (.launch _), .launched id => { h with launched := h.launched ++ [id] }
  | .terminate t, _ =>
    { h with terminateCalled := h.terminateCalled ++ [(c.state.managed t.mi).instanceID] }
  | _, _ => h

/-- Keeps the ledger, with a condition on steps. -/
def ledgerMonitor (meets : Ledger → Config World Op → Op → Choice → Bool) :
    Monitor World Op Choice Ledger := ⟨fun h _ _ => h, fun h c a x => h.note c a x, meets⟩

/-- The client factory does not fail after a launch, and `Close` drops only instances
that have been terminated. -/
def handsOver (h : Ledger) (c : Config World Op) : Op → Choice → Bool
  | .provision _ (.client _ _), .error => false
  | .close .swap, _ => c.state.instances.all fun q => h.terminateCalled.contains q.1
  | _, _ => true

/-- The instances that the control loop is going to delete from the map. -/
def Op.removes : Op → List String
  | .loop (.drain _ ids) | .loop (.drainDecide _ _ _ _ _ ids) | .loop (.drainTerminated _ _ ids)
  | .loop (.drainRetry _ _ ids) | .loop (.provisioning _ ids)
  | .loop (.provisioningDecide _ _ _ ids) | .loop (.provisioningCheck _ _ ids)
  | .loop (.provisioningReady _ _ ids) | .loop (.provisioningTerminated _ _ ids)
  | .loop (.remove ids) | .terminate (.drain _ _ _ ids) | .terminate (.stuck _ _ ids)
  | .terminate (.provision _ _ ids) => ids
  | _ => []

variable {config : FleetConfig} {cloud : List String} {hosts : String → Host} {h : Ledger}
  {c : Config World Op} {w w' : World} {a b : Op} {more rest : List Op} {x : Choice} {id : String}
  {i : Nat} {o : Outcome World Op}

theorem Ledger.mem_launched_note (hid : id ∈ (h.note c a x).launched) :
    id ∈ h.launched ∨ (∃ o start, a = .provision o (.launch start)) ∧ x = .launched id := by
  unfold Ledger.note at hid
  split at hid
  · rcases mem_concat.mp hid with hid | rfl
    · exact .inl hid
    · exact .inr ⟨⟨_, _, rfl⟩, rfl⟩
  · exact .inl hid
  · exact .inl hid

theorem Ledger.terminateCalled_note (hid : id ∈ h.terminateCalled) :
    id ∈ (h.note c a x).terminateCalled := by
  unfold Ledger.note
  split
  · exact hid
  · exact mem_append_left _ hid
  · exact hid

theorem LoopOp.Reads.removes {op : LoopOp} (hr : op.Reads w more) :
    ∀ b ∈ more, ∀ id ∈ b.removes, id ∈ (Op.loop op).removes := by
  intro b hb id hid
  cases hr with
  | iterate =>
    rcases mem_iteration.mp hb with rfl | rfl | rfl | rfl | rfl | rfl | rfl <;> cases hid
  | phaseHealthCheck | phaseHandleUnhealthy =>
    obtain ⟨_, -, rfl⟩ := mem_map.mp hb
    cases hid
  | _ => first
    | cases hb
      done
    | cases mem_singleton.mp hb
      exact hid

theorem Step.removes_more (hs : Step w a w' more) :
    ∀ b ∈ more, ∀ id ∈ b.removes,
      id ∈ a.removes ∨ ∃ t, a = .terminate t ∧ id = (w.managed t.mi).instanceID := by
  intro b hb id hid
  have hnone : (∀ op, a ≠ .loop op) → (∀ t, a ≠ .terminate t) → b.removes = [] := by
    intro hloop hterm
    cases hs.follows b hb with
    | loop | terminates => exact absurd rfl (hloop _)
    | terminated => exact absurd rfl (hterm _)
    | _ => rfl
  cases hs with
  | loop hs =>
    refine .inl ?_
    cases hs with
    | reads hr => exact hr.removes b hb id hid
    | _ => first
      | cases hb
        done
      | cases mem_singleton.mp hb
        exact hid
  | @terminated t =>
    cases t with
    | close mi => cases hb
    | _ =>
      cases mem_singleton.mp hb
      exact (mem_append.mp hid).imp_right fun hid => ⟨_, rfl, mem_singleton.mp hid⟩
  | @terminateFailed t =>
    refine .inl ?_
    cases t with
    | close mi => cases hb
    | drain mi timedOut todo toRemove =>
      cases timedOut <;> (cases mem_singleton.mp hb; exact hid)
    | _ =>
      cases mem_singleton.mp hb
      exact hid
  | _ =>
    rw [hnone nofun nofun] at hid
    cases hid

structure Accounted (h : Ledger) (c : Config World Op) : Prop where
  removes : ∀ b, c.Pend b → ∀ id ∈ b.removes, id ∈ h.terminateCalled
  launched : ∀ id ∈ h.launched, (∃ q ∈ c.state.instances, q.1 = id) ∨ id ∈ h.terminateCalled ∨
    ∃ b, c.Pend b ∧ b.launchedID = some id

theorem Accounted.removes_step (hacc : Accounted h c) (ht : c.At i a rest)
    (hx : exec x a c.state = some o) :
    ∀ b, (c.advance i rest o).Pend b → ∀ id ∈ b.removes, id ∈ (h.note c a x).terminateCalled := by
  obtain ⟨hs, hspawn⟩ := step_of_exec hx
  intro b hb id hid
  rcases hb.of_advance_nil ht hspawn with hb | hb
  · exact Ledger.terminateCalled_note (hacc.removes b hb id hid)
  · rcases hs.removes_more b hb id hid with hid | ⟨t, rfl, rfl⟩
    · exact Ledger.terminateCalled_note (hacc.removes a (pend_head ht) id hid)
    · exact mem_append_right _ (mem_singleton.mpr rfl)

section

variable (ht : c.At i a rest) (hx : exec x a c.state = some o) (hm : handsOver h c a x = true)

include ht hx hm

theorem Accounted.key_step (hacc : Accounted h c) (hkey : ∃ q ∈ c.state.instances, q.1 = id) :
    (∃ q ∈ o.state.instances, q.1 = id) ∨ id ∈ h.terminateCalled := by
  obtain ⟨q, hq, rfl⟩ := hkey
  cases (step_of_exec hx).1.instances with
  | same _ hi => exact .inl ⟨q, hi ▸ hq, rfl⟩
  | inserted id' _ _ hi =>
    rw [hi]
    by_cases he : q.1 = id'
    · exact .inl ⟨_, mem_append_right _ (mem_singleton.mpr rfl), he.symm⟩
    · exact .inl ⟨q, mem_append_left _ (mem_filter.mpr ⟨hq, by simpa using he⟩), rfl⟩
  | removed ids ha _ hi =>
    subst ha
    by_cases hid : q.1 ∈ ids
    · exact .inr (hacc.removes _ (pend_head ht) q.1 hid)
    · exact .inl ⟨q, hi ▸ mem_filter.mpr ⟨hq, by simpa using hid⟩, rfl⟩
  | swapped ha =>
    subst ha
    simp only [handsOver, all_eq_true, contains_iff_mem] at hm
    exact .inr (hm q hq)

theorem Accounted.pend_step {b : Op} (hb : c.Pend b) (hid : b.launchedID = some id) :
    (∃ q ∈ o.state.instances, q.1 = id) ∨
      ∃ b, (c.advance i rest o).Pend b ∧ b.launchedID = some id := by
  by_cases hne : b = a
  · subst hne
    unfold Op.launchedID at hid
    split at hid
    · cases hid
      obtain ⟨p, hp, rfl⟩ := Option.map_eq_some_iff.mp hx
      cases x with
      | ok =>
        cases hp
        exact .inr ⟨_, pend_more ht (mem_singleton.mpr rfl), rfl⟩
      | error => cases hm
      | _ => cases hp
    · cases hid
      obtain ⟨p, hp, rfl⟩ := Option.map_eq_some_iff.mp hx
      cases hp
      refine .inl ⟨_, mem_append_right _ (mem_singleton.mpr rfl), ?_⟩
      exact Origin.newInstance_id ..
    · cases hid
  · exact .inr ⟨b, hb.advance ht hne, hid⟩

theorem Accounted.step (hacc : Accounted h c) : Accounted (h.note c a x) (c.advance i rest o) := by
  refine ⟨hacc.removes_step ht hx, fun id hid => ?_⟩
  rcases Ledger.mem_launched_note hid with hid | ⟨⟨o', start, rfl⟩, rfl⟩
  · rcases hacc.launched id hid with hkey | hterm | ⟨b, hb, hl⟩
    · exact (hacc.key_step ht hx hm hkey).imp_right fun hid =>
        .inl (Ledger.terminateCalled_note hid)
    · exact .inr (.inl (Ledger.terminateCalled_note hterm))
    · exact (Accounted.pend_step ht hx hm hb hl).imp_right .inr
  · -- The launched instance is with the call that launched it.
    obtain ⟨p, hp, rfl⟩ := Option.map_eq_some_iff.mp hx
    simp only [execOp, ProvisionOp.exec] at hp
    split at hp
    · cases hp
    · cases hp
      exact .inr (.inr ⟨_, pend_more ht (mem_singleton.mpr rfl), rfl⟩)

end

theorem Reach.accounted
    (hr : Reach (machine apiEntry) (ledgerMonitor handsOver) ⟨[], []⟩
      (initialConfig config cloud hosts) h c) : Accounted h c := by
  refine hr.invariant Accounted ⟨?_, nofun⟩ ?_ fun _ _ _ _ _ _ _ hacc => hacc.step
  · exact forall_pend_singleton nofun
  · intro h c a hacc he
    have hnew : a.removes = [] := by
      change apiEntry c.state a = true at he
      unfold apiEntry at he
      split at he
      all_goals first
        | rfl
        | cases he
    refine ⟨forall_pend_call hacc.removes ?_, fun id hid => ?_⟩
    · rw [hnew]
      exact nofun
    · refine (hacc.launched id hid).imp_right (Or.imp_right ?_)
      rintro ⟨b, hb, hl⟩
      exact ⟨b, pend_call.mpr (.inl hb), hl⟩

/-- In every run in which the client factory does not fail after a launch and `Close`
drops only instances that have been terminated, once no provisioning call is in flight
every instance that has been launched is in the map, or `TerminateInstance` has been
called for it. -/
theorem no_launched_instance_lost
    (hr : Reach (machine apiEntry) (ledgerMonitor handsOver) ⟨[], []⟩
      (initialConfig config cloud hosts) h c)
    (hquiet : ∀ o op, ¬ c.Pend (.provision o op)) :
    ∀ id ∈ h.launched, (∃ q ∈ c.state.instances, q.1 = id) ∨ id ∈ h.terminateCalled := by
  intro id hid
  rcases (Reach.accounted hr).launched id hid with hkey | hterm | ⟨b, hb, hl⟩
  · exact .inl hkey
  · exact .inr hterm
  · unfold Op.launchedID at hl
    split at hl
    · exact absurd hb (hquiet _ _)
    · exact absurd hb (hquiet _ _)
    · cases hl

/-- A fleet with one instance is closed. -/
def closeFleet : List (Label Op Choice) :=
  firstSandbox ++ [.call (.close .start), .go 2 2, .run 0 .done, .go 2 5]

theorem no_launched_instance_lost_closed :
    ∃ h c, Reach (machine apiEntry) (ledgerMonitor handsOver) ⟨[], []⟩
        (initialConfig defaultFleetConfig [] fun _ => {}) h c ∧
      h.launched = ["i-1"] ∧ c.state.instances = [] ∧
      ((∃ q ∈ c.state.instances, q.1 = "i-1") ∨ "i-1" ∈ h.terminateCalled) := by
  refine Machine.follow_imp (defaultChoice [0]) closeFleet
    (fun h c => h.launched = ["i-1"] ∧ c.state.instances = [] ∧ ∀ b, ¬ c.Pend b) ?_
  rintro h c hr ⟨hlaunched, hinst, hidle⟩
  exact ⟨hlaunched, hinst, no_launched_instance_lost hr
    (fun _ _ => hidle _) "i-1" (by simp [hlaunched])⟩

/-- A sandbox is created in a fleet whose client factory fails. -/
def clientFails : List (Label Op Choice) :=
  [.call (.create .start), .go 1 1, .run 1 (.order []), .go 1 4, .run 1 .error, .go 1 2]

/-- The call has returned and the loop waits; the instance is nobody's. -/
theorem failed_client_orphans_instance :
    ∃ h c, Reach (machine apiEntry) (ledgerMonitor fun _ _ _ _ => true) ⟨[], []⟩
        (initialConfig defaultFleetConfig [] fun _ => {}) h c ∧
      c.threads = [[.loop .wait], []] ∧ h.launched = ["i-1"] ∧ c.state.instances = [] ∧
      h.terminateCalled = [] :=
  Machine.follow_to (defaultChoice [0]) clientFails

end FlexAgentRuntime.Fleet
