import FlexAgentRuntime.Fleet.Steps

/-!
The floors of `phaseScaleDown` (`fleet/control_loop.go`).

The phase counts the entries of `f.instances` and the idle ones among them, and drains idle
instances while the counts stay above `MinInstances` and `WarmPoolTarget`. Its first count
includes what is Draining or Terminating already, such as an instance whose termination failed
in an earlier iteration.

* `scale_down_keeps_floors`: the floors are kept by a phase that starts with no instance
  Draining or Terminating;
* `stuck_instance_counted`: with one of these it drains the last instance that serves.
-/

namespace FlexAgentRuntime.Fleet

open List

/-- A run of `phaseScaleDown` from the state `w₀` up to the action `op`. The phase runs with no
concurrent callers, only time passes. -/
inductive ScaleDownRun (w₀ : World) : World → LoopOp → Prop where
  | start : ScaleDownRun w₀ w₀ .phaseScaleDown
  | step {w w' : World} {op op' : LoopOp} {x : Choice} : ScaleDownRun w₀ w op →
      op.exec x w = some (w', [.loop op']) → ScaleDownRun w₀ w' op'
  | tick {w : World} {op : LoopOp} (d : Time) : ScaleDownRun w₀ w op →
      ScaleDownRun w₀ { w with now := w.now + d } op

/-- Neither Draining nor Terminating. -/
def ManagedInstance.serving (v : ManagedInstance) : Bool :=
  v.state != .draining && v.state != .terminating

namespace World

def refs (w : World) : List MiRef := w.instances.map (·.2)

/-- How many instances of the map satisfy `p`. -/
def count (w : World) (p : ManagedInstance → Bool) : Nat := w.refs.countP fun mi => p (w.managed mi)

end World

open ManagedInstance (serving idle)

/-- What the counts of the phase stand for. -/
def Counted (w : World) : LoopOp → Prop
  | .phaseScaleDown => w.count serving = w.refs.length
  | .scaleDown total todo n _ => total ≤ w.count serving ∧
      n + todo.countP (fun mi => idle (w.managed mi)) ≤ w.count idle
  | .scaleDownDrain total n _ => total ≤ w.count serving ∧ n ≤ w.count idle
  | _ => False

variable {w₀ w w' : World} {op op' : LoopOp} {x : Choice} {more : List Op}

theorem count_setManaged (hl : w.refs.Nodup) (mi : MiRef) (v : ManagedInstance) :
    w.count p ≤ (w.setManaged mi v).count p + 1 := by
  unfold World.count
  change _ ≤ w.refs.countP _ + 1
  generalize w.refs = l at hl ⊢
  induction l with
  | nil => simp
  | cons j l ih =>
    obtain ⟨hj, hl⟩ := nodup_cons.mp hl
    by_cases hmi : j = mi
    · have hsame : l.countP (fun k => p ((w.setManaged mi v).managed k)) =
          l.countP fun k => p (w.managed k) := by
        refine countP_congr fun k hk => ?_
        have hne : k ≠ mi := fun he => hj (hmi.trans he.symm ▸ hk)
        simp [World.setManaged, hne]
      simp only [countP_cons, hsame]
      split <;> omega
    · have ih := ih hl
      have hsame : (w.setManaged mi v).managed j = w.managed j := by simp [World.setManaged, hmi]
      simp only [countP_cons, hsame]
      omega

theorem Counted.step (h : Counted w op) (hl : w.refs.Nodup) (hs : op.Step w w' [.loop op']) :
    Counted w' op' ∧ w'.refs = w.refs := by
  generalize hmore : [Op.loop op'] = more at hs
  cases hs with
  | reads hr =>
    refine ⟨?_, rfl⟩
    cases hr with
    | phaseScaleDown hperm =>
      cases hmore
      exact ⟨(hperm.length_eq.trans (by simpa [World.refs] using h.symm)).le,
        (Nat.zero_add _).trans_le (hperm.countP_eq _).le⟩
    | scaleDownIdle hidle =>
      cases hmore
      have hn := h.2
      simp only [countP_cons, hidle, if_true] at hn
      exact ⟨h.1, by omega⟩
    | scaleDownUsed hidle =>
      cases hmore
      have hn := h.2
      simp only [countP_cons, hidle] at hn
      exact ⟨h.1, hn⟩
    | scaleDownScanned | scaleDownSkip =>
      cases hmore
      exact h
    | scaleDownEnd => cases hmore
    | _ => cases h
  | @scaledDown total n mi =>
    cases hmore
    obtain ⟨h₁, h₂⟩ := h
    exact ⟨⟨Nat.sub_le_of_le_add (h₁.trans (count_setManaged hl mi _)),
      Nat.sub_le_of_le_add (h₂.trans (count_setManaged hl mi _))⟩, rfl⟩
  | _ => cases h

theorem ScaleDownRun.counted (hr : ScaleDownRun w₀ w op) (hl : w₀.refs.Nodup)
    (hfree : ∀ mi ∈ w₀.refs, (w₀.managed mi).serving = true) :
    Counted w op ∧ w.refs = w₀.refs := by
  induction hr with
  | start => exact ⟨countP_eq_length.mpr hfree, rfl⟩
  | step _ hx ih =>
    obtain ⟨hc, hrefs⟩ := ih
    obtain ⟨hc, hrefs'⟩ := hc.step (hrefs ▸ hl) (LoopOp.step_of_exec hx)
    exact ⟨hc, hrefs'.trans hrefs⟩
  | @tick w op d _ ih =>
    refine ⟨?_, ih.2⟩
    cases op <;> exact ih.1

/-- In every run of the phase from a state in which no managed instance is Draining or
Terminating, an action that changes an instance leaves `MinInstances` instances that are neither,
and `WarmPoolTarget` idle ones. -/
theorem scale_down_keeps_floors (hl : w₀.refs.Nodup)
    (hfree : ∀ mi ∈ w₀.refs, (w₀.managed mi).serving = true) (hr : ScaleDownRun w₀ w op)
    (hx : op.exec x w = some (w', more)) (hdrain : w'.managed ≠ w.managed) :
    w'.config.minInstances ≤ w'.count serving ∧ w'.config.warmPoolTarget ≤ w'.count idle := by
  obtain ⟨hc, hrefs⟩ := hr.counted hl hfree
  cases LoopOp.step_of_exec hx with
  | reads => exact absurd rfl hdrain
  | scaledDown hmin hwarm hidle =>
    obtain ⟨⟨h₁, h₂⟩, -⟩ := hc.step (hrefs ▸ hl) (.scaledDown hmin hwarm hidle)
    exact ⟨(Nat.le_sub_one_of_lt hmin).trans h₁, (Nat.le_sub_one_of_lt hwarm).trans h₂⟩
  | _ => cases hc

/-- Two instances, idle for longer than the cooldown; the first in state `state`. -/
def twoIdle (state : InstanceState) : World where
  config := { defaultFleetConfig with warmPoolTarget := 0 }
  now := 1000
  instances := [("a", 0), ("b", 1)]
  managed mi := { instanceID := if mi = 0 then "a" else "b", maxSessions := 10,
                  state := if mi = 0 then state else .ready, idleSince := some 0 }
  nManaged := 2
  pendingLaunches := 0
  closed := false
  cancelled := false
  loopDone := false
  roundRobin := 0
  cloud := ["a", "b"]
  hosts _ := {}

theorem twoIdle_run (state : InstanceState) (n : Nat) (candidates : List MiRef)
    (hn : (if state = .ready then (2, [0, 1]) else (1, [1])) = (n, candidates)) :
    ScaleDownRun (twoIdle state) (twoIdle state) (.scaleDownDrain 2 n candidates) := by
  cases state <;> cases hn
  all_goals
    exact (((ScaleDownRun.start.step (x := .order [0, 1]) rfl).step (x := .ok) rfl).step (x := .ok) rfl
      ).step (x := .ok) rfl

theorem scale_down_keeps_floors_two :
    ∃ w', LoopOp.exec .ok (.scaleDownDrain 2 2 [0, 1]) (twoIdle .ready) =
        some (w', [.loop (.scaleDownDrain 1 1 [1])]) ∧
      w'.config.minInstances ≤ w'.count serving ∧ w'.config.warmPoolTarget ≤ w'.count idle := by
  refine ⟨_, rfl, scale_down_keeps_floors (by decide) (by decide)
    (twoIdle_run .ready 2 [0, 1] rfl) (x := .ok) rfl fun h => ?_⟩
  have := congrArg ManagedInstance.state (congrFun h 0)
  revert this
  decide

/-- With one instance Terminating, the phase drains the other one. -/
theorem stuck_instance_counted :
    ∃ w', ScaleDownRun (twoIdle .terminating) (twoIdle .terminating) (.scaleDownDrain 2 1 [1]) ∧
      LoopOp.exec .ok (.scaleDownDrain 2 1 [1]) (twoIdle .terminating) =
        some (w', [.loop (.scaleDownDrain 1 0 [])]) ∧
      w'.count serving = 0 ∧ w'.config.minInstances = 1 :=
  ⟨_, twoIdle_run .terminating 1 [1] rfl, rfl, by decide, rfl⟩

end FlexAgentRuntime.Fleet
