import Mathlib.Algebra.Order.BigOperators.Group.List
import FlexAgentRuntime.Agent.TurnExclusion

/-!
The part of a goroutine's stack that belongs to a loop.

* `RunStack`: a stack holds at most one loop, in one of five shapes, the deferred
  function at the bottom;
* `pending_body_le`: so there are no more loop bodies than live loops.
-/

namespace FlexAgentRuntime.AgentLoop

open Interleaving Config Ai List

/-! ## Stacks -/

def runOp : Op → Option (MsRef × Nat × RunOp)
  | .run m k op => some (m, k, op)
  | _ => none

/-- The actions of loops on a stack. -/
def runOps (th : List Op) : List (MsRef × Nat × RunOp) := th.filterMap runOp

/-- The loop itself: everything but the deferred function, and but `appendUserMessage`,
which has the rest of the loop below it. -/
def RunOp.body : RunOp → Bool
  | .appendUser _ | .deferred | .driverIdle => false
  | _ => true

theorem RunOp.looping_of_body {op : RunOp} (h : op.body = true) : op.looping = true := by
  cases op <;> first | rfl | cases h

inductive RunStack : List (MsRef × Nat × RunOp) → Prop where
  | none : RunStack []
  | idle {m k} : RunStack [(m, k, .driverIdle)]
  | deferred {m k} : RunStack [(m, k, .deferred)]
  | body {m k op} : op.body = true → RunStack [(m, k, op), (m, k, .deferred)]
  | user {m k prompt} :
      RunStack [(m, k, .appendUser prompt), (m, k, .turnBegin), (m, k, .deferred)]

/-- What a loop goes on with. -/
inductive RunOp.Leaves (m : MsRef) (k : Nat) : List (MsRef × Nat × RunOp) → Prop where
  | done : Leaves m k []
  | body {op} : op.body = true → Leaves m k [(m, k, op)]
  | user {prompt} : Leaves m k [(m, k, .appendUser prompt), (m, k, .turnBegin)]

theorem runOps_append (l l' : List Op) : runOps (l ++ l') = runOps l ++ runOps l' :=
  filterMap_append

theorem runOps_emitChange : runOps (emitChange m changed dst origin) = [] := by
  cases changed <;> rfl

theorem runOps_emits (m : MsRef) (events : List AgentEvent) :
    runOps (events.map fun e => .agent m (.emit e)) = [] := by
  simp [runOps, runOp]

theorem RunOp.Step.leaves {op : RunOp} (h : op.Step m k a a' more) (hb : op.body = true) :
    Leaves m k (runOps more) := by
  cases h with
  | userBlank | userLost | appendUser | deferred | driverIdle => cases hb
  | topPrompt => exact .user
  | idleRefused => exact .done
  | idle =>
    rw [runOps_emitChange]
    exact .done
  | streaming | toolPhase =>
    rw [runOps_append, runOps_emitChange]
    exact .body rfl
  | @appendToolResult _ _ _ _ _ terminal =>
    rw [runOps_append, runOps_emits]
    cases terminal <;> exact .body rfl
  | _ => exact .body rfl

theorem Step.runOps_more (h : Step x w op o) (hop : ∀ m k rop, op ≠ .run m k rop) :
    runOps o.more = [] := by
  rw [runOps, filterMap_eq_nil_iff]
  intro b hb
  cases b with
  | run m k rop =>
    obtain ⟨rop', rfl⟩ := (h.follows hb).run_origin
    exact absurd rfl (hop m k rop')
  | _ => rfl

theorem Step.runStack {o : Outcome World Op} (h : Step x w op o)
    (hst : RunStack (runOps (op :: rest))) : RunStack (runOps (o.more ++ rest)) := by
  by_cases hop : ∃ m k rop, op = .run m k rop
  · obtain ⟨m, k, rop, rfl⟩ := hop
    have hcons : runOps (.run m k rop :: rest) = (m, k, rop) :: runOps rest := rfl
    rw [hcons] at hst
    rw [runOps_append]
    cases h with
    | @run _ _ _ a' more hr =>
      have hs := RunOp.step_of_exec hr
      generalize runOps rest = below at hst
      cases hst with
      | idle => cases hs; exact .none
      | deferred => cases hs; exact .idle
      | body hb =>
        have hleaves := hs.leaves hb
        generalize runOps more = new at hleaves
        cases hleaves with
        | done => exact .deferred
        | body hb' => exact .body hb'
        | user => exact .user
      | user => cases hs <;> exact .body rfl
  · simp only [not_exists] at hop
    have hcons : runOps (op :: rest) = runOps rest := by
      cases op with
      | run m k rop => exact absurd rfl (hop m k rop)
      | _ => rfl
    rw [runOps_append, h.runOps_more hop, nil_append, ← hcons]
    exact hst

/-- Every goroutine's stack is well formed. -/
def Stacked (c : Config World Op) : Prop := ∀ th ∈ c.threads, RunStack (runOps th)

theorem Stacked.call (h : Stacked c) (he : startEntry c.state a = true) : Stacked (c.call a) := by
  intro th hth
  rcases mem_concat.mp hth with hth | rfl
  · exact h th hth
  · cases a with
    | run => cases he
    | _ => exact .none

theorem Stacked.step (h : Stacked c) (ht : c.At i a rest) (hs : Step x c.state a o) :
    Stacked (c.advance i rest o) := by
  intro th hth
  rcases mem_threads_advance hth with hth | rfl | hth
  · exact h th hth
  · exact hs.runStack (h _ (mem_of_getElem? ht))
  · obtain ⟨m, caller, k, prompt, -, rfl⟩ := hs.spawn_origin hth
    exact .body rfl

/-- The body of a loop of session `m`. -/
def loopBody (m : MsRef) : Op → Bool
  | .run m' _ op => m' == m && op.body
  | _ => false

theorem countP_runOps (p : MsRef × Nat × RunOp → Bool) (th : List Op) :
    (runOps th).countP p = th.countP fun b => ((runOp b).map p).getD false :=
  countP_filterMap

theorem pending_body_le (h : Stacked c) (m : MsRef) : c.pending (loopBody m) ≤ liveRuns c m := by
  have hbody : loopBody m = fun b => ((runOp b).map fun r => r.1 == m && r.2.2.body).getD false := by
    funext b
    cases b <;> rfl
  have hlive : liveRun m =
      fun b => ((runOp b).map fun r => r.1 == m && !r.2.2.looping).getD false := by
    funext b
    cases b <;> rfl
  refine List.sum_le_sum fun th hth => ?_
  rw [hbody, hlive, ← countP_runOps, ← countP_runOps]
  have hst := h th hth
  generalize runOps th = ops at hst
  cases hst with
  | none => exact le_refl _
  | @idle m' | @deferred m' | @user m' =>
    simp only [countP_cons, countP_nil]
    cases m' == m <;> simp [RunOp.body, RunOp.looping]
  | @body m' k op hb =>
    have hl : op.looping = true := RunOp.looping_of_body hb
    simp only [countP_cons, countP_nil, hb, hl]
    cases m' == m <;> simp [RunOp.body, RunOp.looping]

end FlexAgentRuntime.AgentLoop
