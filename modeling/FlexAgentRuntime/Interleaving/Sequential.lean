import FlexAgentRuntime.Interleaving.Stacks

/-!
Sequential runs of an interleaving machine: one call after the other, each served to its
end before the next one comes in.

`Completes` is the big step of one thread that runs alone. It is deterministic once the
environment's choices are fixed, and `Sequential.reach` says that a sequential run is one of
the machine's runs.
-/

namespace Interleaving

variable {σ α χ : Type}

/-- The stack, alone, runs from the first state to the second one and executes the actions
of the last list. -/
inductive Completes (M : Machine σ α χ) (choose : α → χ) : σ → List α → σ → List α → Prop where
  | done {s} : Completes M choose s [] s []
  | step {s s' s'' a rest more trace} : M.exec (choose a) a s = some ⟨s', more, []⟩ →
      Completes M choose s' (more ++ rest) s'' trace →
      Completes M choose s (a :: rest) s'' (a :: trace)

/-- States between the calls of a sequential run whose calls all meet `P`. -/
inductive Sequential (M : Machine σ α χ) (choose : α → χ) (P : σ → α → Bool) (s₀ : σ) :
    σ → Prop where
  | start : Sequential M choose P s₀ s₀
  | call {s s' trace} (a : α) : Sequential M choose P s₀ s → P s a = true →
      Completes M choose s [a] s' trace → Sequential M choose P s₀ s'

variable {M : Machine σ α χ} {choose : α → χ} {P : σ → α → Bool} {s s₀ s' s'' : σ}
  {l l' tr tr' : List α}

theorem Completes.unique (h : Completes M choose s l s' tr) (h' : Completes M choose s l s'' tr') :
    s' = s'' ∧ tr = tr' := by
  induction h generalizing tr' with
  | done =>
    cases h'
    exact ⟨rfl, rfl⟩
  | step hx _ ih =>
    cases h' with
    | step hx' hrest =>
      rw [hx] at hx'
      cases hx'
      obtain ⟨rfl, rfl⟩ := ih hrest
      exact ⟨rfl, rfl⟩

/-- A thread with one action left goes on with what that action puts on its stack. -/
theorem Completes.alone (hx : M.exec (choose a) a s = some ⟨t, l, []⟩)
    (h : Completes M choose t l s' tr) : Completes M choose s [a] s' (a :: tr) := by
  apply Completes.step hx
  rw [List.append_nil]
  exact h

theorem Completes.append (h : Completes M choose s l s' tr)
    (h' : Completes M choose s' l' s'' tr') : Completes M choose s (l ++ l') s'' (tr ++ tr') := by
  induction h with
  | done => exact h'
  | step hx _ ih =>
    have hrest := ih h'
    rw [List.append_assoc] at hrest
    exact .step hx hrest

/-- A thread that runs alone is a thread of the machine that the others wait for. -/
theorem Completes.reach (h : Completes M choose s l s' tr)
    (hr : Reach M Monitor.free () c₀ () ⟨s, ths ++ [l]⟩) :
    Reach M Monitor.free () c₀ () ⟨s', ths ++ [[]]⟩ := by
  induction h with
  | done => exact hr
  | step hx _ ih => exact ih (Reach.step_last hr hx rfl)

theorem Sequential.reach (h : Sequential M choose P s₀ s)
    (hP : ∀ s a, P s a = true → M.entry s a = true) :
    ∃ ths, Reach M Monitor.free () ⟨s₀, []⟩ () ⟨s, ths⟩ := by
  induction h with
  | start => exact ⟨[], .start⟩
  | call a _ hp hc ih =>
    obtain ⟨ths, hr⟩ := ih
    exact ⟨ths ++ [[]], hc.reach (.call a hr (hP _ a hp))⟩

/-- What holds at the start and is kept by every call holds between the calls. -/
theorem Sequential.invariant (I : σ → Prop) (h : Sequential M choose P s₀ s) (hstart : I s₀)
    (hcall : ∀ s a s' tr, I s → P s a = true → Completes M choose s [a] s' tr → I s') : I s := by
  induction h with
  | start => exact hstart
  | call a _ hp hc ih => exact hcall _ a _ _ ih hp hc

/-! ## Evaluation -/

/-- Run a stack to its end, in at most `fuel` steps. -/
def Machine.complete (M : Machine σ α χ) (choose : α → χ) : Nat → σ → List α → Option (σ × List α)
  | _, s, [] => some (s, [])
  | 0, _, _ :: _ => none
  | fuel + 1, s, a :: rest =>
    match M.exec (choose a) a s with
    | some ⟨s', more, []⟩ => (M.complete choose fuel s' (more ++ rest)).map fun p => (p.1, a :: p.2)
    | _ => none

theorem Machine.complete_completes (h : M.complete choose fuel s l = some p) :
    Completes M choose s l p.1 p.2 := by
  induction fuel generalizing s l p with
  | zero =>
    cases l with
    | nil =>
      cases h
      exact .done
    | cons a rest => cases h
  | succ fuel ih =>
    cases l with
    | nil =>
      cases h
      exact .done
    | cons a rest =>
      unfold Machine.complete at h
      split at h
      · rename_i hx
        obtain ⟨q, hq, rfl⟩ := Option.map_eq_some_iff.mp h
        exact .step hx (ih hq)
      · cases h

/-- Serve the calls one after the other, each with `fuel`. -/
def Machine.serve (M : Machine σ α χ) (choose : α → χ) (P : σ → α → Bool) (fuel : Nat) :
    List α → σ → Option σ
  | [], s => some s
  | a :: as, s =>
    if P s a then (M.complete choose fuel s [a]).bind fun p => M.serve choose P fuel as p.1
    else none

theorem Machine.serve_sequential (hs : Sequential M choose P s₀ s)
    (h : M.serve choose P fuel as s = some s') : Sequential M choose P s₀ s' := by
  induction as generalizing s with
  | nil =>
    cases h
    exact hs
  | cons a as ih =>
    unfold Machine.serve at h
    split at h
    · rename_i hp
      obtain ⟨p, hc, hrest⟩ := Option.bind_eq_some_iff.mp h
      exact ih (.call a hs hp (Machine.complete_completes hc)) hrest
    · cases h

theorem Machine.serve_any (M : Machine σ α χ) (choose : α → χ) (P : σ → α → Bool) (fuel : Nat)
    (as : List α) (s₀ : σ) (test : σ → Bool)
    (h : (M.serve choose P fuel as s₀).any test = true) :
    ∃ s, Sequential M choose P s₀ s ∧ test s = true := by
  obtain ⟨s, hs, ht⟩ := Option.any_eq_true _ _ |>.mp h
  exact ⟨s, Machine.serve_sequential .start hs, ht⟩

end Interleaving
