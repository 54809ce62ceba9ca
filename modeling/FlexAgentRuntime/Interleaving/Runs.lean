import Mathlib.Logic.Function.Basic

/-!
Runs of a system whose actions are all visible in its state: the parties that take them are
entries of the state, and any of them may act next.
-/

namespace Interleaving

variable {σ α : Type} {exec : α → σ → Option σ} {meets : α → σ → Bool} {s₀ s : σ}

/-- The states that are reached from `s₀` by actions that meet the condition; `exec` is `none`
where an action is not possible. -/
inductive Runs (exec : α → σ → Option σ) (meets : α → σ → Bool) (s₀ : σ) : σ → Prop where
  | start : Runs exec meets s₀ s₀
  | step {s s' : σ} (a : α) : Runs exec meets s₀ s → meets a s = true → exec a s = some s' →
      Runs exec meets s₀ s'

theorem Runs.invariant (I : σ → Prop) (hr : Runs exec meets s₀ s) (hstart : I s₀)
    (hstep : ∀ a s s', I s → meets a s = true → exec a s = some s' → I s') : I s := by
  induction hr with
  | start => exact hstart
  | step a _ hm hx ih => exact hstep a _ _ ih hm hx

/-- Take the actions in turn; `none` if one is not possible or does not meet the condition. -/
def follow (exec : α → σ → Option σ) (meets : α → σ → Bool) : List α → σ → Option σ
  | [], s => some s
  | a :: as, s => if meets a s then (exec a s).bind (follow exec meets as) else none

theorem Runs.follow {s' : σ} (as : List α) (hr : Runs exec meets s₀ s)
    (h : follow exec meets as s = some s') : Runs exec meets s₀ s' := by
  induction as generalizing s with
  | nil =>
    cases h
    exact hr
  | cons a as ih =>
    unfold Interleaving.follow at h
    split at h
    · obtain ⟨t, ht, hs'⟩ := Option.bind_eq_some_iff.mp h
      exact ih (hr.step a ‹_› ht) hs'
    · cases h

theorem Runs.exists_of_follow (as : List α) {P : σ → Prop} [DecidablePred P]
    (h : (Interleaving.follow exec meets as s₀).any (fun s => decide (P s)) = true := by
      decide +kernel) : ∃ s, Runs exec meets s₀ s ∧ P s := by
  obtain ⟨s, hs, hP⟩ := (Option.any_eq_true _ _).mp h
  exact ⟨s, Runs.start.follow as hs, of_decide_eq_true hP⟩

theorem Runs.exists_and_of_follow (as : List α) {P Q : σ → Prop} [DecidablePred P]
    (hQ : ∀ s, Runs exec meets s₀ s → P s → Q s)
    (h : (Interleaving.follow exec meets as s₀).any (fun s => decide (P s)) = true := by
      decide +kernel) : ∃ s, Runs exec meets s₀ s ∧ P s ∧ Q s := by
  obtain ⟨s, hr, hP⟩ := Runs.exists_of_follow as h
  exact ⟨s, hr, hP, hQ s hr hP⟩

end Interleaving
