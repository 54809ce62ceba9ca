import Mathlib.Algebra.Order.Ring.Int
import Mathlib.Data.List.Perm.Basic
import Mathlib.Tactic.Basic

/-!
Interleaving machines: threads that share one state and take turns executing
atomic actions.

A thread is the stack of the actions it still has to execute, next one first.
Executing an action replaces the shared state, puts further actions in front of
the thread's own stack (the body of the function that was called) and may start
new threads. An action that cannot be executed in the current state blocks its
thread. What the environment decides (the branch of a `select`, the answer of
an outside service, the order of a map) is the choice handed to the action.

A `Monitor` watches a run without influencing it: it keeps a history variable
and says which steps meet a condition. `Reach` is reachability by the steps
that do. The free monitor meets every step.
-/

namespace Interleaving

open List

/-- What executing one action does: the new shared state, the actions put in
front of the rest of the thread, and the threads started. -/
structure Outcome (σ α : Type) where
  state : σ
  more : List α
  spawn : List (List α)

/-- `exec x a s` executes `a` in `s` with the environment's choice `x`; `none`
means that it blocks. `entry s a` says that the environment may start a thread
with `a`. -/
structure Machine (σ α χ : Type) where
  exec : χ → α → σ → Option (Outcome σ α)
  entry : σ → α → Bool

structure Config (σ α : Type) where
  state : σ
  threads : List (List α)

variable {σ α χ γ β : Type}

theorem mem_concat {l : List α} : a ∈ l ++ [b] ↔ a ∈ l ∨ a = b := by
  simp

theorem forall_mem_concat {l : List α} {p : α → Prop} :
    (∀ a ∈ l ++ [b], p a) ↔ (∀ a ∈ l, p a) ∧ p b := by
  simp [or_imp, forall_and]

theorem mem_map_concat {l : List β} {f : β → α} (h : a ∈ l.map f ++ [b]) :
    (∃ x ∈ l, a = f x) ∨ a = b := by
  simpa [eq_comm] using h

/-- What an entry of a table and the one in its place have in common stays. -/
theorem of_update [DecidableEq α] (P : β → Prop) {g : α → β} {a a' : α} {v : β}
    (h : P (Function.update g a v a')) : a' = a ∧ P v ∨ a' ≠ a ∧ P (g a') := by
  rcases eq_or_ne a' a with rfl | hne
  · exact .inl ⟨rfl, by rwa [Function.update_self] at h⟩
  · exact .inr ⟨hne, by rwa [Function.update_of_ne hne] at h⟩

theorem update_keeps [DecidableEq α] (P : β → Prop) {g : α → β} {a a' : α} {v : β}
    (hg : P (g a')) (hv : a' = a → P v) : P (Function.update g a v a') := by
  rcases eq_or_ne a' a with rfl | hne
  · rw [Function.update_self]
    exact hv rfl
  · rwa [Function.update_of_ne hne]

theorem update_proj [DecidableEq α] (π : β → γ) {g : α → β} {a : α} {v : β} (h : π v = π (g a))
    (a' : α) : π (Function.update g a v a') = π (g a') :=
  update_keeps (π · = π (g a')) rfl fun heq => heq ▸ h

/-- The environment starts a thread that has only `a` to do. -/
def Config.call (c : Config σ α) (a : α) : Config σ α :=
  ⟨c.state, c.threads ++ [[a]]⟩

/-- Thread `i`, whose stack below the executed action is `rest`, takes a step. -/
def Config.advance (c : Config σ α) (i : Nat) (rest : List α) (o : Outcome σ α) : Config σ α :=
  ⟨o.state, c.threads.set i (o.more ++ rest) ++ o.spawn⟩

/-- Thread `i` executes `a` next and has `rest` to do after it. -/
abbrev Config.At (c : Config σ α) (i : Nat) (a : α) (rest : List α) : Prop :=
  c.threads[i]? = some (a :: rest)

/-- A history variable and a condition on steps. `noteCall` and `note` update
the history when a thread is started and when an action is executed; both see
the configuration before the step. -/
structure Monitor (σ α χ γ : Type) where
  noteCall : γ → Config σ α → α → γ
  note : γ → Config σ α → α → χ → γ
  meets : γ → Config σ α → α → χ → Bool

/-- Records nothing and lets every step pass. -/
def Monitor.free : Monitor σ α χ Unit := ⟨fun _ _ _ => (), fun _ _ _ _ => (), fun _ _ _ _ => true⟩

/-- No history, only a condition on steps. -/
def Monitor.when (meets : Config σ α → α → χ → Bool) : Monitor σ α χ Unit :=
  ⟨fun _ _ _ => (), fun _ _ _ _ => (), fun _ c a x => meets c a x⟩

/-- Configurations with their history, reachable from `(h₀, c₀)` by steps that
meet the monitor's condition. -/
inductive Reach (M : Machine σ α χ) (N : Monitor σ α χ γ) (h₀ : γ) (c₀ : Config σ α) :
    γ → Config σ α → Prop where
  | start : Reach M N h₀ c₀ h₀ c₀
  | call {h c} (a : α) : Reach M N h₀ c₀ h c → M.entry c.state a = true →
      Reach M N h₀ c₀ (N.noteCall h c a) (c.call a)
  | step {h c} (i : Nat) (a : α) (rest : List α) (x : χ) (o : Outcome σ α) :
      Reach M N h₀ c₀ h c → c.threads[i]? = some (a :: rest) →
      M.exec x a c.state = some o → N.meets h c a x = true →
      Reach M N h₀ c₀ (N.note h c a x) (c.advance i rest o)

variable {c c₀ : Config σ α} {i : Nat} {a b : α} {rest : List α} {p q : α → Bool}
  {o : Outcome σ α} {M : Machine σ α χ} {N : Monitor σ α χ γ} {h₀ h : γ}

theorem Reach.trans (h : Reach M N h₀ c₀ h₁ c₁) (h' : Reach M N h₁ c₁ h₂ c₂) :
    Reach M N h₀ c₀ h₂ c₂ := by
  induction h' with
  | start => exact h
  | call a _ he ih => exact Reach.call a ih he
  | step i a rest x o _ ht hx hm ih => exact Reach.step i a rest x o ih ht hx hm

/-- What holds at the start and is kept by every call and every step that meets
the condition holds in every reachable configuration. -/
theorem Reach.invariant (I : γ → Config σ α → Prop) (hr : Reach M N h₀ c₀ h c) (hstart : I h₀ c₀)
    (hcall : ∀ h c a, I h c → M.entry c.state a = true → I (N.noteCall h c a) (c.call a))
    (hstep : ∀ h c i a rest x o, I h c → c.At i a rest → M.exec x a c.state = some o →
      N.meets h c a x = true → I (N.note h c a x) (c.advance i rest o)) : I h c := by
  induction hr with
  | start => exact hstart
  | call a _ he ih => exact hcall _ _ a ih he
  | step i a rest x o _ ht hx hm ih => exact hstep _ _ i a rest x o ih ht hx hm

/-- The same when the steps may use that the configuration they start from is
reachable, and with it every invariant proved before. -/
theorem Reach.invariant_of_reach (I : γ → Config σ α → Prop) (hr : Reach M N h₀ c₀ h c)
    (hstart : I h₀ c₀)
    (hcall : ∀ h c a, Reach M N h₀ c₀ h c → I h c → M.entry c.state a = true →
      I (N.noteCall h c a) (c.call a))
    (hstep : ∀ h c i a rest x o, Reach M N h₀ c₀ h c → I h c → c.At i a rest →
      M.exec x a c.state = some o → N.meets h c a x = true →
      I (N.note h c a x) (c.advance i rest o)) : I h c := by
  induction hr with
  | start => exact hstart
  | call a hr he ih => exact hcall _ _ a hr ih he
  | step i a rest x o hr ht hx hm ih => exact hstep _ _ i a rest x o hr ih ht hx hm

/-- A run seen with less history, under a weaker condition and with more entries
is a run: what is proved about the coarser monitor holds for the finer one. -/
theorem Reach.project {δ : Type} {M' : Machine σ α χ} {N' : Monitor σ α χ δ} (f : γ → δ)
    (hr : Reach M N h₀ c₀ h c)
    (hmeets : ∀ h c a x, N.meets h c a x = true → N'.meets (f h) c a x = true)
    (hentry : ∀ s a, M.entry s a = true → M'.entry s a = true := by exact fun _ _ he => he)
    (hexec : M.exec = M'.exec := by rfl)
    (hcall : ∀ h c a, f (N.noteCall h c a) = N'.noteCall (f h) c a := by exact fun _ _ _ => rfl)
    (hnote : ∀ h c a x, f (N.note h c a x) = N'.note (f h) c a x := by exact fun _ _ _ _ => rfl) :
    Reach M' N' (f h₀) c₀ (f h) c := by
  induction hr with
  | start => exact Reach.start
  | call a _ he ih =>
    rw [hcall]
    exact Reach.call a ih (hentry _ _ he)
  | step i a rest x o _ ht hx hm ih =>
    rw [hnote]
    exact Reach.step i a rest x o ih ht (hexec ▸ hx) (hmeets _ _ _ _ hm)

/-! ## Schedules -/

/-- An entry of a schedule: a call, one step of thread `i` with the choice `x`,
or `n` steps of thread `i` with the choices the schedule's default gives. -/
inductive Label (α χ : Type) where
  | call (a : α)
  | run (i : Nat) (x : χ)
  | go (i n : Nat)

def Machine.fire (M : Machine σ α χ) (N : Monitor σ α χ γ) (choose : α → χ) (i : Nat)
    (p : γ × Config σ α) : Option (γ × Config σ α) :=
  match p.2.threads[i]? with
  | some (a :: rest) =>
    match M.exec (choose a) a p.2.state with
    | some o =>
      if N.meets p.1 p.2 a (choose a) then
        some (N.note p.1 p.2 a (choose a), p.2.advance i rest o)
      else none
    | none => none
  | _ => none

def Machine.fireMany (M : Machine σ α χ) (N : Monitor σ α χ γ) (choose : α → χ) (i : Nat) :
    Nat → γ × Config σ α → Option (γ × Config σ α)
  | 0, p => some p
  | n + 1, p => (M.fire N choose i p).bind (M.fireMany N choose i n)

def Machine.next (M : Machine σ α χ) (N : Monitor σ α χ γ) (choose : α → χ)
    (p : γ × Config σ α) : Label α χ → Option (γ × Config σ α)
  | .call a => if M.entry p.2.state a then some (N.noteCall p.1 p.2 a, p.2.call a) else none
  | .run i x => M.fire N (fun _ => x) i p
  | .go i n => M.fireMany N choose i n p

/-- Follow a schedule; `none` as soon as a label is not possible or does not
meet the condition. -/
def Machine.follow (M : Machine σ α χ) (N : Monitor σ α χ γ) (choose : α → χ) :
    List (Label α χ) → γ × Config σ α → Option (γ × Config σ α)
  | [], p => some p
  | l :: ls, p => (M.next N choose p l).bind (M.follow N choose ls)

section Schedules

variable {choose : α → χ} {p q : γ × Config σ α}

theorem Machine.fire_reach (hr : Reach M N h₀ c₀ p.1 p.2) (h : M.fire N choose i p = some q) :
    Reach M N h₀ c₀ q.1 q.2 := by
  unfold Machine.fire at h
  split at h
  · rename_i ht
    split at h
    · rename_i hx
      split at h
      · cases h
        exact Reach.step _ _ _ _ _ hr ht hx ‹_›
      · cases h
    · cases h
  · cases h

theorem Machine.fireMany_reach (hr : Reach M N h₀ c₀ p.1 p.2)
    (h : M.fireMany N choose i n p = some q) : Reach M N h₀ c₀ q.1 q.2 := by
  induction n generalizing p with
  | zero =>
    cases h
    exact hr
  | succ n ih =>
    obtain ⟨p', hp', hq⟩ := Option.bind_eq_some_iff.mp h
    exact ih (Machine.fire_reach hr hp') hq

theorem Machine.next_reach (hr : Reach M N h₀ c₀ p.1 p.2) (h : M.next N choose p l = some q) :
    Reach M N h₀ c₀ q.1 q.2 := by
  cases l with
  | call a =>
    simp only [Machine.next] at h
    split at h
    · cases h
      exact Reach.call _ hr ‹_›
    · cases h
  | run i x => exact Machine.fire_reach hr h
  | go i n => exact Machine.fireMany_reach hr h

theorem Machine.follow_reach (ls : List (Label α χ)) (hr : Reach M N h₀ c₀ p.1 p.2)
    (h : M.follow N choose ls p = some q) : Reach M N h₀ c₀ q.1 q.2 := by
  induction ls generalizing p with
  | nil =>
    cases h
    exact hr
  | cons l ls ih =>
    obtain ⟨p', hp', hq⟩ := Option.bind_eq_some_iff.mp h
    exact ih (Machine.next_reach hr hp') hq

end Schedules

/-- What holds after a schedule holds in a reachable configuration. The schedule is run by the
kernel. -/
theorem Machine.follow_to (choose : α → χ) (ls : List (Label α χ)) {P : γ → Config σ α → Prop}
    [∀ h c, Decidable (P h c)] (h : (M.follow N choose ls (h₀, c₀)).any
      (fun p => decide (P p.1 p.2)) = true := by decide +kernel) :
    ∃ h c, Reach M N h₀ c₀ h c ∧ P h c := by
  obtain ⟨q, hq, ht⟩ := (Option.any_eq_true _ _).mp h
  exact ⟨q.1, q.2, Machine.follow_reach ls Reach.start hq, of_decide_eq_true ht⟩

theorem Machine.follow_imp (choose : α → χ) (ls : List (Label α χ)) (P : γ → Config σ α → Prop)
    [∀ h c, Decidable (P h c)] {Q : γ → Config σ α → Prop}
    (hQ : ∀ h c, Reach M N h₀ c₀ h c → P h c → Q h c) (h : (M.follow N choose ls (h₀, c₀)).any
      (fun p => decide (P p.1 p.2)) = true := by decide +kernel) :
    ∃ h c, Reach M N h₀ c₀ h c ∧ Q h c := by
  obtain ⟨h, c, hr, hP⟩ := Machine.follow_to choose ls h
  exact ⟨h, c, hr, hQ h c hr hP⟩

theorem Machine.follow_then (M : Machine σ α χ) (N : Monitor σ α χ γ) (choose : α → χ) (h₀ : γ)
    (c₀ : Config σ α) (ls ls' : List (Label α χ))
    (P : γ → Config σ α → γ → Config σ α → Prop) [∀ h c h' c', Decidable (P h c h' c')]
    (h : (M.follow N choose ls (h₀, c₀)).any (fun p =>
      (M.follow N choose ls' p).any fun q => decide (P p.1 p.2 q.1 q.2)) = true := by
        decide +kernel) :
    ∃ h c h' c', Reach M N h₀ c₀ h c ∧ Reach M N h c h' c' ∧ P h c h' c' := by
  obtain ⟨p, hp, h⟩ := (Option.any_eq_true _ _).mp h
  obtain ⟨q, hq, ht⟩ := (Option.any_eq_true _ _).mp h
  exact ⟨p.1, p.2, q.1, q.2, Machine.follow_reach ls Reach.start hp,
    Machine.follow_reach ls' Reach.start hq, of_decide_eq_true ht⟩

instance decidableSome (o : Option β) (P : β → Prop) [DecidablePred P] :
    Decidable (∃ b, o = some b ∧ P b) :=
  inferInstanceAs (Decidable (∃ b ∈ o, P b))

instance decidableCons [DecidableEq α] (th : Option (List α)) (a : α) :
    Decidable (∃ rest, th = some (a :: rest)) :=
  decidable_of_iff (th.bind List.head? = some a) (by
    simp [Option.bind_eq_some_iff, head?_eq_some_iff])

section Unmonitored

variable {N : Monitor σ α χ Unit}

theorem Machine.follow_state (choose : α → χ) (ls : List (Label α χ)) {P : Config σ α → Prop}
    [DecidablePred P] (h : (M.follow N choose ls ((), c₀)).any (fun p => decide (P p.2)) = true :=
      by decide +kernel) : ∃ c, Reach M N () c₀ () c ∧ P c := by
  obtain ⟨_, c, hr, hP⟩ := Machine.follow_to choose ls (P := fun _ c => P c) h
  exact ⟨c, hr, hP⟩

theorem Machine.follow_state_imp (choose : α → χ) (ls : List (Label α χ)) (P : Config σ α → Prop)
    [DecidablePred P] {Q : Config σ α → Prop} (hQ : ∀ c, Reach M N () c₀ () c → P c → Q c)
    (h : (M.follow N choose ls ((), c₀)).any (fun p => decide (P p.2)) = true := by
      decide +kernel) : ∃ c, Reach M N () c₀ () c ∧ Q c := by
  obtain ⟨c, hr, hP⟩ := Machine.follow_state choose ls h
  exact ⟨c, hr, hQ c hr hP⟩

theorem Machine.follow_states (choose : α → χ) (ls ls' : List (Label α χ))
    {P : Config σ α → Config σ α → Prop} [∀ c c', Decidable (P c c')]
    (h : (M.follow N choose ls ((), c₀)).any (fun p =>
      (M.follow N choose ls' p).any fun q => decide (P p.2 q.2)) = true := by decide +kernel) :
    ∃ c c', Reach M N () c₀ () c ∧ Reach M N () c () c' ∧ P c c' := by
  obtain ⟨_, c, _, c', hr, hr', hP⟩ :=
    M.follow_then N choose () c₀ ls ls' (fun _ c _ c' => P c c') h
  exact ⟨c, c', hr, hr', hP⟩

end Unmonitored

/-! ## Pending actions -/

theorem sum_map_set [AddCommMonoid γ] (f : β → γ) (l : List β) (i : Nat) (x y : β)
    (h : l[i]? = some x) : ((l.set i y).map f).sum + f x = (l.map f).sum + f y := by
  induction l generalizing i with
  | nil => simp at h
  | cons z l ih =>
    cases i with
    | zero =>
      simp only [List.getElem?_cons_zero, Option.some.injEq] at h
      subst h
      simp [add_comm, add_left_comm]
    | succ i =>
      have := ih i (by simpa using h)
      simp only [set_cons_succ, map_cons, sum_cons, add_assoc, this]

/-- A bound on a count is only to be shown when there is something to count. -/
theorem countP_le_of_mem {l : List α} (h : ∀ b ∈ l, p b = true → l.countP p ≤ n) :
    l.countP p ≤ n := by
  by_contra hlt
  obtain ⟨b, hb, hpb⟩ := countP_pos_iff.mp (Nat.zero_lt_of_lt (Nat.lt_of_not_le hlt))
  exact hlt (h b hb hpb)

theorem sum_countP_eq_zero {l : List (List α)} (h : ∀ th ∈ l, ∀ b ∈ th, p b = false) :
    (l.map (List.countP p)).sum = 0 := by
  rw [← countP_flatten, countP_eq_zero]
  simpa using fun b th hth => h th hth b

namespace Config

/-- `a` is still to be executed by some thread. -/
def Pend (c : Config σ α) (a : α) : Prop := ∃ th ∈ c.threads, a ∈ th

instance [DecidableEq α] (c : Config σ α) (a : α) : Decidable (c.Pend a) :=
  inferInstanceAs (Decidable (∃ th ∈ c.threads, a ∈ th))

/-- The number of actions satisfying `p` that are still to be executed. -/
def pending (p : α → Bool) (c : Config σ α) : Nat := (c.threads.map (List.countP p)).sum

theorem advance_state : (c.advance i rest o).state = o.state := rfl

theorem mem_threads_advance (h : th ∈ (c.advance i rest o).threads) :
    th ∈ c.threads ∨ th = o.more ++ rest ∨ th ∈ o.spawn := by
  rcases mem_append.mp h with h | h
  · rcases mem_or_eq_of_mem_set h with h | h
    · exact .inl h
    · exact .inr (.inl h)
  · exact .inr (.inr h)

theorem pend_call : (c.call a).Pend b ↔ c.Pend b ∨ b = a := by
  simp [Pend, call, or_and_right, exists_or]

theorem forall_pend_singleton {P : α → Prop} {s : σ} (h : P a) :
    ∀ b, Pend ⟨s, [[a]]⟩ b → P b := by
  rintro b ⟨th, hth, hb⟩
  cases mem_singleton.mp hth
  cases mem_singleton.mp hb
  exact h

theorem forall_pend_call {P : α → Prop} (h : ∀ b, c.Pend b → P b) (ha : P a) :
    ∀ b, (c.call a).Pend b → P b := by
  intro b hb
  rcases pend_call.mp hb with hb | rfl
  · exact h b hb
  · exact ha

theorem not_pend_nil {s : σ} : ¬ (⟨s, []⟩ : Config σ α).Pend a := by
  rintro ⟨th, hth, -⟩
  cases hth

/-- Where a pending action can come from. -/
theorem Pend.of_advance (ht : c.At i a rest) (h : (c.advance i rest o).Pend b) :
    c.Pend b ∨ b ∈ o.more ∨ ∃ th ∈ o.spawn, b ∈ th := by
  obtain ⟨th, hth, hb⟩ := h
  rcases mem_threads_advance hth with h | rfl | h
  · exact .inl ⟨th, h, hb⟩
  · rcases mem_append.mp hb with hb | hb
    · exact .inr (.inl hb)
    · exact .inl ⟨_, mem_of_getElem? ht, mem_cons_of_mem _ hb⟩
  · exact .inr (.inr ⟨th, h, hb⟩)

theorem getElem?_advance_cases (hspawn : o.spawn = [])
    (hth : (c.advance i rest o).threads[j]? = some th) :
    (j ≠ i ∧ c.threads[j]? = some th) ∨ (j = i ∧ th = o.more ++ rest) := by
  simp only [advance, hspawn, append_nil] at hth
  by_cases hj : j = i
  · subst hj
    rw [List.getElem?_set_self'] at hth
    obtain ⟨_, -, rfl⟩ := Option.map_eq_some_iff.mp hth
    exact .inr ⟨rfl, rfl⟩
  · rw [List.getElem?_set_ne (Ne.symm hj)] at hth
    exact .inl ⟨hj, hth⟩

theorem Pend.of_advance_nil (ht : c.At i a rest) (hspawn : o.spawn = [])
    (h : (c.advance i rest o).Pend b) : c.Pend b ∨ b ∈ o.more := by
  simpa [hspawn] using h.of_advance ht

theorem Pend.advance (ht : c.At i a rest) (hb : c.Pend b) (hne : b ≠ a) :
    (c.advance i rest o).Pend b := by
  obtain ⟨th, hth, hb⟩ := hb
  obtain ⟨j, hj⟩ := mem_iff_getElem?.mp hth
  by_cases hij : i = j
  · subst hij
    rw [ht] at hj
    cases hj
    have hrest : b ∈ rest := by
      rcases mem_cons.mp hb with hb | hb
      · exact absurd hb hne
      · exact hb
    have hlt := (List.getElem?_eq_some_iff.mp ht).1
    exact ⟨o.more ++ rest, mem_append_left _ (mem_set hlt _), mem_append_right _ hrest⟩
  · refine ⟨th, mem_append_left _ (mem_iff_getElem?.mpr ⟨j, ?_⟩), hb⟩
    rw [List.getElem?_set_ne hij, hj]

theorem pend_more (ht : c.At i a rest) (hb : b ∈ o.more) : (c.advance i rest o).Pend b := by
  have hlt := (List.getElem?_eq_some_iff.mp ht).1
  exact ⟨o.more ++ rest, mem_append_left _ (mem_set hlt _), mem_append_left _ hb⟩

theorem pend_head (ht : c.At i a rest) : c.Pend a :=
  ⟨_, mem_of_getElem? ht, mem_cons_self ..⟩

/-- The action that thread `i` executes next has property `p`. -/
def heads (c : Config σ α) (i : Nat) (p : α → Bool) : Bool :=
  (c.threads[i]?.bind List.head?).any p

theorem heads_iff : c.heads i p = true ↔ ∃ a rest, c.At i a rest ∧ p a = true := by
  unfold heads At
  rcases c.threads[i]? with _ | _ | ⟨a, rest⟩ <;> simp

/-- A property of pending actions survives a step when the step keeps it for the
actions already there and establishes it for the new ones. -/
theorem forall_pend_advance {P Q : α → Prop} (ht : c.At i a rest) (hP : ∀ b, c.Pend b → P b)
    (hold : ∀ b, P b → Q b) (hmore : ∀ b ∈ o.more, Q b) (hspawn : ∀ th ∈ o.spawn, ∀ b ∈ th, Q b) :
    ∀ b, (c.advance i rest o).Pend b → Q b := by
  intro b hb
  rcases hb.of_advance ht with h | h | ⟨th, h, hb⟩
  · exact hold b (hP b h)
  · exact hmore b h
  · exact hspawn th h b hb

@[simp] theorem pending_call (p : α → Bool) (c : Config σ α) (a : α) :
    (c.call a).pending p = c.pending p + if p a then 1 else 0 := by
  simp [pending, call, countP_cons]

theorem pending_call_other (h : p a = false) : (c.call a).pending p = c.pending p := by
  simp [h]

/-- The balance of a step: the executed action is gone, the new ones are added. -/
theorem pending_advance (p : α → Bool) (o : Outcome σ α) (ht : c.At i a rest) :
    (c.advance i rest o).pending p + (if p a then 1 else 0) =
      c.pending p + o.more.countP p + (o.spawn.map (List.countP p)).sum := by
  have h := sum_map_set (List.countP p) c.threads i (a :: rest) (o.more ++ rest) ht
  simp only [pending, advance, map_append, sum_append, countP_append,
    countP_cons] at h ⊢
  omega

theorem pending_advance_nil (p : α → Bool) (ht : c.At i a rest) (hspawn : o.spawn = []) :
    (c.advance i rest o).pending p + (if p a then 1 else 0) = c.pending p + o.more.countP p := by
  simpa [hspawn] using pending_advance p o ht

theorem pending_eq_countP (p : α → Bool) (c : Config σ α) :
    c.pending p = c.threads.flatten.countP p := countP_flatten.symm

theorem pending_pos : 0 < c.pending p ↔ ∃ a, c.Pend a ∧ p a = true := by
  rw [pending_eq_countP, countP_pos_iff]
  simp only [mem_flatten, Pend]

theorem pending_head (ht : c.At i a rest) (h : p a = true) : 0 < c.pending p :=
  pending_pos.mpr ⟨a, pend_head ht, h⟩

theorem pending_eq_zero : c.pending p = 0 ↔ ∀ a, c.Pend a → p a = false := by
  simp only [pending_eq_countP, countP_eq_zero, mem_flatten, Pend,
    Bool.not_eq_true]

theorem pending_none (h : ∀ a, c.Pend a → p a = true → False) : c.pending p = 0 :=
  pending_eq_zero.mpr fun a ha => Bool.eq_false_iff.mpr (h a ha)

theorem not_pend (hz : c.pending p = 0) (hp : p a = true) : ¬ c.Pend a := by
  intro ha
  rw [pending_eq_zero.mp hz a ha] at hp
  cases hp

theorem pending_mono (c : Config σ α) (h : ∀ a, p a = true → q a = true) :
    c.pending p ≤ c.pending q := by
  rw [pending_eq_countP, pending_eq_countP]
  exact countP_mono_left fun a _ => h a

theorem pending_two_threads (p : α → Bool) (hij : i ≠ j) (hi : c.threads[i]? = some th)
    (hj : c.threads[j]? = some th') : th.countP p + th'.countP p ≤ c.pending p := by
  have hj' : (c.threads.set i [])[j]? = some th' := by rwa [List.getElem?_set_ne hij]
  have h := sum_map_set (List.countP p) c.threads i th [] hi
  have h' := sum_map_set (List.countP p) (c.threads.set i []) j th' [] hj'
  simp only [countP_nil, Nat.add_zero] at h h'
  unfold pending
  omega

instance (c : Config σ α) : Decidable (∀ a, ¬ c.Pend a) :=
  decidable_of_iff (c.pending (fun _ => true) = 0) (by simp [pending_eq_zero])

theorem two_le_pending (ha : c.Pend a) (hb : c.Pend b) (hne : a ≠ b) (hpa : p a = true)
    (hpb : p b = true) : 2 ≤ c.pending p := by
  rw [pending_eq_countP, countP_eq_length_filter]
  have hnodup : [a, b].Nodup := by simp [hne]
  have hsub : [a, b] ⊆ c.threads.flatten.filter p := by
    intro y hy
    rcases mem_pair.mp hy with rfl | rfl
    · exact mem_filter.mpr ⟨mem_flatten.mpr ha, hpa⟩
    · exact mem_filter.mpr ⟨mem_flatten.mpr hb, hpb⟩
  exact (subperm_of_subset hnodup hsub).length_le

/-- When every value is pending at most once and belongs to `l`, there are no more
pending than `l` has elements. -/
theorem pending_isSome_le [DecidableEq β] (c : Config σ α) (f : α → Option β) {l : List β}
    (honce : ∀ y, c.pending (fun a => f a == some y) ≤ 1)
    (hmem : ∀ y, 0 < c.pending (fun a => f a == some y) → y ∈ l) :
    c.pending (fun a => (f a).isSome) ≤ l.length := by
  have hcount : ∀ y, (c.threads.flatten.filterMap f).count y =
      c.pending (fun a => f a == some y) := by
    intro y
    rw [pending_eq_countP, List.count, countP_filterMap]
    refine countP_congr fun a _ => ?_
    cases f a <;> simp
  have hnodup : (c.threads.flatten.filterMap f).Nodup :=
    nodup_iff_count.mpr fun y => hcount y ▸ honce y
  have hsub : c.threads.flatten.filterMap f ⊆ l := fun y hy =>
    hmem y (hcount y ▸ count_pos_iff.mpr hy)
  have hle := (subperm_of_subset hnodup hsub).length_le
  rwa [length_filterMap_eq_countP, ← pending_eq_countP] at hle

/-- Two kinds of actions that exclude each other, within a third. -/
theorem pending_add_le (c : Config σ α) (h : ∀ a, (p a).toNat + (q a).toNat ≤ (r a).toNat) :
    c.pending p + c.pending q ≤ c.pending r := by
  simp only [pending_eq_countP]
  induction c.threads.flatten with
  | nil => exact le_refl 0
  | cons a l ih =>
    have ha := h a
    simp only [countP_cons]
    revert ha
    cases p a <;> cases q a <;> cases r a <;> simp <;> omega

/-- A token: at most one `p`-action is pending, or it has been used up. A step
keeps that when a `p`-action leaves at most one or uses it up, and other actions
make one only where there was none. -/
theorem token_step (ht : c.At i a rest) (hone : c.pending p + used ≤ 1)
    (hspawn : ∀ th ∈ o.spawn, ∀ b ∈ th, p b = false)
    (hself : p a = true → o.more.countP p + used' ≤ 1) (hused : p a = false → used' = used)
    (hnew : p a = false → (∃ b ∈ o.more, p b = true) → c.pending p = 0 ∧ used = 0 ∧
      o.more.countP p ≤ 1) : (c.advance i rest o).pending p + used' ≤ 1 := by
  have hbal := pending_advance p o ht
  rw [sum_countP_eq_zero hspawn] at hbal
  cases hpa : p a with
  | true =>
    have hpos : 0 < c.pending p := pending_head ht hpa
    have := hself hpa
    simp only [hpa, if_true] at hbal
    omega
  | false =>
    simp only [hpa, Bool.false_eq_true, if_false] at hbal
    rw [hused hpa]
    by_cases hmore : ∃ b ∈ o.more, p b = true
    · obtain ⟨hnone, hu, hle⟩ := hnew hpa hmore
      omega
    · have hm : o.more.countP p = 0 := countP_eq_zero.mpr fun b hb hpb => hmore ⟨b, hb, hpb⟩
      omega

/-- A token that is never used up. -/
theorem unused_token_step (ht : c.At i a rest) (hone : c.pending p ≤ 1)
    (hspawn : ∀ th ∈ o.spawn, ∀ b ∈ th, p b = false) (hself : p a = true → o.more.countP p ≤ 1)
    (hnew : p a = false → (∃ b ∈ o.more, p b = true) → c.pending p = 0 ∧ o.more.countP p ≤ 1) :
    (c.advance i rest o).pending p ≤ 1 := by
  change _ + 0 ≤ 1
  exact token_step ht hone hspawn hself (fun _ => rfl) fun ha hb =>
    ⟨(hnew ha hb).1, rfl, (hnew ha hb).2⟩

theorem pending_advance_old (ht : c.At i a rest) (hmore : ∀ b ∈ o.more, p b = false)
    (hspawn : ∀ th ∈ o.spawn, ∀ b ∈ th, p b = false) :
    (c.advance i rest o).pending p + (if p a then 1 else 0) = c.pending p := by
  have hzero : o.more.countP p = 0 := countP_eq_zero.mpr (by simpa using hmore)
  simp only [pending_advance p o ht, hzero, sum_countP_eq_zero hspawn, Nat.add_zero]

/-- When the executed action is the only pending one of its kind, those of this kind
that are pending afterwards are new. -/
theorem Pend.new_of_pending_le_one (ht : c.At i a rest) (ha : p a = true)
    (hone : c.pending p ≤ 1) (hb : (c.advance i rest o).Pend b) (hpb : p b = true) :
    b ∈ o.more ∨ ∃ th ∈ o.spawn, b ∈ th := by
  classical
  by_contra hnot
  rcases hb.of_advance ht with hold | hnew
  · -- without new ones there were two of them before the step
    obtain rfl : a = b := by
      by_contra hne
      have := two_le_pending (pend_head ht) hold hne ha hpb
      omega
    simp only [not_or, not_exists, not_and] at hnot
    have hne (l : List α) (hl : a ∉ l) : ∀ y ∈ l, (p y && decide (y = a)) = false := by
      rintro y hy
      simp only [Bool.and_eq_false_iff, decide_eq_false_iff_not]
      exact .inr fun h => hl (h ▸ hy)
    have hbal := pending_advance_old ht (hne _ hnot.1) fun th hth => hne th (hnot.2 th hth)
    have hle := c.pending_mono (fun y (h : (p y && decide (y = a)) = true) => (Bool.and_eq_true_iff.mp h).1)
    have hpos : 0 < (c.advance i rest o).pending fun y => p y && decide (y = a) :=
      pending_pos.mpr ⟨a, hb, by simp [ha]⟩
    simp only [ha, decide_true, Bool.and_self, if_true] at hbal
    omega
  · exact hnot hnew

theorem pending_advance_le (ht : c.At i a rest) (hmore : ∀ b ∈ o.more, p b = false)
    (hspawn : ∀ th ∈ o.spawn, ∀ b ∈ th, p b = false) :
    (c.advance i rest o).pending p ≤ c.pending p :=
  Nat.le.intro (pending_advance_old ht hmore hspawn)

/-- Where the pending actions of a kind come from when no thread starts with one. -/
theorem pos_of_pending_advance (ht : c.At i a rest)
    (hspawn : ∀ th ∈ o.spawn, ∀ b ∈ th, p b = false) (h : 0 < (c.advance i rest o).pending p) :
    0 < c.pending p ∨ ∃ b ∈ o.more, p b = true := by
  obtain ⟨b, hb, hpb⟩ := pending_pos.mp h
  rcases hb.of_advance ht with hb | hb | ⟨th, hth, hb⟩
  · exact .inl (pending_pos.mpr ⟨b, hb, hpb⟩)
  · exact .inr ⟨b, hb, hpb⟩
  · exact absurd hpb (Bool.eq_false_iff.mp (hspawn th hth b hb))

/-- A kind of action of which none is pending and none is added. -/
theorem pending_advance_zero (ht : c.At i a rest) (h : c.pending p = 0)
    (hmore : ∀ b ∈ o.more, p b = true → False) (hspawn : ∀ th ∈ o.spawn, ∀ b ∈ th, p b = false) :
    (c.advance i rest o).pending p = 0 := by
  refine Nat.le_zero.mp (h ▸ pending_advance_le ht (fun b hb => ?_) hspawn)
  exact Bool.eq_false_iff.mpr (hmore b hb)

theorem pending_advance_none (ht : c.At i a rest) (hspawn : o.spawn = [])
    (h : c.pending p = 0) (hmore : ∀ b ∈ o.more, p b = true → False) :
    (c.advance i rest o).pending p = 0 :=
  pending_advance_zero ht h hmore (by simp [hspawn])

/-! ## Weights -/

/-- The sum of the weights of the actions that are still to be executed. -/
def weight (f : α → Int) (c : Config σ α) : Int := (c.threads.flatten.map f).sum

@[simp] theorem weight_call (f : α → Int) (c : Config σ α) (a : α) :
    (c.call a).weight f = c.weight f + f a := by
  simp [weight, call]

theorem weight_advance (f : α → Int) (ht : c.At i a rest) (hspawn : o.spawn = []) :
    (c.advance i rest o).weight f + f a = c.weight f + (o.more.map f).sum := by
  have h := sum_map_set (fun th => (th.map f).sum) c.threads i (a :: rest) (o.more ++ rest) ht
  simp only [weight, advance, hspawn, append_nil, map_append, map_flatten,
    sum_flatten, map_map, Function.comp_def, sum_append, map_cons, sum_cons] at h ⊢
  omega

/-- Weights that count one kind of action up and another one down. -/
theorem weight_eq_sub (c : Config σ α)
    (hf : ∀ a, f a = (if p a then 1 else 0) - (if q a then 1 else 0)) :
    c.weight f = (c.pending p : Int) - c.pending q := by
  rw [pending_eq_countP, pending_eq_countP, weight]
  induction c.threads.flatten with
  | nil => simp
  | cons a l ih =>
    simp only [map_cons, sum_cons, countP_cons, ih, hf a]
    split <;> split <;> push_cast <;> omega

end Config

end Interleaving
