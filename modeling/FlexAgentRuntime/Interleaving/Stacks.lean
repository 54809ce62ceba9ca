import FlexAgentRuntime.Interleaving.Machine

/-!
Order on the stacks of an interleaving machine: actions that have an action of another
kind after them on the same stack.

`Config.not_pend_of_followedBy` is the rule: when such a second action is unique and a
stack has come to it, none of the first kind is left.
-/

namespace Interleaving

open List

variable {σ α : Type} {p q : α → Bool}

/-- Every `p`-action of the stack has a `q`-action after it. -/
def FollowedBy (p q : α → Bool) : List α → Prop
  | [] => True
  | a :: l => (p a = true → ∃ b ∈ l, q b = true) ∧ FollowedBy p q l

theorem FollowedBy.of_none (h : ∀ a ∈ l, p a = false) : FollowedBy p q l := by
  induction l with
  | nil => trivial
  | cons a l ih =>
    refine ⟨fun ha => ?_, ih fun b hb => h b (mem_cons_of_mem a hb)⟩
    rw [h a mem_cons_self] at ha
    cases ha

theorem FollowedBy.append (h : FollowedBy p q l) (h' : FollowedBy p q l') :
    FollowedBy p q (l ++ l') := by
  induction l with
  | nil => exact h'
  | cons a l ih =>
    refine ⟨fun ha => ?_, ih h.2⟩
    obtain ⟨b, hb, hq⟩ := h.1 ha
    exact ⟨b, mem_append_left l' hb, hq⟩

theorem FollowedBy.append_of_exists (h : ∃ b ∈ l', q b = true) (h' : FollowedBy p q l') :
    FollowedBy p q (l ++ l') := by
  induction l with
  | nil => exact h'
  | cons a l ih =>
    obtain ⟨b, hb, hq⟩ := h
    exact ⟨fun _ => ⟨b, mem_append_right l hb, hq⟩, ih⟩

theorem FollowedBy.exists_of_mem (h : FollowedBy p q l) (ha : a ∈ l) (hp : p a = true) :
    ∃ b ∈ l, q b = true := by
  induction l with
  | nil => cases ha
  | cons c l ih =>
    rcases mem_cons.mp ha with rfl | ha
    · obtain ⟨b, hb, hq⟩ := h.1 hp
      exact ⟨b, mem_cons_of_mem _ hb, hq⟩
    · obtain ⟨b, hb, hq⟩ := ih h.2 ha
      exact ⟨b, mem_cons_of_mem _ hb, hq⟩

namespace Config

variable {c : Config σ α} {i : Nat} {a b : α} {rest : List α} {o : Outcome σ α}

/-- A property of stacks survives a step when the stepping thread keeps it and the new
threads have it. -/
theorem forall_threads_advance {P : List α → Prop} (h : ∀ th ∈ c.threads, P th)
    (hmore : P (o.more ++ rest)) (hspawn : ∀ th ∈ o.spawn, P th) :
    ∀ th ∈ (c.advance i rest o).threads, P th := by
  intro th hth
  rcases mem_threads_advance hth with hth | rfl | hth
  · exact h th hth
  · exact hmore
  · exact hspawn th hth

theorem countP_le_pending (p : α → Bool) (hi : c.threads[i]? = some th) :
    th.countP p ≤ c.pending p := by
  have h := sum_map_set (List.countP p) c.threads i th [] hi
  simp only [countP_nil, Nat.add_zero] at h
  unfold pending
  omega

/-- The only pending `q`-action is the one at the head of a stack, so the `p`-actions,
which are `q`-actions, are known. -/
theorem pending_of_le_one (ht : c.At i a rest) (hq : q a = true)
    (hone : c.pending q ≤ 1) (hpq : ∀ b, p b = true → q b = true) :
    c.pending p = if p a then 1 else 0 := by
  split
  · rename_i hp
    have hpos : 0 < c.pending p := pending_head ht hp
    have hle := c.pending_mono hpq
    omega
  · rename_i hp
    refine pending_none fun b hb hpb => ?_
    have hne : a ≠ b := fun h => hp (h ▸ hpb)
    have := two_le_pending (pend_head ht) hb hne hq (hpq b hpb)
    omega

/-- When the only pending `q`-action is at the head of a stack, no `p`-action is left. -/
theorem not_pend_of_followedBy (hf : ∀ th ∈ c.threads, FollowedBy p q th)
    (hone : c.pending q ≤ 1) (ht : c.At i a rest) (hq : q a = true)
    (ha : p a = false) (hb : c.Pend b) : p b = false := by
  refine Bool.eq_false_iff.mpr fun hp => ?_
  obtain ⟨th, hth, hmem⟩ := hb
  obtain ⟨j, hj⟩ := mem_iff_getElem?.mp hth
  have hhead : 1 ≤ (a :: rest).countP q := countP_pos_iff.mpr ⟨a, mem_cons_self, hq⟩
  by_cases hij : i = j
  · subst hij
    rw [ht] at hj
    cases hj
    rcases mem_cons.mp hmem with rfl | hmem
    · rw [ha] at hp
      cases hp
    · have htail : 1 ≤ rest.countP q := countP_pos_iff.mpr ((hf _ hth).2.exists_of_mem hmem hp)
      have hle := countP_le_pending q ht
      rw [countP_cons, if_pos hq] at hle
      omega
  · have hother : 1 ≤ th.countP q := countP_pos_iff.mpr ((hf th hth).exists_of_mem hmem hp)
    have := pending_two_threads q hij ht hj
    omega

/-- Actions of a kind that the executed one is not stay pending. -/
theorem pending_pos_advance (ht : c.At i a rest) (ha : p a = false)
    (h : 0 < c.pending p) : 0 < (c.advance i rest o).pending p := by
  obtain ⟨b, hb, hp⟩ := pending_pos.mp h
  refine pending_pos.mpr ⟨b, hb.advance ht fun hba => ?_, hp⟩
  rw [hba, ha] at hp
  cases hp

end Config

/-- The order on stacks is kept when no action that has to be followed is started from
outside, and every step puts what has to follow behind it, or takes the place of an action
that was followed already. -/
theorem Reach.followedBy (hr : Reach M N h₀ c₀ h c) (hstart : ∀ th ∈ c₀.threads, FollowedBy p q th)
    (hentry : ∀ s a, M.entry s a = true → p a = false)
    (hstep : ∀ x a s o, M.exec x a s = some o → (p a = true ∨ FollowedBy p q o.more) ∧
      ∀ th ∈ o.spawn, FollowedBy p q th) : ∀ th ∈ c.threads, FollowedBy p q th := by
  refine hr.invariant (fun _ c => ∀ th ∈ c.threads, FollowedBy p q th) hstart ?_ ?_
  · intro _ c a hc he th hth
    rcases mem_concat.mp hth with hth | rfl
    · exact hc th hth
    · exact FollowedBy.of_none fun b hb => mem_singleton.mp hb ▸ hentry _ a he
  · intro _ c i a rest x o hc ht hx _
    obtain ⟨hmore, hspawn⟩ := hstep x a _ o hx
    obtain ⟨hhead, hrest⟩ := hc _ (mem_of_getElem? ht)
    refine Config.forall_threads_advance hc ?_ hspawn
    rcases hmore with ha | hmore
    · exact FollowedBy.append_of_exists (hhead ha) hrest
    · exact hmore.append hrest

/-! ## Running one thread -/

section RunLast

variable {χ γ : Type} {M : Machine σ α χ} {N : Monitor σ α χ γ} {h₀ h : γ} {c₀ c : Config σ α}
  {w w' : σ} {ths : List (List α)} {a : α} {rest more : List α} {x : χ}

theorem Reach.step_last (hr : Reach M N h₀ c₀ h ⟨w, ths ++ [a :: rest]⟩)
    (hx : M.exec x a w = some ⟨w', more, []⟩)
    (hm : N.meets h ⟨w, ths ++ [a :: rest]⟩ a x = true) :
    Reach M N h₀ c₀ (N.note h ⟨w, ths ++ [a :: rest]⟩ a x) ⟨w', ths ++ [more ++ rest]⟩ := by
  have hstep := Reach.step ths.length a rest x _ hr (by simp) hx hm
  simpa [Config.advance] using hstep

end RunLast

instance decidableNil (th : Option (List α)) : Decidable (th = some []) :=
  decidable_of_iff (th.map List.isEmpty = some true) (by cases th <;> simp)

end Interleaving
