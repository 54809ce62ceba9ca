import Mathlib.Data.List.Basic

/-!
Lists cut at marked elements: what stands before the first mark, and each mark
with what follows it up to the next one.
-/

namespace Segments

open List

variable {α β : Type*} {mark : α → Option β}

/-- The elements before the first mark, and every mark with the elements after it. -/
def split (mark : α → Option β) : List α → List α × List (β × List α)
  | [] => ([], [])
  | a :: as =>
    match mark a with
    | none => (a :: (split mark as).1, (split mark as).2)
    | some b => ([], (b, (split mark as).1) :: (split mark as).2)

/-- The last mark of a list. -/
def closest (mark : α → Option β) (as : List α) : Option β := (as.filterMap mark).getLast?

@[simp] theorem split_nil : split mark [] = ([], []) := rfl

theorem split_cons_none (h : mark a = none) (as : List α) :
    split mark (a :: as) = (a :: (split mark as).1, (split mark as).2) := by
  simp [split, h]

theorem split_cons_some (h : mark a = some b) (as : List α) :
    split mark (a :: as) = ([], (b, (split mark as).1) :: (split mark as).2) := by
  simp [split, h]

theorem split_append (h : ∀ a ∈ as, mark a = none) (bs : List α) :
    split mark (as ++ bs) = (as ++ (split mark bs).1, (split mark bs).2) := by
  induction as with
  | nil => rfl
  | cons a as ih =>
    have hrest := ih fun x hx => h x (mem_cons_of_mem a hx)
    rw [cons_append, split_cons_none (h a mem_cons_self), hrest, cons_append]

/-- A function that keeps the marks and fixes the other elements keeps the segments. -/
theorem split_map (hmark : ∀ a, mark (f a) = mark a) (hfix : ∀ a, mark a = none → f a = a)
    (as : List α) : split mark (as.map f) = split mark as := by
  induction as with
  | nil => rfl
  | cons a as ih =>
    cases h : mark a with
    | none =>
      rw [map_cons, hfix a h, split_cons_none h, split_cons_none h, ih]
    | some b =>
      rw [map_cons, split_cons_some ((hmark a).trans h), split_cons_some h, ih]

theorem split_fst (as : List α) :
    (split mark as).1 = as.takeWhile fun a => (mark a).isNone := by
  induction as with
  | nil => rfl
  | cons a as ih =>
    cases h : mark a with
    | none => simp [split_cons_none h, h, ih]
    | some b => simp [split_cons_some h, h]

/-- The places of an element in a list: the first one, and those in the rest. -/
theorem forall_cons_split {Q : List α → α → List α → Prop} :
    (∀ before x after, a :: as = before ++ x :: after → Q before x after) ↔
      Q [] a as ∧ ∀ before x after, as = before ++ x :: after → Q (a :: before) x after := by
  constructor
  · intro h
    exact ⟨h [] a as rfl, fun before x after has => h (a :: before) x after (by rw [has, cons_append])⟩
  · rintro ⟨hhead, htail⟩ before x after has
    cases before with
    | nil =>
      obtain ⟨rfl, rfl⟩ := List.cons.inj has
      exact hhead
    | cons y before =>
      obtain ⟨rfl, has'⟩ := List.cons.inj has
      exact htail before x after has'

/-- The segments are the marks with what follows them up to the next mark. -/
theorem forall_split_iff (mark : α → Option β) {P : β → List α → Prop} (as : List α) :
    (∀ s ∈ (split mark as).2, P s.1 s.2) ↔
      ∀ before a after, as = before ++ a :: after → ∀ b, mark a = some b →
        P b (after.takeWhile fun x => (mark x).isNone) := by
  induction as with
  | nil => simp
  | cons a as ih =>
    rw [forall_cons_split, ← ih]
    cases h : mark a with
    | none => simp [split_cons_none h]
    | some b => simp [split_cons_some h, split_fst]

/-- Every unmarked element stands before the first mark or in the segment of the
closest mark before it. -/
theorem forall_closest_iff (mark : α → Option β) {P : Option β → α → Prop} (last : Option β) (as : List α) :
    ((∀ a ∈ (split mark as).1, P last a) ∧ ∀ s ∈ (split mark as).2, ∀ a ∈ s.2, P (some s.1) a) ↔
      ∀ before a after, as = before ++ a :: after → mark a = none →
        P ((closest mark before).or last) a := by
  induction as generalizing last with
  | nil => simp
  | cons a as ih =>
    rw [forall_cons_split]
    cases h : mark a with
    | none =>
      have hclosest (before : List α) : closest mark (a :: before) = closest mark before := by
        simp [closest, h]
      simp only [hclosest, ← ih last, split_cons_none h]
      simp [closest, h, and_assoc]
    | some b =>
      -- from here on the mark just passed is the closest one
      have hclosest (before : List α) : (closest mark (a :: before)).or last =
          (closest mark before).or (some b) := by
        simp only [closest, filterMap_cons, h, List.getLast?_cons]
        cases (before.filterMap mark).getLast? <;> rfl
      simp only [hclosest, ← ih (some b), split_cons_some h]
      simp [h]

/-- What holds of every element on one side of a correspondence holds on the other,
when corresponding elements agree on it. -/
theorem forall_mem_iff_of_forall₂ {γ δ : Type*} {R : γ → δ → Prop} {P : γ → Prop} {Q : δ → Prop}
    {cs : List γ} {ds : List δ} (h : List.Forall₂ R cs ds) (hiff : ∀ c d, R c d → (P c ↔ Q d)) :
    (∀ c ∈ cs, P c) ↔ ∀ d ∈ ds, Q d := by
  induction h with
  | nil => simp
  | cons hr _ ih => rw [forall_mem_cons, forall_mem_cons, hiff _ _ hr, ih]

end Segments
