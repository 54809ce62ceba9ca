import Mathlib.Tactic.Common

/-!
Slash-separated paths, treated lexically: `Clean`, `Join` and `Rel` of Go's
`path/filepath` on Unix.

`parse` reads the elements of a path from left to right and keeps them on a stack: empty
elements and `.` are dropped, `..` takes back the element before it. `Kept` says which
stacks come out of that; for those, writing the path and reading it again changes nothing
(`parse_render`), and an ordinary name that is joined to the path is its last element
(`parse_join`).

Hierarchical names are lists of elements ordered by prefix; two of them are `Apart` when
neither contains the other.
-/

namespace SlashPath

open List

/-- A path that has been read: its elements in order. -/
structure Path where
  rooted : Bool
  parts : List (List Char)
  deriving DecidableEq, Repr

def dot : List Char := ['.']
def dotDot : List Char := ['.', '.']

/-- The elements kept, innermost first, after the element `part`. -/
def push (rooted : Bool) (kept : List (List Char)) (part : List Char) : List (List Char) :=
  if part = [] ∨ part = dot then kept
  else if part = dotDot then
    match kept with
    | [] => if rooted then [] else [dotDot]
    | top :: below => if top = dotDot then dotDot :: top :: below else below
  else part :: kept

def parse (cs : List Char) : Path :=
  ⟨cs.head? == some '/', ((cs.splitOn '/').foldl (push (cs.head? == some '/')) []).reverse⟩

def Path.render (p : Path) : List Char :=
  if p.rooted then '/' :: ['/'].intercalate p.parts
  else if p.parts = [] then dot
  else ['/'].intercalate p.parts

def clean (cs : List Char) : List Char := (parse cs).render

/-- `filepath.Join` of two elements; empty ones are ignored. -/
def join (a b : List Char) : List Char :=
  if a = [] then (if b = [] then [] else clean b)
  else if b = [] then clean a
  else clean (a ++ '/' :: b)

/-- What is left of two lists behind their common beginning. -/
def strip : List (List Char) → List (List Char) → List (List Char) × List (List Char)
  | a :: as, b :: bs => if a = b then strip as bs else (a :: as, b :: bs)
  | as, bs => (as, bs)

/-- The elements that are written. -/
def Path.words (p : Path) : List (List Char) :=
  if !p.rooted && p.parts.isEmpty then [dot] else p.parts

/-- `filepath.Rel`; `none` is its error. -/
def rel (base targ : List Char) : Option (List Char) :=
  let b := parse base
  let t := parse targ
  if t = b then some dot
  else if b.rooted ≠ t.rooted then none
  else
    match strip b.parts t.words with
    | ([], ts) => some (['/'].intercalate ts)
    | (bs, []) => some (['/'].intercalate (bs.map fun _ => dotDot))
    | (b :: bs, ts) =>
      if b = dotDot then none
      else some (['/'].intercalate ((b :: bs).map (fun _ => dotDot) ++ ts))

/-! ## The stack -/

/-- A name that stands for itself. -/
structure Plain (part : List Char) : Prop where
  ne_nil : part ≠ []
  ne_dot : part ≠ dot
  ne_dotDot : part ≠ dotDot
  no_slash : '/' ∉ part

/-- The stacks that `parse` builds: names above some `..`, which only a path that is not
rooted has. -/
inductive Kept (rooted : Bool) : List (List Char) → Prop where
  | nil : Kept rooted []
  | up {kept} : rooted = false → (∀ part ∈ kept, part = dotDot) → Kept rooted (dotDot :: kept)
  | name {part kept} : Plain part → Kept rooted kept → Kept rooted (part :: kept)

variable {rooted : Bool} {part : List Char} {kept : List (List Char)} {p : Path}

theorem Kept.tail (h : Kept rooted (part :: kept)) : Kept rooted kept := by
  cases h with
  | up hr hall =>
    cases kept with
    | nil => exact .nil
    | cons top below =>
      rw [hall top mem_cons_self]
      exact .up hr fun q hq => hall q (mem_cons_of_mem top hq)
  | name _ h => exact h

theorem dotDot_not_plain : ¬ Plain dotDot := fun h => h.ne_dotDot rfl

theorem Kept.all_dotDot (h : Kept rooted (dotDot :: kept)) :
    rooted = false ∧ ∀ part ∈ kept, part = dotDot := by
  cases h with
  | up hr hall => exact ⟨hr, hall⟩
  | name hp => exact absurd hp dotDot_not_plain

theorem Kept.push (h : Kept rooted kept) (hs : '/' ∉ part) : Kept rooted (push rooted kept part) := by
  unfold SlashPath.push
  split
  · exact h
  · rename_i hne
    rw [not_or] at hne
    split
    · split
      · split
        · exact .nil
        · rename_i hr
          exact .up (by simpa using hr) (forall_mem_nil _)
      · rename_i top below
        split
        · rename_i htop
          subst htop
          obtain ⟨hr, hall⟩ := h.all_dotDot
          exact .up hr (forall_mem_cons.mpr ⟨rfl, hall⟩)
        · exact h.tail
    · rename_i hdd
      exact .name ⟨hne.1, hne.2, hdd, hs⟩ h

theorem Kept.foldl {parts : List (List Char)} (h : Kept rooted kept)
    (hs : ∀ part ∈ parts, '/' ∉ part) : Kept rooted (parts.foldl (SlashPath.push rooted) kept) := by
  induction parts generalizing kept with
  | nil => exact h
  | cons part parts ih =>
    exact ih (h.push (hs part mem_cons_self)) fun q hq => hs q (mem_cons_of_mem part hq)

theorem mem_splitOn_not_mem {cs : List Char} (h : part ∈ cs.splitOn c) : c ∉ part := by
  induction cs generalizing part with
  | nil =>
    cases mem_singleton.mp h
    exact not_mem_nil
  | cons d ds ih =>
    rw [splitOn_cons_eq_if_modifyHead] at h
    split at h
    · rcases mem_cons.mp h with rfl | h
      · exact not_mem_nil
      · exact ih h
    · rename_i hd
      cases hds : ds.splitOn c with
      | nil => exact absurd hds (splitOn_ne_nil _ _)
      | cons q qs =>
        rw [hds] at h ih
        rcases mem_cons.mp h with rfl | h
        · intro hmem
          rcases mem_cons.mp hmem with rfl | hmem
          · exact hd (beq_self_eq_true _)
          · exact ih mem_cons_self hmem
        · exact ih (mem_cons_of_mem q h)

/-- The elements of a path that has been read. -/
def Path.Clean (p : Path) : Prop := Kept p.rooted p.parts.reverse

theorem parse_clean (cs : List Char) : (parse cs).Clean := by
  unfold Path.Clean parse
  rw [reverse_reverse]
  exact Kept.nil.foldl fun part => mem_splitOn_not_mem

theorem push_dotDot (hr : rooted = false) (hall : ∀ part ∈ kept, part = dotDot) :
    push rooted kept dotDot = dotDot :: kept := by
  cases kept with
  | nil => simp [push, dotDot, dot, hr]
  | cons top below =>
    rw [hall top mem_cons_self]
    simp [push, dotDot, dot]

theorem push_plain (hp : Plain part) : push rooted kept part = part :: kept := by
  simp [push, hp.ne_nil, hp.ne_dot, hp.ne_dotDot]

theorem Kept.foldl_reverse (h : Kept rooted kept) :
    kept.reverse.foldl (SlashPath.push rooted) [] = kept := by
  induction kept with
  | nil => rfl
  | cons part kept ih =>
    rw [reverse_cons, foldl_append, ih h.tail]
    cases h with
    | up hr hall => exact push_dotDot hr hall
    | name hp => exact push_plain hp

theorem Kept.mem (h : Kept rooted kept) (hm : part ∈ kept) : part = dotDot ∨ Plain part := by
  induction h with
  | nil => cases hm
  | up _ hall =>
    rcases mem_cons.mp hm with rfl | hm
    · exact .inl rfl
    · exact .inl (hall part hm)
  | name hp _ ih =>
    rcases mem_cons.mp hm with rfl | hm
    · exact .inr hp
    · exact ih hm

theorem Kept.no_slash (h : Kept rooted kept) (hm : part ∈ kept) : '/' ∉ part := by
  rcases h.mem hm with rfl | hp
  · decide
  · exact hp.no_slash

theorem Kept.ne_nil (h : Kept rooted kept) (hm : part ∈ kept) : part ≠ [] := by
  rcases h.mem hm with rfl | hp
  · decide
  · exact hp.ne_nil

/-! ## Reading what has been written -/

variable {name : List Char}

theorem Path.render_ne_nil (h : p.Clean) : p.render ≠ [] := by
  unfold Path.render
  split
  · simp
  · split
    · decide
    · rename_i hne
      obtain ⟨part, parts, hp⟩ := exists_cons_of_ne_nil hne
      have hpart : part ≠ [] := h.ne_nil (by simp [hp])
      rw [hp]
      cases parts <;> simp [List.intercalate, hpart]

theorem Path.head_render (h : p.Clean) : (p.render.head? == some '/') = p.rooted := by
  unfold Path.render
  split
  · rename_i hr
    simp [hr]
  · rename_i hr
    have hr' : p.rooted = false := by simpa using hr
    split
    · simp [hr', dot]
    · rename_i hne
      obtain ⟨part, parts, hp⟩ := exists_cons_of_ne_nil hne
      have hmem : part ∈ p.parts.reverse := by simp [hp]
      obtain ⟨c, cs, rfl⟩ := exists_cons_of_ne_nil (h.ne_nil hmem)
      have hc : c ≠ '/' := by
        rintro rfl
        exact h.no_slash hmem mem_cons_self
      rw [hp, hr']
      cases parts <;> simp [List.intercalate, hc]

theorem Path.foldl_render (h : p.Clean) :
    (p.render.splitOn '/').foldl (push p.rooted) [] = p.parts.reverse := by
  have hparts : ∀ {parts : List (List Char)}, p.parts = parts → parts ≠ [] →
      ((['/'].intercalate parts).splitOn '/').foldl (push p.rooted) [] = p.parts.reverse := by
    intro parts hp hne
    rw [splitOn_intercalate '/' (fun q hq => h.no_slash (by simpa [hp] using hq)) hne, ← hp]
    have hfold := h.foldl_reverse
    rwa [reverse_reverse] at hfold
  unfold Path.render
  split
  · rename_i hr
    rw [splitOn_cons_eq_if_modifyHead, if_pos (beq_self_eq_true _), foldl_cons]
    have hskip : push p.rooted [] [] = [] := rfl
    rw [hskip]
    by_cases hne : p.parts = []
    · rw [hne]
      rfl
    · exact hparts rfl hne
  · split
    · rename_i hnil
      rw [hnil]
      rfl
    · rename_i hne
      exact hparts rfl hne

theorem parse_render (h : p.Clean) : parse p.render = p := by
  unfold parse
  rw [p.head_render h, p.foldl_render h, reverse_reverse]

/-- The path of `name` in the directory `p`. -/
def Path.child (p : Path) (name : List Char) : Path := ⟨p.rooted, p.parts ++ [name]⟩

theorem Path.Clean.child (hp : p.Clean) (hn : Plain name) : (p.child name).Clean := by
  unfold Path.Clean Path.child
  rw [reverse_append]
  exact .name hn hp

theorem parse_join (hp : p.Clean) (hn : Plain name) :
    join p.render name = (p.child name).render := by
  have hparse : parse (p.render ++ '/' :: name) = p.child name := by
    have hhead : (p.render ++ '/' :: name).head? = p.render.head? := by
      obtain ⟨c, cs, hc⟩ := exists_cons_of_ne_nil (p.render_ne_nil hp)
      simp [hc]
    unfold parse Path.child
    rw [hhead, p.head_render hp, splitOn_append_cons_self, foldl_append,
      p.foldl_render hp, splitOn_eq_singleton hn.no_slash, foldl_cons, push_plain hn]
    simp
  unfold join clean
  rw [if_neg (p.render_ne_nil hp), if_neg hn.ne_nil, hparse]

theorem strip_append (as bs : List (List Char)) : strip as (as ++ bs) = ([], bs) := by
  induction as with
  | nil => cases bs <;> rfl
  | cons a as ih => simpa [strip] using ih

theorem rel_child (hp : p.Clean) (hn : Plain name) :
    rel p.render (p.child name).render = some name := by
  have hne : p.child name ≠ p := by
    intro heq
    have hlen := congrArg (fun q : Path => q.parts.length) heq
    simp [Path.child] at hlen
  have hwords : (p.child name).words = p.parts ++ [name] := by simp [Path.words, Path.child]
  unfold rel
  rw [parse_render hp, parse_render (hp.child hn)]
  simp only [if_neg hne, hwords, strip_append]
  simp [Path.child, List.intercalate]

/-! ## Hierarchical names -/

/-- Neither name contains the other. -/
def Apart {α : Type} (m n : List α) : Prop := ¬ m <+: n ∧ ¬ n <+: m

variable {α : Type} {m n k : List α}

theorem Apart.symm (h : Apart m n) : Apart n m := ⟨h.2, h.1⟩

/-- What lies below one of them does not lie below the other. -/
theorem Apart.not_below (h : Apart m n) (hk : n <+: k) : ¬ m <+: k := by
  intro hm
  rcases prefix_or_prefix_of_prefix hm hk with hle | hle
  · exact h.1 hle
  · exact h.2 hle

theorem apart_append : Apart (r ++ m) (r ++ n) ↔ Apart m n := by
  simp [Apart, prefix_append_right_inj]

theorem apart_singleton (h : a ≠ b) : Apart [a] [b] := by
  constructor
  · simpa using h
  · simpa using h.symm

instance [DecidableEq α] (m n : List α) : Decidable (Apart m n) :=
  inferInstanceAs (Decidable (¬ m <+: n ∧ ¬ n <+: m))

/-- `q` is `p` or lies below it. -/
def Path.Below (p q : Path) : Prop :=
  q.rooted = p.rooted ∧ p.parts <+: q.parts ∧ dotDot ∉ q.parts.drop p.parts.length

instance (p q : Path) : Decidable (p.Below q) :=
  inferInstanceAs (Decidable (_ ∧ p.parts <+: q.parts ∧ _))

theorem Path.below_refl (p : Path) : p.Below p := ⟨rfl, prefix_refl _, by simp⟩

theorem Path.child_below (h : Plain name) : p.Below (p.child name) := by
  refine ⟨rfl, prefix_append .., ?_⟩
  simpa [Path.child] using h.ne_dotDot.symm

/-- What lies below one child of a directory does not lie below another one. -/
theorem Path.not_below_child {p q : Path} {m n : List Char} (hne : m ≠ n)
    (h : (p.child n).Below q) : ¬ (p.child m).Below q := by
  intro hm
  have hapart : Apart (p.child m).parts (p.child n).parts := apart_append.mpr (apart_singleton hne)
  exact hapart.not_below h.2.1 hm.2.1

end SlashPath
