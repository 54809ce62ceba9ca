import Mathlib.Data.List.Forall2
import Mathlib.Data.List.Infix

/-!
The patterns of the glob tool (`internal/tools/glob.go`): components between slashes, of which
`**` takes any number of components of a path and every other one takes one that
`filepath.Match` accepts.
-/

namespace FlexAgentRuntime.Tools

open List

/-- `filepath.ToSlash` changes nothing on Unix. -/
def splitPath (p : List Char) : List (List Char) := (p.splitOn '/').filter (· ≠ [])

def doubleStar : List Char := ['*', '*']

variable (accepts : List Char → List Char → Bool)

/-- `path.tails` are the slices `path[i:]` in turn. -/
def matchParts : List (List Char) → List (List Char) → Bool
  | [], path => path.isEmpty
  | part :: pattern, path =>
    if part = doubleStar then pattern.isEmpty || path.tails.any (matchParts pattern)
    else
      match path with
      | [] => false
      | c :: path => accepts part c && matchParts pattern path

def globMatch (pattern path : List Char) : Bool :=
  matchParts accepts (splitPath pattern) (splitPath path)

/-- What a component of the pattern takes of the path. -/
def Takes (part : List Char) (piece : List (List Char)) : Prop :=
  part ≠ doubleStar → ∃ c, piece = [c] ∧ accepts part c = true

/-- The path can be cut into pieces, one for each component of the pattern. -/
def Cut (pattern path : List (List Char)) : Prop :=
  ∃ pieces : List (List (List Char)), pieces.flatten = path ∧ Forall₂ (Takes accepts) pattern pieces

variable {accepts}

theorem cut_nil : Cut accepts [] path ↔ path = [] := by
  simp [Cut, eq_comm]

theorem cut_cons : Cut accepts (part :: pattern) path ↔
    ∃ piece rest, piece ++ rest = path ∧ Takes accepts part piece ∧ Cut accepts pattern rest := by
  constructor
  · rintro ⟨pieces, rfl, h⟩
    obtain ⟨piece, pieces, ht, htail, rfl⟩ := forall₂_cons_left_iff.mp h
    exact ⟨piece, _, rfl, ht, pieces, rfl, htail⟩
  · rintro ⟨piece, _, rfl, ht, pieces, rfl, h⟩
    exact ⟨piece :: pieces, rfl, .cons ht h⟩

theorem matchParts_iff : matchParts accepts pattern path = true ↔ Cut accepts pattern path := by
  induction pattern generalizing path with
  | nil => simp [matchParts, cut_nil]
  | cons part pattern ih =>
    rw [cut_cons]
    unfold matchParts
    split
    · -- a trailing `**` takes what is left
      rename_i hpart
      have htakes : ∀ piece, Takes accepts part piece := fun _ hne => absurd hpart hne
      simp only [Bool.or_eq_true, List.isEmpty_iff, any_eq_true, mem_tails, ih]
      constructor
      · rintro (rfl | ⟨rest, ⟨piece, hcut⟩, h⟩)
        · exact ⟨path, [], append_nil path, htakes _, cut_nil.mpr rfl⟩
        · exact ⟨piece, rest, hcut, htakes _, h⟩
      · rintro ⟨piece, rest, hcut, -, h⟩
        exact .inr ⟨rest, ⟨piece, hcut⟩, h⟩
    · rename_i hpart
      constructor
      · intro h
        cases path with
        | nil => cases h
        | cons c path =>
          obtain ⟨hc, h⟩ := Bool.and_eq_true_iff.mp h
          exact ⟨[c], path, rfl, fun _ => ⟨c, rfl, hc⟩, ih.mp h⟩
      · rintro ⟨piece, rest, rfl, ht, h⟩
        obtain ⟨c, rfl, hc⟩ := ht hpart
        exact Bool.and_eq_true_iff.mpr ⟨hc, ih.mpr h⟩

/-- A pattern matches a path if and only if the components of the path can be cut into pieces for
the components of the pattern. -/
theorem globMatch_iff (accepts : List Char → List Char → Bool) (pattern path : List Char) :
    globMatch accepts pattern path = true ↔ Cut accepts (splitPath pattern) (splitPath path) :=
  matchParts_iff

end FlexAgentRuntime.Tools
