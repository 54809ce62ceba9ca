import Mathlib.Tactic.IntervalCases

/-!
Hexadecimal numerals of a minimal width, as `fmt` prints them for `%0*x`: reading
one back gives the number, so numerals of one width are distinct.
-/

namespace Hex

/-- The digits of `n`, padded with zeros to `width`. -/
def padded (width n : Nat) : List Char :=
  List.replicate (width - (Nat.toDigits 16 n).length) '0' ++ Nat.toDigits 16 n

def digit (c : Char) : Nat :=
  if c.toNat < 'a'.toNat then c.toNat - '0'.toNat else c.toNat - 'a'.toNat + 10

/-- The number a numeral stands for. -/
def value (cs : List Char) : Nat := cs.foldl (fun n c => 16 * n + digit c) 0

theorem digit_digitChar {d : Nat} (h : d < 16) : digit d.digitChar = d := by
  interval_cases d <;> rfl

theorem value_append_singleton (cs : List Char) (c : Char) :
    value (cs ++ [c]) = 16 * value cs + digit c := by
  simp [value]

theorem value_toDigits (n : Nat) : value (Nat.toDigits 16 n) = n := by
  induction n using Nat.strongRecOn with
  | ind n ih =>
    rw [Nat.toDigits_eq_if (by decide)]
    split
    · next h => simp [value, digit_digitChar h]
    · rw [value_append_singleton, ih (n / 16) (by omega), digit_digitChar (Nat.mod_lt n (by decide))]
      omega

theorem value_replicate_append (k : Nat) (cs : List Char) :
    value (List.replicate k '0' ++ cs) = value cs := by
  induction k with
  | zero => rfl
  | succ k ih => exact ih

theorem value_padded (width n : Nat) : value (padded width n) = n := by
  rw [padded, value_replicate_append, value_toDigits]

theorem padded_injective (width : Nat) : Function.Injective (padded width) :=
  Function.LeftInverse.injective (value_padded width)

end Hex
