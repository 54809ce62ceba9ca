import Mathlib.Data.List.DropRight

/-!
The scrollback of a terminal, `scrollbackBuffer` of `internal/termmux/terminal_subscription.go`:
a ring of `cap` bytes that each write overwrites from `head` on.

Read from `head` round to `head`, the ring is always the last `cap` bytes of the zeros it is
made of followed by all that was written.
-/

namespace FlexAgentRuntime.Termmux

open List

structure ScrollbackBuffer where
  buf : List UInt8
  head : Nat
  size : Nat
  cap : Nat
  buf_length : buf.length = cap
  head_le : head ≤ cap - 1
  size_le : size ≤ cap

namespace ScrollbackBuffer

/-- `dst` after `copy(dst[start:], data)`. -/
def copyAt (dst : List UInt8) (start : Nat) (data : List UInt8) : List UInt8 :=
  dst.take start ++ data.take (dst.length - start) ++ dst.drop (start + data.length)

theorem length_copyAt {dst : List UInt8} (data : List UInt8) (h : start ≤ dst.length) :
    (copyAt dst start data).length = dst.length := by
  simp only [copyAt, length_append, length_take, length_drop]
  omega

def newScrollbackBuffer (capacity : Nat) : ScrollbackBuffer where
  buf := replicate capacity 0
  head := 0
  size := 0
  cap := capacity
  buf_length := length_replicate
  head_le := Nat.zero_le _
  size_le := Nat.zero_le _

def write (sb : ScrollbackBuffer) (data : List UInt8) : ScrollbackBuffer :=
  if data.length = 0 then sb
  else if hlen : data.length ≥ sb.cap then
    { sb with
      buf := copyAt sb.buf 0 (data.drop (data.length - sb.cap))
      head := 0
      size := sb.cap
      buf_length := (length_copyAt _ (Nat.zero_le _)).trans sb.buf_length
      head_le := Nat.zero_le _
      size_le := Nat.le_refl _ }
  else
    let n := min data.length (sb.buf.length - sb.head)
    let buf := copyAt sb.buf sb.head data
    have hbuf : buf.length = sb.cap :=
      (length_copyAt data (sb.buf_length ▸ sb.head_le.trans (Nat.sub_le ..))).trans sb.buf_length
    { sb with
      buf := if n < data.length then copyAt buf 0 (data.drop n) else buf
      head := (sb.head + data.length) % sb.cap
      size := min (sb.size + data.length) sb.cap
      buf_length := by
        split
        · exact (length_copyAt _ (Nat.zero_le _)).trans hbuf
        · exact hbuf
      head_le := Nat.le_sub_one_of_lt (Nat.mod_lt _ (by omega))
      size_le := Nat.min_le_right .. }

def snapshot (sb : ScrollbackBuffer) (maxBytes : Nat) : List UInt8 :=
  if sb.size = 0 then []
  else
    let take := min sb.size maxBytes
    let start := (sb.head + sb.cap - take) % sb.cap
    if start + take ≤ sb.cap then (sb.buf.drop start).take take
    else sb.buf.drop start ++ sb.buf.take (take - (sb.cap - start))

/-- The bytes in the order in which they will be overwritten. -/
def ring (sb : ScrollbackBuffer) : List UInt8 :=
  sb.buf.drop sb.head ++ sb.buf.take sb.head

variable (sb : ScrollbackBuffer)

theorem exists_halves : ∃ a b, sb.buf = a ++ b ∧ sb.head = a.length ∧ sb.ring = b ++ a ∧
    a.length + b.length = sb.cap := by
  have hlen := sb.buf_length
  have hhead := sb.head_le
  refine ⟨_, _, (take_append_drop sb.head sb.buf).symm, ?_, rfl, ?_⟩ <;> simp <;> omega

/-- A write pushes the oldest bytes out of the ring. -/
theorem ring_write (data : List UInt8) :
    (sb.write data).ring = (sb.ring ++ data).drop data.length := by
  obtain ⟨a, b, hab, ha, hring, hcap⟩ := sb.exists_halves
  rw [hring, write]
  by_cases hd : data.length = 0
  · simp [hring, length_eq_zero_iff.mp hd]
  rw [if_neg hd]
  by_cases hlen : data.length ≥ sb.cap
  · obtain ⟨d, e, rfl, he⟩ : ∃ d e, data = d ++ e ∧ e.length = sb.cap :=
      ⟨_, _, (take_append_drop (data.length - sb.cap) data).symm, by simp; omega⟩
    simp (disch := omega) [he, ring, copyAt, hab, drop_append, take_of_length_le, drop_of_length_le]
  rw [dif_neg hlen]
  have hhead := sb.head_le
  by_cases hwrap : data.length ≤ b.length
  · rcases Nat.lt_or_eq_of_le (by omega : a.length + data.length ≤ sb.cap) with hlt | heq
    · simp (disch := omega) [hab, ha, ring, copyAt, Nat.mod_eq_of_lt hlt, drop_append,
        take_append, take_of_length_le, drop_of_length_le]
    · simp (disch := omega) [hab, ha, ring, copyAt, heq, drop_append, take_of_length_le,
        drop_of_length_le]
  · -- the second copy starts at the front again
    obtain ⟨d, e, rfl, hde⟩ : ∃ d e, data = d ++ e ∧ d.length = b.length :=
      ⟨_, _, (take_append_drop b.length data).symm, by simp; omega⟩
    rw [length_append] at hlen hwrap
    have hmod : (a.length + (b.length + e.length)) % sb.cap = e.length := by
      rw [← Nat.add_assoc, hcap, Nat.add_mod_left, Nat.mod_eq_of_lt (by omega)]
    have he : 0 < e.length := by omega
    simp (disch := omega) [hab, ha, hde, hmod, he, ring, copyAt, drop_append, take_append,
      take_of_length_le, drop_of_length_le]

/-- A snapshot is the end of the ring. -/
theorem snapshot_eq (maxBytes : Nat) :
    sb.snapshot maxBytes = sb.ring.drop (sb.cap - min sb.size maxBytes) := by
  obtain ⟨a, b, hab, ha, hring, hcap⟩ := sb.exists_halves
  have hhead := sb.head_le
  have hsize := sb.size_le
  rw [snapshot, hring, hab, ha]
  by_cases hs : sb.size = 0
  · simp [hs, ← hcap, Nat.add_comm]
  rw [if_neg hs]
  generalize htake : min sb.size maxBytes = k
  have hend (l : List UInt8) {n : Nat} (h : l.length ≤ n + k) : (l.drop n).take k = l.drop n :=
    take_of_length_le (by simp; omega)
  by_cases hle : k ≤ a.length
  · have hstart : (a.length + sb.cap - k) % sb.cap = a.length - k := by
      rw [Nat.sub_add_comm hle, Nat.add_mod_right, Nat.mod_eq_of_lt (by omega)]
    have hdrop : sb.cap - k - b.length = a.length - k := by omega
    have hfit : a.length ≤ sb.cap := by omega
    simp (disch := omega) [hstart, hdrop, hfit, hend, drop_append, take_append, drop_of_length_le]
  · have hstart : (a.length + sb.cap - k) % sb.cap = a.length + sb.cap - k :=
      Nat.mod_eq_of_lt (by omega)
    have hdrop : a.length + sb.cap - k - a.length = sb.cap - k := by omega
    have hnil : a.length + sb.cap ≤ sb.cap → a = [] := fun h =>
      length_eq_zero_iff.mp (by omega)
    simpa (disch := omega) [hstart, hdrop, hend, drop_append, drop_of_length_le] using hnil

/-- What the buffer holds after `output` was written. -/
structure Holds (capacity : Nat) (output : List UInt8) : Prop where
  cap : sb.cap = capacity
  size : sb.size = min output.length capacity
  ring : sb.ring = (replicate capacity 0 ++ output).drop output.length

variable {sb} in
theorem Holds.write (h : sb.Holds capacity output) (data : List UInt8) :
    (sb.write data).Holds capacity (output ++ data) := by
  refine ⟨?_, ?_, ?_⟩
  · unfold ScrollbackBuffer.write
    split_ifs <;> exact h.cap
  · have := h.cap
    have := h.size
    unfold ScrollbackBuffer.write
    split_ifs <;> simp <;> omega
  · rw [ring_write, h.ring, ← drop_append_of_le_length (by simp), drop_drop, append_assoc,
      length_append]

theorem holds_writes (capacity : Nat) (writes : List (List UInt8)) :
    (writes.foldl write (newScrollbackBuffer capacity)).Holds capacity writes.flatten := by
  induction writes using List.reverseRecOn with
  | nil => exact ⟨rfl, by simp [newScrollbackBuffer], by simp [newScrollbackBuffer, ring]⟩
  | append_singleton writes data ih => simpa using ih.write data

theorem snapshot_writes (capacity : Nat) (writes : List (List UInt8)) (maxBytes : Nat) :
    (writes.foldl write (newScrollbackBuffer capacity)).snapshot maxBytes =
      writes.flatten.rtake (min maxBytes (min capacity writes.flatten.length)) := by
  have h := holds_writes capacity writes
  rw [snapshot_eq, h.ring, h.size, h.cap, drop_drop, rtake, drop_append,
    drop_of_length_le (by simp; omega), nil_append, length_replicate]
  congr 1
  omega

end ScrollbackBuffer

end FlexAgentRuntime.Termmux
