import FlexAgentRuntime.Tools.GitArguments
import Mathlib

/-!
Windows that a script or a model asks for: `ReadRange` of the two data stores in
`internal/tools/codeinterp/datastore`, and `read_file` of `internal/tools/read.go`.

Offset and limit are unchecked, and the sum of the two is a machine integer.
-/

namespace FlexAgentRuntime.Tools

open List

/-- What an `int64` holds of a number. -/
def wrap64 (n : Int) : Int := (n + 0x8000000000000000) % 0x10000000000000000 - 0x8000000000000000

theorem wrap64_of_lt (hn : 0 ≤ n) (h : n < 0x8000000000000000) : wrap64 n = n := by
  unfold wrap64
  omega

/-- Windows of one size that follow each other. -/
theorem flatten_windows (xs : List α) (n k : Nat) :
    ((range k).map fun i => (xs.drop (i * n)).take n).flatten = xs.take (k * n) := by
  induction k with
  | zero => simp
  | succ k ih => simp [range_succ, ih, Nat.succ_mul, take_add]

/-! ## Data stores -/

inductive Fault where
  | panic (text : String)
  | error (text : String)
  deriving DecidableEq, Repr

/-- The bytes that are returned, and the sizes of the buffers made for them. -/
structure Served where
  bytes : List UInt8
  buffers : List Int
  deriving DecidableEq, Repr

/-- `buf[lo:hi]`. -/
def slice (buf : List UInt8) (lo hi : Int) : Except Fault (List UInt8) :=
  if 0 ≤ lo ∧ lo ≤ hi ∧ hi ≤ buf.length then .ok ((buf.take hi.toNat).drop lo.toNat)
  else .error (.panic "slice bounds out of range")

/-- `MemoryDataStore.ReadRange` of a key whose value is `buf`, of which `Read` gives a copy. -/
def memoryReadRange (buf : List UInt8) (offset limit : Int) : Except Fault Served :=
  let offset := if offset < 0 then 0 else offset
  let limit := if limit < 0 then 0 else limit
  if offset > buf.length then .ok ⟨[], [buf.length]⟩
  else
    let stop := wrap64 (offset + limit)
    let stop := if limit = 0 ∨ stop > buf.length then (buf.length : Int) else stop
    (slice buf offset stop).map fun bytes => ⟨bytes, [buf.length, bytes.length]⟩

/-- `FSDataStore.ReadRange` of a key whose file holds `data`, where no offset above `maxOffset`
can be sought. -/
def fsReadRange (maxOffset : Int) (data : List UInt8) (offset limit : Int) : Except Fault Served :=
  let offset := if offset < 0 then 0 else offset
  let rest := data.drop offset.toNat
  if offset > maxOffset then .error (.error "invalid argument")
  else if limit ≤ 0 then .ok ⟨rest, [rest.length]⟩
  else .ok ⟨rest.take limit.toNat, [limit]⟩

/-- The bytes that a range stands for. -/
def rangeOf (b : List UInt8) (offset limit : Int) : List UInt8 :=
  let rest := b.drop (max offset 0).toNat
  if limit ≤ 0 then rest else rest.take limit.toNat

variable {b : List UInt8} {offset limit maxOffset : Int}

/-- A limit that is not above the size of the value, and an offset that can be sought and to which
the limit can be added. -/
structure Fits (maxOffset : Int) (b : List UInt8) (offset limit : Int) : Prop where
  seekable : max offset 0 ≤ maxOffset
  size : limit ≤ b.length
  sum : max offset 0 + max limit 0 < 0x8000000000000000

theorem clamp_eq (n : Int) : (if n < 0 then 0 else n) = max n 0 := by
  split <;> omega

theorem memoryReadRange_eq (h : Fits maxOffset b offset limit) : ∃ buffers,
    memoryReadRange b offset limit = .ok ⟨rangeOf b offset limit, buffers⟩ ∧
      ∀ n ∈ buffers, n ≤ b.length := by
  unfold memoryReadRange
  simp only [clamp_eq, wrap64_of_lt (Int.add_nonneg (le_max_right ..) (le_max_right ..)) h.sum]
  split
  · rw [rangeOf, drop_eq_nil_of_le (by omega), take_nil, ite_self]
    exact ⟨_, rfl, by simp⟩
  · generalize hstop : (if max limit 0 = 0 ∨ max offset 0 + max limit 0 > b.length
      then (b.length : Int) else max offset 0 + max limit 0) = stop
    have hbounds : max offset 0 ≤ stop ∧ stop ≤ b.length := by split at hstop <;> omega
    have hbytes : (b.take stop.toNat).drop (max offset 0).toNat = rangeOf b offset limit := by
      unfold rangeOf
      rw [drop_take]
      split
      · rw [take_of_length_le (by split at hstop <;> simp <;> omega)]
      · rw [take_eq_take_iff, length_drop]
        split at hstop <;> omega
    rw [slice, if_pos ⟨le_max_right .., hbounds⟩, hbytes]
    exact ⟨_, rfl, by simp [← hbytes]⟩

theorem fsReadRange_eq (h : Fits maxOffset b offset limit) : ∃ buffers,
    fsReadRange maxOffset b offset limit = .ok ⟨rangeOf b offset limit, buffers⟩ ∧
      ∀ n ∈ buffers, n ≤ b.length := by
  unfold fsReadRange rangeOf
  simp only [clamp_eq, if_neg (Int.not_lt.mpr h.seekable)]
  split
  · exact ⟨_, rfl, by simp⟩
  · exact ⟨_, rfl, by simpa using h.size⟩

/-! ## Lines of a file -/

def defaultReadLimit : Int := 2000

def maxLineLength : Nat := 2000

/-- A line as `read_file` writes it. -/
def cutLine (line : List Char) : List Char :=
  if line.length > maxLineLength then line.take maxLineLength ++ "... (truncated)".toList else line

/-- The answer of `read_file`: an error, that the offset is beyond the end, or lines with their
numbers, and which lines of how many these are unless the last one is among them. -/
inductive ReadResponse where
  | error (text : String)
  | beyond (offset : Int) (total : Nat)
  | lines (shown : List (List Char × Nat)) (note : Option (Int × Int × Nat))
  deriving DecidableEq, Repr

def ReadResponse.shown : ReadResponse → List (List Char × Nat)
  | .lines shown _ => shown
  | _ => []

def readLimit (limit : Int) : Int := if limit ≤ 0 then defaultReadLimit else limit

def readLines (lines : List (List Char)) (offset limit : Int) : ReadResponse :=
  let offset := if offset < 0 then 0 else offset
  if offset ≥ lines.length then .beyond offset lines.length
  else
    let stop := wrap64 (offset + readLimit limit)
    let truncated := stop < lines.length
    let stop := if stop > lines.length then (lines.length : Int) else stop
    .lines ((((lines.map cutLine).zipIdx 1).drop offset.toNat).take (stop - offset).toNat)
      (if truncated then some (offset + 1, stop, lines.length) else none)

/-- `file` is the content, or what the checks of the path and the file have found wrong. -/
def executeReadFile (file : Except String (List Char)) (params : Params) : ReadResponse :=
  match file with
  | .error text => .error text
  | .ok data => readLines (data.splitOn '\n') (intParam params "offset" 0)
      (intParam params "limit" defaultReadLimit)

/-- The lines of a window, and a note when there are more. -/
def pageOf (lines : List (List Char)) (start limit : Int) : ReadResponse :=
  .lines ((((lines.map cutLine).zipIdx 1).drop start.toNat).take limit.toNat)
    (if start + limit < lines.length then some (start + 1, start + limit, lines.length) else none)

section Pages

variable {lines : List (List Char)}

theorem readLimit_pos (limit : Int) : 0 < readLimit limit := by
  unfold readLimit defaultReadLimit
  split <;> omega

theorem readLines_eq (hsum : max offset 0 + readLimit limit < 0x8000000000000000)
    (hlt : max offset 0 < lines.length) :
    readLines lines offset limit = pageOf lines (max offset 0) (readLimit limit) := by
  have hpos := readLimit_pos limit
  unfold readLines pageOf
  simp only [clamp_eq, if_neg (Int.not_le.mpr hlt), wrap64_of_lt (by omega) hsum]
  congr 1
  · rw [take_eq_take_iff, length_drop, length_zipIdx, length_map]
    split <;> omega
  · split
    · rw [if_neg (by omega)]
    · rfl

theorem shown_readLines (hsum : lines.length + readLimit limit < 0x8000000000000000) (n : Nat) :
    (readLines lines n limit).shown =
      (((lines.map cutLine).zipIdx 1).drop n).take (readLimit limit).toNat := by
  have hn : max (n : Int) 0 = n := Int.max_eq_left (Int.natCast_nonneg n)
  by_cases hlt : n < lines.length
  · rw [readLines_eq (by omega) (by omega), hn]
    rfl
  · rw [readLines, clamp_eq, hn, if_pos (by omega), drop_eq_nil_of_le (by simpa using hlt), take_nil]
    rfl

end Pages

def pageAt (offset limit : Int) : Params := fun k =>
  if k = "offset" then some (.number offset) else some (.number limit)

end FlexAgentRuntime.Tools
