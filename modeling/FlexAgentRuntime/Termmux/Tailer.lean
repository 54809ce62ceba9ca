import FlexAgentRuntime.Ai.Sse
import Mathlib.Algebra.Order.Ring.Int

/-!
The session-log tailer, `internal/termmux/eventsrc/sessionlog/tailer.go`: a file that only
grows, and polls that pass its new lines on.

`bufio.Scanner` returns what follows the last newline as a token of its own, and a token does
not tell how it ended. A poll therefore passes on a line that is still being written, and
counts the wrong number of bytes for a line that ends in a carriage return.
-/

namespace FlexAgentRuntime.Tailer

open List
open Sse (Bytes ascii)

/-- `dropCR` of `bufio`. -/
def dropCR (line : Bytes) : Bytes := if line.getLast? = some 13 then line.dropLast else line

/-- The size of the scanner's buffer. -/
def maxTokenSize : Nat := 1024 * 1024

/-- The tokens of `ScanLines` before the end of the file, and whether the scanner stops with
`ErrTooLong`. The buffer holds the line and its newline. -/
def scan : Bytes → Bytes → List Bytes × Bool
  | line, [] =>
    if line = [] then ([], false)
    else if line.length < maxTokenSize then ([dropCR line], false) else ([], true)
  | line, b :: data =>
    if b = 10 then
      if line.length < maxTokenSize then
        (dropCR line :: (scan [] data).1, (scan [] data).2)
      else ([], true)
    else scan (line ++ [b]) data

/-- The file, the variables of `Start` and the lines passed to `onLine`; `carry` is the
source's `partial`. -/
structure Tail where
  file : Option Bytes := none
  offset : Nat := 0
  carry : Bytes := []
  delivered : List Bytes := []

/-- The tokens with the bytes carried over from the last poll. -/
def withCarry (carry : Bytes) : List Bytes → List Bytes
  | [] => []
  | line :: lines => (carry ++ line) :: lines

def bytesRead (tokens : List Bytes) : Nat := (tokens.map fun line => line.length + 1).sum

/-- One round of the loop of `Start`. When `poll` fails its results are not taken over, but
what it has passed on is passed on. -/
def Tail.poll (t : Tail) : Tail :=
  match t.file with
  | none => t
  | some file =>
    let truncated := decide (file.length < t.offset)
    let offset := if truncated then 0 else t.offset
    let carry := if truncated then [] else t.carry
    if file.length = offset then { t with offset := offset, carry := carry }
    else
      let (tokens, tooLong) := scan [] (file.drop offset)
      let delivered := t.delivered ++ withCarry carry tokens
      if tooLong then { t with delivered := delivered }
      else
        let carry := if tokens = [] then carry else []
        let newOffset := min (offset + bytesRead tokens) file.length
        { t with
          offset := file.length
          carry := if newOffset < file.length then file.drop newOffset else carry
          delivered := delivered }

inductive Event where
  | append (piece : Bytes)
  | poll

def Tail.next (t : Tail) : Event → Tail
  | .append piece => { t with file := some (t.file.getD [] ++ piece) }
  | .poll => t.poll

def Tail.run (t : Tail) (events : List Event) : Tail := events.foldl Tail.next t

/-- The newline-terminated lines of `data`, the first of which begins with `line`. -/
def terminatedLines : Bytes → Bytes → List Bytes
  | _, [] => []
  | line, b :: data =>
    if b = 10 then line :: terminatedLines [] data else terminatedLines (line ++ [b]) data

/-- `line ++ data` ends in a newline or is empty, and its lines fit the scanner's buffer and
do not end in a carriage return. -/
def whole : Bytes → Bytes → Bool
  | line, [] => line.isEmpty
  | line, b :: data =>
    if b = 10 then line.length < maxTokenSize && line.getLast? != some 13 && whole [] data
    else whole (line ++ [b]) data

/-- A poll finds whole lines after the offset. -/
def Tail.findsWhole (t : Tail) : Event → Bool
  | .append _ => true
  | .poll => t.file.all fun file => whole [] (file.drop t.offset)

def Tail.settled (t : Tail) : List Event → Bool
  | [] => true
  | e :: events => t.findsWhole e && (t.next e).settled events

/-- What `whole` says, by the newlines. -/
inductive Whole : Bytes → Bytes → Prop where
  | nil : Whole [] []
  | newline {line data} : line.length < maxTokenSize → line.getLast? ≠ some 13 → Whole [] data →
      Whole line (10 :: data)
  | byte {line b data} : b ≠ 10 → Whole (line ++ [b]) data → Whole line (b :: data)

variable {line data : Bytes} {t : Tail} {seen : Bytes}

theorem Whole.of_whole (h : whole line data = true) : Whole line data := by
  induction data generalizing line with
  | nil => exact isEmpty_iff.mp h ▸ .nil
  | cons b data ih =>
    rw [whole] at h
    split at h
    · rename_i hb
      simp only [Bool.and_eq_true, decide_eq_true_eq, bne_iff_ne] at h
      exact hb ▸ .newline h.1.1 h.1.2 (ih h.2)
    · rename_i hb
      exact .byte hb (ih h)

theorem Whole.scan_eq (h : Whole line data) : scan line data = (terminatedLines line data, false) := by
  induction h with
  | nil => rfl
  | newline hlen hcr _ ih => simp [scan, terminatedLines, hlen, dropCR, hcr, ih]
  | byte hb _ ih => rw [scan, terminatedLines, if_neg hb, if_neg hb, ih]

theorem Whole.bytesRead_eq (h : Whole line data) :
    bytesRead (terminatedLines line data) = line.length + data.length := by
  induction h with
  | nil => rfl
  | newline _ _ _ ih =>
    simp only [terminatedLines, if_true, bytesRead, map_cons, sum_cons,
      length_nil, length_cons] at ih ⊢
    omega
  | byte hb _ ih =>
    rw [terminatedLines, if_neg hb, ih]
    simp only [length_append, length_cons, length_nil]
    omega

theorem Whole.lines_append (h : Whole line data) (more : Bytes) :
    terminatedLines line (data ++ more) =
      terminatedLines line data ++ terminatedLines [] more := by
  induction h with
  | nil => rfl
  | newline _ _ _ ih => simp [terminatedLines, ih]
  | byte hb _ ih => simp [terminatedLines, hb, ih]

/-- The lines of `seen`, the content at the last poll, have been delivered, and a line begins
after it. -/
structure Tail.Follows (t : Tail) (seen : Bytes) : Prop where
  grown : seen <+: t.file.getD []
  offset : t.offset = seen.length
  carry : t.carry = []
  delivered : t.delivered = terminatedLines [] seen
  cut : ∀ more, terminatedLines [] (seen ++ more) =
    terminatedLines [] seen ++ terminatedLines [] more

theorem Tail.Follows.poll (h : t.Follows seen) (hw : t.findsWhole .poll = true) :
    t.poll.Follows (t.file.getD []) ∧ t.poll.file = t.file := by
  obtain ⟨file, offset, carry, delivered⟩ := t
  obtain ⟨⟨piece, hfile⟩, hoff, hcarry, hdel, hcut⟩ := h
  dsimp only [Tail.findsWhole] at hfile hoff hcarry hdel hw ⊢
  subst hoff hcarry hdel
  cases file with
  | none =>
    obtain ⟨rfl, rfl⟩ := append_eq_nil_iff.mp hfile
    exact ⟨⟨prefix_refl _, rfl, rfl, rfl, hcut⟩, rfl⟩
  | some file =>
    have hfile : file = seen ++ piece := hfile.symm
    subst hfile
    rw [Option.all_some, drop_left] at hw
    have hpiece := Whole.of_whole hw
    have hall : ∀ more, terminatedLines [] (seen ++ piece ++ more) =
        terminatedLines [] (seen ++ piece) ++ terminatedLines [] more := fun more => by
      rw [append_assoc, hcut, hpiece.lines_append, hcut, append_assoc]
    -- nothing is left after the tokens, so nothing is carried over
    have hpoll : Tail.poll ⟨some (seen ++ piece), seen.length, [], terminatedLines [] seen⟩ =
        ⟨some (seen ++ piece), (seen ++ piece).length, [], terminatedLines [] (seen ++ piece)⟩ := by
      simp only [Tail.poll, length_append, not_lt.mpr (Nat.le_add_right _ _),
        decide_false, Bool.false_eq_true, if_false, drop_left, hpiece.scan_eq,
        hpiece.bytesRead_eq, length_nil, Nat.zero_add, Nat.min_self, lt_irrefl, ite_self,
        hcut]
      split
      · rename_i hlen
        have hnil : piece = [] := length_eq_zero_iff.mp (by omega)
        simp [hnil, terminatedLines]
      · cases terminatedLines [] piece <;> rfl
    rw [hpoll]
    exact ⟨⟨prefix_refl _, rfl, rfl, rfl, hall⟩, rfl⟩

theorem Tail.Follows.run (h : t.Follows seen) (hs : t.settled events = true) :
    ∃ seen', (t.run events).Follows seen' := by
  induction events generalizing t seen with
  | nil => exact ⟨seen, h⟩
  | cons e events ih =>
    rw [Tail.settled, Bool.and_eq_true] at hs
    cases e with
    | append piece =>
      have hnext : (t.next (.append piece)).Follows seen :=
        { h with grown := h.grown.trans (prefix_append _ _) }
      exact ih hnext hs.2
    | poll => exact ih (h.poll hs.1).1 hs.2

theorem Tail.settled_append :
    t.settled (events ++ events') = (t.settled events && (t.run events).settled events') := by
  induction events generalizing t with
  | nil => rfl
  | cons e events ih =>
    rw [cons_append, Tail.settled, Tail.settled, ih, Bool.and_assoc]
    rfl

/-- After a poll the lines passed to `onLine` are the newline-terminated lines of the file,
when every poll finds whole lines without a carriage return at their end that fit the
scanner's buffer. -/
theorem lines_delivered_once (events : List Event)
    (hs : Tail.settled {} (events ++ [.poll]) = true) :
    (Tail.run {} (events ++ [.poll])).delivered =
      terminatedLines [] ((Tail.run {} (events ++ [.poll])).file.getD []) := by
  rw [Tail.settled_append, Bool.and_eq_true] at hs
  have hstart : Tail.Follows {} [] := ⟨prefix_refl _, rfl, rfl, rfl, fun _ => rfl⟩
  obtain ⟨seen, h⟩ := hstart.run hs.1
  obtain ⟨hpoll, hfile⟩ := h.poll (Bool.and_eq_true_iff.mp hs.2).1
  rw [Tail.run, foldl_append]
  exact hpoll.delivered.trans (congrArg (terminatedLines [] <| ·.getD []) hfile.symm)

/-- Two lines appended in pieces and polled when they are whole. -/
theorem lines_delivered_once_pieces :
    (Tail.run {} [.append (ascii "a"), .append (ascii "b\n"), .poll, .append (ascii "c\n"),
      .poll]).delivered = [ascii "ab", ascii "c"] :=
  (lines_delivered_once [.append (ascii "a"), .append (ascii "b\n"), .poll,
    .append (ascii "c\n")] (by decide +kernel)).trans (by decide +kernel)

/-- A poll in the middle of a line delivers it in two. -/
theorem line_split_in_two :
    (Tail.run {} [.append (ascii "ab"), .poll, .append (ascii "c\n"), .poll]).delivered =
      [ascii "ab", ascii "c"] ∧
    terminatedLines [] (ascii "abc\n") = [ascii "abc"] := by
  decide +kernel

end FlexAgentRuntime.Tailer
