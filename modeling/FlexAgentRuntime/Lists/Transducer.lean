import Mathlib.Data.List.Basic

/-!
Machines that read a list of inputs and write outputs as they go.

A step leads to the next state, stops the reading, or fails. The reading can also be
interrupted before an input, and the list of inputs can end in a failure; otherwise the
machine finishes. `run_cases` says how a run ends, and `Steps` what has been read by then.
-/

namespace Transducer

open List

inductive Step (σ ε : Type*) where
  | next (s : σ)
  | stop (s : σ)
  | fail (s : σ) (e : ε)

structure Machine (ι σ ο ε : Type*) where
  step : σ → ι → List ο × Step σ ε
  finish : σ → List ο × σ × Option ε

structure Result (σ ο ε : Type*) where
  out : List ο
  state : σ
  error : Option ε

variable {ι σ ο ε : Type*}

/-- The result after more output has been written first. -/
def Result.after (out : List ο) (r : Result σ ο ε) : Result σ ο ε := { r with out := out ++ r.out }

/-- One step after the other, on the elements of a list, until one stops or fails. -/
def each {α : Type*} (f : σ → α → List ο × Step σ ε) : σ → List α → List ο × Step σ ε
  | s, [] => ([], .next s)
  | s, a :: as =>
    match f s a with
    | (out, .next s') => (out ++ (each f s' as).1, (each f s' as).2)
    | r => r

namespace Machine

variable (M : Machine ι σ ο ε)

def finished (s : σ) : Result σ ο ε :=
  match M.finish s with
  | (out, s', e) => ⟨out, s', e⟩

/-- A run on the inputs. `interrupt` says before which of them it is interrupted, and with
which error; `eof` is the failure that the inputs end in. -/
def run (interrupt : Option (Nat × ε)) (eof : Option ε) : σ → List ι → Result σ ο ε
  | s, [] =>
    match eof with
    | some e => ⟨[], s, some e⟩
    | none => M.finished s
  | s, i :: is =>
    match interrupt with
    | some (0, e) => ⟨[], s, some e⟩
    | _ =>
      match M.step s i with
      | (out, .next s') => (run (interrupt.map fun p => (p.1 - 1, p.2)) eof s' is).after out
      | (out, .stop s') => (M.finished s').after out
      | (out, .fail s' e) => ⟨out, s', some e⟩

/-- Reading the inputs leads from one state to another without stop or failure. -/
inductive Steps : σ → List ι → List ο → σ → Prop where
  | nil (s : σ) : Steps s [] [] s
  | cons {s s' t : σ} {i : ι} {is : List ι} {out outs : List ο} :
      M.step s i = (out, .next s') → Steps s' is outs t → Steps s (i :: is) (out ++ outs) t

/-- The run is not interrupted before the first `n` inputs have been read. -/
def Beyond (interrupt : Option (Nat × ε)) (n : Nat) : Prop :=
  ∀ k e, interrupt = some (k, e) → n ≤ k

/-- How a run ends. -/
inductive Ends (interrupt : Option (Nat × ε)) (eof : Option ε) (s : σ) (is : List ι) :
    Result σ ο ε → Prop where
  | finish {out : List ο} {t : σ} : M.Steps s is out t → eof = none →
      Beyond interrupt is.length → Ends interrupt eof s is ((M.finished t).after out)
  | eof {out : List ο} {t : σ} {e : ε} : M.Steps s is out t → eof = some e →
      Beyond interrupt is.length → Ends interrupt eof s is ⟨out, t, some e⟩
  | interrupt {read rest : List ι} {out : List ο} {t : σ} {i : ι} {e : ε} :
      is = read ++ i :: rest → M.Steps s read out t → interrupt = some (read.length, e) →
      Ends interrupt eof s is ⟨out, t, some e⟩
  | stop {read rest : List ι} {out outs : List ο} {t t' : σ} {i : ι} :
      is = read ++ i :: rest → M.Steps s read out t → M.step t i = (outs, .stop t') →
      Beyond interrupt (read.length + 1) →
      Ends interrupt eof s is ((M.finished t').after (out ++ outs))
  | fail {read rest : List ι} {out outs : List ο} {t t' : σ} {i : ι} {e : ε} :
      is = read ++ i :: rest → M.Steps s read out t → M.step t i = (outs, .fail t' e) →
      Beyond interrupt (read.length + 1) → Ends interrupt eof s is ⟨out ++ outs, t', some e⟩

variable {M} {interrupt : Option (Nat × ε)} {eof : Option ε} {s t : σ} {i : ι} {is : List ι}
  {out outs : List ο}

theorem after_after (r : Result σ ο ε) : (r.after outs).after out = r.after (out ++ outs) := by
  simp [Result.after]

theorem beyond_one (hi : ∀ e, interrupt ≠ some (0, e)) : Beyond interrupt 1 :=
  fun _ e hk => Nat.pos_of_ne_zero fun h0 => hi e (h0 ▸ hk)

theorem Beyond.succ (hi : ∀ e, interrupt ≠ some (0, e))
    (h : Beyond (interrupt.map fun p => (p.1 - 1, p.2)) n) : Beyond interrupt (n + 1) := by
  intro k e hk
  have hpos : 1 ≤ k := beyond_one hi k e hk
  have hle := h (k - 1) e (by rw [hk]; rfl)
  omega

theorem Ends.cons (hi : ∀ e, interrupt ≠ some (0, e)) (hs : M.step s i = (out, .next t))
    (h : M.Ends (interrupt.map fun p => (p.1 - 1, p.2)) eof t is r) :
    M.Ends interrupt eof s (i :: is) (r.after out) := by
  cases h with
  | @finish outs u hsteps heof hbound =>
    rw [after_after]
    exact .finish (.cons hs hsteps) heof (hbound.succ hi)
  | eof hsteps heof hbound => exact .eof (.cons hs hsteps) heof (hbound.succ hi)
  | @interrupt read rest outs u i' e his hsteps heq =>
    subst his
    obtain ⟨⟨k, e'⟩, hint, hp⟩ := Option.map_eq_some_iff.mp heq
    obtain ⟨hk, rfl⟩ := Prod.mk.inj hp
    have hpos : 1 ≤ k := beyond_one hi k e' hint
    have hk' : k = (i :: read).length := by
      change k - 1 = read.length at hk
      rw [length_cons]
      omega
    exact .interrupt cons_append.symm (.cons hs hsteps) (hk' ▸ hint)
  | @stop read rest outs outs' u u' i' his hsteps hstop hbound =>
    subst his
    rw [after_after, ← append_assoc]
    exact .stop cons_append.symm (.cons hs hsteps) hstop (hbound.succ hi)
  | @fail read rest outs outs' u u' i' e his hsteps hfail hbound =>
    subst his
    rw [Result.after, ← append_assoc]
    exact .fail cons_append.symm (.cons hs hsteps) hfail (hbound.succ hi)

theorem run_cases (M : Machine ι σ ο ε) (interrupt : Option (Nat × ε)) (eof : Option ε) (s : σ)
    (is : List ι) : M.Ends interrupt eof s is (M.run interrupt eof s is) := by
  induction is generalizing interrupt s with
  | nil =>
    unfold run
    split
    · exact .eof (.nil s) rfl fun k _ _ => Nat.zero_le k
    · have h : M.Ends interrupt none s [] ((M.finished s).after []) :=
        .finish (.nil s) rfl fun k _ _ => Nat.zero_le k
      exact h
  | cons i is ih =>
    unfold run
    split
    · exact .interrupt (nil_append _).symm (.nil s) rfl
    · rename_i hi
      split
      · rename_i out s' hs
        exact (ih _ s').cons hi hs
      · rename_i out s' hs
        have h : M.Ends interrupt eof s (i :: is) ((M.finished s').after ([] ++ out)) :=
          .stop (nil_append _).symm (.nil s) hs (beyond_one hi)
        exact h
      · rename_i out s' e hs
        have h : M.Ends interrupt eof s (i :: is) ⟨[] ++ out, s', some e⟩ :=
          .fail (nil_append _).symm (.nil s) hs (beyond_one hi)
        exact h

/-! ## Rules -/

/-- What a step does to a state and to the inputs read so far holds after any number of them. -/
theorem Steps.invariant {P : List ι → σ → Prop} (h : M.Steps s is out t) (h0 : P [] s)
    (hstep : ∀ {read s i out s'}, P read s → M.step s i = (out, .next s') → P (read ++ [i]) s') :
    P is t := by
  have key : ∀ {s is out t}, M.Steps s is out t → ∀ read, P read s → P (read ++ is) t := by
    intro s is out t h
    induction h with
    | nil s =>
      intro read hP
      rwa [append_nil]
    | @cons s s' t i is out outs hs _ ih =>
      intro read hP
      have hnext := ih (read ++ [i]) (hstep hP hs)
      rwa [append_assoc] at hnext
  exact key h [] h0

theorem Steps.of_append (h : M.Steps s (is ++ is') out t) :
    ∃ u outs outs', M.Steps s is outs u ∧ M.Steps u is' outs' t ∧ out = outs ++ outs' := by
  induction is generalizing s out with
  | nil => exact ⟨s, [], out, .nil s, h, rfl⟩
  | cons i is ih =>
    cases h with
    | @cons _ s' _ _ _ o os hs hrest =>
      obtain ⟨u, outs, outs', hsteps, hsteps', rfl⟩ := ih hrest
      exact ⟨u, o ++ outs, outs', .cons hs hsteps, hsteps', (append_assoc ..).symm⟩

theorem Steps.forall_out {p : ο → Prop} (h : M.Steps s is out t)
    (hstep : ∀ {s i out s'}, M.step s i = (out, .next s') → ∀ o ∈ out, p o) : ∀ o ∈ out, p o := by
  induction h with
  | nil => exact forall_mem_nil _
  | cons hs _ ih => exact forall_mem_append.mpr ⟨hstep hs, ih⟩

end Machine

theorem each_ne_stop {f : σ → ι → List ο × Step σ ε} (hf : ∀ s a t, (f s a).2 ≠ .stop t)
    (as : List ι) (s t : σ) : (each f s as).2 ≠ .stop t := by
  induction as generalizing s with
  | nil => exact fun h => by cases h
  | cons a as ih =>
    unfold each
    split
    · exact ih _
    · exact hf s a t

/-- A list that is gone through without stop or failure is read by the machine of the step. -/
theorem steps_of_each (fin : σ → List ο × σ × Option ε) (h : each f s as = (out, .next t)) :
    (⟨f, fin⟩ : Machine ι σ ο ε).Steps s as out t := by
  induction as generalizing s out with
  | nil =>
    cases h
    exact .nil _
  | cons a as ih =>
    unfold each at h
    split at h
    · rename_i out' s' hs
      obtain ⟨rfl, hrest⟩ := Prod.mk.inj h
      exact .cons hs (ih (Prod.ext rfl hrest))
    · rename_i hne
      exact absurd h (hne out t)

end Transducer
