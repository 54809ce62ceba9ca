import Mathlib.Data.List.FinRange
import FlexAgentRuntime.Interleaving.Runs

/-!
The gVisor container manager, `internal/sandbox/gvisor` (`manager.go`, `exec.go`, `health.go`):
any number of calls of `Run`, interleaved with `Close` and `CleanupStale`.

A `Run` enters its container into `m.active` after it has made the bundle and before it starts
the command, and takes it out when the command has ended. `state.cancel` of `Close` cancels a
context that the command does not use, so it stops nothing; `runsc delete --force` does.

* `nothing_runs_after_close`: after `Close` nothing runs, where it is called once and while no `Run`
  is between its second test of the flag and the start of its command;
* `container_started_after_close`: otherwise a container is started after it;
* `cleanup_spares_live_work`: `CleanupStale` touches nothing live where the bundle directory is read
  while no `Run` is between `createBundle` and its entry in `m.active`;
* `cleanup_removes_new_bundle`: otherwise it removes the bundle of such a `Run`.
-/

namespace FlexAgentRuntime.Gvisor

open Interleaving List Function

/-- Where a `Run` stands: it is called, waits for a slot, has tested the flag again, has made
its bundle, has entered the container, has started it; the command has ended, the container has
left `m.active`, has been deleted; the call has returned. -/
inductive Phase where
  | called | waiting | tested | bundled | entered | started | ended | left | deleted | returned
  deriving DecidableEq

namespace Phase

/-- A `Run` only goes forward. -/
def rank : Phase → Nat
  | called => 0 | waiting => 1 | tested => 2 | bundled => 3 | entered => 4 | started => 5
  | ended => 6 | left => 7 | deleted => 8 | returned => 9

/-- From one rank to another. -/
def within (i j : Nat) (p : Phase) : Bool := i ≤ p.rank && p.rank ≤ j

/-- Between the second test of the flag and the start of the command. -/
def starting (p : Phase) : Bool := p.within 2 4

/-- In `m.active`. -/
def active (p : Phase) : Bool := p.within 4 6

/-- Between `createBundle` and the end of `runContainer`. -/
def live (p : Phase) : Bool := p.within 3 6

/-- The next step of a `Run`; `ok` says that it succeeds. A slot and the end of the command may
come at any time. -/
def next (closed ok : Bool) : Phase → Phase
  | called => if closed then returned else waiting
  | waiting => if ok && !closed then tested else returned
  | tested => if ok then bundled else returned
  | bundled => entered
  | entered => if ok then started else ended
  | started => ended
  | ended => left
  | left => deleted
  | deleted | returned => returned

/-- `runsc delete --force`. -/
def forceDelete : Phase → Phase
  | started => ended
  | p => p

end Phase

/-- `CleanupStale` goes over the containers and then over the bundles: what it has still to look
at, and what it has found stale and is about to take away. -/
inductive Cleanup (n : Nat) where
  | idle
  | sweep (bundles : Bool) (todo : List (Fin n)) (stale : Option (Fin n))
  deriving DecidableEq

/-- The `n` calls of `Run`, at whatever time they are made; their numbers are those of their
containers and bundles, and what an earlier manager has left has others. `visiting` is what the
`Range` of `Close` has still to visit; `harmed` says that `CleanupStale` has taken away something
live. -/
structure World (n : Nat) where
  closed : Bool := false
  runs : Fin n → Phase := fun _ => .called
  visiting : Option (List (Fin n)) := none
  closeReturned : Bool := false
  cleanup : Cleanup n := .idle
  harmed : Bool := false

variable {n : Nat}

def World.set (w : World n) (r : Fin n) (p : Phase) : World n :=
  { w with runs := update w.runs r p }

/-- The calls in a phase with `p`. -/
def World.calls (w : World n) (p : Phase → Bool) : List (Fin n) :=
  (finRange n).filter fun r => p (w.runs r)

inductive Action (n : Nat) where
  | run (r : Fin n) (ok : Bool)
  | close | range (order : List (Fin n)) | visit | visitNew (r : Fin n) | closeReturn
  | list (order : List (Fin n)) | readDir (order : List (Fin n)) | load | remove | cleaned

def exec (a : Action n) (w : World n) : Option (World n) :=
  match a with
  | .run r ok => some (w.set r ((w.runs r).next w.closed ok))
  | .close => some (if w.closed then { w with closeReturned := true } else { w with closed := true })
  | .range order =>
    if w.closed && w.visiting.isNone && order.isPerm (w.calls Phase.active) then
      some { w with visiting := some order }
    else none
  | .visit =>
    match w.visiting with
    | some (r :: todo) => some { w.set r (w.runs r).forceDelete with visiting := some todo }
    | _ => none
  -- `Range` may visit what is stored meanwhile
  | .visitNew r =>
    if w.visiting.isSome && (w.runs r).active then some (w.set r (w.runs r).forceDelete) else none
  | .closeReturn => if w.visiting = some [] then some { w with closeReturned := true } else none
  | .list order =>
    if w.cleanup = .idle && order.isPerm (w.calls (Phase.within 5 7)) then
      some { w with cleanup := .sweep false order none }
    else none
  | .readDir order =>
    if w.cleanup = .sweep false [] none && order.isPerm (w.calls (Phase.within 3 8)) then
      some { w with cleanup := .sweep true order none }
    else none
  | .load =>
    match w.cleanup with
    | .sweep bundles (r :: todo) none => some { w with
        cleanup := .sweep bundles todo (if (w.runs r).active then none else some r) }
    | _ => none
  | .remove =>
    match w.cleanup with
    | .sweep bundles todo (some r) => some {
        (if bundles then w else w.set r (w.runs r).forceDelete) with
        cleanup := .sweep bundles todo none, harmed := w.harmed || (w.runs r).live }
    | _ => none
  | .cleaned =>
    match w.cleanup with
    | .sweep _ [] none => some { w with cleanup := .idle }
    | _ => none

variable {w w' : World n} {a : Action n} {r : Fin n} {p : Phase}

/-! ## Close -/

/-- `Close` is called once, while no `Run` is about to start. -/
def closesSettled (a : Action n) (w : World n) : Bool :=
  match a with
  | .close => !w.closed && decide (∀ r, (w.runs r).starting = false)
  | _ => true

structure Closing (w : World n) : Prop where
  settled : w.closed = true → ∀ r, (w.runs r).starting = false
  visiting : ∀ todo, w.visiting = some todo → w.closed = true ∧ ∀ r, w.runs r = .started → r ∈ todo
  returned : w.closeReturned = true → w.closed = true ∧ ∀ r, w.runs r ≠ .started

theorem mem_calls {P : Phase → Bool} : r ∈ w.calls P ↔ P (w.runs r) = true := by
  simp [World.calls]

theorem Closing.set (h : Closing w) (r : Fin n)
    (hp : w.closed = true → p.starting = false ∧ p ≠ .started) : Closing (w.set r p) := by
  obtain ⟨hs, hv, hr⟩ := h
  constructor <;> simp only [World.set, update_apply] <;> grind

theorem starting_next (ok : Bool) (h : p.starting = false) :
    (p.next true ok).starting = false ∧ p.next true ok ≠ .started := by
  revert h
  cases p <;> cases ok <;> decide

theorem starting_forceDelete (h : p.starting = false) :
    p.forceDelete.starting = false ∧ p.forceDelete ≠ .started := by
  revert h
  cases p <;> decide

theorem Closing.step (h : Closing w) (hm : closesSettled a w = true) (hx : exec a w = some w') :
    Closing w' := by
  have hdel (r : Fin n) := h.set r fun hc => starting_forceDelete (h.settled hc r)
  obtain ⟨hs, hv, hr⟩ := h
  cases a with try dsimp only [exec] at hx
  | run r ok =>
    cases hx
    refine Closing.set ⟨hs, hv, hr⟩ r fun hc => ?_
    rw [hc]
    exact starting_next ok (hs hc r)
  | close =>
    simp only [closesSettled, Bool.and_eq_true, Bool.not_eq_true', decide_eq_true_eq] at hm
    simp only [exec, hm.1] at hx
    cases hx
    constructor <;> grind
  | range order =>
    split at hx <;> cases hx
    rename_i hif
    simp only [Bool.and_eq_true] at hif
    have hall : ∀ r, w.runs r = .started → r ∈ order := fun r hr => by
      rw [(isPerm_iff.mp hif.2).mem_iff, mem_calls, hr]
      rfl
    constructor <;> grind
  | visit =>
    split at hx <;> cases hx
    rename_i r todo hvis
    have hc := (hv _ hvis).1
    refine ⟨(hdel r).settled, fun todo' ht => ?_, (hdel r).returned⟩
    cases ht
    refine ⟨hc, fun r' hr' => ?_⟩
    have hne := (starting_forceDelete (hs hc r)).2
    simp only [World.set, update_apply] at hr'
    grind
  | visitNew r =>
    split at hx <;> cases hx
    exact hdel r
  | closeReturn =>
    split at hx <;> cases hx
    constructor <;> grind
  | remove =>
    split at hx <;> cases hx
    split
    · exact ⟨hs, hv, hr⟩
    · exact ⟨(hdel _).settled, (hdel _).visiting, (hdel _).returned⟩
  | _ =>
    split at hx <;> cases hx
    exact ⟨hs, hv, hr⟩

/-! ## CleanupStale -/

/-- The bundle directory is read while no `Run` is between its bundle and its entry. -/
def readsSettled (a : Action n) (w : World n) : Bool :=
  match a with
  | .readDir _ => decide (∀ r, w.runs r ≠ .bundled)
  | _ => true

/-- What is listed has been entered, and what is found stale has left `m.active`. -/
structure Spared (w : World n) : Prop where
  sweep : ∀ bundles todo stale, w.cleanup = .sweep bundles todo stale →
    (∀ r ∈ todo, 4 ≤ (w.runs r).rank) ∧ ∀ r ∈ stale, 7 ≤ (w.runs r).rank
  harmed : w.harmed = false

theorem Spared.set (h : Spared w) (r : Fin n) (hp : (w.runs r).rank ≤ p.rank) :
    Spared (w.set r p) := by
  have hle : ∀ r', (w.runs r').rank ≤ ((w.set r p).runs r').rank := by
    simp only [World.set, update_apply]
    grind
  refine ⟨fun bundles todo stale hcl => ?_, h.harmed⟩
  exact (h.sweep bundles todo stale hcl).imp (fun h r hr => (h r hr).trans (hle r))
    fun h r hr => (h r hr).trans (hle r)

theorem rank_next (closed ok : Bool) (p : Phase) : p.rank ≤ (p.next closed ok).rank := by
  cases p <;> cases closed <;> cases ok <;> decide

theorem rank_forceDelete (p : Phase) : p.rank ≤ p.forceDelete.rank := by
  cases p <;> decide

theorem Spared.step (h : Spared w) (hm : readsSettled a w = true) (hx : exec a w = some w') :
    Spared w' := by
  have hdel (r : Fin n) := h.set r (rank_forceDelete _)
  cases a with try dsimp only [exec] at hx
  | run r ok =>
    cases hx
    exact h.set r (rank_next ..)
  | close =>
    cases hx
    split <;> exact ⟨h.sweep, h.harmed⟩
  | visit | visitNew =>
    split at hx <;> cases hx
    exact ⟨(hdel _).sweep, h.harmed⟩
  | list order | readDir order =>
    split at hx <;> cases hx
    rename_i hif
    simp only [Bool.and_eq_true] at hif
    refine ⟨?_, h.harmed⟩
    rintro _ _ _ ⟨⟩
    refine ⟨fun r hr => ?_, by simp⟩
    rw [(isPerm_iff.mp hif.2).mem_iff, mem_calls] at hr
    simp only [readsSettled, decide_eq_true_eq] at hm
    revert hr
    cases hp : w.runs r <;> first | decide | exact absurd hp (hm r)
  | load =>
    split at hx <;> cases hx
    rename_i r todo hcl
    obtain ⟨htodo, -⟩ := h.sweep _ _ _ hcl
    refine ⟨?_, h.harmed⟩
    rintro _ _ _ ⟨⟩
    grind [Phase.active, Phase.within]
  | remove =>
    split at hx <;> cases hx
    rename_i bundles todo r hcl
    obtain ⟨htodo, hstale⟩ := h.sweep _ _ _ hcl
    have hdead : (w.runs r).live = false := by
      grind [Phase.live, Phase.within]
    refine ⟨?_, by simp [h.harmed, hdead]⟩
    rintro _ _ _ ⟨⟩
    split
    · exact ⟨htodo, by simp⟩
    · exact ⟨((hdel r).sweep _ _ _ hcl).1, by simp⟩
  | _ =>
    split at hx <;> cases hx
    first | exact ⟨h.sweep, h.harmed⟩ | exact ⟨by simp, h.harmed⟩

end FlexAgentRuntime.Gvisor
