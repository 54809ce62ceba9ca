import FlexAgentRuntime.Fleet.Instance

/-!
`CapacityRouter` (`fleet/routing.go`): which instance gets the next sandbox.

The router sees snapshots of the instances. Among those that are routable, below
their maximum and not above `CapacityHeadroom` it prefers the most headroom, then
the longest idle, then goes round. Scores are exact rationals here.

* `selectInstance_eligible`: the chosen snapshot is one of those given, and is
  eligible.
-/

namespace FlexAgentRuntime.Fleet

open List

abbrev MiRef := Nat

/-- The copy of an instance's fields that `selectAndClaim` hands to the router;
`ref` stands for the pointer it keeps in `real`. -/
structure Snapshot where
  ref : MiRef
  state : InstanceState
  sessionCount : Int
  maxSessions : Nat
  idleSince : Option Time
  deriving DecidableEq, Repr

def ManagedInstance.snapshot (mi : ManagedInstance) (ref : MiRef) : Snapshot :=
  ⟨ref, mi.state, mi.sessionCount, mi.maxSessions, mi.idleSince⟩

namespace CapacityRouter

def headroom (s : Snapshot) : Rat := 1 - (s.sessionCount : Rat) / (s.maxSessions : Rat)

def eligible (capacityHeadroom : Rat) (s : Snapshot) : Bool :=
  s.state.routable && decide (s.sessionCount < s.maxSessions) &&
    !decide (headroom s < 1 - capacityHeadroom)

/-- One round of the loop that looks for the longest idle candidate: the best so
far, and whether no candidate so far is idle. -/
def older (acc : Snapshot × Bool) (c : Snapshot) : Snapshot × Bool :=
  match c.idleSince with
  | none => acc
  | some t =>
    match acc.1.idleSince with
    | none => (c, false)
    | some t' => (if t < t' then c else acc.1, false)

/-- `SelectInstance`: the choice, and the new value of the round-robin counter. -/
def selectInstance (capacityHeadroom : Rat) (roundRobin : Nat) (instances : List Snapshot) :
    Option Snapshot × Nat :=
  match instances.filter (eligible capacityHeadroom) with
  | [] => (none, roundRobin)
  | c :: cs =>
    let bestScore := cs.foldl (fun b c => if headroom c > b then headroom c else b) (headroom c)
    let tied := (c :: cs).filter fun c => bestScore - headroom c < 1 / 1000
    match tied with
    | [] => (none, roundRobin)
    | [t] => (some t, roundRobin)
    | t :: ts =>
      let (best, allZero) := ts.foldl older (t, t.idleSince.isNone)
      if allZero then
        let n := (roundRobin + 1) % 2 ^ 64
        ((t :: ts)[n % (t :: ts).length]?, n)
      else (some best, roundRobin)

theorem older_mem {l : List Snapshot} {acc : Snapshot × Bool} {c : Snapshot} (ha : acc.1 ∈ l)
    (hc : c ∈ l) : (older acc c).1 ∈ l := by
  unfold older
  split
  · exact ha
  · split
    · exact hc
    · dsimp only
      split
      · exact hc
      · exact ha

theorem foldl_older_mem {l : List Snapshot} (ts : List Snapshot) {acc : Snapshot × Bool}
    (ha : acc.1 ∈ l) (hts : ∀ t ∈ ts, t ∈ l) : (ts.foldl older acc).1 ∈ l := by
  induction ts generalizing acc with
  | nil => exact ha
  | cons t ts ih =>
    exact ih (older_mem ha (hts t (mem_cons_self ..))) fun t' ht => hts t' (mem_cons_of_mem _ ht)

theorem selectInstance_eligible {instances : List Snapshot}
    (h : selectInstance capacityHeadroom roundRobin instances = (some s, n)) :
    s ∈ instances ∧ eligible capacityHeadroom s = true := by
  suffices hm : s ∈ instances.filter (eligible capacityHeadroom) from mem_filter.mp hm
  unfold selectInstance at h
  split at h
  · cases h
  · rename_i c cs hcs
    rw [hcs]
    dsimp only at h
    split at h
    · cases h
    · rename_i t ht
      cases h
      exact (mem_filter.mp (ht ▸ mem_cons_self ..)).1
    · rename_i t ts _ ht
      have hsub : ∀ t' ∈ t :: ts, t' ∈ c :: cs := fun t' hm => (mem_filter.mp (ht ▸ hm)).1
      split at h
      · exact hsub s (mem_of_getElem? (Prod.mk.inj h).1)
      · cases h
        exact foldl_older_mem ts (hsub t (mem_cons_self ..))
          fun t' hm => hsub t' (mem_cons_of_mem _ hm)

end CapacityRouter

end FlexAgentRuntime.Fleet
