import FlexAgentRuntime.Sandbox.Effects

/-!
The snapshots of one dataset as the list of their names, and what the calls to the storage
and the bookkeeping of the host do to such lists.

* `Zfs.namesOf`: the snapshots of a dataset in the order of their creation;
* `Zfs.createSnapshot_eq_ok`, `Zfs.rollback_eq_ok`, `Zfs.destroySnapshot_eq_ok`: when a call
  succeeds and what it leaves;
* `Zfs.Proper`: valid and different names, kept by the calls;
* `rolledBack_names`: the host cuts its list where the storage does;
* `turnSnapshotName_injective`: turns of different numbers have different snapshots.
-/

namespace FlexAgentRuntime.SandboxHost

open Interleaving List

/-! ## Names -/

theorem ofDigitChars_replicate_zero (k : Nat) (cs : List Char) :
    Nat.ofDigitChars 10 (List.replicate k '0' ++ cs) 0 = Nat.ofDigitChars 10 cs 0 := by
  induction k with
  | zero => rfl
  | succ k ih =>
    rw [replicate_succ, cons_append, Nat.ofDigitChars_cons]
    exact ih

theorem turnSnapshotName_injective (snapshotPrefix : String) :
    Function.Injective (turnSnapshotName snapshotPrefix) := by
  intro m n h
  have hcs := append_cancel_left (String.ofList_injective h)
  have hnum := congrArg (fun cs => Nat.ofDigitChars 10 cs 0) (tail_eq_of_cons_eq hcs)
  simpa only [ofDigitChars_replicate_zero, Nat.ofDigitChars_toDigits (b := 10) (by decide)
    (by decide)] using hnum

theorem prefix_turnSnapshotName (snapshotPrefix : String) (n : Nat) :
    snapshotPrefix.toList <+: (turnSnapshotName snapshotPrefix n).toList := by
  rw [turnSnapshotName, String.toList_ofList]
  exact prefix_append _ _

/-! ## Calls -/

namespace Zfs

variable {z z' : Zfs} {dataset name : String}

/-- The snapshots of a dataset, in the order of their creation. -/
def namesOf (z : Zfs) (dataset : String) : List String :=
  (z.snapshots.filter (·.1 = dataset)).map (·.2)

theorem mem_namesOf : name ∈ z.namesOf dataset ↔ (dataset, name) ∈ z.snapshots := by
  simp [namesOf]

theorem validated_eq_ok {r : Except ZfsError Zfs} :
    (do validateName dataset; validateSnapshotName name; r) = .ok z' ↔
      validateName dataset = .ok () ∧ validateSnapshotName name = .ok () ∧ r = .ok z' := by
  cases validateName dataset with
  | error err => simp [bind, Except.bind]
  | ok => cases validateSnapshotName name <;> simp [bind, Except.bind]

theorem createSnapshot_eq_ok :
    z.createSnapshot dataset name = .ok z' ↔
      validateName dataset = .ok () ∧ validateSnapshotName name = .ok () ∧
        dataset ∈ z.datasets ∧ name ∉ z.namesOf dataset ∧
        z' = { z with snapshots := z.snapshots ++ [(dataset, name)] } := by
  rw [mem_namesOf]
  unfold createSnapshot require
  refine validated_eq_ok.trans (and_congr_right' (and_congr_right' ?_))
  by_cases hd : dataset ∈ z.datasets <;> by_cases hs : (dataset, name) ∈ z.snapshots <;>
    simp [bind, Except.bind, pure, Except.pure, hd, hs, eq_comm]

theorem rollback_eq_ok :
    z.rollback dataset name = .ok z' ↔
      validateName dataset = .ok () ∧ validateSnapshotName name = .ok () ∧
        name ∈ z.namesOf dataset ∧
        z' = { z with snapshots := keepUpTo dataset name z.snapshots } := by
  rw [mem_namesOf]
  unfold rollback require
  refine validated_eq_ok.trans (and_congr_right' (and_congr_right' ?_))
  by_cases hs : (dataset, name) ∈ z.snapshots <;>
    simp [bind, Except.bind, pure, Except.pure, hs, eq_comm]

theorem destroySnapshot_eq_ok :
    z.destroySnapshot dataset name = .ok z' ↔
      validateName dataset = .ok () ∧ validateSnapshotName name = .ok () ∧
        name ∈ z.namesOf dataset ∧
        z' = { z with snapshots := z.snapshots.filter (· ≠ (dataset, name)) } := by
  rw [mem_namesOf]
  unfold destroySnapshot require
  refine validated_eq_ok.trans (and_congr_right' (and_congr_right' ?_))
  by_cases hs : (dataset, name) ∈ z.snapshots <;>
    simp [bind, Except.bind, pure, Except.pure, hs, eq_comm]

section

variable (ds : List String) (l : List (String × String))

include ds l

theorem namesOf_keepUpTo : namesOf ⟨ds, keepUpTo dataset name l⟩ dataset =
      (namesOf ⟨ds, l⟩ dataset).take ((namesOf ⟨ds, l⟩ dataset).idxOf name + 1) := by
  induction l with
  | nil => rfl
  | cons p l ih =>
    unfold keepUpTo
    by_cases hp : p = (dataset, name)
    · subst hp
      simp [namesOf, filter_filter]
    · rw [if_neg hp]
      by_cases hd : p.1 = dataset
      · have hne : p.2 ≠ name := fun h => hp (Prod.ext hd h)
        simpa [namesOf, hd, idxOf_cons_ne _ hne] using ih
      · simpa [namesOf, hd] using ih

theorem namesOf_filter_ne : namesOf ⟨ds, l.filter (· ≠ (dataset, name))⟩ dataset =
      (namesOf ⟨ds, l⟩ dataset).filter (· ≠ name) := by
  induction l with
  | nil => rfl
  | cons p l ih =>
    by_cases hd : p.1 = dataset
    · by_cases hn : p.2 = name
      · have hp : p = (dataset, name) := Prod.ext hd hn
        subst hp
        simpa [namesOf] using ih
      · have hp : p ≠ (dataset, name) := fun h => hn (h ▸ rfl)
        simpa [namesOf, hd, hn, hp] using ih
    · have hp : p ≠ (dataset, name) := fun h => hd (h ▸ rfl)
      simpa [namesOf, hd, hp] using ih

end

/-- The names of the snapshots of a dataset are valid and differ from each other. -/
structure Proper (z : Zfs) (dataset : String) : Prop where
  valid : ∀ n ∈ z.namesOf dataset, validateSnapshotName n = .ok ()
  nodup : (z.namesOf dataset).Nodup

theorem Proper.of_sublist (h : z.Proper dataset)
    (hsub : (z'.namesOf dataset').Sublist (z.namesOf dataset)) : z'.Proper dataset' :=
  ⟨fun n hn => h.valid n (hsub.subset hn), hsub.nodup h.nodup⟩

theorem Proper.createSnapshot (h : z.Proper dataset)
    (hz : z.createSnapshot dataset name = .ok z') :
    z'.namesOf dataset = z.namesOf dataset ++ [name] ∧ z'.Proper dataset := by
  obtain ⟨-, hname, -, hnot, rfl⟩ := createSnapshot_eq_ok.mp hz
  have hof : namesOf ⟨z.datasets, z.snapshots ++ [(dataset, name)]⟩ dataset =
      z.namesOf dataset ++ [name] := by simp [namesOf]
  refine ⟨hof, ?_, ?_⟩ <;> rw [hof]
  · intro n hn
    rcases mem_concat.mp hn with hn | rfl
    · exact h.valid n hn
    · exact hname
  · refine nodup_append.mpr ⟨h.nodup, by simp, fun n hn m hm hnm => ?_⟩
    cases mem_singleton.mp hm
    exact hnot (hnm ▸ hn)

theorem Proper.destroySnapshot (h : z.Proper dataset) (hz : z.destroySnapshot dataset name = .ok z')
    (hof : z.namesOf dataset = name :: l) : z'.namesOf dataset = l := by
  obtain ⟨-, -, -, rfl⟩ := destroySnapshot_eq_ok.mp hz
  have hnodup := h.nodup
  rw [hof, nodup_cons] at hnodup
  calc namesOf ⟨z.datasets, z.snapshots.filter (· ≠ (dataset, name))⟩ dataset
      = (z.namesOf dataset).filter (· ≠ name) := namesOf_filter_ne ..
    _ = l.filter (· ≠ name) := by rw [hof, filter_cons_of_neg (by simp)]
    _ = l := filter_eq_self.mpr fun n hn => decide_eq_true fun hne => hnodup.1 (hne ▸ hn)

theorem namesOf_rollback (hz : z.rollback dataset name = .ok z') :
    z'.namesOf dataset = (z.namesOf dataset).take ((z.namesOf dataset).idxOf name + 1) := by
  obtain ⟨-, -, -, rfl⟩ := rollback_eq_ok.mp hz
  exact namesOf_keepUpTo ..

end Zfs

/-! ## The host's list -/

def Session.names (v : Session) : List String := v.snapshots.map (·.name)

theorem keepSnapshots_eq (name : String) (es : List SnapshotEntry) :
    keepSnapshots name es =
      if name ∈ es.map (·.name) then some (es.take ((es.map (·.name)).idxOf name + 1))
      else none := by
  induction es with
  | nil => rfl
  | cons e es ih =>
    unfold keepSnapshots
    by_cases he : e.name = name
    · simp [he]
    · have hne : name ≠ e.name := fun h => he h.symm
      rw [if_neg he, ih]
      by_cases hm : name ∈ es.map (·.name)
      · rw [if_pos hm, if_pos (by simpa [hne] using hm), Option.map_some, map_cons,
          idxOf_cons_ne _ he, take_succ_cons]
      · rw [if_neg hm, if_neg (by simpa [hne] using hm)]
        rfl

theorem Session.rolledBack_of_mem {v : Session} (h : name ∈ v.names) :
    v.rolledBack name = { v with
      snapshots := v.snapshots.take (v.names.idxOf name + 1)
      turnCount := (v.snapshots.take (v.names.idxOf name + 1)).countP (·.isTurnSnapshot) } := by
  have hk : keepSnapshots name v.snapshots = some (v.snapshots.take (v.names.idxOf name + 1)) :=
    (keepSnapshots_eq name v.snapshots).trans (if_pos h)
  simp only [Session.rolledBack, hk]

theorem rolledBack_names {v : Session} (h : name ∈ v.names) :
    (v.rolledBack name).names = v.names.take (v.names.idxOf name + 1) := by
  rw [Session.rolledBack_of_mem h]
  exact map_take

end FlexAgentRuntime.SandboxHost
