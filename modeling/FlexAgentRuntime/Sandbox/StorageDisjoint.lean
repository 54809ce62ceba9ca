import FlexAgentRuntime.Sandbox.Placement
import FlexAgentRuntime.Sandbox.SnapshotLists
import FlexAgentRuntime.Sandbox.RollbackExclusion

/-!
The storage of different sessions is disjoint and lies in the sessions root, as long as no
session's id continues another one's behind a slash.

On local disk an id is one element of a path, so that different ids never contain each
other. On ZFS an id may have slashes: the dataset of session `a/b` lies below the dataset of
session `a`, and is destroyed with it.
-/

namespace FlexAgentRuntime.SandboxHost

open Interleaving SlashPath List

/-! ## What a removal takes with it -/

/-- The elements of the name of a dataset. -/
def elements (name : String) : List (List Char) := name.toList.splitOn '/'

/-- `zfs destroy -r`: the dataset, those below it, and the snapshots of all of them. -/
def Zfs.destroyTree (z : Zfs) (name : String) : Zfs where
  datasets := z.datasets.filter fun d => ¬ elements name <+: elements d
  snapshots := z.snapshots.filter fun p => ¬ elements name <+: elements p.1

def removeAll (dirs : List String) (path : String) : List String :=
  dirs.filter fun d => ¬ (parse path.toList).Below (parse d.toList)

/-- Neither storage contains the other, and what removes or rolls back the storage of `v`
leaves everything of `v'` in place. -/
def Session.SeparateFrom (config : ServiceConfig) (v v' : Session) : Prop :=
  match config.storageBackend with
  | .zfs =>
    Apart (elements v.dataset) (elements v'.dataset) ∧
      ∀ (z : Zfs) (d : String), elements v'.dataset <+: elements d →
        (d ∈ z.datasets → d ∈ (z.destroyTree v.dataset).datasets) ∧
        (∀ n, (d, n) ∈ z.snapshots → (d, n) ∈ (z.destroyTree v.dataset).snapshots) ∧
        ∀ name z', z.rollback v.dataset name = .ok z' → z'.datasets = z.datasets ∧
          ∀ n, (d, n) ∈ z.snapshots → (d, n) ∈ z'.snapshots
  | .localDisk =>
    ¬ (parse v.mountpoint.toList).Below (parse v'.mountpoint.toList) ∧
      ¬ (parse v'.mountpoint.toList).Below (parse v.mountpoint.toList) ∧
      ∀ (dirs : List String) (d : String), (parse v'.mountpoint.toList).Below (parse d.toList) →
        d ∈ dirs → d ∈ removeAll dirs v.mountpoint

/-- The storage of `v` lies in the sessions root and is not the root itself. -/
def Session.InRoot (config : ServiceConfig) (v : Session) : Prop :=
  match config.storageBackend with
  | .zfs => elements config.sessionsDataset <+: elements v.dataset ∧
      elements v.dataset ≠ elements config.sessionsDataset
  | .localDisk => (parse config.sessionsRootDir.toList).Below (parse v.mountpoint.toList) ∧
      parse v.mountpoint.toList ≠ parse config.sessionsRootDir.toList

variable {config : ServiceConfig} {id id' : String} {v v' : Session}

theorem elements_datasetOf :
    elements (config.datasetOf id) = elements config.sessionsDataset ++ elements id := by
  unfold elements ServiceConfig.datasetOf
  rw [String.toList_ofList, splitOn_append_cons_self]

theorem mem_keepUpTo (hp : p ∈ l) (hne : p.1 ≠ dataset) : p ∈ Zfs.keepUpTo dataset name l := by
  induction l with
  | nil => cases hp
  | cons q l ih =>
    unfold Zfs.keepUpTo
    rcases mem_cons.mp hp with rfl | hp
    · split <;> exact mem_cons_self
    · split
      · apply mem_cons_of_mem
        exact mem_filter.mpr ⟨hp, by simpa using hne⟩
      · exact mem_cons_of_mem q (ih hp)

theorem separate_datasets (h : Apart (elements dataset) (elements dataset')) (z : Zfs)
    (hd : elements dataset' <+: elements d) :
    (d ∈ z.datasets → d ∈ (z.destroyTree dataset).datasets) ∧
      (∀ n, (d, n) ∈ z.snapshots → (d, n) ∈ (z.destroyTree dataset).snapshots) ∧
      ∀ name z', z.rollback dataset name = .ok z' → z'.datasets = z.datasets ∧
        ∀ n, (d, n) ∈ z.snapshots → (d, n) ∈ z'.snapshots := by
  have hout : ¬ elements dataset <+: elements d := h.not_below hd
  refine ⟨?_, ?_, ?_⟩
  · intro hmem
    exact mem_filter.mpr ⟨hmem, by simpa using hout⟩
  · intro n hmem
    exact mem_filter.mpr ⟨hmem, by simpa using hout⟩
  · intro name z' hz
    obtain ⟨-, -, -, rfl⟩ := Zfs.rollback_eq_ok.mp hz
    refine ⟨rfl, ?_⟩
    intro n hmem
    apply mem_keepUpTo hmem
    rintro rfl
    exact hout (prefix_refl _)

theorem Session.separate_of_places (hplace : config.Places id v.dataset v.mountpoint)
    (hplace' : config.Places id' v'.dataset v'.mountpoint) (hne : id ≠ id')
    (hapart : config.storageBackend = .zfs → Apart (elements id) (elements id')) :
    v.SeparateFrom config v' := by
  unfold ServiceConfig.Places at hplace hplace'
  unfold Session.SeparateFrom
  cases hb : config.storageBackend with
  | zfs =>
    rw [hb] at hplace hplace'
    have hsep : Apart (elements v.dataset) (elements v'.dataset) := by
      rw [hplace.1, hplace'.1, elements_datasetOf, elements_datasetOf]
      exact apart_append.mpr (hapart hb)
    exact ⟨hsep, fun z d hd => separate_datasets hsep z hd⟩
  | localDisk =>
    rw [hb] at hplace hplace'
    rw [parse_safeSessionPath hplace.2, parse_safeSessionPath hplace'.2]
    have hids : id.toList ≠ id'.toList := fun h => hne (String.toList_inj.mp h)
    -- what lies below one of the two directories does not lie below the other
    have hout : ∀ q, (sessionDir config.sessionsRootDir id').Below q →
        ¬ (sessionDir config.sessionsRootDir id).Below q := fun q => Path.not_below_child hids
    refine ⟨hout _ (Path.below_refl _), fun h => hout _ h (Path.below_refl _), ?_⟩
    intro dirs d hd hmem
    refine mem_filter.mpr ⟨hmem, ?_⟩
    rw [parse_safeSessionPath hplace.2]
    simpa using hout _ hd

theorem Session.inRoot_of_places (hplace : config.Places id v.dataset v.mountpoint) :
    v.InRoot config := by
  unfold ServiceConfig.Places at hplace
  unfold Session.InRoot
  cases hb : config.storageBackend with
  | zfs =>
    rw [hb] at hplace
    rw [hplace.1, elements_datasetOf]
    refine ⟨prefix_append .., ?_⟩
    intro heq
    exact splitOn_ne_nil '/' id.toList (append_right_eq_self.mp heq)
  | localDisk =>
    rw [hb] at hplace
    rw [parse_safeSessionPath hplace.2]
    have hplain := (validateSessionID_plain (safeSessionPath_eq_ok.mp hplace.2).1).1
    refine ⟨Path.child_below hplain, ?_⟩
    intro heq
    have hlen := congrArg (fun p : Path => p.parts.length) heq
    simp [sessionDir, Path.child] at hlen

/-! ## Runs -/

/-- On ZFS, a session is put into the map only while no other id there continues its own
behind a slash, or is continued by it. -/
def storageCond (c : Config World Op) (a : Op) (_ : Choice) : Bool :=
  match a with
  | .create _ (.reserve id) | .create _ (.store id _ _) =>
    c.state.config.storageBackend == .localDisk ||
      c.state.sessions.all fun q => q.1 == id || decide (Apart (elements id) (elements q.1))
  | _ => true

variable {c : Config World Op} {a : Op} {i : Nat} {rest : List Op} {x : Choice}
  {o : Outcome World Op}

/-- No id of the map continues another one. -/
def World.Flat (w : World) : Prop :=
  w.config.storageBackend = .zfs → ∀ id id' s s', w.getSession id = some s →
    w.getSession id' = some s' → id ≠ id' → Apart (elements id) (elements id')

theorem World.Flat.delete {w : World} (h : w.Flat) (id : String) : (w.deleteSession id).Flat := by
  intro hb id₁ id₂ s₁ s₂ h₁ h₂
  exact h hb id₁ id₂ s₁ s₂ (getSession_of_deleteSession _ h₁) (getSession_of_deleteSession _ h₂)

theorem World.Flat.store {w : World} (h : w.Flat) (v : Session)
    (hv : w.config.storageBackend = .zfs → ∀ id s, w.getSession id = some s → id ≠ v.id →
      Apart (elements v.id) (elements id)) : (w.storeSession v).Flat := by
  intro hb id₁ id₂ s₁ s₂ h₁ h₂ hne
  by_cases hid₁ : id₁ = v.id
  · have hid₂ : id₂ ≠ v.id := fun heq => hne (hid₁.trans heq.symm)
    rw [getSession_storeSession_ne _ _ hid₂] at h₂
    exact hid₁ ▸ hv hb id₂ s₂ h₂ hid₂
  · rw [getSession_storeSession_ne _ _ hid₁] at h₁
    by_cases hid₂ : id₂ = v.id
    · exact hid₂ ▸ (hv hb id₁ s₁ h₁ hid₁).symm
    · rw [getSession_storeSession_ne _ _ hid₂] at h₂
      exact h hb id₁ id₂ s₁ s₂ h₁ h₂ hne

theorem storageCond_apart {w : World}
    (h : (w.config.storageBackend == .localDisk || w.sessions.all fun q => q.1 == id || decide
      (Apart (elements id) (elements q.1))) = true)
    (hb : w.config.storageBackend = .zfs) (hget : w.getSession id' = some s) (hne : id' ≠ id) :
    Apart (elements id) (elements id') := by
  simp only [hb, Bool.or_eq_true, beq_iff_eq, reduceCtorEq, false_or, all_eq_true,
    decide_eq_true_eq] at h
  exact (h (id', s) (getSession_some hget)).resolve_left hne

theorem World.Flat.step (h : c.state.Flat) (hx : exec x a c.state = some o)
    (hcond : storageCond c a x = true) : o.state.Flat := by
  obtain ⟨w', more, spawn⟩ := o
  have hmap : MapStep c.state a w' more := mapStep_of_exec hx
  show w'.Flat
  cases hmap with
  | same hsess _ hconf =>
    intro hb id id' s s' hs hs'
    rw [World.getSession, hsess] at hs hs'
    exact h (hconf ▸ hb) id id' s s' hs hs'
  | reserved | stored => exact h.store _ fun hb id s hget hne => storageCond_apart hcond hb hget hne
  | forgot | deleted => exact h.delete _

theorem Reach.flat
    (hr : Reach machine (Monitor.when storageCond) () (initialConfig config zfs) h c) :
    c.state.Flat := by
  refine hr.invariant (fun _ c => c.state.Flat) ?_ ?_ ?_
  · intro _ id id' s s' hs
    cases hs
  · intro _ c a ih _
    exact ih
  · intro _ c i a rest x o ih _ hx hcond
    exact ih.step hx hcond

/-- In every run in which, on ZFS, sessions are put into the map only under ids that do not
continue each other behind a slash: the storages of two sessions that have been set up under
different ids are disjoint, destroying one of them recursively or rolling it back leaves
everything of the other one in place, and they lie in the sessions root. -/
theorem storage_disjoint {config : ServiceConfig} {zfs : Zfs} {h : Unit} {c : Config World Op}
    {id id' : String} {s s' : SessRef}
    (hr : Reach machine (Monitor.when storageCond) () (initialConfig config zfs) h c)
    (hs : c.state.getSession id = some s) (hs' : c.state.getSession id' = some s') (hne : id ≠ id')
    (hset : (c.state.sess s).mountpoint ≠ "") (hset' : (c.state.sess s').mountpoint ≠ "") :
    (c.state.sess s).SeparateFrom config (c.state.sess s') ∧ (c.state.sess s).InRoot config := by
  have hplaced := Reach.placed hr
  have hsc := Reach.scoped hr
  have hplaces : ∀ {id s}, c.state.getSession id = some s → (c.state.sess s).mountpoint ≠ "" →
      config.Places id (c.state.sess s).dataset (c.state.sess s).mountpoint := by
    intro id s hget hmp
    rcases hplaced.built s (hsc.getSession hget) with ⟨-, hnone⟩ | hp
    · exact absurd hnone hmp
    · rwa [hplaced.ids id s hget] at hp
  refine ⟨Session.separate_of_places (hplaces hs hset) (hplaces hs' hset') hne ?_,
    Session.inRoot_of_places (hplaces hs hset)⟩
  intro hb
  exact Reach.flat hr (hplaced.config_eq ▸ hb) id id' s s' hs hs' hne

/-- A run with two sessions. -/
def twoSessions (id id' : String) : List (Label Op Choice) :=
  [.call (.create ⟨"tank/base@v1", id, 0⟩ .start), .go 0 6,
   .call (.create ⟨"tank/base@v1", id', 0⟩ .start), .go 1 6]

theorem storage_disjoint_two : ∃ h c,
    Reach machine (Monitor.when storageCond) () (initialConfig zfsConfig basePool) h c ∧
      (c.state.sess 1).dataset = "tank/sessions/a" ∧
      (c.state.sess 3).dataset = "tank/sessions/b" ∧
      (c.state.sess 1).SeparateFrom zfsConfig (c.state.sess 3) ∧
      (c.state.sess 1).InRoot zfsConfig := by
  refine Machine.follow_imp defaultChoice (twoSessions "a" "b")
    (fun _ c => c.state.getSession "a" = some 1 ∧ c.state.getSession "b" = some 3 ∧
      (c.state.sess 1).mountpoint ≠ "" ∧ (c.state.sess 3).mountpoint ≠ "" ∧
      (c.state.sess 1).dataset = "tank/sessions/a" ∧
      (c.state.sess 3).dataset = "tank/sessions/b") ?_
  rintro h c hr ⟨hs, hs', hmp, hmp', hd, hd'⟩
  exact ⟨hd, hd', storage_disjoint hr hs hs' (by decide) hmp hmp'⟩

/-- The dataset of session `a/b` lies in the dataset of session `a`, and is destroyed with
it. -/
theorem nested_session_destroyed : ∃ c,
    Reach machine Monitor.free () (initialConfig zfsConfig basePool) () c ∧
      c.state.getSession "a" = some 1 ∧ c.state.getSession "a/b" = some 3 ∧
      elements (c.state.sess 1).dataset <+: elements (c.state.sess 3).dataset ∧
      (c.state.sess 3).dataset ∈ c.state.zfs.datasets ∧
      (c.state.sess 3).dataset ∉ (c.state.zfs.destroyTree (c.state.sess 1).dataset).datasets :=
  Machine.follow_state defaultChoice (twoSessions "a" "a/b")

end FlexAgentRuntime.SandboxHost
