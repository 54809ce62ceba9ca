import FlexAgentRuntime.Interleaving.Sequential
import FlexAgentRuntime.Sandbox.SnapshotOrder

/-!
Turns of a session that is used by one caller at a time are numbered one after the other,
also after a rollback, as long as rollbacks are made only while the list still has every
turn's snapshot.

`RollbackSession` takes the number of turn snapshots in the list for the number of the last
turn. `cleanupOldSnapshots` takes snapshots off the list, so after a clean-up the count is
behind, and the next turn gets the number of an older one.

* `completes_turn`, `completes_snapshot`, `completes_rollback`: what each call does;
* `Numbered`: the turn snapshots in the list bear consecutive numbers up to the last turn's.
-/

namespace FlexAgentRuntime.SandboxHost

open Interleaving List

/-- Every call to the storage goes through. -/
def noFailure (_ : Op) : Choice := .ok

/-! ## The calls -/

/-- Between two calls: session `id` is `s`, it can be used, and its list names the
snapshots of its dataset. -/
structure World.Ready (w : World) (id : String) (s : SessRef) : Prop where
  backend : w.config.storageBackend = .zfs
  found : w.getSession id = some s
  active : (w.sess s).state = .active
  free : (w.sess s).rollingBack = false
  noTool : (w.sess s).activeTools = 0
  valid : validateName (w.sess s).dataset = .ok ()
  stored : (w.sess s).dataset ∈ w.zfs.datasets
  proper : w.zfs.Proper (w.sess s).dataset
  listed : w.zfs.namesOf (w.sess s).dataset = (w.sess s).names

theorem World.Fresh.ready {w : World} {id : String} {s : SessRef} (h : w.Fresh id s) :
    w.Ready id s where
  backend := h.backend
  found := h.found
  active := h.active
  free := h.free
  noTool := h.noTool
  valid := h.valid
  stored := h.stored
  proper := ⟨by simp [h.noSnapshot], by simp [h.noSnapshot]⟩
  listed := by simp [h.noSnapshot, Session.names, h.noEntry]

variable {w₀ w w' : World} {id name pre : String} {s : SessRef} {z : Zfs} {v : Session}
  {config : ServiceConfig} {tr : List Op}

/-- The state of the storage and of session `s` changes, the rest stays. -/
def World.put (w : World) (s : SessRef) (v : Session) (z : Zfs) : World :=
  { w with sess := Function.update w.sess s v, zfs := z }

@[simp] theorem World.put_sess (w : World) (s : SessRef) (v : Session) (z : Zfs) :
    (w.put s v z).sess s = v := Function.update_self ..

@[simp] theorem World.put_zfs (w : World) (s : SessRef) (v : Session) (z : Zfs) :
    (w.put s v z).zfs = z := rfl

@[simp] theorem World.put_put (w : World) (s : SessRef) (v v' : Session) (z z' : Zfs) :
    (w.put s v z).put s v' z' = w.put s v' z' := by
  simp [World.put]

theorem World.setSess_put (w : World) (s : SessRef) (v : Session) (z : Zfs)
    (f : Session → Session) : (w.put s v z).setSess s f = w.put s (f v) z := by
  simp [World.put, World.setSess]

/-- What has to be shown of a call's outcome. -/
theorem World.Ready.put (h : w.Ready id s) (hst : v.state = .active) (hfree : v.rollingBack = false)
    (htools : v.activeTools = 0) (hds : v.dataset = (w.sess s).dataset)
    (hsets : z.datasets = w.zfs.datasets) (hproper : z.Proper v.dataset)
    (hlisted : z.namesOf v.dataset = v.names) : (w.put s v z).Ready id s := by
  refine ⟨h.backend, h.found, ?_, ?_, ?_, ?_, ?_, ?_, ?_⟩ <;> rw [World.put_sess]
  · exact hst
  · exact hfree
  · exact htools
  · rw [hds]
    exact h.valid
  · rw [hds, World.put_zfs, hsets]
    exact h.stored
  · exact hproper
  · exact hlisted

theorem completes_destroySnapshots (w : World) (id : String) (s : SessRef)
    (hv : validateName v.dataset = .ok ()) (hproper : z.Proper v.dataset)
    (hof : z.namesOf v.dataset = old ++ keep) :
    ∃ z' tr, Completes machine noFailure (w.put s v z) [.turn id (.destroySnapshots s old)]
        (w.put s v z') tr ∧ z'.namesOf v.dataset = keep ∧ z'.datasets = z.datasets := by
  induction old generalizing z with
  | nil => exact ⟨z, _, .alone rfl .done, hof, rfl⟩
  | cons n old ih =>
    have hmem : n ∈ z.namesOf v.dataset := by simp [hof]
    obtain ⟨z₁, hz₁⟩ : ∃ z₁, z.destroySnapshot v.dataset n = .ok z₁ :=
      ⟨_, Zfs.destroySnapshot_eq_ok.mpr ⟨hv, hproper.valid n hmem, hmem, rfl⟩⟩
    have hof₁ := hproper.destroySnapshot hz₁ hof
    have hsets₁ : z₁.datasets = z.datasets := by
      obtain ⟨-, -, -, rfl⟩ := Zfs.destroySnapshot_eq_ok.mp hz₁
      rfl
    have hproper₁ : z₁.Proper v.dataset := by
      refine hproper.of_sublist ?_
      rw [hof₁, hof]
      exact sublist_cons_self ..
    obtain ⟨z', tr, hc, hof', hsets⟩ := ih hproper₁ hof₁
    refine ⟨z', _, .alone ?_ hc, hof', hsets.trans hsets₁⟩
    simp only [machine, exec, execOp, TurnOp.exec, World.storage, noFailure, World.put_sess,
      World.put_zfs, hz₁, Option.map_some]
    rfl

theorem completes_cleanup (w : World) (id : String) (s : SessRef)
    (hv : validateName v.dataset = .ok ()) (hproper : z.Proper v.dataset)
    (hlisted : z.namesOf v.dataset = v.names) :
    ∃ n z' tr, Completes machine noFailure (w.put s v z) [.turn id (.cleanup s)]
        (w.put s { v with snapshots := v.snapshots.drop n } z') tr ∧
      z'.namesOf v.dataset = (v.snapshots.drop n).map (·.name) ∧ z'.datasets = z.datasets := by
  by_cases hle : v.snapshots.length ≤ w.config.maxSnapshotsPerSession
  · refine ⟨0, z, _, .alone ?_ .done, hlisted, rfl⟩
    simp [machine, exec, execOp, TurnOp.exec, World.put, hle]
  · obtain ⟨n, hn⟩ : ∃ n, n = v.snapshots.length - w.config.maxSnapshotsPerSession := ⟨_, rfl⟩
    have hsplit : z.namesOf v.dataset =
        (v.snapshots.take n).map (·.name) ++ (v.snapshots.drop n).map (·.name) := by
      rw [hlisted, ← map_append, take_append_drop]
      rfl
    obtain ⟨z', tr, hc, hof, hsets⟩ := completes_destroySnapshots w id s
      (v := { v with snapshots := v.snapshots.drop n }) hv hproper hsplit
    refine ⟨n, z', _, .alone ?_ hc, hof, hsets⟩
    simp [machine, exec, execOp, TurnOp.exec, World.put, World.setSess, hle, hn]

theorem World.Ready.record {turn : Nat} (h : w.Ready id s)
    (hz : w.zfs.createSnapshot (w.sess s).dataset e.name = .ok z) :
    (w.put s { w.sess s with turnCount := turn, snapshots := (w.sess s).snapshots ++ [e] }
      z).Ready id s := by
  obtain ⟨hof, hproper⟩ := h.proper.createSnapshot hz
  refine h.put h.active h.free h.noTool rfl ?_ hproper ?_
  · obtain ⟨-, -, -, -, rfl⟩ := Zfs.createSnapshot_eq_ok.mp hz
    rfl
  · show z.namesOf (w.sess s).dataset = ((w.sess s).snapshots ++ [e]).map (·.name)
    rw [hof, h.listed]
    simp [Session.names]

/-- The snapshot of the turn that the session would complete next. -/
def World.nextTurn (w : World) (s : SessRef) : String :=
  turnSnapshotName w.config.snapshotPrefix ((w.sess s).turnCount + 1)

/-- The session with its next turn in the list. -/
def World.turned (w : World) (s : SessRef) : Session :=
  { w.sess s with
    turnCount := (w.sess s).turnCount + 1
    snapshots := (w.sess s).snapshots ++ [⟨w.nextTurn s, true⟩] }

theorem completes_record (h : w.Ready id s)
    (hz : w.zfs.createSnapshot (w.sess s).dataset (w.nextTurn s) = .ok z)
    (hc : Completes machine noFailure (w.put s (w.turned s) z) (TurnOp.after id s ((w.sess
      s).turnCount + 1) (w.nextTurn s) w) w' tr) :
    ∃ tr', Completes machine noFailure w [.turn id .lookup] w' (tr' ++ tr) := by
  refine ⟨[.turn id .lookup, .turn id (.check s),
    .turn id (.snapshot s ((w.sess s).turnCount + 1) (w.nextTurn s)),
    .turn id (.snapshotEnd s ((w.sess s).turnCount + 1) (w.nextTurn s)),
    .turn id (.record s ((w.sess s).turnCount + 1) (w.nextTurn s))],
    .alone (t := w) ?_ (.alone (t := w) ?_ (.alone (t := w) rfl
      (.alone (t := { w with zfs := z }) ?_ (.alone ?_ hc))))⟩
  · simp [machine, exec, execOp, TurnOp.exec, World.withSession, h.backend, h.found]
  · simp [machine, exec, execOp, TurnOp.exec, h.active, h.free, World.nextTurn]
  · simp [machine, exec, execOp, TurnOp.exec, World.storage, noFailure, hz]
  · simp [machine, exec, execOp, TurnOp.exec, World.put, World.setSess, TurnOp.after, World.turned]

/-- `TurnComplete` takes the next number when no snapshot has its name, and may take
entries off the front of the list. -/
theorem completes_turn (h : w.Ready id s) (hname : validateSnapshotName (w.nextTurn s) = .ok ())
    (hnew : w.nextTurn s ∉ (w.sess s).names) :
    ∃ n w' tr, Completes machine noFailure w [.turn id .lookup] w' tr ∧
      Op.ret (.snapshot (w.nextTurn s) ((w.sess s).turnCount + 1)) ∈ tr ∧
      w'.config = w.config ∧ w'.Ready id s ∧
      w'.sess s = { w.turned s with snapshots := (w.turned s).snapshots.drop n } := by
  obtain ⟨z, hz⟩ : ∃ z, w.zfs.createSnapshot (w.sess s).dataset (w.nextTurn s) = .ok z :=
    ⟨_, Zfs.createSnapshot_eq_ok.mpr ⟨h.valid, hname, h.stored, h.listed ▸ hnew, rfl⟩⟩
  have hready : (w.put s (w.turned s) z).Ready id s := h.record (e := ⟨w.nextTurn s, true⟩) hz
  have hret : ∀ w', Completes machine noFailure w'
      [.ret (.snapshot (w.nextTurn s) ((w.sess s).turnCount + 1))] w'
      [.ret (.snapshot (w.nextTurn s) ((w.sess s).turnCount + 1))] := fun _ => .alone rfl .done
  by_cases hmax : w.config.maxSnapshotsPerSession > 0
  · have hproper := hready.proper
    have hlisted := hready.listed
    rw [World.put_sess, World.put_zfs] at hproper hlisted
    obtain ⟨n, z', tr, hc, hof, hsets⟩ := completes_cleanup w id s
      (v := w.turned s) h.valid hproper hlisted
    have hafter : TurnOp.after id s ((w.sess s).turnCount + 1) (w.nextTurn s) w =
        [.turn id (.cleanup s)] ++ [.ret (.snapshot (w.nextTurn s) ((w.sess s).turnCount + 1))] := by
      simp [TurnOp.after, hmax]
    obtain ⟨tr', hall⟩ := completes_record h hz (hafter ▸ hc.append (hret _))
    refine ⟨n, _, _, hall, by simp, rfl, ?_, World.put_sess ..⟩
    rw [← World.put_put w s (w.turned s) _ z]
    refine hready.put h.active h.free h.noTool ?_ hsets ?_ hof
    · rw [World.put_sess]
    · refine hproper.of_sublist ?_
      rw [hlisted]
      show (z'.namesOf (w.turned s).dataset).Sublist _
      rw [hof]
      exact (drop_sublist ..).map _
  · have hafter : TurnOp.after id s ((w.sess s).turnCount + 1) (w.nextTurn s) w =
        [.ret (.snapshot (w.nextTurn s) ((w.sess s).turnCount + 1))] := by
      simp [TurnOp.after, hmax]
    obtain ⟨tr', hall⟩ := completes_record h hz (hafter ▸ hret _)
    exact ⟨0, _, _, hall, by simp [hafter], rfl, hready, World.put_sess ..⟩

theorem completes_snapshot (h : w.Ready id s) (name : String) :
    ∃ w' tr, Completes machine noFailure w [.snapshot id name .lookup] w' tr ∧
      w'.config = w.config ∧ w'.Ready id s ∧ (w'.sess s = w.sess s ∨
        w'.sess s = { w.sess s with snapshots := (w.sess s).snapshots ++ [⟨name, false⟩] }) := by
  have hlookup : exec .ok (.snapshot id name .lookup) w =
      some ⟨w, [.snapshot id name (.call s)], []⟩ := by
    simp [exec, execOp, SnapshotOp.exec, World.withSession, h.backend, h.found]
  cases hz : w.zfs.createSnapshot (w.sess s).dataset name with
  | ok z =>
    refine ⟨w.put s { w.sess s with snapshots := (w.sess s).snapshots ++ [⟨name, false⟩] } z, _,
      .alone hlookup (.alone (t := w) rfl (.alone (t := { w with zfs := z })
        (l := [.snapshot id name (.record s)]) ?_ (.alone (l := [.ret (.snapshot name 0)]) ?_
          (.alone rfl .done)))), rfl, h.record (e := ⟨name, false⟩) hz, .inr (World.put_sess ..)⟩
    · simp [machine, exec, execOp, SnapshotOp.exec, World.storage, noFailure, hz]
    · simp [machine, exec, execOp, SnapshotOp.exec, World.setSess]
  | error err =>
    refine ⟨w, _, .alone hlookup (.alone (t := w) rfl (.alone (t := w)
      (l := [.ret (.failed (.storage ("snapshot " ++ name) err))]) ?_ (.alone rfl .done))), rfl, h,
      .inl rfl⟩
    simp [machine, exec, execOp, SnapshotOp.exec, World.storage, noFailure, hz]

/-- `RollbackSession` to a snapshot of the dataset cuts the list behind it. -/
theorem completes_rollback (h : w.Ready id s) (hmem : name ∈ (w.sess s).names) :
    ∃ w' tr, Completes machine noFailure w [.rollback id name .lookup] w' tr ∧
      Op.ret .done ∈ tr ∧ w'.config = w.config ∧ w'.Ready id s ∧
      w'.sess s = (w.sess s).rolledBack name := by
  have hmem' : name ∈ w.zfs.namesOf (w.sess s).dataset := h.listed ▸ hmem
  obtain ⟨z, hz⟩ : ∃ z, w.zfs.rollback (w.sess s).dataset name = .ok z :=
    ⟨_, Zfs.rollback_eq_ok.mpr ⟨h.valid, h.proper.valid name hmem', hmem', rfl⟩⟩
  have hof := Zfs.namesOf_rollback hz
  have hv := Session.rolledBack_of_mem hmem
  have hclear : ({ w.sess s with rollingBack := false } : Session) = w.sess s := by rw [← h.free]
  refine ⟨w.put s ((w.sess s).rolledBack name) z, _,
    .alone (t := w) (l := [.rollback id name (.enter s)]) ?_
      (.alone (t := w.put s { w.sess s with rollingBack := true } w.zfs)
        (l := [.rollback id name (.call s)]) ?_ (.alone rfl
          (.alone (t := w.put s { w.sess s with rollingBack := true } z)
            (l := [.rollback id name (.finish s none)]) ?_
            (.alone (l := [.ret .done]) ?_ (.alone rfl .done))))), by simp, rfl, ?_,
    World.put_sess ..⟩
  · simp [machine, exec, execOp, RollbackOp.exec, World.withSession, h.backend, h.found]
  · simp [machine, exec, execOp, RollbackOp.exec, h.active, h.noTool, World.put, World.setSess]
  · simp only [machine, exec, execOp, RollbackOp.exec, World.storage, noFailure, World.put_sess,
      World.put_zfs, hz, Option.map_some]
    rfl
  · simp only [machine, exec, execOp, RollbackOp.exec, World.setSess_put, hclear, Option.map_some]
    rfl
  · rw [hv]
    refine h.put h.active h.free h.noTool rfl ?_ ?_ ?_
    · obtain ⟨-, -, -, rfl⟩ := Zfs.rollback_eq_ok.mp hz
      rfl
    · refine h.proper.of_sublist ?_
      show (z.namesOf (w.sess s).dataset).Sublist _
      rw [hof]
      exact take_sublist ..
    · show z.namesOf (w.sess s).dataset = ((w.sess s).snapshots.take _).map (·.name)
      rw [hof, h.listed, map_take]
      rfl

/-! ## Numbers -/

/-- The names of the turn snapshots among the entries. -/
def turnsOf (es : List SnapshotEntry) : List String :=
  (es.filter (·.isTurnSnapshot)).map (·.name)

@[simp] theorem turnsOf_append (es es' : List SnapshotEntry) :
    turnsOf (es ++ es') = turnsOf es ++ turnsOf es' := by
  simp [turnsOf]

theorem countP_isTurnSnapshot (es : List SnapshotEntry) :
    es.countP (·.isTurnSnapshot) = (turnsOf es).length := by
  rw [turnsOf, length_map, countP_eq_length_filter]

/-- The turn snapshots of the list bear consecutive numbers, up to that of the last turn,
and the other ones have other names. -/
structure Numbered (snapshotPrefix : String) (v : Session) : Prop where
  count : (turnsOf v.snapshots).length ≤ v.turnCount
  turns : turnsOf v.snapshots =
    (List.range' (v.turnCount + 1 - (turnsOf v.snapshots).length)
      (turnsOf v.snapshots).length).map (turnSnapshotName snapshotPrefix)
  others : ∀ e ∈ v.snapshots, e.isTurnSnapshot = false →
    ¬ snapshotPrefix.toList <+: e.name.toList

theorem Numbered.mem_turnsOf (h : Numbered pre v) (hm : turnSnapshotName pre n ∈ v.names) :
    turnSnapshotName pre n ∈ turnsOf v.snapshots := by
  obtain ⟨e, he, hname⟩ := mem_map.mp hm
  refine mem_map.mpr ⟨e, mem_filter.mpr ⟨he, ?_⟩, hname⟩
  by_contra hne
  exact h.others e he (by simpa using hne) (hname ▸ prefix_turnSnapshotName pre n)

theorem Numbered.le_of_mem (h : Numbered pre v) (hm : turnSnapshotName pre n ∈ v.names) :
    n ≤ v.turnCount := by
  have hturn := h.mem_turnsOf hm
  have hcount := h.count
  rw [h.turns, mem_map] at hturn
  obtain ⟨m, hm, heq⟩ := hturn
  cases turnSnapshotName_injective pre heq
  rw [mem_range'_1] at hm
  omega

theorem Numbered.fresh (h : v.snapshots = []) : Numbered pre v := by
  constructor <;> simp [h, turnsOf]

theorem Numbered.turned (h : Numbered pre v) :
    Numbered pre { v with
      turnCount := v.turnCount + 1
      snapshots := v.snapshots ++ [⟨turnSnapshotName pre (v.turnCount + 1), true⟩] } := by
  have hcount := h.count
  have hone : ∀ n : String, turnsOf [⟨n, true⟩] = [n] := fun _ => rfl
  constructor <;> simp only [turnsOf_append, hone, length_append, length_singleton]
  · omega
  · rw [show v.turnCount + 1 + 1 - ((turnsOf v.snapshots).length + 1) =
      v.turnCount + 1 - (turnsOf v.snapshots).length by omega, List.range'_concat, map_append,
      ← h.turns, show v.turnCount + 1 - (turnsOf v.snapshots).length +
        1 * (turnsOf v.snapshots).length = v.turnCount + 1 by omega]
    rfl
  · intro e he hturn
    rcases mem_concat.mp he with he | rfl
    · exact h.others e he hturn
    · cases hturn

/-- The turns before and after a place in the list, when the turns are numbered from `m`. -/
theorem turnsOf_split (k : Nat)
    (h : turnsOf es = (List.range' m (turnsOf es).length).map (turnSnapshotName pre)) :
    turnsOf (es.take k) =
        (List.range' m (turnsOf (es.take k)).length).map (turnSnapshotName pre) ∧
      turnsOf (es.drop k) = (List.range' (m + (turnsOf (es.take k)).length)
        (turnsOf (es.drop k)).length).map (turnSnapshotName pre) := by
  have hsplit : turnsOf es = turnsOf (es.take k) ++ turnsOf (es.drop k) := by
    rw [← turnsOf_append, take_append_drop]
  rw [hsplit, length_append, ← List.range'_append_1, map_append] at h
  exact append_inj h (by simp)

theorem Numbered.drop (h : Numbered pre v) (k : Nat) :
    Numbered pre { v with snapshots := v.snapshots.drop k } := by
  have hcount := h.count
  have hlen : (turnsOf v.snapshots).length =
      (turnsOf (v.snapshots.take k)).length + (turnsOf (v.snapshots.drop k)).length := by
    rw [← length_append, ← turnsOf_append, take_append_drop]
  refine ⟨?_, ?_, fun e he => h.others e (mem_of_mem_drop he)⟩
  · show (turnsOf (v.snapshots.drop k)).length ≤ v.turnCount
    omega
  · show turnsOf (v.snapshots.drop k) = (List.range'
      (v.turnCount + 1 - (turnsOf (v.snapshots.drop k)).length) _).map _
    rw [show v.turnCount + 1 - (turnsOf (v.snapshots.drop k)).length =
      v.turnCount + 1 - (turnsOf v.snapshots).length + (turnsOf (v.snapshots.take k)).length by
        omega]
    exact (turnsOf_split k h.turns).2

theorem Numbered.other (h : Numbered pre v) (hname : ¬ pre.toList <+: name.toList) :
    Numbered pre { v with snapshots := v.snapshots ++ [⟨name, false⟩] } := by
  have hnone : turnsOf [⟨name, false⟩] = [] := rfl
  constructor <;> simp only [turnsOf_append, hnone, append_nil]
  · exact h.count
  · exact h.turns
  · intro e he hturn
    rcases mem_concat.mp he with he | rfl
    · exact h.others e he hturn
    · exact hname

/-- While every turn's snapshot is listed, the first one is that of turn 1. -/
theorem Numbered.turnsOf_take (h : Numbered pre v)
    (hall : (turnsOf v.snapshots).length = v.turnCount) (k : Nat) :
    turnsOf (v.snapshots.take k) =
      (List.range' 1 (turnsOf (v.snapshots.take k)).length).map (turnSnapshotName pre) := by
  have hturns := h.turns
  rw [show v.turnCount + 1 - (turnsOf v.snapshots).length = 1 by omega] at hturns
  exact (turnsOf_split k hturns).1

/-- A rollback while every turn's snapshot is listed counts the turns that it keeps. -/
theorem Numbered.rolledBack (h : Numbered pre v) (hmem : name ∈ v.names)
    (hall : (turnsOf v.snapshots).length = v.turnCount) : Numbered pre (v.rolledBack name) := by
  rw [Session.rolledBack_of_mem hmem, countP_isTurnSnapshot]
  refine ⟨le_refl _, ?_, fun e he => h.others e (mem_of_mem_take he)⟩
  simpa only [Nat.add_sub_cancel_left] using h.turnsOf_take hall (v.names.idxOf name + 1)

theorem Session.exists_entry (hmem : name ∈ v.names) :
    ∃ e, v.snapshots[v.names.idxOf name]? = some e ∧ e.name = name := by
  have hget := List.getElem?_idxOf hmem
  rw [Session.names, List.getElem?_map] at hget
  exact Option.map_eq_some_iff.mp hget

/-- A rollback to turn `n` while every turn's snapshot is listed makes `n` the last turn. -/
theorem Numbered.turnCount_rolledBack (h : Numbered pre v) (hmem : turnSnapshotName pre n ∈ v.names)
    (hall : (turnsOf v.snapshots).length = v.turnCount) :
    (v.rolledBack (turnSnapshotName pre n)).turnCount = n := by
  obtain ⟨e, he, hname⟩ := Session.exists_entry hmem
  have hturn : e.isTurnSnapshot = true := by
    by_contra hne
    exact h.others e (mem_of_getElem? he) (by simpa using hne)
      (hname ▸ prefix_turnSnapshotName pre n)
  have hlast : turnsOf (v.snapshots.take (v.names.idxOf (turnSnapshotName pre n) + 1)) =
      turnsOf (v.snapshots.take (v.names.idxOf (turnSnapshotName pre n))) ++
        [turnSnapshotName pre n] := by
    rw [take_add_one, he, turnsOf_append]
    simp [turnsOf, hturn, hname]
  have htake := h.turnsOf_take hall (v.names.idxOf (turnSnapshotName pre n) + 1)
  rw [Session.rolledBack_of_mem hmem, countP_isTurnSnapshot]
  show (turnsOf (v.snapshots.take (v.names.idxOf (turnSnapshotName pre n) + 1))).length = n
  rw [hlast, length_append, length_singleton] at htake ⊢
  rw [List.range'_concat, map_append] at htake
  have heq := singleton_inj.mp (append_inj_right htake (by simp))
  have := turnSnapshotName_injective pre heq
  omega

/-! ## Sequential runs -/

/-- The calls: turns whose snapshot can have its name, snapshots whose name does not begin
like a turn's, and rollbacks to a snapshot of the dataset while the list has the snapshot of
every turn. -/
def numberedCall (id : String) (s : SessRef) (w : World) : Op → Bool
  | .turn id' .lookup => id' == id && (validateSnapshotName (w.nextTurn s)).isOk
  | .snapshot id' name .lookup =>
    id' == id && !w.config.snapshotPrefix.toList.isPrefixOf name.toList
  | .rollback id' name .lookup => id' == id && (w.zfs.namesOf (w.sess s).dataset).contains name &&
    (w.sess s).snapshots.countP (·.isTurnSnapshot) == (w.sess s).turnCount
  | _ => false

/-- Between two calls of a run. -/
structure Keeps (config : ServiceConfig) (id : String) (s : SessRef) (w : World) : Prop where
  config_eq : w.config = config
  ready : w.Ready id s
  numbered : Numbered config.snapshotPrefix (w.sess s)

theorem isOk_validate (h : (validateSnapshotName name).isOk = true) :
    validateSnapshotName name = .ok () := by
  cases hv : validateSnapshotName name with
  | ok => rfl
  | error err =>
    rw [hv] at h
    cases h

theorem Keeps.turn (h : Keeps config id s w)
    (hcall : numberedCall id s w (.turn id .lookup) = true) :
    ∃ w' tr, Completes machine noFailure w [.turn id .lookup] w' tr ∧
      Op.ret (.snapshot (w.nextTurn s) ((w.sess s).turnCount + 1)) ∈ tr ∧ Keeps config id s w' := by
  simp only [numberedCall, beq_self_eq_true, Bool.true_and] at hcall
  have hnew : w.nextTurn s ∉ (w.sess s).names := by
    intro hm
    rw [World.nextTurn, h.config_eq] at hm
    have := h.numbered.le_of_mem hm
    omega
  obtain ⟨n, w', tr, hc, hret, hconfig, hready, hsess⟩ :=
    completes_turn h.ready (isOk_validate hcall) hnew
  refine ⟨w', tr, hc, hret, hconfig.trans h.config_eq, hready, ?_⟩
  have hnum : Numbered config.snapshotPrefix (w.turned s) := by
    have hturned := h.numbered.turned
    rwa [World.turned, World.nextTurn, h.config_eq]
  rw [hsess]
  exact hnum.drop n

theorem Keeps.rollback (h : Keeps config id s w)
    (hcall : numberedCall id s w (.rollback id name .lookup) = true) :
    ∃ w' tr, Completes machine noFailure w [.rollback id name .lookup] w' tr ∧
      Op.ret .done ∈ tr ∧ w'.sess s = (w.sess s).rolledBack name ∧ Keeps config id s w' := by
  simp only [numberedCall, beq_self_eq_true, Bool.true_and, Bool.and_eq_true, contains_iff_mem,
    beq_iff_eq, countP_isTurnSnapshot, h.ready.listed] at hcall
  obtain ⟨w', tr, hc, hret, hconfig, hready, hsess⟩ := completes_rollback h.ready hcall.1
  refine ⟨w', tr, hc, hret, hsess, hconfig.trans h.config_eq, hready, ?_⟩
  rw [hsess]
  exact h.numbered.rolledBack hcall.1 hcall.2

theorem Keeps.call (h : Keeps config id s w) (hcall : numberedCall id s w a = true)
    (hc : Completes machine noFailure w [a] w' tr) : Keeps config id s w' := by
  have hid := hcall
  unfold numberedCall at hid
  split at hid
  · rw [Bool.and_eq_true, beq_iff_eq] at hid
    obtain ⟨rfl, -⟩ := hid
    obtain ⟨w'', tr', hc', -, hkeeps⟩ := h.turn hcall
    exact (hc.unique hc').1 ▸ hkeeps
  · rename_i id' name
    rw [Bool.and_eq_true, beq_iff_eq, Bool.not_eq_true', ← Bool.not_eq_true,
      isPrefixOf_iff_prefix, h.config_eq] at hid
    obtain ⟨rfl, hname⟩ := hid
    obtain ⟨w'', tr', hc', hconfig, hready, hsess⟩ := completes_snapshot h.ready name
    rw [(hc.unique hc').1]
    refine ⟨hconfig.trans h.config_eq, hready, ?_⟩
    rcases hsess with hsess | hsess
    · rw [hsess]
      exact h.numbered
    · rw [hsess]
      exact h.numbered.other hname
  · rw [Bool.and_assoc, Bool.and_eq_true, beq_iff_eq] at hid
    obtain ⟨rfl, -⟩ := hid
    obtain ⟨w'', tr', hc', -, -, hkeeps⟩ := h.rollback hcall
    exact (hc.unique hc').1 ▸ hkeeps
  · cases hid

theorem Sequential.keeps (hw : w₀.Fresh id s)
    (hr : Sequential machine noFailure (numberedCall id s) w₀ w) : Keeps w₀.config id s w := by
  refine hr.invariant (Keeps w₀.config id s) ?_ fun _ a _ _ h hcall hc => h.call hcall hc
  exact ⟨rfl, hw.ready, .fresh hw.noEntry⟩

theorem numberedCall_entry (h : numberedCall id s w a = true) : machine.entry w a = true := by
  unfold numberedCall at h
  split at h
  · rfl
  · rfl
  · rfl
  · cases h

/-- The sequential runs are runs of the host. -/
theorem Sequential.run (hr : Sequential machine noFailure (numberedCall id s) w₀ w) :
    ∃ ths, Reach machine Monitor.free () ⟨w₀, []⟩ () ⟨w, ths⟩ :=
  hr.reach fun _ _ h => numberedCall_entry h

/-- In every sequential run of `numberedCall`s on a fresh session: `TurnComplete` succeeds
with the number after the last turn's, and after a rollback to the snapshot of turn `n` the
last turn is `n` and the next one is `n + 1`. -/
theorem turn_numbers_survive_rollback (hw : w₀.Fresh id s)
    (hr : Sequential machine noFailure (numberedCall id s) w₀ w) :
    (numberedCall id s w (.turn id .lookup) = true →
      ∃ w' tr, Completes machine noFailure w [.turn id .lookup] w' tr ∧
        Op.ret (.snapshot (w.nextTurn s) ((w.sess s).turnCount + 1)) ∈ tr) ∧
    ∀ n, numberedCall id s w
        (.rollback id (turnSnapshotName w₀.config.snapshotPrefix n) .lookup) = true →
      ∃ w' tr, Completes machine noFailure w
          [.rollback id (turnSnapshotName w₀.config.snapshotPrefix n) .lookup] w' tr ∧
        Op.ret .done ∈ tr ∧ (w'.sess s).turnCount = n ∧
        (numberedCall id s w' (.turn id .lookup) = true →
          ∃ w'' tr', Completes machine noFailure w' [.turn id .lookup] w'' tr' ∧
            Op.ret (.snapshot (turnSnapshotName w₀.config.snapshotPrefix (n + 1)) (n + 1)) ∈
              tr') := by
  have hk := Sequential.keeps hw hr
  constructor
  · intro hcall
    obtain ⟨w', tr, hc, hret, -⟩ := hk.turn hcall
    exact ⟨w', tr, hc, hret⟩
  · intro n hcall
    obtain ⟨w', tr, hc, hret, hsess, hk'⟩ := hk.rollback hcall
    simp only [numberedCall, beq_self_eq_true, Bool.true_and, Bool.and_eq_true,
      contains_iff_mem, beq_iff_eq, countP_isTurnSnapshot, hk.ready.listed] at hcall
    have hn : (w'.sess s).turnCount = n := by
      rw [hsess]
      exact hk.numbered.turnCount_rolledBack hcall.1 hcall.2
    refine ⟨w', tr, hc, hret, hn, fun hnext => ?_⟩
    obtain ⟨w'', tr', hc', hret', -⟩ := hk'.turn hnext
    rw [World.nextTurn, hk'.config_eq, hn] at hret'
    exact ⟨w'', tr', hc', hret'⟩

/-- Two turns and a rollback to the first one, on a host without a limit. -/
theorem turn_numbers_survive_rollback_first : ∃ w,
    Sequential machine noFailure (numberedCall "s-1" 0) (oneSession zfsConfig) w ∧
      (w.sess 0).turnCount = 2 ∧
      ∃ w' tr, Completes machine noFailure w [.rollback "s-1" "turn-0001" .lookup] w' tr ∧
        Op.ret .done ∈ tr ∧ (w'.sess 0).turnCount = 1 := by
  obtain ⟨w, hr, htest⟩ := machine.serve_any noFailure (numberedCall "s-1" 0) 10
    [.turn "s-1" .lookup, .turn "s-1" .lookup] (oneSession zfsConfig)
    (fun w => (w.sess 0).turnCount == 2 &&
      numberedCall "s-1" 0 w (.rollback "s-1" "turn-0001" .lookup)) (by decide +kernel)
  rw [Bool.and_eq_true, beq_iff_eq] at htest
  obtain ⟨w', tr, hc, hret, hn, -⟩ :=
    (turn_numbers_survive_rollback (oneSession_fresh rfl) hr).2 1 htest.2
  exact ⟨w, hr, htest.1, w', tr, hc, hret, hn⟩

/-- Three turns on a host that keeps two snapshots, and a rollback to the third one: the
last turn is the second one, and `TurnComplete` fails. -/
theorem turn_fails_after_rollback : ∃ w w' w'' tr tr',
    Sequential machine noFailure (snapshotEntry "s-1") (oneSession keepTwo) w ∧
      (w.sess 0).turnCount = 3 ∧
      Completes machine noFailure w [.rollback "s-1" "turn-0003" .lookup] w' tr ∧
      Op.ret .done ∈ tr ∧ (w'.sess 0).turnCount = 2 ∧
      Completes machine noFailure w' [.turn "s-1" .lookup] w'' tr' ∧
      Op.ret (.failed (.storage "snapshot turn 3" .snapshotExists)) ∈ tr' := by
  obtain ⟨w, hr, htest⟩ := machine.serve_any noFailure (snapshotEntry "s-1") 10
    [.turn "s-1" .lookup, .turn "s-1" .lookup, .turn "s-1" .lookup] (oneSession keepTwo)
    (fun w => (w.sess 0).turnCount == 3 &&
      (machine.complete noFailure 10 w [.rollback "s-1" "turn-0003" .lookup]).any fun p =>
        p.2.contains (.ret .done) && (p.1.sess 0).turnCount == 2 &&
          (machine.complete noFailure 10 p.1 [.turn "s-1" .lookup]).any fun q =>
            q.2.contains (.ret (.failed (.storage "snapshot turn 3" .snapshotExists))))
    (by decide +kernel)
  simp only [Bool.and_eq_true, beq_iff_eq, Option.any_eq_true, contains_iff_mem] at htest
  obtain ⟨hthree, p, hp, ⟨hret, htwo⟩, q, hq, hfail⟩ := htest
  exact ⟨w, p.1, q.1, p.2, q.2, hr, hthree, Machine.complete_completes hp, hret, htwo,
    Machine.complete_completes hq, hfail⟩

end FlexAgentRuntime.SandboxHost
