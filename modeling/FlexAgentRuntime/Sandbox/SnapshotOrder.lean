import FlexAgentRuntime.Sandbox.Placement
import FlexAgentRuntime.Sandbox.RollbackExclusion
import FlexAgentRuntime.Sandbox.SnapshotLists

/-!
The host's list of a session's snapshots names the snapshots of its dataset in the order
of their creation, as long as no request changes the dataset or the list while another one
has a change of its own half made.

Every request changes the dataset with a call to the storage, outside the lock, and the
list in a critical section after it. `Op.unsettled` says that a request stands between the
two; `Op.Settles` is what the list and the dataset have to do with each other there.
-/

namespace FlexAgentRuntime.SandboxHost

open Interleaving Config List

/-! ## One session -/

/-- The requests on session `id` that take, list or remove snapshots. -/
def snapshotEntry (id : String) (_ : World) : Op → Bool
  | .tool req .lookup => req.sessionID == id
  | .turn id' .lookup => id' == id
  | .snapshot id' _ .lookup => id' == id
  | .rollback id' _ .lookup => id' == id
  | _ => false

def snapshotMachine (id : String) : Machine World Op Choice := ⟨exec, snapshotEntry id⟩

/-- Session `id` has just been created on the storage: it is `s`, and its dataset has no
snapshot. -/
structure World.Fresh (w : World) (id : String) (s : SessRef) : Prop where
  backend : w.config.storageBackend = .zfs
  found : w.getSession id = some s
  active : (w.sess s).state = .active
  free : (w.sess s).rollingBack = false
  noTurn : (w.sess s).turnCount = 0
  noTool : (w.sess s).activeTools = 0
  noEntry : (w.sess s).snapshots = []
  valid : validateName (w.sess s).dataset = .ok ()
  stored : (w.sess s).dataset ∈ w.zfs.datasets
  noSnapshot : w.zfs.namesOf (w.sess s).dataset = []

/-! ## Changes half made -/

/-- A call of the storage on the dataset of `s` ends, or the clean-up of its list begins. -/
def Op.touches (s : SessRef) : Op → Bool
  | .tool _ (.snapshotEnd r _ _) | .turn _ (.snapshotEnd r _ _) | .snapshot _ _ (.callEnd r)
  | .turn _ (.cleanup r) | .rollback _ _ (.callEnd r) => r == s
  | _ => false

/-- The request has changed the dataset of `s` and not yet the list, or the other way
round. -/
def Op.unsettled (s : SessRef) : Op → Bool
  | .tool _ (.record r _ _) | .turn _ (.record r _ _) | .snapshot _ _ (.record r)
  | .turn _ (.destroySnapshots r _) | .rollback _ _ (.finish r none) => r == s
  | _ => false

/-- What the dataset has when the list has `names` and the request has this still to do. -/
def Op.Settles (names dataset : List String) : Op → Prop
  | .tool _ (.record _ name _) | .turn _ (.record _ _ name) | .snapshot _ name (.record _) =>
    dataset = names ++ [name]
  | .turn _ (.destroySnapshots _ old) => dataset = old ++ names
  | .rollback _ name (.finish _ none) =>
    name ∈ names ∧ dataset = names.take (names.idxOf name + 1)
  | _ => True

/-- A request changes the dataset or begins to clean up the list only while no request has
a change half made. `DestroySnapshot` does not fail. -/
def snapshotCond (s : SessRef) (c : Config World Op) (a : Op) (x : Choice) : Bool :=
  (!a.touches s || c.pending (Op.unsettled s) == 0) &&
    match a with
    | .turn _ (.destroySnapshots _ _) => x == .ok
    | _ => true

/-- What an action does to the snapshots of `s`, on the dataset and in the list. -/
inductive Lists (w : World) (x : Choice) (s : SessRef) : Op → World → List Op → Prop where
  | quiet {a w' more} : a.unsettled s = false → w'.zfs = w.zfs →
      (w'.sess s).snapshots = (w.sess s).snapshots → (∀ b ∈ more, b.unsettled s = false) →
      Lists w x s a w' more
  | taken {a b w'} (name : String) : a.touches s = true → w'.sess = w.sess →
      w.zfs.createSnapshot (w.sess s).dataset name = .ok w'.zfs → b.unsettled s = true →
      (∀ names, b.Settles names (names ++ [name])) → Lists w x s a w' [b]
  | recorded {a w' more} (name : String) (isTurn : Bool) : a.unsettled s = true →
      (∀ names dataset, a.Settles names dataset → dataset = names ++ [name]) → w'.zfs = w.zfs →
      (w'.sess s).snapshots = (w.sess s).snapshots ++ [⟨name, isTurn⟩] →
      (∀ b ∈ more, b.unsettled s = false) → Lists w x s a w' more
  | cleaned {id w'} (n : Nat) : w'.zfs = w.zfs →
      (w'.sess s).snapshots = (w.sess s).snapshots.drop n →
      Lists w x s (.turn id (.cleanup s)) w'
        [.turn id (.destroySnapshots s (((w.sess s).snapshots.take n).map (·.name)))]
  | destroyed {id name names w'} : w'.sess = w.sess →
      (w.zfs.destroySnapshot (w.sess s).dataset name = .ok w'.zfs ∨
        ∀ z, x = .ok → w.zfs.destroySnapshot (w.sess s).dataset name ≠ .ok z) →
      Lists w x s (.turn id (.destroySnapshots s (name :: names))) w'
        [.turn id (.destroySnapshots s names)]
  | cleanedUp {id} : Lists w x s (.turn id (.destroySnapshots s [])) w []
  | rolled {id name w'} : w'.sess = w.sess →
      w.zfs.rollback (w.sess s).dataset name = .ok w'.zfs →
      Lists w x s (.rollback id name (.callEnd s)) w' [.rollback id name (.finish s none)]
  | cut {id name w' more} : w'.zfs = w.zfs →
      (w'.sess s).snapshots = ((w.sess s).rolledBack name).snapshots →
      (∀ b ∈ more, b.unsettled s = false) → Lists w x s (.rollback id name (.finish s none)) w' more

variable {c : Config World Op} {s : SessRef} {id : String} {w w' : World} {a b : Op} {x : Choice}
  {more rest : List Op} {i : Nat} {o : Outcome World Op}

/-- The requests of `snapshotEntry`, and what they return. -/
def Op.asks (id : String) (a : Op) : Prop :=
  a.request = .ret ∨ (∃ req, a.request = .tool req ∧ req.sessionID = id) ∨ a.request = .turn id ∨
    (∃ name, a.request = .snapshot id name) ∨ ∃ name, a.request = .rollback id name

theorem Lists.one (ha : a.unsettled s = false := by rfl) (hb : b.unsettled s = false := by rfl)
    (hz : w'.zfs = w.zfs := by rfl)
    (hl : (w'.sess s).snapshots = (w.sess s).snapshots := by first | rfl | simp [World.setSess]) :
    Lists w x s a w' [b] :=
  .quiet ha hz hl (forall_mem_singleton.mpr hb)

theorem Lists.of_tool (hx : op.exec req x w = some (w', more))
    (hr : ∀ r ∈ (Op.tool req op).ref, r = s) : Lists w x s (.tool req op) w' more := by
  cases op with try dsimp only [ToolOp.exec] at hx
  | snapshotEnd r name resp =>
    cases hr r rfl
    exact of_storage hx (fun _ hz => .taken name (beq_self_eq_true s) rfl hz (beq_self_eq_true s)
      fun _ => rfl) fun _ _ => .one
  | record r name resp =>
    cases hr r rfl
    cases hx
    exact .recorded name false (beq_self_eq_true s) (fun _ _ h => h) rfl (by simp [World.setSess])
      (forall_mem_singleton.mpr rfl)
  | lookup | checkActive r =>
    cases hx
    split <;> exact .one
  | enter r =>
    cases hr r rfl
    split at hx
    · cases hx
      exact .one
    · split at hx <;> cases hx <;> exact .one
  | run r =>
    split at hx
    · cases hx
      split <;> exact .one
    · cases hx
      exact .one
    · cases hx
  | snapshot r resp =>
    split at hx <;> cases hx
    exact .one
  | finish r result =>
    cases hr r rfl
    cases hx
    exact .one
  | ret result =>
    cases hx
    exact .quiet rfl rfl rfl (forall_mem_nil _)

theorem Lists.of_turn (hx : op.exec id x w = some (w', more))
    (hr : ∀ r ∈ (Op.turn id op).ref, r = s) : Lists w x s (.turn id op) w' more := by
  cases op with try dsimp only [TurnOp.exec] at hx
  | lookup =>
    split at hx
    · cases hx
      exact .one
    · exact of_withSession hx (fun _ _ => .one) .one
  | check r =>
    split at hx
    all_goals
      cases hx
      exact .one
  | snapshot r turn name =>
    cases hx
    exact .one
  | snapshotEnd r turn name =>
    cases hr r rfl
    exact of_storage hx (fun _ hz => .taken name (beq_self_eq_true s) rfl hz (beq_self_eq_true s)
      fun _ => rfl) fun _ _ => .one
  | record r turn name =>
    cases hr r rfl
    cases hx
    refine .recorded name true (beq_self_eq_true s) (fun _ _ h => h) rfl ?_ fun b hb => ?_
    · simp [World.setSess]
    · unfold TurnOp.after at hb
      rcases mem_concat.mp hb with hb | rfl
      · split at hb
        · cases mem_singleton.mp hb
          rfl
        · cases hb
      · rfl
  | cleanup r =>
    cases hr r rfl
    split at hx <;> cases hx
    · exact .quiet rfl rfl rfl (forall_mem_nil _)
    · exact .cleaned _ rfl (by simp [World.setSess])
  | destroySnapshots r names =>
    cases hr r rfl
    cases names with
    | nil =>
      cases hx
      exact .cleanedUp
    | cons name names =>
      refine of_storage hx (fun _ hz => .destroyed rfl (.inl hz)) fun _ herr => ?_
      refine .destroyed rfl (.inr fun z hok => ?_)
      rw [herr hok]
      intro h
      cases h

theorem Lists.of_snapshot (hx : op.exec id name x w = some (w', more))
    (hr : ∀ r ∈ (Op.snapshot id name op).ref, r = s) :
    Lists w x s (.snapshot id name op) w' more := by
  cases op with
  | lookup =>
    dsimp only [SnapshotOp.exec] at hx
    split at hx
    · cases hx
      exact .one
    · exact of_withSession hx (fun _ _ => .one) .one
  | call r =>
    cases hx
    exact .one
  | callEnd r =>
    cases hr r rfl
    exact of_storage hx (fun _ hz => .taken name (beq_self_eq_true s) rfl hz (beq_self_eq_true s)
      fun _ => rfl) fun _ _ => .one
  | record r =>
    cases hr r rfl
    cases hx
    exact .recorded name false (beq_self_eq_true s) (fun _ _ h => h) rfl (by simp [World.setSess])
      (forall_mem_singleton.mpr rfl)

theorem Lists.of_rollback (hx : op.exec id name x w = some (w', more))
    (hr : ∀ r ∈ (Op.rollback id name op).ref, r = s) :
    Lists w x s (.rollback id name op) w' more := by
  cases op with try dsimp only [RollbackOp.exec] at hx
  | lookup =>
    split at hx
    · cases hx
      exact .one
    · exact of_withSession hx (fun _ _ => .one) .one
  | enter r =>
    cases hr r rfl
    split at hx
    · cases hx
      exact .one
    · split at hx <;> cases hx <;> exact .one
  | call r =>
    cases hx
    exact .one
  | callEnd r =>
    cases hr r rfl
    exact of_storage hx (fun _ hz => .rolled rfl hz) fun _ _ => .one
  | finish r err =>
    cases hr r rfl
    cases err with
    | none =>
      cases hx
      refine .cut rfl ?_ (forall_mem_singleton.mpr rfl)
      simp only [World.setSess, Function.update_self, Session.rolledBack]
      split <;> rfl
    | some err =>
      cases hx
      exact .one

theorem Lists.of_exec (hx : exec x a w = some o) (hid : a.asks id) (hr : ∀ r ∈ a.ref, r = s) :
    Lists w x s a o.state o.more := by
  obtain ⟨⟨w', more⟩, hp, rfl⟩ := Option.map_eq_some_iff.mp hx
  cases a with
  | tool req op => exact .of_tool hp hr
  | turn id op => exact .of_turn hp hr
  | snapshot id name op => exact .of_snapshot hp hr
  | rollback id name op => exact .of_rollback hp hr
  | ret r =>
    cases hp
    exact .quiet rfl rfl rfl (forall_mem_nil _)
  | _ => simp [Op.asks, Op.request] at hid

theorem Step.sessions_eq (hs : Step w a w' more) (hid : a.asks id) :
    w'.sessions = w.sessions := by
  rcases hs.map_cases with ⟨req, op, rfl⟩ | ⟨id', r, rfl⟩ | hsame
  · simp [Op.asks, Op.request] at hid
  · simp [Op.asks, Op.request] at hid
  · exact hsame.1

theorem Change.dataset (hc : Change w a s v) (hid : a.asks id) :
    v.dataset = (w.sess s).dataset := by
  rcases hc.place with h | ⟨-, req, op, rfl⟩
  · exact h.2.1
  · simp [Op.asks, Op.request] at hid

/-! ## Runs -/

/-- All requests are about session `id`, which is `s`. -/
structure OnSession (id : String) (s : SessRef) (c : Config World Op) : Prop where
  found : c.state.getSession id = some s
  ops : ∀ b, c.Pend b → b.asks id ∧ ∀ r ∈ b.ref, r = s

theorem Op.asks.session (h : a.asks id) (hs : a.request.session = some id') : id' = id := by
  rcases h with h | ⟨req, h, rfl⟩ | h | ⟨name, h⟩ | ⟨name, h⟩ <;> rw [h] at hs <;> cases hs <;> rfl

theorem OnSession.step (h : OnSession id s c) (ht : c.At i a rest)
    (hx : exec x a c.state = some o) : OnSession id s (c.advance i rest o) := by
  obtain ⟨hs, hspawn⟩ := step_of_exec hx
  have ha := h.ops a (pend_head ht)
  constructor
  · have hsess := hs.sessions_eq ha.1
    simpa only [World.getSession, Config.advance, hsess] using h.found
  · intro b hb
    rcases hb.of_advance_nil ht hspawn with hb | hb
    · exact h.ops b hb
    · constructor
      · rcases hs.request_more hb with hreq | ⟨r, rfl⟩
        · simpa only [Op.asks, hreq] using ha.1
        · exact .inl rfl
      · intro r hr
        rcases hs.ref_more hb hr with hold | ⟨id', hid', hget⟩
        · exact ha.2 r hold
        · rw [ha.1.session hid', h.found] at hget
          exact (Option.some.inj hget).symm

theorem snapshotEntry_asks (h : snapshotEntry id w a = true) :
    a.asks id ∧ a.ref = none ∧ a.unsettled s = false := by
  unfold snapshotEntry at h
  split at h
  · exact ⟨.inr (.inl ⟨_, rfl, eq_of_beq h⟩), rfl, rfl⟩
  · exact ⟨.inr (.inr (.inl (congrArg Request.turn (eq_of_beq h)))), rfl, rfl⟩
  · cases eq_of_beq h
    exact ⟨.inr (.inr (.inr (.inl ⟨_, rfl⟩))), rfl, rfl⟩
  · cases eq_of_beq h
    exact ⟨.inr (.inr (.inr (.inr ⟨_, rfl⟩))), rfl, rfl⟩
  · cases h

/-- The snapshots of the dataset of `s`, as the storage and the host have them. -/
structure Tracks (s : SessRef) (c : Config World Op) : Prop where
  valid : validateName (c.state.sess s).dataset = .ok ()
  proper : c.state.zfs.Proper (c.state.sess s).dataset
  one : c.pending (Op.unsettled s) ≤ 1
  settled : c.pending (Op.unsettled s) = 0 →
    c.state.zfs.namesOf (c.state.sess s).dataset = (c.state.sess s).names
  settles : ∀ b, c.Pend b → b.unsettled s = true →
    b.Settles (c.state.sess s).names (c.state.zfs.namesOf (c.state.sess s).dataset)

/-- After a step that no other request's half-made change is there to see, what holds is
decided by what the step goes on with. -/
theorem Tracks.of_alone (ht : c.At i a rest) (hspawn : o.spawn = [])
    (halone : c.pending (Op.unsettled s) = if a.unsettled s then 1 else 0)
    (hvalid : validateName (o.state.sess s).dataset = .ok ())
    (hproper : o.state.zfs.Proper (o.state.sess s).dataset)
    (hgoes : ((∀ b ∈ o.more, b.unsettled s = false) ∧
        o.state.zfs.namesOf (o.state.sess s).dataset = (o.state.sess s).names) ∨
      ∃ b, o.more = [b] ∧ b.unsettled s = true ∧
        b.Settles (o.state.sess s).names (o.state.zfs.namesOf (o.state.sess s).dataset)) :
    Tracks s (c.advance i rest o) := by
  have hbal := pending_advance_nil (Op.unsettled s) ht hspawn
  rw [halone] at hbal
  have hpend : (c.advance i rest o).pending (Op.unsettled s) = o.more.countP (Op.unsettled s) := by
    omega
  have hnew : ∀ b, (c.advance i rest o).Pend b → b.unsettled s = true → b ∈ o.more := by
    intro b hb hun
    by_cases ha : a.unsettled s = true
    · rw [if_pos ha] at halone
      rcases hb.new_of_pending_le_one ht ha (le_of_eq halone) hun with h | ⟨th, hth, -⟩
      · exact h
      · rw [hspawn] at hth
        cases hth
    · rw [if_neg ha] at halone
      rcases hb.of_advance_nil ht hspawn with h | h
      · exact absurd h (not_pend halone hun)
      · exact h
  rcases hgoes with ⟨hnone, heq⟩ | ⟨b, hmore, hun, hset⟩
  · refine ⟨hvalid, hproper, ?_, fun _ => heq, fun b hb hun => ?_⟩
    · rw [hpend, countP_eq_zero.mpr fun b hb => by simp [hnone b hb]]
      exact Nat.zero_le 1
    · rw [hnone b (hnew b hb hun)] at hun
      cases hun
  · have hcount : o.more.countP (Op.unsettled s) = 1 := by simp [hmore, hun]
    refine ⟨hvalid, hproper, by omega, fun hz => by omega, fun b' hb' hun' => ?_⟩
    have hmem := hnew b' hb' hun'
    rw [hmore] at hmem
    cases mem_singleton.mp hmem
    exact hset

theorem Tracks.quiet (h : Tracks s c) (ht : c.At i a rest) (ha : a.unsettled s = false)
    (hds : (w'.sess s).dataset = (c.state.sess s).dataset) (hz : w'.zfs = c.state.zfs)
    (hl : (w'.sess s).snapshots = (c.state.sess s).snapshots)
    (hm : ∀ b ∈ more, b.unsettled s = false) : Tracks s (c.advance i rest ⟨w', more, []⟩) := by
  have hnames : (w'.sess s).names = (c.state.sess s).names := by simp [Session.names, hl]
  have hof : w'.zfs.namesOf (w'.sess s).dataset =
      c.state.zfs.namesOf (c.state.sess s).dataset := by rw [hz, hds]
  have hpend : (c.advance i rest ⟨w', more, []⟩).pending (Op.unsettled s) =
      c.pending (Op.unsettled s) := by
    simpa [ha] using pending_advance_old (o := ⟨w', more, []⟩) ht hm (forall_mem_nil _)
  refine ⟨?_, h.proper.of_sublist (hof ▸ List.Sublist.refl _), hpend ▸ h.one,
    fun hzero => (hof.trans (h.settled (hpend ▸ hzero))).trans hnames.symm, fun b hb hun => ?_⟩
  · show validateName (w'.sess s).dataset = .ok ()
    rw [hds]
    exact h.valid
  · show b.Settles (w'.sess s).names (w'.zfs.namesOf (w'.sess s).dataset)
    rw [hof, hnames]
    rcases hb.of_advance_nil ht rfl with hb | hb
    · exact h.settles b hb hun
    · rw [hm b hb] at hun
      cases hun

theorem Tracks.taken (h : Tracks s c) (ht : c.At i a rest) (hnone : c.pending (Op.unsettled s) = 0)
    (hsess : w'.sess = c.state.sess)
    (hz : c.state.zfs.createSnapshot (c.state.sess s).dataset name = .ok w'.zfs)
    (hun : b.unsettled s = true) (hset : ∀ names, b.Settles names (names ++ [name])) :
    Tracks s (c.advance i rest ⟨w', [b], []⟩) := by
  obtain ⟨hof, hproper⟩ := h.proper.createSnapshot hz
  rw [← hsess] at hof hproper
  have ha : a.unsettled s = false := pending_eq_zero.mp hnone a (pend_head ht)
  refine .of_alone ht rfl (by simp [ha, hnone]) ?_ hproper (.inr ⟨b, rfl, hun, ?_⟩)
  · show validateName (w'.sess s).dataset = .ok ()
    rw [hsess]
    exact h.valid
  · show b.Settles (w'.sess s).names (w'.zfs.namesOf (w'.sess s).dataset)
    rw [hof, hsess, h.settled hnone]
    exact hset _

/-- A step that leaves some of the snapshots of the dataset, with no other request's
half-made change there to see. -/
theorem Tracks.of_sublist (h : Tracks s c) (ht : c.At i a rest)
    (halone : c.pending (Op.unsettled s) = if a.unsettled s then 1 else 0)
    (hds : (w'.sess s).dataset = (c.state.sess s).dataset)
    (hsub : (w'.zfs.namesOf (w'.sess s).dataset).Sublist (c.state.zfs.namesOf (c.state.sess
      s).dataset))
    (hgoes : ((∀ b ∈ more, b.unsettled s = false) ∧
      w'.zfs.namesOf (w'.sess s).dataset = (w'.sess s).names) ∨ ∃ b, more = [b] ∧
      b.unsettled s = true ∧ b.Settles (w'.sess s).names (w'.zfs.namesOf (w'.sess s).dataset)) :
    Tracks s (c.advance i rest ⟨w', more, []⟩) := by
  refine .of_alone ht rfl halone ?_ (h.proper.of_sublist hsub) hgoes
  show validateName (w'.sess s).dataset = .ok ()
  rw [hds]
  exact h.valid

theorem Tracks.destroyed (h : Tracks s c)
    (ht : c.threads[i]? = some (.turn id (.destroySnapshots s (name :: names)) :: rest))
    (halone : c.pending (Op.unsettled s) = 1) (hsess : w'.sess = c.state.sess)
    (hz : c.state.zfs.destroySnapshot (c.state.sess s).dataset name = .ok w'.zfs ∨
      ∀ z, c.state.zfs.destroySnapshot (c.state.sess s).dataset name ≠ .ok z) :
    Tracks s (c.advance i rest ⟨w', [.turn id (.destroySnapshots s names)], []⟩) := by
  have ha : (Op.turn id (.destroySnapshots s (name :: names))).unsettled s = true :=
    beq_self_eq_true s
  have hnow : c.state.zfs.namesOf (c.state.sess s).dataset =
      (name :: names) ++ (c.state.sess s).names := h.settles _ (pend_head ht) ha
  have hmem : name ∈ c.state.zfs.namesOf (c.state.sess s).dataset := by simp [hnow]
  -- the snapshot is there and its name is valid, so the call succeeds
  have hgone := hz.resolve_right fun hfail => hfail _ (Zfs.destroySnapshot_eq_ok.mpr
    ⟨h.valid, h.proper.valid name hmem, hmem, rfl⟩)
  have hof : w'.zfs.namesOf (w'.sess s).dataset = names ++ (c.state.sess s).names := by
    rw [hsess]
    exact h.proper.destroySnapshot hgone hnow
  refine h.of_sublist ht (by rw [if_pos ha, halone]) (by rw [hsess]) ?_
    (.inr ⟨_, rfl, beq_self_eq_true s, ?_⟩)
  · rw [hof, hnow]
    exact sublist_cons_self ..
  · show w'.zfs.namesOf (w'.sess s).dataset = names ++ (w'.sess s).names
    rw [hof, hsess]

theorem Tracks.step (h : Tracks s c) (hon : OnSession id s c)
    (ht : c.At i a rest) (hx : exec x a c.state = some o)
    (hcond : snapshotCond s c a x = true) : Tracks s (c.advance i rest o) := by
  obtain ⟨hs, hspawn⟩ := step_of_exec hx
  obtain ⟨hasks, href⟩ := hon.ops a (pend_head ht)
  have hds : (o.state.sess s).dataset = (c.state.sess s).dataset := (hs.change s).dataset hasks
  have hlists := Lists.of_exec hx hasks href
  simp only [snapshotCond, Bool.and_eq_true, Bool.or_eq_true, Bool.not_eq_true', beq_iff_eq] at hcond
  obtain ⟨htouch, hok⟩ := hcond
  -- an action with a change half made is the only one
  have hself : a.unsettled s = true → c.pending (Op.unsettled s) = 1 := by
    intro ha
    have hpos : 0 < c.pending (Op.unsettled s) := pending_head ht ha
    have hone := h.one
    omega
  obtain ⟨w', more, spawn⟩ := o
  simp only at hds hspawn hlists
  subst hspawn
  cases hlists with
  | quiet ha hz hl hm => exact h.quiet ht ha hds hz hl hm
  | taken name ha hsess hz hun hset =>
    exact h.taken ht (htouch.resolve_left (by simp [ha])) hsess hz hun hset
  | recorded name isTurn ha hset hz hl hm =>
    have hnow := hset _ _ (h.settles a (pend_head ht) ha)
    refine h.of_sublist ht (by rw [if_pos ha, hself ha]) hds (by rw [hz, hds]) (.inl ⟨hm, ?_⟩)
    rw [hz, hds, hnow]
    simp [Session.names, hl]
  | cleaned n hz hl =>
    have hnone := htouch.resolve_left (by simp [Op.touches])
    refine h.of_sublist ht hnone hds (by rw [hz, hds])
      (.inr ⟨_, rfl, beq_self_eq_true s, ?_⟩)
    show w'.zfs.namesOf (w'.sess s).dataset = _ ++ (w'.sess s).names
    rw [hz, hds, h.settled hnone, Session.names, Session.names, hl, ← map_append, take_append_drop]
  | destroyed hsess hz =>
    exact h.destroyed ht (hself (beq_self_eq_true s)) hsess
      (hz.imp_right fun hfail z => hfail z (eq_of_beq hok))
  | @cleanedUp id' =>
    have ha : (Op.turn id' (.destroySnapshots s [])).unsettled s = true := beq_self_eq_true s
    exact h.of_sublist ht (by rw [if_pos ha, hself ha]) rfl (List.Sublist.refl _)
      (.inl ⟨forall_mem_nil _, h.settles _ (pend_head ht) ha⟩)
  | @rolled _ name _ hsess hz =>
    have hnone := htouch.resolve_left (by simp [Op.touches])
    obtain ⟨-, -, hmem, -⟩ := Zfs.rollback_eq_ok.mp hz
    have hof : w'.zfs.namesOf (w'.sess s).dataset =
        (c.state.sess s).names.take ((c.state.sess s).names.idxOf name + 1) := by
      rw [hds, ← h.settled hnone]
      exact Zfs.namesOf_rollback hz
    refine h.of_sublist ht hnone hds ?_ (.inr ⟨_, rfl, beq_self_eq_true s, ?_⟩)
    · rw [hof, h.settled hnone]
      exact take_sublist ..
    · show name ∈ (w'.sess s).names ∧ w'.zfs.namesOf (w'.sess s).dataset =
        (w'.sess s).names.take ((w'.sess s).names.idxOf name + 1)
      rw [hof, hsess]
      exact ⟨h.settled hnone ▸ hmem, rfl⟩
  | @cut id' name _ _ hz hl hm =>
    have ha : (Op.rollback id' name (.finish s none)).unsettled s = true := beq_self_eq_true s
    obtain ⟨hmem, hnow⟩ := h.settles _ (pend_head ht) ha
    have hnames : (w'.sess s).names = ((c.state.sess s).rolledBack name).names := by
      simp [Session.names, hl]
    refine h.of_sublist ht (by rw [if_pos ha, hself ha]) hds (by rw [hz, hds]) (.inl ⟨hm, ?_⟩)
    rw [hz, hds, hnow, hnames, rolledBack_names hmem]

theorem Reach.tracks (hw : w.Fresh id s)
    (hr : Reach (snapshotMachine id) (Monitor.when (snapshotCond s)) () ⟨w, []⟩ h c) :
    OnSession id s c ∧ Tracks s c := by
  refine hr.invariant (fun _ c => OnSession id s c ∧ Tracks s c) ?_ ?_ ?_
  · refine ⟨⟨hw.found, fun b hb => absurd hb not_pend_nil⟩, hw.valid, ?_, Nat.zero_le 1, ?_,
      fun b hb => absurd hb not_pend_nil⟩
    · exact ⟨by simp [hw.noSnapshot], by simp [hw.noSnapshot]⟩
    · simp [hw.noSnapshot, Session.names, hw.noEntry]
  · rintro _ c a ⟨hon, htr⟩ he
    obtain ⟨hasks, href, hun⟩ := snapshotEntry_asks (s := s) (w := c.state) he
    have hpend : (c.call a).pending (Op.unsettled s) = c.pending (Op.unsettled s) := by
      simp [hun]
    refine ⟨⟨hon.found, forall_pend_call hon.ops ⟨hasks, by simp [href]⟩⟩, htr.valid, htr.proper,
      hpend ▸ htr.one, fun hz => htr.settled (hpend ▸ hz), forall_pend_call htr.settles fun ha => ?_⟩
    rw [hun] at ha
    cases ha
  · rintro _ c i a rest x o ⟨hon, htr⟩ ht hx hcond
    exact ⟨hon.step ht hx, htr.step hon ht hx hcond⟩

/-- In every run on one session in which requests change the dataset and begin to clean up
only while no other request has a change half made: with no call in flight the list names
the snapshots of the dataset in the order of their creation, and a rollback cuts the list
where the storage cuts the dataset. -/
theorem list_matches_dataset {w : World} {h : Unit} (hw : w.Fresh id s)
    (hr : Reach (snapshotMachine id) (Monitor.when (snapshotCond s)) () ⟨w, []⟩ h c)
    (hidle : ∀ b, ¬ c.Pend b) :
    (c.state.sess s).names = c.state.zfs.namesOf (c.state.sess s).dataset ∧
      ∀ name z, c.state.zfs.rollback (c.state.sess s).dataset name = .ok z →
        ((c.state.sess s).rolledBack name).names = z.namesOf (c.state.sess s).dataset := by
  have htr := (Reach.tracks hw hr).2
  have heq := htr.settled (pending_eq_zero.mpr fun b hb => absurd hb (hidle b))
  refine ⟨heq.symm, fun name z hz => ?_⟩
  obtain ⟨-, -, hmem, -⟩ := Zfs.rollback_eq_ok.mp hz
  rw [rolledBack_names (heq ▸ hmem), ← heq]
  exact (Zfs.namesOf_rollback hz).symm

theorem World.Fresh.of_store (id dataset mountpoint : String) (hb : w.config.storageBackend = .zfs)
    (hv : validateName dataset = .ok ()) (hd : dataset ∈ w.zfs.datasets)
    (hn : w.zfs.namesOf dataset = []) :
    (w.storeSession ⟨id, .active, dataset, mountpoint, 0, 0, false, []⟩).Fresh id w.nSess := by
  refine ⟨hb, getSession_storeSession w _, ?_, ?_, ?_, ?_, ?_, ?_, ?_, ?_⟩ <;>
    simp [World.storeSession, *]

/-- A host that has cloned the dataset of session `s-1`. -/
def clonedPool : Zfs where
  datasets := ["tank/base", "tank/sessions/s-1"]
  snapshots := [("tank/base", "v1")]

/-- The host on which `CreateSession` has stored session `s-1`. -/
def oneSession (config : ServiceConfig) : World :=
  (World.initial config clonedPool).storeSession
    { id := "s-1", state := .active, dataset := "tank/sessions/s-1",
      mountpoint := "/tank/sessions/s-1" }

theorem oneSession_fresh (h : config.storageBackend = .zfs) : (oneSession config).Fresh "s-1" 0 :=
  .of_store (w := World.initial config clonedPool) "s-1" "tank/sessions/s-1" "/tank/sessions/s-1"
    h rfl (by simp [World.initial, clonedPool]) rfl

/-- A ZFS host that keeps two snapshots of a session. -/
def keepTwo : ServiceConfig where
  storageBackend := .zfs
  containerRuntime := .gvisor
  sessionsDataset := "tank/sessions"
  maxSnapshotsPerSession := 2

/-- Three turns, one after the other; the first one's snapshot is cleaned up. -/
theorem list_matches_dataset_cleaned : ∃ h c,
    Reach (snapshotMachine "s-1") (Monitor.when (snapshotCond 0)) () ⟨oneSession keepTwo, []⟩ h c ∧
      (c.state.sess 0).names = ["turn-0002", "turn-0003"] ∧
      (c.state.sess 0).names = c.state.zfs.namesOf (c.state.sess 0).dataset := by
  refine Machine.follow_imp defaultChoice
    [.call (.turn "s-1" .lookup), .go 0 7, .call (.turn "s-1" .lookup), .go 1 7,
      .call (.turn "s-1" .lookup), .go 2 9]
    (fun _ c => (∀ b, ¬ c.Pend b) ∧ (c.state.sess 0).names = ["turn-0002", "turn-0003"]) ?_
  rintro h c hr ⟨hidle, hnames⟩
  exact ⟨hnames, (list_matches_dataset (oneSession_fresh rfl) hr hidle).1⟩

/-- Two requests take the snapshots `a` and `b` in this order and enter them in the list in
the other one. -/
theorem list_out_of_order : ∃ c,
    Reach (snapshotMachine "s-1") Monitor.free () ⟨oneSession zfsConfig, []⟩ () c ∧
      (∀ b, ¬ c.Pend b) ∧ (c.state.sess 0).names = ["b", "a"] ∧
      c.state.zfs.namesOf (c.state.sess 0).dataset = ["a", "b"] :=
  Machine.follow_state defaultChoice
    [.call (.snapshot "s-1" "a" .lookup), .call (.snapshot "s-1" "b" .lookup),
      .go 0 3, .go 1 3, .go 1 2, .go 0 2]

end FlexAgentRuntime.SandboxHost
