import FlexAgentRuntime.Sandbox.PausedQuiet

/-!
`zfs.Rollback` has the dataset of a session for itself, in runs in which

* a rollback is let in only while no other one is under way and no `TurnComplete` has
  passed its check without having issued its snapshot;
* `DestroySession` destroys the dataset only while no rollback is under way.

The source asks for none of it: `RollbackSession` does not test `rollingBack`, every
rollback that ends clears it, `TurnComplete` tests it before it releases the lock, and
`DestroySession` does not look at it.
-/

namespace FlexAgentRuntime.SandboxHost

open Interleaving Config List Function

/-- A rollback of `s` has been let in and has not cleared the flag. -/
def Op.rolls (s : SessRef) : Op → Bool
  | .rollback _ _ (.call r) | .rollback _ _ (.callEnd r) | .rollback _ _ (.finish r _) => r == s
  | _ => false

/-- A call of `zfs.Rollback` for `s` is in progress. -/
def Op.rollsBack (s : SessRef) : Op → Bool
  | .rollback _ _ (.callEnd r) => r == s
  | _ => false

/-- `TurnComplete` is about to issue the snapshot of `s`. -/
def Op.issuesTurn (s : SessRef) : Op → Bool
  | .turn _ (.snapshot r _ _) => r == s
  | _ => false

/-- A call of `zfs.DestroyDataset` for `s` is in progress. -/
def Op.removes (s : SessRef) : Op → Bool
  | .destroy _ (.datasetEnd r) => r == s
  | _ => false

/-- `DestroySession` has marked `s`. -/
def Op.marked (s : SessRef) : Op → Bool
  | .destroy _ (.wait r) | .destroy _ (.dataset r) | .destroy _ (.datasetEnd r)
  | .destroy _ (.delete r) => r == s
  | _ => false

/-- `RollbackSession` would let a rollback in. -/
def Session.letsRollback (v : Session) : Bool := v.state == .active && decide (v.activeTools ≤ 0)

/-- A rollback is let in only while no other one is under way and no `TurnComplete` is
about to issue a snapshot; a dataset is destroyed only while no rollback is under way. -/
def rollbackCond (c : Config World Op) (a : Op) (_ : Choice) : Bool :=
  match a with
  | .rollback _ _ (.enter s) => !(c.state.sess s).letsRollback ||
      (!(c.state.sess s).rollingBack && c.pending (Op.issuesTurn s) == 0)
  | .destroy _ (.dataset s) => !(c.state.sess s).rollingBack
  | _ => true

variable {w w' : World} {a b : Op} {more : List Op} {s : SessRef}

theorem Op.rolls_rollback (h : a.rolls s = true) : ∃ id name op, a = .rollback id name op := by
  cases a with
  | rollback id name op => exact ⟨id, name, op, rfl⟩
  | _ => cases h

theorem Op.rolls_ref (h : a.rolls s = true) : a.ref = some s := by
  obtain ⟨id, name, op, rfl⟩ := Op.rolls_rollback h
  cases op <;> simp_all [Op.rolls, Op.ref]

/-- The rollbacks under way and the flag: a rollback goes on, is let in, or ends. -/
theorem Step.rolls (hs : Step w a w' more) (s : SessRef) :
    ((w'.sess s).rollingBack = (w.sess s).rollingBack ∧
        more.countP (Op.rolls s) = if a.rolls s then 1 else 0) ∨
      (∃ id name, a = .rollback id name (.enter s) ∧ (w.sess s).letsRollback = true ∧
        (w'.sess s).rollingBack = true ∧ more.countP (Op.rolls s) = 1) ∨
      (a.rolls s = true ∧ (w'.sess s).rollingBack = false ∧ more.countP (Op.rolls s) = 0) ∨
      (s = w.nSess ∧ (w'.sess s).rollingBack = false ∧ a.rolls s = false ∧
        more.countP (Op.rolls s) = 0) := by
  by_cases hroll : ∃ id name op, a = .rollback id name op
  · obtain ⟨id, name, op, rfl⟩ := hroll
    cases hs with
    | rollback hs =>
    cases hs with
    | @entered r hst ht =>
      by_cases hr : r = s
      · subst hr
        refine .inr (.inl ⟨id, name, rfl, ?_, ?_, ?_⟩)
        · simp [Session.letsRollback, hst, ht]
        · simp [World.setSess]
        · simp [Op.rolls]
      · left
        simp [World.setSess, Op.rolls, hr, update_of_ne (Ne.symm hr)]
    | @finished r =>
      by_cases hr : r = s
      · subst hr
        obtain ⟨n, l, heq⟩ := Session.rolledBack_eq { w.sess r with rollingBack := false } name
        refine .inr (.inr (.inl ⟨?_, ?_, ?_⟩))
        · simp [Op.rolls]
        · simp [World.setSess, heq]
        · simp [Op.rolls]
      · left
        simp [World.setSess, Op.rolls, hr, update_of_ne (Ne.symm hr)]
    | @failed r =>
      by_cases hr : r = s
      · subst hr
        refine .inr (.inr (.inl ⟨?_, ?_, ?_⟩))
        · simp [Op.rolls]
        · simp [World.setSess]
        · simp [Op.rolls]
      · left
        simp [World.setSess, Op.rolls, hr, update_of_ne (Ne.symm hr)]
    | ended h =>
      left
      simp [Op.rolls, h.1, countP_cons]
    | returned hop => rcases hop with rfl | ⟨r, rfl⟩ <;> exact .inl ⟨rfl, rfl⟩
    | _ =>
      left
      simp [Op.rolls, countP_cons]
  · have ha : a.rolls s = false := Bool.eq_false_iff.mpr fun h => hroll (Op.rolls_rollback h)
    have hmore : more.countP (Op.rolls s) = 0 := by
      refine countP_eq_zero.mpr fun b hb hin => ?_
      obtain ⟨id, name, op, rfl⟩ := Op.rolls_rollback hin
      rcases hs.request_more hb with h | ⟨r, h⟩
      · cases a with
        | rollback id name op => exact hroll ⟨id, name, op, rfl⟩
        | _ => cases h
      · cases h
    rcases (hs.change s).rollingBack with h | ⟨id, name, h, -⟩ | ⟨id, name, err, h, -⟩ | ⟨hn, h, -⟩
    · exact .inl ⟨h, by simp [ha, hmore]⟩
    · exact absurd ⟨id, name, _, h⟩ hroll
    · exact absurd ⟨id, name, _, h⟩ hroll
    · exact .inr (.inr (.inr ⟨hn, h, ha, hmore⟩))

theorem Step.issuesTurn_more (hs : Step w a w' more) (hb : b ∈ more)
    (hp : b.issuesTurn s = true) : (w.sess s).rollingBack = false ∧ ∃ id op, a = .turn id op := by
  unfold Op.issuesTurn at hp
  split at hp
  · have hreq := (hs.request_more hb).resolve_right nofun
    obtain rfl := eq_of_beq hp
    cases hs with
    | turn hs =>
      cases hs with
      | checked _ hrb =>
        cases mem_singleton.mp hb
        exact ⟨hrb, _, _, rfl⟩
      | recorded =>
        rcases mem_concat.mp hb with hb | hb
        · split at hb
          · cases mem_singleton.mp hb
          · cases hb
        · cases hb
      | kept | cleanedUp => cases hb
      | _ => cases mem_singleton.mp hb
    | _ => cases hreq
  · cases hp

theorem Op.marked_destroy (h : b.marked s = true) : ∃ id op, b = .destroy id op := by
  cases b with
  | destroy id op => exact ⟨id, op, rfl⟩
  | _ => cases h

theorem Step.marked_more (hs : Step w a w' more) (hb : b ∈ more) (hp : b.marked s = true) :
    a.marked s = true ∨ (w'.sess s).state = .destroying := by
  obtain ⟨id, op, rfl⟩ := Op.marked_destroy hp
  have hreq := (hs.request_more hb).resolve_right nofun
  cases hs with
  | destroy hs =>
    cases hs with try cases mem_singleton.mp hb
    | marked =>
      obtain rfl := eq_of_beq hp
      exact .inr (by simp [World.setSess])
    | _ => exact .inl hp
  | _ => cases hreq

theorem Step.removes_more (hs : Step w a w' more) (hb : b ∈ more) (hp : b.removes s = true) :
    ∃ id, a = .destroy id (.dataset s) := by
  unfold Op.removes at hp
  split at hp
  · have hreq := (hs.request_more hb).resolve_right nofun
    obtain rfl := eq_of_beq hp
    cases hs with
    | destroy hs =>
      cases hs with
      | datasetStarted =>
        cases mem_singleton.mp hb
        exact ⟨_, rfl⟩
      | _ => cases mem_singleton.mp hb
    | _ => cases hreq
  · cases hp

theorem Op.removes_marked (h : b.removes s = true) : b.marked s = true := by
  unfold Op.removes at h
  split at h
  · exact h
  · cases h

/-- A session that is being destroyed or has failed is never active again. -/
def SessionState.gone (st : SessionState) : Bool := st == .destroying || st == .failed

theorem Change.gone (hc : Change w a s v) (hn : s < w.nSess) (hg : (w.sess s).state.gone = true) :
    v.state.gone = true := by
  rcases hc.state with h | ⟨id, -, hst, -⟩ | ⟨id, -, hst, -⟩ | ⟨id, -, h⟩ | ⟨id, name, err, -, h⟩ |
      ⟨h, -, -⟩
  · rwa [h]
  iterate 2
    · rw [hst] at hg
      cases hg
  iterate 2
    · rw [h]
      rfl
  · exact absurd h (ne_of_lt hn)

/-! ## The invariant -/

/-- The flag is set while exactly one rollback is under way; then nothing else is on the
dataset. A session that `DestroySession` has marked stays marked or has failed. -/
structure Excluded (c : Config World Op) (s : SessRef) : Prop where
  one : c.pending (Op.rolls s) = if (c.state.sess s).rollingBack then 1 else 0
  idle : (c.state.sess s).rollingBack = true → (c.state.sess s).activeTools = 0
  turns : (c.state.sess s).rollingBack = true → c.pending (Op.issuesTurn s) = 0
  kept : (c.state.sess s).rollingBack = true → c.pending (Op.removes s) = 0
  gone : 0 < c.pending (Op.marked s) → (c.state.sess s).state.gone = true

variable {c : Config World Op} {i : Nat} {rest : List Op} {x : Choice} {o : Outcome World Op}

theorem Excluded.call (h : Excluded c s) (he : apiEntry c.state a = true) :
    Excluded (c.call a) s := by
  have hrolls : a.rolls s = false := Bool.eq_false_iff.mpr fun hp => by
    have := Op.rolls_ref hp
    rw [apiEntry_ref he] at this
    cases this
  have hnew : a.issuesTurn s = false ∧ a.removes s = false ∧ a.marked s = false := by
    unfold apiEntry at he
    split at he
    all_goals first
      | exact ⟨rfl, rfl, rfl⟩
      | cases he
  refine ⟨?_, h.idle, ?_, ?_, ?_⟩
  · rw [pending_call, hrolls]
    exact h.one
  · rw [pending_call, hnew.1]
    exact h.turns
  · rw [pending_call, hnew.2.1]
    exact h.kept
  · rw [pending_call, hnew.2.2]
    exact h.gone

theorem Excluded.gone_step (h : Excluded c s) (hsc : Scoped c)
    (ht : c.At i a rest) (hx : exec x a c.state = some o)
    (hpos : 0 < (c.advance i rest o).pending (Op.marked s)) :
    (o.state.sess s).state.gone = true := by
  obtain ⟨hs, hspawn⟩ := step_of_exec hx
  have hbefore : 0 < c.pending (Op.marked s) → (o.state.sess s).state.gone = true := by
    intro hpos
    obtain ⟨b, hb, hp⟩ := pending_pos.mp hpos
    have href : b.ref = some s := by
      obtain ⟨id, op, rfl⟩ := Op.marked_destroy hp
      cases op <;> simp_all [Op.marked, Op.ref]
    exact (hs.change s).gone (hsc.ops b hb s href) (h.gone hpos)
  rcases pos_of_pending_advance ht (by simp [hspawn]) hpos with hpos | ⟨b, hb, hp⟩
  · exact hbefore hpos
  · rcases hs.marked_more hb hp with ha | hst
    · exact hbefore (pending_head ht ha)
    · rw [hst]
      rfl

/-- What the flag keeps out: tools, snapshots of `TurnComplete` and `DestroyDataset`. -/
theorem Excluded.idle_step (h : Excluded c s)
    (hcount : (c.state.sess s).activeTools = c.pending (Op.inTool s))
    (ht : c.At i a rest) (hx : exec x a c.state = some o)
    (hcond : rollbackCond c a x = true) (hrb : (c.state.sess s).rollingBack = true) :
    (o.state.sess s).activeTools = 0 ∧ (c.advance i rest o).pending (Op.issuesTurn s) = 0 ∧
      (c.advance i rest o).pending (Op.removes s) = 0 := by
  obtain ⟨hs, hspawn⟩ := step_of_exec hx
  have hz := h.idle hrb
  refine ⟨?_, ?_, ?_⟩
  · refine (hs.change s).activeTools_zero hz ?_ fun _ _ => ?_
    · refine pending_eq_zero.mp ?_ a (pend_head ht)
      omega
    · simp [Session.lets, hrb]
  · refine pending_advance_none ht hspawn (h.turns hrb) fun b hb hp => ?_
    rw [(hs.issuesTurn_more hb hp).1] at hrb
    cases hrb
  · refine pending_advance_none ht hspawn (h.kept hrb) fun b hb hp => ?_
    obtain ⟨id, rfl⟩ := hs.removes_more hb hp
    simp [rollbackCond, hrb] at hcond

theorem Excluded.step (h : Excluded c s) (hsc : Scoped c)
    (hcount : (c.state.sess s).activeTools = c.pending (Op.inTool s))
    (ht : c.At i a rest) (hx : exec x a c.state = some o)
    (hcond : rollbackCond c a x = true) : Excluded (c.advance i rest o) s := by
  obtain ⟨hs, hspawn⟩ := step_of_exec hx
  have hbal := pending_advance_nil (Op.rolls s) ht hspawn
  have hgone := h.gone_step hsc ht hx
  have hstate : (c.advance i rest o).state = o.state := rfl
  have hquiet := fun hrb => h.idle_step hcount ht hx hcond hrb
  rcases hs.rolls s with ⟨hrb, hm⟩ | ⟨id, name, rfl, hlet, hrb, hm⟩ | ⟨ha, hrb, hm⟩ | ⟨hn, hrb, ha, hm⟩
  · refine ⟨?_, ?_, ?_, ?_, hgone⟩
    · rw [hstate, hrb, ← h.one]
      omega
    · rw [hstate, hrb]
      exact fun hrb => (hquiet hrb).1
    · rw [hstate, hrb]
      exact fun hrb => (hquiet hrb).2.1
    · rw [hstate, hrb]
      exact fun hrb => (hquiet hrb).2.2
  · -- a rollback is let in: the condition and the counter give what the flag stands for
    simp only [rollbackCond, hlet, Bool.not_true, Bool.false_or, Bool.and_eq_true,
      Bool.not_eq_true', beq_iff_eq] at hcond
    simp only [Session.letsRollback, Bool.and_eq_true, beq_iff_eq, decide_eq_true_eq] at hlet
    have hz : (c.state.sess s).activeTools = 0 := by omega
    refine ⟨?_, fun _ => ?_, fun _ => ?_, fun _ => ?_, hgone⟩
    · rw [hstate, hrb]
      have hone := h.one
      rw [hcond.1] at hone
      simp only [Op.rolls, Bool.false_eq_true, if_false, if_true] at hbal hone ⊢
      omega
    · exact (hs.change s).activeTools_zero hz rfl nofun
    · refine pending_advance_none ht hspawn hcond.2 fun b hb hp => ?_
      obtain ⟨-, _, _, heq⟩ := hs.issuesTurn_more hb hp
      cases heq
    · refine pending_advance_none ht hspawn (pending_none fun b hb hp => ?_) fun b hb hp => ?_
      · -- a session whose dataset is being destroyed is not active
        have := h.gone (pending_pos.mpr ⟨b, hb, Op.removes_marked hp⟩)
        rw [hlet.1] at this
        cases this
      · obtain ⟨_, heq⟩ := hs.removes_more hb hp
        cases heq
  · refine ⟨?_, ?_, ?_, ?_, hgone⟩
    · rw [hstate, hrb]
      have hone := h.one
      simp only [ha, hm, if_true, Bool.false_eq_true, if_false] at hbal hone ⊢
      split at hone <;> omega
    all_goals
      rw [hstate, hrb]
      nofun
  · refine ⟨?_, ?_, ?_, ?_, hgone⟩
    · rw [hstate, hrb]
      have hnone : c.pending (Op.rolls s) = 0 := by
        refine pending_none fun b hb hp => ?_
        exact absurd (hsc.ops b hb s (Op.rolls_ref hp)) (not_lt.mpr (le_of_eq hn.symm))
      simp only [ha, hm, hnone, Bool.false_eq_true, if_false] at hbal ⊢
      omega
    all_goals
      rw [hstate, hrb]
      nofun

theorem Reach.excluded
    (hr : Reach machine (Monitor.when rollbackCond) () (initialConfig config zfs) h c) (s : SessRef) :
    Excluded c s := by
  refine hr.invariant_of_reach (fun _ c => Excluded c s) ?_ ?_ ?_
  · exact ⟨rfl, nofun, nofun, nofun, fun hpos => absurd hpos (lt_irrefl 0)⟩
  · intro _ c a _ ih he
    exact ih.call he
  · intro _ c i a rest x o hr ih ht hx hcond
    exact ih.step (Reach.scoped hr) (Reach.activeTools hr s) ht hx hcond

theorem Op.rollsBack_rolls (h : b.rollsBack s = true) : b.rolls s = true := by
  unfold Op.rollsBack at h
  split at h
  · exact h
  · cases h

/-- In every run whose steps meet the condition: while a call of `zfs.Rollback` for `s` is
in progress, no tool is executing in `s`, it is the only such call, no `DestroyDataset`
for `s` is in progress, and neither `ExecuteTool` nor `TurnComplete` is at the point where
it issues a snapshot of `s`. -/
theorem rollback_excludes_others {config : ServiceConfig} {zfs : Zfs} {h : Unit}
    {c : Config World Op}
    (hr : Reach machine (Monitor.when rollbackCond) () (initialConfig config zfs) h c)
    (s : SessRef) (hs : 0 < c.pending (Op.rollsBack s)) :
    (∀ req, ¬ c.Pend (.tool req (.run s))) ∧ c.pending (Op.rollsBack s) = 1 ∧
      (∀ id, ¬ c.Pend (.destroy id (.datasetEnd s))) ∧
      (∀ req resp, ¬ c.Pend (.tool req (.snapshot s resp))) ∧
      ∀ id turn name, ¬ c.Pend (.turn id (.snapshot s turn name)) := by
  have hex := Reach.excluded hr s
  have hle : c.pending (Op.rollsBack s) ≤ c.pending (Op.rolls s) :=
    c.pending_mono fun _ => Op.rollsBack_rolls
  have hone := hex.one
  have hrb : (c.state.sess s).rollingBack = true := by
    by_contra hrb
    rw [if_neg hrb] at hone
    omega
  rw [if_pos hrb] at hone
  have htools : c.pending (Op.inTool s) = 0 := by
    have := Reach.activeTools hr s
    have := hex.idle hrb
    omega
  exact ⟨fun req => not_pend htools (by simp [Op.inTool]), by omega,
    fun id => not_pend (hex.kept hrb) (by simp [Op.removes]),
    fun req resp => not_pend htools (by simp [Op.inTool]),
    fun id turn name => not_pend (hex.turns hrb) (by simp [Op.issuesTurn])⟩

/-! ## Runs -/

def zfsConfig : ServiceConfig where
  storageBackend := .zfs
  containerRuntime := .gvisor
  sessionsDataset := "tank/sessions"

/-- A pool with one base snapshot. -/
def basePool : Zfs where
  datasets := ["tank/base"]
  snapshots := [("tank/base", "v1")]

/-- A session with one turn is rolled back while a second `TurnComplete` is refused. -/
theorem rollback_excludes_others_turn : ∃ h c,
    Reach machine (Monitor.when rollbackCond) () (initialConfig zfsConfig basePool) h c ∧
      0 < c.pending (Op.rollsBack 1) ∧
      ((∀ req, ¬ c.Pend (.tool req (.run 1))) ∧ c.pending (Op.rollsBack 1) = 1 ∧
        (∀ id, ¬ c.Pend (.destroy id (.datasetEnd 1))) ∧
        (∀ req resp, ¬ c.Pend (.tool req (.snapshot 1 resp))) ∧
        ∀ id turn name, ¬ c.Pend (.turn id (.snapshot 1 turn name))) := by
  refine Machine.follow_imp defaultChoice
    [.call (.create ⟨"tank/base@v1", "s-1", 0⟩ .start), .go 0 6,
      .call (.turn "s-1" .lookup), .go 1 6,
      .call (.rollback "s-1" "turn-0001" .lookup), .go 2 3,
      .call (.turn "s-1" .lookup), .go 3 2]
    (fun _ c => 0 < c.pending (Op.rollsBack 1)) ?_
  intro h c hr hpos
  exact ⟨hpos, rollback_excludes_others hr 1 hpos⟩

/-- Two rollbacks are let in; the first one ends and clears the flag, and a tool runs
while the second call of `zfs.Rollback` is in progress. -/
theorem tool_runs_during_rollback : ∃ c,
    Reach machine Monitor.free () (initialConfig zfsConfig basePool) () c ∧
      c.Pend (.rollback "s-1" "turn-0001" (.callEnd 1)) ∧
      c.Pend (.tool ⟨"s-1", "bash", "t-1"⟩ (.run 1)) :=
  Machine.follow_state defaultChoice
    [.call (.create ⟨"tank/base@v1", "s-1", 0⟩ .start), .go 0 6,
      .call (.turn "s-1" .lookup), .go 1 6,
      .call (.rollback "s-1" "turn-0001" .lookup), .call (.rollback "s-1" "turn-0001" .lookup),
      .go 2 3, .go 3 3, .go 2 3,
      .call (.tool ⟨"s-1", "bash", "t-1"⟩ .lookup), .go 4 3]

end FlexAgentRuntime.SandboxHost
