import FlexAgentRuntime.Orchestrator.Closing

/-!
A session is torn down once, in runs in which

* `DestroySession` looks a session up only while no teardown of it is under way;
* it locks the entry only while no health check of the entry is between its two critical
  sections.

The source asks for neither: a second caller that has found the entry waits for its lock
and tears it down again, and a health check that has released the lock makes its calls
whatever happens to the entry meanwhile. `Close` needs no condition (`Reach.quiet`).

* `Torn`: the `DestroySandbox` calls made and pending for a sandbox are one at most;
* `torn_down_once`;
* `destroyed_twice`: a run without each of the two conditions.
-/

namespace FlexAgentRuntime.Orchestrator

open List

open AgentLoop (Choice)
open Interleaving Config

/-! ## History and condition -/

/-- How often `DestroySandbox` has been called. -/
def noteDestroy (h : SandboxRef → Nat) : Op → SandboxRef → Nat
  | .backend _ _ (.destroySandbox s) => Function.update h s (h s + 1)
  | _ => h

/-- A teardown of `e` has been asked for and has not begun. -/
def Op.asksTeardown (e : EntryRef) : Op → Bool
  | .entry r (.destroy _) => r == e
  | _ => false

/-- A teardown of `e` has begun. -/
def Op.endsTeardown (e : EntryRef) : Op → Bool
  | .entry r .destroyed => r == e
  | _ => false

/-- A teardown of `e` is under way. -/
def Op.tearsDown (e : EntryRef) : Op → Bool
  | .entry r (.destroy _) | .entry r .destroyed => r == e
  | _ => false

/-- A health check of `e` is making its calls. -/
def Op.judges (e : EntryRef) : Op → Bool
  | .entry r .verdict => r == e
  | _ => false

/-- The actions on an entry that make calls to its sandbox or agent, or go on to do so
whatever its state is. -/
def EntryOp.calling : EntryOp → Bool
  | .destroy _ | .verdict => true
  | op => op.holding

/-- A call to the sandbox or the agent of `e`. -/
def Op.calls (e : EntryRef) : Op → Bool
  | .backend r _ _ => r == e
  | .entry r op => r == e && op.calling
  | _ => false

def Op.destroysSandbox (s : SandboxRef) : Op → Bool
  | .backend _ _ (.destroySandbox r) => r == s
  | _ => false

/-- `DestroySession` finds no teardown under way when it looks the entry up, and no health
check when it locks it. -/
def teardownCond (c : Config World Op) (a : Op) (_ : Choice) : Bool :=
  match a with
  | .orch (.lookupDestroy id) =>
    (c.state.getSessionEntry id).all fun e => c.pending (Op.tearsDown e) == 0
  | .entry e (.destroy false) => c.pending (Op.judges e) == 0
  | _ => true

def watchDestroys (meets : Config World Op → Op → Choice → Bool) :
    Monitor World Op Choice (SandboxRef → Nat) :=
  ⟨fun h _ _ => h, fun h _ a _ => noteDestroy h a, fun _ => meets⟩

/-! ## Steps -/

variable {h : SandboxRef → Nat} {config : OrchestratorConfig} {publisher : Bool} {maxSess i : Nat}
  {c : Config World Op} {w w' : World} {e : EntryRef} {s : SandboxRef} {x : Choice} {a b : Op}
  {o : Outcome World Op} {more rest : List Op} {ctx : Ctx} {γ : Type}
  {N : Monitor World Op Choice γ} {h₀ h₁ : γ}

theorem Step.asks_more (hs : Step x w a o) (hb : .entry e (.destroy byClose) ∈ o.more) :
    (∃ id, a = .orch (.lookupDestroy id) ∧ w.getSessionEntry id = some e ∧ byClose = false ∧
        o.more = [.entry e (.destroy false)]) ∨
      (a = .orch .closeSessions ∧ e ∈ w.listSessionEntries ∧ byClose = true ∧
        o.more = w.listSessionEntries.map (fun e => .entry e (.destroy true)) ++
          [.orch .closeShared]) := by
  cases hs.comes hb with
  | leads hl => cases hl
  | hands hh =>
    cases hs with
    | orch hs =>
    cases hh with
    | finds hf =>
      cases hf
      cases hs with
      | found hf he =>
        cases mem_singleton.mp hb
        cases hf
        exact .inl ⟨_, rfl, he, rfl, rfl⟩
      | refused => cases mem_singleton.mp hb
      | begun h => cases h
    | closeSessions =>
      cases hs with
      | closeSessions =>
        rcases mem_map_concat hb with ⟨e', he', h⟩ | h <;> cases h
        exact .inr ⟨rfl, he', rfl, rfl⟩
      | refused h | begun h | found h => cases h

theorem Op.tearsDown_iff : a.tearsDown e = true ↔
    (∃ byClose, a = .entry e (.destroy byClose)) ∨ a = .entry e .destroyed := by
  unfold tearsDown
  split <;> simp_all

theorem Op.asksTeardown_iff : a.asksTeardown e = true ↔
    ∃ byClose, a = .entry e (.destroy byClose) := by
  unfold asksTeardown
  split <;> simp_all

theorem Op.endsTeardown_iff : a.endsTeardown e = true ↔ a = .entry e .destroyed := by
  unfold endsTeardown
  split <;> simp_all

theorem Op.judges_iff : a.judges e = true ↔ a = .entry e .verdict := by
  unfold judges
  split <;> simp_all

theorem Op.destroysSandbox_iff : a.destroysSandbox s = true ↔
    ∃ e ctx, a = .backend e ctx (.destroySandbox s) := by
  unfold destroysSandbox
  split <;> simp_all

theorem Op.tearing_of_tearsDown (h : a.tearsDown e = true) : a.tearing = true := by
  rcases Op.tearsDown_iff.mp h with ⟨_, rfl⟩ | rfl <;> rfl

theorem Step.destroyed_more (hs : Step x w a o) (hb : .entry e .destroyed ∈ o.more) :
    ∃ byClose, a = .entry e (.destroy byClose) := by
  rcases hs.entry_more hb with ⟨op, rfl, hl⟩ | ⟨_, -, hh, -⟩
  · cases hl
    exact ⟨_, rfl⟩
  · cases hh.not_holding

theorem Step.countP_tearsDown (hs : Step x w a o) (hnodup : w.listSessionEntries.Nodup) :
    o.more.countP (Op.tearsDown e) ≤ 1 := by
  refine countP_le_of_mem fun b hb ht => ?_
  rcases Op.tearsDown_iff.mp ht with ⟨byClose, rfl⟩ | rfl
  · rcases hs.asks_more hb with ⟨id, -, -, -, hm⟩ | ⟨-, -, -, hm⟩
    · rw [hm]
      exact countP_le_length
    · have hcount : ∀ l : List EntryRef,
          (l.map fun r => Op.entry r (.destroy true)).countP (Op.tearsDown e) = l.count e := by
        intro l
        rw [countP_map]
        rfl
      rw [hm, countP_append, hcount]
      exact nodup_iff_count.mp hnodup e
  · obtain ⟨byClose, rfl⟩ := hs.destroyed_more hb
    cases hs with
    | entry hs =>
      cases hs with
      | destroy =>
        rw [countP_concat _ _ fun _ => rfl]
        split <;> omega
      | refused h | skipped h | gaveUp h => cases h

theorem Step.tearsDown_more (hs : Step x w a o) (hb : b ∈ o.more) (ht : b.tearsDown e = true)
    (ha : a.tearsDown e = false) :
    (∃ id, a = .orch (.lookupDestroy id) ∧ w.getSessionEntry id = some e) ∨
      a = .orch .closeSessions := by
  rcases Op.tearsDown_iff.mp ht with ⟨byClose, rfl⟩ | rfl
  · rcases hs.asks_more hb with ⟨id, ha, he, -, -⟩ | ⟨ha, -, -, -⟩
    · exact .inl ⟨id, ha, he⟩
    · exact .inr ha
  · obtain ⟨byClose, rfl⟩ := hs.destroyed_more hb
    simp [Op.tearsDown] at ha

/-! ## The registry -/

theorem Reach.distinct (hr : Reach machine N h₀ (initialConfig config publisher maxSess) h₁ c) :
    (c.state.orch.sessions.map (·.2)).Nodup := by
  refine hr.invariant_of_reach (fun _ c => (c.state.orch.sessions.map (·.2)).Nodup) nodup_nil
    (fun _ _ _ _ hc _ => hc) ?_
  intro _ c i a rest x o hr hc ht hx _
  rw [advance_state]
  have hs := step_of_exec hx
  have hun : ∀ {e cfg expired op}, a = .create e cfg expired op → Unregistered c e :=
    fun ha => (Reach.births hr).unregistered _ (.inl (pending_head ht (ha ▸ Op.creates_self ..)))
  cases hs with
  | orch hs | backend hs => cases hs <;> exact hc
  | expire | loop hs => exact hc
  | @create e cfg expired op _ _ hs _ =>
    cases hs with
    | added =>
      have hnot := (hun rfl).registered
      simp only [World.setOrch, World.setEntry, map_append, map_cons, map_nil]
      refine nodup_append.mpr ⟨hc, nodup_singleton _, ?_⟩
      rintro r hr r' hr' rfl
      cases mem_singleton.mp hr'
      obtain ⟨q, hq, rfl⟩ := mem_map.mp hr
      exact hnot ⟨q.1, hq⟩
    | _ => exact hc
  | entry hs =>
    cases hs with
    | destroyed => exact hc.sublist (filter_sublist.map _)
    | _ => exact hc

/-! ## Every reachable configuration -/

def Backend.destroys (s : SandboxRef) : Backend → Bool
  | .destroySandbox r => r == s
  | _ => false

def Backend.isDestroy : Backend → Bool
  | .destroySandbox _ => true
  | _ => false

/-- `DestroySandbox` has been called for a sandbox of `e`, or is about to be: nobody else
will call it. -/
structure Spent (c : Config World Op) (e : EntryRef) : Prop where
  created : c.pending (Op.creates e) = 0
  asked : c.pending (Op.asksTeardown e) = 0
  registered : c.state.Registered e → 0 < c.pending (Op.endsTeardown e)

/-- The entry is destroyed, and nobody has it. -/
structure Over (c : Config World Op) (e : EntryRef) : Prop where
  created : c.pending (Op.creates e) = 0
  registered : ¬ c.state.Registered e
  calls : c.pending (Op.calls e) = 0

structure Torn (h : SandboxRef → Nat) (c : Config World Op) : Prop where
  once : ∀ e, c.pending (Op.tearsDown e) ≤ 1
  byClose : ∀ e, c.Pend (.entry e (.destroy true)) → c.state.orch.healthDone = true
  unjudged : ∀ e, 0 < c.pending (Op.endsTeardown e) → c.pending (Op.judges e) = 0
  cleanup : ∀ e cfg expired err cleanup, c.Pend (.create e cfg expired (.abandon err cleanup)) →
    ∀ s, cleanup.countP (Backend.destroys s) ≤ 1
  account : ∀ s, h s + c.pending (Op.destroysSandbox s) ≤ 1
  spent : ∀ s, 0 < h s + c.pending (Op.destroysSandbox s) →
    s < c.state.nSandboxes ∧ Spent c (c.state.sandboxes s).owner
  ended : ∀ e < c.state.nEntries, (c.state.entries e).state = .destroyed → Over c e

theorem pending_tearsDown (c : Config World Op) (e : EntryRef) :
    c.pending (Op.asksTeardown e) + c.pending (Op.endsTeardown e) ≤
      c.pending (Op.tearsDown e) := by
  refine c.pending_add_le fun a => ?_
  cases a with
  | entry r op =>
    cases op with
    | destroy b | destroyed => simp [Op.asksTeardown, Op.endsTeardown, Op.tearsDown]
    | _ => exact le_refl 0
  | _ => exact le_refl 0

theorem Op.endsTeardown_holds (h : a.endsTeardown e = true) : a.holds e = true := by
  rw [Op.endsTeardown_iff.mp h]
  simp [Op.holds, EntryOp.holding]

theorem countP_destroys_le (l : List Backend) :
    l.countP (Backend.destroys s) ≤ l.countP Backend.isDestroy := by
  refine countP_mono_left fun call _ hc => ?_
  cases call with
  | destroySandbox r => rfl
  | _ => cases hc

theorem countP_cleanupSession (id : String) (r : SandboxRef) (p : Option ProcessRef)
    (svc : ServiceRef) : (cleanupSession id r p svc).countP (Backend.destroys s) ≤ 1 := by
  refine (countP_destroys_le _).trans ?_
  cases svc <;> cases p <;> exact le_refl 1

theorem CreateOp.Cleanup.countP {op : CreateOp} {id : String} {cleanup : List Backend}
    (h : op.Cleanup id cleanup) : cleanup.countP (Backend.destroys s) ≤ 1 := by
  cases h with
  | createSandbox => exact Nat.zero_le 1
  | launchProcess => exact countP_le_length
  | connect => exact (countP_destroys_le _).trans (le_refl 1)
  | createSession => exact countP_cleanupSession ..

theorem Torn.cleanup_step (h' : Torn h c) (ht : c.At i a rest) (hs : Step x c.state a o)
    {cleanup : List Backend}
    (hb : (c.advance i rest o).Pend (.create e cfg expired (.abandon err cleanup))) :
    cleanup.countP (Backend.destroys s) ≤ 1 := by
  rcases hs.pend_cases ht hb (by simp) with hb | hb
  · exact h'.cleanup e cfg expired err cleanup hb s
  · rcases hs.create_more hb with ⟨cfg', expired', op, rfl⟩ | ⟨⟨_, rfl, -⟩, -⟩
    · cases hs with
      | expire =>
        cases mem_singleton.mp hb
        exact h'.cleanup _ _ _ _ _ (pend_head ht) s
      | create hs =>
        cases hs with try cases mem_singleton.mp hb
        | sandbox =>
          have h := mem_singleton.mp hb
          simp only [Op.create.injEq] at h
          cases hp : (c.state.entries e).placement <;> rw [hp] at h <;> cases h.2.2.2
        | failed hcl => exact hcl.countP
        | sharedFailed => exact countP_le_length
        | refused => exact countP_cleanupSession ..
        | abandon => rcases mem_map_concat hb with ⟨_, -, h⟩ | h <;> cases h
    · cases hs with
      | orch hs =>
        cases hs with
        | placed | refused => cases mem_singleton.mp hb
        | begun hbg => cases hbg
        | found hf => cases hf

/-! ### The calls of `DestroySandbox` -/

theorem noteDestroy_eq (h : SandboxRef → Nat) (a : Op) (s : SandboxRef) :
    noteDestroy h a s = h s + if a.destroysSandbox s then 1 else 0 := by
  cases a with
  | backend e ctx call =>
    cases call with
    | destroySandbox r =>
      by_cases hr : r = s
      · subst hr
        simp [noteDestroy, Op.destroysSandbox]
      · have hne : s ≠ r := fun h => hr h.symm
        simp [noteDestroy, Op.destroysSandbox, hr, Function.update_of_ne hne]
    | _ => rfl
  | _ => rfl

theorem destroys_balance (ht : c.At i a rest) (hs : Step x c.state a o) :
    noteDestroy h a s + (c.advance i rest o).pending (Op.destroysSandbox s) =
      h s + c.pending (Op.destroysSandbox s) + o.more.countP (Op.destroysSandbox s) := by
  have hbal := pending_advance (Op.destroysSandbox s) o ht
  rw [hs.spawn_countP fun _ => rfl] at hbal
  rw [noteDestroy_eq]
  omega

theorem countP_map_backend (calls : List Backend) (e : EntryRef) (ctx : Ctx) :
    (calls.map (Op.backend e ctx)).countP (Op.destroysSandbox s) =
      calls.countP (Backend.destroys s) := by
  rw [countP_map]
  refine countP_congr fun call _ => ?_
  cases call <;> rfl

theorem SessionEntry.countP_teardown (v : SessionEntry) :
    v.teardown.countP (Backend.destroys s) ≤ 1 := by
  refine (countP_destroys_le _).trans ?_
  unfold SessionEntry.teardown
  cases v.agentService <;> cases v.process <;> cases v.sandbox <;>
    first | exact le_refl 1 | exact Nat.zero_le 1

/-- `DestroySandbox` is called by a teardown and by a creation that is given up. -/
theorem Step.destroys_more (hs : Step x w a o) (hb : .backend e ctx (.destroySandbox s) ∈ o.more) :
    (∃ byClose, a = .entry e (.destroy byClose) ∧ .entry e .destroyed ∈ o.more ∧
        o.more.countP (Op.destroysSandbox s) ≤ 1) ∨
      ∃ cfg expired err cleanup, a = .create e cfg expired (.abandon err cleanup) ∧ x ≠ .timeout ∧
        o.more.countP (Op.destroysSandbox s) = cleanup.countP (Backend.destroys s) := by
  rcases hs.backend_more hb with ⟨op, rfl, -⟩ | ⟨cfg, expired, err, cleanup, rfl, -, -⟩
  · left
    cases hs with
    | entry hs =>
      cases hs with
      | @destroy byClose _ =>
        refine ⟨byClose, rfl, by simp, ?_⟩
        rw [countP_append, countP_map_backend]
        exact SessionEntry.countP_teardown _
      | pause _ _ hcalls =>
        rcases mem_map_concat hb with ⟨call, hc, h⟩ | h
        · unfold SessionEntry.abortForPause at hcalls
          split at hcalls
          · split at hcalls <;> cases hcalls
            cases mem_singleton.mp hc
            cases h
          · cases hcalls
            cases hc
        · cases h
      | skipped | unlock | healthy | unhealthy => cases hb
      | reconnect =>
        rcases mem_pair.mp hb with h | h <;> cases h
      | reconnectFailed =>
        simp only [mem_cons, not_mem_nil, or_false] at hb
        rcases hb with h | h | h <;> cases h
      | _ => cases mem_singleton.mp hb
  · right
    cases hs with
    | expire => cases mem_singleton.mp hb
    | create hs hto =>
      cases hs with
      | failed hcl => cases hcl
      | abandon =>
        refine ⟨cfg, expired, err, cleanup, rfl, hto, ?_⟩
        rw [countP_append, countP_map_backend]
        rfl

theorem Step.destroyed_eq (hs : Step x w (.entry e .destroyed) o) (hw : w.In) :
    ¬ o.state.Registered e ∧ o.more = [ret e none] ∧ o.spawn = [] := by
  cases hs with
  | entry hs =>
    cases hs with
    | destroyed =>
      refine ⟨?_, rfl, rfl⟩
      rintro ⟨id, hid⟩
      obtain ⟨hmem, hne⟩ := mem_filter.mp hid
      simp [(hw.sessions _ hmem).2] at hne
    | refused h | skipped h | gaveUp h => cases h

section

variable (hr : Reach machine N h₀ (initialConfig config publisher maxSess) h₁ c)
  (ht : c.At i a rest) (hs : Step x c.state a o) (hm : teardownCond c a x = true)

include hr ht hs hm

omit hs in
/-- A step that asks for a teardown finds none under way. -/
theorem tearsDown_zero_of_asked
    (ha : (∃ id, a = .orch (.lookupDestroy id) ∧ c.state.getSessionEntry id = some e) ∨
      a = .orch .closeSessions) : c.pending (Op.tearsDown e) = 0 := by
  rcases ha with ⟨id, rfl, he⟩ | rfl
  · simpa [teardownCond, he] using hm
  · have hzero := (Reach.quiet hr ht).2.2
    exact pending_none fun b hb hd => not_pend hzero (Op.tearing_of_tearsDown hd) hb

theorem Torn.once_step (h' : Torn h c) :
    (c.advance i rest o).pending (Op.tearsDown e) ≤ 1 := by
  have hnodup : c.state.listSessionEntries.Nodup :=
    (perm_insertionSort _ _).nodup_iff.mpr (Reach.distinct hr)
  exact unused_token_step ht (h'.once e) (hs.spawn_false fun _ => rfl) (fun _ => hs.countP_tearsDown hnodup)
    fun ha ⟨b, hb, hc⟩ => ⟨tearsDown_zero_of_asked hr ht hm (hs.tearsDown_more hb hc ha),
      hs.countP_tearsDown hnodup⟩

omit hm in
theorem Torn.byClose_step (h' : Torn h c)
    (hb : (c.advance i rest o).Pend (.entry e (.destroy true))) :
    o.state.orch.healthDone = true := by
  have hdone : c.state.orch.healthDone = true → o.state.orch.healthDone = true := by
    by_cases ha : ∃ op, a = .orch op
    · obtain ⟨op, rfl⟩ := ha
      cases hs with
      | orch hs => exact hs.flags.1
    · exact fun hd => (hs.orch_eq ha).1.trans hd
  rcases hs.pend_cases ht hb (by simp) with hb | hb
  · exact hdone (h'.byClose e hb)
  · rcases hs.asks_more hb with ⟨_, -, -, hbc, -⟩ | ⟨rfl, -, -, -⟩
    · cases hbc
    · exact hdone (Reach.quiet hr ht).1

/-- While an entry is torn down no health check of it is under way. -/
theorem Torn.unjudged_step (h' : Torn h c)
    (hpos : 0 < (c.advance i rest o).pending (Op.endsTeardown e)) :
    (c.advance i rest o).pending (Op.judges e) = 0 := by
  have hhead := pend_head ht
  -- before the step no check is under way
  have hzero : c.pending (Op.judges e) = 0 := by
    rcases pos_of_pending_advance ht (hs.spawn_false fun _ => rfl) hpos with hold | ⟨b, hb, hend⟩
    · exact h'.unjudged e hold
    · obtain rfl := Op.endsTeardown_iff.mp hend
      obtain ⟨byClose, rfl⟩ := hs.destroyed_more hb
      cases byClose with
      | false => simpa [teardownCond] using hm
      | true =>
        have hno := Reach.no_checks hr (h'.byClose e hhead)
        refine pending_none fun b hb hj => ?_
        obtain rfl := Op.judges_iff.mp hj
        exact not_pend hno rfl hb
  -- and none begins, for that takes the lock
  refine pending_advance_zero ht hzero (fun b hb hj => ?_) (hs.spawn_false fun _ => rfl)
  obtain rfl := Op.judges_iff.mp hj
  rcases hs.entry_more hb with ⟨op', rfl, hl⟩ | ⟨_, -, hh, -⟩
  · cases hl with
    | probe =>
      cases hs with
      | entry hs =>
        cases hs with
        | probe hfree =>
          have hpend := (Reach.locks hr).pending_advance (e := e)
            (fun _ => Op.endsTeardown_holds) ht (.entry (.probe hfree ‹_›) : Step x _ _ _)
            (.inr ⟨by simp [Op.holds, EntryOp.holding], hfree⟩)
          rw [hpend] at hpos
          simp [Op.endsTeardown] at hpos
        | refused h | gaveUp h => cases h
        | skipped h => cases hb
  · cases hh with
    | finds hf => cases hf

/-- Nobody takes up what has been called or is about to be. -/
theorem Spent.keep (hsp : Spent c e) (hlt : e < c.state.nEntries) :
    Spent (c.advance i rest o) e := by
  have hhead := pend_head ht
  refine ⟨creates_zero_step hlt hsp.created ht hs, ?_, fun hreg => ?_⟩
  · refine pending_advance_zero ht hsp.asked (fun b hb hask => ?_) (hs.spawn_false fun _ => rfl)
    obtain ⟨byClose, rfl⟩ := Op.asksTeardown_iff.mp hask
    -- the entry is registered, so its teardown is under way
    have hasks := hs.asks_more hb
    have hreg : c.state.Registered e := by
      rcases hasks with ⟨id, -, he, -⟩ | ⟨-, he, -⟩
      · exact ⟨id, getSessionEntry_some he⟩
      · exact mem_listSessionEntries he
    have hzero := tearsDown_zero_of_asked (e := e) hr ht hm
      (hasks.imp (fun ⟨id, ha, he, _⟩ => ⟨id, ha, he⟩) And.left)
    have hpos := hsp.registered hreg
    have hle := pending_tearsDown c e
    omega
  · rcases hs.registers hreg with hold | ⟨cfg, expired, s, p, svc, rfl, -⟩
    · by_cases hend : a.endsTeardown e = true
      · -- the registry loses the entry
        obtain rfl := Op.endsTeardown_iff.mp hend
        exact absurd hreg (hs.destroyed_eq (Reach.owned hr).world).1
      · exact pending_pos_advance ht (by simpa using hend) (hsp.registered hold)
    · exact absurd hhead (not_pend hsp.created (by simp))

theorem Torn.account_step (h' : Torn h c) :
    noteDestroy h a s + (c.advance i rest o).pending (Op.destroysSandbox s) ≤ 1 ∧
      (0 < noteDestroy h a s + (c.advance i rest o).pending (Op.destroysSandbox s) →
        s < o.state.nSandboxes ∧ Spent (c.advance i rest o) (o.state.sandboxes s).owner) := by
  have hin := Reach.owned hr
  have hbirths := Reach.births hr
  have hhead := pend_head ht
  have hina := hin.ops a hhead
  rw [destroys_balance ht hs]
  by_cases hpos : 0 < o.more.countP (Op.destroysSandbox s)
  · obtain ⟨b, hb, hd⟩ := countP_pos_iff.mp hpos
    obtain ⟨e, ctx, rfl⟩ := Op.destroysSandbox_iff.mp hd
    obtain ⟨hlt, hbox⟩ := (hs.in_ hin.world hina).2.1 _ hb
    have hown : (o.state.sandboxes s).owner = e := hbox.2
    have hold : c.state.HasSandbox e s := by
      rcases hs.hasSandbox hbox with hold | ⟨-, -, cfg, expired, rfl⟩
      · exact hold
      · rcases hs.backend_more hb with ⟨_, ha, -⟩ | ⟨_, _, _, _, ha, -, -⟩ <;> cases ha
    -- no call has been made for this sandbox
    have hfresh : ¬ Spent c e → h s + c.pending (Op.destroysSandbox s) = 0 :=
      fun hns => Nat.eq_zero_of_not_pos fun hpos => hns (hold.2 ▸ (h'.spent s hpos).2)
    rcases hs.destroys_more hb with ⟨byClose, rfl, hmem, hle⟩ |
      ⟨cfg, expired, err, cleanup, rfl, hto, heq⟩
    · have hask : Op.asksTeardown e (.entry e (.destroy byClose)) = true :=
        Op.asksTeardown_iff.mpr ⟨byClose, rfl⟩
      have hzero := hfresh fun hsp => not_pend hsp.asked hask hhead
      have hcr : c.pending (Op.creates e) = 0 := Nat.eq_zero_of_not_pos fun hpos =>
        (hbirths.unregistered e (.inl hpos)).not_pend hhead
      have hend : 0 < (c.advance i rest o).pending (Op.endsTeardown e) :=
        pending_pos.mpr ⟨_, pend_more ht hmem, Op.endsTeardown_iff.mpr rfl⟩
      have honce : (c.advance i rest o).pending (Op.tearsDown e) ≤ 1 := h'.once_step hr ht hs hm
      have hsum := pending_tearsDown (c.advance i rest o) e
      refine ⟨by omega, fun _ => ⟨hbox.1, ?_⟩⟩
      rw [hown]
      exact ⟨creates_zero_step hina.1 hcr ht hs, by omega, fun _ => hend⟩
    · have hzero := hfresh fun hsp => not_pend hsp.created (by simp) hhead
      have hle := h'.cleanup e cfg expired err cleanup hhead s
      obtain ⟨hcr, hun⟩ := hbirths.abandoned ht hs hto
      refine ⟨by omega, fun _ => ⟨hbox.1, ?_⟩⟩
      rw [hown]
      refine ⟨hcr, pending_none fun b hb hask => ?_, fun hreg => absurd hreg hun.registered⟩
      obtain ⟨_, rfl⟩ := Op.asksTeardown_iff.mp hask
      exact hun.not_pend hb
  · have hzero : o.more.countP (Op.destroysSandbox s) = 0 := Nat.eq_zero_of_not_pos hpos
    rw [hzero, Nat.add_zero]
    refine ⟨h'.account s, fun hpos' => ?_⟩
    obtain ⟨hlt, hsp⟩ := h'.spent s hpos'
    refine ⟨hlt.trans_le hs.extends.sandboxes, ?_⟩
    rw [hs.extends.owner s hlt]
    exact hsp.keep hr ht hs hm (Reach.ownersExist hr s hlt)

end

/-! ### Destroyed entries -/

theorem Step.state_destroyed (hs : Step x w a o) (hd : (o.state.entries e).state = .destroyed) :
    (w.entries e).state = .destroyed ∨ a = .entry e .destroyed := by
  rcases hs.entries_cases e with heq | ⟨op, rfl⟩ | ⟨_, _, _, _, _, -, heq⟩ | ⟨_, _, -, -, heq⟩
  · exact .inl (heq ▸ hd)
  · cases hs with
    | entry hs =>
      cases hs with
      | destroyed => exact .inr rfl
      | paused | pausedDirect | unhealthy => simp at hd
      | resumed | reconnected => simp [SessionEntry.activated, SessionEntry.unlocked] at hd
      | healthy => simp [SessionEntry.activated] at hd
      | _ =>
        first
          | exact .inl hd
          | exact .inl (by simpa [SessionEntry.unlocked] using hd)
  · rw [heq] at hd
    cases hd
  · rw [heq] at hd
    cases hd

/-- Nothing is called for an entry that is destroyed, unless it was on its way before. -/
theorem EntryOp.Step.idle {op : EntryOp} (hs : op.Step e w w' more)
    (hd : (w.entries e).state = .destroyed) (hop : op.calling = false) :
    ∀ b ∈ more, b.calls e = false := by
  cases hs with
  | refused | proxy | gaveUp => exact forall_mem_singleton.mpr rfl
  | skipped => exact forall_mem_nil _
  | pause _ hst | resume _ hst => exact nomatch hst.symm.trans hd
  | probe _ hst =>
    rw [hd] at hst
    cases hst
  | _ => cases hop

theorem Op.calls_iff : a.calls e = true ↔ (∃ ctx call, a = .backend e ctx call) ∨
    ∃ op, a = .entry e op ∧ op.calling = true := by
  cases a <;> simp [Op.calls]

theorem EntryOp.calling_cases {op : EntryOp} (h : op.calling = true) :
    op.holding = true ∨ (∃ byClose, op = .destroy byClose) ∨ op = .verdict := by
  cases op with
  | destroy b => exact .inr (.inl ⟨b, rfl⟩)
  | verdict => exact .inr (.inr rfl)
  | _ => exact .inl h

theorem Over.keep (h : Over c e) (hd : (c.state.entries e).state = .destroyed)
    (hlt : e < c.state.nEntries) (ht : c.At i a rest)
    (hs : Step x c.state a o) : Over (c.advance i rest o) e := by
  have hhead := pend_head ht
  have hcalls := pending_eq_zero.mp h.calls a hhead
  refine ⟨creates_zero_step hlt h.created ht hs, fun hreg => ?_, ?_⟩
  · rcases hs.registers hreg with hold | ⟨_, _, _, _, _, rfl, -⟩
    · exact h.registered hold
    · exact absurd hhead (not_pend h.created (Op.creates_self ..))
  · -- an action on the entry that makes no calls does not lead to one
    have hidle : ∀ op, a = .entry e op → ∀ b ∈ o.more, b.calls e = false := by
      rintro op rfl
      have hop : op.calling = false := by simpa [Op.calls] using hcalls
      cases hs with
      | entry hs => exact hs.idle hd hop
    refine pending_advance_zero ht h.calls (fun b hb hc => ?_) (hs.spawn_false fun _ => rfl)
    rcases Op.calls_iff.mp hc with ⟨ctx, call, rfl⟩ | ⟨op, rfl, hop⟩
    · rcases hs.backend_more hb with ⟨op, ha, -⟩ | ⟨_, _, _, _, rfl, -, -⟩
      · rw [hidle op ha _ hb] at hc
        cases hc
      · exact not_pend h.created (Op.creates_self ..) hhead
    · rcases hs.entry_more hb with ⟨op', ha, -⟩ | ⟨_, -, -, hreg⟩
      · rw [hidle op' ha _ hb] at hc
        cases hc
      · exact h.registered hreg

/-- At the end of a teardown nothing is on its way for the entry. -/
theorem Torn.over_of_destroyed (h' : Torn h c)
    (hr : Reach machine N h₀ (initialConfig config publisher maxSess) h₁ c)
    (ht : c.threads[i]? = some (.entry e .destroyed :: rest))
    (hs : Step x c.state (.entry e .destroyed) o) : Over (c.advance i rest o) e := by
  have hin := Reach.owned hr
  have hbirths := Reach.births hr
  have hl := Reach.locks hr
  have hhead := pend_head ht
  have hholds : Op.holds e (.entry e .destroyed) = true := by simp [Op.holds, EntryOp.holding]
  have hend : Op.endsTeardown e (.entry e .destroyed) = true := Op.endsTeardown_iff.mpr rfl
  have hpos : 0 < c.pending (Op.endsTeardown e) := pending_pos.mpr ⟨_, hhead, hend⟩
  obtain ⟨hreg, hmore, hspawn⟩ := hs.destroyed_eq hin.world
  have hborn : ¬ (0 < c.pending (Op.creates e) ∨ 0 < c.pending (Op.cleansUp e)) :=
    fun hp => (hbirths.unregistered e hp).not_pend hhead
  refine ⟨creates_zero_step (hin.ops _ hhead).1 (by omega) ht hs, hreg,
    pending_none fun b hb hc => ?_⟩
  -- only what was there before is left
  have hold : c.Pend b := by
    rcases hb.of_advance_nil ht hspawn with hb | hb
    · exact hb
    · rw [hmore] at hb
      cases mem_singleton.mp hb
      cases hc
  rcases Op.calls_iff.mp hc with ⟨ctx, call, rfl⟩ | ⟨op, rfl, hop⟩
  · cases ctx with
    | background =>
      have hzero := not_background_of_head hl (Reach.background hr e) ht hholds
      exact not_pend hzero (by simp [Op.background]) hold
    | create expired =>
      exact hborn (.inr (pending_pos.mpr ⟨_, hold, by simp [Op.cleansUp]⟩))
  · rcases EntryOp.calling_cases hop with hh | ⟨byClose, rfl⟩ | rfl
    · have hzero := hl.pending_advance (p := Op.holds e) (fun _ hb => hb) ht hs (.inl hholds)
      rw [hmore] at hzero
      exact not_pend (hzero.trans rfl) (by simp [Op.holds, hh]) hb
    · have htwo := two_le_pending (p := Op.tearsDown e) hhead hold (fun he => by cases he)
        (Op.tearsDown_iff.mpr (.inr rfl)) (Op.tearsDown_iff.mpr (.inl ⟨byClose, rfl⟩))
      have := h'.once e
      omega
    · exact not_pend (h'.unjudged e hpos) (by simp [Op.judges]) hold

theorem Torn.step (h' : Torn h c)
    (hr : Reach machine N h₀ (initialConfig config publisher maxSess) h₁ c) (ht : c.At i a rest)
    (hs : Step x c.state a o) (hm : teardownCond c a x = true) :
    Torn (noteDestroy h a) (c.advance i rest o) where
  once _ := h'.once_step hr ht hs hm
  byClose _ hb := h'.byClose_step hr ht hs hb
  unjudged _ hpos := h'.unjudged_step hr ht hs hm hpos
  cleanup _ _ _ _ _ hb _ := h'.cleanup_step ht hs hb
  account _ := (h'.account_step hr ht hs hm).1
  spent _ := (h'.account_step hr ht hs hm).2
  ended e hlt hd := by
    rcases hs.state_destroyed hd with hold | rfl
    · by_cases hlt' : e < c.state.nEntries
      · exact (h'.ended e hlt' hold).keep hold hlt' ht hs
      · -- a new entry is not destroyed
        obtain ⟨rfl, placement, hnew⟩ := hs.new_entry hlt' hlt
        rw [advance_state, hnew] at hd
        simp [World.newEntry] at hd
    · exact h'.over_of_destroyed hr ht hs

theorem Reach.torn
    (hr : Reach machine (watchDestroys teardownCond) (fun _ => 0)
      (initialConfig config publisher maxSess) h c) : Torn h c := by
  refine hr.invariant_of_reach Torn ?_ ?_ ?_
  · have hno : ∀ b, (initialConfig config publisher maxSess).Pend b → b = .orch .healthTick :=
      forall_pend_singleton rfl
    exact ⟨fun _ => Nat.zero_le 1, fun _ hb => (nomatch hno _ hb), fun _ _ => rfl,
      fun _ _ _ _ _ hb => (nomatch hno _ hb), fun _ => Nat.zero_le 1,
      fun _ hpos => absurd hpos (lt_irrefl 0), nofun⟩
  · intro h c a hr hc he
    have hold : ∀ {b}, (c.call a).Pend b → apiEntry c.state b = false → c.Pend b := by
      intro b hb hn
      rcases pend_call.mp hb with hb | rfl
      · exact hb
      · cases hn.symm.trans he
    have hcr := fun e => pending_call_of_apiEntry (Op.creates e) he
    have hend := fun e => pending_call_of_apiEntry (Op.endsTeardown e) he
    have hdes := fun s => pending_call_of_apiEntry (Op.destroysSandbox s) he
    refine ⟨fun e => (pending_call_of_apiEntry _ he).trans_le (hc.once e),
      fun e hb => hc.byClose e (hold hb rfl), fun e hpos => ?_,
      fun _ _ _ _ _ hb => hc.cleanup _ _ _ _ _ (hold hb rfl),
      fun s => (hdes s).symm ▸ hc.account s, fun s hpos => ?_, fun e hlt hd => ?_⟩
    · rw [hend] at hpos
      exact (pending_call_of_apiEntry _ he).trans (hc.unjudged e hpos)
    · rw [hdes] at hpos
      obtain ⟨hlt, hsp⟩ := hc.spent s hpos
      exact ⟨hlt, (hcr _).trans hsp.created, (pending_call_of_apiEntry _ he).trans hsp.asked,
        fun hreg => (hend _).symm ▸ hsp.registered hreg⟩
    · have hov := hc.ended e hlt hd
      exact ⟨(hcr e).trans hov.created, hov.registered,
        (pending_call_of_apiEntry _ he).trans hov.calls⟩
  · intro h c i a rest x o hr hc ht hx hm
    exact hc.step hr ht (step_of_exec hx) hm

/-- In every run in which `DestroySession` looks a session up only while no teardown of it
is under way and locks it only while no health check of it is, `DestroySandbox` is called
at most once for a sandbox, and nothing is called for an entry that is destroyed. -/
theorem torn_down_once
    (hr : Reach machine (watchDestroys teardownCond) (fun _ => 0)
      (initialConfig config publisher maxSess) h c) :
    (∀ s, h s ≤ 1) ∧ ∀ e < c.state.nEntries, (c.state.entries e).state = .destroyed →
      ∀ b, c.Pend b → b.calls e = false := by
  have htorn := Reach.torn hr
  exact ⟨fun s => (Nat.le_add_right _ _).trans (htorn.account s), fun e hlt hd b hb =>
    pending_eq_zero.mp (htorn.ended e hlt hd).calls b hb⟩

/-- An agent-sandbox session is created. -/
def createOne : List (Label Op Choice) :=
  [.call (.orch (.createSession (some .agentSandbox) ⟨"", .native, []⟩)), .go 1 9]

def destroyOne : Label Op Choice := .call (.orch (.destroySession (World.generateSessionID 1)))

/-- A session is checked, destroyed, and looked up by a second `DestroySession`. -/
theorem torn_down_once_again :
    ∃ h c, Reach machine (watchDestroys teardownCond) (fun _ => 0)
        (initialConfig ⟨false, true, false, false, 0⟩ false 0) h c ∧
      h 0 = 1 ∧ (c.state.entries 0).state = .destroyed ∧
      ∀ b, c.Pend b → b.calls 0 = false := by
  refine Machine.follow_imp defaultChoice
    (createOne ++ [.go 0 2, .run 0 .ok, destroyOne, .go 2 10, destroyOne, .go 3 4])
    (fun h c => 0 < h 0 ∧ (c.state.entries 0).state = .destroyed ∧ 0 < c.state.nEntries) ?_
  rintro h c hr ⟨hpos, hd, hn⟩
  obtain ⟨honce, hquiet⟩ := torn_down_once hr
  exact ⟨le_antisymm (honce 0) hpos, hd, hquiet 0 hn hd⟩

/-- Two callers find the entry before either has locked it: the sandbox is destroyed twice.
A health check has released the lock: when the entry is destroyed its calls are still to
be made. -/
theorem destroyed_twice :
    (∃ h c, Reach machine (watchDestroys fun _ _ _ => true) (fun _ => 0)
        (initialConfig ⟨false, true, false, false, 0⟩ false 0) h c ∧ h 0 = 2) ∧
      ∃ h c, Reach machine (watchDestroys fun _ _ _ => true) (fun _ => 0)
        (initialConfig ⟨false, true, false, false, 0⟩ false 0) h c ∧
        (c.state.entries 0).state = .destroyed ∧ 0 < c.pending (Op.judges 0) := by
  constructor
  · exact Machine.follow_to defaultChoice
      (createOne ++ [destroyOne, .go 2 2, destroyOne, .go 3 2, .go 2 8, .go 3 1,
        .run 3 (.error "no agent"), .go 3 2])
  · exact Machine.follow_to defaultChoice (createOne ++ [.go 0 2, destroyOne, .go 2 10])

end FlexAgentRuntime.Orchestrator
