import FlexAgentRuntime.Orchestrator.Lifecycle

/-!
A `CreateSession` that fails leaves no sandbox and no process behind, in runs in which its
compensating `DestroySandbox` calls are made in time.

The compensations use the context of the creation itself. When the creation has failed
because that context was done, they fail as well.

* `CreateOp.Covers`, `Failing`: at each stage the sandboxes made so far are those that the
  compensation of this stage destroys;
* `failed_create_leaves_nothing`: so none is left when the call returns;
* `expired_create_leaves_sandbox`: a creation whose deadline passes.
-/

namespace FlexAgentRuntime.Orchestrator

open List Function

open AgentLoop (Choice)
open Interleaving Config

/-! ## History and condition -/

/-- The entries whose creation has failed, and those for which `CreateSession` has
returned the error. -/
structure Failures where
  failed : EntryRef → Bool
  returned : EntryRef → Bool

namespace Failures

def start : Failures := ⟨fun _ => false, fun _ => false⟩

/-- With `timeout` the deadline passes and nothing is done. -/
def note (h : Failures) : Op → Choice → Failures
  | .create _ _ _ (.abandon _ _), .timeout => h
  | .create e _ _ (.abandon _ _), _ => { h with failed := update h.failed e true }
  | .orch (.ret (some e) (some _)), _ =>
    { h with returned := update h.returned e (h.failed e || h.returned e) }
  | _, _ => h

end Failures

/-- A `DestroySandbox` call whose context is not done succeeds. -/
def destroyWorks (c : Config World Op) (a : Op) (x : Choice) : Bool :=
  match a, x with
  | .backend _ _ (.destroySandbox _), .ok => true
  | .backend _ ctx (.destroySandbox _), _ => ctx.done c.state
  | _, _ => true

/-- The context of a creation is not done when it is undone. -/
def undoneInTime (c : Config World Op) (a : Op) : Bool :=
  match a with
  | .backend _ (.create expired) (.destroySandbox _) => !Ctx.done c.state (.create expired)
  | _ => true

def watchFailures (meets : Config World Op → Op → Choice → Bool) :
    Monitor World Op Choice Failures :=
  ⟨fun h _ _ => h, fun h _ a x => h.note a x, fun _ => meets⟩

def createCond (c : Config World Op) (a : Op) (x : Choice) : Bool :=
  destroyWorks c a x && undoneInTime c a

/-! ## What is left of a sandbox -/

/-- The sandbox is destroyed, and what was launched in it has ended. -/
def World.Gone (w : World) (s : SandboxRef) : Prop :=
  (w.sandboxes s).destroyed = true ∧
    ∀ p < w.nProcesses, (w.processes p).sandbox = s → (w.processes p).running = false

variable {w : World} {e : EntryRef} {s : SandboxRef} {p : ProcessRef} {x : Choice} {a : Op}
  {o : Outcome World Op}

theorem Step.destroyed_mono (hs : Step x w a o) (hlt : s < w.nSandboxes)
    (h : (w.sandboxes s).destroyed = true) : (o.state.sandboxes s).destroyed = true := by
  cases hs with
  | orch hs => cases hs <;> exact h
  | expire | loop hs => exact h
  | create hs =>
    cases hs with
    | sandbox =>
      have hne : s ≠ w.nSandboxes := ne_of_lt hlt
      exact (congrArg Sandbox.destroyed (update_of_ne hne _ _)).trans h
    | _ => exact h
  | entry hs =>
    cases hs with
    | paused | pausedDirect | resumed | resumedDirect =>
      exact update_keeps (Sandbox.destroyed · = true) h fun heq => heq ▸ h
    | _ => exact h
  | backend hs =>
    cases hs with
    | sandboxDestroyed => exact update_keeps (Sandbox.destroyed · = true) h fun _ => rfl
    | _ => exact h

theorem Step.running_mono (hs : Step x w a o) (hlt : p < w.nProcesses)
    (h : (w.processes p).running = false) : (o.state.processes p).running = false := by
  have hstop : ∀ (w' : World) (s : SandboxRef), (w'.processes p).running = false →
      ((w'.stopProcesses s).processes p).running = false := by
    intro w' s h'
    simp only [World.stopProcesses]
    split
    · rfl
    · exact h'
  have hnew : ∀ s', ((w.newProcess s').processes p).running = false := by
    intro s'
    have hne : p ≠ w.nProcesses := ne_of_lt hlt
    exact (congrArg Process.running (update_of_ne hne _ _)).trans h
  cases hs with
  | orch hs => cases hs <;> exact h
  | expire | loop hs => exact h
  | create hs =>
    cases hs with
    | launched => exact hnew _
    | _ => exact h
  | entry hs =>
    cases hs with
    | pausedDirect => exact hstop _ _ h
    | relaunched => exact hnew _
    | _ => exact h
  | backend hs =>
    cases hs with
    | killed => exact update_keeps (Process.running · = false) h fun _ => rfl
    | sandboxDestroyed => exact hstop _ _ h
    | _ => exact h

/-- Processes are launched by `CreateSession` and by a resume, in the entry's sandbox. -/
theorem Step.launches (hs : Step x w a o) (hw : w.In) (hin : a.In w) (hold : ¬ p < w.nProcesses)
    (hlt : p < o.state.nProcesses) :
    ∃ e, w.HasSandbox e (o.state.processes p).sandbox ∧
      (a.creates e = true ∨ a.onEntry e = true) := by
  have hnew : ∀ s', p < (w.newProcess s').nProcesses →
      ((w.newProcess s').processes p).sandbox = s' := by
    intro s' hlt'
    have heq : p = w.nProcesses := Nat.eq_of_lt_succ_of_not_lt hlt' hold
    subst heq
    simp [World.newProcess]
  cases hs with
  | orch hs | backend hs => cases hs <;> exact absurd hlt hold
  | expire | loop hs => exact absurd hlt hold
  | @create e _ _ _ _ _ hs =>
    cases hs with
    | launched => exact ⟨e, by rw [hnew _ hlt]; exact hin.2, .inl (Op.creates_self ..)⟩
    | _ => exact absurd hlt hold
  | @entry e _ _ _ hs =>
    cases hs with
    | relaunched hsb =>
      exact ⟨e, by rw [hnew _ hlt]; exact (hw.entries e hin.1).sandbox _ hsb,
        .inr (Op.onEntry_iff.mpr ⟨_, rfl⟩)⟩
    | _ => exact absurd hlt hold

theorem World.Gone.step (h : w.Gone s) (hs : Step x w a o) (hw : w.In) (hin : a.In w)
    (hbox : w.HasSandbox e s) (hcr : a.creates e = false) (hon : a.onEntry e = false) :
    o.state.Gone s := by
  refine ⟨hs.destroyed_mono hbox.1 h.1, fun p hlt hsb => ?_⟩
  by_cases hold : p < w.nProcesses
  · exact hs.running_mono hold (h.2 p hold ((hs.extends.sandbox p hold).symm.trans hsb))
  · obtain ⟨r, hr, hacts⟩ := hs.launches hw hin hold hlt
    rw [hsb] at hr
    cases hbox.unique hr
    rcases hacts with ha | ha
    · rw [hcr] at ha
      cases ha
    · rw [hon] at ha
      cases ha

theorem exec_destroySandbox (hx : exec .ok (.backend e ctx (.destroySandbox s)) w = some o) :
    o.state.Gone s := by
  obtain ⟨hr, -⟩ := plain_eq_some hx
  simp only [Backend.exec, attempt] at hr
  split at hr
  · simp only [Option.some.injEq, Prod.mk.injEq] at hr
    rw [← hr.1]
    refine ⟨by simp [World.setSandbox, World.stopProcesses], fun p _ hsb => ?_⟩
    simp only [World.stopProcesses] at hsb ⊢
    split
    · rfl
    · rename_i hne
      rw [if_neg hne] at hsb
      exact absurd hsb hne
  · cases hr

/-! ## The stages of a creation -/

/-- `s` is destroyed when the creation fails at this stage. -/
def CreateOp.Covers (s : SandboxRef) : CreateOp → Prop
  | .createSandbox => False
  | .launchProcess r | .connect r _ | .createSession r _ _ | .createShared r
  | .addSession r _ _ => r = s
  | .abandon _ cleanup => .destroySandbox s ∈ cleanup

/-- `CreateSession` is about to return an error for the entry `e`. -/
def Op.errs (e : EntryRef) : Op → Bool
  | .orch (.ret (some r) (some _)) => r == e
  | _ => false

/-- `CreateSession` is under way or about to return an error. -/
def Op.unfinished (e : EntryRef) (a : Op) : Bool := a.creates e || a.errs e

variable {w' : World} {b : Op} {more : List Op} {cfg : AgentLoop.SessionConfig} {expired : Bool}
  {op : CreateOp}

theorem mem_cleanupSession (id : String) (s : SandboxRef) (p : Option ProcessRef)
    (svc : ServiceRef) : .destroySandbox s ∈ cleanupSession id s p svc := by
  cases svc <;> simp [cleanupSession]

theorem CreateOp.Cleanup.covers {id : String} {cleanup : List Backend} (h : op.Cleanup id cleanup)
    (hc : op.Covers s) : .destroySandbox s ∈ cleanup := by
  cases h with
  | createSandbox => cases hc
  | launchProcess | connect => simpa [CreateOp.Covers] using hc.symm
  | createSession => exact hc ▸ mem_cleanupSession ..

theorem CreateOp.Step.covers (h : op.Step e cfg expired w w' more)
    (hb : .create e' cfg' expired' op' ∈ more) (hc : ∀ s, w.HasSandbox e s → op.Covers s)
    (hbox : w'.HasSandbox e s) : op'.Covers s := by
  have hstep : Orchestrator.Step .go w (.create e cfg expired op) ⟨w', more, []⟩ := .create h nofun
  have hold : op ≠ .createSandbox → op.Covers s := by
    intro hop
    rcases hstep.hasSandbox hbox with hold | ⟨-, -, _, _, ha⟩
    · exact hc s hold
    · cases ha
      exact absurd rfl hop
  cases h with try cases mem_singleton.mp hb
  | sandbox =>
    rcases hstep.hasSandbox hbox with hold | ⟨rfl, -⟩
    · exact (hc s hold).elim
    · cases (w.entries e).placement <;> rfl
  | launched | connected | created | shared => exact hold nofun
  | failed hcl => exact hcl.covers (hc s hbox)
  | sharedFailed => exact mem_singleton.mpr (congrArg _ (hold nofun).symm)
  | refused =>
    cases hold nofun
    exact mem_cleanupSession ..
  | abandon => rcases mem_map_concat hb with ⟨_, -, h⟩ | h <;> cases h

theorem Op.errs_iff : a.errs e = true ↔ ∃ err, a = ret e (some err) := by
  unfold Op.errs
  split
  · simp [ret]
  · rename_i h
    simp only [Bool.false_eq_true, false_iff, not_exists]
    intro err ha
    exact h e err ha

theorem Step.errs_more (hs : Step x w a o) (hb : b ∈ o.more) (hc : b.errs e = true) :
    a.onEntry e = true ∨ a.creates e = true := by
  obtain ⟨err, rfl⟩ := Op.errs_iff.mp hc
  rcases hs.ret_more hb with ⟨op, rfl⟩ | ⟨cfg, expired, op, rfl⟩
  · exact .inl (Op.onEntry_iff.mpr ⟨op, rfl⟩)
  · exact .inr (Op.creates_self ..)

theorem CreateOp.Step.countP_unfinished (h : op.Step e cfg expired w w' more) :
    more.countP (Op.unfinished e) ≤ 1 := by
  cases h with
  | abandon =>
    rw [countP_concat _ _ fun _ => rfl]
    split <;> omega
  | _ => exact countP_le_length

theorem Step.countP_unfinished (hs : Step x w a o) (ha : a.unfinished e = true) :
    o.more.countP (Op.unfinished e) ≤ 1 := by
  rcases Bool.or_eq_true_iff.mp ha with ha | ha
  · obtain ⟨cfg, expired, op, rfl⟩ := Op.creates_iff.mp ha
    cases hs with
    | expire => exact countP_le_length
    | create hs => exact hs.countP_unfinished
  · obtain ⟨err, rfl⟩ := Op.errs_iff.mp ha
    cases hs with
    | orch hs =>
      cases hs with
      | ret => exact Nat.zero_le 1
      | refused h | begun h | found h => cases h

/-! ## Every reachable configuration -/

/-- The history and the creations that are under way, failing or have failed. -/
structure Failing (h : Failures) (c : Config World Op) : Prop where
  errs : ∀ e, 0 < c.pending (Op.errs e) → e < c.state.nEntries
  failed : ∀ e, h.failed e = true →
    e < c.state.nEntries ∧ c.pending (Op.creates e) = 0 ∧ Unregistered c e
  token : ∀ e, 0 < c.pending (Op.creates e) ∨ h.failed e = true → c.pending (Op.unfinished e) ≤ 1
  covers : ∀ e cfg expired op, c.Pend (.create e cfg expired op) →
    ∀ s, c.state.HasSandbox e s → op.Covers s
  left : ∀ e, h.failed e = true → ∀ s, c.state.HasSandbox e s →
    c.state.Gone s ∨ ∃ expired, c.Pend (.backend e (.create expired) (.destroySandbox s))
  returned : ∀ e, h.returned e = true →
    h.failed e = true ∧ ∀ s, c.state.HasSandbox e s → c.state.Gone s

namespace Failures

variable {h : Failures} {a : Op} {x : Choice} {e : EntryRef}

theorem failed_note (hf : (h.note a x).failed e = true) :
    h.failed e = true ∨
      (∃ cfg expired err cleanup, a = .create e cfg expired (.abandon err cleanup)) ∧
        x ≠ .timeout := by
  unfold note at hf
  split at hf
  · exact .inl hf
  · rename_i _ _ r cfg expired err cleanup hne
    rcases of_update (· = true) hf with ⟨rfl, -⟩ | ⟨-, hf⟩
    · exact .inr ⟨⟨cfg, expired, err, cleanup, rfl⟩, hne⟩
    · exact .inl hf
  · exact .inl hf
  · exact .inl hf

theorem failed_mono (hf : h.failed e = true) : (h.note a x).failed e = true := by
  unfold note
  split
  · exact hf
  · exact update_keeps (· = true) hf fun _ => rfl
  · exact hf
  · exact hf

theorem returned_note (hf : (h.note a x).returned e = true) :
    h.returned e = true ∨ h.failed e = true ∧ ∃ err, a = ret e (some err) := by
  unfold note at hf
  split at hf
  · exact .inl hf
  · exact .inl hf
  · rename_i _ _ r err
    rcases of_update (· = true) hf with ⟨rfl, hnew⟩ | ⟨-, hold⟩
    · exact (Bool.or_eq_true_iff.mp hnew).symm.imp_right fun hf => ⟨hf, err, rfl⟩
    · exact .inl hold
  · exact .inl hf

end Failures

variable {h : Failures} {c : Config World Op} {i maxSess : Nat} {rest : List Op}
  {config : OrchestratorConfig} {publisher : Bool}

theorem Failing.failed_step (h' : Failing h c) (hin : Owned c) (hbirths : Births c)
    (ht : c.At i a rest) (hs : Step x c.state a o)
    (hf : (h.note a x).failed e = true) :
    e < c.state.nEntries ∧ (c.advance i rest o).pending (Op.creates e) = 0 ∧
      Unregistered (c.advance i rest o) e := by
  rcases Failures.failed_note hf with hold | ⟨⟨cfg, expired, err, cleanup, rfl⟩, hx⟩
  · obtain ⟨hlt, hzero, hun⟩ := h'.failed e hold
    refine ⟨hlt, creates_zero_step hlt hzero ht hs, hun.step ht hs ?_⟩
    rintro cfg expired s p svc rfl
    exact absurd (pend_head ht) (not_pend hzero (Op.creates_self ..))
  · exact ⟨(hin.ops _ (pend_head ht)).1, hbirths.abandoned ht hs hx⟩

theorem Failing.unfinished_zero (h' : Failing h c) (hin : Owned c) :
    c.pending (Op.unfinished c.state.nEntries) = 0 := by
  refine pending_eq_zero.mpr fun b hb => ?_
  have hcr := pending_eq_zero.mp hin.creates_zero b hb
  have herr : b.errs c.state.nEntries = false := Bool.eq_false_iff.mpr fun he =>
    lt_irrefl _ (h'.errs _ (pending_pos.mpr ⟨b, hb, he⟩))
  rw [Op.unfinished, hcr, herr]
  rfl

/-- One action of a `CreateSession` is left to do, or the return of its error. -/
theorem Failing.token_step (h' : Failing h c) (hin : Owned c) (hbirths : Births c)
    (ht : c.At i a rest) (hs : Step x c.state a o)
    (hpos : 0 < (c.advance i rest o).pending (Op.creates e) ∨ (h.note a x).failed e = true) :
    (c.advance i rest o).pending (Op.unfinished e) ≤ 1 := by
  -- the creation was there before, or its entry is new
  have hcases : c.pending (Op.unfinished e) ≤ 1 ∧ Unregistered c e := by
    have hold : 0 < c.pending (Op.creates e) → c.pending (Op.unfinished e) ≤ 1 ∧ Unregistered c e :=
      fun hc => ⟨h'.token e (.inl hc), hbirths.unregistered e (.inl hc)⟩
    rcases hpos with hpos | hf
    · rcases pending_creates ht hs hpos with hc | rfl
      · exact hold hc
      · exact ⟨(h'.unfinished_zero hin).trans_le (Nat.zero_le 1), hin.unregistered⟩
    · rcases Failures.failed_note hf with hf | ⟨⟨_, _, _, _, rfl⟩, -⟩
      · exact ⟨h'.token e (.inr hf), (h'.failed e hf).2.2⟩
      · exact hold (pending_head ht (Op.creates_self ..))
  refine unused_token_step ht hcases.1 (hs.spawn_false fun _ => rfl) (fun ha => hs.countP_unfinished ha)
    fun ha ⟨b, hb, hc⟩ => ?_
  have hno : a.creates e = false ∧ a.errs e = false := by
    simpa [Op.unfinished] using ha
  rcases Bool.or_eq_true_iff.mp hc with hc | hc
  · obtain ⟨cfg, expired, op, rfl⟩ := Op.creates_iff.mp hc
    rcases hs.create_more hb with ⟨_, _, _, rfl⟩ | ⟨⟨placement, rfl, -⟩, rfl⟩
    · rw [Op.creates_self] at hno
      cases hno.1
    · refine ⟨h'.unfinished_zero hin, ?_⟩
      cases hs with
      | orch hs =>
        cases hs with
        | begun hbg => cases hbg
        | _ => exact countP_le_length
  · rcases hs.errs_more hb hc with hon | ha'
    · obtain ⟨op, rfl⟩ := Op.onEntry_iff.mp hon
      exact absurd (pend_head ht) hcases.2.not_pend
    · rw [hno.1] at ha'
      cases ha'

/-- What a stage hands on covers the sandboxes there are. -/
theorem Failing.covers_step (h' : Failing h c) (howner : OwnersExist c) (hbirths : Births c)
    (ht : c.At i a rest) (hs : Step x c.state a o)
    (hb : (c.advance i rest o).Pend (.create e cfg expired op)) (hbox : o.state.HasSandbox e s) :
    op.Covers s := by
  by_cases ha : a.creates e = true
  · have hmem := hbirths.new ht hs ha hb (Op.creates_self ..)
    obtain ⟨cfg', expired', op', rfl⟩ := Op.creates_iff.mp ha
    have hold := h'.covers e cfg' expired' op' (pend_head ht)
    cases hs with
    | expire =>
      cases mem_singleton.mp hmem
      exact hold s hbox
    | create hs => exact hs.covers hmem hold hbox
  · have hold := hs.hasSandbox_old hbox (Bool.eq_false_iff.mpr ha)
    rcases hs.pend_cases ht hb (by simp) with hb | hb
    · exact h'.covers e cfg expired op hb s hold
    · rcases hs.create_more hb with ⟨_, _, _, rfl⟩ | ⟨-, rfl⟩
      · exact absurd (Op.creates_self ..) ha
      · exact absurd (hold.2 ▸ howner s hold.1) (lt_irrefl _)

theorem Failing.gone_step (h' : Failing h c) (hin : Owned c)
    (ht : c.At i a rest) (hs : Step x c.state a o) (hf : h.failed e = true)
    (hbox : o.state.HasSandbox e s) :
    c.state.HasSandbox e s ∧ (c.state.Gone s → o.state.Gone s) := by
  obtain ⟨-, hzero, hun⟩ := h'.failed e hf
  have hhead := pend_head ht
  have hcr := pending_eq_zero.mp hzero a hhead
  have hon := pending_eq_zero.mp hun.idle a hhead
  have hold := hs.hasSandbox_old hbox hcr
  exact ⟨hold, fun hg => hg.step hs hin.world (hin.ops a hhead) hold hcr hon⟩

/-- The compensating calls of a creation come before the return of its error. -/
theorem Reach.cleanup (hr : Reach machine N h₀ (initialConfig config publisher maxSess) h c)
    (e : EntryRef) : ∀ th ∈ c.threads, FollowedBy (Op.cleansUp e) (Op.errs e) th := by
  refine Reach.order hr rfl (fun w a he => apiEntry_false he)
    (fun _ => rfl) fun x w a o b hs hb hc => .inr ?_
  obtain ⟨⟨cfg, expired, err, cleanup, rfl⟩, -⟩ := hs.cleansUp_more hb hc
  cases hs with
  | expire =>
    cases mem_singleton.mp hb
    cases hc
  | create hs =>
    cases hs with
    | failed hcl => cases hcl
    | abandon => exact followedBy_concat rfl (by simp [Op.errs, ret])

/-- The error of a failed creation is returned after the compensating calls. -/
theorem Failing.gone_of_ret (h' : Failing h c)
    (hf : ∀ th ∈ c.threads, FollowedBy (Op.cleansUp e) (Op.errs e) th)
    (ht : c.threads[i]? = some (ret e (some err) :: rest)) (hfailed : h.failed e = true)
    (hbox : c.state.HasSandbox e s) : c.state.Gone s := by
  rcases h'.left e hfailed s hbox with hg | ⟨expired, hb⟩
  · exact hg
  · have hone : c.pending (Op.errs e) ≤ 1 :=
      (c.pending_mono fun b hb => by simp [Op.unfinished, hb]).trans (h'.token e (.inr hfailed))
    have hno := not_pend_of_followedBy hf hone ht (by simp [Op.errs, ret]) rfl hb
    simp [Op.cleansUp] at hno

theorem Failing.left_step (h' : Failing h c) (hin : Owned c)
    (ht : c.At i a rest) (hx : exec x a c.state = some o)
    (hm : createCond c a x = true) (hf : (h.note a x).failed e = true)
    (hbox : o.state.HasSandbox e s) :
    o.state.Gone s ∨
      ∃ expired, (c.advance i rest o).Pend (.backend e (.create expired) (.destroySandbox s)) := by
  have hs := step_of_exec hx
  rcases Failures.failed_note hf with hf | ⟨⟨cfg, expired, err, cleanup, rfl⟩, hto⟩
  · obtain ⟨hold, hgone⟩ := h'.gone_step hin ht hs hf hbox
    rcases h'.left e hf s hold with hg | ⟨expired, hb⟩
    · exact .inl (hgone hg)
    · by_cases hab : Op.backend e (.create expired) (.destroySandbox s) = a
      · -- the call is made with a context that is not done
        left
        subst hab
        rw [createCond, Bool.and_eq_true] at hm
        have hok : x = .ok := by
          obtain ⟨hworks, htime⟩ := hm
          simp only [undoneInTime, Bool.not_eq_true'] at htime
          cases x with
          | ok => rfl
          | _ =>
            rw [show destroyWorks c _ _ = Ctx.done c.state (.create expired) from rfl, htime] at hworks
            cases hworks
        subst hok
        exact exec_destroySandbox hx
      · exact .inr ⟨expired, hb.advance ht hab⟩
  · -- the compensation of the last stage is issued
    right
    have hcov := h'.covers e cfg expired _ (pend_head ht)
    cases hs with
    | expire h => exact absurd h hto
    | create hs =>
      cases hs with
      | failed hcl => cases hcl
      | abandon =>
        exact ⟨expired, pend_more ht (mem_append_left _ (mem_map_of_mem (hcov s hbox)))⟩

theorem Failing.step (h' : Failing h c) (hin : Owned c) (howner : OwnersExist c)
    (hbirths : Births c) (hf : ∀ e, ∀ th ∈ c.threads, FollowedBy (Op.cleansUp e) (Op.errs e) th)
    (ht : c.At i a rest) (hx : exec x a c.state = some o)
    (hm : createCond c a x = true) : Failing (h.note a x) (c.advance i rest o) := by
  have hs := step_of_exec hx
  refine ⟨fun e hpos => ?_, fun e hfailed => ?_, fun e => h'.token_step hin hbirths ht hs,
    fun e cfg expired op hb s => h'.covers_step howner hbirths ht hs hb,
    fun e hfailed s => h'.left_step hin ht hx hm hfailed, fun e hret => ?_⟩
  · refine lt_of_lt_of_le ?_ hs.extends.entries
    rcases pos_of_pending_advance ht (hs.spawn_false fun _ => rfl) hpos with hpos | ⟨b, hb, hc⟩
    · exact h'.errs e hpos
    · have hina := hin.ops a (pend_head ht)
      rcases hs.errs_more hb hc with ha | ha
      · obtain ⟨op, rfl⟩ := Op.onEntry_iff.mp ha
        exact hina.1
      · obtain ⟨_, _, _, rfl⟩ := Op.creates_iff.mp ha
        exact hina.1
  · obtain ⟨hlt, hzero, hun⟩ := h'.failed_step hin hbirths ht hs hfailed
    exact ⟨hlt.trans_le hs.extends.entries, hzero, hun⟩
  · have hbefore : h.failed e = true ∧ ∀ s, c.state.HasSandbox e s → c.state.Gone s := by
      rcases Failures.returned_note hret with hold | ⟨hfailed, err, rfl⟩
      · exact h'.returned e hold
      · exact ⟨hfailed, fun s => h'.gone_of_ret (hf e) ht hfailed⟩
    refine ⟨Failures.failed_mono hbefore.1, fun s hbox => ?_⟩
    obtain ⟨hbox', hstep⟩ := h'.gone_step hin ht hs hbefore.1 hbox
    exact hstep (hbefore.2 s hbox')

theorem Reach.failing
    (hr : Reach machine (watchFailures createCond) .start (initialConfig config publisher maxSess)
      h c) : Failing h c := by
  refine hr.invariant_of_reach Failing ?_ ?_ ?_
  · refine ⟨fun e hpos => absurd hpos (lt_irrefl 0), fun e hf => absurd hf Bool.false_ne_true,
      ?_, ?_, fun e hf => absurd hf Bool.false_ne_true, fun e hf => absurd hf Bool.false_ne_true⟩
    · exact fun _ _ => Nat.zero_le 1
    · rintro e cfg expired op ⟨th, hth, hb⟩
      cases mem_singleton.mp hth
      cases mem_singleton.mp hb
  · intro h c a hr hc he
    have herrs : ∀ e op, op.returns = none → Op.errs e (.orch op) = false := by
      intro e op hop
      refine Bool.eq_false_iff.mpr fun herr => ?_
      obtain ⟨err, h⟩ := Op.errs_iff.mp herr
      cases h
      cases hop
    refine ⟨fun e hpos => ?_, fun e hf => ?_, fun e hpos => ?_, fun e cfg expired op hb => ?_,
      fun e hf s hbox => ?_, hc.returned⟩
    · rw [pending_call_of_apiEntry _ he (herrs e)] at hpos
      exact hc.errs e hpos
    · obtain ⟨hlt, hzero, hun⟩ := hc.failed e hf
      exact ⟨hlt, (pending_call_of_apiEntry _ he).trans hzero, hun.call he⟩
    · rw [pending_call_of_apiEntry (Op.creates e) he] at hpos
      rw [pending_call_of_apiEntry _ he
        fun op hop => by simp [Op.unfinished, Op.creates, herrs e op hop]]
      exact hc.token e hpos
    · rcases pend_call.mp hb with hb | rfl
      · exact hc.covers e cfg expired op hb
      · cases he
    · rcases hc.left e hf s hbox with hgone | ⟨expired, hb⟩
      · exact .inl hgone
      · exact .inr ⟨expired, pend_call.mpr (.inl hb)⟩
  · intro h c i a rest x o hr hc ht hx hm
    exact hc.step (Reach.owned hr) (Reach.ownersExist hr) (Reach.births hr)
      (fun e => Reach.cleanup hr e) ht hx hm

/-- In every run in which a creation that has failed calls `DestroySandbox` with a context
that is not done, when `CreateSession` has returned an error the sandboxes made for its
entry are destroyed and the processes launched in them have ended. -/
theorem failed_create_leaves_nothing {config : OrchestratorConfig} {publisher : Bool}
    {maxSess : Nat}
    (hr : Reach machine (watchFailures createCond) .start (initialConfig config publisher maxSess)
      h c) : ∀ e, h.returned e = true →
      (∀ s, c.state.HasSandbox e s → (c.state.sandboxes s).destroyed = true) ∧
        ∀ p, c.state.HasProcess e p → (c.state.processes p).running = false := by
  intro e hret
  obtain ⟨-, hgone⟩ := (Reach.failing hr).returned e hret
  exact ⟨fun s hs => (hgone s hs).1, fun p hp => (hgone _ hp.2).2 p hp.1 rfl⟩

instance : Decidable (w.HasSandbox e s) := instDecidableAnd

instance : Decidable (w.HasProcess e p) := instDecidableAnd

/-- The call to make a session with an agent in a sandbox; its sandbox is created. -/
def createSandboxFirst : List (Label Op Choice) :=
  [.call (.orch (.createSession (some .agentSandbox) ⟨"", .native, []⟩)), .go 1 3]

/-- `AgentServiceFactory` fails, and the creation is undone. -/
theorem failed_create_leaves_nothing_undone :
    ∃ h c, Reach machine (watchFailures createCond) .start
        (initialConfig ⟨false, true, false, false, 0⟩ false 0) h c ∧
      h.returned 0 = true ∧ c.state.HasSandbox 0 0 ∧ (c.state.sandboxes 0).destroyed = true ∧
      c.state.HasProcess 0 0 ∧ (c.state.processes 0).running = false := by
  refine Machine.follow_imp defaultChoice
    (createSandboxFirst ++ [.go 1 1, .run 1 (.error "dial"), .go 1 4])
    (fun h c => h.returned 0 = true ∧ c.state.HasSandbox 0 0 ∧ c.state.HasProcess 0 0) ?_
  rintro h c hr ⟨hret, hbox, hproc⟩
  obtain ⟨hdestroyed, hended⟩ := failed_create_leaves_nothing hr 0 hret
  exact ⟨hret, hbox, hdestroyed 0 hbox, hproc, hended 0 hproc⟩

/-- The deadline passes after the sandbox has been created: `LaunchProcess` fails, and so
does the compensating `DestroySandbox`, whose context is the same. -/
theorem expired_create_leaves_sandbox :
    ∃ h c, Reach machine (watchFailures destroyWorks) .start
        (initialConfig ⟨false, true, false, false, 0⟩ false 0) h c ∧
      h.returned 0 = true ∧ c.state.HasSandbox 0 0 ∧
      (c.state.sandboxes 0).destroyed = false :=
  Machine.follow_to defaultChoice
    (createSandboxFirst ++ [.run 1 .timeout, .run 1 (.error "deadline exceeded"), .go 1 1,
      .run 1 (.error "deadline exceeded"), .go 1 1])

end FlexAgentRuntime.Orchestrator
