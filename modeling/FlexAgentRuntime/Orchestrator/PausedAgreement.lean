import FlexAgentRuntime.Orchestrator.Lifecycle

/-!
`entry.state` and the sandbox agree on paused, in runs in which the `LaunchProcess` and
`AgentServiceFactory` calls of a resume do not fail.

`ResumeSessionSandbox` resumes the sandbox first and writes `entry.state` last. For an
agent-direct session it launches and connects a new agent in between; when one of these
fails, the entry is still paused and the sandbox is not, and resuming it again is an error.
-/

namespace FlexAgentRuntime.Orchestrator

open AgentLoop (Choice)
open Interleaving Config Function

/-- `ResumeSandbox` has succeeded and `entry.state` is still to be written. -/
def Op.relaunches (e : EntryRef) : Op → Bool
  | .entry r .relaunch | .entry r (.reconnect _) | .entry r (.reconnected _ _) => r == e
  | _ => false

/-- A stage of `ResumeSessionSandbox` under the lock. -/
def Op.resumes (e : EntryRef) : Op → Bool
  | .entry r .resumeSandbox | .entry r .relaunch | .entry r (.reconnect _)
  | .entry r (.reconnected _ _) => r == e
  | _ => false

/-- Only a paused sandbox can be resumed. -/
def resumesPaused (c : Config World Op) (a : Op) (x : Choice) : Bool :=
  match a, x with
  | .entry e .resumeSandbox, .ok =>
    (c.state.entries e).sandbox.all fun s => (c.state.sandboxes s).paused
  | _, _ => true

/-- The backend call succeeds. -/
def isOk : Choice → Bool
  | .ok => true
  | _ => false

/-- Once the sandbox has been resumed, the agent is launched and connected. -/
def relaunchSucceeds (a : Op) (x : Choice) : Bool :=
  match a with
  | .entry _ .relaunch | .entry _ (.reconnect _) => isOk x
  | _ => true

def resumeCond (c : Config World Op) (a : Op) (x : Choice) : Bool :=
  resumesPaused c a x && relaunchSucceeds a x

/-! ## Sandboxes -/

variable {w : World} {e : EntryRef} {s : SandboxRef} {x : Choice} {a b : Op} {o : Outcome World Op}
  {c : Config World Op} {i : Nat} {rest : List Op}

theorem Step.paused_cases (hs : Step x w a o) (s : SandboxRef) :
    (o.state.sandboxes s).paused = (w.sandboxes s).paused ∨ s = w.nSandboxes ∨
      ∃ e, (a = .entry e .pauseSandbox ∨ a = .entry e .resumeSandbox) ∧
        (w.entries e).sandbox = some s := by
  cases hs with
  | orch hs => cases hs <;> exact .inl rfl
  | expire | loop hs => exact .inl rfl
  | create hs =>
    cases hs with
    | sandbox =>
      by_cases hne : s = w.nSandboxes
      · exact .inr (.inl hne)
      · exact .inl (congrArg Sandbox.paused (update_of_ne hne _ _))
    | _ => exact .inl rfl
  | @entry e op _ _ hs =>
    cases hs with
    | @paused s' hsb _ | @pausedDirect s' hsb _ | @resumed s' hsb _ | @resumedDirect s' hsb _ =>
      by_cases hne : s = s'
      · exact .inr (.inr ⟨e, by simp, hne ▸ hsb⟩)
      · exact .inl (congrArg Sandbox.paused (update_of_ne hne _ _))
    | _ => exact .inl rfl
  | backend hs =>
    cases hs with
    | sandboxDestroyed => exact .inl (update_proj Sandbox.paused (by rfl) s)
    | _ => exact .inl rfl

/-! ## Agreement -/

/-- The entry and its sandboxes. -/
structure Agrees (c : Config World Op) (e : EntryRef) : Prop where
  resuming : 0 < c.pending (Op.resumes e) → (c.state.entries e).state = .paused
  hasSandbox : (c.state.entries e).state = .paused → (c.state.entries e).sandbox ≠ none
  held : ∀ s, c.state.HasSandbox e s → (c.state.sandboxes s).paused = true →
    (c.state.entries e).sandbox = some s
  paused : ∀ s, (c.state.entries e).sandbox = some s → (c.state.entries e).state ≠ .destroyed →
    ((c.state.sandboxes s).paused = true ↔
      (c.state.entries e).state = .paused ∧ c.pending (Op.relaunches e) = 0)

variable {c' : Config World Op} {more : List Op} {w' : World} {op : EntryOp}

theorem Op.resumes_holds (h : a.resumes e = true) : a.holds e = true := by
  unfold Op.resumes at h
  split at h
  all_goals first
    | exact Op.holds_iff.mpr ⟨_, by rw [eq_of_beq h], rfl⟩
    | cases h

theorem Op.relaunches_holds (h : a.relaunches e = true) : a.holds e = true := by
  refine Op.resumes_holds ?_
  cases a with
  | entry r op => cases op <;> first | cases h | exact h
  | _ => cases h

theorem Agrees.frame (h : Agrees c e)
    (hst : (c'.state.entries e).state = (c.state.entries e).state)
    (hsb : (c'.state.entries e).sandbox = (c.state.entries e).sandbox)
    (hres : 0 < c'.pending (Op.resumes e) →
      0 < c.pending (Op.resumes e) ∨ (c.state.entries e).state = .paused)
    (hrel : c'.pending (Op.relaunches e) = c.pending (Op.relaunches e))
    (hbox : ∀ s, c'.state.HasSandbox e s → (c'.state.sandboxes s).paused = true →
      c.state.HasSandbox e s ∧ (c.state.sandboxes s).paused = true)
    (hpau : ∀ s, (c.state.entries e).sandbox = some s →
      (c'.state.sandboxes s).paused = (c.state.sandboxes s).paused) : Agrees c' e where
  resuming hpos := hst.trans ((hres hpos).elim h.resuming id)
  hasSandbox hp := hsb ▸ h.hasSandbox (hst ▸ hp)
  held s hs hp := by
    obtain ⟨hs', hp'⟩ := hbox s hs hp
    rw [hsb]
    exact h.held s hs' hp'
  paused s hs hd := by
    rw [hsb] at hs
    rw [hst] at hd ⊢
    rw [hpau s hs, hrel]
    exact h.paused s hs hd

/-- What the calls after `ResumeSandbox` go on with when they succeed. -/
def Relaunched (a : Op) (o : Outcome World Op) : Prop :=
  match a with
  | .entry e .relaunch => ∃ p, .entry e (.reconnect p) ∈ o.more
  | .entry e (.reconnect _) => .entry e .unlock ∉ o.more
  | _ => True

theorem isOk_eq (h : isOk x = true) : x = .ok := by
  cases x with
  | ok => rfl
  | _ => cases h

theorem relaunched_of_cond (hx : exec x a w = some o) (hm : relaunchSucceeds a x = true) :
    Relaunched a o := by
  cases a with
  | entry e op =>
    obtain ⟨hr, -⟩ := plain_eq_some hx
    cases op with
    | relaunch =>
      cases isOk_eq hm
      simp only [EntryOp.exec] at hr
      split at hr
      · simp only [Option.some.injEq, Prod.mk.injEq] at hr
        exact ⟨_, hr.2 ▸ List.mem_singleton_self _⟩
      · rename_i h
        cases h
      · cases hr
    | reconnect p =>
      cases isOk_eq hm
      simp only [EntryOp.exec, Option.some.injEq, Prod.mk.injEq] at hr
      unfold Relaunched
      dsimp only
      rw [← hr.2]
      cases (w.entries e).agentService <;> simp
    | _ => trivial
  | _ => trivial

theorem EntryOp.Step.sandbox_eq (h : op.Step e w w' more) :
    (w'.entries e).sandbox = (w.entries e).sandbox := by
  cases h <;> simp [World.newProcess, World.newAgent, SessionEntry.unlocked, SessionEntry.activated]

/-- What there is to show of the entry that an action is done on: its sandbox stays, and
the paused sandboxes are its own. -/
theorem Agrees.of_own (h : Agrees c e) (hs : op.Step e c.state c'.state more)
    (hres : 0 < c'.pending (Op.resumes e) → (c'.state.entries e).state = .paused)
    (hhas : (c'.state.entries e).state = .paused → (c.state.entries e).sandbox ≠ none)
    (hpau : ∀ s, (c.state.entries e).sandbox = some s → (c'.state.entries e).state ≠ .destroyed →
      ((c'.state.sandboxes s).paused = true ↔ (c'.state.entries e).state = .paused ∧
        c'.pending (Op.relaunches e) = 0)) : Agrees c' e := by
  have hsb := hs.sandbox_eq
  refine ⟨hres, fun hp => hsb ▸ hhas hp, fun s hbox hp => ?_, fun s hs' => hpau s (hsb ▸ hs')⟩
  have hstep : Step .go c.state (.entry e op) ⟨c'.state, more, []⟩ := .entry hs
  rw [hsb]
  rcases hstep.hasSandbox hbox with hold | ⟨-, hnew, -⟩
  · rcases hstep.paused_cases s with heq | hlt | ⟨r, ha, hsome⟩
    · exact h.held s hold (heq ▸ hp)
    · exact absurd hlt (ne_of_lt hold.1)
    · rcases ha with ha | ha <;> cases ha <;> exact hsome
  · cases hnew.symm.trans hp

theorem Agrees.own (h : Agrees c e) (hl : Locks c) (ht : c.threads[i]? = some (.entry e op :: rest))
    (hs : op.Step e c.state w' more) (hok : Relaunched (.entry e op) ⟨w', more, []⟩) :
    Agrees (c.advance i rest ⟨w', more, []⟩) e := by
  have hstep : Step .go c.state (.entry e op) ⟨w', more, []⟩ := .entry hs
  have hholds : Op.holds e (.entry e op) = op.holding := by simp [Op.holds]
  have hrel : ∀ b : Op, b.relaunches e = true → b.holds e = true := fun _ => Op.relaunches_holds
  have hres : ∀ b : Op, b.resumes e = true → b.holds e = true := fun _ => Op.resumes_holds
  -- at a stage of a resume the entry is paused
  have hresuming := fun hr => h.resuming (pending_head ht hr)
  have hother := fun ha hm => pending_advance_other hres ht hstep (hholds.trans ha) hm
  have hother' := fun ha hm => pending_advance_other hrel ht hstep (hholds.trans ha) hm
  -- an action that has the entry for itself
  have hown := fun hfree => hl.pending_advance hres ht hstep (hholds.symm ▸ hfree)
  have hown' := fun hfree => hl.pending_advance hrel ht hstep (hholds.symm ▸ hfree)
  have hbefore' := fun ha => hl.pending_of_holder hrel ht (hholds.trans ha)
  have hof := h.of_own (show op.Step e _ (c.advance i rest ⟨w', more, []⟩).state _ from hs)
  generalize hc' : c.advance i rest ⟨w', more, []⟩ = c' at hother hother' hown hown' hof ⊢
  have hw : c'.state = w' := hc' ▸ rfl
  simp only [hw] at hof
  -- an action that leaves the entry as it is
  have hquiet : op.holding = false → more.countP (Op.holds e) = 0 → w' = c.state →
      Agrees c' e := by
    intro hop hm heq
    rw [heq, hother hop hm, hother' hop hm] at hof
    exact hof h.resuming h.hasSandbox h.paused
  -- a stage that writes neither the state nor the sandbox
  have hkeep : (w'.entries e).state = (c.state.entries e).state →
      w'.sandboxes = c.state.sandboxes →
      (c'.pending (Op.resumes e) = 0 ∨ (c.state.entries e).state = .paused) →
      c'.pending (Op.relaunches e) = c.pending (Op.relaunches e) → Agrees c' e := by
    intro hst hbox hpend heq
    refine hof (fun hpos => hst.trans (hpend.resolve_left (ne_of_gt hpos)))
      (fun hp => h.hasSandbox (hst ▸ hp)) fun s hsb hd => ?_
    rw [hst, hbox, heq]
    exact h.paused s hsb (hst ▸ hd)
  -- the state that a last stage writes
  have hwrite : c'.pending (Op.resumes e) = 0 → _ :=
    fun hzero => hof fun hpos => absurd hzero (ne_of_gt hpos)
  cases hs with
  | refused hop => exact hquiet (EntryOp.not_holding_of_asks hop) rfl rfl
  | skipped hop => exact hquiet (EntryOp.not_holding_of_looks hop) rfl rfl
  | proxy => exact hquiet rfl rfl rfl
  | probe => exact hquiet rfl (by simp [Op.holds, EntryOp.holding]) rfl
  | destroy hfree | pause hfree =>
    have h₁ := hown (.inr ⟨rfl, hfree⟩)
    have h₂ := hown' (.inr ⟨rfl, hfree⟩)
    rw [countP_concat _ _ fun _ => rfl] at h₁ h₂
    exact hkeep (by simp) rfl (.inl h₁) (h₂.trans (hl.pending_of_unlocked hrel hfree).symm)
  | resume hfree hst =>
    have h₂ := hown' (.inr ⟨rfl, hfree⟩)
    exact hkeep (by simp) rfl (.inr hst) (h₂.trans (hl.pending_of_unlocked hrel hfree).symm)
  | gaveUp hop =>
    have hh := EntryOp.holding_of_mayGiveUp hop
    have h₃ := hbefore' hh
    refine hkeep (by simp [SessionEntry.unlocked]) rfl (.inl (hown (.inl hh)))
      ((hown' (.inl hh)).trans ?_)
    cases op with
    | pauseSandbox | resumeSandbox => exact h₃.symm
    | relaunch =>
      obtain ⟨p, hp⟩ := hok
      cases List.mem_singleton.mp hp
    | _ => cases hop
  | unlock =>
    exact hkeep (by simp [SessionEntry.unlocked]) rfl (.inl (hown (.inl rfl)))
      ((hown' (.inl rfl)).trans (hbefore' rfl).symm)
  | relaunched | reconnect | connect =>
    refine hkeep rfl rfl (.inr (hresuming (by simp [Op.resumes]))) ?_
    rw [hown' (.inl rfl), hbefore' rfl]
    simp [Op.relaunches]
  | reconnectFailed => exact absurd (by simp) hok
  | destroyed =>
    refine hwrite (hown (.inl rfl)) (fun hp => ?_) fun s _ hd => absurd (by simp) hd
    simp at hp
  | paused hsb | pausedDirect hsb =>
    refine hwrite (hown (.inl rfl)) (fun _ => by simp [hsb]) fun s' hs' _ => ?_
    rw [hown' (.inl rfl)]
    cases hsb.symm.trans hs'
    simp [World.setSandbox, World.setEntry, World.stopProcesses, Op.relaunches, ret]
  | resumed hsb =>
    refine hwrite (hown (.inl rfl)) (fun _ => by simp [hsb]) fun s' hs' _ => ?_
    cases hsb.symm.trans hs'
    simp [World.setSandbox, World.setEntry, SessionEntry.activated, SessionEntry.unlocked]
  | resumedDirect hsb =>
    refine hof (fun _ => hresuming (by simp [Op.resumes])) h.hasSandbox fun s' hs' _ => ?_
    rw [hown' (.inl rfl)]
    cases hsb.symm.trans hs'
    simp [World.setSandbox, Op.relaunches]
  | reconnected =>
    have hst := hresuming (by simp [Op.resumes])
    have hpos : 0 < c.pending (Op.relaunches e) := pending_head ht (by simp [Op.relaunches])
    refine hwrite (hown (.inl rfl)) (fun _ => h.hasSandbox hst) fun s' hs' _ => ?_
    have hold := h.paused s' hs' (by simp [hst])
    simp only [ne_of_gt hpos, and_false, iff_false] at hold
    simp [World.setEntry, SessionEntry.activated, SessionEntry.unlocked, hold]
  | healthy hfree hst | unhealthy hfree hst =>
    refine hwrite (hown (.inr ⟨rfl, hfree⟩)) (fun hp => ?_) fun s' hs' _ => ?_
    · simp [SessionEntry.activated] at hp
    · have hold := h.paused s' hs' (by intro hd; simp [hd, SessionState.unchecked] at hst)
      have hnp : (c.state.entries e).state ≠ .paused := by
        intro hd
        simp [hd, SessionState.unchecked] at hst
      simp only [hnp, false_and, iff_false] at hold
      simp [World.setEntry, SessionEntry.activated, hold]

theorem Step.paused_other (hs : Step x w a o) (hw : w.In) (hin : a.In w)
    (hon : ¬ ∃ op, a = .entry e op) (h : w.HasSandbox e s) :
    (o.state.sandboxes s).paused = (w.sandboxes s).paused := by
  rcases hs.paused_cases s with heq | hlt | ⟨r, ha, hsome⟩
  · exact heq
  · exact absurd hlt (ne_of_lt h.1)
  · refine absurd ?_ hon
    have hr : r < w.nEntries := by rcases ha with rfl | rfl <;> exact hin.1
    rw [← h.unique ((hw.entries r hr).sandbox s hsome)]
    rcases ha with rfl | rfl <;> exact ⟨_, rfl⟩

theorem Agrees.other (h : Agrees c e) (hin : Owned c) (hbirths : Births c) (hu : Unfilled c)
    (ht : c.At i a rest) (hs : Step x c.state a o)
    (hon : ¬ ∃ op, a = .entry e op) (hlt : e < c.state.nEntries)
    (hbox : ∀ s, o.state.HasSandbox e s → (o.state.sandboxes s).paused = true →
      c.state.HasSandbox e s ∧ (c.state.sandboxes s).paused = true) :
    Agrees (c.advance i rest o) e := by
  have hina := hin.ops a (pend_head ht)
  obtain ⟨hnot, hmore⟩ := hs.not_holds hon
  have hres : (c.advance i rest o).pending (Op.resumes e) = c.pending (Op.resumes e) :=
    pending_advance_other (fun _ => Op.resumes_holds) ht hs hnot hmore
  rcases hs.entries_cases e with heq | hop | ⟨cfg, expired, s, p, svc, rfl, heq⟩ |
    ⟨_, _, -, hnew, -⟩
  · refine h.frame (congrArg SessionEntry.state heq) (congrArg SessionEntry.sandbox heq)
      (fun hpos => .inl (hres ▸ hpos)) ?_ hbox fun s hsb => ?_
    · exact pending_advance_other (fun _ => Op.relaunches_holds) ht hs hnot hmore
    · exact hs.paused_other hin.world hina hon ((hin.world.entries e hlt).sandbox s hsb)
  · exact absurd hop hon
  · -- until now the entry had no sandbox, so none of its sandboxes is paused
    have hnone := (hu e (pending_head ht (by simp [Op.builds]))).1
    have hrunning : ∀ s, o.state.HasSandbox e s → (o.state.sandboxes s).paused = false := by
      intro s hs'
      refine Bool.eq_false_iff.mpr fun hp => ?_
      obtain ⟨hold, hp'⟩ := hbox s hs' hp
      rw [h.held s hold hp'] at hnone
      cases hnone
    have hun := hbirths.unregistered e (.inl (pending_head ht (Op.creates_self ..)))
    have hstate : (c.advance i rest o).state.entries e = (c.state.entries e).filled s p svc := heq
    refine ⟨fun hpos => ?_, fun hp => ?_, fun s' hs' hp => ?_, fun s' hs' _ => ?_⟩
    · rw [hres] at hpos
      obtain ⟨b, hb, hr⟩ := pending_pos.mp hpos
      obtain ⟨op, rfl, -⟩ := Op.holds_iff.mp (Op.resumes_holds hr)
      exact absurd hb hun.not_pend
    · rw [hstate] at hp
      cases hp
    · rw [advance_state, hrunning s' hs'] at hp
      cases hp
    · rw [hstate] at hs' ⊢
      cases hs'
      have hmine := hrunning s (World.HasSandbox.mono hina.2.1 hs.extends)
      rw [advance_state, hmine]
      simp [SessionEntry.filled]
  · exact absurd hnew (ne_of_lt hlt)

def Agreement (c : Config World Op) : Prop := ∀ e < c.state.nEntries, Agrees c e

theorem Agreement.step (h : Agreement c) (hin : Owned c) (howner : OwnersExist c) (hl : Locks c)
    (hbirths : Births c) (hu : Unfilled c) (ht : c.At i a rest)
    (hs : Step x c.state a o) (hok : Relaunched a o) : Agreement (c.advance i rest o) := by
  have hina := hin.ops a (pend_head ht)
  intro e hlt
  by_cases hon : ∃ op, a = .entry e op
  · obtain ⟨op, rfl⟩ := hon
    cases hs with
    | entry hs => exact (h e hina.1).own hl ht hs hok
  have hbox : ∀ s, o.state.HasSandbox e s → (o.state.sandboxes s).paused = true →
      c.state.HasSandbox e s ∧ (c.state.sandboxes s).paused = true := by
    intro s hbox hp
    rcases hs.hasSandbox hbox with hold | ⟨-, hnew, -⟩
    · exact ⟨hold, (hs.paused_other hin.world hina hon hold).symm.trans hp⟩
    · rw [hnew] at hp
      cases hp
  by_cases hold : e < c.state.nEntries
  · exact (h e hold).other hin hbirths hu ht hs hon hold hbox
  · -- a new entry has no sandbox, and nothing is pending on it
    obtain ⟨rfl, placement, hnew⟩ := hs.new_entry hold hlt
    have hzero : c.pending (Op.resumes c.state.nEntries) = 0 := by
      refine pending_none fun b hb hr => ?_
      obtain ⟨op, rfl, -⟩ := Op.holds_iff.mp (Op.resumes_holds hr)
      exact hin.unregistered.not_pend hb
    obtain ⟨hnot, hmore⟩ := hs.not_holds hon
    have hentry : o.state.entries c.state.nEntries =
        { sessionID := World.generateSessionID (c.state.orch.generated + 1),
          placement := placement } := by
      rw [hnew]
      exact update_self ..
    refine ⟨fun hpos => ?_, fun hp => ?_, fun s hs' hp => ?_, fun s hs' => ?_⟩
    · rw [pending_advance_other (fun _ => Op.resumes_holds) ht hs hnot hmore, hzero] at hpos
      exact absurd hpos (lt_irrefl 0)
    · rw [advance_state, hentry] at hp
      cases hp
    · obtain ⟨⟨hs', hown⟩, -⟩ := hbox s hs' hp
      exact absurd (hown ▸ howner s hs') (lt_irrefl _)
    · rw [advance_state, hentry] at hs'
      cases hs'

theorem Reach.agreement
    (hr : Reach machine (Monitor.when resumeCond) () (initialConfig config publisher maxSess) ()
      c) : Agreement c := by
  refine hr.invariant_of_reach (fun _ c => Agreement c) nofun ?_ ?_
  · intro _ c a _ hc he e hlt
    have hres := pending_call_of_apiEntry (Op.resumes e) he
    exact (hc e hlt).frame rfl rfl (fun hpos => .inl (hres ▸ hpos))
      (pending_call_of_apiEntry _ he) (fun _ hb hp => ⟨hb, hp⟩) fun _ _ => rfl
  · intro _ c i a rest x o hr hc ht hx hm
    have hm : resumeCond c a x = true := hm
    rw [resumeCond, Bool.and_eq_true] at hm
    exact hc.step (Reach.owned hr) (Reach.ownersExist hr) (Reach.locks hr) (Reach.births hr) (Reach.unfilled hr) ht
      (step_of_exec hx) (relaunched_of_cond hx hm.2)

/-! ## Trying again -/

/-- Every backend call succeeds. -/
def retryCond (c : Config World Op) (a : Op) (x : Choice) : Bool := resumesPaused c a x && isOk x

variable {ths : List (List Op)}

theorem retry_step (w' : World) (more : List Op)
    (hr : Reach machine (Monitor.when retryCond) () c () ⟨w, ths ++ [a :: rest]⟩)
    (hm : resumesPaused ⟨w, ths ++ [a :: rest]⟩ a .ok = true)
    (hx : exec .ok a w = some ⟨w', more, []⟩) :
    Reach machine (Monitor.when retryCond) () c () ⟨w', ths ++ [more ++ rest]⟩ :=
  Reach.step_last hr hx (by simp [Monitor.when, retryCond, isOk, hm])

theorem retry_relaunch
    (hr : Reach machine (Monitor.when retryCond) () c () ⟨w, ths ++ [[.entry e .relaunch]]⟩)
    (hsb : (w.entries e).sandbox = some s)
    (hsvc : (w.entries e).agentService ≠ some .shared) :
    ∃ w', Reach machine (Monitor.when retryCond) () c () ⟨w', ths ++ [[ret e none]]⟩ ∧
      (w'.entries e).state = .active ∧ w'.sandboxes = w.sandboxes := by
  have hlaunched := retry_step (w.newProcess s) [.entry e (.reconnect w.nProcesses)] hr rfl
    (by simp [exec, EntryOp.exec, hsb, plain])
  -- the old client, if there is one, is closed once the new agent has its own
  have hconnected : ∃ w', Reach machine (Monitor.when retryCond) () c ()
      ⟨w', ths ++ [[.entry e (.reconnected w.nProcesses w.nAgents)]]⟩ ∧
        w'.sandboxes = w.sandboxes := by
    cases hs : (w.entries e).agentService with
    | none =>
      exact ⟨_, retry_step ((w.newProcess s).newAgent w.nProcesses)
        [.entry e (.reconnected w.nProcesses w.nAgents)] hlaunched rfl
        (by simp [exec, EntryOp.exec, World.newProcess, World.newAgent, hs, plain]), rfl⟩
    | some svc =>
      cases svc with
      | shared => exact absurd hs hsvc
      | remote ag =>
        have hclosing := retry_step ((w.newProcess s).newAgent w.nProcesses)
          [.backend e .background (.closeService (.remote ag)),
            .entry e (.reconnected w.nProcesses w.nAgents)] hlaunched rfl
          (by simp [exec, EntryOp.exec, World.newProcess, World.newAgent, hs, plain])
        exact ⟨_, retry_step _ _ hclosing rfl rfl, rfl⟩
  obtain ⟨w', hr', hbox⟩ := hconnected
  exact ⟨_, retry_step _ _ hr' rfl rfl,
    by simp [SessionEntry.activated, SessionEntry.unlocked], hbox⟩

/-- `ResumeSessionSandbox` on a paused session whose sandbox is paused succeeds when the
backend calls do. -/
theorem retry_succeeds {id : String} (hget : c.state.getSessionEntry id = some e)
    (hin : Owned c) (hfree : (c.state.entries e).locked = false)
    (hst : (c.state.entries e).state = .paused) (hsb : (c.state.entries e).sandbox = some s)
    (hp : (c.state.sandboxes s).paused = true) :
    ∃ w', Reach machine (Monitor.when retryCond) () c () ⟨w', c.threads ++ [[ret e none]]⟩ ∧
      (w'.entries e).state = .active ∧ (w'.sandboxes s).paused = false := by
  have hcall : Reach machine (Monitor.when retryCond) () c ()
      ⟨c.state, c.threads ++ [[Op.orch (.resumeSessionSandbox id)]]⟩ :=
    Reach.call (M := machine) (Op.orch (.resumeSessionSandbox id)) Reach.start rfl
  have hfound := retry_step c.state [.entry e .resume] hcall rfl
    (by simp [exec, OrchOp.exec, World.withEntry, hget, plain])
  have hlocked := retry_step (c.state.setEntry e fun v => { v with locked := true })
    [.entry e .resumeSandbox] hfound rfl
    (by simp [exec, EntryOp.exec, hfree, hst, hsb, plain])
  have hm : resumesPaused ⟨c.state.setEntry e fun v => { v with locked := true },
      c.threads ++ [[.entry e .resumeSandbox]]⟩ (.entry e .resumeSandbox) .ok = true := by
    simp [resumesPaused, hsb, World.setEntry, hp]
  have hlt : e < c.state.nEntries := (hin.world.sessions _ (getSessionEntry_some hget)).1
  by_cases hdirect : (c.state.entries e).placement = .agentDirect
  · have hresumed := retry_step
      ((c.state.setEntry e fun v => { v with locked := true }).setSandbox s
        fun v => { v with paused := false }) [.entry e .relaunch] hlocked hm
      (by simp [exec, EntryOp.exec, hsb, hdirect, plain])
    have hsvc : (c.state.entries e).agentService ≠ some .shared := by
      intro h
      have := (hin.world.entries e hlt).service _ h
      rw [ServiceRef.In, hdirect] at this
      cases this
    obtain ⟨w', hr', hact, hbox⟩ := retry_relaunch (s := s) hresumed (by simp [hsb])
      (by simpa using hsvc)
    exact ⟨w', hr', hact, by simp [hbox, World.setSandbox]⟩
  · refine ⟨_, retry_step (((c.state.setEntry e fun v => { v with locked := true }).setSandbox s
      fun v => { v with paused := false }).setEntry e fun v => v.activated.unlocked)
      [ret e none] hlocked hm (by simp [exec, EntryOp.exec, hsb, hdirect, plain]), ?_, ?_⟩
    · simp [SessionEntry.activated, SessionEntry.unlocked]
    · simp [World.setSandbox, World.setEntry]

theorem Agrees.paused_iff (h : Agrees c e) (hl : Locks c)
    (hfree : (c.state.entries e).locked = false) (hd : (c.state.entries e).state ≠ .destroyed)
    (hsb : (c.state.entries e).sandbox = some s) :
    (c.state.entries e).state = .paused ↔ (c.state.sandboxes s).paused = true := by
  rw [h.paused s hsb hd, hl.pending_of_unlocked (fun _ => Op.relaunches_holds) hfree]
  exact (and_iff_left rfl).symm

/-- In every run in which the calls that follow a successful `ResumeSandbox` do not fail,
an entry that no call holds is paused exactly when its sandbox is, until it is destroyed;
and a session that is paused can be resumed, whatever has failed before. -/
theorem paused_agrees {config : OrchestratorConfig} {publisher : Bool} {maxSess : Nat}
    (hr : Reach machine (Monitor.when resumeCond) () (initialConfig config publisher maxSess) () c) :
    (∀ e < c.state.nEntries, (c.state.entries e).locked = false →
      (c.state.entries e).state ≠ .destroyed → ∀ s, (c.state.entries e).sandbox = some s →
        ((c.state.entries e).state = .paused ↔ (c.state.sandboxes s).paused = true)) ∧
      ∀ id e, c.state.getSessionEntry id = some e → (c.state.entries e).locked = false →
        (c.state.entries e).state = .paused →
          ∃ w', Reach machine (Monitor.when retryCond) () c () ⟨w', c.threads ++ [[ret e none]]⟩ ∧
            (w'.entries e).state = .active := by
  have hagree := Reach.agreement hr
  have hl := Reach.locks hr
  refine ⟨fun e hlt hfree hd s hsb => (hagree e hlt).paused_iff hl hfree hd hsb,
    fun id e hget hfree hst => ?_⟩
  have hin := Reach.owned hr
  have h := hagree e (hin.world.sessions _ (getSessionEntry_some hget)).1
  obtain ⟨s, hsb⟩ := Option.ne_none_iff_exists'.mp (h.hasSandbox hst)
  have hp := (h.paused_iff hl hfree (by simp [hst]) hsb).mp hst
  obtain ⟨w', hr', hact, -⟩ := retry_succeeds hget hin hfree hst hsb hp
  exact ⟨w', hr', hact⟩

/-- An agent-direct session is created and paused. -/
def createAndPause : List (Label Op Choice) :=
  [.call (.orch (.createSession (some .agentDirect) ⟨"", .native, []⟩)), .go 1 9,
    .call (.orch (.pauseSession (World.generateSessionID 1))), .go 2 5,
    .call (.orch (.resumeSessionSandbox (World.generateSessionID 1)))]

/-- `ResumeSandbox` fails. -/
theorem paused_agrees_resume_failed :
    ∃ c, Reach machine (Monitor.when resumeCond) ()
        (initialConfig ⟨true, false, false, true, 0⟩ false 0) () c ∧
      c.threads[3]? = some [] ∧ (c.state.entries 0).state = .paused ∧
      (c.state.sandboxes 0).paused = true ∧
      ∃ w', Reach machine (Monitor.when retryCond) () c () ⟨w', c.threads ++ [[ret 0 none]]⟩ ∧
        (w'.entries 0).state = .active := by
  refine Machine.follow_state_imp defaultChoice
    (createAndPause ++ [.go 3 2, .run 3 (.error "resume"), .go 3 1])
    (fun c => c.threads[3]? = some [] ∧ (c.state.entries 0).state = .paused ∧
      (c.state.entries 0).locked = false ∧ (c.state.entries 0).sandbox = some 0 ∧
      c.state.nEntries = 1 ∧
      c.state.getSessionEntry (World.generateSessionID 1) = some 0) ?_
  rintro c hr ⟨hth, hst, hfree, hsb, hn, hget⟩
  obtain ⟨hagree, hretry⟩ := paused_agrees hr
  have hp := (hagree 0 (by omega) hfree (by simp [hst]) 0 hsb).mp hst
  exact ⟨hth, hst, hp, hretry _ 0 hget hfree hst⟩

/-- `ResumeSandbox` succeeds and `LaunchProcess` fails: the call has returned, the entry
is paused and the sandbox is not, and `ResumeSandbox` cannot succeed again. -/
theorem failed_relaunch_disagrees :
    ∃ c, Reach machine (Monitor.when resumesPaused) ()
        (initialConfig ⟨true, false, false, true, 0⟩ false 0) () c ∧
      c.threads[3]? = some [] ∧ (c.state.entries 0).state = .paused ∧
      (c.state.entries 0).locked = false ∧ (c.state.entries 0).sandbox = some 0 ∧
      (c.state.sandboxes 0).paused = false ∧
      resumesPaused c (.entry 0 .resumeSandbox) .ok = false := by
  exact Machine.follow_state defaultChoice
    (createAndPause ++ [.go 3 3, .run 3 (.error "launch"), .go 3 1])

end FlexAgentRuntime.Orchestrator
