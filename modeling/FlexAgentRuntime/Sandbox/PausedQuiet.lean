import FlexAgentRuntime.Sandbox.Effects

/-!
A paused session has no tool call in flight, as long as no tool call is let in between
the poll of `PauseSession` that finds the counter at zero and its taking of the lock.

`PauseSession` polls `activeTools` without the lock and tests only the state once it has
the lock, so a tool call that is let in between the two runs on in the paused session.
-/

namespace FlexAgentRuntime.SandboxHost

open Interleaving Config

/-- `PauseSession` has found the counter at zero and is about to set the state. -/
def Op.setsPaused (s : SessRef) : Op → Bool
  | .pause _ (.set r) => r == s
  | _ => false

/-- `ExecuteTool` would let a tool call in. -/
def Session.lets (v : Session) : Bool := v.state == .active && !v.rollingBack

/-- A tool call is let in only while no `PauseSession` is about to set the state. -/
def admissionCond (c : Config World Op) (a : Op) (_ : Choice) : Bool :=
  match a with
  | .tool _ (.enter s) => !(c.state.sess s).lets || c.pending (Op.setsPaused s) == 0
  | _ => true

section

variable {w w' : World} {a b : Op} {more : List Op} {s : SessRef}

theorem Op.setsPaused_eq (h : b.setsPaused s = true) : ∃ id, b = .pause id (.set s) := by
  unfold Op.setsPaused at h
  split at h
  · exact ⟨_, by rw [eq_of_beq h]⟩
  · cases h

theorem Step.setsPaused_more (hs : Step w a w' more) (hb : b ∈ more)
    (hp : b.setsPaused s = true) : w' = w ∧ (w.sess s).activeTools ≤ 0 := by
  obtain ⟨id, rfl⟩ := Op.setsPaused_eq hp
  have hreq := (hs.request_more hb).resolve_right nofun
  cases hs with
  | pause hs =>
    cases hs with
    | drained hz =>
      cases List.mem_singleton.mp hb
      exact ⟨rfl, hz⟩
    | _ => cases List.mem_singleton.mp hb
  | _ => cases hreq

theorem Change.activeTools_zero {v : Session} (hc : Change w a s v)
    (hz : (w.sess s).activeTools = 0) (hin : a.inTool s = false)
    (hno : ∀ req, a = .tool req (.enter s) → (w.sess s).lets = false) : v.activeTools = 0 := by
  rcases hc.activeTools with h | ⟨req, rfl, hst, hrb, -⟩ | ⟨req, result, rfl, -⟩ | ⟨-, h, -⟩
  · exact h.trans hz
  · have := hno req rfl
    simp [Session.lets, hst, hrb] at this
  · simp [Op.inTool] at hin
  · exact h

/-- While a session is paused, or about to be, its counter is at zero. -/
structure Drained (c : Config World Op) (s : SessRef) : Prop where
  setting : 0 < c.pending (Op.setsPaused s) → (c.state.sess s).activeTools = 0
  paused : (c.state.sess s).state = .paused → (c.state.sess s).activeTools = 0

variable {c : Config World Op} {i : Nat} {rest : List Op} {x : Choice} {o : Outcome World Op}

theorem Drained.call (h : Drained c s) (he : apiEntry c.state a = true) : Drained (c.call a) s := by
  have hp : a.setsPaused s = false := by
    refine Bool.eq_false_iff.mpr fun hp => ?_
    obtain ⟨id, rfl⟩ := Op.setsPaused_eq hp
    cases he
  refine ⟨fun hpos => h.setting ?_, h.paused⟩
  simpa [hp] using hpos

theorem Drained.step (h : Drained c s)
    (hcount : (c.state.sess s).activeTools = c.pending (Op.inTool s))
    (ht : c.At i a rest) (hx : exec x a c.state = some o)
    (hcond : admissionCond c a x = true) : Drained (c.advance i rest o) s := by
  obtain ⟨hs, hspawn⟩ := step_of_exec hx
  have hidle : (c.state.sess s).activeTools = 0 → a.inTool s = false := by
    intro hz
    refine pending_eq_zero.mp ?_ a (pend_head ht)
    omega
  have hset : 0 < (c.advance i rest o).pending (Op.setsPaused s) →
      (o.state.sess s).activeTools = 0 := by
    intro hpos
    rcases pos_of_pending_advance ht (by simp [hspawn]) hpos with hbefore | ⟨b, hb, hp⟩
    · -- it was about to set the state before the step, so the condition keeps tools out
      have hz := h.setting hbefore
      refine (hs.change s).activeTools_zero hz (hidle hz) ?_
      rintro req rfl
      simp only [admissionCond, Bool.or_eq_true, Bool.not_eq_true', beq_iff_eq] at hcond
      exact hcond.resolve_right (ne_of_gt hbefore)
    · obtain ⟨heq, hle⟩ := hs.setsPaused_more hb hp
      rw [heq]
      omega
  refine ⟨hset, fun hpaused => ?_⟩
  change (o.state.sess s).state = .paused at hpaused
  rcases (hs.change s).state with hst | ⟨id, rfl, -, -⟩ | ⟨-, -, -, h'⟩ | ⟨-, -, h'⟩ |
      ⟨-, -, -, -, h'⟩ | ⟨-, h', -⟩
  · have hbefore := hst.symm.trans hpaused
    have hz := h.paused hbefore
    refine (hs.change s).activeTools_zero hz (hidle hz) fun _ _ => ?_
    simp [Session.lets, hbefore]
  · -- the state is set by a call that had found the counter at zero
    have hz := h.setting (pending_head ht (by simp [Op.setsPaused]))
    exact (hs.change s).activeTools_zero hz (hidle hz) nofun
  all_goals simp_all

end

/-- In every run in which tool calls are let in only while no `PauseSession` of their
session is about to set the state, a paused session has no tool call in flight. -/
theorem paused_session_quiet {config : ServiceConfig} {zfs : Zfs} {h : Unit}
    {c : Config World Op}
    (hr : Reach machine (Monitor.when admissionCond) () (initialConfig config zfs) h c)
    (s : SessRef) (hs : (c.state.sess s).state = .paused) :
    (c.state.sess s).activeTools = 0 ∧ ∀ b, c.Pend b → b.inTool s = false := by
  have hdrained : Drained c s := by
    refine hr.invariant_of_reach (fun _ c => Drained c s) ?_ ?_ ?_
    · exact ⟨fun hpos => absurd hpos (lt_irrefl 0), nofun⟩
    · intro _ c a _ ih he
      exact ih.call he
    · intro _ c i a rest x o hr ih ht hx hcond
      exact ih.step (Reach.activeTools hr s) ht hx hcond
  have hz := hdrained.paused hs
  have hcount := Reach.activeTools hr s
  exact ⟨hz, pending_eq_zero.mp (by omega)⟩

/-- A host on the local disk. -/
def diskConfig : ServiceConfig where
  storageBackend := .localDisk
  containerRuntime := .none
  sessionsDataset := "tank/sessions"
  sessionsRootDir := "/sessions"

/-- A pause and a tool call on session `s-1`: the pause is done first, and the tool call
is refused. -/
theorem paused_session_quiet_refused : ∃ h c,
    Reach machine (Monitor.when admissionCond) () (initialConfig diskConfig {}) h c ∧
      (c.state.sess 1).state = .paused ∧
      ((c.state.sess 1).activeTools = 0 ∧ ∀ b, c.Pend b → b.inTool 1 = false) := by
  refine Machine.follow_imp defaultChoice [.call (.create ⟨"", "s-1", 0⟩ .start), .go 0 5,
      .call (.pause "s-1" .lookup), .call (.tool ⟨"s-1", "bash", "t-1"⟩ .lookup),
      .go 1 3, .go 2 2, .go 1 1, .go 2 1]
    (fun _ c => (c.state.sess 1).state = .paused) ?_
  intro h c hr hst
  exact ⟨hst, paused_session_quiet hr 1 hst⟩

/-- The pause finds the counter at zero, a tool call is let in, and the pause sets the
state: the session is paused while the tool runs in it. -/
theorem pause_leaves_tool_running : ∃ c,
    Reach machine Monitor.free () (initialConfig diskConfig {}) () c ∧
      (c.state.sess 1).state = .paused ∧ (c.state.sess 1).activeTools = 1 ∧
      c.Pend (.tool ⟨"s-1", "bash", "t-1"⟩ (.run 1)) :=
  Machine.follow_state defaultChoice [.call (.create ⟨"", "s-1", 0⟩ .start), .go 0 5,
      .call (.pause "s-1" .lookup), .call (.tool ⟨"s-1", "bash", "t-1"⟩ .lookup),
      .go 1 3, .go 2 3, .go 1 1]

end FlexAgentRuntime.SandboxHost
