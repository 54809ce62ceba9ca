import FlexAgentRuntime.Orchestrator.Lifecycle

/-!
The verdict of a health check and the process that was probed.

`checkSessionHealth` probes without the lock and then looks only at `entry.state`, which a pause
and a resume bring back to what it was. The history of a run holds the sessions that have been
paused since the health loop began to probe them. In runs in which no resume of such a session
ends before its check does, the check leaves the session alone.
-/

namespace FlexAgentRuntime.Orchestrator

open AgentLoop (Choice)
open Interleaving Config Function

/-- The end of a check of `e`. -/
def Op.isVerdict (e : EntryRef) : Op → Bool
  | .entry r .verdict => r == e
  | _ => false

/-- The sessions that have been paused since they were last probed. -/
def notePaused (h : EntryRef → Bool) : Op → Choice → EntryRef → Bool
  | .entry e .probe, _ => update h e false
  | .entry e .pauseSandbox, .ok => update h e true
  | _, _ => h

/-- A resume does not write `entry.state` before a check that the pause has overtaken has ended. -/
def resumesSettled (h : EntryRef → Bool) (c : Config World Op) : Op → Bool
  | .entry e .resumeSandbox | .entry e (.reconnected _ _) =>
    !h e || c.pending (Op.isVerdict e) == 0
  | _ => true

def probeMonitor (meets : (EntryRef → Bool) → Config World Op → Op → Bool) :
    Monitor World Op Choice (EntryRef → Bool) :=
  ⟨fun h _ _ => h, fun h _ a x => notePaused h a x, fun h c a _ => meets h c a⟩

variable {h : EntryRef → Bool} {w : World} {e : EntryRef} {x : Choice} {a : Op}
  {o : Outcome World Op} {c : Config World Op} {i : Nat} {rest : List Op}

theorem notePaused_cases (hp : notePaused h a x e = true) :
    (a = .entry e .pauseSandbox ∧ x = .ok) ∨ (h e = true ∧ a ≠ .entry e .probe) := by
  unfold notePaused at hp
  split at hp
  · rcases of_update (· = true) hp with ⟨-, hfalse⟩ | ⟨hne, hold⟩
    · cases hfalse
    · exact .inr ⟨hold, by simp [hne.symm]⟩
  · rcases of_update (· = true) hp with ⟨rfl, -⟩ | ⟨-, hold⟩
    · exact .inl ⟨rfl, rfl⟩
    · exact .inr ⟨hold, by simp⟩
  · rename_i hprobe _
    exact .inr ⟨hp, fun ha => hprobe e ha⟩

theorem paused_of_exec (hx : exec .ok (.entry e .pauseSandbox) w = some o) :
    (o.state.entries e).state = .paused := by
  obtain ⟨hr, -⟩ := plain_eq_some hx
  simp only [EntryOp.exec] at hr
  split at hr
  · simp only [Option.some.injEq, Prod.mk.injEq] at hr
    rw [← hr.1]
    split <;> simp
  · rename_i hx
    cases hx
  · cases hr

/-- A check that a pause has overtaken finds the session in a state that it leaves alone. -/
def Overtaken (h : EntryRef → Bool) (c : Config World Op) : Prop :=
  ∀ e, h e = true → c.Pend (.entry e .verdict) → (c.state.entries e).state.unchecked = true

theorem Overtaken.step (hc : Overtaken h c) (hbirths : Births c) (ht : c.At i a rest)
    (hx : exec x a c.state = some o) (hm : resumesSettled h c a = true) :
    Overtaken (notePaused h a x) (c.advance i rest o) := by
  intro e hp hv
  have hs := step_of_exec hx
  rcases notePaused_cases hp with ⟨rfl, rfl⟩ | ⟨hold, hne⟩
  · rw [advance_state, paused_of_exec hx]
    rfl
  have hpend : c.Pend (.entry e .verdict) := by
    refine (hs.pend_cases ht hv (by simp)).resolve_right fun hmore => ?_
    rcases hs.entry_more hmore with ⟨op, rfl, hl⟩ | ⟨op, -, hh, -⟩
    · cases hl
      exact hne rfl
    · cases hh with
      | finds hf => cases hf
  have hun := hc e hold hpend
  have hcount : 0 < c.pending (Op.isVerdict e) :=
    pending_pos.mpr ⟨_, hpend, by simp [Op.isVerdict]⟩
  rw [advance_state]
  rcases hs.entries_cases e with heq | ⟨op, rfl⟩ | ⟨_, _, _, _, _, rfl, -⟩ | ⟨_, _, -, -, heq⟩
  · rwa [heq]
  · cases hs with
    | entry hs =>
      cases hs with
      | resumed | reconnected =>
        simp [resumesSettled, hold, ne_of_gt hcount] at hm
      | healthy _ hst | unhealthy _ hst =>
        rw [hst] at hun
        cases hun
      | destroyed | paused | pausedDirect => simp [SessionState.unchecked]
      | _ => simpa [SessionEntry.unlocked, World.newProcess, World.newAgent] using hun
  · have hun := hbirths.unregistered e (.inl (pending_head ht (Op.creates_self ..)))
    exact absurd hpend hun.not_pend
  · rw [heq]
    rfl

/-- When no resume of a session ends before a check that its pause has overtaken, the verdict of
a check changes nothing once the session has been paused since the probe began. -/
theorem verdict_of_current_process {config : OrchestratorConfig} {publisher : Bool} {maxSess : Nat}
    (hr : Reach machine (probeMonitor resumesSettled) (fun _ => false)
      (initialConfig config publisher maxSess) h c)
    (ht : c.At i (.entry e .verdict) rest) (hx : exec x (.entry e .verdict) c.state = some o)
    (hp : h e = true) : o.state = c.state := by
  have hc : Overtaken h c := by
    refine hr.invariant_of_reach Overtaken nofun ?_ fun h c i a rest x o hr hc ht hx hm =>
      hc.step (Reach.births hr) ht hx hm
    intro h c a _ hc he e hp hv
    refine hc e hp ((pend_call.mp hv).resolve_right ?_)
    rintro rfl
    cases he
  have hun := hc e hp (pend_head ht)
  cases step_of_exec hx with
  | entry hs =>
    cases hs with
    | healthy _ hst | unhealthy _ hst =>
      rw [hst] at hun
      cases hun
    | skipped => rfl
    | refused hop | gaveUp hop => cases hop

/-- An agent-direct session is probed and paused. -/
def probeAndPause : List (Label Op Choice) :=
  [.call (.orch (.createSession (some .agentDirect) ⟨"", .native, []⟩)), .go 1 9, .go 0 2,
    .call (.orch (.pauseSession (World.generateSessionID 1))), .go 2 5]

theorem verdict_of_current_process_paused :
    ∃ h c, Reach machine (probeMonitor resumesSettled) (fun _ => false)
        (initialConfig ⟨true, false, false, true, 0⟩ false 0) h c ∧ h 0 = true ∧
      c.heads 0 (Op.isVerdict 0) = true ∧ (c.state.entries 0).state = .paused ∧
      ∀ rest o, c.At 0 (.entry 0 .verdict) rest →
        exec (.error "refused") (.entry 0 .verdict) c.state = some o → o.state = c.state := by
  refine Machine.follow_imp defaultChoice probeAndPause (fun h c => h 0 = true ∧
    c.heads 0 (Op.isVerdict 0) = true ∧ (c.state.entries 0).state = .paused) ?_
  rintro h c hr ⟨hp, hv, hst⟩
  exact ⟨hp, hv, hst, fun rest o ht hx => verdict_of_current_process hr ht hx hp⟩

/-- The session is resumed with a new process before the verdict on the old one, and is unhealthy
after it. -/
theorem verdict_of_previous_process :
    ∃ h c h' c', Reach machine (probeMonitor fun _ _ _ => true) (fun _ => false)
        (initialConfig ⟨true, false, false, true, 0⟩ false 0) h c ∧
      Reach machine (probeMonitor fun _ _ _ => true) h c h' c' ∧
      h 0 = true ∧ (c.state.entries 0).state = .active ∧ (c.state.entries 0).process = some 1 ∧
      c.heads 0 (Op.isVerdict 0) = true ∧ (c'.state.entries 0).state = .unhealthy := by
  exact Machine.follow_then machine (probeMonitor fun _ _ _ => true) defaultChoice (fun _ => false)
    _ (probeAndPause ++
      [.call (.orch (.resumeSessionSandbox (World.generateSessionID 1))), .go 3 8])
    [.run 0 (.error "refused")] _

end FlexAgentRuntime.Orchestrator
