import FlexAgentRuntime.Sandbox.RollbackExclusion

/-!
The state of a session changes along the edges of the documented state machine, as long
as no `PauseSession` and no `DestroySession` sets it while a rollback that may still fail
is in flight, and no `DestroySession` sets it while the session is being created.

`RollbackSession` gives a session whose rollback has failed the state `failed` without
looking at the state again, so a session that has been marked `destroying` in the meantime
is `failed` afterwards.
-/

namespace FlexAgentRuntime.SandboxHost

open Interleaving Config

/-- The edges of the state machine between the states of one `Session`. -/
def SessionState.edge : SessionState → SessionState → Bool
  | .active, .paused | .paused, .active | .active, .failed => true
  | .active, .destroying | .paused, .destroying | .failed, .destroying => true
  | _, _ => false

/-- A rollback of `s` has been let in and has not succeeded yet. -/
def Op.mayFail (s : SessRef) : Op → Bool
  | .rollback _ _ (.call r) | .rollback _ _ (.callEnd r) | .rollback _ _ (.finish r (some _)) =>
    r == s
  | _ => false

/-- A session is paused or marked as destroying only while no rollback of it may fail, and
it is not marked while it is being created. -/
def stateCond (c : Config World Op) (a : Op) (_ : Choice) : Bool :=
  match a with
  | .pause _ (.set s) => (c.state.sess s).state != .active || c.pending (Op.mayFail s) == 0
  | .destroy _ (.mark s) =>
    (c.state.sess s).state != .creating && c.pending (Op.mayFail s) == 0
  | _ => true

section

variable {w w' : World} {a b : Op} {more : List Op} {s : SessRef}

theorem Op.mayFail_rollback (h : b.mayFail s = true) : ∃ id name op, b = .rollback id name op := by
  cases b with
  | rollback id name op => exact ⟨id, name, op, rfl⟩
  | _ => cases h

theorem Step.mayFail_more (hs : Step w a w' more) (hb : b ∈ more) (hf : b.mayFail s = true) :
    (w'.sess s).state = (w.sess s).state ∧ (a.mayFail s = true ∨ (w.sess s).state = .active) := by
  obtain ⟨id, name, op, rfl⟩ := Op.mayFail_rollback hf
  have hreq := (hs.request_more hb).resolve_right fun ⟨_, h⟩ => by cases h
  cases hs with
  | rollback hs =>
    cases hs with try cases List.mem_singleton.mp hb
    | @entered r hst _ =>
      obtain rfl : r = s := eq_of_beq hf
      exact ⟨by simp [World.setSess], .inr hst⟩
    | started => exact ⟨rfl, .inl hf⟩
    | @ended r err _ hsame =>
      refine ⟨by rw [hsame.1], .inl ?_⟩
      cases err with
      | none => cases hf
      | some err => exact hf
    | found => cases hf
  | _ => cases hreq

variable {c : Config World Op} {i : Nat} {rest : List Op} {x : Choice} {o : Outcome World Op}

/-- While a rollback of `s` may fail, `s` is active, or another rollback of it has failed. -/
def Rollable (c : Config World Op) (s : SessRef) : Prop :=
  0 < c.pending (Op.mayFail s) → (c.state.sess s).state = .active ∨ (c.state.sess s).state = .failed

theorem Op.mayFail_ref (h : b.mayFail s = true) : b.ref = some s := by
  obtain ⟨id, name, op, rfl⟩ := Op.mayFail_rollback h
  cases op with
  | call r | callEnd r => exact congrArg some (eq_of_beq h)
  | finish r err =>
    cases err with
    | none => cases h
    | some err => exact congrArg some (eq_of_beq h)
  | _ => cases h

theorem Rollable.step (h : Rollable c s) (hsc : Scoped c)
    (ht : c.At i a rest) (hx : exec x a c.state = some o)
    (hcond : stateCond c a x = true) : Rollable (c.advance i rest o) s := by
  intro hpos
  obtain ⟨hs, hspawn⟩ := step_of_exec hx
  change (o.state.sess s).state = .active ∨ (o.state.sess s).state = .failed
  rcases pos_of_pending_advance ht (by simp [hspawn]) hpos with hbefore | ⟨b, hb, hf⟩
  · -- it could fail before the step, so the condition keeps other writers out
    have hst := h hbefore
    rcases (hs.change s).state with heq | ⟨id, rfl, hact, -⟩ | ⟨id, -, hp, -⟩ | ⟨id, rfl, -⟩ |
        ⟨id, name, err, -, hfail⟩ | ⟨hn, -, -⟩
    · rwa [heq]
    · simp only [stateCond, hact, bne_self_eq_false, Bool.false_or, beq_iff_eq] at hcond
      omega
    · simp [hp] at hst
    · simp only [stateCond, Bool.and_eq_true, beq_iff_eq] at hcond
      omega
    · exact .inr hfail
    · obtain ⟨b, hb, hf⟩ := pending_pos.mp hbefore
      exact absurd hn (ne_of_lt (hsc.ops b hb s (Op.mayFail_ref hf)))
  · obtain ⟨heq, ha | hact⟩ := hs.mayFail_more hb hf
    · rw [heq]
      exact h (pending_head ht ha)
    · exact .inl (heq.trans hact)

theorem Reach.rollable
    (hr : Reach machine (Monitor.when stateCond) () (initialConfig config zfs) h c) (s : SessRef) :
    Rollable c s := by
  refine hr.invariant_of_reach (fun _ c => Rollable c s) ?_ ?_ ?_
  · exact fun hpos => absurd hpos (lt_irrefl 0)
  · intro _ c a _ ih he hpos
    refine ih ?_
    have hno : a.mayFail s = false := by
      refine Bool.eq_false_iff.mpr fun hf => ?_
      have hr := Op.mayFail_ref hf
      rw [apiEntry_ref (w := c.state) he] at hr
      cases hr
    simpa [hno] using hpos
  · intro _ c i a rest x o hr ih ht hx hcond
    exact ih.step (Reach.scoped hr) ht hx hcond

end

/-- In every run in which sessions are paused and marked as destroying only while no
rollback of them may fail, and not marked while they are being created, every change of the
state of a session is an edge of the state machine. A session that is destroying stays so,
and a rollback changes the state of an active session only. -/
theorem session_state_follows_edges {config : ServiceConfig} {zfs : Zfs} {h : Unit}
    {c : Config World Op} {i : Nat} {a : Op} {rest : List Op} {x : Choice} {o : Outcome World Op}
    (hr : Reach machine (Monitor.when stateCond) () (initialConfig config zfs) h c)
    (ht : c.threads[i]? = some (a :: rest)) (hx : exec x a c.state = some o)
    (hcond : stateCond c a x = true) (s : SessRef) (hlt : s < c.state.nSess) :
    ((o.state.sess s).state = (c.state.sess s).state ∨
        (c.state.sess s).state.edge (o.state.sess s).state = true) ∧
      ((c.state.sess s).state = .destroying → (o.state.sess s).state = .destroying) ∧
      ((∃ id name op, a = .rollback id name op) →
        (o.state.sess s).state ≠ (c.state.sess s).state → (c.state.sess s).state = .active) := by
  obtain ⟨hs, -⟩ := step_of_exec hx
  rcases (hs.change s).state with heq | ⟨id, rfl, hact, hst⟩ | ⟨id, rfl, hp, hst⟩ |
      ⟨id, rfl, hst⟩ | ⟨id, name, err, rfl, hst⟩ | ⟨hn, -, -⟩
  · exact ⟨.inl heq, fun hd => heq.trans hd, fun _ hne => absurd heq hne⟩
  · rw [hact, hst]
    exact ⟨.inr rfl, (fun hd => by cases hd), fun _ _ => rfl⟩
  · rw [hp, hst]
    refine ⟨.inr rfl, (fun hd => by cases hd), ?_⟩
    rintro ⟨_, _, _, hop⟩
    cases hop
  · rw [hst]
    refine ⟨?_, fun _ => rfl, ?_⟩
    · simp only [stateCond, Bool.and_eq_true, bne_iff_ne] at hcond
      have hmade := hcond.1
      revert hmade
      cases (c.state.sess s).state <;> simp [SessionState.edge]
    · rintro ⟨_, _, _, hop⟩
      cases hop
  · have hpend : 0 < c.pending (Op.mayFail s) :=
      pending_head ht (beq_self_eq_true s)
    rcases Reach.rollable hr s hpend with hb | hb
    · rw [hb, hst]
      exact ⟨.inr rfl, (fun hd => by cases hd), fun _ _ => rfl⟩
    · rw [hb, hst]
      exact ⟨.inl rfl, (fun hd => by cases hd), fun _ hne => absurd rfl hne⟩
  · exact absurd hn (ne_of_lt hlt)

/-- One session, and a rollback of it that is in progress. -/
def rollbackUnderWay : List (Label Op Choice) :=
  [.call (.create ⟨"tank/base@v1", "s-1", 0⟩ .start), .go 0 6,
   .call (.rollback "s-1" "missing" .lookup), .go 1 3]

/-- The rollback fails on the active session. -/
theorem session_state_follows_edges_failed : ∃ h c o,
    Reach machine (Monitor.when stateCond) () (initialConfig zfsConfig basePool) h c ∧
      exec .ok (.rollback "s-1" "missing" (.finish 1 (some .snapshotNotFound))) c.state = some o ∧
      (c.state.sess 1).state = .active ∧ (o.state.sess 1).state = .failed ∧
      (c.state.sess 1).state.edge (o.state.sess 1).state = true := by
  obtain ⟨h, c, hr, ht, hact, hlt⟩ : ∃ h c,
      Reach machine (Monitor.when stateCond) () (initialConfig zfsConfig basePool) h c ∧
        c.threads[1]? = some [.rollback "s-1" "missing" (.finish 1 (some .snapshotNotFound))] ∧
        (c.state.sess 1).state = .active ∧ 1 < c.state.nSess :=
    Machine.follow_to defaultChoice (rollbackUnderWay ++ [.go 1 1])
  have hx : exec .ok (.rollback "s-1" "missing" (.finish 1 (some .snapshotNotFound))) c.state =
      some ⟨c.state.setSess 1 fun v => { v with rollingBack := false, state := .failed },
        [.ret (.failed (.storage "rollback to missing" .snapshotNotFound))], []⟩ := rfl
  have hfailed : ((c.state.setSess 1 fun v =>
      { v with rollingBack := false, state := .failed }).sess 1).state = .failed := by
    simp [World.setSess]
  refine ⟨h, c, _, hr, hx, hact, hfailed, ?_⟩
  have hedge := (session_state_follows_edges hr ht hx rfl 1 hlt).1
  refine hedge.resolve_left fun heq => ?_
  rw [hfailed, hact] at heq
  cases heq

/-- `DestroySession` marks the session while the rollback is in progress; the rollback
fails, and the session that was destroying is failed. -/
theorem destroying_session_fails : ∃ c c',
    Reach machine Monitor.free () (initialConfig zfsConfig basePool) () c ∧
      Reach machine Monitor.free () c () c' ∧
      (c.state.sess 1).state = .destroying ∧ (c'.state.sess 1).state = .failed :=
  Machine.follow_states defaultChoice
    (rollbackUnderWay ++ [.call (.destroy "s-1" .lookup), .go 2 2]) [.go 1 2]

end FlexAgentRuntime.SandboxHost
