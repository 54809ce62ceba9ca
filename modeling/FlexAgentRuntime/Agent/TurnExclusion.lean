import FlexAgentRuntime.Agent.Scope

/-!
Turn mutual exclusion: at most one run loop per driver, and none created after
`Stop` has begun.

Two flags guard the loop, `Agent.running` and `NativeDriver.running`. `Stop`
clears both before the state is exited and while the loop is still there, so a
`Start` in between creates a second loop. Outside that window exclusion holds:

* `holder_balance`: before `Stop` an action never adds a holder of the agent
  without taking the `running` flag;
* `turn_exclusion`: in every run in which no loop is started once `Stop` has
  begun and `Stop` does not begin between the guard of `startLoop` and its `go`
  statement, at most one loop is alive and none is created after `Stop`.
-/

namespace FlexAgentRuntime.AgentLoop

open Interleaving Config List

/-! ## Loops and holders of the agent -/

/-- The deferred function of a loop of session `m`; each loop has exactly one
pending until its `onDriverIdle`. -/
def liveRun (m : MsRef) : Op → Bool
  | .run m' _ op => m' == m && !op.looping
  | _ => false

/-- `startLoop` has passed its guard and not yet executed `go`. -/
def creating (m : MsRef) : Op → Bool
  | .call m' _ (.goRun _ _) => m' == m
  | _ => false

/-- The stages of `Start` and `Continue` between setting `Agent.running` and
either clearing it or handing it to a loop. -/
def CallOp.holds : CallOp → Bool
  | .startTransition _ | .startUnclaim _ | .driverStart _ | .startLoop _ _ _ | .goRun _ _
  | .startFailRecord _ | .startFailClear _ | .continueFailRecord _ | .continueFailIdle _ => true
  | .snapshot _ | .startClaim _ _ | .startFailIdle _ | .continueClaim => false

/-- What keeps `Agent.running` set: a stage of a call, or a loop. -/
def holder (m : MsRef) : Op → Bool
  | .call m' _ op => m' == m && op.holds
  | op => liveRun m op

/-- The number of loops of session `m` between their creation and their
deferred `onDriverIdle`. -/
def liveRuns (c : Config World Op) (m : MsRef) : Nat := c.pending (liveRun m)

variable {m : MsRef} {a : Op} {c : Config World Op} {h : StopHistory}

theorem holder_of_liveRun (h : liveRun m a = true) : holder m a = true := by
  cases a with
  | run m' k op => exact h
  | _ => cases h

theorem holder_of_creating (h : creating m a = true) : holder m a = true := by
  unfold creating at h
  split at h
  · simpa [holder, CallOp.holds] using h
  · cases h

/-! ## One step -/

section Step

variable {x : Choice} {w : World} {op b : Op} {o : Outcome World Op} {m m' : MsRef}
  {caller : Caller} {a a' : Agent} {more : List Op}

/-- `running` as a number. -/
def World.claimed (w : World) (m : MsRef) : Nat := if (w.agents m).running then 1 else 0

theorem claimed_le_one (w : World) (m : MsRef) : w.claimed m ≤ 1 := by
  unfold World.claimed
  split <;> omega

theorem claimed_setAgent (w : World) (m m' : MsRef) (a : Agent) :
    (w.setAgent m a).claimed m' =
      if m' = m then (if a.running then 1 else 0) else w.claimed m' := by
  unfold World.claimed World.setAgent
  by_cases h : m' = m
  · subst h
    simp
  · simp [h]

theorem Step.holder_origin (h : Step x w op o) (hb : b ∈ o.more) (hh : holder m b = true) :
    (∃ caller cop, op = .call m caller cop) ∨ ∃ k rop, op = .run m k rop := by
  cases b with
  | call m' caller cop =>
    simp only [holder, Bool.and_eq_true, beq_iff_eq] at hh
    obtain ⟨rfl, hholds⟩ := hh
    rcases (h.follows hb).call_origin with ⟨cop', rfl⟩ | ⟨r, t, -, ⟨msg, -, rfl⟩ | ⟨-, -, rfl⟩⟩
    · exact .inl ⟨caller, cop', rfl⟩
    · cases hholds
    · cases hholds
  | run m' k rop =>
    simp only [holder, liveRun, Bool.and_eq_true, beq_iff_eq] at hh
    obtain ⟨rfl, -⟩ := hh
    obtain ⟨rop', rfl⟩ := (h.follows hb).run_origin
    exact .inr ⟨k, rop', rfl⟩
  | _ => cases hh

theorem holder_callFail : (callFail m' err caller).countP (holder m) = 0 := by
  cases caller <;> rfl

theorem holder_callOk : (callOk m' caller).countP (holder m) = 0 := by
  cases caller <;> rfl

theorem holder_emitChange : (emitChange m' changed dst origin).countP (holder m) = 0 := by
  cases changed <;> rfl

/-- The balance of a stage of a call: with every new holder the flag is set, and
the flag is cleared only with a holder gone. -/
theorem CallOp.Step.holder_balance {cop : CallOp} {spawn : List (List Op)}
    (h : cop.Step m caller a a' more spawn) :
    more.countP (holder m) + (spawn.map (List.countP (holder m))).sum + (if a.running then 1 else 0) ≤
      (if cop.holds then 1 else 0) + if a'.running then 1 else 0 := by
  cases h with
  | claimRefused hc | driverPanic =>
    rw [holder_callFail]
    simp
  | startClaimed _ hr | continueClaimed _ hr => simp [holder, CallOp.holds, hr]
  | transitioned ht =>
    rw [(Agent.transition_ok ht).2.2.running, countP_append, holder_emitChange]
    simp [holder, CallOp.holds, liveRun]
  | failIdle ht =>
    rw [(Agent.transition_ok ht).2.2.running, countP_append, holder_emitChange, holder_callFail]
    simp [CallOp.holds]
  | unclaimed =>
    rw [holder_callFail]
    cases a.running <;> simp [CallOp.holds]
  | driverOk =>
    rw [holder_callOk]
    simp
  | goRun =>
    rw [holder_callOk]
    simp [holder, CallOp.holds, liveRun, RunOp.looping]
  | failIdleFailed =>
    rw [holder_callFail]
    simp [CallOp.holds]
  | continueFailIdle =>
    rw [holder_callFail]
    cases a.running <;> simp [CallOp.holds, Agent.onDriverIdle]
  | failClear => cases a.running <;> simp [holder, CallOp.holds]
  | _ =>
    cases hr : a.running <;>
      simp [holder, CallOp.holds, Agent.recordError, Agent.count, Agent.setDriver, hr]

theorem RunOp.holder_balance {rop : RunOp} (h : rop.exec m k x a = some (a', more)) :
    more.countP (holder m) + (if a.running then 1 else 0) ≤
      (if rop.looping then 0 else 1) + if a'.running then 1 else 0 := by
  have he := RunOp.exec_effect h
  by_cases hd : rop = .deferred
  · subst hd
    cases h
    cases hr : a.running <;> simp [holder, liveRun, RunOp.looping, Agent.setDriver, hr]
  have hzero : more.countP (holder m) = 0 := by
    refine countP_eq_zero.mpr fun b hb => ?_
    cases he.next b hb with
    | run hl => simp [holder, liveRun, hl]
    | idle hi => exact absurd hi hd
    | emit => simp [holder, liveRun]
  rw [hzero]
  rcases he.running with hr | rfl
  · rw [hr]
    omega
  · cases a.running <;> simp [RunOp.looping]

theorem claimed_setAgent_of_running (h : m = m' → a.running = (w.agents m).running) :
    (w.setAgent m' a).claimed m = w.claimed m := by
  rw [claimed_setAgent]
  split
  · rename_i he
    rw [h he]
    rfl
  · rfl

theorem Step.claimed_eq (h : Step x w op o) (hm : m < w.nManaged)
    (hcall : ∀ caller cop, op ≠ .call m caller cop) (hrun : ∀ k rop, op ≠ .run m k rop)
    (hstop : ∀ sc, op ≠ .stop m sc .begin_) : o.state.claimed m = w.claimed m := by
  cases h with
  | call hs => exact claimed_setAgent_of_running fun he => (hcall _ _ (by rw [he])).elim
  | run hr => exact claimed_setAgent_of_running fun he => (hrun _ _ (by rw [he])).elim
  | stop hs =>
    refine claimed_setAgent_of_running fun he => ?_
    subst he
    cases hs with
    | begin_ => exact absurd rfl (hstop _)
    | exit ht => exact (Agent.transition_ok ht).2.2.running
    | _ => rfl
  | agent hs =>
    refine claimed_setAgent_of_running fun he => ?_
    subst he
    cases hs <;> rfl
  | bus | ms | recv => rfl
  | turn hs => cases hs <;> rfl
  | svc hs => rw [World.claimed, World.claimed, hs.agents hm]

/-- Before `Stop`, the number of holders stays below the `running` flag. -/
theorem Step.holder_balance (h : Step x w op o) (hm : m < w.nManaged)
    (hstop : ∀ sc, op ≠ .stop m sc .begin_) :
    o.more.countP (holder m) + (o.spawn.map (List.countP (holder m))).sum + w.claimed m ≤
      (if holder m op then 1 else 0) + o.state.claimed m := by
  by_cases hcall : ∃ caller cop, op = .call m caller cop
  · obtain ⟨caller, cop, rfl⟩ := hcall
    cases h with
    | call hs =>
      rw [claimed_setAgent, if_pos rfl]
      simpa [holder, World.claimed] using hs.holder_balance
  by_cases hrun : ∃ k rop, op = .run m k rop
  · obtain ⟨k, rop, rfl⟩ := hrun
    cases h with
    | run hr =>
      rw [claimed_setAgent, if_pos rfl]
      have hb := RunOp.holder_balance hr
      cases hl : rop.looping <;> simpa [holder, liveRun, World.claimed, hl] using hb
  -- any other action neither makes holders nor writes the flag
  simp only [not_exists] at hcall hrun
  have hmore : o.more.countP (holder m) = 0 := by
    refine countP_eq_zero.mpr fun b hb hh => ?_
    rcases h.holder_origin hb hh with ⟨caller, cop, he⟩ | ⟨k, rop, he⟩
    · exact hcall caller cop he
    · exact hrun k rop he
  have hspawn : (o.spawn.map (List.countP (holder m))).sum = 0 := by
    rw [← countP_flatten, countP_eq_zero]
    intro b hb hh
    obtain ⟨th, hth, hb⟩ := mem_flatten.mp hb
    obtain ⟨m', caller, k, prompt, rfl, rfl⟩ := h.spawn_origin hth
    have hne : m' ≠ m := fun he => hcall caller (.goRun k prompt) (he ▸ rfl)
    rcases mem_pair.mp hb with rfl | rfl <;> simp [holder, liveRun, hne] at hh
  rw [hmore, hspawn, h.claimed_eq hm hcall hrun hstop]
  omega

theorem Step.liveRun_balance (h : Step x w op o) (m : MsRef) :
    o.more.countP (liveRun m) + (o.spawn.map (List.countP (liveRun m))).sum ≤
      (if liveRun m op then 1 else 0) + if creating m op then 1 else 0 := by
  have hmore : (∀ k, op ≠ .run m k .deferred) → o.more.countP (liveRun m) = 0 := by
    intro hd
    refine countP_eq_zero.mpr fun b hb hl => ?_
    cases b with
    | run m' k rop =>
      simp only [liveRun, Bool.and_eq_true, beq_iff_eq, Bool.not_eq_true'] at hl
      obtain ⟨rfl, hl⟩ := hl
      obtain ⟨rop', rfl⟩ := (h.follows hb).run_origin
      cases h with
      | run hr =>
        cases (RunOp.exec_effect hr).next _ hb with
        | run hl' => simp [hl] at hl'
        | idle hi => exact hd k (by rw [hi])
    | _ => cases hl
  by_cases hd : ∃ k, op = .run m k .deferred
  · obtain ⟨k, rfl⟩ := hd
    cases h with
    | run hr =>
      cases hr
      simp [liveRun, RunOp.looping]
  rw [hmore fun k he => hd ⟨k, he⟩]
  cases hsp : o.spawn with
  | nil => simp
  | cons th ths =>
    have hth : th ∈ o.spawn := hsp ▸ mem_cons_self ..
    obtain ⟨m', caller, k, prompt, rfl, rfl⟩ := h.spawn_origin hth
    cases h with
    | call hs =>
      cases hs with
      | goRun =>
        cases hsp
        by_cases he : m' = m <;> simp [liveRun, creating, RunOp.looping, he]
      | claimRefused hc => cases hsp

/-- A loop is being created only once the guard of `startLoop` is passed. -/
theorem Step.creating_origin (h : Step x w op o) (hb : b ∈ o.more) (hc : creating m b = true) :
    ∃ caller session prompt resume,
      op = .call m caller (.startLoop session prompt resume) ∧ (w.agents m).kind = .native ∧
      startLoopErr (w.agents m) session = none := by
  unfold creating at hc
  split at hc
  · obtain rfl := eq_of_beq hc
    rcases (h.follows hb).call_origin with ⟨cop', rfl⟩ | ⟨r, t, -, ⟨msg, -, hc⟩ | ⟨-, -, hc⟩⟩
    · cases h with
      | call hs =>
        cases hs <;> simp at hb
        exact ⟨_, _, _, _, rfl, ‹_›, ‹_›⟩
    · cases hc
    · cases hc
  · cases hc

end Step

/-! ## Whole runs -/

/-- For each agent: `Stop` has begun; a loop was created after that. -/
structure StopHistory where
  begun : MsRef → Bool
  lateRun : MsRef → Bool

def StopHistory.start : StopHistory := ⟨fun _ => false, fun _ => false⟩

def StopHistory.note (h : StopHistory) : Op → StopHistory
  | .stop m _ .begin_ => { h with begun := Function.update h.begun m true }
  | .call m _ (.goRun _ _) =>
    if h.begun m then { h with lateRun := Function.update h.lateRun m true } else h
  | _ => h

/-- Watch the calls of `Stop` under a condition on steps. -/
def watchStop (meets : StopHistory → Config World Op → Op → Bool) :
    Monitor World Op Choice StopHistory :=
  ⟨fun h _ _ => h, fun h _ a _ => h.note a, fun h c a _ => meets h c a⟩

/-- `startLoop` does not pass its guard once `Stop` has begun, and `Stop` does
not begin while a loop is between that guard and its `go` statement. -/
def noStartInStop (h : StopHistory) (c : Config World Op) : Op → Bool
  | .call m _ (.startLoop session _ _) =>
    !(h.begun m && (c.state.agents m).kind == .native &&
      (startLoopErr (c.state.agents m) session).isNone)
  | .stop m _ .begin_ => c.pending (creating m) == 0
  | _ => true

/-- The invariant: until `Stop` begins the flag bounds the holders; afterwards
one loop may be left, and no other can come. -/
structure Exclusive (h : StopHistory) (c : Config World Op) : Prop where
  claim : ∀ m, h.begun m = false → c.pending (holder m) ≤ c.state.claimed m
  stopped : ∀ m, h.begun m = true → liveRuns c m ≤ 1 ∧ c.pending (creating m) = 0
  late : ∀ m, h.lateRun m = false

theorem note_begun :
    (h.note a).begun m = true ↔ h.begun m = true ∨ ∃ sc, a = .stop m sc .begin_ := by
  cases a with
  | stop m' sc sop =>
    cases sop with
    | begin_ =>
      by_cases he : m = m'
      · subst he
        simp [StopHistory.note]
      · simp [StopHistory.note, he, Ne.symm he]
    | _ => simp [StopHistory.note]
  | call m' caller cop =>
    cases cop with
    | goRun k prompt =>
      simp only [StopHistory.note]
      split <;> simp
    | _ => simp [StopHistory.note]
  | _ => simp [StopHistory.note]

theorem holder_in (h : holder m b = true) (hi : b.In w) : m < w.nManaged := by
  cases b with
  | call m' caller cop =>
    simp only [holder, Bool.and_eq_true, beq_iff_eq] at h
    exact h.1 ▸ hi.1
  | run m' k rop =>
    simp only [holder, liveRun, Bool.and_eq_true, beq_iff_eq] at h
    exact h.1 ▸ hi
  | _ => cases h

theorem pending_holder_eq_zero (hc : Scoped c) (hm : c.state.nManaged ≤ m) :
    c.pending (holder m) = 0 :=
  pending_none fun b hb hh => absurd (holder_in hh (hc.ops b hb)) (not_lt.mpr hm)

theorem creating_eq_false (hp : c.Pend a) (hz : c.pending (creating m) = 0) :
    creating m a = false :=
  pending_eq_zero.mp hz a hp

section Run

variable {h : StopHistory} {c : Config World Op} {i : Nat} {a : Op} {rest : List Op} {x : Choice}
  {o : Outcome World Op}

theorem Exclusive.claim_step (he : Exclusive h c) (hc : Scoped c) (ht : c.At i a rest)
    (hs : Step x c.state a o) (hb : (h.note a).begun m = false) :
    (c.advance i rest o).pending (holder m) ≤ o.state.claimed m := by
  have hnot : ¬ (h.begun m = true ∨ ∃ sc, a = .stop m sc .begin_) := by
    rw [← note_begun, hb]
    nofun
  have hstop : ∀ sc, a ≠ .stop m sc .begin_ := fun sc heq => hnot (.inr ⟨sc, heq⟩)
  by_cases hm : m < c.state.nManaged
  · have hold := he.claim m (by simpa using fun hb => hnot (.inl hb))
    have hbal := pending_advance (holder m) o ht
    have hnew := hs.holder_balance hm hstop
    omega
  · -- nothing refers to a session that does not exist
    have hzero := pending_holder_eq_zero hc (Nat.le_of_not_lt hm)
    have hle : (c.advance i rest o).pending (holder m) ≤ c.pending (holder m) := by
      refine pending_advance_le ht (fun b hb => ?_) (fun th hth b hb => ?_)
      · by_contra hh
        have hin := hc.ops a (pend_head ht)
        rcases hs.holder_origin hb (by simpa using hh) with ⟨caller, cop, rfl⟩ | ⟨k, rop, rfl⟩
        · exact hm hin.1
        · exact hm hin
      · by_contra hh
        obtain ⟨m', caller, k, prompt, rfl, rfl⟩ := hs.spawn_origin hth
        have hin := (hc.ops _ (pend_head ht)).1
        have heq : m' = m := by
          rcases mem_pair.mp hb with rfl | rfl
          · simp [holder, liveRun, RunOp.looping] at hh
          · simpa [holder, liveRun, RunOp.looping] using hh
        exact hm (heq ▸ hin)
    omega

theorem Exclusive.liveRuns_le_one (he : Exclusive h c) (m : MsRef) : liveRuns c m ≤ 1 := by
  cases hb : h.begun m with
  | true => exact (he.stopped m hb).1
  | false =>
    calc liveRuns c m ≤ c.pending (holder m) := c.pending_mono fun _ => holder_of_liveRun
      _ ≤ c.state.claimed m := he.claim m hb
      _ ≤ 1 := claimed_le_one _ _

theorem Exclusive.stopped_step (he : Exclusive h c) (ht : c.At i a rest) (hs : Step x c.state a o)
    (hmeets : noStartInStop h c a = true) (hb : (h.note a).begun m = true) :
    liveRuns (c.advance i rest o) m ≤ 1 ∧ (c.advance i rest o).pending (creating m) = 0 := by
  -- before the step at most one loop lives and none is being created
  have hbefore : liveRuns c m ≤ 1 ∧ c.pending (creating m) = 0 := by
    by_cases hbegun : h.begun m = true
    · exact he.stopped m hbegun
    obtain ⟨sc, rfl⟩ := (note_begun.mp hb).resolve_left hbegun
    exact ⟨he.liveRuns_le_one m, by simpa [noStartInStop] using hmeets⟩
  have hnot := creating_eq_false (pend_head ht) hbefore.2
  refine ⟨?_, ?_⟩
  · have hbal := pending_advance (liveRun m) o ht
    have hnew := hs.liveRun_balance m
    rw [hnot] at hnew
    have := hbefore.1
    unfold liveRuns at this ⊢
    simp only [Bool.false_eq_true, if_false] at hnew
    omega
  · have hle : (c.advance i rest o).pending (creating m) ≤ c.pending (creating m) := by
      refine pending_advance_le ht (fun b hbm => ?_) (fun th hth b hbm => ?_)
      · by_contra hcr
        obtain ⟨caller, session, prompt, resume, rfl, hk, hl⟩ :=
          hs.creating_origin hbm (by simpa using hcr)
        rcases note_begun.mp hb with hb | ⟨sc, hsc⟩
        · simp [noStartInStop, hb, hk, hl] at hmeets
        · cases hsc
      · obtain ⟨m', caller, k, prompt, -, rfl⟩ := hs.spawn_origin hth
        rcases mem_pair.mp hbm with rfl | rfl <;> rfl
    have := hbefore.2
    omega

theorem Exclusive.late_step (he : Exclusive h c) (ht : c.At i a rest)
    (m : MsRef) : (h.note a).lateRun m = false := by
  have hlate := he.late m
  cases a with
  | stop m' sc sop => cases sop <;> exact hlate
  | call m' caller cop =>
    cases cop with
    | goRun k prompt =>
      simp only [StopHistory.note]
      split
      · rename_i hb
        have := creating_eq_false (pend_head ht) (he.stopped m' hb).2
        simp [creating] at this
      · exact hlate
    | _ => exact hlate
  | _ => exact hlate

theorem Exclusive.call (he : Exclusive h c) (hentry : startEntry c.state a = true) :
    Exclusive h (c.call a) := by
  have hzero : ∀ m, holder m a = false := by
    intro m
    cases a with
    | call m' caller cop =>
      cases cop <;> cases caller <;> first | cases hentry | simp [holder, CallOp.holds]
    | run m' k rop => cases hentry
    | _ => rfl
  have hpend : ∀ {m} {p : Op → Bool}, (p a = true → holder m a = true) →
      (c.call a).pending p = c.pending p := by
    intro m p hp
    rw [hzero] at hp
    simp [Bool.eq_false_iff.mpr fun h => Bool.false_ne_true (hp h)]
  refine ⟨fun m hb => ?_, fun m hb => ?_, he.late⟩
  · rw [hpend id]
    exact he.claim m hb
  · rw [liveRuns, hpend holder_of_liveRun, hpend holder_of_creating]
    exact he.stopped m hb

end Run

theorem reach_exclusive
    (hr : Reach (machine startEntry) (watchStop noStartInStop) .start (initialConfig publisher
      maxSess) h c) : Scoped c ∧ Exclusive h c := by
  refine hr.invariant (fun h c => Scoped c ∧ Exclusive h c) ⟨.initial _ _, ?_⟩ ?_ ?_
  · exact ⟨fun _ _ => Nat.zero_le _, nofun, fun _ => rfl⟩
  · rintro h c a ⟨hc, he⟩ hentry
    exact ⟨hc.call hentry, he.call hentry⟩
  · rintro h c i a rest x o ⟨hc, he⟩ ht hx hm
    have hs := step_of_exec hx
    exact ⟨hc.step ht hs, fun m => he.claim_step hc ht hs, fun m => he.stopped_step ht hs hm,
      he.late_step ht⟩

/-- With no loop started during `Stop`, at most one loop of a driver is alive,
and none is created after `Stop` has begun. -/
theorem turn_exclusion {publisher : Bool} {maxSess : Nat} {h : StopHistory} {c : Config World Op}
    (hr : Reach (machine startEntry) (watchStop noStartInStop) .start
      (initialConfig publisher maxSess) h c) (m : MsRef) :
    liveRuns c m ≤ 1 ∧ h.lateRun m = false := by
  obtain ⟨-, he⟩ := reach_exclusive hr
  exact ⟨he.liveRuns_le_one m, he.late m⟩

/-- One `Prompt`, and `Stop` while its loop runs. -/
def stopDuringRun : List (Label Op Choice) :=
  [.call (.svc (.createSession ⟨"s", .native, []⟩)), .go 0 1,
   .call (.call 0 .direct (.snapshot "one")), .go 1 13, .call (.stop 0 .direct .begin_), .go 3 2]

theorem turn_exclusion_stop_during_run :
    ∃ h c, Reach (machine startEntry) (watchStop noStartInStop) .start (initialConfig false 0) h c ∧
      h.begun 0 = true ∧ liveRuns c 0 = 1 ∧ liveRuns c 0 ≤ 1 ∧ h.lateRun 0 = false := by
  refine Machine.follow_imp Choice.default stopDuringRun
    (fun h c => h.begun 0 = true ∧ liveRuns c 0 = 1) ?_
  rintro h c hr ⟨hbegun, hlive⟩
  exact ⟨hbegun, hlive, turn_exclusion hr 0⟩

/-- A second `Prompt` starts its loop after `Stop` has cleared both flags and
before the state is exited. -/
def startInStop : List (Label Op Choice) :=
  [.call (.svc (.createSession ⟨"s", .native, []⟩)), .go 0 1,
   .call (.call 0 .direct (.snapshot "one")), .go 1 13,
   .call (.call 0 .direct (.snapshot "two")), .call (.stop 0 .direct .begin_), .go 4 2, .go 3 10]

/-- Two loops of one driver are alive, and one was created after `Stop` began. -/
theorem two_loops_during_stop :
    ∃ h c, Reach (machine startEntry) (watchStop fun _ _ _ => true) .start
        (initialConfig false 0) h c ∧
      (c.state.agents 0).kind = .native ∧ liveRuns c 0 = 2 ∧ h.lateRun 0 = true :=
  Machine.follow_to Choice.default startInStop

end FlexAgentRuntime.AgentLoop
