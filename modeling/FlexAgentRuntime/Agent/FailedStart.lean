import FlexAgentRuntime.Agent.CallFate

/-!
What a failed `SendMessage` or `Continue` leaves behind. The call claims the
agent (`running`), moves it to streaming and asks the driver to start; every
error return on the way undoes what was done so far. A panic of the driver does
not return: `safeCall` recovers it outside the agent, where nothing is undone.

* `Stage`: what the call has done to the agent when it reaches an action;
* `Staged`: while nobody else touches the agent, it is at the stage of the call;
* `failed_start_usable_iff`: a call that fails on an idle session leaves it
  usable exactly when it was not the driver that panicked;
* `driver_panic_leaves_session_busy`: a run with such a panic.
-/

namespace FlexAgentRuntime.AgentLoop

open Interleaving Config List

/-! ## One call per receiver -/

/-- The actions of `Start` and `Continue` in the call that made `r`. -/
def callFor (r : RecvRef) : Op → Bool
  | .call _ caller _ => caller.receiver == some r
  | _ => false

/-- The call that made `r`, up to the return of `Start` or `Continue`. -/
def callChain (r : RecvRef) (b : Op) : Bool := claiming r b || callFor r b

section Count

variable {b : Op} {r : RecvRef} {m : MsRef} {caller : Caller}

theorem callFor_iff :
    callFor r b = true ↔ ∃ m t cop, b = .call m (.service r t) cop := by
  constructor
  · intro h
    cases b with
    | call m caller cop =>
      cases caller with
      | service r' t =>
        cases eq_of_beq h
        exact ⟨m, t, cop, rfl⟩
      | direct => cases h
    | _ => cases h
  · rintro ⟨m, t, cop, rfl⟩
    exact beq_self_eq_true (some r)

theorem callChain_iff : callChain r b = true ↔ claiming r b = true ∨ callFor r b = true := by
  simp [callChain]

theorem fate_of_callFor (h : callFor r b = true) : fate r b = true := by
  obtain ⟨m, t, cop, rfl⟩ := callFor_iff.mp h
  rw [fate_call]
  exact beq_self_eq_true (some r)

theorem fate_of_callChain (h : callChain r b = true) : fate r b = true := by
  rcases callChain_iff.mp h with h | h
  · exact fate_iff.mpr (.inl h)
  · exact fate_of_callFor h

end Count

/-- A receiver has one action of its call pending, at most. -/
def CallOnce (c : Config World Op) : Prop := ∀ r, c.pending (callChain r) ≤ 1

theorem Fate.callOnce (hi : Fate handed failed c) : CallOnce c := by
  intro r
  have hone := hi.token r
  have hle := c.pending_mono fun a => fate_of_callChain (r := r) (b := a)
  omega

/-! ## The stages of a call -/

/-- Not running and idle: `Start` and `Continue` accept a call. -/
def Agent.Usable (a : Agent) : Prop := a.running = false ∧ a.state = .idle

instance (a : Agent) : Decidable a.Usable := inferInstanceAs (Decidable (_ ∧ _))

/-- What a call that found the agent usable has made of it when it comes to an
action. -/
def Stage : CallOp → Agent → Prop
  | .snapshot _, a | .startClaim _ _, a | .continueClaim, a => a.Usable
  | .startTransition _, a | .startLoop _ _ true, a | .continueFailRecord _, a
  | .continueFailIdle _, a => a.running = true ∧ a.state = .idle
  | .driverStart _, a | .startLoop _ _ false, a | .startFailRecord _, a
  | .startFailClear _, a => a.running = true ∧ a.state = .streaming
  | .startFailIdle _, a => a.running = false ∧ a.state = .streaming
  -- an idle agent can always go to streaming
  | .startUnclaim _, _ => False
  | .goRun _ _, a => a.running = true

variable {a a' : Agent} {cop : CallOp} {m : MsRef} {caller : Caller} {more : List Op}
  {spawn : List (List Op)} {err : ServiceError}

theorem Stage.congr (h : Stage cop a) (hr : a'.running = a.running) (hst : a'.state = a.state) :
    Stage cop a' := by
  unfold Stage at h ⊢
  split <;> simp_all [Agent.Usable]

theorem Agent.transition_streaming_of_idle (h : a.state = .idle) :
    ∃ a', a.transition .streaming = .ok (a', true) ∧ a'.running = a.running ∧
      a'.state = .streaming := by
  simp [Agent.transition, h, validTransitions]

theorem Agent.transition_idle_of_streaming (h : a.state = .streaming) :
    ∃ a', a.transition .idle = .ok (a', true) ∧ a'.running = a.running ∧ a'.state = .idle := by
  simp [Agent.transition, h, validTransitions]

theorem CallOp.Step.stage (hs : cop.Step m caller a a' more spawn) (hst : Stage cop a)
    (hb : .call m caller' cop' ∈ more) : Stage cop' a' := by
  have hfail : ∀ {err : ServiceError}, .call m caller' cop' ∉ callFail m err caller := by
    cases caller <;> simp [callFail]
  have hok : .call m caller' cop' ∉ callOk m caller := by
    cases caller <;> simp [callOk]
  cases hs with
  | snapshot | driverStart | startFailed | resumeFailed | failRecord | continueFailRecord =>
    cases mem_singleton.mp hb; exact hst
  | claimRefused | unclaimed | driverPanic | failIdleFailed | continueFailIdle =>
    exact absurd hb hfail
  | driverOk | goRun => exact absurd hb hok
  | startClaimed | continueClaimed | failClear => cases mem_singleton.mp hb; exact ⟨rfl, hst.2⟩
  | transitionFailed he =>
    obtain ⟨_, hok, -⟩ := Agent.transition_streaming_of_idle hst.2
    rw [he] at hok
    cases hok
  | transitioned he =>
    obtain ⟨a'', hok, hrun, hstr⟩ := Agent.transition_streaming_of_idle hst.2
    rw [he] at hok
    cases hok
    simp [emitChange] at hb
    cases hb.2
    exact ⟨hrun.trans hst.1, hstr⟩
  | @looped _ _ resume _ _ =>
    cases mem_singleton.mp hb
    cases resume with
    | false | true => exact hst.1
  | failIdle =>
    rcases mem_append.mp hb with hb | hb
    · unfold emitChange at hb
      split at hb <;> simp at hb
    · exact absurd hb hfail

/-- The driver panics in `Start` or `Resume`. -/
def DriverPanics (a : Agent) (x : Choice) (cop : CallOp) : Prop :=
  a.kind = .external ∧ ∃ session prompt resume msg,
    cop = .startLoop session prompt resume ∧ x = .panic msg

/-- `SendMessage` is rejected with `BusyError`. -/
def Agent.RejectsBusy (a : Agent) : Prop :=
  ∃ m caller x session prompt st, (CallOp.startClaim session prompt).exec m caller x a =
    some (a, callFail m (.agent (.busy st)) caller, [])

theorem Agent.Usable.not_rejectsBusy (h : a.Usable) : ¬ a.RejectsBusy := by
  rintro ⟨m, caller, x, session, prompt, st, he⟩
  simp only [CallOp.exec, h.1, h.2, reduceCtorEq, if_false, Bool.false_eq_true, Option.some.injEq,
    Prod.mk.injEq] at he
  cases caller <;> cases he.2.1

theorem CallOp.usable_of_fails (hx : cop.exec m caller x a = some (a', more, spawn))
    (hst : Stage cop a) (hret : .svc (.ret m (some err)) ∈ more) :
    a'.Usable ↔ ¬ DriverPanics a x cop := by
  have hok : .svc (.ret m (some err)) ∉ callOk m caller := by
    cases caller <;> simp [callOk]
  cases cop with
  | snapshot prompt | driverStart prompt | startFailRecord e | startFailClear e
  | continueFailRecord e =>
    cases hx; simp at hret
  | startClaim session prompt =>
    simp only [exec, hst.1, hst.2, reduceCtorEq, if_false, Bool.false_eq_true] at hx
    cases hx
    simp at hret
  | startTransition prompt =>
    obtain ⟨a'', htr, -⟩ := Agent.transition_streaming_of_idle hst.2
    simp only [exec, htr] at hx
    cases hx
    simp [emitChange] at hret
  | startUnclaim e => exact hst.elim
  | startLoop session prompt resume =>
    simp only [exec] at hx
    split at hx
    · rename_i hk
      cases x <;> cases hx
      · exact absurd hret hok
      · simp [driverFailed] at hret
      · -- nothing takes the claim back
        have hrun : a.running = true := by
          cases resume with
          | false | true => exact hst.1
        simp [Agent.Usable, DriverPanics, hrun, hk]
    · split at hx <;> cases hx <;> simp [driverFailed] at hret
  | goRun k prompt => cases hx; exact absurd hret hok
  | startFailIdle e =>
    obtain ⟨a'', htr, hrun, hidle⟩ := Agent.transition_idle_of_streaming hst.2
    simp only [exec, htr] at hx
    cases hx
    simp [Agent.Usable, DriverPanics, hrun, hst.1, hidle]
  | continueClaim =>
    simp only [exec, hst.1, hst.2, reduceCtorEq, if_false, Bool.false_eq_true] at hx
    split at hx <;> cases hx
    · simp [DriverPanics, show a.Usable from hst]
    · simp at hret
  | continueFailIdle e =>
    cases hx
    simp [Agent.Usable, Agent.onDriverIdle, DriverPanics, hst.2]

/-! ## Whole runs -/

/-- The first action of `Start` or `Continue` in the call that made `r`. -/
def beginsCall (r : RecvRef) : Op → Bool
  | .call _ caller (.snapshot _) | .call _ caller .continueClaim => caller.receiver == some r
  | _ => false

/-- The step changes neither `running` nor the state of agent `m`. -/
def leavesAlone (m : MsRef) (w : World) (a : Op) (x : Choice) : Bool :=
  match exec x a w with
  | some o => (o.state.agents m).running == (w.agents m).running &&
      (o.state.agents m).state == (w.agents m).state
  | none => true

/-- The calls, by their receivers, that began on an idle session and since then
were the only ones to touch `running` and the state of its agent. -/
def noteAlone (alone : RecvRef → Bool) (c : Config World Op) (a : Op) (x : Choice)
    (r : RecvRef) : Bool :=
  if beginsCall r a then decide (c.state.agents (c.state.recvs r).owner).Usable
  else alone r && (callFor r a || leavesAlone (c.state.recvs r).owner c.state a x)

def watchAlone : Monitor World Op Choice (RecvRef → Bool) :=
  ⟨fun alone _ _ => alone, noteAlone, fun _ _ _ _ => true⟩

/-- While a call that began on an idle session is alone, the agent is at its
stage. -/
structure Staged (alone : RecvRef → Bool) (c : Config World Op) : Prop where
  once : CallOnce c
  stage : ∀ m r t cop, c.Pend (.call m (.service r t) cop) →
    beginsCall r (.call m (.service r t) cop) = false → alone r = true →
    Stage cop (c.state.agents m)

section Runs

variable {alone : RecvRef → Bool} {c : Config World Op} {i : Nat} {a : Op} {rest : List Op}
  {x : Choice} {o : Outcome World Op} {m : MsRef} {r : RecvRef} {t : TurnRef} {cop : CallOp}

theorem Staged.executed (hi : Staged alone c) (hc : Scoped c)
    (hp : c.Pend (.call m (.service r t) cop))
    (hal : noteAlone alone c (.call m (.service r t) cop) x r = true) :
    Stage cop (c.state.agents m) := by
  have hown : (c.state.recvs r).owner = m := (hc.ops _ hp).2.1.2
  unfold noteAlone at hal
  split at hal
  · rename_i hb
    rw [hown, decide_eq_true_eq] at hal
    cases cop <;> first | exact hal | cases hb
  · rename_i hb
    rw [Bool.and_eq_true] at hal
    exact hi.stage m r t cop hp (by simpa using hb) hal.1

theorem callFor_of_beginsCall (h : beginsCall r a = true) : callFor r a = true := by
  unfold beginsCall at h
  split at h
  · exact h
  · exact h
  · cases h

theorem Staged.step (hi : Staged alone c) (hf : Fate handed failed c) (hc : Scoped c)
    (ht : c.At i a rest) (hx : exec x a c.state = some o) :
    Staged (noteAlone alone c a x) (c.advance i rest o) := by
  have hs := step_of_exec hx
  refine ⟨(hf.step hc ht hs).callOnce, fun m r t cop hb hbegin hal => ?_⟩
  by_cases ha : callFor r a = true
  · -- a step of the call itself: what is pending now follows it
    have hchain : ∀ {b}, callFor r b = true → callChain r b = true :=
      fun h => callChain_iff.mpr (.inr h)
    have hb' : callFor r (.call m (.service r t) cop) = true := callFor_iff.mpr ⟨m, t, cop, rfl⟩
    rcases hb.new_of_pending_le_one ht (hchain ha) (hi.once r) (hchain hb') with
      hb | ⟨th, hth, hb⟩
    · obtain ⟨m', t', cop', rfl⟩ := callFor_iff.mp ha
      have hst := hi.executed hc (pend_head ht) hal
      rcases (hs.follows hb).call_origin with ⟨cop'', heq⟩ | ⟨r', t'', -, ⟨_, h, -⟩ | ⟨h, -⟩⟩
      · cases heq
        cases hs with
        | call hs =>
          simp only [World.setAgent, Config.advance, Function.update_self]
          exact hs.stage hst hb
      · cases h
      · cases h
    · obtain ⟨m', caller, k, prompt, -, rfl⟩ := hs.spawn_origin hth
      simp at hb
  · -- a step of someone else
    have hnb : beginsCall r a ≠ true := fun h => ha (callFor_of_beginsCall h)
    rw [noteAlone, if_neg hnb, Bool.and_eq_true, Bool.or_eq_true] at hal
    have hleave := hal.2.resolve_left ha
    simp only [leavesAlone, hx, Bool.and_eq_true, beq_iff_eq] at hleave
    rcases pend_cases ht hs hb with hb | hfol | ⟨_, _, _, _, -, h | h⟩
    · rw [(hc.ops _ hb).2.1.2] at hleave
      exact (hi.stage m r t cop hb hbegin hal.1).congr hleave.1 hleave.2
    · -- the call is only beginning
      rcases hfol.call_origin with ⟨cop', rfl⟩ | ⟨r', t', hcaller, ⟨_, -, rfl⟩ | ⟨-, -, rfl⟩⟩
      · exact absurd (callFor_iff.mpr ⟨m, t, cop', rfl⟩) ha
      · simp [beginsCall, Caller.receiver] at hbegin
      · simp [beginsCall, Caller.receiver] at hbegin
    · cases h
    · cases h

theorem Staged.call (hi : Staged alone c) (hf : Fate handed failed c)
    (he : startEntry c.state a = true) : Staged alone (c.call a) := by
  refine ⟨(hf.call he).callOnce, fun m r t cop hb => ?_⟩
  rcases pend_call.mp hb with hb | rfl
  · exact hi.stage m r t cop hb
  · cases cop <;> cases he

variable {publisher : Bool} {maxSess : Nat} {err : ServiceError}

theorem Reach.fate (hr : Reach (machine startEntry) N h₀ (initialConfig publisher maxSess) h c) :
    ∃ handed failed, Fate handed failed c := by
  refine hr.invariant_of_reach (fun _ c => ∃ handed failed, Fate handed failed c)
    ⟨_, _, Fate.initial publisher maxSess⟩ ?_ ?_
  · rintro h c a - ⟨handed, failed, hi⟩ he
    exact ⟨handed, failed, hi.call he⟩
  · rintro h c i a rest x o hr ⟨handed, failed, hi⟩ ht hx -
    exact ⟨_, _, hi.step (Reach.scoped hr) ht (step_of_exec hx)⟩

theorem Reach.staged (hr : Reach (machine startEntry) watchAlone (fun _ => false)
    (initialConfig publisher maxSess) alone c) : Staged alone c := by
  refine hr.invariant_of_reach Staged
    ⟨fun r => Nat.zero_le 1, fun m r t cop hb => absurd hb not_pend_nil⟩ ?_ ?_
  · intro alone c a hr hi he
    obtain ⟨handed, failed, hf⟩ := Reach.fate hr
    exact hi.call hf he
  · intro alone c i a rest x o hr hi ht hx _
    obtain ⟨handed, failed, hf⟩ := Reach.fate hr
    exact hi.step hf (Reach.scoped hr) ht hx

/-- A `SendMessage` or `Continue` that began on an idle session, whose `running`
flag and state nobody else touched meanwhile, returns an error: afterwards the
agent is idle, not running and not busy for the next `SendMessage`, exactly when
the error is not a panic of the driver in `Start` or `Resume`. -/
theorem failed_start_usable_iff
    (hr : Reach (machine startEntry) watchAlone (fun _ => false)
      (initialConfig publisher maxSess) alone c)
    (ht : c.threads[i]? = some (.call m (.service r t) cop :: rest))
    (hx : exec x (.call m (.service r t) cop) c.state = some o)
    (hret : .svc (.ret m (some err)) ∈ o.more)
    (halone : noteAlone alone c (.call m (.service r t) cop) x r = true) :
    ((o.state.agents m).Usable ∧ ¬ (o.state.agents m).RejectsBusy) ↔
      ¬ DriverPanics (c.state.agents m) x cop := by
  have hst := (Reach.staged hr).executed (Reach.scoped hr)
    (pend_head ht) halone
  obtain ⟨⟨a', more, spawn⟩, hop, rfl⟩ := Option.map_eq_some_iff.mp hx
  simp only [World.setAgent, Function.update_self]
  rw [← CallOp.usable_of_fails hop hst hret]
  exact ⟨And.left, fun h => ⟨h, h.not_rejectsBusy⟩⟩

end Runs

/-- A session with a driver of its own, and a `SendMessage` that has come to the
driver's `Start`. -/
def startReached : List (Label Op Choice) :=
  [.call (.svc (.createSession ⟨"s", .external, []⟩)), .go 0 1,
   .call (.svc (.sendMessage "s" "hi")), .go 1 27]

/-- The call of the first receiver takes its start back. -/
def Op.undoesStart : Op → Bool
  | .call 0 (.service 0 0) (.startFailIdle _) => true
  | _ => false

theorem Op.undoesStart_iff {a : Op} :
    a.undoesStart = true ↔ ∃ err, a = .call 0 (.service 0 0) (.startFailIdle err) := by
  constructor
  · intro h
    unfold undoesStart at h
    split at h
    · exact ⟨_, rfl⟩
    · cases h
  · rintro ⟨err, rfl⟩
    rfl

/-- The driver refuses to start. -/
theorem failed_start_usable_refused :
    ∃ alone c, Reach (machine startEntry) watchAlone (fun _ => false)
        (initialConfig false 0) alone c ∧ ∃ err rest o,
      c.threads[1]? = some (.call 0 (.service 0 0) (.startFailIdle err) :: rest) ∧
      exec .go (.call 0 (.service 0 0) (.startFailIdle err)) c.state = some o ∧
      .svc (.ret 0 (some (.agent err))) ∈ o.more ∧ (o.state.agents 0).Usable := by
  refine Machine.follow_imp Choice.default (startReached ++ [.run 1 (.error "refused"), .go 1 2])
    (fun alone c => alone 0 = true ∧ c.heads 1 Op.undoesStart = true ∧
      (c.state.agents 0).state = .streaming) ?_
  rintro alone c hr ⟨halone, hhead, hstr⟩
  simp only [heads_iff, Op.undoesStart_iff] at hhead
  obtain ⟨_, rest, ht, err, rfl⟩ := hhead
  obtain ⟨a', htr, -⟩ := Agent.transition_idle_of_streaming hstr
  have hx : exec .go (.call 0 (.service 0 0) (.startFailIdle err)) c.state =
      some ⟨c.state.setAgent 0 a', emitChange 0 true .idle (.start (.service 0 0)) ++
        callFail 0 (.agent err) (.service 0 0), []⟩ := by
    simp [exec, CallOp.exec, htr]
  have hret : .svc (.ret 0 (some (.agent err))) ∈
      emitChange 0 true .idle (.start (.service 0 0)) ++
        callFail 0 (.agent err) (.service 0 0) := by
    simp [callFail]
  refine ⟨err, rest, _, ht, hx, hret, ?_⟩
  refine ((failed_start_usable_iff hr ht hx hret ?_).mpr ?_).1
  · simpa [noteAlone, beginsCall, callFor, Caller.receiver] using halone
  · simp [DriverPanics]

/-- A call on session 0 returns the error `err`. -/
def Op.returnsErr (err : ServiceError) : Op → Bool
  | .svc (.ret 0 (some err')) => err' == err
  | _ => false

theorem Op.returnsErr_iff {a : Op} : a.returnsErr err = true ↔ a = .svc (.ret 0 (some err)) := by
  constructor
  · intro h
    unfold returnsErr at h
    split at h
    · rw [eq_of_beq h]
    · cases h
  · rintro rfl
    exact beq_self_eq_true err

/-- The driver panics in `Start`: `SendMessage` reports the error, the agent
stays running and streaming, and the next `SendMessage` is rejected with
`BusyError`. -/
theorem driver_panic_leaves_session_busy :
    ∃ alone c alone' c', Reach (machine startEntry) watchAlone (fun _ => false)
        (initialConfig false 0) alone c ∧ alone 0 = true ∧
      c.Pend (.svc (.ret 0 (some (.panic "boom")))) ∧ (c.state.agents 0).running = true ∧
      (c.state.agents 0).state = .streaming ∧
      Reach (machine startEntry) watchAlone alone c alone' c' ∧
      c'.Pend (.svc (.ret 0 (some (.agent (.busy .streaming))))) := by
  obtain ⟨alone, c, alone', c', hr, hr', halone, hrun, hstr, hfailed, hbusy⟩ :=
    (machine startEntry).follow_then watchAlone Choice.default (fun _ => false)
      (initialConfig false 0) (startReached ++ [.run 1 (.panic "boom"), .go 1 8])
      [.go 1 1, .call (.svc (.sendMessage "s" "again")), .go 2 19]
      (fun alone c _ c' => alone 0 = true ∧ (c.state.agents 0).running = true ∧
        (c.state.agents 0).state = .streaming ∧
        c.heads 1 (·.returnsErr (.panic "boom")) = true ∧
        c'.heads 2 (·.returnsErr (.agent (.busy .streaming))) = true)
  simp only [heads_iff, Op.returnsErr_iff] at hfailed hbusy
  obtain ⟨_, _, hfailed, rfl⟩ := hfailed
  obtain ⟨_, _, hbusy, rfl⟩ := hbusy
  exact ⟨alone, c, alone', c', hr, halone, pend_head hfailed, hrun, hstr, hr',
    pend_head hbusy⟩

end FlexAgentRuntime.AgentLoop
