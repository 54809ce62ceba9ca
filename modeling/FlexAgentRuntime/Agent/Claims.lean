import FlexAgentRuntime.Agent.Frames

/-!
The call that makes a receiver. `SendMessage` and `Continue` set their receiver
up and then claim the agent, `SubscribeEvents` sets its receiver up and registers
it; each does so once, in one goroutine.

* `callOn`: the actions of the calls on a session;
* `Step.claiming_count`: a step of such a call leaves at most one action before
  the claim, and none once the claim has succeeded;
* `Claims`: so a receiver has at most one action before its claim pending, none
  after it, and actions after the claim only when there was one.
-/

namespace FlexAgentRuntime.AgentLoop

open Interleaving Config List

/-- The actions that are part of a call on session `m`. -/
def callOn (w : World) (m : MsRef) : Op → Bool
  | .call m' _ _ | .stop m' _ _ | .svc (.newTurn m' _) | .svc (.stopped m' _)
  | .svc (.delete _ m' _) | .svc (.destroyReturn m' _) | .svc (.ret m' _)
  | .bus m' (.subscribeTracker _ _ _) | .bus m' (.subscribeTurn _ _ _ _)
  | .bus m' (.subscribeStream _) | .bus m' (.close _)
  | .agent m' .cancelSession | .agent m' (.readState _ _) | .agent m' (.steerCheck _)
  | .agent m' (.enqueueCheck _) | .agent m' (.enqueueSend _)
  | .ms m' (.setTurnDone _ _ _) | .ms m' (.readStarted _ _ _) | .ms m' (.setStarted _)
  | .ms m' (.handOut _) | .ms m' (.addStream _ _) | .ms m' (.completeActiveTurn _)
  | .ms m' (.closeAllStreams _) | .ms m' (.closeStreams _)
  | .turn _ (.doneTurn (some m')) => m' == m
  | .svc (.closeNext _ all) | .svc (.closeDelete all) | .svc (.closeWait all)
  | .svc (.closeCancel _ all) | .svc (.closeWaitAgain all) | .svc (.closeReturn all _) =>
    all.any (·.2 == m)
  | .recv r (.setCloseHook _ _) | .recv r (.close .destroyed) | .recv r (.close .failed) =>
    (w.recvs r).owner == m
  | _ => false

/-- The stages of `Start` and `Continue` before the agent is claimed. -/
def CallOp.preclaim : CallOp → Bool
  | .snapshot _ | .startClaim _ _ | .continueClaim => true
  | _ => false

theorem CallOp.preclaim_of_succeeds {cop : CallOp} (h : cop.succeeds = true) :
    cop.preclaim = false := by
  cases cop <;> first | rfl | cases h

def Caller.receiver : Caller → Option RecvRef
  | .service r _ => some r
  | .direct => none

/-- The call that made `r` has not yet claimed the agent or registered `r`. -/
def claiming (r : RecvRef) : Op → Bool
  | .ms _ (.setTurnDone r' _ _) | .bus _ (.subscribeTracker r' _ _)
  | .bus _ (.subscribeTurn r' _ _ _) | .ms _ (.readStarted r' _ _) | .agent _ (.readState r' _)
  | .bus _ (.subscribeStream r') | .ms _ (.addStream r' _)
  | .recv r' (.setCloseHook (.unsubscribe _) _)
  | .recv r' (.setCloseHook .removeStream (.turn _ _)) => r' == r
  | .call _ caller cop => caller.receiver == some r && cop.preclaim
  | _ => false

/-- The session and the caller that claims its agent in this step. -/
def claimedOn (w : World) : Op → Option (MsRef × Caller)
  | .call m caller (.startClaim _ _) =>
    if (w.agents m).state ≠ .exited ∧ (w.agents m).running = false then some (m, caller) else none
  | .call m caller .continueClaim =>
    if (w.agents m).state ≠ .exited ∧ (w.agents m).running = false ∧
      (w.agents m).session.isSome then some (m, caller) else none
  | _ => none

/-- The receiver whose call claims the agent, or registers it, in this step. -/
def claimedRecv (w : World) : Op → Option RecvRef
  | .call m caller (.startClaim _ _) =>
    if (w.agents m).state ≠ .exited ∧ (w.agents m).running = false then caller.receiver else none
  | .call m caller .continueClaim =>
    if (w.agents m).state ≠ .exited ∧ (w.agents m).running = false ∧
      (w.agents m).session.isSome then caller.receiver else none
  | .ms _ (.addStream r .stream) => some r
  | _ => none

/-- The call that made `r` has claimed the agent or registered `r`. -/
def afterClaim (r : RecvRef) : Op → Bool
  | .call _ caller cop => caller.receiver == some r && !cop.preclaim
  | .ms _ (.setStarted r') | .ms _ (.handOut r') | .recv r' (.setCloseHook .removeStream .stream) =>
    r' == r
  | _ => false

/-- The receivers claimed so far. -/
def noteClaim (claimed : RecvRef → Bool) (w : World) (a : Op) (r : RecvRef) : Bool :=
  claimed r || claimedRecv w a == some r

theorem noteClaim_iff :
    noteClaim claimed w a r = true ↔ claimed r = true ∨ claimedRecv w a = some r := by
  simp [noteClaim]

variable {w : World} {a b : Op} {x : Choice} {o : Outcome World Op} {r : RecvRef}

theorem claimedRecv_iff : claimedRecv w a = some r ↔
    (∃ m caller, claimedOn w a = some (m, caller) ∧ caller.receiver = some r) ∨
      ∃ m, a = .ms m (.addStream r .stream) := by
  cases a with
  | call m caller cop =>
    cases cop with
    | startClaim | continueClaim =>
      simp only [claimedRecv, claimedOn]
      split <;> simp
    | _ => simp [claimedRecv, claimedOn]
  | ms m mop =>
    cases mop with
    | addStream r' setup => cases setup <;> simp [claimedRecv, claimedOn]
    | _ => simp [claimedRecv, claimedOn]
  | _ => simp [claimedRecv, claimedOn]

theorem call_of_claimedOn (h : claimedOn w a = some (m, caller)) :
    ∃ cop, a = .call m caller cop ∧ cop.preclaim = true ∧ (w.agents m).state ≠ .exited := by
  unfold claimedOn at h
  split at h
  · split at h
    · rename_i hg
      cases h
      exact ⟨_, rfl, rfl, hg.1⟩
    · cases h
  · split at h
    · rename_i hg
      cases h
      exact ⟨_, rfl, rfl, hg.1⟩
    · cases h
  · cases h

theorem claiming_of_claimedRecv (h : claimedRecv w a = some r) : claiming r a = true := by
  rcases claimedRecv_iff.mp h with ⟨m, caller, hon, hr⟩ | ⟨m, rfl⟩
  · obtain ⟨cop, rfl, hp, -⟩ := call_of_claimedOn hon
    simp [claiming, hr, hp]
  · simp [claiming]

/-- The actions that make a receiver. -/
inductive MakesRecv : Op → Prop where
  | newTurn {m kick} : MakesRecv (.svc (.newTurn m kick))
  | subscribe {id} : MakesRecv (.svc (.subscribeEvents id))

theorem Follows.claiming_origin (hf : Follows w a b) (hb : claiming r b = true) :
    claiming r a = true ∨ MakesRecv a ∧ r = w.nRecvs := by
  have hlate : ∀ {m : MsRef} {caller : Caller} {cop : CallOp}, cop.preclaim = false →
      claiming r (.call m caller cop) = true → False := by
    intro m caller cop hc hb
    simp [claiming, hc] at hb
  cases hf with
  | snapshot | subscribeStream | subscribeTurn | turnHook | streamHook | subscribeTracker
  | addStream | readStarted =>
    exact .inl hb
  | callSnapshot | callContinue =>
    exact .inl (by simpa [claiming, CallOp.preclaim, Caller.receiver] using hb)
  | @removeHook _ _ setup =>
    cases setup with
    | turn t kick => exact .inl hb
    | stream => cases hb
  | readState => exact .inr ⟨.subscribe, (eq_of_beq hb).symm⟩
  | setTurnDone => exact .inr ⟨.newTurn, (eq_of_beq hb).symm⟩
  | startClaimed | continueClaimed | looped => exact (hlate rfl hb).elim
  | callNext hn => exact (hlate (by cases hn <;> rfl) hb).elim
  | lookup hl => cases hl <;> cases hb
  | run hn => cases hn <;> cases hb
  | _ => cases hb

theorem Follows.afterClaim_origin (hf : Follows w a b) (hb : afterClaim r b = true) :
    afterClaim r a = true ∨ claimedRecv w a = some r := by
  cases hf with
  | startClaimed hst hr =>
    refine .inr ?_
    simpa [claimedRecv, hst, hr, afterClaim, CallOp.preclaim] using hb
  | continueClaimed hst hr hse =>
    refine .inr ?_
    simpa [claimedRecv, hst, hr, hse, afterClaim, CallOp.preclaim] using hb
  | callNext hn =>
    refine .inl ?_
    cases hn <;> exact hb
  | looped | handOutTurn | handOutStream => exact .inl hb
  | callStarted hs =>
    refine .inl ?_
    simpa [afterClaim, CallOp.preclaim_of_succeeds hs, Caller.receiver] using hb
  | @removeHook _ _ setup =>
    cases setup with
    | turn t kick => cases hb
    | stream => exact .inr (congrArg some (eq_of_beq hb))
  | snapshot | callSnapshot | callContinue => simp [afterClaim, CallOp.preclaim] at hb
  | lookup hl => cases hl <;> cases hb
  | run hn => cases hn <;> cases hb
  | _ => cases hb

theorem claiming_callFail : (callFail m err caller).countP (claiming r) = 0 := by
  cases caller <;> rfl

theorem claiming_hookOps {hook : Hook} : (hook.ops m r').countP (claiming r) = 0 := by
  refine countP_eq_zero.mpr fun b hb hc => ?_
  rcases mem_hookOps.mp hb with ⟨ids, id, rfl, -, rfl⟩ | ⟨rfl, rfl⟩ <;> cases hc

theorem countP_singleton_le (b : Op) : [b].countP p ≤ 1 :=
  countP_le_length

theorem Step.claiming_count (hs : Step x w a o) (ha : claiming r a = true) :
    o.more.countP (claiming r) + (if claimedRecv w a = some r then 1 else 0) ≤ 1 := by
  have hone : ∀ l : List Op, claimedRecv w a = none → l.countP (claiming r) ≤ 1 →
      l.countP (claiming r) + (if claimedRecv w a = some r then 1 else 0) ≤ 1 := by
    intro l hn hl
    simpa [hn] using hl
  have hzero : ∀ l : List Op, l.countP (claiming r) = 0 →
      l.countP (claiming r) + (if claimedRecv w a = some r then 1 else 0) ≤ 1 := by
    intro l hl
    rw [hl]
    split <;> omega
  cases hs with
  | call hs =>
    cases hs with
    | snapshot => exact hone _ rfl (countP_singleton_le _)
    | claimRefused => exact hzero _ claiming_callFail
    | startClaimed | continueClaimed => exact hzero _ (by simp [claiming, CallOp.preclaim])
    | _ => simp [claiming, CallOp.preclaim] at ha
  | agent hs =>
    cases hs with
    | readState => exact hone _ rfl (countP_singleton_le _)
    | refused => exact hzero _ rfl
    | _ => cases ha
  | bus hs =>
    cases hs with
    | subscribeTracker | subscribeTurn | subscribeStream => exact hone _ rfl (countP_singleton_le _)
    | _ => cases ha
  | ms hs =>
    cases hs with
    | setTurnDone | readStarted => exact hone _ rfl (countP_singleton_le _)
    | @addStream _ setup =>
      cases setup with
      | turn t kick => exact hone _ rfl (countP_singleton_le _)
      | stream => exact hzero _ rfl
    | _ => cases ha
  | recv hs =>
    cases hs with
    | hookRun =>
      refine hone _ rfl ?_
      rw [countP_append, claiming_hookOps, Nat.zero_add]
      exact countP_singleton_le _
    | hookKept => exact hone _ rfl (countP_singleton_le _)
    | _ => cases ha
  | _ => cases ha

theorem Step.newTurn_inv (hs : Step x w (.svc (.newTurn m kick)) o) :
    o.state = w.newTurn m ∧ o.more.length ≤ 1 := by
  cases hs with
  | svc hs =>
    cases hs with
    | refused hc | created hc => cases hc
    | found hl => cases hl
    | newTurn => exact ⟨rfl, le_refl 1⟩
    | returned hr => cases hr

theorem Step.makesRecv_length (hs : Step x w a o) (hm : MakesRecv a) : o.more.length ≤ 1 := by
  cases hm with
  | newTurn => exact hs.newTurn_inv.2
  | subscribe =>
    cases hs with
    | svc hs =>
      cases hs with
      | refused | subscribed => exact le_refl 1
      | created hc => cases hc
      | found hl => cases hl
      | returned hr => cases hr

/-! ## The invariant -/

structure Claims (claimed : RecvRef → Bool) (c : Config World Op) : Prop where
  token : ∀ r, c.pending (claiming r) + (if claimed r then 1 else 0) ≤ 1
  exists_ : ∀ r, claimed r = true → r < c.state.nRecvs
  after : ∀ r b, c.Pend b → afterClaim r b = true → claimed r = true

variable {claimed : RecvRef → Bool} {c : Config World Op} {i : Nat} {rest : List Op}

theorem Setup.In.hasRecv {w : World} {setup : Setup} (h : setup.In w m r) : w.HasRecv m r := by
  cases setup with
  | turn t kick | stream => exact h.1

theorem claiming_in (hb : claiming r b = true) (hin : b.In w) : r < w.nRecvs := by
  unfold claiming at hb
  split at hb
  case h_10 m caller cop =>
    simp only [Bool.and_eq_true, beq_iff_eq] at hb
    cases caller with
    | service r' t =>
      cases hb.1
      exact hin.2.1.1
    | direct => cases hb.1
  case h_11 => cases hb
  all_goals
    obtain rfl := eq_of_beq hb
    first
      | exact hin.1
      | exact hin.2.1.1
      | exact (hin.2 _ _ rfl).1.1
      | exact (Setup.In.hasRecv hin.2).1

section

variable (hc : Scoped c) (ht : c.At i a rest) (hs : Step x c.state a o)

include hc ht hs

/-- The actions of kind `p` belong to the call that makes `r`: one at most is pending, or it
has been used up. -/
theorem recvToken_step {p : Op → Bool} (hone : c.pending p + used ≤ 1)
    (hin : ∀ b, p b = true → b.In c.state → r < c.state.nRecvs)
    (horigin : ∀ b, Follows c.state a b → p b = true →
      p a = true ∨ MakesRecv a ∧ r = c.state.nRecvs)
    (hrun : ∀ m k rop, p (.run m k rop) = false)
    (hself : p a = true → used = 0 → o.more.countP p + used' ≤ 1)
    (hused : p a = false → used' = used) (hfresh : r = c.state.nRecvs → used = 0) :
    (c.advance i rest o).pending p + used' ≤ 1 := by
  refine Config.token_step ht hone (fun th hth b hb => ?_) (fun ha => hself ha ?_) hused
    fun ha hmore => ?_
  · obtain ⟨m, caller, k, prompt, -, rfl⟩ := hs.spawn_origin hth
    rcases mem_pair.mp hb with rfl | rfl <;> exact hrun _ _ _
  · have hpos : 0 < c.pending p := pending_head ht ha
    omega
  · -- a receiver that is made now has no action yet
    obtain ⟨b, hb, hpb⟩ := hmore
    obtain ⟨hmakes, hr⟩ := (horigin b (hs.follows hb) hpb).resolve_left (by simp [ha])
    refine ⟨pending_none fun b' hb' hpb' => ?_, hfresh hr,
      countP_le_length.trans (hs.makesRecv_length hmakes)⟩
    exact absurd (hin b' hpb' (hc.ops b' hb')) (hr ▸ lt_irrefl r)

theorem Claims.token_step (hi : Claims claimed c) (r : RecvRef) :
    (c.advance i rest o).pending (claiming r) +
      (if noteClaim claimed c.state a r then 1 else 0) ≤ 1 := by
  refine recvToken_step hc ht hs (hi.token r) (fun _ => claiming_in)
    (fun _ => Follows.claiming_origin) (fun _ _ _ => rfl) (fun ha hnot => ?_) (fun ha => ?_)
    fun hr => ?_
  · have hcl : claimed r = false := by simpa using hnot
    simpa [noteClaim, hcl] using hs.claiming_count ha
  · have hne : claimedRecv c.state a ≠ some r := by
      intro h
      rw [claiming_of_claimedRecv h] at ha
      cases ha
    simp [noteClaim, hne]
  · have hnot : claimed r ≠ true := fun h => absurd (hi.exists_ r h) (hr ▸ lt_irrefl r)
    simp [hnot]

theorem Claims.step (hi : Claims claimed c) :
    Claims (noteClaim claimed c.state a) (c.advance i rest o) := by
  refine ⟨hi.token_step hc ht hs, fun r hr => ?_, fun r b hb haf => noteClaim_iff.mpr ?_⟩
  · have hlt : r < c.state.nRecvs := by
      rcases noteClaim_iff.mp hr with hr | hr
      · exact hi.exists_ r hr
      · exact claiming_in (claiming_of_claimedRecv hr) (hc.ops a (pend_head ht))
    exact hlt.trans_le hs.extends.recvs
  · rcases pend_cases ht hs hb with hb | hf | ⟨_, _, _, _, -, rfl | rfl⟩
    · exact .inl (hi.after r b hb haf)
    · exact (hf.afterClaim_origin haf).imp_left (hi.after r a (pend_head ht))
    · cases haf
    · cases haf

end

theorem startEntry_not_claiming (he : startEntry w a = true) :
    claiming r a = false ∧ afterClaim r a = false := by
  cases a with
  | call m caller cop =>
    cases caller with
    | service r' t => cases cop <;> cases he
    | direct => exact ⟨rfl, rfl⟩
  | agent m aop => cases aop <;> first | exact ⟨rfl, rfl⟩ | cases he
  | bus m bop | ms m mop => cases he
  | recv r' rop => cases rop <;> first | exact ⟨rfl, rfl⟩ | cases he
  | _ => exact ⟨rfl, rfl⟩

theorem Claims.call (hi : Claims claimed c) (he : startEntry c.state a = true) :
    Claims claimed (c.call a) := by
  refine ⟨fun r => ?_, hi.exists_, fun r b hb haf => ?_⟩
  · rw [pending_call, (startEntry_not_claiming he).1]
    exact hi.token r
  · rcases pend_call.mp hb with hb | rfl
    · exact hi.after r b hb haf
    · rw [(startEntry_not_claiming he).2] at haf
      cases haf

theorem Claims.initial (publisher : Bool) (maxSess : Nat) :
    Claims (fun _ => false) (initialConfig publisher maxSess) :=
  ⟨fun r => Nat.zero_le 1, nofun, fun r b hb => absurd hb not_pend_nil⟩

theorem Claims.not_claiming (hi : Claims claimed c) (hr : claimed r = true) (hb : c.Pend b) :
    claiming r b = false := by
  have htok := hi.token r
  rw [hr, if_pos rfl] at htok
  exact pending_eq_zero.mp (by omega) b hb

end FlexAgentRuntime.AgentLoop
