import FlexAgentRuntime.Agent.Claims

/-!
A call that makes a receiver ends in one of two ways: it hands the receiver out,
or it fails and closes it.

* `fate`: the actions of the call up to its end;
* `Fate`: a receiver has one of them pending at most, and none once it has been
  handed out or closed by its failed call, which exclude each other.
-/

namespace FlexAgentRuntime.AgentLoop

open Interleaving Config List

/-- The call that made `r` closes it and returns an error. -/
def failing (r : RecvRef) : Op → Bool
  | .recv r' (.close .failed) => r' == r
  | _ => false

/-- The call that made `r`, up to its end. -/
def fate (r : RecvRef) (b : Op) : Bool := claiming r b || afterClaim r b || failing r b

/-- The receiver that is handed out in this step. -/
def handsOut (r : RecvRef) : Op → Bool
  | .ms _ (.handOut r') => r' == r
  | _ => false

variable {w : World} {a b : Op} {x : Choice} {o : Outcome World Op} {r : RecvRef} {m : MsRef}
  {caller : Caller}

theorem fate_iff : fate r b = true ↔
    claiming r b = true ∨ afterClaim r b = true ∨ failing r b = true := by
  simp [fate, or_assoc]

theorem failing_iff : failing r b = true ↔ b = .recv r (.close .failed) := by
  constructor
  · intro h
    unfold failing at h
    split at h
    · rw [eq_of_beq h]
    · cases h
  · rintro rfl
    exact beq_self_eq_true r

theorem fate_call : fate r (.call m caller cop) = (caller.receiver == some r) := by
  cases h : caller.receiver == some r <;> cases hp : cop.preclaim <;>
    simp [fate, claiming, afterClaim, failing, h, hp]

theorem Follows.failing_origin (hf : Follows w a b) (hb : failing r b = true) :
    ∃ m t cop, a = .call m (.service r t) cop := by
  cases failing_iff.mp hb
  cases hf with
  | callFailClose => exact ⟨_, _, _, rfl⟩
  | lookup hl => cases hl
  | run hn => cases hn

theorem Follows.fate_origin (hf : Follows w a b) (hb : fate r b = true) :
    fate r a = true ∨ MakesRecv a ∧ r = w.nRecvs := by
  rcases fate_iff.mp hb with hb | hb | hb
  · exact (hf.claiming_origin hb).imp_left fun h => fate_iff.mpr (.inl h)
  · refine .inl (fate_iff.mpr ?_)
    rcases hf.afterClaim_origin hb with h | h
    · exact .inr (.inl h)
    · exact .inl (claiming_of_claimedRecv h)
  · obtain ⟨m, t, cop, rfl⟩ := hf.failing_origin hb
    refine .inl ?_
    rw [fate_call]
    exact beq_self_eq_true (some r)

theorem receiver_in (hr : caller.receiver = some r) (hin : caller.In w m) : r < w.nRecvs := by
  cases caller with
  | service r' t =>
    cases hr
    exact hin.1.1
  | direct => cases hr

theorem fate_in (hb : fate r b = true) (hin : b.In w) : r < w.nRecvs := by
  rcases fate_iff.mp hb with hb | hb | hb
  · exact claiming_in hb hin
  · unfold afterClaim at hb
    split at hb
    · simp only [Bool.and_eq_true, beq_iff_eq] at hb
      exact receiver_in hb.1 hin.2
    · exact eq_of_beq hb ▸ hin.2.1
    · exact eq_of_beq hb ▸ hin.2.1
    · exact eq_of_beq hb ▸ hin.1
    · cases hb
  · cases failing_iff.mp hb
    exact hin.1

theorem fate_callFail : (callFail m err caller).countP (fate r) ≤ 1 := by
  cases caller with
  | service r' t =>
    refine (countP_cons_of_neg (by simp [fate, claiming, afterClaim, failing])).trans_le ?_
    rw [countP_cons]
    have : fate r (.svc (.ret m (some err))) = false := rfl
    simp [this]
    split <;> omega
  | direct => exact countP_singleton_le _

theorem fate_callOk : (callOk m caller).countP (fate r) ≤ 1 := by
  cases caller <;> exact countP_singleton_le _

theorem fate_emitChange : (emitChange m changed dst origin).countP (fate r) = 0 := by
  cases changed <;> rfl

theorem fate_hookOps {hook : Hook} : (hook.ops m r').countP (fate r) = 0 := by
  refine countP_eq_zero.mpr fun b hb hc => ?_
  rcases mem_hookOps.mp hb with ⟨ids, id, rfl, -, rfl⟩ | ⟨rfl, rfl⟩ <;> cases hc

theorem CallOp.Step.fate_count {cop : CallOp} {more : List Op}
    (hs : cop.Step m caller ag ag' more spawn) : more.countP (fate r) ≤ 1 := by
  cases hs with
  | claimRefused | unclaimed | driverPanic | failIdleFailed | continueFailIdle =>
    exact fate_callFail
  | driverOk | goRun => exact fate_callOk
  | failIdle =>
    rw [countP_append, fate_emitChange, Nat.zero_add]
    exact fate_callFail
  | transitioned =>
    rw [countP_append, fate_emitChange, Nat.zero_add,
      countP_cons_of_neg (by simp [fate, claiming, afterClaim, failing])]
    exact countP_singleton_le _
  | _ => exact countP_singleton_le _

theorem Step.fate_count (hs : Step x w a o) (ha : fate r a = true) :
    o.more.countP (fate r) + (if handsOut r a then 1 else 0) + (if failing r a then 1 else 0) ≤
      1 := by
  have hone : ∀ {b : Op}, [b].countP (fate r) ≤ 1 := countP_singleton_le _
  cases hs with
  | call hs => exact hs.fate_count
  | @agent m aop _ _ hs =>
    cases hs with
    | readState => exact hone
    | refused hctl => cases aop <;> first | cases ha | cases hctl
    | _ => cases ha
  | bus hs =>
    cases hs with
    | subscribeTracker | subscribeTurn | subscribeStream => exact hone
    | _ => cases ha
  | ms hs =>
    cases hs with
    | setTurnDone | readStarted | setStarted | addStream => exact hone
    | handOut =>
      simp only [countP_nil, failing, Bool.false_eq_true, if_false]
      split <;> omega
    | _ => cases ha
  | recv hs =>
    cases hs with
    | hookRun =>
      rw [countP_append, fate_hookOps, Nat.zero_add]
      exact hone
    | hookKept => exact hone
    | close =>
      have hnone : ∀ {hooks : List Hook} {m : MsRef} {r' : RecvRef},
          (hooks.flatMap (Hook.ops m r') ++ [Op.recv r' .hooksDone]).countP (fate r) = 0 := by
        intro hooks m r'
        rw [countP_append, countP_flatMap]
        simp [Function.comp_def, fate_hookOps, fate, claiming, afterClaim, failing]
      rw [hnone]
      simp only [handsOut, Bool.false_eq_true, if_false]
      split <;> omega
    | closeAgain =>
      simp only [countP_nil, handsOut, Bool.false_eq_true, if_false]
      split <;> omega
    | _ => cases ha
  | _ => cases ha

/-! ## The invariant -/

structure Fate (handed failed : RecvRef → Bool) (c : Config World Op) : Prop where
  token : ∀ r, c.pending (fate r) + ((if handed r then 1 else 0) + if failed r then 1 else 0) ≤ 1
  exists_ : ∀ r, handed r = true ∨ failed r = true → r < c.state.nRecvs

variable {handed failed : RecvRef → Bool} {c : Config World Op} {i : Nat} {rest : List Op}

theorem fate_of_handsOut (h : handsOut r a = true) : fate r a = true := by
  unfold handsOut at h
  split at h
  · simp [fate, afterClaim, eq_of_beq h]
  · cases h

theorem Fate.step (hi : Fate handed failed c) (hc : Scoped c)
    (ht : c.At i a rest) (hs : Step x c.state a o) :
    Fate (fun r => handed r || handsOut r a) (fun r => failed r || failing r a)
      (c.advance i rest o) := by
  have hfate : ∀ {r}, handsOut r a = true ∨ failing r a = true → fate r a = true := by
    intro r h
    rcases h with h | h
    · exact fate_of_handsOut h
    · exact fate_iff.mpr (.inr (.inr h))
  refine ⟨fun r => ?_, fun r hr => ?_⟩
  · refine recvToken_step hc ht hs (hi.token r) (fun _ => fate_in)
      (fun _ => Follows.fate_origin) (fun _ _ _ => rfl) (fun ha hnot => ?_) (fun ha => ?_)
      fun hr => ?_
    · -- neither has happened yet
      have := hs.fate_count ha
      simp only [Nat.add_eq_zero_iff, ite_eq_right_iff, Nat.one_ne_zero, imp_false,
        Bool.not_eq_true] at hnot
      simp only [hnot, Bool.false_or]
      omega
    · have hno : ∀ {p : Bool}, (p = true → fate r a = true) → p = false := by
        intro p hp
        cases p
        · rfl
        · rw [hp rfl] at ha
          cases ha
      rw [hno fun h => hfate (.inl h), hno fun h => hfate (.inr h), Bool.or_false, Bool.or_false]
    · have hnot : ¬ (handed r = true ∨ failed r = true) :=
        fun h => absurd (hi.exists_ r h) (hr ▸ lt_irrefl r)
      simp only [not_or] at hnot
      simp [hnot]
  · have hlt : r < c.state.nRecvs := by
      simp only [Bool.or_eq_true] at hr
      rcases hr with (hr | hr) | (hr | hr)
      · exact hi.exists_ r (.inl hr)
      · exact fate_in (hfate (.inl hr)) (hc.ops a (pend_head ht))
      · exact hi.exists_ r (.inr hr)
      · exact fate_in (hfate (.inr hr)) (hc.ops a (pend_head ht))
    exact hlt.trans_le hs.extends.recvs

theorem Fate.call (hi : Fate handed failed c) (he : startEntry c.state a = true) :
    Fate handed failed (c.call a) := by
  refine ⟨fun r => ?_, hi.exists_⟩
  have hnot : fate r a = false := by
    obtain ⟨h, h'⟩ := startEntry_not_claiming (r := r) he
    have hf : failing r a = false := by
      by_contra hf
      cases failing_iff.mp (by simpa using hf)
      cases he
    simp [fate, h, h', hf]
  rw [pending_call, hnot]
  exact hi.token r

theorem Fate.initial (publisher : Bool) (maxSess : Nat) :
    Fate (fun _ => false) (fun _ => false) (initialConfig publisher maxSess) :=
  ⟨fun _ => Nat.zero_le 1, fun _ h => h.elim nofun nofun⟩

theorem Fate.not_failing (hi : Fate handed failed c) (hr : handed r = true) :
    failed r = false ∧ ¬ c.Pend (.recv r (.close .failed)) := by
  have hone := hi.token r
  rw [hr, if_pos rfl] at hone
  refine ⟨?_, fun hp => ?_⟩
  · cases hf : failed r
    · rfl
    · rw [hf, if_pos rfl] at hone
      omega
  · have hpos : 0 < c.pending (fate r) := pending_pos.mpr
      ⟨_, hp, fate_iff.mpr (.inr (.inr (failing_iff.mpr rfl)))⟩
    omega

end FlexAgentRuntime.AgentLoop
