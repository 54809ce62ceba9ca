import FlexAgentRuntime.Agent.Claims
import FlexAgentRuntime.Agent.Teardown

/-!
Wait group accounting: every `doneTurn` closure runs `s.wg.Done()` once, and by
the end of a teardown all closures of the session have.

A closure that no event completes is completed by the teardown, which finds it
in the single slot `ms.turnDone`. A later call overwrites the slot, even when it
is rejected, and whichever closure runs clears it. A closure that was in the slot
is lost then.

* `Step.openTurns_balance`: the wait group counts the closures that have not run;
* `TurnsOk.kept_step`: a closure that has not run is about to enter the slot, in
  it, or being completed, as long as the slot is only written when its closure
  has started;
* `turn_accounting_exact`: then adds and dones agree after a teardown;
* `busy_call_loses_closure`: a run in which they do not.
-/

namespace FlexAgentRuntime.AgentLoop

open Interleaving Config List Function

/-! ## History and condition -/

/-- The session for which a step calls `s.wg.Add(1)`. -/
def addsTurn : Op → Option MsRef
  | .svc (.newTurn m _) => some m
  | _ => none

/-- The closure for which a step calls `s.wg.Done()`. -/
def donesTurn (w : World) : Op → Option TurnRef
  | .turn t (.doneTurn _) => if (w.turns t).once = .idle then some t else none
  | _ => none

/-- Calls of `Add` and `Done` per session, and of `Done` per closure. -/
structure TurnHistory where
  tear : Teardowns
  adds : MsRef → Nat
  dones : MsRef → Nat
  ran : TurnRef → Nat

namespace TurnHistory

def start : TurnHistory := ⟨.start, fun _ => 0, fun _ => 0, fun _ => 0⟩

def note (h : TurnHistory) (w : World) (a : Op) (x : Choice) : TurnHistory where
  tear := h.tear.note w a x
  adds m := h.adds m + if addsTurn a = some m then 1 else 0
  dones m := h.dones m + if (donesTurn w a).map (fun t => (w.turns t).ms) = some m then 1 else 0
  ran t := h.ran t + if donesTurn w a = some t then 1 else 0

end TurnHistory

def watchTurns (meets : TurnHistory → Config World Op → Op → Choice → Bool) :
    Monitor World Op Choice TurnHistory :=
  ⟨fun h _ _ => h, fun h c a x => h.note c.state a x, meets⟩

/-- The slot of `m` is empty, or its closure has started. -/
def slotStarted (w : World) (m : MsRef) : Bool :=
  match (w.managed m).turnDone with
  | none => true
  | some t => (w.turns t).once != .idle

/-- `setTurnDone` and `clearTurnDone` do not write over a closure that has not
started, and drivers do not refuse to stop. -/
def keepsClosures (c : Config World Op) : Op → Choice → Bool
  | .ms m (.setTurnDone _ _ _), _ | .ms m (.clearTurnDone _), _ => slotStarted c.state m
  | a, x => stopsCleanly c.state a x

/-! ## Closures that have not run -/

def idleTurn (w : World) (p : MsRef → Bool) (t : TurnRef) : Bool :=
  p (w.turns t).ms && (w.turns t).once == .idle

/-- The number of closures, of the sessions `p`, that have not run. -/
def openTurns (w : World) (p : MsRef → Bool) : Nat :=
  (List.range w.nTurns).countP (idleTurn w p)

theorem countP_range_congr (h : ∀ t < n, q t = p t) :
    (List.range n).countP q = (List.range n).countP p :=
  countP_congr fun t ht => by rw [h t (mem_range.mp ht)]

theorem countP_range_flip (ht : t < n) (hq : q t = false) (hne : ∀ s < n, s ≠ t → q s = p s) :
    (List.range n).countP q + (if p t then 1 else 0) = (List.range n).countP p := by
  induction n with
  | zero => exact absurd ht (Nat.not_lt_zero t)
  | succ n ih =>
    simp only [range_succ, countP_append, countP_singleton]
    by_cases htn : t = n
    · subst htn
      rw [hq, countP_range_congr fun s hs => hne s (hs.trans (Nat.lt_succ_self t)) (ne_of_lt hs)]
      simp
    · have hlt : t < n := by omega
      have := ih hlt fun s hs hst => hne s (by omega) hst
      rw [hne n (Nat.lt_succ_self n) (Ne.symm htn)]
      omega

variable {publisher : Bool} {maxSess i : Nat} {h : TurnHistory} {c : Config World Op} {w : World}
  {a b : Op} {x : Choice} {o : Outcome World Op} {t : TurnRef} {rest : List Op}

theorem Step.turns_frame (hs : Step x w a o) (ht : t < w.nTurns)
    (hne : ∀ top, a ≠ .turn t top) : o.state.turns t = w.turns t := by
  cases hs with
  | @turn t' _ _ _ hs =>
    have htt : t ≠ t' := fun he => hne _ (by rw [he])
    cases hs with
    | done | onceDone => exact update_of_ne htt _ _
    | doneAgain => rfl
  | svc hs =>
    cases hs with
    | newTurn => exact update_of_ne (ne_of_lt ht) _ _
    | closeDelete =>
      rw [deleteAll_eq]
    | _ => rfl
  | _ => rfl

/-- What a step does to the number of open closures. -/
structure Balance (w : World) (a : Op) (w' : World) : Prop where
  turns : ∀ p : MsRef → Bool,
    openTurns w' p + ((donesTurn w a).elim 0 fun t => if p (w.turns t).ms then 1 else 0) =
      openTurns w p + ((addsTurn a).elim 0 fun m => if p m then 1 else 0)
  wg : w'.wg + ((donesTurn w a).elim 0 fun _ => 1) = w.wg + ((addsTurn a).elim 0 fun _ => 1)

theorem Balance.same (hd : donesTurn w a = none) (ha : addsTurn a = none)
    (hn : w'.nTurns = w.nTurns) (ht : w'.turns = w.turns) (hw : w'.wg = w.wg) : Balance w a w' := by
  refine ⟨fun p => ?_, by rw [hd, ha, hw]⟩
  have hidle : idleTurn w' p = idleTurn w p := funext fun t => by rw [idleTurn, idleTurn, ht]
  simp only [openTurns, hd, ha, hn, hidle, Option.elim_none]

theorem openTurns_setOnce (p : MsRef → Bool) (wg : Int) (ht : t < w.nTurns) (honce : once ≠ .idle) :
    openTurns { w with
        wg := wg
        turns := update w.turns t { w.turns t with once := once } } p +
      (if idleTurn w p t then 1 else 0) = openTurns w p := by
  refine countP_range_flip ht ?_ fun s _ hst => ?_
  · simp [idleTurn, honce]
  · simp [idleTurn, hst]

theorem openTurns_newTurn (w : World) (m : MsRef) (p : MsRef → Bool) :
    openTurns (w.newTurn m) p = openTurns w p + if p m then 1 else 0 := by
  show (List.range (w.nTurns + 1)).countP _ = _
  rw [range_succ, countP_append, countP_singleton,
    countP_range_congr (p := idleTurn w p) fun s hs => by
      simp [idleTurn, World.newTurn, ne_of_lt hs]]
  simp [openTurns, idleTurn, World.newTurn]

theorem Step.openTurns_balance (hs : Step x w a o) (hin : a.In w)
    (hdone : ∀ t, a = .turn t .onceDone → (w.turns t).once ≠ .idle) : Balance w a o.state := by
  cases hs with
  | turn hs =>
    cases hs with
    | done hi =>
      refine ⟨fun p => ?_, ?_⟩
      · have := openTurns_setOnce p (w.wg - 1) hin.1 (show Once.running ≠ .idle from nofun)
        simpa [donesTurn, addsTurn, hi, idleTurn] using this
      · simp [donesTurn, addsTurn, hi]
    | doneAgain hd => exact .same (by simp [donesTurn, hd]) rfl rfl rfl rfl
    | onceDone =>
      refine ⟨fun p => ?_, rfl⟩
      have := openTurns_setOnce p w.wg hin.1 (show Once.done ≠ .idle from nofun)
      simpa [donesTurn, addsTurn, idleTurn, hdone _ rfl] using this
  | svc hs =>
    cases hs with
    | newTurn => exact ⟨openTurns_newTurn w _, by simp [donesTurn, addsTurn, World.newTurn]⟩
    | refused hc | created hc | returned hc =>
      exact .same rfl (by cases ‹SvcOp› <;> first | rfl | cases hc) rfl rfl rfl
    | found hl => exact .same rfl (by cases hl <;> rfl) rfl rfl rfl
    | closeDelete =>
      rw [deleteAll_eq]
      exact .same rfl rfl rfl rfl rfl
    | _ => exact .same rfl rfl rfl rfl rfl
  | _ => exact .same rfl rfl rfl rfl rfl

theorem donesTurn_eq_some (hd : donesTurn w a = some t) :
    (∃ call, a = .turn t (.doneTurn call)) ∧ (w.turns t).once = .idle := by
  unfold donesTurn at hd
  split at hd
  · split at hd
    · cases hd
      exact ⟨⟨_, rfl⟩, ‹_›⟩
    · cases hd
  · cases hd

theorem Step.idle_iff (hs : Step x w a o) (ht : t < w.nTurns)
    (hdone : a = .turn t .onceDone → (w.turns t).once ≠ .idle) :
    (o.state.turns t).once = .idle ↔ (w.turns t).once = .idle ∧ donesTurn w a ≠ some t := by
  by_cases ha : ∃ top, a = .turn t top
  · obtain ⟨top, rfl⟩ := ha
    cases hs with
    | turn hs =>
      cases hs with
      | done hi => simp [donesTurn, hi]
      | doneAgain hd => simp [donesTurn, hd]
      | onceDone => simp [donesTurn, hdone rfl]
  · have hne : donesTurn w a ≠ some t := fun hd => by
      obtain ⟨⟨call, rfl⟩, -⟩ := donesTurn_eq_some hd
      exact ha ⟨_, rfl⟩
    rw [hs.turns_frame ht fun top he => ha ⟨top, he⟩]
    exact (and_iff_left hne).symm

theorem donesTurn_lt (hin : a.In w) (hd : donesTurn w a = some t) : t < w.nTurns := by
  obtain ⟨⟨call, rfl⟩, -⟩ := donesTurn_eq_some hd
  exact hin.1

/-! ## Where a closure that has not run is -/

/-- The call that made `t` has not claimed the agent yet, or is completing `t`. -/
def settling (t : TurnRef) : Op → Bool
  | .ms _ (.setTurnDone _ t' _) | .bus _ (.subscribeTracker _ t' _)
  | .bus _ (.subscribeTurn _ t' _ _) | .recv _ (.setCloseHook _ (.turn t' _))
  | .ms _ (.addStream _ (.turn t' _)) | .ms _ (.readStarted _ t' _)
  | .turn t' (.doneTurn (some _)) => t' == t
  | .call _ (.service _ t') cop => t' == t && cop.preclaim
  | _ => false

/-- An agent that has exited refuses the claim, and the call completes its closure. -/
theorem Step.settling_next (hs : Step x w a o) (hin : a.In w) (ha : settling t a = true)
    (hexit : (w.agents (w.turns t).ms).state = .exited) (hidle : (o.state.turns t).once = .idle) :
    ∃ b ∈ o.more, settling t b = true := by
  cases hs with
  | @call m caller _ _ _ _ hs =>
    cases caller with
    | direct => cases ha
    | service r t' =>
      obtain ⟨htt, -⟩ := Bool.and_eq_true_iff.mp ha
      cases eq_of_beq htt
      rw [hin.2.2.2.2] at hexit
      cases hs with
      | snapshot => exact ⟨_, mem_singleton_self _, ha⟩
      | claimRefused => exact ⟨_, mem_cons_self .., beq_self_eq_true _⟩
      | startClaimed hst | continueClaimed hst => exact absurd hexit hst
      | _ => simp [settling, CallOp.preclaim] at ha
  | bus hs =>
    cases hs with
    | subscribeTracker | subscribeTurn => exact ⟨_, mem_singleton_self _, ha⟩
    | _ => cases ha
  | ms hs =>
    cases hs with
    | setTurnDone => exact ⟨_, mem_singleton_self _, ha⟩
    | readStarted =>
      exact ⟨_, mem_singleton_self _, by simpa [settling, CallOp.preclaim] using ha⟩
    | @addStream _ setup =>
      cases setup with
      | turn t' kick => exact ⟨_, mem_singleton_self _, ha⟩
      | stream => cases ha
    | _ => cases ha
  | @recv r _ _ _ hs =>
    have hnext : ∀ hook t' kick, t' = t →
        settling t (Hook.next (w.recvs r).owner r (.turn t' kick) hook) = true := by
      rintro hook t' kick rfl
      cases hook with
      | unsubscribe ids => exact beq_self_eq_true _
      | removeStream =>
        cases kick <;> simp [Hook.next, Setup.finish, Kick.op, settling, CallOp.preclaim]
    cases hs with
    | @hookRun _ hook setup _ =>
      cases setup with
      | turn t' kick =>
        exact ⟨_, mem_append_right _ (mem_singleton_self _), hnext _ _ _ (eq_of_beq ha)⟩
      | stream => cases ha
    | @hookKept _ hook setup _ =>
      cases setup with
      | turn t' kick => exact ⟨_, mem_singleton_self _, hnext _ _ _ (eq_of_beq ha)⟩
      | stream => cases ha
    | _ => cases ha
  | @turn t' _ _ _ hs =>
    cases hs with
    | @done call hi =>
      cases call with
      | none => cases ha
      | some m =>
        cases eq_of_beq ha
        simp at hidle
    | @doneAgain call hd =>
      cases call with
      | none => cases ha
      | some m =>
        cases eq_of_beq ha
        rw [hidle] at hd
        cases hd
    | onceDone => cases ha
  | _ => cases ha

/-! ## The invariant -/

/-- The closure `t` has been entered. -/
def afterDone (t : TurnRef) : Op → Bool
  | .ms _ (.clearTurnDone t') | .turn t' .onceDone => t' == t
  | _ => false

/-- A teardown or the call that made `t` will run it. -/
inductive Kept (c : Config World Op) (t : TurnRef) : Prop where
  | entering {m r kick} : c.Pend (.ms m (.setTurnDone r t kick)) → Kept c t
  | inSlot : (c.state.managed (c.state.turns t).ms).turnDone = some t → Kept c t
  | completing {m} : c.Pend (.turn t (.doneTurn (some m))) → Kept c t

structure TurnsOk (h : TurnHistory) (c : Config World Op) : Prop where
  started : ∀ t b, c.Pend b → afterDone t b = true → (c.state.turns t).once ≠ .idle
  ran : ∀ t < c.state.nTurns, h.ran t = if (c.state.turns t).once = .idle then 0 else 1
  unmade : ∀ t, ¬ t < c.state.nTurns → h.ran t = 0
  adds : ∀ m, h.adds m = h.dones m + openTurns c.state (· == m)
  wg : c.state.wg = openTurns c.state fun _ => true
  kept : ∀ t < c.state.nTurns, (c.state.turns t).once = .idle → Kept c t
  late : ∀ t < c.state.nTurns, (c.state.turns t).once = .idle →
    (c.state.managed (c.state.turns t).ms).turnDone = some t →
    h.tear.completed (c.state.turns t).ms = true → ∃ b, c.Pend b ∧ settling t b = true

theorem afterDone_lt (hb : afterDone t b = true) (hin : b.In w) : t < w.nTurns := by
  unfold afterDone at hb
  split at hb
  · exact eq_of_beq hb ▸ hin.2.1
  · exact eq_of_beq hb ▸ hin.1
  · cases hb

theorem TurnsOk.not_idle_of_onceDone (hi : TurnsOk h c) (ht : c.At i a rest)
    (ha : a = .turn t .onceDone) : (c.state.turns t).once ≠ .idle :=
  hi.started t a (pend_head ht) (ha ▸ beq_self_eq_true t)

theorem TurnsOk.idle_iff (hi : TurnsOk h c) (ht : c.At i a rest)
    (hs : Step x c.state a o) (htn : t < c.state.nTurns) :
    (o.state.turns t).once = .idle ↔
      (c.state.turns t).once = .idle ∧ donesTurn c.state a ≠ some t :=
  hs.idle_iff htn (hi.not_idle_of_onceDone ht)

theorem TurnsOk.started_step (hi : TurnsOk h c) (hc : Scoped c)
    (ht : c.At i a rest) (hs : Step x c.state a o)
    (hb : (c.advance i rest o).Pend b) (haf : afterDone t b = true) :
    (o.state.turns t).once ≠ .idle := by
  have hold : ∀ b, c.Pend b → afterDone t b = true → (o.state.turns t).once ≠ .idle := by
    intro b hb haf hidle
    exact hi.started t b hb haf ((hi.idle_iff ht hs (afterDone_lt haf (hc.ops b hb))).mp hidle).1
  rcases pend_cases ht hs hb with hb | hf | ⟨_, _, _, _, -, rfl | rfl⟩
  · exact hold b hb haf
  · cases hf with
    | onceDone => exact hold _ (pend_head ht) haf
    | @clearTurnDone t' call hidle =>
      cases eq_of_beq haf
      intro hidle'
      refine ((hi.idle_iff ht hs (hc.ops _ (pend_head ht)).1).mp hidle').2 ?_
      simp [donesTurn, hidle]
    | lookup hl => cases hl <;> cases haf
    | run hn => cases hn <;> cases haf
    | _ => cases haf
  · cases haf
  · cases haf

theorem Step.turns_fresh (hs : Step x w a o) (ht : ¬ t < w.nTurns) (ht' : t < o.state.nTurns) :
    (o.state.turns t).once = .idle ∧
      ∃ m r kick, .ms m (.setTurnDone r t kick) ∈ o.more := by
  cases hs with
  | turn hs => cases hs <;> exact absurd ht' ht
  | svc hs =>
    cases hs with
    | newTurn =>
      have he : t = w.nTurns := Nat.eq_of_lt_succ_of_not_lt ht' ht
      subst he
      exact ⟨by simp [World.newTurn], _, _, _, mem_singleton_self _⟩
    | closeDelete =>
      rw [deleteAll_eq] at ht'
      exact absurd ht' ht
    | _ => exact absurd ht' ht
  | _ => exact absurd ht' ht

section

variable (hc : Scoped c) (ht : c.At i a rest) (hs : Step x c.state a o)

include hc ht hs

theorem TurnsOk.ran_step (hi : TurnsOk h c) (htn : t < o.state.nTurns) :
    (h.note c.state a x).ran t = if (o.state.turns t).once = .idle then 0 else 1 := by
  show h.ran t + (if donesTurn c.state a = some t then 1 else 0) = _
  have hina := hc.ops a (pend_head ht)
  by_cases hold : t < c.state.nTurns
  · have hiff := hi.idle_iff ht hs hold
    rw [hi.ran t hold]
    by_cases hd : donesTurn c.state a = some t
    · rw [if_pos hd, if_pos (donesTurn_eq_some hd).2, if_neg fun hn => (hiff.mp hn).2 hd]
    · simp only [hiff, hd, ne_eq, not_false_eq_true, and_true, if_false, Nat.add_zero]
  · have hd : donesTurn c.state a ≠ some t := fun hd => hold (donesTurn_lt hina hd)
    rw [hi.unmade t hold, if_neg hd, if_pos (hs.turns_fresh hold htn).1]

theorem TurnsOk.balance (hi : TurnsOk h c) : Balance c.state a o.state :=
  hs.openTurns_balance (hc.ops a (pend_head ht)) fun _ => hi.not_idle_of_onceDone ht

theorem TurnsOk.adds_step (hi : TurnsOk h c) (m : MsRef) : (h.note c.state a x).adds m =
      (h.note c.state a x).dones m + openTurns o.state (· == m) := by
  have hbal := (hi.balance hc ht hs).turns (· == m)
  have hadds := hi.adds m
  simp only [TurnHistory.note]
  generalize donesTurn c.state a = done at hbal ⊢
  generalize addsTurn a = add at hbal ⊢
  cases done <;> cases add <;>
    simp only [Option.elim_none, Option.elim_some, Option.map_none, Option.map_some, beq_iff_eq,
      Option.some.injEq, reduceCtorEq, if_false] at hbal ⊢ <;> omega

theorem TurnsOk.wg_step (hi : TurnsOk h c) : o.state.wg = openTurns o.state fun _ => true := by
  have hbal := hi.balance hc ht hs
  have hturns := hbal.turns fun _ => true
  have hwg := hbal.wg
  have hold := hi.wg
  generalize donesTurn c.state a = done at hturns hwg
  generalize addsTurn a = add at hturns hwg
  cases done <;> cases add <;>
    simp only [Option.elim_none, Option.elim_some, if_true] at hturns hwg <;> omega

end

theorem kept_of_slot (hc : Scoped c) (ht : c.At i a rest)
    (hs : Step x c.state a o) (hmeets : keepsClosures c a x = true) (htn : t < c.state.nTurns)
    (hidle : (c.state.turns t).once = .idle)
    (hslot : (c.state.managed (c.state.turns t).ms).turnDone = some t) :
    Kept (c.advance i rest o) t := by
  have hms := hs.extends.ms t htn
  have hin : ∀ {s : ManagedSession}, o.state.managed (c.state.turns t).ms = s →
      s.turnDone = some t → Kept (c.advance i rest o) t := by
    intro s he hsl
    refine .inSlot ?_
    show (o.state.managed (o.state.turns t).ms).turnDone = some t
    rw [hms, he, hsl]
  rcases hs.managed_cases (hc.world.turns t htn) with he | ⟨mop, s', more, rfl, he, hmore, hstep⟩ |
    ⟨-, he⟩
  · exact hin he hslot
  · have htaken : ∀ l, .turn t (.doneTurn (some (c.state.turns t).ms)) ∈
        takenTurn (c.state.turns t).ms (c.state.managed (c.state.turns t).ms).turnDone ++ l := by
      intro l
      rw [hslot]
      exact mem_cons_self ..
    cases hstep with
    | setTurnDone | clearTurnDone => simp [keepsClosures, slotStarted, hslot, hidle] at hmeets
    | completeActiveTurn => exact .completing (pend_more ht (hmore ▸ htaken _))
    | completeAgain =>
      have := htaken []
      rw [append_nil] at this
      exact .completing (pend_more ht (hmore ▸ this))
    | _ => exact hin he hslot
  · exact hin he hslot

/-- As long as the slot is only written when its closure has started, a closure
that has not run is not lost. -/
theorem TurnsOk.kept_step (hi : TurnsOk h c) (hc : Scoped c)
    (ht : c.At i a rest) (hs : Step x c.state a o)
    (hmeets : keepsClosures c a x = true) (htn : t < o.state.nTurns)
    (hidle : (o.state.turns t).once = .idle) : Kept (c.advance i rest o) t := by
  by_cases hold : t < c.state.nTurns
  · obtain ⟨hidle, hnot⟩ := (hi.idle_iff ht hs hold).mp hidle
    cases hi.kept t hold hidle with
    | @entering m r kick hb =>
      by_cases he : .ms m (.setTurnDone r t kick) = a
      · subst he
        refine .inSlot ?_
        cases hs with
        | ms hs =>
          cases hs with
          | setTurnDone =>
            have hms : (c.state.turns t).ms = m := (hc.ops _ hb).2.2.2.2
            show ((c.state.setManaged m _).managed (c.state.turns t).ms).turnDone = some t
            rw [hms]
            simp [World.setManaged]
      · exact .entering (hb.advance ht he)
    | inSlot hslot => exact kept_of_slot hc ht hs hmeets hold hidle hslot
    | @completing m hb =>
      by_cases he : .turn t (.doneTurn (some m)) = a
      · subst he
        exact absurd (by simp [donesTurn, hidle]) hnot
      · exact .completing (hb.advance ht he)
  · obtain ⟨-, m, r, kick, hb⟩ := hs.turns_fresh hold htn
    exact .entering (pend_more ht hb)

theorem Step.slot_origin (hs : Step x w a o) (hm : m < w.nManaged)
    (hslot : (o.state.managed m).turnDone = some t) :
    ((w.managed m).turnDone = some t ∧ ∀ td, a ≠ .ms m (.completeActiveTurn td)) ∨
      ∃ b ∈ o.more, settling t b = true := by
  have hkept : ∀ mop, a = .ms m mop → (∀ td, mop ≠ .completeActiveTurn td) →
      ∀ td, a ≠ .ms m (.completeActiveTurn td) := by
    rintro mop rfl hne td he
    cases he
    exact hne td rfl
  rcases hs.managed_cases hm with he | ⟨mop, s', more, rfl, he, hmore, hstep⟩ | ⟨hmark, he⟩
  · by_cases ha : ∃ td, a = .ms m (.completeActiveTurn td)
    · obtain ⟨td, rfl⟩ := ha
      cases hs with
      | ms hs => cases hs <;> simp [World.setManaged] at hslot
    · rw [he] at hslot
      exact .inl ⟨hslot, fun td hat => ha ⟨td, hat⟩⟩
  · rw [he] at hslot
    cases hstep with
    | setTurnDone =>
      cases hslot
      exact .inr ⟨_, hmore ▸ mem_singleton_self _, beq_self_eq_true _⟩
    | clearTurnDone | completeActiveTurn | completeAgain => cases hslot
    | _ => exact .inl ⟨hslot, hkept _ rfl fun _ he => by cases he⟩
  · rw [he] at hslot
    refine .inl ⟨hslot, ?_⟩
    rintro td rfl
    cases hmark

section

variable (hc : Scoped c) (htear : Tearing h.tear c) (hfail : ∀ m, h.tear.failed m = false)
  (ht : c.At i a rest) (hs : Step x c.state a o)

include hc htear hfail ht hs

/-- After `completeActiveTurn` the slot is filled by calls only that are refused. -/
theorem TurnsOk.late_step (hi : TurnsOk h c) (htn : t < o.state.nTurns)
    (hidle : (o.state.turns t).once = .idle)
    (hslot : (o.state.managed (o.state.turns t).ms).turnDone = some t)
    (hcomp : (h.tear.note c.state a x).completed (o.state.turns t).ms = true) :
    ∃ b, (c.advance i rest o).Pend b ∧ settling t b = true := by
  have hmore : (∃ b ∈ o.more, settling t b = true) →
      ∃ b, (c.advance i rest o).Pend b ∧ settling t b = true :=
    fun ⟨b, hb, hset⟩ => ⟨b, pend_more ht hb, hset⟩
  by_cases hold : t < c.state.nTurns
  · rw [hs.extends.ms t hold] at hslot hcomp
    rcases hs.slot_origin (hc.world.turns t hold) hslot with ⟨hslot, hne⟩ | hset
    · have hdone : h.tear.completed (c.state.turns t).ms = true := by
        rcases Teardowns.completed_note hcomp with hcomp | ⟨td, he⟩
        · exact hcomp
        · exact absurd he (hne td)
      obtain ⟨b, hb, hset⟩ := hi.late t hold ((hi.idle_iff ht hs hold).mp hidle).1 hslot hdone
      by_cases he : b = a
      · subst he
        have hexit : (c.state.agents (c.state.turns t).ms).state = .exited :=
          (htear.completed _ hdone).2.2.resolve_right (by simp [hfail])
        exact hmore (hs.settling_next (hc.ops b hb) hset hexit hidle)
      · exact ⟨b, hb.advance ht he, hset⟩
    · exact hmore hset
  · obtain ⟨-, m, r, kick, hb⟩ := hs.turns_fresh hold htn
    exact hmore ⟨_, hb, beq_self_eq_true t⟩

theorem TurnsOk.step (hi : TurnsOk h c) (hmeets : keepsClosures c a x = true) :
    TurnsOk (h.note c.state a x) (c.advance i rest o) where
  started _ _ hb haf := hi.started_step hc ht hs hb haf
  ran _ htn := hi.ran_step hc ht hs htn
  unmade t htn := by
    have hold : ¬ t < c.state.nTurns := fun hlt => htn (hlt.trans_le hs.extends.turns)
    have hd : donesTurn c.state a ≠ some t :=
      fun hd => hold (donesTurn_lt (hc.ops a (pend_head ht)) hd)
    show h.ran t + _ = 0
    rw [hi.unmade t hold, if_neg hd]
  adds := hi.adds_step hc ht hs
  wg := hi.wg_step hc ht hs
  kept _ htn hidle := hi.kept_step hc ht hs hmeets htn hidle
  late _ htn hidle hslot hcomp := hi.late_step hc htear hfail ht hs htn hidle hslot hcomp

end

theorem TurnsOk.call (hi : TurnsOk h c) (he : startEntry c.state a = true) :
    TurnsOk h (c.call a) where
  started t b hb haf := by
    rcases pend_call.mp hb with hb | rfl
    · exact hi.started t b hb haf
    · cases b with
      | ms m mop | turn t' top => cases he
      | _ => cases haf
  ran := hi.ran
  unmade := hi.unmade
  adds := hi.adds
  wg := hi.wg
  kept t htn hidle := by
    cases hi.kept t htn hidle with
    | entering hb => exact .entering (pend_call.mpr (.inl hb))
    | inSlot hslot => exact .inSlot hslot
    | completing hb => exact .completing (pend_call.mpr (.inl hb))
  late t htn hidle hslot hcomp := by
    obtain ⟨b, hb, hset⟩ := hi.late t htn hidle hslot hcomp
    exact ⟨b, pend_call.mpr (.inl hb), hset⟩

theorem TurnsOk.initial (publisher : Bool) (maxSess : Nat) :
    TurnsOk .start (initialConfig publisher maxSess) :=
  ⟨fun t b hb => absurd hb not_pend_nil, nofun, fun _ _ => rfl, fun _ => rfl, rfl, nofun, nofun⟩

/-! ## Whole runs -/

theorem stopsCleanly_of_keepsClosures (hm : keepsClosures c a x = true) :
    stopsCleanly c.state a x = true := by
  unfold keepsClosures at hm
  split at hm
  · rfl
  · rfl
  · exact hm

theorem Reach.turns_tear
    (hr : Reach (machine startEntry) (watchTurns fun _ => keepsClosures) .start
      (initialConfig publisher maxSess) h c) :
    Reach (machine startEntry) (watchTeardown fun _ c a x => stopsCleanly c.state a x) .start
      (initialConfig publisher maxSess) h.tear c :=
  hr.project TurnHistory.tear fun _ _ _ _ => stopsCleanly_of_keepsClosures

theorem Reach.turnsOk
    (hr : Reach (machine startEntry) (watchTurns fun _ => keepsClosures) .start
      (initialConfig publisher maxSess) h c) : TurnsOk h c := by
  refine hr.invariant_of_reach TurnsOk (TurnsOk.initial publisher maxSess) ?_ ?_
  · intro h c a _ hi he
    exact hi.call he
  · intro h c i a rest x o hr hi ht hx hm
    have htr := Reach.turns_tear hr
    exact hi.step (Reach.scoped hr) (Reach.tearing htr)
      (Reach.not_failed htr) ht (step_of_exec hx) hm

/-- After the teardown of a session has returned and with no call on it in
flight, none of its closures is left. -/
theorem TurnsOk.not_idle (hi : TurnsOk h c) (hc : Scoped c) (htear : Tearing h.tear c)
    (hret : h.tear.returned m = true) (hidle : c.pending (callOn c.state m) = 0)
    (htm : c.state.HasTurn m t) : (c.state.turns t).once ≠ .idle := by
  intro hopen
  obtain ⟨htn, hms⟩ := htm
  have hno := pending_eq_zero.mp hidle
  have hnot : ∀ b, c.Pend b → settling t b = true → False := by
    intro b hb hset
    have hin := hc.ops b hb
    have hcall : callOn c.state m b = true := by
      unfold settling at hset
      split at hset
      all_goals first | cases eq_of_beq hset | skip
      · simp [callOn, ← hms, hin.2.2.2.2]
      · simp [callOn, ← hms, hin.2.2.2.2]
      · simp [callOn, ← hms, hin.2.2.2.2]
      · simp [callOn, ← hms, hin.2.2.2.2.2]
      · simp [callOn, ← hms, hin.2.2.2.2]
      · simp [callOn, ← hms, hin.2.2.2.2]
      · simp [callOn, ← hms, hin.2.2 _ rfl]
      · cases eq_of_beq (Bool.and_eq_true_iff.mp hset).1
        simp [callOn, ← hms, hin.2.2.2.2]
      · cases hset
    rw [hno b hb] at hcall
    cases hcall
  cases hi.kept t htn hopen with
  | entering hb | completing hb => exact hnot _ hb (beq_self_eq_true t)
  | inSlot hslot =>
    have hcomp : h.tear.completed (c.state.turns t).ms = true := hms ▸ (htear.returned m hret).completed
    obtain ⟨b, hb, hset⟩ := hi.late t htn hopen hslot hcomp
    exact hnot b hb hset

theorem openTurns_eq_zero (h : ∀ t, w.HasTurn m t → (w.turns t).once ≠ .idle) :
    openTurns w (· == m) = 0 := by
  refine countP_eq_zero.mpr fun t ht hidle => ?_
  simp only [idleTurn, Bool.and_eq_true, beq_iff_eq] at hidle
  exact h t ⟨mem_range.mp ht, hidle.1⟩ hidle.2

/-- When `setTurnDone` and `clearTurnDone` never write over a closure that has not
started, and drivers stop: a closure calls `Done` at most once, the wait group
counts those that have not, and when the teardown of a session has returned and no
call on it is in flight, each of its closures has called `Done` exactly once. -/
theorem turn_accounting_exact
    (hr : Reach (machine startEntry) (watchTurns fun _ => keepsClosures) .start
      (initialConfig publisher maxSess) h c) :
    (∀ t, h.ran t ≤ 1) ∧ c.state.wg = openTurns c.state (fun _ => true) ∧
      ∀ m, h.tear.returned m = true → c.pending (callOn c.state m) = 0 →
        h.adds m = h.dones m ∧ ∀ t, c.state.HasTurn m t → h.ran t = 1 := by
  have hi := Reach.turnsOk hr
  have hc := Reach.scoped hr
  have htear := Reach.tearing (Reach.turns_tear hr)
  refine ⟨fun t => ?_, hi.wg, fun m hret hidle => ?_⟩
  · by_cases htn : t < c.state.nTurns
    · rw [hi.ran t htn]
      split <;> omega
    · rw [hi.unmade t htn]
      omega
  · have hdone : ∀ t, c.state.HasTurn m t → (c.state.turns t).once ≠ .idle :=
      fun t htm => hi.not_idle hc htear hret hidle htm
    refine ⟨?_, fun t htm => ?_⟩
    · rw [hi.adds m, openTurns_eq_zero hdone, Nat.add_zero]
    · rw [hi.ran t htm.1, if_neg (hdone t htm)]

instance (w : World) (m : MsRef) (t : TurnRef) : Decidable (w.HasTurn m t) := instDecidableAnd

/-- A turn is running when its session is destroyed. -/
def destroyDuringTurn : List (Label Op Choice) :=
  [.call (.svc (.createSession ⟨"s", .native, []⟩)), .go 0 1,
   .call (.svc (.sendMessage "s" "one")), .go 1 31, .call (.svc (.destroySession "s")), .go 3 37]

theorem turn_accounting_exact_destroyed :
    ∃ h c, Reach (machine startEntry) (watchTurns fun _ => keepsClosures) .start
        (initialConfig false 0) h c ∧
      h.tear.returned 0 = true ∧ h.adds 0 = 1 ∧ h.dones 0 = 1 ∧ h.ran 0 = 1 ∧ c.state.wg = 0 := by
  refine Machine.follow_imp Choice.default destroyDuringTurn
    (fun h c => h.tear.returned 0 = true ∧ c.pending (callOn c.state 0) = 0 ∧ h.adds 0 = 1 ∧
      c.state.HasTurn 0 0 ∧ openTurns c.state (fun _ => true) = 0) ?_
  rintro h c hr ⟨hret, hidle, hadds, hturn, hopen⟩
  obtain ⟨-, hwg, hall⟩ := turn_accounting_exact hr
  obtain ⟨heq, hran⟩ := hall 0 hret hidle
  exact ⟨hret, hadds, heq ▸ hadds, hran 0 hturn, by rw [hwg, hopen]; rfl⟩

/-- A second message is refused because the first turn is running; then the
session is destroyed and everything runs to its end. -/
def busyCallThenDestroy : List (Label Op Choice) :=
  [.call (.svc (.createSession ⟨"s", .native, []⟩)), .go 0 1,
   .call (.svc (.sendMessage "s" "one")), .go 1 31,
   .call (.svc (.sendMessage "s" "two")), .go 3 20,
   .call (.svc (.destroySession "s")), .go 4 34, .go 2 6]

/-- Nothing is left to run, and one of the two closures has not. -/
theorem busy_call_loses_closure :
    ∃ h c, Reach (machine startEntry) (watchTurns fun _ _ _ _ => true) .start
        (initialConfig false 0) h c ∧
      h.tear.returned 0 = true ∧ (∀ b, ¬ c.Pend b) ∧ c.state.HasTurn 0 0 ∧ h.ran 0 = 0 ∧
      h.adds 0 = 2 ∧ h.dones 0 = 1 ∧ c.state.wg = 1 :=
  Machine.follow_to Choice.default busyCallThenDestroy

end FlexAgentRuntime.AgentLoop
