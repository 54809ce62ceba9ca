import FlexAgentRuntime.Agent.Frames
import FlexAgentRuntime.Agent.PromptLedger

/-!
Follow-ups and steering over whole runs of a driver. A follow-up that `FollowUp`
accepted reaches the conversation in its turn, unless an abort drops it or the
run is cancelled with it in hand; a steer goes first.

* `loops`: where each goroutine's loop is;
* `Queued`: the ledger holds, and each loop has the locals of its action;
* `control_queue_delivery`: nothing is lost, duplicated or reordered;
* `blank_steer_withdraws_steer`: a blank steer takes an earlier one back.
-/

namespace FlexAgentRuntime.AgentLoop

open Interleaving Config Ai List Function

/-! ## Loops -/

/-- The action of a loop that a goroutine comes to next. -/
def loopOf (th : List Op) : Option (MsRef × Nat × RunOp) := (runOps th).head?

def loops (c : Config World Op) : List (Option (MsRef × Nat × RunOp)) := c.threads.map loopOf

variable {publisher : Bool} {maxSess i k : Nat} {h : QueueWatch} {c : Config World Op} {a : Op}
  {rest : List Op} {x : Choice} {o : Outcome World Op} {m : MsRef} {rop : RunOp} {q : QueueHistory}

theorem mem_of_loopOf (hl : loopOf th = some (m, k, rop)) : .run m k rop ∈ th := by
  obtain ⟨b, hb, hbm⟩ := mem_filterMap.mp (mem_of_mem_head? hl)
  cases b with
  | run =>
    cases hbm
    exact hb
  | _ => cases hbm

theorem loopOf_append (l l' : List Op) : loopOf (l ++ l') = (loopOf l).or (loopOf l') := by
  rw [loopOf, runOps_append, List.head?_append]
  rfl

theorem loops_advance :
    loops (c.advance i rest o) =
      (loops c).set i (loopOf (o.more ++ rest)) ++ o.spawn.map loopOf := by
  simp [loops, Config.advance, map_set]

theorem loops_head (ht : c.At i a rest) :
    (loops c)[i]? = some (loopOf (a :: rest)) := by
  simp [loops, ht]

theorem loops_other (ht : c.At i a rest) (hs : Step x c.state a o)
    (hnr : ∀ m k rop, a ≠ .run m k rop) :
    loops (c.advance i rest o) = loops c ++ o.spawn.map loopOf := by
  have hsame : loopOf (o.more ++ rest) = loopOf (a :: rest) := by
    have hcons : runOps (a :: rest) = runOps rest := by
      cases a with
      | run m k rop => exact absurd rfl (hnr m k rop)
      | _ => rfl
    rw [loopOf, loopOf, runOps_append, hs.runOps_more hnr, hcons, nil_append]
  obtain ⟨hlt, hget⟩ := List.getElem?_eq_some_iff.mp (loops_head ht)
  rw [loops_advance, hsame, ← hget, set_getElem_self]

theorem countP_liveRun_pos (hst : RunStack (runOps th)) (hl : loopOf th = some (m, k, rop)) :
    1 ≤ th.countP (liveRun m) := by
  have hlive : liveRun m =
      fun b => ((runOp b).map fun r => r.1 == m && !r.2.2.looping).getD false := by
    funext b
    cases b <;> rfl
  rw [hlive, ← countP_runOps]
  rw [loopOf] at hl
  generalize runOps th = ops at hst hl
  cases hst with
  | none => cases hl
  | idle | deferred | body | user =>
    cases hl
    simp [countP_cons, RunOp.looping]

theorem loops_unique (hst : Stacked c) (hlive : liveRuns c m ≤ 1)
    (hi : (loops c)[i]? = some (some (m, p))) (hj : (loops c)[j]? = some (some (m, p'))) :
    i = j := by
  by_contra hij
  simp only [loops, List.getElem?_map, Option.map_eq_some_iff] at hi hj
  obtain ⟨th, hth, hl⟩ := hi
  obtain ⟨th', hth', hl'⟩ := hj
  have htwo := pending_two_threads (liveRun m) hij hth hth'
  have hpos := countP_liveRun_pos (hst th (mem_of_getElem? hth)) hl
  have hpos' := countP_liveRun_pos (hst th' (mem_of_getElem? hth')) hl'
  unfold liveRuns at hlive
  omega

/-- What is below an action of a loop. -/
def RunOp.below : RunOp → Option RunOp
  | .appendUser _ => some .turnBegin
  | .deferred | .driverIdle => none
  | _ => some .deferred

theorem loopOf_below (hst : RunStack (runOps (.run m k rop :: rest))) :
    loopOf rest = rop.below.map fun b => (m, k, b) := by
  have hcons : runOps (.run m k rop :: rest) = (m, k, rop) :: runOps rest := rfl
  rw [hcons] at hst
  rw [loopOf]
  generalize runOps rest = below at hst
  cases hst with
  | body hb => cases rop <;> first | rfl | cases hb
  | idle | deferred | user => rfl

/-! ## Whole runs -/

structure QueueWatch where
  stop : StopHistory := .start
  queue : MsRef → QueueHistory := fun _ => {}

/-- The commands accepted, and what the loops make of them. -/
def noteQueue (q : MsRef → QueueHistory) (c : Config World Op) (a : Op) (x : Choice) :
    MsRef → QueueHistory :=
  match a with
  | .agent m (.enqueueSend cmd) =>
    let control := (c.state.agents m).control
    if control.closed = false ∧ control.ch.length < control.buffer then
      update q m { q m with accepted := (q m).accepted ++ [cmd] }
    else q
  | .run m k rop =>
    match exec x a c.state with
    | some o => update q m
        (rop.noteQueue k (c.state.agents m) (o.state.agents m) (q m))
    | none => q
  | _ => q

/-- No abort is enqueued, no second loop is started during `Stop`, and no run is
cancelled with a follow-up in hand. -/
def keepsQueue (h : QueueWatch) (c : Config World Op) (a : Op) : Bool :=
  noStartInStop h.stop c a && match a with
  | .agent _ (.enqueueSend cmd) => cmd.type != .abort
  | .run m k (.top _) => !((c.state.agents m).ctxErr k &&
      (h.queue m).hand.any (·.type == .followUp))
  | _ => true

def watchQueue (meets : QueueWatch → Config World Op → Op → Bool) :
    Monitor World Op Choice QueueWatch :=
  ⟨fun h _ _ => h, fun h c a x => ⟨h.stop.note a, noteQueue h.queue c a x⟩,
    fun h c a _ => meets h c a⟩

structure Queued (q : QueueHistory) (c : Config World Op) (m : MsRef) : Prop where
  ledger : Ledger q (c.state.agents m)
  locals : ∀ k rop, some (m, k, rop) ∈ loops c → rop.Locals q
  idle : (∀ p, some (m, p) ∉ loops c) → q.Idle

theorem RunOp.Locals.congr (h : rop.Locals q) (hhand : q'.hand = q.hand)
    (hdrained : q'.drained = q.drained) : rop.Locals q' := by
  unfold RunOp.Locals QueueHistory.Idle at *
  rw [hhand, hdrained]
  exact h

theorem mem_set_iff_of_ne {β : Type} {l : List β} {i : Nat} {u v y : β} (hu : l[i]? = some u)
    (hne : u ≠ y) (hne' : v ≠ y) : y ∈ l.set i v ↔ y ∈ l := by
  simp only [mem_iff_getElem?]
  constructor
  · rintro ⟨j, hj⟩
    by_cases hij : i = j
    · subst hij
      rw [List.getElem?_set_self (List.getElem?_eq_some_iff.mp hu).1] at hj
      exact absurd (Option.some.inj hj) hne'
    · exact ⟨j, by rwa [List.getElem?_set_ne hij] at hj⟩
  · rintro ⟨j, hj⟩
    refine ⟨j, ?_⟩
    rw [List.getElem?_set_ne]
    · exact hj
    · rintro rfl
      rw [hu] at hj
      exact hne (Option.some.inj hj)

/-- Only an accepted command and the loop change what the ledger reads. -/
theorem Step.sameQueue (hs : Step x w a o) (hm : m < w.nManaged) (hrun : ∀ k rop, a ≠ .run m k rop)
    (hsend : ∀ cmd, a ≠ .agent m (.enqueueSend cmd)) :
    (w.agents m).SameQueue (o.state.agents m) := by
  rcases hs.agent_cases hm with h | h
  · rw [h]
    exact .refl _
  · generalize o.state.agents m = a' at h
    cases h with
    | call hs =>
      cases hs with
      | @startClaimed session _ _ _ =>
        refine ⟨rfl, rfl, rfl, fun h => ?_⟩
        cases session with
        | none => exact h
        | some s => rfl
      | transitioned h | failIdle h => exact (Agent.transition_ok h).2.2.sameQueue
      | failRecord | continueFailRecord => exact (Agent.count_same _ _).sameQueue
      | _ => exact ⟨rfl, rfl, rfl, id⟩
    | run => exact absurd rfl (hrun _ _)
    | stop hs =>
      cases hs with
      | exit h => exact (Agent.transition_ok h).2.2.sameQueue
      | _ => exact ⟨rfl, rfl, rfl, id⟩
    | agent hs =>
      cases hs with
      | enqueued => exact absurd rfl (hsend _)
      | _ => exact ⟨rfl, rfl, rfl, id⟩

theorem Queued.of_loops (hq : Queued q c m) (hl : Ledger q' (c'.state.agents m))
    (hhand : q'.hand = q.hand) (hdrained : q'.drained = q.drained)
    (hloops : ∀ p, some (m, p) ∈ loops c' ↔ some (m, p) ∈ loops c) : Queued q' c' m := by
  refine ⟨hl, fun k rop hmem => ?_, fun hno => ?_⟩
  · exact (hq.locals k rop ((hloops _).mp hmem)).congr hhand hdrained
  · have hidle := hq.idle fun p hmem => hno p ((hloops p).mpr hmem)
    exact ⟨hhand.trans hidle.1, hdrained.trans hidle.2⟩

theorem Queued.go (hq : Queued q c m) (hm : m < c.state.nManaged)
    (hst : Stacked (c.advance i rest o)) (hlive : liveRuns (c.advance i rest o) m ≤ 1)
    (ht : c.threads[i]? = some (.call m caller (.goRun k prompt) :: rest))
    (hs : Step x c.state (.call m caller (.goRun k prompt)) o) :
    Queued q (c.advance i rest o) m := by
  have hloops := loops_other ht hs nofun
  have hspawn : o.spawn.map loopOf = [some (m, k, .top prompt)] := by
    cases hs with
    | call hs =>
      cases hs with
      | claimRefused h => cases h
      | goRun => rfl
  rw [hspawn] at hloops
  have hnew : (loops (c.advance i rest o))[(loops c).length]? =
      some (some (m, k, .top prompt)) := by
    rw [hloops]
    simp
  -- the new loop is the only one
  have hnone : ∀ p, some (m, p) ∉ loops c := by
    intro p hmem
    obtain ⟨j, hj⟩ := mem_iff_getElem?.mp hmem
    have hlt := (List.getElem?_eq_some_iff.mp hj).1
    have hj' : (loops (c.advance i rest o))[j]? = some (some (m, p)) := by
      rw [hloops, List.getElem?_append_left hlt, hj]
    have := loops_unique hst hlive hj' hnew
    omega
  have hidle := hq.idle hnone
  refine ⟨hq.ledger.of_same (hs.sameQueue hm nofun nofun), fun k' rop hmem => ?_, fun hno => ?_⟩
  · rw [hloops, mem_append, mem_singleton] at hmem
    cases hmem.resolve_left (hnone _)
    refine ⟨?_, hidle.2⟩
    rw [hidle.1]
    nofun
  · exact absurd (mem_of_getElem? hnew) (hno _)

theorem Queued.run (hq : Queued q c m) (hst : Stacked c) (hlive : liveRuns c m ≤ 1)
    (ht : c.threads[i]? = some (.run m k rop :: rest)) (hs : Step x c.state (.run m k rop) o)
    (hcancel : ∀ prompt, rop = .top prompt → (c.state.agents m).ctxErr k = true →
      ∀ cmd ∈ q.hand, cmd.type ≠ .followUp) :
    Queued (rop.noteQueue k (c.state.agents m) (o.state.agents m) q) (c.advance i rest o) m := by
  have hhead : (loops c)[i]? = some (some (m, k, rop)) := loops_head ht
  have hloc := hq.locals k rop (mem_of_getElem? hhead)
  have hbelow := loopOf_below (hst _ (mem_of_getElem? ht))
  have hlt := (List.getElem?_eq_some_iff.mp hhead).1
  have hloops : loops (c.advance i rest o) =
      (loops c).set i ((loopOf o.more).or (rop.below.map fun b => (m, k, b))) := by
    rw [loops_advance, loopOf_append, hbelow]
    cases hs with
    | run => exact append_nil _
  have hkeeps : Keeps (rop.noteQueue k (c.state.agents m) (o.state.agents m) q)
      (o.state.agents m) o.more := by
    cases hs with
    | run hr =>
      simp only [World.setAgent, update_self]
      exact (RunOp.step_of_exec hr).keeps hq.ledger hloc hcancel
  refine ⟨hkeeps.ledger, fun k' rop' hmem => ?_, fun hno => ?_⟩
  · rw [hloops] at hmem
    obtain ⟨j, hj⟩ := mem_iff_getElem?.mp hmem
    by_cases hij : i = j
    · subst hij
      rw [List.getElem?_set_self hlt, Option.some.injEq, Option.or_eq_some_iff] at hj
      rcases hj with hj | ⟨hnone, hj⟩
      · exact hkeeps.next _ hj
      · -- the body is done, the deferred function comes next
        have hidle := hkeeps.ends (List.head?_eq_none_iff.mp hnone)
        obtain ⟨b, hb, heq⟩ := Option.map_eq_some_iff.mp hj
        cases heq
        cases rop <;> cases hb <;> exact hidle
    · rw [List.getElem?_set_ne hij] at hj
      exact absurd (loops_unique hst hlive hhead hj) hij
  · refine hkeeps.ends (List.head?_eq_none_iff.mp ?_)
    by_contra hne
    obtain ⟨⟨m', p⟩, hsome⟩ := Option.ne_none_iff_exists'.mp hne
    obtain ⟨_, heq⟩ := (hs.follows (mem_of_loopOf hsome)).run_origin
    cases heq
    refine hno p ?_
    rw [hloops, loopOf, hsome]
    exact mem_set hlt _

theorem noteQueue_other {q : MsRef → QueueHistory} (hx : exec x a c.state = some o)
    (hrun : ∀ k rop, a ≠ .run m k rop) (hsend : ∀ cmd, a ≠ .agent m (.enqueueSend cmd)) :
    noteQueue q c a x m = q m := by
  unfold noteQueue
  split
  · rename_i m' cmd
    have hne : m ≠ m' := by
      rintro rfl
      exact hsend cmd rfl
    dsimp only
    split
    · exact update_of_ne hne _ _
    · rfl
  · rename_i m' k rop
    have hne : m ≠ m' := by
      rintro rfl
      exact hrun k rop rfl
    rw [hx]
    exact update_of_ne hne _ _
  · rfl

theorem Queued.other (hq : Queued q c m) (hm : m < c.state.nManaged)
    (ht : c.At i a rest) (hst : Stacked c) (hs : Step x c.state a o)
    (hrun : ∀ k rop, a ≠ .run m k rop) (hsend : ∀ cmd, a ≠ .agent m (.enqueueSend cmd))
    (hgo : ∀ caller k prompt, a ≠ .call m caller (.goRun k prompt)) :
    Queued q (c.advance i rest o) m := by
  refine hq.of_loops (hq.ledger.of_same (hs.sameQueue hm hrun hsend)) rfl rfl fun p => ?_
  have hspawn : some (m, p) ∉ o.spawn.map loopOf := by
    intro hmem
    obtain ⟨th, hth, hl⟩ := mem_map.mp hmem
    obtain ⟨m', caller, k, prompt, rfl, rfl⟩ := hs.spawn_origin hth
    cases hl
    exact hgo caller k prompt rfl
  by_cases hr : ∃ m' k rop, a = .run m' k rop
  · obtain ⟨m', k, rop, rfl⟩ := hr
    have hne : m' ≠ m := fun h => hrun k rop (h ▸ rfl)
    have hold : loopOf (.run m' k rop :: rest) ≠ some (m, p) := by
      intro h
      cases h
      exact hne rfl
    have hnew : loopOf (o.more ++ rest) ≠ some (m, p) := by
      rw [loopOf_append, loopOf_below (hst _ (mem_of_getElem? ht))]
      intro h
      rcases Option.or_eq_some_iff.mp h with h | ⟨-, h⟩
      · obtain ⟨_, heq⟩ := (hs.follows (mem_of_loopOf h)).run_origin
        cases heq
        exact hne rfl
      · obtain ⟨b, -, heq⟩ := Option.map_eq_some_iff.mp h
        cases heq
        exact hne rfl
    rw [loops_advance, mem_append, mem_set_iff_of_ne (loops_head ht) hold hnew]
    exact or_iff_left hspawn
  · have hnr : ∀ m' k rop, a ≠ .run m' k rop := fun m' k rop h => hr ⟨m', k, rop, h⟩
    rw [loops_other ht hs hnr, mem_append]
    exact or_iff_left hspawn

theorem exec_enqueueSend (ag : Agent) (cmd : ControlCommand) :
    (AgentOp.exec m (.enqueueSend cmd) ag).1 =
      if ag.control.closed = false ∧ ag.control.ch.length < ag.control.buffer then
        { ag with control := { ag.control with ch := ag.control.ch ++ [cmd] } }
      else ag := by
  simp only [AgentOp.exec]
  cases hc : ag.control.closed with
  | true => simp
  | false =>
    by_cases hlt : ag.control.ch.length < ag.control.buffer
    · simp [hlt]
    · simp [hlt]

theorem Queued.send {q : MsRef → QueueHistory} {cmd : ControlCommand} (hq : Queued (q m) c m)
    (ht : c.threads[i]? = some (.agent m (.enqueueSend cmd) :: rest))
    (hx : exec x (.agent m (.enqueueSend cmd)) c.state = some o) (hcmd : cmd.type ≠ .abort) :
    Queued (noteQueue q c (.agent m (.enqueueSend cmd)) x m) (c.advance i rest o) m := by
  have hs := step_of_exec hx
  have hloops : ∀ p, some (m, p) ∈ loops (c.advance i rest o) ↔ some (m, p) ∈ loops c := by
    intro p
    rw [loops_other ht hs nofun]
    cases hs with
    | agent => simp
  have hagent : (c.advance i rest o).state.agents m =
      (AgentOp.exec m (.enqueueSend cmd) (c.state.agents m)).1 := by
    cases hx
    exact update_self ..
  rw [exec_enqueueSend] at hagent
  by_cases hacc : (c.state.agents m).control.closed = false ∧
      (c.state.agents m).control.ch.length < (c.state.agents m).control.buffer
  · rw [if_pos hacc] at hagent
    simp only [noteQueue, if_pos hacc, update_self]
    refine hq.of_loops ?_ rfl rfl hloops
    rw [hagent]
    exact hq.ledger.accept hcmd
  · rw [if_neg hacc] at hagent
    simp only [noteQueue, if_neg hacc]
    refine hq.of_loops ?_ rfl rfl hloops
    rw [hagent]
    exact hq.ledger

theorem Queued.fresh (hc : Scoped c) (ht : c.At i a rest)
    (hx : exec x a c.state = some o) (hm : ¬ m < c.state.nManaged) (hm' : m < o.state.nManaged) :
    Queued {} (c.advance i rest o) m := by
  obtain ⟨hmore, hspawn, cfg, id, log, hnew, -⟩ := exec_fresh hx hm hm'
  -- nothing refers to it yet
  have hloops : ∀ p, some (m, p) ∉ loops (c.advance i rest o) := by
    intro p hmem
    obtain ⟨th, hth, hl⟩ := mem_map.mp hmem
    have hadv : (c.advance i rest o).Pend (.run m p.1 p.2) := ⟨th, hth, mem_of_loopOf hl⟩
    rcases hadv.of_advance_nil ht hspawn with hp | hp
    · exact hm (hc.ops _ hp)
    · rw [hmore] at hp
      cases hp
  refine ⟨?_, fun k rop hmem => absurd hmem (hloops _), fun _ => ⟨rfl, rfl⟩⟩
  have hstate : (c.advance i rest o).state.agents m = World.newAgent cfg id log := hnew
  rw [hstate]
  exact Ledger.fresh cfg id log

theorem Queued.call (hq : Queued q c m) (he : startEntry c.state a = true) :
    Queued q (c.call a) m := by
  refine hq.of_loops hq.ledger rfl rfl fun p => ?_
  have hnew : loopOf [a] = none := by
    cases a with
    | run => cases he
    | _ => rfl
  simp [loops, Config.call, hnew]

theorem Queued.step (hq : Queued (h.queue m) c m) (hm : m < c.state.nManaged) (hst : Stacked c)
    (hst' : Stacked (c.advance i rest o)) (hlive : liveRuns c m ≤ 1)
    (hlive' : liveRuns (c.advance i rest o) m ≤ 1) (ht : c.At i a rest)
    (hx : exec x a c.state = some o) (hmeets : keepsQueue h c a = true) :
    Queued (noteQueue h.queue c a x m) (c.advance i rest o) m := by
  have hs := step_of_exec hx
  by_cases hrun : ∃ k rop, a = .run m k rop
  · obtain ⟨k, rop, rfl⟩ := hrun
    have hnote : noteQueue h.queue c (.run m k rop) x m =
        rop.noteQueue k (c.state.agents m) (o.state.agents m) (h.queue m) := by
      simp only [noteQueue, hx, update_self]
    rw [hnote]
    refine hq.run hst hlive ht hs fun prompt heq hctx cmd hc htype => ?_
    subst heq
    simp only [keepsQueue, hctx, Bool.true_and, Bool.and_eq_true, Bool.not_eq_true',
      Option.any_eq_false] at hmeets
    exact absurd htype (by simpa using hmeets.2 cmd hc)
  by_cases hsend : ∃ cmd, a = .agent m (.enqueueSend cmd)
  · obtain ⟨cmd, rfl⟩ := hsend
    exact hq.send ht hx (by simpa [keepsQueue, noStartInStop] using hmeets)
  simp only [not_exists] at hrun hsend
  rw [noteQueue_other hx hrun hsend]
  by_cases hgo : ∃ caller k prompt, a = .call m caller (.goRun k prompt)
  · obtain ⟨caller, k, prompt, rfl⟩ := hgo
    exact hq.go hm hst' hlive' ht hs
  · exact hq.other hm ht hst hs hrun hsend fun caller k prompt heq => hgo ⟨caller, k, prompt, heq⟩

/-- The ledger of every session, and nothing noted for others. -/
structure AllQueued (h : QueueWatch) (c : Config World Op) : Prop where
  stacked : Stacked c
  queued : ∀ m < c.state.nManaged, Queued (h.queue m) c m
  unknown : ∀ m, ¬ m < c.state.nManaged → h.queue m = {}

section
variable (hr : Reach (machine startEntry) (watchQueue keepsQueue) {}
  (initialConfig publisher maxSess) h c)
include hr

theorem Reach.queue_stop : Reach (machine startEntry) (watchStop noStartInStop) .start
    (initialConfig publisher maxSess) h.stop c :=
  hr.project QueueWatch.stop fun _ _ _ _ hm => (Bool.and_eq_true_iff.mp hm).1

theorem Reach.queue_liveRuns (m : MsRef) : liveRuns c m ≤ 1 :=
  (reach_exclusive (Reach.queue_stop hr)).2.liveRuns_le_one m

theorem Reach.allQueued : AllQueued h c := by
  refine hr.invariant_of_reach AllQueued ⟨nofun, nofun, fun _ _ => rfl⟩ ?_ ?_
  · intro h c a _ hi he
    exact ⟨hi.stacked.call he, fun m hm => (hi.queued m hm).call he, hi.unknown⟩
  · intro h c i a rest x o hr hi ht hx hmeets
    have hs := step_of_exec hx
    have hc : Scoped c := Reach.scoped hr
    have hst' := hi.stacked.step ht hs
    -- an action names a session that exists
    have hunknown : ∀ m, ¬ m < c.state.nManaged → noteQueue h.queue c a x m = {} := by
      intro m hm
      rw [← hi.unknown m hm]
      have hin := hc.ops a (pend_head ht)
      refine noteQueue_other hx ?_ ?_
      · rintro k rop rfl
        exact hm hin
      · rintro cmd rfl
        exact hm hin.1
    refine ⟨hst', fun m hm' => ?_, fun m hm' => ?_⟩
    · by_cases hm : m < c.state.nManaged
      · exact (hi.queued m hm).step hm hi.stacked hst' (Reach.queue_liveRuns hr m)
          (Reach.queue_liveRuns (Reach.step i a rest x o hr ht hx hmeets) m) ht hx hmeets
      · show Queued (noteQueue h.queue c a x m) _ m
        rw [hunknown m hm]
        exact .fresh hc ht hx hm hm'
    · exact hunknown m fun hm => hm' (hm.trans_le hs.extends.managed)

end

/-- Where the loop of a session is with its prompts. -/
theorem AllQueued.locals (hi : AllQueued h c) (hm : m < c.state.nManaged)
    (ht : c.threads[i]? = some (.run m k rop :: rest)) : rop.Locals (h.queue m) :=
  (hi.queued m hm).locals k rop (mem_of_getElem? (loops_head ht))

theorem AllQueued.idle (hi : AllQueued h c) (hm : m < c.state.nManaged)
    (hno : ∀ k rop, ¬ c.Pend (.run m k rop)) : (h.queue m).Idle := by
  refine (hi.queued m hm).idle fun p hmem => ?_
  obtain ⟨th, hth, hl⟩ := mem_map.mp hmem
  exact hno _ _ ⟨th, hth, mem_of_loopOf hl⟩

/-- A non-empty last steer is the next prompt, and the follow-ups wait. -/
theorem AllQueued.steer_first (hi : AllQueued h c) (hm : m < c.state.nManaged)
    (ht : c.threads[i]? = some (.run m k (.nextPrompt cmds) :: rest))
    (hx : exec x (.run m k (.nextPrompt cmds)) c.state = some o) (hlast : lastSteer cmds = some msg)
    (hne : msg ≠ "") :
    o.more = [.run m k (.top msg)] ∧ (o.state.agents m).driver.followUps =
      (c.state.agents m).driver.followUps ++ followUps cmds := by
  obtain ⟨-, hcmds⟩ : (h.queue m).hand = none ∧ (h.queue m).drained = cmds := hi.locals hm ht
  have hab : ∀ cmd ∈ cmds, cmd.type ≠ .abort := hcmds ▸ (hi.queued m hm).ledger.drained_noAbort
  have hnext := nextPrompt_steer hab hlast hne (c.state.agents m).driver.pendingSteer
    (c.state.agents m).driver.followUps
  obtain ⟨⟨a', more⟩, hop, rfl⟩ := Option.map_eq_some_iff.mp hx
  simp only [RunOp.exec, hnext] at hop
  cases hop
  simp [World.setAgent, Agent.setDriver]

/-- Nothing is lost, duplicated or reordered on the way from `FollowUp` to the
conversation, and steering comes first. -/
structure Delivers (q : QueueHistory) (c : Config World Op) (m : MsRef) : Prop where
  /-- The accepted follow-ups, as `appendUserMessage` trims them: those appended, the one in
  hand, those in `followUps`, those drained and those in the channel. -/
  followUps : texts (followUps q.accepted) = followUps q.appended ++
    texts (followUps q.hand.toList) ++ texts (c.state.agents m).driver.followUps ++
    texts (followUps q.drained) ++ texts (followUps (c.state.agents m).control.ch)
  /-- What is in hand or drained is in the variables of the loop. -/
  locals : ∀ (i k : Nat) rop rest, c.threads[i]? = some (Op.run m k rop :: rest) → rop.Locals q
  /-- Between two runs nothing is. -/
  idle : (∀ k rop, ¬ c.Pend (.run m k rop)) → q.hand = none ∧ q.drained = []
  /-- What was appended for a command is the text of an accepted one. -/
  sources : ∀ cmd ∈ q.appended, ∃ cmd' ∈ q.accepted,
    cmd'.type = cmd.type ∧ cmd.message = trimSpace cmd'.message
  /-- A drain whose last steer is not empty is followed by that steer; the follow-ups wait. -/
  steer : ∀ (i k : Nat) cmds rest x o msg,
    c.threads[i]? = some (Op.run m k (.nextPrompt cmds) :: rest) →
    exec x (.run m k (.nextPrompt cmds)) c.state = some o → lastSteer cmds = some msg → msg ≠ "" →
    o.more = [.run m k (.top msg)] ∧ (o.state.agents m).driver.followUps =
      (c.state.agents m).driver.followUps ++ AgentLoop.followUps cmds

/-- Commands are delivered in every run without aborts, without a second loop
during `Stop`, and without a cancellation that meets a follow-up in the loop's
hand. -/
theorem control_queue_delivery
    (hr : Reach (machine startEntry) (watchQueue keepsQueue) {}
      (initialConfig publisher maxSess) h c) (m : MsRef) (hm : m < c.state.nManaged) :
    Delivers (h.queue m) c m := by
  have hi := Reach.allQueued hr
  have hledger := (hi.queued m hm).ledger
  refine ⟨?_, fun i k rop rest ht => hi.locals hm ht, hi.idle hm, hledger.sources,
    fun i k cmds rest x o msg ht hx => hi.steer_first hm ht hx⟩
  obtain ⟨done, happ, hbal⟩ := hledger.balance
  rw [hbal]
  simp only [texts_append, happ]

/-- Two follow-ups and a steer come in during the turn of a `Prompt`. -/
def steerAndFollowUps : List (Label Op Choice) :=
  [.call (.svc (.createSession ⟨"s", .native, []⟩)), .go 0 1,
   .call (.call 0 .direct (.snapshot "hi")), .go 1 13,
   .call (.agent 0 (.enqueueCheck ⟨.followUp, " one "⟩)), .go 3 6,
   .call (.agent 0 (.enqueueCheck ⟨.steer, "now"⟩)), .go 4 6,
   .call (.agent 0 (.enqueueCheck ⟨.followUp, "two"⟩)), .go 5 6]

/-- The steer has been appended and the first follow-up is in hand. -/
theorem control_queue_delivery_steered :
    ∃ h c, Reach (machine startEntry) (watchQueue keepsQueue) {} (initialConfig false 0) h c ∧
      0 < c.state.nManaged ∧ (h.queue 0).appended = [⟨.steer, "now"⟩] ∧
      (h.queue 0).hand = some ⟨.followUp, " one "⟩ ∧
      (c.state.agents 0).driver.followUps = ["two"] ∧ Delivers (h.queue 0) c 0 := by
  refine Machine.follow_imp Choice.default (steerAndFollowUps ++ [.go 2 45])
    (fun h c => 0 < c.state.nManaged ∧ (h.queue 0).appended = [⟨.steer, "now"⟩] ∧
      (h.queue 0).hand = some ⟨.followUp, " one "⟩ ∧
      (c.state.agents 0).driver.followUps = ["two"]) ?_
  rintro h c hr ⟨hm, happ, hhand, hnext⟩
  exact ⟨hm, happ, hhand, hnext, control_queue_delivery hr 0 hm⟩

/-- A steer and then an empty one come in during the turn. -/
def steerWithdrawn : List (Label Op Choice) :=
  [.call (.svc (.createSession ⟨"s", .native, []⟩)), .go 0 1,
   .call (.call 0 .direct (.snapshot "hi")), .go 1 13,
   .call (.agent 0 (.enqueueCheck ⟨.steer, "a"⟩)), .go 3 6,
   .call (.agent 0 (.enqueueCheck ⟨.steer, ""⟩)), .go 4 6, .go 2 22]

/-- The first run looks for its next prompt among the drained commands `cmds`. -/
def Op.drained (cmds : List ControlCommand) : Op → Bool
  | .run 0 0 (.nextPrompt cmds') => cmds' == cmds
  | _ => false

theorem Op.drained_iff : a.drained cmds = true ↔ a = .run 0 0 (.nextPrompt cmds) := by
  constructor
  · intro h
    unfold drained at h
    split at h
    · rw [eq_of_beq h]
    · cases h
  · rintro rfl
    exact beq_self_eq_true cmds

/-- The drain has a steer with a text, but the next prompt is not that steer: the
loop goes idle. -/
theorem blank_steer_withdraws_steer :
    ∃ h c, Reach (machine startEntry) (watchQueue keepsQueue) {} (initialConfig false 0) h c ∧
      ∃ rest o, c.threads[2]? =
          some (.run 0 0 (.nextPrompt [⟨.steer, "a"⟩, ⟨.steer, ""⟩]) :: rest) ∧
        exec .go (.run 0 0 (.nextPrompt [⟨.steer, "a"⟩, ⟨.steer, ""⟩])) c.state = some o ∧
        o.more = [.run 0 0 .transitionIdle] := by
  refine Machine.follow_imp Choice.default steerWithdrawn
    (fun _ c => (c.state.agents 0).driver.followUps = [] ∧
      c.heads 2 (·.drained [⟨.steer, "a"⟩, ⟨.steer, ""⟩]) = true) ?_
  rintro h c hr ⟨hnone, hhead⟩
  simp only [heads_iff, Op.drained_iff] at hhead
  obtain ⟨_, rest, ht, rfl⟩ := hhead
  have hnext : ∀ steer, nextPromptFromControlQueue [⟨.steer, "a"⟩, ⟨.steer, ""⟩] steer
      (c.state.agents 0).driver.followUps = ("", [], .done) := by
    intro steer
    rw [hnone]
    rfl
  have hx : exec .go (.run 0 0 (.nextPrompt [⟨.steer, "a"⟩, ⟨.steer, ""⟩])) c.state =
      some ⟨c.state.setAgent 0 ((c.state.agents 0).setDriver fun d =>
        { d with pendingSteer := "", followUps := [] }), [.run 0 0 .transitionIdle], []⟩ := by
    simp only [exec, RunOp.exec, hnext, Option.map_some]
  exact ⟨rest, _, ht, hx, rfl⟩

end FlexAgentRuntime.AgentLoop
