import FlexAgentRuntime.Agent.ConversationLog
import FlexAgentRuntime.Agent.Frames
import FlexAgentRuntime.Agent.ResumeLog
import FlexAgentRuntime.Agent.RunSteps

/-!
Do the turn numbers along a conversation log ever decrease?

The loop numbers its entries by the counter of its driver, and a driver starts to
count at 0, also for a session that is resumed from a log. So the first entry
after a resumed log has turn 1, whatever the log ends with.

A log, and every snapshot of it that `Start` may still write back, stays ordered
because its entries are bounded by the counter:

* by the next turn at any time, since `appendUserMessage` numbers the message of a
  turn that has not begun;
* by the counter itself during a turn.

The second bound needs that no other loop appends a user message during the turn.
-/

namespace FlexAgentRuntime.AgentLoop

open Interleaving Config List

/-! ## One step -/

/-- The actions of a turn between its beginning and its end. -/
def RunOp.inTurn : RunOp → Bool
  | .turnLoop | .turnStreaming | .callProvider | .providerStream | .appendAssistant _
  | .toolPhase _ | .runTools _ | .toolWait _ _ | .toolFinish _ _ _ _
  | .appendToolResult _ _ _ _ => true
  | _ => false

def turnOp (m : MsRef) : Op → Bool
  | .run m' _ op => m' == m && op.inTurn
  | _ => false

theorem loopBody_of_turnOp (h : turnOp m b = true) : loopBody m b = true := by
  cases b with
  | run m' k op => cases op <;> first | exact h | (simp [turnOp, RunOp.inTurn] at h)
  | _ => cases h

/-- What an action of a loop does to the log and the counter. -/
inductive RunOp.Numbers (a a' : Agent) : RunOp → Prop where
  | begun : a'.log = a.log → a'.driver.turn = a.driver.turn + 1 → Numbers a a' .turnBegin
  | user {prompt e} : a'.log = a.log ++ [e] → e.turn = (a.driver.turn : Int) + 1 →
      a'.driver.turn = a.driver.turn → Numbers a a' (.appendUser prompt)
  | entry {op e} : op.inTurn = true → a'.log = a.log ++ [e] → e.turn = (a.driver.turn : Int) →
      a'.driver.turn = a.driver.turn → Numbers a a' op
  | same {op} : op ≠ .turnBegin → a'.log = a.log → a'.driver.turn = a.driver.turn → Numbers a a' op

theorem RunOp.Numbers.of_same (hop : op ≠ .turnBegin) (h : a.Same a') : Numbers a a' op :=
  .same hop h.log (by rw [h.driver])

theorem RunOp.Step.numbers {op : RunOp} (h : op.Step m k a a' more) : op.Numbers a a' := by
  cases h with
  | turnBegin => exact .begun ((a.setDriver _).count_same _).log rfl
  | appendUser _ ha =>
    obtain ⟨hlog, -, -, hdriver, -⟩ := Agent.appendConversation_some ha
    exact .user hlog rfl (by rw [hdriver])
  | appendAssistant ha | appendToolResult ha =>
    obtain ⟨hlog, -, -, hdriver, -⟩ := Agent.appendConversation_some ha
    exact .entry rfl hlog rfl (by rw [hdriver])
  | streaming ht | toolPhase ht | idle ht => exact .of_same nofun (Agent.transition_ok ht).2.2
  | toolStarted | toolFinish | turnComplete | turnError => exact .of_same nofun (a.count_same _)
  | _ => exact .same nofun rfl rfl

theorem RunOp.Step.inTurn_origin {op op' : RunOp} (h : op.Step m k a a' more)
    (hb : .run m k op' ∈ more) (hin : op'.inTurn = true) : op.inTurn = true ∨ op = .turnBegin := by
  cases h with
  | turnBegin => exact .inr rfl
  | userBlank | userLost | appendUser | idleRefused | driverIdle => cases hb
  | idle => simp at hb
  | topPrompt =>
    simp only [mem_cons, Op.run.injEq, true_and, not_mem_nil, or_false] at hb
    rcases hb with rfl | rfl <;> cases hin
  | topCancelled | topContinue | turnComplete | turnError | drain | drained | abort | prompt
  | noPrompt | deferred =>
    simp at hb
    subst hb
    cases hin
  | _ => exact .inl rfl

variable {x : Choice} {w : World} {op : Op} {o : Outcome World Op} {m : MsRef}

theorem Step.turnOp_origin {b : Op} (h : Step x w op o) (hb : b ∈ o.more)
    (hin : turnOp m b = true) :
    ∃ k rop, op = .run m k rop ∧ (rop.inTurn = true ∨ rop = .turnBegin) := by
  cases b with
  | run m' k rop =>
    simp only [turnOp, Bool.and_eq_true, beq_iff_eq] at hin
    obtain ⟨rfl, hin⟩ := hin
    obtain ⟨rop', rfl⟩ := (h.follows hb).run_origin
    cases h with
    | run hr => exact ⟨k, rop', rfl, (RunOp.step_of_exec hr).inTurn_origin hb hin⟩
  | _ => cases hin

theorem CallOp.Step.turn {cop : CallOp} {a a' : Agent} (h : cop.Step m caller a a' more spawn) :
    a'.driver.turn = a.driver.turn := by
  cases h with
  | transitioned ht | failIdle ht => rw [(Agent.transition_ok ht).2.2.driver]
  | _ => rfl

/-- What any action does to the log and the counter of a session that exists. -/
theorem Step.numbers (h : Step x w op o) (hm : m < w.nManaged) :
    (∃ k rop, op = .run m k rop ∧ rop.Numbers (w.agents m) (o.state.agents m)) ∨
      (∀ k rop, op ≠ .run m k rop) ∧
        (o.state.agents m).driver.turn = (w.agents m).driver.turn ∧
        (o.state.log m = w.log m ∨ ∃ caller s prompt,
          op = .call m caller (.startClaim (some s) prompt) ∧
            o.state.log m = s.conversationLog) := by
  by_cases hrun : ∃ k rop, op = .run m k rop
  · obtain ⟨k, rop, rfl⟩ := hrun
    cases h with
    | @run _ _ _ a' _ hr =>
      refine .inl ⟨k, rop, rfl, ?_⟩
      rw [show (w.setAgent m a').agents m = a' from Function.update_self ..]
      exact (RunOp.step_of_exec hr).numbers
  · refine .inr ⟨fun k rop he => hrun ⟨k, rop, he⟩, ?_⟩
    rcases h.agent_cases hm with he | ha
    · exact ⟨by rw [he], .inl (by rw [World.log, World.log, he])⟩
    · unfold World.log
      generalize o.state.agents m = a' at ha
      cases ha with
      | @call caller cop _ _ _ hs =>
        refine ⟨hs.turn, ?_⟩
        rcases hs.log with hl | ⟨s, prompt, rfl, -, -, hl⟩
        · exact .inl hl
        · exact .inr ⟨caller, s, prompt, rfl, hl⟩
      | run => exact absurd ⟨_, _, rfl⟩ hrun
      | stop hs =>
        refine ⟨?_, .inl hs.log⟩
        cases hs with
        | exit ht => rw [(Agent.transition_ok ht).2.2.driver]
        | _ => rfl
      | agent hs =>
        refine ⟨?_, .inl hs.log⟩
        cases hs <;> rfl

/-! ## Whole runs -/

/-- A resumed log has no turn above the first, and is one that is accepted. -/
def resumesFirstTurn : Op → Bool
  | .svc (.resumeSession _ log) => decide (Ordered log) && log.all (·.turn ≤ 1)
  | _ => true

/-- No second loop, and no session resumed from a log of later turns. -/
def numbersTurns (h : StopHistory) (c : Config World Op) (a : Op) : Bool :=
  noStartInStop h c a && resumesFirstTurn a

/-- The log, or a snapshot of it that may be written back. -/
inductive Version (c : Config World Op) (m : MsRef) : List AgentMessage → Prop where
  | log : Version c m (c.state.log m)
  | snapshot {caller s prompt} : c.Pend (.call m caller (.startClaim (some s) prompt)) →
      Version c m s.conversationLog

structure Numbered (c : Config World Op) (m : MsRef) : Prop where
  ordered : ∀ l, Version c m l → Ordered l
  bound : ∀ l, Version c m l → ∀ e ∈ l, e.turn ≤ (c.state.agents m).driver.turn + 1
  during : ∀ b, c.Pend b → turnOp m b = true → ∀ l, Version c m l → ∀ e ∈ l,
    e.turn ≤ (c.state.agents m).driver.turn

variable {c : Config World Op} {i : Nat} {a : Op} {rest : List Op}

theorem Version.of_advance (ht : c.At i a rest) (hs : Step x c.state a o)
    (h : Version (c.advance i rest o) m l) : Version c m l ∨ l = o.state.log m := by
  cases h with
  | log => exact .inr rfl
  | snapshot hp =>
    rcases hp.of_advance ht with hp | hp | ⟨th, hth, hp⟩
    · exact .inl (.snapshot hp)
    · exact .inr (hs.snapshot hp)
    · obtain ⟨m', caller, k, prompt, -, rfl⟩ := hs.spawn_origin hth
      simp at hp

theorem turnOp_pend (ht : c.At i a rest) (hs : Step x c.state a o)
    (hb : (c.advance i rest o).Pend b) (hin : turnOp m b = true) :
    (∃ b', c.Pend b' ∧ turnOp m b' = true) ∨ ∃ k, a = .run m k .turnBegin := by
  rcases hb.of_advance ht with hb | hb | ⟨th, hth, hb⟩
  · exact .inl ⟨b, hb, hin⟩
  · obtain ⟨k, rop, rfl, hrop | rfl⟩ := hs.turnOp_origin hb hin
    · exact .inl ⟨_, pend_head ht, by simpa [turnOp] using hrop⟩
    · exact .inr ⟨k, rfl⟩
  · obtain ⟨m', caller, k, prompt, -, rfl⟩ := hs.spawn_origin hth
    rcases mem_pair.mp hb with rfl | rfl <;> simp [turnOp, RunOp.inTurn] at hin

/-- A step that leaves the counter and gives the log a version it had. -/
theorem Numbered.of_version (hn : Numbered c m) (ht : c.At i a rest)
    (hs : Step x c.state a o) (hturn : (o.state.agents m).driver.turn = (c.state.agents m).driver.turn)
    (hlog : Version c m (o.state.log m)) (hbegin : ∀ k, a ≠ .run m k .turnBegin) :
    Numbered (c.advance i rest o) m := by
  have hold : ∀ l, Version (c.advance i rest o) m l → Version c m l := by
    intro l hl
    rcases hl.of_advance ht hs with hl | rfl
    · exact hl
    · exact hlog
  have hstate : ((c.advance i rest o).state.agents m).driver.turn =
      (c.state.agents m).driver.turn := hturn
  refine ⟨fun l hl => hn.ordered l (hold l hl), ?_, ?_⟩
  · rw [hstate]
    exact fun l hl => hn.bound l (hold l hl)
  · rw [hstate]
    intro b hb hin l hl
    rcases turnOp_pend ht hs hb hin with ⟨b', hb', hin'⟩ | ⟨k, rfl⟩
    · exact hn.during b' hb' hin' l (hold l hl)
    · exact absurd rfl (hbegin k)

/-- A user message is appended before its turn, while no other turn goes on. -/
theorem no_turn_of_appendUser (hst : Stacked c) (hst' : Stacked (c.advance i rest o))
    (hlive : liveRuns (c.advance i rest o) m ≤ 1)
    (ht : c.threads[i]? = some (.run m k (.appendUser prompt) :: rest))
    (hb : (c.advance i rest o).Pend b) : turnOp m b = false := by
  refine Bool.eq_false_iff.mpr fun hin => ?_
  -- the rest of the loop is still on the stack
  have hbelow : Op.run m k .turnBegin ∈ rest := by
    have hstack := hst _ (mem_of_getElem? ht)
    have hcons : runOps (.run m k (.appendUser prompt) :: rest) =
        (m, k, .appendUser prompt) :: runOps rest := rfl
    rw [hcons] at hstack
    have hmem : (m, k, RunOp.turnBegin) ∈ runOps rest := by
      generalize runOps rest = below at hstack
      cases hstack with
      | body hb => cases hb
      | user => exact mem_cons_self
    obtain ⟨b', hb', heq⟩ := mem_filterMap.mp hmem
    cases b' with
    | run =>
      cases heq
      exact hb'
    | _ => cases heq
  have hlt := (List.getElem?_eq_some_iff.mp ht).1
  have hpend : (c.advance i rest o).Pend (.run m k .turnBegin) :=
    ⟨o.more ++ rest, mem_append_left _ (mem_set hlt _), mem_append_right _ hbelow⟩
  have hne : Op.run m k .turnBegin ≠ b := by
    rintro rfl
    simp [turnOp, RunOp.inTurn] at hin
  have htwo := two_le_pending hpend hb hne (p := loopBody m) (by simp [loopBody, RunOp.body])
    (loopBody_of_turnOp hin)
  have hle := pending_body_le hst' m
  omega

theorem Numbered.step (hn : Numbered c m) (hm : m < c.state.nManaged) (hst : Stacked c)
    (hst' : Stacked (c.advance i rest o)) (hlive : liveRuns (c.advance i rest o) m ≤ 1)
    (ht : c.At i a rest) (hs : Step x c.state a o) :
    Numbered (c.advance i rest o) m := by
  rcases hs.numbers hm with ⟨k, rop, rfl, hnum⟩ | ⟨hrun, hturn, hlog⟩
  · have hcases : ∀ l, Version (c.advance i rest o) m l → Version c m l ∨ l = o.state.log m :=
      fun l hl => hl.of_advance ht hs
    -- an entry of the turn `n` is appended
    have happend {e : AgentMessage} {n : Int} (hnew : o.state.log m = c.state.log m ++ [e])
        (he : e.turn = n) (hle : ∀ l, Version c m l → ∀ e' ∈ l, e'.turn ≤ n) (l)
        (hl : Version (c.advance i rest o) m l) : Ordered l ∧ ∀ e' ∈ l, e'.turn ≤ n := by
      rcases hcases l hl with hl | rfl
      · exact ⟨hn.ordered l hl, hle l hl⟩
      · rw [hnew]
        exact ⟨(hn.ordered _ .log).append_entry (he ▸ hle _ .log),
          forall_mem_concat.mpr ⟨hle _ .log, (Int.le_of_eq he)⟩⟩
    cases hnum with
    | begun hlog hturn =>
      have hold : ∀ l, Version (c.advance i rest o) m l → Version c m l := by
        intro l hl
        rcases hcases l hl with hl | rfl
        · exact hl
        · rw [World.log, hlog]
          exact .log
      refine ⟨fun l hl => hn.ordered l (hold l hl), fun l hl e he => ?_, fun b hb hin l hl e he => ?_⟩
      all_goals
        have := hn.bound l (hold l hl) e he
        rw [advance_state, hturn]
        omega
    | user hlog he hturn =>
      have hboth := happend hlog he hn.bound
      refine ⟨fun l hl => (hboth l hl).1, fun l hl => ?_, fun b hb hin => ?_⟩
      · rw [advance_state, hturn]
        exact (hboth l hl).2
      · rw [no_turn_of_appendUser hst hst' hlive ht hb] at hin
        cases hin
    | entry hin hlog he hturn =>
      -- the turn goes on, so its bound holds already
      have hboth := happend hlog he (hn.during _ (pend_head ht) (by simpa [turnOp] using hin))
      refine ⟨fun l hl => (hboth l hl).1, fun l hl e' he' => ?_, fun b hb _ l hl => ?_⟩
      · have := (hboth l hl).2 e' he'
        rw [advance_state, hturn]
        omega
      · rw [advance_state, hturn]
        exact (hboth l hl).2
    | same hop hlog hturn =>
      refine hn.of_version ht hs hturn ?_ fun k' he => ?_
      · rw [World.log, hlog]
        exact .log
      · cases he
        exact hop rfl
  · refine hn.of_version ht hs hturn ?_ fun k => hrun k _
    rcases hlog with hlog | ⟨caller, s, prompt, rfl, hlog⟩
    · rw [hlog]
      exact .log
    · rw [hlog]
      exact .snapshot (pend_head ht)

theorem Numbered.fresh (hc : Scoped c) (ht : c.At i a rest)
    (hx : exec x a c.state = some o) (hres : resumesFirstTurn a = true)
    (hm : ¬ m < c.state.nManaged) (hm' : m < o.state.nManaged) :
    Numbered (c.advance i rest o) m := by
  obtain ⟨hmore, hspawn, cfg, id, log, hnew, hlog⟩ := exec_fresh hx hm hm'
  have hpend : ∀ b, (c.advance i rest o).Pend b → c.Pend b := by
    intro b hb
    rcases hb.of_advance_nil ht hspawn with hb | hb
    · exact hb
    · rw [hmore] at hb
      cases hb
  -- nothing refers to it yet
  have hversion : ∀ l, Version (c.advance i rest o) m l → l = o.state.log m := by
    intro l hl
    cases hl with
    | log => rfl
    | snapshot hp => exact absurd (hc.ops _ (hpend _ hp)).1 hm
  have hfirst : Ordered (o.state.log m) ∧ ∀ e ∈ o.state.log m, e.turn ≤ 1 := by
    have hlog' : o.state.log m = log := congrArg Agent.log hnew
    rw [hlog']
    rcases hlog with rfl | rfl
    · exact ⟨List.Pairwise.nil, forall_mem_nil _⟩
    · simpa [resumesFirstTurn] using hres
  refine ⟨fun l hl => ?_, fun l hl e he => ?_, fun b hb hin => ?_⟩
  · rw [hversion l hl]
    exact hfirst.1
  · have hstate : ((c.advance i rest o).state.agents m).driver.turn = 0 :=
      congrArg (·.driver.turn) hnew
    rw [hversion l hl] at he
    rw [hstate]
    exact hfirst.2 e he
  · cases b with
    | run m' k rop =>
      simp only [turnOp, Bool.and_eq_true, beq_iff_eq] at hin
      obtain ⟨rfl, -⟩ := hin
      exact absurd (hc.ops _ (hpend _ hb)) hm
    | _ => cases hin

theorem Reach.liveRuns_le_one
    (hr : Reach (machine agentEntry) (watchStop numbersTurns) .start (initialConfig publisher
      maxSess) h c)
    (m : MsRef) : liveRuns c m ≤ 1 := by
  have hr' : Reach (machine startEntry) (watchStop noStartInStop) .start
      (initialConfig publisher maxSess) h c :=
    hr.project id (fun h c a x hm => (Bool.and_eq_true_iff.mp hm).1)
      fun _ _ => startEntry_of_agentEntry
  exact (reach_exclusive hr').2.liveRuns_le_one m

theorem Reach.numbered
    (hr : Reach (machine agentEntry) (watchStop numbersTurns) .start (initialConfig publisher
      maxSess) h c) : ∀ m < c.state.nManaged, Numbered c m := by
  refine (hr.invariant_of_reach
    (fun _ c => Scoped c ∧ Stacked c ∧ ∀ m < c.state.nManaged, Numbered c m)
    ⟨.initial _ _, nofun, nofun⟩ ?_ ?_).2.2
  · rintro h c a - ⟨hc, hst, hn⟩ he
    have hentry := startEntry_of_agentEntry he
    refine ⟨hc.call hentry, hst.call hentry, fun m hm => ?_⟩
    have hpend : ∀ b, (c.call a).Pend b → c.Pend b ∨ b = a := fun b => pend_call.mp
    have hversion : ∀ l, Version (c.call a) m l → Version c m l := by
      intro l hl
      cases hl with
      | log => exact .log
      | @snapshot caller s prompt hp =>
        rcases hpend _ hp with hp | rfl
        · exact .snapshot hp
        · cases caller <;> cases he
    refine ⟨fun l hl => (hn m hm).ordered l (hversion l hl),
      fun l hl => (hn m hm).bound l (hversion l hl), fun b hb hin l hl => ?_⟩
    rcases hpend b hb with hb | rfl
    · exact (hn m hm).during b hb hin l (hversion l hl)
    · cases b with
      | run => cases he
      | _ => cases hin
  · rintro h c i a rest x o hr ⟨hc, hst, hn⟩ ht hx hm
    have hs := step_of_exec hx
    have hst' := hst.step ht hs
    refine ⟨hc.step ht hs, hst', fun m hm' => ?_⟩
    by_cases hlt : m < c.state.nManaged
    · have hlive := Reach.liveRuns_le_one (Reach.step i a rest x o hr ht hx hm) m
      exact (hn m hlt).step hlt hst hst' hlive ht hs
    · exact .fresh hc ht hx (Bool.and_eq_true_iff.mp hm).2 hlt hm'

/-- In a run without a second loop, and with sessions resumed only from logs that
end in the first turn, no turn number is smaller than one before it, and no log can
be refused for that when it is resumed again. -/
theorem turn_numbers_never_decrease {publisher : Bool} {maxSess : Nat} {h : StopHistory}
    {c : Config World Op} (hr : Reach (machine agentEntry) (watchStop numbersTurns) .start
      (initialConfig publisher maxSess) h c) (m : MsRef) (hm : m < c.state.nManaged) :
    Ordered (c.state.log m) ∧
      ∀ records, (c.state.log m).mapM agentMessageToRecord = .ok records →
        ∀ tools index turn prevTurn, validateAndDecodeResumeLog records tools ≠
          .error (.turnDecreased index turn prevTurn) := by
  have hordered := (Reach.numbered hr m hm).ordered _ .log
  exact ⟨hordered, fun records hrec => ordered_not_decreased hordered hrec⟩

/-- A session resumed from a log that ends in the given turn, and a message to it. -/
def messageAfterResume (turn : Nat) : List (Label Op Choice) :=
  [.call (.svc (.resumeSession ⟨"s", .native, []⟩ [userMessage turn "one"])), .go 0 1,
   .call (.svc (.sendMessage "s" "two")), .go 1 31, .go 2 48]

theorem turn_numbers_never_decrease_after_first :
    ∃ h c, Reach (machine agentEntry) (watchStop numbersTurns) .start (initialConfig false 0) h c ∧
      0 < c.state.nManaged ∧ (c.state.log 0).map (·.turn) = [1, 1, 1] ∧
      Ordered (c.state.log 0) := by
  refine Machine.follow_imp Choice.default (messageAfterResume 1)
    (fun _ c => 0 < c.state.nManaged ∧ (c.state.log 0).map (·.turn) = [1, 1, 1]) ?_
  rintro h c hr ⟨hm, hturns⟩
  exact ⟨hm, hturns, (turn_numbers_never_decrease hr 0 hm).1⟩

/-- Why a log cannot be resumed, if its turn numbers are the reason. -/
def refusedForTurns (log : List AgentMessage) : Option (Nat × Int × Int) :=
  match log.mapM agentMessageToRecord with
  | .error _ => none
  | .ok records =>
    match validateAndDecodeResumeLog records [] with
    | .error (.turnDecreased index turn prevTurn) => some (index, turn, prevTurn)
    | _ => none

theorem refusedForTurns_some (h : refusedForTurns log = some (index, turn, prevTurn)) :
    ∃ records, log.mapM agentMessageToRecord = .ok records ∧
      validateAndDecodeResumeLog records [] = .error (.turnDecreased index turn prevTurn) := by
  unfold refusedForTurns at h
  split at h
  · cases h
  · rename_i records hrec
    split at h
    · rename_i hval
      cases h
      exact ⟨records, hrec, hval⟩
    · cases h

/-- A log of one message in turn 2 is accepted; the message sent to the session
resumed from it is of turn 1, and the log is not accepted again. -/
theorem resumed_log_refused :
    ∃ records log warnings, validateAndDecodeResumeLog records [] = .ok (log, warnings) ∧
      ∃ c, Reach (machine agentEntry) .free ()
          ((initialConfig false 0).call (.svc (.resumeSession ⟨"s", .native, []⟩ log))) () c ∧
        ¬ Ordered (c.state.log 0) ∧
        ∃ records', (c.state.log 0).mapM agentMessageToRecord = .ok records' ∧
          validateAndDecodeResumeLog records' [] = .error (.turnDecreased 1 1 2) := by
  let payload : UserRecordContent := { text := "one", hasTextBlock := true, timestamp := 0 }
  refine ⟨[⟨2, agentMessageRoleUser, payload.marshal, 0⟩], [userMessage 2 "one"], [], rfl, ?_⟩
  refine Machine.follow_state_imp Choice.default
    [.go 0 1, .call (.svc (.sendMessage "s" "two")), .go 1 31, .go 2 2]
    (fun c => ¬ Ordered (c.state.log 0) ∧ refusedForTurns (c.state.log 0) = some (1, 1, 2)) ?_
  rintro c hr ⟨hord, href⟩
  exact ⟨hord, refusedForTurns_some href⟩

end FlexAgentRuntime.AgentLoop
