import FlexAgentRuntime.Agent.ServiceExec

/-!
What the actions can do, said once: the effect of `Transition` and
`AppendConversation` on an agent, the actions of `NativeDriver.run` with one constructor
for every branch, the effect of any of them, and the inversion of the service's calls.
-/

namespace FlexAgentRuntime.AgentLoop

open Interleaving Ai List

/-! ## Agent methods -/

namespace Agent

/-- `a'` has the conversation, the flags and the driver of `a`. -/
structure Same (a a' : Agent) : Prop where
  log : a'.log = a.log
  session : a'.session.isSome = a.session.isSome
  kind : a'.kind = a.kind
  driver : a'.driver = a.driver
  running : a'.running = a.running
  control : a'.control = a.control

theorem Same.refl (a : Agent) : a.Same a := ⟨rfl, rfl, rfl, rfl, rfl, rfl⟩

theorem transition_ok {a a' : Agent} (h : a.transition dst = .ok (a', changed)) :
    a.state ≠ .exited ∧ a'.state = dst ∧ a.Same a' := by
  unfold transition at h
  split at h
  · cases h
  · rename_i hne
    split at h
    · rename_i heq
      cases h
      exact ⟨hne, heq, Same.refl a⟩
    · split at h
      · cases h
        refine ⟨hne, rfl, ?_, ?_, rfl, rfl, rfl, rfl⟩
        · unfold log
          cases a.session <;> rfl
        · cases a.session <;> rfl
      · cases h

theorem transition_exited {a : Agent} (h : a.transition .exited = .error err) :
    a.state = .exited := by
  unfold transition at h
  by_contra hne
  rw [if_neg hne, if_neg hne] at h
  cases hs : a.state <;> simp_all [validTransitions]

theorem count_same (a : Agent) (f : SessionMetrics → SessionMetrics) : a.Same (a.count f) := by
  refine ⟨?_, ?_, rfl, rfl, rfl, rfl⟩
  · unfold log count
    cases a.session <;> rfl
  · unfold count
    cases a.session <;> rfl

theorem appendConversation_some {a a' : Agent} (h : a.appendConversation msg = some a') :
    a'.log = a.log ++ [msg] ∧ a'.session.isSome = a.session.isSome ∧ a'.kind = a.kind ∧
      a'.driver = a.driver ∧ a'.running = a.running ∧ a'.control = a.control ∧
      a'.state = a.state := by
  unfold appendConversation at h
  obtain ⟨s, hs, rfl⟩ := Option.map_eq_some_iff.mp h
  simp [log, hs]

end Agent

/-! ## Branches of a run -/

inductive RunOp.Step (m : MsRef) (k : Nat) (a : Agent) : RunOp → Agent → List Op → Prop where
  | topCancelled {prompt} : a.ctxErr k = true → Step m k a (.top prompt) a
      [.agent m (.emit (errorEvent k .aborted 0 canceled)), .run m k .transitionIdle]
  | topContinue : a.ctxErr k = false → Step m k a (.top "") a [.run m k .turnBegin]
  | topPrompt {prompt} : a.ctxErr k = false → prompt ≠ "" → Step m k a (.top prompt) a
      [.run m k (.appendUser prompt), .run m k .turnBegin]
  | userBlank {prompt} : trimSpace prompt = "" → Step m k a (.appendUser prompt) a []
  | userLost {prompt} : a.session = none → Step m k a (.appendUser prompt) a []
  | appendUser {prompt a'} : trimSpace prompt ≠ "" →
      a.appendConversation (userMessage (a.driver.turn + 1) (trimSpace prompt)) = some a' →
      Step m k a (.appendUser prompt) a' []
  | turnBegin : Step m k a .turnBegin
      (a.setDriver fun d => { d with turn := a.driver.turn + 1 }).markTurnStarted
      [.agent m (.emit { type := .turnStarted, origin := .run k, turn := a.driver.turn + 1 }),
        .run m k .turnLoop]
  | turnCancelled : a.ctxErr k = true → Step m k a .turnLoop a [.run m k (.turnError canceled)]
  | turnLoop : a.ctxErr k = false → Step m k a .turnLoop a [.run m k .turnStreaming]
  | streamingRefused {err} : a.transition .streaming = .error err →
      Step m k a .turnStreaming a [.run m k (.turnError err)]
  | streaming {a' changed} : a.transition .streaming = .ok (a', changed) →
      Step m k a .turnStreaming a'
        (emitChange m changed .streaming (.run k) ++ [.run m k .callProvider])
  | sessionMissing {err} : a.session = none → Step m k a .callProvider a
      [.agent m (.emit (errorEvent k .providerError a.driver.turn err)),
        .run m k (.turnError err)]
  | callProvider : Step m k a .callProvider a [.run m k .providerStream]
  | delta {evt} : evt.origin = .run k → isTerminalTurnEvent evt = false →
      Step m k a .providerStream a [.agent m (.emit evt), .run m k .providerStream]
  | answer {msg} : Step m k a .providerStream a [.run m k (.appendAssistant msg)]
  | providerError {err} : Step m k a .providerStream a
      [.agent m (.emit (errorEvent k .providerError a.driver.turn err)),
        .run m k (.turnError err)]
  | providerPanic {err} : Step m k a .providerStream a [.run m k (.turnError err)]
  | assistantLost {msg err} : a.session = none →
      Step m k a (.appendAssistant msg) a [.run m k (.turnError err)]
  | appendAssistant {msg evt a'} :
      a.appendConversation { turn := a.driver.turn, message := .assistant msg } = some a' →
      evt.origin = .run k → isTerminalTurnEvent evt = false →
      Step m k a (.appendAssistant msg) a'
        [.agent m (.emit evt), .run m k (.toolPhase (extractToolCalls msg))]
  | noTools {calls} : calls.isEmpty = true →
      Step m k a (.toolPhase calls) a [.run m k .turnComplete]
  | toolPhaseRefused {calls err} : a.transition .toolExecution = .error err →
      Step m k a (.toolPhase calls) a [.run m k (.turnError err)]
  | toolPhase {calls a' changed} : a.transition .toolExecution = .ok (a', changed) →
      Step m k a (.toolPhase calls) a'
        (emitChange m changed .toolExecution (.run k) ++ [.run m k (.runTools calls)])
  | toolsRun : Step m k a (.runTools []) a [.run m k .turnLoop]
  | toolUnknown {call rest result err} : Step m k a (.runTools (call :: rest)) a
      [.run m k (.appendToolResult call result err rest)]
  | toolStarted {call rest evt} : evt.origin = .run k → isTerminalTurnEvent evt = false →
      Step m k a (.runTools (call :: rest)) a.recordToolStarted
        [.agent m (.emit evt), .run m k (.toolWait call rest)]
  | toolUpdate {call rest evt} : evt.origin = .run k → isTerminalTurnEvent evt = false →
      Step m k a (.toolWait call rest) a
        [.agent m (.emit evt), .run m k (.toolWait call rest)]
  | toolReturned {call rest result err} : Step m k a (.toolWait call rest) a
      [.run m k (.toolFinish call result err rest)]
  | toolPanic {call rest err} :
      Step m k a (.toolWait call rest) a [.run m k (.turnError err)]
  | toolFinish {call rest result err} : Step m k a (.toolFinish call result err rest)
      a.recordToolFinished [.run m k (.appendToolResult call result err rest)]
  | resultLost {call rest result err err'} : a.session = none →
      Step m k a (.appendToolResult call result err rest) a [.run m k (.turnError err')]
  | appendToolResult {call rest result err a'} {terminal : Bool} :
      a.appendConversation (toolResultMessage a.driver.turn call result) = some a' →
      Step m k a (.appendToolResult call result err rest) a'
        ((toolResultEvents k a'.driver.turn call result err terminal).map
            (fun e => .agent m (.emit e)) ++
          [.run m k (if terminal then .turnComplete else .runTools rest)])
  | turnComplete : Step m k a .turnComplete a.markTurnCompleted
      [.agent m (.emit { type := .turnCompleted, origin := .run k, turn := a.driver.turn }),
        .run m k (.drain [])]
  | turnError {err} : Step m k a (.turnError err) a.recordError
      [.agent m (.emit (errorEvent k .driverError 0 err)), .run m k .transitionIdle]
  | drain {cmds cmd ch} : a.control.ch = cmd :: ch → Step m k a (.drain cmds)
      { a with control := { a.control with ch := ch } } [.run m k (.drain (cmds ++ [cmd]))]
  | drained {cmds} : a.control.ch = [] →
      Step m k a (.drain cmds) a [.run m k (.nextPrompt cmds)]
  | abort {cmds steer followUps msg} :
      nextPromptFromControlQueue cmds a.driver.pendingSteer a.driver.followUps =
        (steer, followUps, .abort msg) →
      Step m k a (.nextPrompt cmds)
        (a.setDriver fun d => { d with pendingSteer := steer, followUps := followUps })
        [.agent m (.emit { type := .aborted, origin := .run k, controlMessage := msg }),
          .run m k .transitionIdle]
  | prompt {cmds steer followUps p} :
      nextPromptFromControlQueue cmds a.driver.pendingSteer a.driver.followUps =
        (steer, followUps, .prompt p) →
      Step m k a (.nextPrompt cmds)
        (a.setDriver fun d => { d with pendingSteer := steer, followUps := followUps })
        [.run m k (.top p)]
  | noPrompt {cmds steer followUps} :
      nextPromptFromControlQueue cmds a.driver.pendingSteer a.driver.followUps =
        (steer, followUps, .done) →
      Step m k a (.nextPrompt cmds)
        (a.setDriver fun d => { d with pendingSteer := steer, followUps := followUps })
        [.run m k .transitionIdle]
  | idleRefused {err} : a.transition .idle = .error err → Step m k a .transitionIdle a []
  | idle {a' changed} : a.transition .idle = .ok (a', changed) →
      Step m k a .transitionIdle a' (emitChange m changed .idle (.run k))
  | deferred : Step m k a .deferred (a.setDriver fun d => { d with running := false })
      [.run m k .driverIdle]
  | driverIdle : Step m k a .driverIdle a.onDriverIdle []

theorem appendConversation_none {a : Agent} (h : a.appendConversation msg = none) :
    a.session = none := by
  simpa [Agent.appendConversation] using h

theorem RunOp.step_of_exec {op : RunOp} (h : op.exec m k x a = some (a', more)) :
    op.Step m k a a' more := by
  cases op with try simp only [exec] at h
  | top prompt =>
    split at h
    · cases h
      exact .topCancelled ‹_›
    · rename_i hctx
      have hctx : a.ctxErr k = false := by simpa using hctx
      split at h
      · subst prompt
        cases h
        exact .topContinue hctx
      · cases h
        exact .topPrompt hctx ‹_›
  | appendUser prompt =>
    split at h
    · obtain ⟨rfl, rfl⟩ := Prod.mk.inj (Option.some.inj h)
      exact .userBlank ‹_›
    · obtain ⟨rfl, rfl⟩ := Prod.mk.inj (Option.some.inj h)
      cases ha : a.appendConversation (userMessage (a.driver.turn + 1) (trimSpace prompt)) with
      | none => exact .userLost (appendConversation_none ha)
      | some a' => exact .appendUser ‹_› ha
  | turnLoop =>
    split at h <;> cases h
    · exact .turnCancelled ‹_›
    · exact .turnLoop (Bool.of_not_eq_true ‹_›)
  | turnStreaming | drain | transitionIdle => split at h <;> cases h <;> constructor <;> assumption
  | callProvider =>
    split at h <;> cases h
    · exact .sessionMissing ‹_›
    · exact .callProvider
  | providerStream =>
    cases x <;> cases h
    · exact .providerError
    · exact .providerPanic
    · exact .delta rfl rfl
    · exact .delta rfl rfl
    · exact .answer
  | appendAssistant msg =>
    split at h <;> cases h
    · exact .assistantLost (appendConversation_none ‹_›)
    · exact .appendAssistant ‹_› rfl rfl
  | toolPhase calls =>
    split at h
    · cases h
      exact .noTools ‹_›
    · split at h <;> cases h <;> constructor <;> assumption
  | runTools calls =>
    cases calls with
    | nil => cases h; exact .toolsRun
    | cons call rest =>
      simp only [exec] at h
      split at h <;> cases h
      · exact .toolUnknown
      · exact .toolStarted rfl rfl
  | toolWait call rest =>
    cases x <;> cases h
    · exact .toolPanic
    · exact .toolUpdate rfl rfl
    · exact .toolReturned
  | appendToolResult call result err rest =>
    split at h <;> cases h
    · exact .resultLost (appendConversation_none ‹_›)
    · exact .appendToolResult ‹_›
  | nextPrompt cmds =>
    rcases hn : nextPromptFromControlQueue cmds a.driver.pendingSteer a.driver.followUps with
      ⟨steer, followUps, next⟩
    rw [hn] at h
    cases next <;> cases h <;> constructor <;> assumption
  | _ => cases h; constructor

/-! ## Actions of a run -/

/-- An action of the loop itself, not of the deferred function. -/
def RunOp.looping : RunOp → Bool
  | .deferred | .driverIdle => false
  | _ => true

/-- What can follow an action of the run on context `k`: another one, or the
emission of an event with its provenance. The deferred function is there from
the start, and the idle report comes after it only. -/
inductive RunOp.Next (m : MsRef) (k : Nat) (op : RunOp) : Op → Prop where
  | run {op'} : op'.looping = true → Next m k op (.run m k op')
  | idle : op = .deferred → Next m k op (.run m k .driverIdle)
  | emit {evt} : evt.origin = .run k → Next m k op (.agent m (.emit evt))

/-- The effect of any action of a run. It keeps the contexts, it neither enters
nor leaves the exited state, and only appends to the conversation. -/
structure RunOp.Effect (m : MsRef) (k : Nat) (op : RunOp) (a a' : Agent) (more : List Op) :
    Prop where
  kind : a'.kind = a.kind
  contexts : a'.driver.contexts = a.driver.contexts
  exited : a'.state = .exited ↔ a.state = .exited
  session : a'.session.isSome = a.session.isSome
  log : ∃ entries, a'.log = a.log ++ entries
  running : a'.running = a.running ∨ op = .driverIdle
  next : ∀ b ∈ more, RunOp.Next m k op b

namespace RunOp.Effect

variable {m : MsRef} {k : Nat} {op : RunOp} {a a' : Agent} {more : List Op}

variable (hn : ∀ b ∈ more, RunOp.Next m k op b)
include hn

theorem of_same (h : a.Same a') (hs : a'.state = .exited ↔ a.state = .exited) :
    Effect m k op a a' more :=
  ⟨h.kind, by rw [h.driver], hs, h.session, ⟨[], by rw [h.log, append_nil]⟩,
    .inl h.running, hn⟩

theorem of_transition {dst : AgentState} {changed : Bool}
    (h : a.transition dst = .ok (a', changed)) (hd : dst ≠ .exited) :
    Effect m k op a a' more := by
  obtain ⟨hne, hst, hsame⟩ := Agent.transition_ok h
  refine of_same hn hsame ?_
  rw [hst]
  exact ⟨fun h => absurd h hd, fun h => absurd h hne⟩

theorem of_append {msg : AgentMessage} (h : a.appendConversation msg = some a') :
    Effect m k op a a' more := by
  obtain ⟨hlog, hsess, hkind, hdrv, hrun, _, hst⟩ := Agent.appendConversation_some h
  exact ⟨hkind, by rw [hdrv], by rw [hst], hsess, ⟨[msg], hlog⟩, .inl hrun, hn⟩

theorem unchanged : Effect m k op a a more :=
  of_same hn (Agent.Same.refl a) Iff.rfl

theorem counted : Effect m k op a (a.count f) more :=
  of_same hn (a.count_same f) Iff.rfl

end RunOp.Effect

variable {k : Nat} {m : MsRef} {op op' : RunOp} {changed : Bool} {dst : AgentState}
  {evt : AgentEvent}

theorem emitChange_next (h : b ∈ emitChange m changed dst (.run k)) : RunOp.Next m k op b := by
  unfold emitChange at h
  split at h
  · rw [mem_singleton.mp h]
    exact .emit rfl
  · cases h

theorem toolResultEvents_origin (h : evt ∈ toolResultEvents k turn call result err terminal) :
    evt.origin = .run k := by
  unfold toolResultEvents at h
  cases err <;> cases terminal <;> simp at h <;> rcases h with rfl | h <;> try rfl
  all_goals first | (subst h; rfl) | (rcases h with rfl | rfl <;> rfl)

theorem next_pair (he : evt.origin = .run k) (hl : op'.looping = true) :
    ∀ b ∈ [Op.agent m (.emit evt), .run m k op'], RunOp.Next m k op b := by
  intro b hb
  rcases mem_pair.mp hb with rfl | rfl
  · exact .emit he
  · exact .run hl

theorem next_one (hl : op'.looping = true) : ∀ b ∈ [Op.run m k op'], RunOp.Next m k op b := by
  intro b hb
  rw [mem_singleton.mp hb]
  exact .run hl

theorem next_change (hl : op'.looping = true) :
    ∀ b ∈ emitChange m changed dst (.run k) ++ [.run m k op'], RunOp.Next m k op b := by
  intro b hb
  rcases mem_append.mp hb with hb | hb
  · exact emitChange_next hb
  · exact next_one hl b hb

theorem RunOp.exec_effect {a : Agent} (h : op.exec m k x a = some (a', more)) :
    op.Effect m k a a' more := by
  cases RunOp.step_of_exec h with
  | topCancelled | sessionMissing | providerError => exact .unchanged (next_pair rfl rfl)
  | delta ho | toolUpdate ho => exact .unchanged (next_pair ho rfl)
  | topPrompt => exact .unchanged (forall_mem_cons.mpr ⟨.run rfl, next_one rfl⟩)
  | userBlank | userLost | idleRefused => exact .unchanged (forall_mem_nil _)
  | appendUser _ ha => exact .of_append (forall_mem_nil _) ha
  | appendAssistant ha ho => exact .of_append (next_pair ho rfl) ha
  | turnBegin => exact { Effect.counted (a := a.setDriver _) (next_pair rfl rfl) with }
  | streaming ht | toolPhase ht => exact .of_transition (next_change rfl) ht (by decide)
  | toolStarted ho => exact .counted (next_pair ho rfl)
  | toolFinish => exact .counted (next_one rfl)
  | appendToolResult ha =>
    refine .of_append (fun b hb => ?_) ha
    rcases mem_map_concat hb with ⟨evt, he, rfl⟩ | rfl
    · exact .emit (toolResultEvents_origin he)
    · split <;> exact .run rfl
  | turnComplete | turnError => exact .counted (next_pair rfl rfl)
  | drain | prompt | noPrompt => exact { Effect.unchanged (a := a) (next_one rfl) with }
  | abort => exact { Effect.unchanged (a := a) (next_pair rfl rfl) with }
  | idle ht => exact .of_transition (fun b hb => emitChange_next hb) ht (by decide)
  | deferred =>
    refine { Effect.unchanged (a := a) fun b hb => ?_ with }
    rw [mem_singleton.mp hb]
    exact .idle rfl
  | driverIdle =>
    exact ⟨rfl, rfl, Iff.rfl, rfl, ⟨[], by rw [append_nil]; rfl⟩, .inr rfl, forall_mem_nil _⟩
  | _ => exact .unchanged (next_one rfl)

/-! ## Calls of the service -/

namespace World

variable {w w' : World} {id : String} {more : List Op} {cfg : SessionConfig}

theorem lookup_some (h : w.lookup id = some m) : (id, m) ∈ w.svc.sessions := by
  obtain ⟨⟨id', m'⟩, hp, rfl⟩ := Option.map_eq_some_iff.mp h
  have hid : id' = id := by simpa using List.find?_some hp
  exact hid ▸ mem_of_find?_eq_some hp

theorem lookup_none (h : w.lookup id = none) : ∀ m, (id, m) ∉ w.svc.sessions := by
  intro m hm
  rw [lookup, Option.map_eq_none_iff, List.find?_eq_none] at h
  exact h (id, m) hm (beq_self_eq_true id)

theorem getSession_some (h : w.getSession id = some m) :
    (id, m) ∈ w.svc.sessions ∧ (w.managed m).destroyed = false := by
  obtain ⟨hl, hd⟩ := Option.filter_eq_some_iff.mp h
  exact ⟨lookup_some hl, by simpa using hd⟩

/-- A call that looks a session up is refused, or goes on with a session that is
there and not destroyed. -/
theorem withSession_inv {next : MsRef → World × List Op}
    (h : w.withSession id next = some (w', more)) :
    (∃ err, w' = w ∧ more = [.svc (.refuse err)]) ∨
      ∃ m, (id, m) ∈ w.svc.sessions ∧ (w.managed m).destroyed = false ∧ next m = (w', more) := by
  unfold withSession at h
  split at h
  · cases h
    exact .inl ⟨_, rfl, rfl⟩
  · split at h
    · rename_i m hm
      obtain ⟨hmem, hd⟩ := getSession_some hm
      exact .inr ⟨m, hmem, hd, Option.some.inj h⟩
    · cases h
      exact .inl ⟨_, rfl, rfl⟩

@[simp] theorem lookup_setGenerated (w : World) (n : Nat) (id : String) :
    (w.setGenerated n).lookup id = w.lookup id := rfl

theorem checkCreate_ok (h : w.checkCreate cfg = .ok (w', id)) :
    (∃ n, w' = w.setGenerated n) ∧ w.svc.closed = false ∧
      (0 < w.svc.maxSess → w.svc.sessions.length < w.svc.maxSess) ∧ w.lookup id = none := by
  unfold checkCreate at h
  split at h
  · cases h
  · rename_i hc
    split at h
    · cases h
    · rename_i hmax
      have hroom : 0 < w.svc.maxSess → w.svc.sessions.length < w.svc.maxSess := by
        intro hpos
        simpa [hpos] using hmax
      simp only at h
      by_cases hid : cfg.sessionID = ""
      · simp only [hid, if_true] at h
        split at h
        · cases h
        · rename_i hl
          cases h
          exact ⟨⟨_, rfl⟩, by simpa using hc, hroom, by simpa using hl⟩
      · simp only [hid, if_false] at h
        split at h
        · cases h
        · rename_i hl
          cases h
          exact ⟨⟨w.svc.generated, rfl⟩, by simpa using hc, hroom, by simpa using hl⟩

theorem refused_eq (w : World) (cfg : SessionConfig) : ∃ n, w.refused cfg = w.setGenerated n := by
  unfold refused
  split
  · exact ⟨w.svc.generated, rfl⟩
  · split
    · exact ⟨w.svc.generated, rfl⟩
    · split
      · exact ⟨_, rfl⟩
      · exact ⟨w.svc.generated, rfl⟩

/-- `CreateSession` and `ResumeSession` are refused, or enter a fresh session
under an id that is free. -/
theorem create_inv (h : w.create cfg log started x = some (w', more)) :
    (∃ n err, w' = w.setGenerated n ∧ more = [.svc (.refuse err)]) ∨
      ∃ n id, x = .ok ∧ w.checkCreate cfg = .ok (w.setGenerated n, id) ∧
        w' = (w.setGenerated n).insertSession cfg id log started ∧ more = [] ∧
        w.svc.closed = false ∧
        (0 < w.svc.maxSess → w.svc.sessions.length < w.svc.maxSess) ∧ w.lookup id = none := by
  obtain ⟨nr, hr⟩ := w.refused_eq cfg
  cases x with
  | ok =>
    simp only [create] at h
    split at h <;> cases h
    · rename_i hc
      obtain ⟨⟨n, rfl⟩, h₁, h₂, h₃⟩ := checkCreate_ok hc
      exact .inr ⟨n, _, rfl, hc, rfl, rfl, h₁, h₂, h₃⟩
    · exact .inl ⟨nr, _, hr, rfl⟩
  | error msg =>
    simp only [create] at h
    split at h <;> cases h
    · rename_i hc
      obtain ⟨⟨n, rfl⟩, -⟩ := checkCreate_ok hc
      exact .inl ⟨n, _, rfl, rfl⟩
    · exact .inl ⟨nr, _, hr, rfl⟩
  | _ => cases h

end World

end FlexAgentRuntime.AgentLoop
