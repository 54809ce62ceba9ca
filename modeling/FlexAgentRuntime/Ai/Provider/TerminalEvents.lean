import FlexAgentRuntime.Ai.Provider.Anthropic
import FlexAgentRuntime.Ai.Provider.Google
import FlexAgentRuntime.Ai.Provider.OpenAI

/-!
A provider's stream has one terminal event, and it is the last one.

The machines of OpenAI and Google send their terminal event when they finish, and only if they
do not fail then. The machine of Anthropic sends it at `message_stop` and reads on: what comes
after that event must be silent (`Settled`).
-/

namespace FlexAgentRuntime.Ai

open Transducer List

section Machines

variable {β ι σ : Type} {M : Machine ι σ (AssistantMessageEvent β) String}

/-- No step of the machine writes a terminal event, and it finishes with one or fails. -/
structure EndsOnce (M : Machine ι σ (AssistantMessageEvent β) String) : Prop where
  step : ∀ s i, ∀ e ∈ (M.step s i).1, e.terminal = false
  failed : ∀ s, (M.finish s).2.2.isSome = true → ∀ e ∈ (M.finish s).1, e.terminal = false
  done : ∀ s, (M.finish s).2.2 = none → TerminalLast (M.finish s).1

abbrev NoTerminal (events : List (AssistantMessageEvent β)) : Prop :=
  ∀ e ∈ events, e.terminal = false

theorem noTerminal_ite {p : Prop} [Decidable p] {event : AssistantMessageEvent β}
    (h : event.terminal = false) : NoTerminal (if p then [] else [event]) := by
  split
  · exact forall_mem_nil _
  · exact forall_mem_singleton.mpr h

theorem TerminalLast.after {out events : List (AssistantMessageEvent β)}
    (h : TerminalLast events) (hout : NoTerminal out) :
    TerminalLast (out ++ events) := by
  obtain ⟨before, last, rfl, hbefore, hlast⟩ := h
  refine ⟨out ++ before, last, by simp, ?_, hlast⟩
  exact forall_mem_append.mpr ⟨hout, hbefore⟩

theorem EndsOnce.finished (h : EndsOnce M) {out : List (AssistantMessageEvent β)}
    (hout : NoTerminal out) (s : σ) (endpoint : ProviderEndpoint) (model : Model)
    (now : Int) : TerminalLast (sentEvents endpoint model now ((M.finished s).after out)) := by
  cases he : (M.finish s).2.2 with
  | none => exact terminalLast_of_done he ((h.done s he).after hout) _ _ _
  | some e =>
    refine terminalLast_of_error (show ((M.finished s).after out).error = some e from he) ?_ _ _ _
    exact forall_mem_append.mpr ⟨hout, h.failed s (by rw [he]; rfl)⟩

theorem EndsOnce.run (h : EndsOnce M) (interrupt : Option (Nat × String)) (eof : Option String)
    (s : σ) (is : List ι) (endpoint : ProviderEndpoint) (model : Model) (now : Int) :
    TerminalLast (sentEvents endpoint model now (M.run interrupt eof s is)) := by
  have hlast : ∀ {s i outs r}, M.step s i = (outs, r) → NoTerminal outs := by
    intro s i outs r hstep
    have := h.step s i
    rwa [hstep] at this
  have hsteps : ∀ {s is out t}, M.Steps s is out t → NoTerminal out :=
    fun hs => hs.forall_out hlast
  have hends := Machine.run_cases M interrupt eof s is
  generalize M.run interrupt eof s is = r at hends ⊢
  cases hends with
  | finish hs => exact h.finished (hsteps hs) ..
  | eof hs | interrupt _ hs => exact terminalLast_of_error rfl (hsteps hs) ..
  | stop _ hs hstop =>
    exact h.finished (forall_mem_append.mpr ⟨hsteps hs, hlast hstop⟩) ..
  | fail _ hs hfail =>
    exact terminalLast_of_error rfl (forall_mem_append.mpr ⟨hsteps hs, hlast hfail⟩) ..

theorem terminalLast_failed (message : String) (s : σ) (endpoint : ProviderEndpoint)
    (model : Model) (now : Int) : TerminalLast (sentEvents endpoint model now
      (⟨[], s, some message⟩ : Result σ (AssistantMessageEvent β) String)) :=
  terminalLast_of_error rfl (forall_mem_nil _) ..

theorem EndsOnce.stream (h : EndsOnce M) (decode : Sse.Bytes → ι) (init : σ)
    (canceled : Option Nat) (response : Response) (endpoint : ProviderEndpoint) (model : Model)
    (now : Int) :
    (streamOf endpoint model now (runStream M decode init canceled response)).OneTerminal := by
  rw [streamOf_eq]
  refine TerminalLast.oneTerminal ?_ now
  cases response with
  | failed message | canceled | status message => exact terminalLast_failed ..
  | body bytes readErr => exact h.run ..

end Machines

/-! ## OpenAI -/

namespace OpenAI

variable (env : StreamEnv)

theorem terminal_each {α : Type}
    {f : StreamAccumulator → α → List Event × Step StreamAccumulator String}
    (hf : ∀ acc a, NoTerminal (f acc a).1) (as : List α) :
    ∀ acc, NoTerminal (each f acc as).1 := by
  induction as with
  | nil => exact fun _ => forall_mem_nil _
  | cons a as ih =>
    intro acc
    have ha := hf acc a
    unfold each
    split
    · rename_i out acc' heq
      rw [heq] at ha
      exact forall_mem_append.mpr ⟨ha, ih acc'⟩
    · exact ha

theorem terminal_toolCallDelta (acc : StreamAccumulator) (tc : WireToolCall) :
    NoTerminal (processToolCallDelta env acc tc).1 := by
  have hopen : NoTerminal (openCall acc (tc.index.getD 0) tc).1 := by
    unfold openCall
    split
    · exact forall_mem_nil _
    · exact forall_mem_singleton.mpr rfl
  unfold processToolCallDelta
  dsimp only
  split
  · exact hopen
  · split
    · exact hopen
    · exact forall_mem_append.mpr ⟨hopen, forall_mem_singleton.mpr rfl⟩

theorem terminal_choice (acc : StreamAccumulator) (choice : ChunkChoice) :
    NoTerminal (processChoice env acc choice).1 := by
  have htexts : NoTerminal (choiceTexts acc choice).1 := by
    unfold choiceTexts
    exact forall_mem_append.mpr ⟨noTerminal_ite rfl, noTerminal_ite rfl⟩
  have hcalls := terminal_each (terminal_toolCallDelta env) choice.toolCalls
    (choiceTexts acc choice).2
  unfold processChoice
  dsimp only
  split <;> rename_i heq <;> rw [heq] at hcalls <;>
    exact forall_mem_append.mpr ⟨htexts, hcalls⟩

theorem terminal_finalize (states : List (Σ _ : Int, ToolStreamState)) :
    NoTerminal (finalizeToolCalls env states).1 := by
  induction states with
  | nil => exact forall_mem_nil _
  | cons s states ih =>
    unfold finalizeToolCalls
    split
    · exact forall_mem_nil _
    · exact forall_mem_cons.mpr ⟨rfl, ih⟩

theorem terminal_start (acc : StreamAccumulator) (chunk : ChatChunk) :
    NoTerminal (startChunk env acc chunk).1 := by
  unfold startChunk
  split
  · exact forall_mem_nil _
  · exact forall_mem_singleton.mpr rfl

theorem terminal_event (acc : StreamAccumulator) (w : WireEvent) :
    NoTerminal (processEvent env acc w).1 := by
  cases w with
  | blank | done | invalid => exact forall_mem_nil _
  | chunk chunk =>
    exact forall_mem_append.mpr
      ⟨terminal_start env acc chunk, terminal_each (terminal_choice env) _ _⟩

theorem endsOnce : EndsOnce (machine env) where
  step acc w := terminal_event env _ w
  failed acc := by
    show (finishStream env _).2.isSome = true → NoTerminal (finishStream env _).1
    have hcalls := terminal_finalize env (acc.toolStates.entries.insertionSort fun s s' => s.1 ≤ s'.1)
    unfold finishStream
    split
    · rename_i heq
      rw [heq] at hcalls
      exact fun _ => hcalls
    · exact fun h => by cases h
  done acc := by
    show (finishStream env _).2 = none → TerminalLast (finishStream env _).1
    have hcalls := terminal_finalize env (acc.toolStates.entries.insertionSort fun s s' => s.1 ≤ s'.1)
    unfold finishStream
    split
    · exact fun h => by cases h
    · rename_i heq
      rw [heq] at hcalls
      exact fun _ => ⟨_, _, rfl, hcalls, rfl, rfl⟩

end OpenAI

/-! ## Google -/

namespace Google

variable (env : StreamEnv)

theorem terminal_part (acc : StreamAccumulator) (p : Part) :
    NoTerminal (processPart acc p).1 := by
  unfold processPart
  split
  · exact forall_mem_cons.mpr ⟨rfl, forall_mem_singleton.mpr rfl⟩
  · split
    · exact forall_mem_nil _
    · split
      · exact forall_mem_singleton.mpr rfl
      · split
        · exact forall_mem_singleton.mpr rfl
        · exact forall_mem_nil _

theorem terminal_parts (parts : List Part) :
    ∀ acc, NoTerminal (processCandidateParts acc parts).1 := by
  induction parts with
  | nil => exact fun _ => forall_mem_nil _
  | cons p parts ih =>
    exact fun acc => forall_mem_append.mpr ⟨terminal_part acc p, ih _⟩

theorem terminal_candidate (acc : StreamAccumulator) (cand : Candidate) :
    NoTerminal (processCandidate acc cand).1 := by
  unfold processCandidate
  dsimp only
  split
  · exact forall_mem_nil _
  · exact terminal_parts _ _

theorem terminal_event (acc : StreamAccumulator) (w : WireEvent) :
    NoTerminal (processEvent env acc w).1 := by
  cases w with
  | blank | invalid => exact forall_mem_nil _
  | chunk chunk =>
    have hstart : NoTerminal (if acc.started then ([] : List Event)
        else [{ type := .start, partialMessage := some (acc.snapshot env) }]) := noTerminal_ite rfl
    unfold processEvent
    dsimp only
    split
    · exact hstart
    · split
      · exact hstart
      · rename_i cand _ _
        have hcand := terminal_candidate { acc with started := true } cand
        split <;> rename_i heq <;> rw [heq] at hcand <;>
          exact forall_mem_append.mpr ⟨hstart, hcand⟩

theorem endsOnce : EndsOnce (machine env) where
  step acc w := terminal_event env _ w
  failed acc := by
    dsimp only [machine]
    split
    · exact fun _ => forall_mem_nil _
    · exact fun h => by cases h
  done acc := by
    dsimp only [machine]
    split
    · exact fun h => by cases h
    · exact fun _ => ⟨[], _, rfl, forall_mem_nil _, rfl, rfl⟩

end Google

/-! ## Anthropic -/

namespace Anthropic

/-- Events that neither send anything nor fail once the terminal event has been sent. -/
def WireEvent.quiet : WireEvent → Bool
  | .blank | .ping | .other | .messageStop | .messageDelta (.ok _) => true
  | _ => false

/-- After a `message_stop` there are only quiet events, the input ends without an error, and
the context is not found cancelled, unless it was before that event. -/
def Settled (canceled : Option Nat) (eof : Option String) (ws : List WireEvent) : Prop :=
  ∀ before after, ws = before ++ .messageStop :: after →
    (∃ k, canceled = some k ∧ k ≤ before.length) ∨
      (∀ k, canceled = some k → ws.length ≤ k) ∧ eof = none ∧ ∀ w ∈ after, w.quiet = true

def WireEvent.isStop : WireEvent → Bool
  | .messageStop => true
  | _ => false

/-- The events up to `message_stop`. -/
def untilStop (ws : List WireEvent) : List WireEvent := ws.takeWhile fun w => !w.isStop

/-- The processor when it takes the next event. -/
def SseProcessor.next (p : SseProcessor) : SseProcessor := { p with read := p.read + 1 }

/-- The event that `finish` sends. -/
def doneEvent (env : StreamEnv) (p : SseProcessor) : Event where
  type := .done
  reason := some p.acc.stopReason
  message := some { p.snapshot env with usage := env.calculateCost p.acc.usage }

variable {env : StreamEnv} {p q : SseProcessor} {w : WireEvent} {ws : List WireEvent}
  {out : List Event} {canceled : Option Nat}

theorem isStop_iff : w.isStop = true ↔ w = .messageStop := by
  cases w <;> simp [WireEvent.isStop]

theorem isStop_of_not_mem (h : .messageStop ∉ ws) : ∀ w ∈ ws, (!w.isStop) = true := by
  intro w hw
  rw [Bool.not_eq_true', Bool.eq_false_iff]
  exact fun hstop => h (isStop_iff.mp hstop ▸ hw)

theorem untilStop_of_not_mem (h : .messageStop ∉ ws) : untilStop ws = ws :=
  takeWhile_eq_self_iff.mpr (isStop_of_not_mem h)

theorem untilStop_append (h : .messageStop ∉ before) (after : List WireEvent) :
    untilStop (before ++ .messageStop :: after) = before := by
  rw [untilStop, takeWhile_append_of_pos (isStop_of_not_mem h)]
  exact append_nil _

theorem finish_open (env : StreamEnv) (hp : p.done = false) :
    finish env p = ([doneEvent env p], { p with done := true }) := by
  rw [finish, if_neg (by simp [hp])]
  rfl

theorem done_changeBlock (p : SseProcessor) (index : Int) (block : ContentBlock) :
    (p.changeBlock index block).done = p.done := by
  unfold SseProcessor.changeBlock
  split <;> rfl

/-- What a step is that sends no terminal event. -/
structure PlainStep (p : SseProcessor) (r : List Event × Step SseProcessor String) : Prop where
  out : ∀ e ∈ r.1, e.terminal = false
  done : ∀ q, r.2 = .next q → q.done = p.done
  stop : ∀ q, r.2 ≠ .stop q

theorem plainStep_next (he : ∀ x ∈ e, x.terminal = false) (hq : q.done = p.done) :
    PlainStep p (e, .next q) :=
  ⟨he, fun q' h => (by cases h; exact hq), fun _ h => (by cases h)⟩

theorem plainStep_fail (q : SseProcessor) (err : String) : PlainStep p ([], .fail q err) :=
  ⟨forall_mem_nil _, fun q' h => (by cases h), fun _ h => (by cases h)⟩

theorem plainStep_blockDelta (index : Int) (delta : WireDelta) :
    PlainStep p (onBlockDelta env p index delta) := by
  cases delta with
  | text text | thinking thinking signature =>
    refine plainStep_next (forall_mem_singleton.mpr rfl) ?_
    split
    · exact done_changeBlock ..
    · rfl
  | signature signature =>
    refine plainStep_next (forall_mem_nil _) ?_
    split
    · exact done_changeBlock ..
    · rfl
  | inputJSON text =>
    unfold onBlockDelta
    dsimp only
    split
    · exact plainStep_fail ..
    · split
      · exact plainStep_fail ..
      · exact plainStep_next (forall_mem_singleton.mpr rfl) rfl
  | other => exact plainStep_next (forall_mem_nil _) rfl

theorem plainStep_blockStop (index : Int) : PlainStep p (onBlockStop env p index) := by
  unfold onBlockStop
  split
  · exact plainStep_next (forall_mem_singleton.mpr rfl) rfl
  · exact plainStep_next (forall_mem_singleton.mpr rfl) rfl
  · split
    · exact plainStep_next (forall_mem_nil _) rfl
    · split
      · exact plainStep_fail ..
      · exact plainStep_next (forall_mem_singleton.mpr rfl) rfl

theorem plainStep_event (hw : w ≠ .messageStop) : PlainStep p (processEvent env p w) := by
  cases w with
  | blank | ping | other => exact plainStep_next (forall_mem_nil _) rfl
  | invalid err => exact plainStep_fail ..
  | messageStop => exact absurd rfl hw
  | messageStart e =>
    cases e with
    | error err => exact plainStep_fail ..
    | ok e => exact plainStep_next (forall_mem_singleton.mpr rfl) rfl
  | contentBlockStart e =>
    cases e with
    | error err => exact plainStep_fail ..
    | ok e =>
      obtain ⟨index, block⟩ := e
      cases block with
      | other => exact plainStep_next (forall_mem_nil _) rfl
      | _ => exact plainStep_next (forall_mem_singleton.mpr rfl) rfl
  | contentBlockDelta e =>
    cases e with
    | error err => exact plainStep_fail ..
    | ok e => exact plainStep_blockDelta e.1 e.2
  | contentBlockStop e =>
    cases e with
    | error err => exact plainStep_fail ..
    | ok index => exact plainStep_blockStop index
  | messageDelta e =>
    cases e with
    | error err => exact plainStep_fail ..
    | ok e => exact plainStep_next (forall_mem_nil _) rfl
  | error e => cases e <;> exact plainStep_fail ..

theorem step_plain (hw : w ≠ .messageStop) : PlainStep p ((machine env).step p w) := by
  have h : PlainStep { p with read := p.read + 1 } ((machine env).step p w) := plainStep_event hw
  exact ⟨h.out, h.done, h.stop⟩

theorem steps_plain (h : (machine env).Steps p ws out q) (hws : .messageStop ∉ ws) :
    NoTerminal out ∧ q.done = p.done := by
  induction h with
  | nil p => exact ⟨forall_mem_nil _, rfl⟩
  | @cons p p' q w ws out outs hs _ ih =>
    have hw : PlainStep p (out, .next p') := hs ▸ step_plain (ne_of_not_mem_cons hws).symm
    obtain ⟨hout, hdone⟩ := ih (not_mem_of_not_mem_cons hws)
    exact ⟨forall_mem_append.mpr ⟨hw.out, hout⟩, hdone.trans (hw.done p' rfl)⟩

theorem quiet_step (env : StreamEnv) (hw : w.quiet = true) (hp : p.done = true) :
    ∃ q, (machine env).step p w = ([], .next q) ∧ q.done = true := by
  cases w with
  | blank | ping | other => exact ⟨_, rfl, hp⟩
  | messageStop =>
    refine ⟨{ p with read := p.read + 1 }, ?_, hp⟩
    simp [machine, processEvent, finish, hp]
  | messageDelta e =>
    cases e with
    | error err => cases hw
    | ok e => exact ⟨_, rfl, hp⟩
  | _ => cases hw

theorem steps_quiet (h : (machine env).Steps p ws out q) (hws : ∀ w ∈ ws, w.quiet = true)
    (hp : p.done = true) : out = [] ∧ q.done = true := by
  induction h with
  | nil p => exact ⟨rfl, hp⟩
  | @cons p p' q w ws out outs hs _ ih =>
    obtain ⟨hw, hrest⟩ := forall_mem_cons.mp hws
    obtain ⟨p'', hstep, hdone⟩ := quiet_step env hw hp
    rw [hs] at hstep
    cases hstep
    obtain ⟨rfl, hq⟩ := ih hrest hdone
    exact ⟨rfl, hq⟩

/-- `message_stop` sends the terminal event, which quiet events leave the last one. -/
theorem steps_stop {before after : List WireEvent}
    (h : (machine env).Steps p (before ++ .messageStop :: after) out q) (hp : p.done = false)
    (hbefore : .messageStop ∉ before) (hafter : ∀ w ∈ after, w.quiet = true) :
    ∃ u outs, (machine env).Steps p before outs u ∧ NoTerminal outs ∧
      out = outs ++ [doneEvent env u.next] ∧
      (machine env).Steps { u.next with done := true } after [] q ∧ q.done = true := by
  obtain ⟨u, outs, outs', hsteps, hrest, rfl⟩ := h.of_append
  obtain ⟨hplain, hu⟩ := steps_plain hsteps hbefore
  cases hrest with
  | @cons _ u' _ _ _ o os hs hquiet =>
    have hstep : (machine env).step u .messageStop =
        ((finish env u.next).1, .next (finish env u.next).2) := rfl
    rw [hs, finish_open env (show u.next.done = false from hu.trans hp)] at hstep
    cases hstep
    obtain ⟨rfl, hq⟩ := steps_quiet hquiet hafter rfl
    exact ⟨u, outs, hsteps, hplain, rfl, hquiet, hq⟩

theorem finished_done (env : StreamEnv) (hq : q.done = true) :
    (machine env).finished q = ⟨[], q.next, none⟩ := by
  simp [Machine.finished, machine, finish, hq, SseProcessor.next]

theorem finished_open (env : StreamEnv) (hq : q.done = false) :
    (machine env).finished q = ⟨[doneEvent env q.next], { q.next with done := true }, none⟩ := by
  have hfin : (machine env).finished q = ⟨(finish env q.next).1, (finish env q.next).2, none⟩ := rfl
  rw [hfin, finish_open env (show q.next.done = false from hq)]

/-- A `message_stop` among the events that have been read is followed by quiet ones only. -/
theorem Settled.quiet {read : List WireEvent} (h : Settled canceled eof (read ++ rest))
    (hmem : .messageStop ∈ read) (hcanceled : ∀ k, canceled = some k → read.length ≤ k) :
    ∃ before after, read = before ++ .messageStop :: after ∧ .messageStop ∉ before ∧
      (∀ k, canceled = some k → (read ++ rest).length ≤ k) ∧ eof = none ∧
      (∀ w ∈ after, w.quiet = true) ∧ ∀ w ∈ rest, w.quiet = true := by
  obtain ⟨before, after, rfl, hnot⟩ := eq_append_cons_of_mem hmem
  refine ⟨before, after, rfl, hnot, ?_⟩
  rcases h before (after ++ rest) (by simp) with ⟨k, hk, hle⟩ | ⟨hbound, heof, hquiet⟩
  · have hlen := hcanceled k hk
    rw [length_append, length_cons] at hlen
    omega
  · obtain ⟨hafter, hrest⟩ := forall_mem_append.mp hquiet
    exact ⟨hbound, heof, hafter, hrest⟩

/-- How a run on settled events ends: it fails without a terminal event, or it sends the
terminal event after the events up to `message_stop` and nothing after it. -/
inductive SettledEnd (env : StreamEnv) (p : SseProcessor) (ws : List WireEvent) :
    Result SseProcessor Event String → Prop where
  | failed {out : List Event} {q : SseProcessor} {message : String} :
      (∀ e ∈ out, e.terminal = false) → SettledEnd env p ws ⟨out, q, some message⟩
  | done {out : List Event} {u v q : SseProcessor} {rest : List WireEvent} :
      (machine env).Steps p (untilStop ws) out u → (∀ e ∈ out, e.terminal = false) →
      (machine env).Steps { u.next with done := true } rest [] v → q.heap = v.heap →
      SettledEnd env p ws ⟨out ++ [doneEvent env u.next], q, none⟩

theorem run_settled {eof : Option String} (h : Settled canceled eof ws) (hp : p.done = false) :
    SettledEnd env p ws
      ((machine env).run (canceled.map (·, requestCanceled)) eof p ws) := by
  have hbeyond : ∀ {n : Nat}, Machine.Beyond (canceled.map (·, requestCanceled)) n →
      ∀ k, canceled = some k → n ≤ k := by
    intro n hn k hk
    exact hn k requestCanceled (by rw [hk]; rfl)
  have hends := Machine.run_cases (machine env) (canceled.map (·, requestCanceled)) eof p ws
  generalize (machine env).run (canceled.map (·, requestCanceled)) eof p ws = r at hends ⊢
  have hws : ws = ws ++ [] := (append_nil ws).symm
  cases hends with
  | @finish out q hsteps heof hint =>
    by_cases hmem : .messageStop ∈ ws
    · rw [hws] at h
      obtain ⟨before, after, rfl, hnot, -, -, hafter, -⟩ := h.quiet hmem (hbeyond hint)
      obtain ⟨u, outs, hbefore, hplain, rfl, hrest, hq⟩ := steps_stop hsteps hp hnot hafter
      rw [finished_done env hq, Result.after, append_nil]
      exact .done ((untilStop_append hnot after).symm ▸ hbefore) hplain hrest rfl
    · obtain ⟨hplain, hdone⟩ := steps_plain hsteps hmem
      rw [finished_open env (hdone.trans hp)]
      exact .done ((untilStop_of_not_mem hmem).symm ▸ hsteps) hplain (.nil _) rfl
  | eof hsteps heof hint =>
    refine .failed (steps_plain hsteps fun hmem => ?_).1
    rw [hws] at h
    obtain ⟨-, -, -, -, -, hnone, -⟩ := h.quiet hmem (hbeyond hint)
    cases hnone.symm.trans heof
  | @interrupt read rest out q w e hsplit hsteps hint =>
    refine .failed (steps_plain hsteps fun hmem => ?_).1
    subst hsplit
    obtain ⟨k, hk, hpair⟩ := Option.map_eq_some_iff.mp hint
    obtain ⟨rfl, -⟩ := Prod.mk.inj hpair
    have hle : ∀ k, canceled = some k → read.length ≤ k := by
      intro k' hk'
      cases hk.symm.trans hk'
      exact le_refl _
    obtain ⟨-, -, -, -, hbound, -⟩ := h.quiet hmem hle
    have hlen := hbound _ hk
    rw [length_append, length_cons] at hlen
    omega
  | @stop read rest out outs q q' w hsplit hsteps hstop hint =>
    -- no event stops the loop
    by_cases hw : w = .messageStop
    · subst hw
      cases hstop
    · have hplain : PlainStep q (outs, .stop q') := hstop ▸ step_plain hw
      exact absurd rfl (hplain.stop q')
  | @fail read rest out outs q q' w e hsplit hsteps hfail hint =>
    subst hsplit
    have hw : w ≠ .messageStop := by
      rintro rfl
      cases hfail
    have hplain : PlainStep q (outs, .fail q' e) := hfail ▸ step_plain hw
    have hnot : .messageStop ∉ read := by
      intro hmem
      have hle : ∀ k, canceled = some k → read.length ≤ k :=
        fun k hk => Nat.le_of_succ_le (hbeyond hint k hk)
      obtain ⟨before, after, rfl, hbefore, -, -, hafter, hrest⟩ := h.quiet hmem hle
      obtain ⟨-, -, -, -, -, -, hq⟩ := steps_stop hsteps hp hbefore hafter
      obtain ⟨q'', hquiet, -⟩ := quiet_step env (hrest w mem_cons_self) hq
      rw [hfail] at hquiet
      cases hquiet
    exact .failed (forall_mem_append.mpr ⟨(steps_plain hsteps hnot).1, hplain.out⟩)

theorem SettledEnd.terminalLast (h : SettledEnd env p ws r) (endpoint : ProviderEndpoint)
    (model : Model) (now : Int) : TerminalLast (sentEvents endpoint model now r) := by
  cases h with
  | failed hout => exact terminalLast_of_error rfl hout ..
  | done _ hout => exact terminalLast_of_done rfl ⟨_, _, rfl, hout, rfl, rfl⟩ ..

/-- The events of the body are settled, as `decode` reads them. -/
def SettledResponse (decode : Sse.Bytes → WireEvent) (canceled : Option Nat) : Response → Prop
  | .body bytes readErr =>
    Settled canceled ((Sse.scan bytes readErr).2.map fun e => "sse scan: " ++ e.message)
      ((Sse.scan bytes readErr).1.map (decode ·.data))
  | _ => True

theorem stream_oneTerminal (endpoint : ProviderEndpoint) (now : Int)
    (h : SettledResponse decode canceled response) :
    (stream env endpoint decode now canceled response).OneTerminal := by
  rw [stream, streamOf_eq]
  refine TerminalLast.oneTerminal ?_ now
  cases response with
  | failed message | canceled | status message => exact terminalLast_failed ..
  | body bytes readErr => exact (run_settled h rfl).terminalLast ..

end Anthropic

/-! ## The three providers -/

section Samples

open Sse

def sampleEnv : StreamEnv where
  model := ⟨"claude", "anthropic-messages", "anthropic"⟩
  cost := fun _ => {}
  clock := fun n => n
  json :=
    { unmarshal := fun _ => .error "unexpected end of JSON input"
      decode := fun _ => .error "unexpected EOF"
      marshal := fun _ => .error "json: unsupported value"
      completeJSON := fun _ => .ok "" }

def textDeltaData : Bytes := ascii
  "\x7b\"type\":\"content_block_delta\",\"delta\":\x7b\"type\":\"text_delta\",\"text\":\"Hi\"\x7d\x7d"

def messageStopData : Bytes := ascii "\x7b\"type\":\"message_stop\"\x7d"

def errorData : Bytes := ascii
  "\x7b\"type\":\"error\",\"error\":\x7b\"message\":\"Overloaded\"\x7d\x7d"

/-- `unmarshalEvent` on the three texts. -/
def decodeSample (data : Bytes) : Anthropic.WireEvent :=
  if data = textDeltaData then .contentBlockDelta (.ok (0, .text "Hi"))
  else if data = messageStopData then .messageStop
  else if data = errorData then .error (.ok "Overloaded")
  else .invalid "unexpected end of JSON input"

/-- A body with one event for each text. -/
def bodyOf (texts : List Bytes) : Response :=
  .body (texts.flatMap fun data => ascii "data: " ++ data ++ ascii "\n\n") none

end Samples

end FlexAgentRuntime.Ai
