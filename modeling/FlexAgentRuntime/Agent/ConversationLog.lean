import FlexAgentRuntime.Agent.Scope

/-!
Is the conversation log append-only?

`Prompt` and `SendMessage` read the session (`a.Session()`), and `Start` writes
that snapshot back in a later critical section. Entries appended in between are
dropped. They are the only entries that can be: in a run in which every
successful claim writes back a snapshot as long as the log, the log only grows.
-/

namespace FlexAgentRuntime.AgentLoop

open Interleaving Config List

/-- The conversation log of session `m`. -/
def World.log (w : World) (m : MsRef) : List AgentMessage := (w.agents m).log

/-- `Start` claims the agent with a snapshot only when nothing was appended
since the snapshot was taken. -/
def snapshotCurrent (w : World) : Op → Bool
  | .call m _ (.startClaim (some s) _) =>
    (w.agents m).state == .exited || (w.agents m).running ||
      s.conversationLog.length == (w.log m).length
  | _ => true

def currentSnapshots : Monitor World Op Choice Unit :=
  .when fun c a _ => snapshotCurrent c.state a

/-! ## One step -/

section Step

variable {x : Choice} {w : World} {op : Op} {o : Outcome World Op} {m : MsRef} {a a' : Agent}
  {more : List Op}

theorem log_setAgent (w : World) (m m' : MsRef) (a : Agent) :
    (w.setAgent m a).log m' = if m' = m then a.log else w.log m' := by
  unfold World.log World.setAgent
  by_cases h : m' = m
  · subst h
    simp
  · simp [h]

theorem log_prefix_setAgent (m' : MsRef) (h : (w.agents m).log <+: a.log) :
    w.log m' <+: (w.setAgent m a).log m' := by
  rw [log_setAgent]
  split
  · rename_i heq
    subst heq
    exact h
  · exact prefix_rfl

theorem CallOp.Step.log {cop : CallOp} (h : cop.Step m caller a a' more spawn) :
    a'.log = a.log ∨ ∃ s prompt, cop = .startClaim (some s) prompt ∧ a.state ≠ .exited ∧
      a.running = false ∧ a'.log = s.conversationLog := by
  cases h with
  | @startClaimed session prompt hst hr =>
    cases session with
    | none => exact .inl rfl
    | some s => exact .inr ⟨s, prompt, rfl, hst, hr, rfl⟩
  | transitioned ht | failIdle ht => exact .inl (Agent.transition_ok ht).2.2.log
  | failRecord | continueFailRecord => exact .inl (a.count_same _).log
  | _ => exact .inl rfl

theorem StopOp.Step.log {sop : StopOp} (h : sop.Step m sc a x a' more) : a'.log = a.log := by
  cases h with
  | exit ht => exact (Agent.transition_ok ht).2.2.log
  | _ => rfl

theorem AgentOp.Step.log {aop : AgentOp} (h : aop.Step m a a' more) : a'.log = a.log := by
  cases h <;> rfl

/-- What any action can do to the log of a session that exists. -/
theorem Step.log (h : Step x w op o) (hm : m < w.nManaged) :
    w.log m <+: o.state.log m ∨ ∃ caller s prompt, op = .call m caller (.startClaim (some s) prompt) ∧
      (w.agents m).state ≠ .exited ∧ (w.agents m).running = false ∧
      o.state.log m = s.conversationLog := by
  cases h with
  | @call m' caller cop a' more spawn hs =>
    rcases hs.log with he | ⟨s, prompt, rfl, hst, hr, he⟩
    · exact .inl (log_prefix_setAgent m (he ▸ prefix_rfl))
    · by_cases hmm : m = m'
      · subst hmm
        refine .inr ⟨caller, s, prompt, rfl, hst, hr, ?_⟩
        rw [log_setAgent, if_pos rfl, he]
      · have heq : (w.setAgent m' a').log m = w.log m := by rw [log_setAgent, if_neg hmm]
        exact .inl (heq ▸ prefix_rfl)
  | run hr =>
    obtain ⟨entries, he⟩ := (RunOp.exec_effect hr).log
    exact .inl (log_prefix_setAgent m ⟨entries, he.symm⟩)
  | stop hs | agent hs => exact .inl (log_prefix_setAgent m (hs.log ▸ prefix_rfl))
  | bus | ms | recv => exact .inl prefix_rfl
  | turn hs => cases hs <;> exact .inl prefix_rfl
  | svc hs =>
    refine .inl ?_
    simp only [World.log, hs.agents hm, prefix_rfl]

theorem Step.snapshot (h : Step x w op o)
    (hb : .call m caller (.startClaim (some s) prompt) ∈ o.more) :
    s.conversationLog = o.state.log m := by
  rcases (h.follows hb).call_origin with ⟨cop', rfl⟩ | ⟨r, t, rfl, ⟨msg, -, hc⟩ | ⟨-, -, hc⟩⟩
  · cases h with
    | call hs =>
      cases hs <;> simp at hb
      rw [log_setAgent, if_pos rfl, Agent.log, ← hb.1]
  · cases hc
  · cases hc

end Step

/-! ## Whole runs -/

/-- Snapshots still to be written back are initial parts of the log. -/
def SnapshotsPrefix (c : Config World Op) : Prop :=
  ∀ m caller s prompt, c.Pend (.call m caller (.startClaim (some s) prompt)) →
    s.conversationLog <+: c.state.log m

variable {c : Config World Op} {a : Op} {i : Nat} {rest : List Op} {x : Choice}
  {o : Outcome World Op}

theorem log_step (hp : SnapshotsPrefix c) (ht : c.At i a rest) (hs : Step x c.state a o)
    (hcur : snapshotCurrent c.state a = true) (hm : m < c.state.nManaged) :
    c.state.log m <+: o.state.log m := by
  rcases hs.log hm with h | ⟨caller, s, prompt, rfl, hst, hr, he⟩
  · exact h
  · have hpre := hp m caller s prompt (pend_head ht)
    have hlen : s.conversationLog.length = (c.state.log m).length := by
      simpa [snapshotCurrent, hst, hr] using hcur
    exact (he.trans (hpre.eq_of_length hlen)) ▸ prefix_rfl

theorem snapshotsPrefix_step (hc : Scoped c) (hp : SnapshotsPrefix c) (ht : c.At i a rest)
    (hs : Step x c.state a o) (hcur : snapshotCurrent c.state a = true) :
    SnapshotsPrefix (c.advance i rest o) := by
  intro m caller s prompt hb
  rcases hb.of_advance ht with h | h | ⟨th, hth, h⟩
  · exact (hp m caller s prompt h).trans (log_step hp ht hs hcur (hc.ops _ h).1)
  · rw [hs.snapshot h]
    exact prefix_rfl
  · obtain ⟨m', caller', k, prompt', -, rfl⟩ := hs.spawn_origin hth
    simp at h

theorem snapshotsPrefix_call (hp : SnapshotsPrefix c) (he : agentEntry c.state a = true) :
    SnapshotsPrefix (c.call a) := by
  intro m caller s prompt hb
  rcases pend_call.mp hb with hb | rfl
  · exact hp m caller s prompt hb
  · cases caller <;> cases he

theorem not_snapshotCurrent (h : ¬ snapshotCurrent w a = true) :
    ∃ m caller s prompt, a = .call m caller (.startClaim (some s) prompt) ∧
      (w.agents m).state ≠ .exited ∧ (w.agents m).running = false ∧
      s.conversationLog.length ≠ (w.log m).length := by
  unfold snapshotCurrent at h
  split at h
  · rename_i m caller s prompt
    simp only [Bool.or_eq_true, beq_iff_eq, not_or, Bool.not_eq_true] at h
    exact ⟨m, caller, s, prompt, rfl, h.1.1, h.1.2, h.2⟩
  · exact absurd rfl h

theorem reach_snapshotsPrefix
    (hr : Reach (machine agentEntry) currentSnapshots () (initialConfig publisher maxSess) () c) :
    Scoped c ∧ SnapshotsPrefix c := by
  refine hr.invariant (fun _ c => Scoped c ∧ SnapshotsPrefix c) ⟨.initial _ _, ?_⟩ ?_ ?_
  · rintro m caller s prompt ⟨th, hth, -⟩
    cases hth
  · rintro _ c a ⟨hc, hp⟩ he
    exact ⟨hc.call (startEntry_of_agentEntry he), snapshotsPrefix_call hp he⟩
  · rintro _ c i a rest x o ⟨hc, hp⟩ ht hx hm
    have hs := step_of_exec hx
    exact ⟨hc.step ht hs, snapshotsPrefix_step hc hp ht hs hm⟩

theorem log_prefix_of_reach
    (hr : Reach (machine agentEntry) currentSnapshots () (initialConfig publisher maxSess) () c)
    (hr' : Reach (machine agentEntry) currentSnapshots () c () c') :
    ∀ m < c.state.nManaged, c.state.log m <+: c'.state.log m := by
  refine (hr'.invariant_of_reach
    (fun _ d => c.state.nManaged ≤ d.state.nManaged ∧
      ∀ m < c.state.nManaged, c.state.log m <+: d.state.log m)
    ⟨le_rfl, fun _ _ => prefix_rfl⟩ (fun _ _ _ _ hi _ => hi) ?_).2
  rintro _ d i a rest x o hr' ⟨hle, hlog⟩ ht hx hm
  have hs := step_of_exec hx
  have hp := (reach_snapshotsPrefix (hr.trans hr')).2
  refine ⟨hle.trans hs.extends.managed, fun m hlt => ?_⟩
  exact (hlog m hlt).trans (log_step hp ht hs hm (hlt.trans_le hle))

/-- In a run whose claims all write back current snapshots, an entry of the log
stays where it is in every later configuration; and from any configuration of
such a run, a step keeps all logs exactly when it meets that condition. -/
theorem conversation_append_only {publisher : Bool} {maxSess : Nat} {c : Config World Op}
    (hr : Reach (machine agentEntry) currentSnapshots () (initialConfig publisher maxSess) () c) :
    (∀ c', Reach (machine agentEntry) currentSnapshots () c () c' →
      ∀ m < c.state.nManaged, ∀ (i : Nat) entry, (c.state.log m)[i]? = some entry →
        (c'.state.log m)[i]? = some entry) ∧
    ∀ (i : Nat) a rest x o, c.threads[i]? = some (a :: rest) → exec x a c.state = some o →
      ((∀ m < c.state.nManaged, c.state.log m <+: o.state.log m) ↔
        snapshotCurrent c.state a = true) := by
  obtain ⟨hc, hp⟩ := reach_snapshotsPrefix hr
  refine ⟨fun c' hr' m hm i entry he => ?_, fun i a rest x o ht hx => ?_⟩
  · obtain ⟨later, hl⟩ := log_prefix_of_reach hr hr' m hm
    rw [← hl, List.getElem?_append_left (List.getElem?_eq_some_iff.mp he).1, he]
  · have hs := step_of_exec hx
    refine ⟨fun hlog => ?_, fun hcur m hm => log_step hp ht hs hcur hm⟩
    by_contra hcur
    -- a stale snapshot is a proper initial part of the log it replaces
    obtain ⟨m, caller, s, prompt, rfl, hst, hrun, hlen⟩ := not_snapshotCurrent hcur
    have hm := (hc.ops _ (pend_head ht)).1
    have hpre := hp m caller s prompt (pend_head ht)
    have hnew : o.state.log m = s.conversationLog := by
      simp only [exec, CallOp.exec, if_neg hst, hrun, Bool.false_eq_true, if_false,
        Option.map_some, Option.some.injEq] at hx
      rw [← hx, log_setAgent, if_pos rfl]
      rfl
    have hle := (hlog m hm).length_le
    rw [hnew] at hle
    exact hlen (le_antisymm hpre.length_le hle)

/-- Two turns, one after the other. -/
def twoTurns : List (Label Op Choice) × List (Label Op Choice) :=
  ([.call (.svc (.createSession ⟨"s", .native, []⟩)), .go 0 1,
    .call (.svc (.sendMessage "s" "one")), .go 1 31, .go 2 48],
   [.call (.svc (.sendMessage "s" "two")), .go 3 31, .go 4 48])

theorem conversation_append_only_two_turns :
    ∃ c c', Reach (machine agentEntry) currentSnapshots () (initialConfig false 0) () c ∧
      Reach (machine agentEntry) currentSnapshots () c () c' ∧
      0 < c.state.nManaged ∧ (c.state.log 0).length = 2 ∧ (c'.state.log 0).length = 4 ∧
      ∀ (i : Nat) entry, (c.state.log 0)[i]? = some entry → (c'.state.log 0)[i]? = some entry := by
  obtain ⟨_, c, _, c', hr, hr', hm, hlen, hlen'⟩ := (machine agentEntry).follow_then
    currentSnapshots Choice.default () (initialConfig false 0) twoTurns.1 twoTurns.2
    (fun _ c _ c' => 0 < c.state.nManaged ∧ (c.state.log 0).length = 2 ∧
      (c'.state.log 0).length = 4)
  exact ⟨c, c', hr, hr', hm, hlen, hlen', (conversation_append_only hr).1 c' hr' 0 hm⟩

/-- Two callers: the second reads the session before the first turn appends, and
claims after it. -/
def staleSnapshot : List (Label Op Choice) × List (Label Op Choice) :=
  ([.call (.svc (.createSession ⟨"s", .native, []⟩)), .go 0 1,
    .call (.svc (.sendMessage "s" "one")), .call (.svc (.sendMessage "s" "two")),
    .go 2 10, .go 1 39, .go 3 69], [.go 2 1])

/-- The stale snapshot drops both entries of the first turn. -/
theorem stale_snapshot_drops_entries :
    ∃ c c', Reach (machine agentEntry) .free () (initialConfig false 0) () c ∧
      Reach (machine agentEntry) .free () c () c' ∧ 0 < c.state.nManaged ∧
      ∃ (i : Nat) (entry : AgentMessage), (c.state.log 0)[i]? = some entry ∧
        (c'.state.log 0)[i]? ≠ some entry := by
  obtain ⟨_, c, _, c', hr, hr', hm, hlen, hnil⟩ := (machine agentEntry).follow_then .free
    Choice.default () (initialConfig false 0) staleSnapshot.1 staleSnapshot.2
    (fun _ c _ c' => 0 < c.state.nManaged ∧ 0 < (c.state.log 0).length ∧ c'.state.log 0 = [])
  refine ⟨c, c', hr, hr', hm, 0, (c.state.log 0)[0], List.getElem?_eq_getElem hlen, ?_⟩
  rw [hnil]
  nofun

end FlexAgentRuntime.AgentLoop
