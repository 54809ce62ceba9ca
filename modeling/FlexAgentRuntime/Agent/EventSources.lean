import FlexAgentRuntime.Agent.CallFate
import FlexAgentRuntime.Agent.Receivers

/-!
Which turn an action belongs to. `Start` and `Continue` claim the agent, emit events,
and start a loop that emits more of them; every event is then handed on from the bus to
the receivers by the goroutine that emitted it.

* `Follows.event_origin`: an event on its way was on its way before, or is emitted now;
* `turnOf`: the session of the turn an action belongs to, and the caller that started it;
* `Follows.turn_origin`: an action of a turn comes from an action of the same turn, or from
  the claim that begins it.
-/

namespace FlexAgentRuntime.AgentLoop

open Interleaving List

/-! ## Events -/

/-- The event an action carries towards the receivers, and the session it belongs to. -/
def eventOn (w : World) : Op → Option (MsRef × AgentEvent)
  | .agent m (.emit evt) | .bus m (.publish evt) | .bus m (.deliver evt _) => some (m, evt)
  | .recv r (.pushCheck evt _) | .recv r (.pushSelect evt _)
  | .recv r (.close (.terminal evt)) => some ((w.recvs r).owner, evt)
  | _ => none

/-- The actions that emit an event on session `m`. -/
inductive Emits (m : MsRef) (evt : AgentEvent) : Op → Prop where
  | call {caller cop} : cop.preclaim = false → evt.origin = .start caller →
      isTerminalTurnEvent evt = false → Emits m evt (.call m caller cop)
  | run {k rop} : evt.origin = .run k → Emits m evt (.run m k rop)
  | stop {sc sop} : evt.origin = .stop → isTerminalTurnEvent evt = false →
      Emits m evt (.stop m sc sop)
  | ack {cmd} : evt = ackEvent cmd → Emits m evt (.agent m (.enqueueSend cmd))
  | subscribe {r id} : evt.origin = .subscribe → isTerminalTurnEvent evt = false →
      Emits m evt (.agent m (.readState r id))

/-- `evt'` is `evt` with some of its empty fields filled in. -/
def SameEvent (evt evt' : AgentEvent) : Prop :=
  evt'.origin = evt.origin ∧ isTerminalTurnEvent evt' = isTerminalTurnEvent evt

theorem SameEvent.rfl : SameEvent evt evt := ⟨Eq.refl _, Eq.refl _⟩
theorem sameEvent_normalize (id : String) (evt : AgentEvent) :
    SameEvent evt (normalizeSessionEvent id evt) :=
  ⟨origin_normalize id evt, isTerminal_normalize id evt⟩

theorem sameEvent_fill (a : Agent) (evt : AgentEvent) : SameEvent evt (fillEvent a evt) := by
  unfold fillEvent
  cases a.session <;> exact ⟨rfl, rfl⟩

theorem CallOp.preclaim_of_emits {cop : CallOp} (h : cop.emits = true) :
    cop.preclaim = false := by
  cases cop <;> first | rfl | cases h

variable {w w' : World} {m : MsRef} {a b : Op} {evt : AgentEvent} {caller : Caller}
  {oc : Option Caller}

theorem eventOn_extends (he : w.Extends w') (hin : b.In w) : eventOn w' b = eventOn w b := by
  cases b with
  | recv r rop =>
    cases rop with
    | pushCheck | pushSelect => simp [eventOn, he.owner r hin.1]
    | close by_ => cases by_ <;> simp [eventOn, he.owner r hin.1]
    | _ => rfl
  | agent m' aop => cases aop <;> rfl
  | bus m' bop => cases bop <;> rfl
  | _ => rfl

theorem event_session (hin : b.In w) (hb : eventOn w b = some (m, evt)) : m < w.nManaged := by
  cases b with
  | agent m' aop => cases aop <;> cases hb; exact hin.1
  | bus m' bop => cases bop <;> cases hb <;> exact hin.1
  | recv r rop =>
    cases rop with
    | pushCheck | pushSelect => cases hb; exact hin.2.1
    | close by_ => cases by_ <;> cases hb; exact hin.2.1
    | _ => cases hb
  | _ => cases hb

theorem Follows.event_origin (hf : Follows w a b) (hin : a.In w) (he : w.Extends w')
    (hb : eventOn w' b = some (m, evt)) :
    (∃ evt', eventOn w a = some (m, evt') ∧ SameEvent evt' evt) ∨ Emits m evt a := by
  -- a receiver that the action pushes to belongs to its session
  have howner : ∀ {m' : MsRef} {r : RecvRef}, w.HasRecv m' r → (w'.recvs r).owner = m' := by
    intro m' r hr
    rw [he.owner r hr.1, hr.2]
  cases hf with
  | callEmit hem ho hterm =>
    cases hb
    exact .inr (.call (CallOp.preclaim_of_emits hem) ho hterm)
  | run hn =>
    cases hn with
    | emit ho =>
      cases hb
      exact .inr (.run ho)
    | _ => cases hb
  | stopEmit ho hterm =>
    cases hb
    exact .inr (.stop ho hterm)
  | publish =>
    cases hb
    exact .inl ⟨_, rfl, sameEvent_fill _ _⟩
  | initialPush ho hterm =>
    cases hb
    rw [howner (hin.2 _ _ rfl).1]
    exact .inr (.subscribe ho hterm)
  | ack =>
    cases hb
    exact .inr (.ack rfl)
  | deliver | deliverRest =>
    cases hb
    exact .inl ⟨_, rfl, .rfl⟩
  | deliverTurn hmem | deliverStream hmem =>
    cases hb
    rw [howner (hin.2 _ hmem).1]
    exact .inl ⟨_, rfl, sameEvent_normalize _ _⟩
  | pushSelect | pushClose =>
    cases hb
    rw [howner ⟨hin.1, rfl⟩]
    exact .inl ⟨_, rfl, .rfl⟩
  | lookup hl => cases hl <;> cases hb
  | _ => cases hb

/-! ## Turns -/

/-- The caller whose turn an event of that origin belongs to; events of `Stop`, of control
commands and of other drivers belong to no turn. -/
def World.causedBy (w : World) (m : MsRef) : Origin → Option (Option Caller)
  | .start caller => some (some caller)
  | .run k => some (w.agents m).driver.contexts[k]?
  | _ => none

/-- The session of the turn an action belongs to, and the caller that started it. -/
def turnOf (w : World) : Op → Option (MsRef × Option Caller)
  | .call m caller cop => if cop.preclaim then none else some (m, some caller)
  | .run m k _ => some (m, (w.agents m).driver.contexts[k]?)
  | op => (eventOn w op).bind fun p => (w.causedBy p.1 p.2.origin).map (p.1, ·)

/-- An action of a turn of `m` is still to be executed. -/
def winding (w : World) (m : MsRef) (b : Op) : Bool := (turnOf w b).any (·.1 == m)

theorem turnOf_iff : turnOf w b = some (m, oc) ↔
    (∃ caller cop, b = .call m caller cop ∧ cop.preclaim = false ∧ oc = some caller) ∨
      (∃ k rop, b = .run m k rop ∧ oc = (w.agents m).driver.contexts[k]?) ∨
      ∃ evt, eventOn w b = some (m, evt) ∧ w.causedBy m evt.origin = some oc := by
  have hevent : ((eventOn w b).bind fun p => (w.causedBy p.1 p.2.origin).map (p.1, ·)) =
      some (m, oc) ↔ ∃ evt, eventOn w b = some (m, evt) ∧ w.causedBy m evt.origin = some oc := by
    constructor
    · intro h
      obtain ⟨⟨m', evt⟩, hev, hc⟩ := Option.bind_eq_some_iff.mp h
      obtain ⟨oc', hoc, ⟨⟩⟩ := Option.map_eq_some_iff.mp hc
      exact ⟨evt, hev, hoc⟩
    · rintro ⟨evt, hev, hoc⟩
      simp [hev, hoc]
  cases b with
  | call m' caller cop =>
    constructor
    · intro h
      cases hp : cop.preclaim with
      | false =>
        simp only [turnOf, hp, Bool.false_eq_true, if_false] at h
        cases h
        exact .inl ⟨caller, cop, rfl, hp, rfl⟩
      | true => simp [turnOf, hp] at h
    · rintro (⟨_, _, hb, hp, rfl⟩ | ⟨_, _, hb, -⟩ | ⟨_, hb, -⟩)
      · cases hb
        simp [turnOf, hp]
      · cases hb
      · cases hb
  | run m' k rop =>
    simp only [turnOf, eventOn, Option.some.injEq, Prod.mk.injEq, Op.run.injEq, reduceCtorEq,
      false_and, exists_false, false_or, or_false]
    constructor
    · rintro ⟨rfl, rfl⟩
      exact ⟨k, rop, ⟨rfl, rfl, rfl⟩, rfl⟩
    · rintro ⟨_, _, ⟨rfl, rfl, rfl⟩, rfl⟩
      exact ⟨rfl, rfl⟩
  | stop m' sc sop | ms m' mop | turn t top | svc sop => simp [turnOf, eventOn]
  | agent m' aop | bus m' bop | recv r rop => simpa [turnOf] using hevent

theorem turnOf_session (hin : b.In w) (h : turnOf w b = some (m, oc)) : m < w.nManaged := by
  rcases turnOf_iff.mp h with ⟨caller, cop, rfl, -⟩ | ⟨k, rop, rfl, -⟩ | ⟨evt, hev, -⟩
  · exact hin.1
  · exact hin
  · exact event_session hin hev

theorem winding_iff : winding w m b = true ↔ ∃ oc, turnOf w b = some (m, oc) := by
  unfold winding
  cases turnOf w b with
  | none => simp
  | some p =>
    obtain ⟨m', oc⟩ := p
    simp only [Option.any_some, beq_iff_eq, Option.some.injEq, Prod.mk.injEq]
    exact ⟨fun h => ⟨oc, h, rfl⟩, fun ⟨_, h, _⟩ => h⟩

/-- Whose run a context is, once known, stays known. -/
def World.Remembers (w w' : World) (m : MsRef) : Prop :=
  ∀ (k : Nat) (caller : Caller), (w.agents m).driver.contexts[k]? = some caller →
    (w'.agents m).driver.contexts[k]? = some caller

theorem World.Remembers.causedBy (h : w.Remembers w' m) (hc : w.causedBy m o = some (some caller)) :
    w'.causedBy m o = some (some caller) := by
  cases o with
  | run k => exact congrArg some (h k caller (Option.some.inj hc))
  | start => exact hc
  | _ => cases hc

/-- An event belongs to a turn whatever is known about the contexts. -/
theorem causedBy_change (w' : World) (h : w.causedBy m o = some oc) :
    ∃ oc', w'.causedBy m o = some oc' := by
  cases o with
  | run k | start caller => exact ⟨_, rfl⟩
  | _ => cases h

theorem winding_extends (he : w.Extends w') (hin : b.In w) (h : winding w' m b = true) :
    winding w m b = true := by
  obtain ⟨oc, hoc⟩ := winding_iff.mp h
  refine winding_iff.mpr ?_
  rcases turnOf_iff.mp hoc with h | ⟨k, rop, rfl, -⟩ | ⟨evt, hev, hc⟩
  · exact ⟨oc, turnOf_iff.mpr (.inl h)⟩
  · exact ⟨_, rfl⟩
  · rw [eventOn_extends he hin] at hev
    obtain ⟨oc', hoc'⟩ := causedBy_change w hc
    exact ⟨oc', turnOf_iff.mpr (.inr (.inr ⟨evt, hev, hoc'⟩))⟩

theorem turnOf_mono (he : w.Extends w') (hin : b.In w) (hm : w.Remembers w' m)
    (h : turnOf w b = some (m, some caller)) : turnOf w' b = some (m, some caller) := by
  refine turnOf_iff.mpr ?_
  rcases turnOf_iff.mp h with h | ⟨k, rop, rfl, hk⟩ | ⟨evt, hev, hc⟩
  · exact .inl h
  · exact .inr (.inl ⟨k, rop, rfl, (hm k caller hk.symm).symm⟩)
  · exact .inr (.inr ⟨evt, (eventOn_extends he hin).trans hev, hm.causedBy hc⟩)

/-- An action of a turn follows an action of the same turn, or the claim that begins it. -/
theorem Follows.turn_origin (hf : Follows w a b) (hin : a.In w) (he : w.Extends w')
    (hb : winding w' m b = true) :
    (winding w m a = true ∧ (w.Remembers w' m → ∀ caller,
      turnOf w a = some (m, some caller) → turnOf w' b = some (m, some caller))) ∨
      ∃ caller, claimedOn w a = some (m, caller) ∧ turnOf w' b = some (m, some caller) := by
  obtain ⟨oc, hoc⟩ := winding_iff.mp hb
  rcases turnOf_iff.mp hoc with ⟨caller, cop, rfl, hp, rfl⟩ | ⟨k, rop, rfl, -⟩ | ⟨evt, hev, hc⟩
  · -- a stage of a call after the claim
    rcases hf.call_origin with ⟨cop', rfl⟩ | ⟨r, t, -, ⟨msg, -, rfl⟩ | ⟨-, -, rfl⟩⟩
    · cases hp' : cop'.preclaim with
      | false =>
        have ha : turnOf w (.call m caller cop') = some (m, some caller) := by simp [turnOf, hp']
        refine .inl ⟨winding_iff.mpr ⟨_, ha⟩, fun _ caller' hc => ?_⟩
        rw [ha] at hc
        cases hc
        exact hoc
      | true =>
        refine .inr ⟨caller, ?_, hoc⟩
        cases hf with
        | snapshot => cases hp
        | startClaimed hst hr => simp [claimedOn, hst, hr]
        | continueClaimed hst hr hs => simp [claimedOn, hst, hr, hs]
        | callNext hn => cases hn <;> cases hp'
        | looped => cases hp'
    · cases hp
    · cases hp
  · obtain ⟨rop', rfl⟩ := hf.run_origin
    refine .inl ⟨winding_iff.mpr ⟨_, rfl⟩, fun hm caller hc => ?_⟩
    exact turnOf_iff.mpr (.inr (.inl ⟨k, rop, rfl,
      (hm k caller (Prod.mk.inj (Option.some.inj hc)).2).symm⟩))
  · have hturn : w'.causedBy m evt.origin = some oc := hc
    rcases hf.event_origin hin he hev with ⟨evt', hev', ho, -⟩ | hem
    · -- the event is handed on
      rw [ho] at hturn
      obtain ⟨oc', hoc'⟩ := causedBy_change w hturn
      refine .inl ⟨winding_iff.mpr ⟨oc', turnOf_iff.mpr (.inr (.inr ⟨evt', hev', hoc'⟩))⟩,
        fun hm caller hca => ?_⟩
      rcases turnOf_iff.mp hca with ⟨_, _, rfl, -⟩ | ⟨_, _, rfl, -⟩ | ⟨evt'', hev'', hc''⟩
      · cases hev'
      · cases hev'
      · cases hev'.symm.trans hev''
        exact turnOf_iff.mpr (.inr (.inr ⟨evt, hev, ho ▸ hm.causedBy hc''⟩))
    · -- the event is emitted by an action of the turn
      cases hem with
      | @call caller cop hp ho _ =>
        have ha : turnOf w (.call m caller cop) = some (m, some caller) := by simp [turnOf, hp]
        refine .inl ⟨winding_iff.mpr ⟨_, ha⟩, fun _ caller' hc => ?_⟩
        rw [ha] at hc
        cases hc
        exact turnOf_iff.mpr (.inr (.inr ⟨evt, hev, by rw [ho]; rfl⟩))
      | @run k rop ho =>
        refine .inl ⟨winding_iff.mpr ⟨_, rfl⟩, fun hm caller hc => ?_⟩
        refine turnOf_iff.mpr (.inr (.inr ⟨evt, hev, ?_⟩))
        rw [ho]
        exact congrArg some (hm k caller (Prod.mk.inj (Option.some.inj hc)).2)
      | stop ho | ack ho | subscribe ho =>
        rw [ho] at hturn
        cases hturn

/-! ## What stays -/

variable {x : Choice} {o : Outcome World Op}

theorem OnAgent.contexts (h : OnAgent m x ag a ag') :
    ag'.kind = ag.kind ∧ ∃ l, ag'.driver.contexts = ag.driver.contexts ++ l := by
  have hsame : ∀ {ag' : Agent}, ag.Same ag' →
      ag'.kind = ag.kind ∧ ∃ l, ag'.driver.contexts = ag.driver.contexts ++ l := by
    intro ag' hs
    exact ⟨hs.kind, [], by rw [hs.driver, append_nil]⟩
  have hnone : ∃ l, ag.driver.contexts = ag.driver.contexts ++ l := ⟨[], by rw [append_nil]⟩
  cases h with
  | call hs =>
    cases hs with
    | transitioned ht | failIdle ht => exact hsame (Agent.transition_ok ht).2.2
    | looped => exact ⟨rfl, _, rfl⟩
    | _ => exact ⟨rfl, hnone⟩
  | run hr => exact ⟨hr.kind, [], by rw [hr.contexts, append_nil]⟩
  | stop hs =>
    cases hs with
    | exit ht => exact hsame (Agent.transition_ok ht).2.2
    | _ => exact ⟨rfl, hnone⟩
  | agent hs => cases hs <;> exact ⟨rfl, hnone⟩

theorem Step.kind_eq (hs : Step x w a o) (hm : m < w.nManaged) :
    (o.state.agents m).kind = (w.agents m).kind := by
  rcases hs.agent_cases hm with he | he
  · rw [he]
  · exact he.contexts.1

theorem Step.remembers (hs : Step x w a o) (hm : m < w.nManaged) : w.Remembers o.state m := by
  intro k caller hk
  rcases hs.agent_cases hm with he | he
  · rw [he]
    exact hk
  · obtain ⟨l, hl⟩ := he.contexts.2
    rw [hl, getElem?_append_left (List.getElem?_eq_some_iff.mp hk).1]
    exact hk

theorem claimedRecv_of_claimedOn (h : claimedOn w a = some (m, .service r t)) :
    claimedRecv w a = some r :=
  claimedRecv_iff.mpr (.inl ⟨_, _, h, rfl⟩)

theorem claimedOn_of_claimedRecv (hin : a.In w) (h : claimedRecv w a = some r)
    (ht : (w.recvs r).turn = some t) : claimedOn w a = some ((w.recvs r).owner, .service r t) := by
  rcases claimedRecv_iff.mp h with ⟨m, caller, hon, hr⟩ | ⟨m, rfl⟩
  · obtain ⟨cop, rfl, -⟩ := call_of_claimedOn hon
    cases caller with
    | service r' t' =>
      cases hr
      rw [hon, hin.2.1.2, Option.some.inj (hin.2.2.1.symm.trans ht)]
    | direct => cases hr
  · have hstream : w.StreamOf _ r := hin.2
    rw [hstream.2] at ht
    cases ht

end FlexAgentRuntime.AgentLoop
