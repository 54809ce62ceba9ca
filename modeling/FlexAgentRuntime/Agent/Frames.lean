import FlexAgentRuntime.Agent.Scope

/-!
Which part of the state a step can change: a session's agent, bus and managed
session, a receiver and a closure change by their own actions only. What goes
one way only follows:

* `Step.exited_mono`, `Step.destroyed_mono`: no way back from an exited agent or
  a destroyed session;
* `Step.busClosed_mono`, `Step.closed_mono`: a closed bus or receiver stays
  closed.
-/

namespace FlexAgentRuntime.AgentLoop

open Interleaving Function

/-- The actions on the agent of `m`, with what they do to it. -/
inductive OnAgent (m : MsRef) (x : Choice) (a : Agent) : Op → Agent → Prop where
  | call {caller cop a' more spawn} : CallOp.Step m caller a cop a' more spawn →
      OnAgent m x a (.call m caller cop) a'
  | run {k rop a' more} : RunOp.Effect m k rop a a' more → OnAgent m x a (.run m k rop) a'
  | stop {sc sop a' more} : StopOp.Step m sc a x sop a' more → OnAgent m x a (.stop m sc sop) a'
  | agent {aop a' more} : AgentOp.Step m a aop a' more → OnAgent m x a (.agent m aop) a'

section Frames

variable {x : Choice} {w : World} {op : Op} {o : Outcome World Op} {m : MsRef} {r : RecvRef}
  {more : List Op}

theorem Step.agent_cases (h : Step x w op o) (hm : m < w.nManaged) :
    o.state.agents m = w.agents m ∨ OnAgent m x (w.agents m) op (o.state.agents m) := by
  have hset : ∀ {m' : MsRef} {a' : Agent}, OnAgent m' x (w.agents m') op a' →
      (w.setAgent m' a').agents m = w.agents m ∨
        OnAgent m x (w.agents m) op ((w.setAgent m' a').agents m) := by
    intro m' a' ha
    by_cases hmm : m = m'
    · subst hmm
      right
      rw [show (w.setAgent m a').agents m = a' from update_self ..]
      exact ha
    · exact .inl (update_of_ne hmm _ _)
  cases h with
  | call hs => exact hset (.call hs)
  | run hr => exact hset (.run (RunOp.exec_effect hr))
  | stop hs => exact hset (.stop hs)
  | agent hs => exact hset (.agent hs)
  | turn hs => cases hs <;> exact .inl rfl
  | svc hs =>
    refine .inl ?_
    cases hs with
    | created => exact update_of_ne (ne_of_lt hm) _ _
    | closeDelete =>
      rw [deleteAll_eq]
    | _ => rfl
  | _ => exact .inl rfl

theorem exec_fresh (h : exec x op w = some o) (hm : ¬ m < w.nManaged) (hm' : m < o.state.nManaged) :
    o.more = [] ∧ o.spawn = [] ∧
      ∃ cfg id log, o.state.agents m = World.newAgent cfg id log ∧
        (log = [] ∨ op = .svc (.resumeSession cfg log)) := by
  obtain ⟨sop, cfg, rfl, hcfg⟩ : ∃ sop cfg, op = .svc sop ∧ sop.creates = some cfg := by
    cases step_of_exec h with
    | svc hs =>
      cases hs with
      | created hc => exact ⟨_, _, rfl, hc⟩
      | closeDelete =>
        rw [deleteAll_eq] at hm'
        exact absurd hm' hm
      | _ => exact absurd hm' hm
    | turn hs => cases hs <;> exact absurd hm' hm
    | _ => exact absurd hm' hm
  obtain ⟨⟨w', more⟩, hop, rfl⟩ := Option.map_eq_some_iff.mp h
  -- the agent of `newManagedSessionLocked`
  have hnew : ∀ {cfg log started}, w.create cfg log started x = some (w', more) →
      more = [] ∧ ∃ id, w'.agents m = World.newAgent cfg id log := by
    intro cfg log started hc
    obtain ⟨n, err, rfl, -⟩ | ⟨n, id, -, -, rfl, rfl, -⟩ := World.create_inv hc
    · exact absurd hm' hm
    · have hlast : m = w.nManaged := Nat.eq_of_lt_succ_of_not_lt hm' hm
      subst hlast
      exact ⟨rfl, id, update_self ..⟩
  cases sop with
  | createSession cfg =>
    obtain ⟨hmore, id, hagent⟩ := hnew hop
    exact ⟨hmore, rfl, cfg, id, [], hagent, .inl rfl⟩
  | resumeSession cfg log =>
    obtain ⟨hmore, id, hagent⟩ := hnew hop
    exact ⟨hmore, rfl, cfg, id, log, hagent, .inr rfl⟩
  | _ => cases hcfg

theorem Step.bus_cases (h : Step x w op o) (hm : m < w.nManaged) :
    o.state.buses m = w.buses m ∨ ∃ bop b' more, op = .bus m bop ∧ o.state.buses m = b' ∧
      o.more = more ∧ bop.Step m (w.managed m).sessionID (w.buses m) b' more := by
  cases h with
  | @bus m' _ _ _ hs =>
    by_cases hmm : m = m'
    · subst hmm
      exact .inr ⟨_, _, _, rfl, update_self .., rfl, hs⟩
    · exact .inl (update_of_ne hmm _ _)
  | turn hs => cases hs <;> exact .inl rfl
  | svc hs =>
    refine .inl ?_
    cases hs with
    | created => exact update_of_ne (ne_of_lt hm) _ _
    | closeDelete =>
      rw [deleteAll_eq]
    | _ => rfl
  | _ => exact .inl rfl

/-- The actions that mark a session as destroyed. -/
inductive Marks (w : World) (m : MsRef) : Op → Prop where
  | destroy {id} : w.lookup id = some m → Marks w m (.svc (.destroySession id))
  | close {todo all id} : (id, m) ∈ todo → Marks w m (.svc (.closeNext todo all))

theorem markDestroyed_cases (w : World) (m m' : MsRef) :
    (w.markDestroyed m').managed m = w.managed m ∨
      m = m' ∧ (w.markDestroyed m').managed m = { w.managed m with destroyed := true } := by
  by_cases hmm : m = m'
  · subst hmm
    exact .inr ⟨rfl, update_self ..⟩
  · exact .inl (update_of_ne hmm _ _)

theorem Step.managed_cases (h : Step x w op o) (hm : m < w.nManaged) :
    o.state.managed m = w.managed m ∨
      (∃ mop s' more, op = .ms m mop ∧ o.state.managed m = s' ∧ o.more = more ∧
        mop.Step m (w.managed m) s' more) ∨
      Marks w m op ∧ o.state.managed m = { w.managed m with destroyed := true } := by
  cases h with
  | @ms m' _ _ _ hs =>
    by_cases hmm : m = m'
    · subst hmm
      exact .inr (.inl ⟨_, _, _, rfl, update_self .., rfl, hs⟩)
    · exact .inl (update_of_ne hmm _ _)
  | turn hs => cases hs <;> exact .inl rfl
  | svc hs =>
    cases hs with
    | created => exact .inl (update_of_ne (ne_of_lt hm) _ _)
    | @destroy _ _ m' hl =>
      refine (markDestroyed_cases w m m').imp_right fun ⟨he, hd⟩ => .inr ⟨?_, hd⟩
      subst he
      exact .destroy hl
    | @closeNext _ _ _ _ _ m' hi =>
      refine (markDestroyed_cases w m m').imp_right fun ⟨he, hd⟩ => .inr ⟨?_, hd⟩
      subst he
      exact .close (List.mem_of_getElem? hi)
    | closeDelete =>
      exact .inl (by rw [deleteAll_eq])
    | _ => exact .inl rfl
  | _ => exact .inl rfl

theorem Step.recvs_frame (h : Step x w op o) (hr : r < w.nRecvs) (hne : ∀ rop, op ≠ .recv r rop) :
    o.state.recvs r = w.recvs r := by
  cases h with
  | recv hs => exact update_of_ne (fun he => hne _ (by rw [he])) _ _
  | turn hs => cases hs <;> rfl
  | svc hs =>
    cases hs with
    | subscribed | newTurn => exact update_of_ne (ne_of_lt hr) _ _
    | closeDelete =>
      rw [deleteAll_eq]
    | _ => rfl
  | _ => rfl

theorem Step.recvs_fresh (h : Step x w op o) (hr : ¬ r < w.nRecvs) (hr' : r < o.state.nRecvs) :
    ∃ m turn buffer, o.state.recvs r = newServiceEventReceiver m turn buffer := by
  cases h with
  | turn hs => cases hs <;> exact absurd hr' hr
  | svc hs =>
    cases hs with
    | subscribed | newTurn =>
      obtain rfl : r = w.nRecvs := Nat.eq_of_lt_succ_of_not_lt hr' hr
      exact ⟨_, _, _, update_self ..⟩
    | closeDelete =>
      rw [deleteAll_eq] at hr'
      exact absurd hr' hr
    | _ => exact absurd hr' hr
  | _ => exact absurd hr' hr

theorem recvs_setRecv_self (w : World) (r : RecvRef) (v : Receiver) :
    (w.setRecv r v).recvs r = v := update_self ..

theorem Step.recv_cases (h : Step x w op o) (hr : r < w.nRecvs) :
    o.state.recvs r = w.recvs r ∨ ∃ rop v' more, op = .recv r rop ∧ o.state.recvs r = v' ∧
      o.more = more ∧ rop.Step r (w.recvs r) x v' more := by
  by_cases hop : ∃ rop, op = .recv r rop
  · obtain ⟨rop, rfl⟩ := hop
    cases h with
    | recv hs => exact .inr ⟨rop, _, _, rfl, recvs_setRecv_self .., rfl, hs⟩
  · exact .inl (h.recvs_frame hr fun rop he => hop ⟨rop, he⟩)

/-! ## What goes one way -/

theorem OnAgent.exited (h : OnAgent m x a op a') (he : a.state = .exited) : a'.state = .exited := by
  cases h with
  | call hs =>
    cases hs with
    | transitioned ht | failIdle ht => exact absurd he (Agent.transition_ok ht).1
    | _ => exact he
  | run hr => exact hr.exited.mpr he
  | stop hs =>
    cases hs with
    | exit ht => exact (Agent.transition_ok ht).2.1
    | _ => exact he
  | agent hs => cases hs <;> exact he

theorem Step.exited_mono (h : Step x w op o) (hm : m < w.nManaged)
    (he : (w.agents m).state = .exited) : (o.state.agents m).state = .exited := by
  rcases h.agent_cases hm with hs | hs
  · rw [hs]
    exact he
  · exact hs.exited he

theorem MsOp.Step.destroyed {mop : MsOp} {s s' : ManagedSession} (h : mop.Step m s s' more) :
    s'.destroyed = s.destroyed := by
  cases h <;> rfl

theorem Step.destroyed_mono (h : Step x w op o) (hm : m < w.nManaged)
    (hd : (w.managed m).destroyed = true) : (o.state.managed m).destroyed = true := by
  rcases h.managed_cases hm with hs | ⟨mop, s', more, -, hs, -, hstep⟩ | ⟨-, hs⟩ <;> rw [hs]
  · exact hd
  · exact hstep.destroyed.trans hd

theorem BusOp.Step.closed_mono {id : String} {bop : BusOp} {b b' : EventBus}
    (h : bop.Step m id b b' more) (hc : b.closed = true) : b'.closed = true := by
  cases h with
  | close => rfl
  | unsubscribe => exact hc
  | _ => simp [EventBus.subscribe, hc]

theorem Step.busClosed_mono (h : Step x w op o) (hm : m < w.nManaged)
    (hc : (w.buses m).closed = true) : (o.state.buses m).closed = true := by
  rcases h.bus_cases hm with hs | ⟨bop, b', more, -, hs, -, hstep⟩ <;> rw [hs]
  · exact hc
  · exact hstep.closed_mono hc

theorem RecvOp.Step.closed_mono {v v' : Receiver} {rop : RecvOp} (h : rop.Step r v x v' more)
    (hc : v.closed = true) : v'.closed = true := by
  cases h with
  | close => rfl
  | _ => exact hc

theorem Step.closed_mono (h : Step x w op o) (hr : r < w.nRecvs) (hc : (w.recvs r).closed = true) :
    (o.state.recvs r).closed = true := by
  rcases h.recv_cases hr with hs | ⟨rop, v', more, -, hs, -, hstep⟩ <;> rw [hs]
  · exact hc
  · exact hstep.closed_mono hc

end Frames

end FlexAgentRuntime.AgentLoop
