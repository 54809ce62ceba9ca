import FlexAgentRuntime.Agent.Registry

/-!
What a session needs to go on living: as long as every teardown in flight is a
`DestroySession` of some other id, the session stays registered and its agent
does not exit.

* `Follows.tears`: a teardown does not change what it tears down;
* `Step.serving`: no step of a teardown of other ids disturbs a session.
-/

namespace FlexAgentRuntime.AgentLoop

open Interleaving

/-- `m` is registered under `id`, not destroyed, and its agent has not exited. -/
structure Serving (w : World) (id : String) (m : MsRef) : Prop where
  registered : (id, m) ∈ w.svc.sessions
  live : (w.managed m).destroyed = false
  running : (w.agents m).state ≠ .exited

def StopCaller.Tears (ids : String → Prop) : StopCaller → Prop
  | .destroy id => ids id
  | .direct | .close _ _ => False

/-- If the action is part of a teardown, then of a `DestroySession` of one of
`ids`. -/
def Op.Tears (ids : String → Prop) : Op → Prop
  | .svc (.destroySession id) | .svc (.delete id _ _) => ids id
  | .stop _ sc _ | .bus _ (.close sc) => sc.Tears ids
  | .svc (.stopped _ td) | .ms _ (.completeActiveTurn (some td)) | .ms _ (.closeAllStreams td) =>
    td.1.Tears ids
  | .svc .close | .svc (.closeNext _ _) | .svc (.closeDelete _) => False
  | _ => True

section Step

variable {ids ids' : String → Prop} {w w' : World} {a b : Op} {x : Choice} {o : Outcome World Op}
  {id : String} {m : MsRef} {cfg : SessionConfig}

theorem StopCaller.Tears.mono (hids : ∀ id, ids id → ids' id) {sc : StopCaller} (h : sc.Tears ids) :
    sc.Tears ids' := by
  cases sc with
  | destroy id => exact hids id h
  | _ => cases h

theorem Op.Tears.mono (hids : ∀ id, ids id → ids' id) (h : a.Tears ids) : a.Tears ids' := by
  unfold Op.Tears at h ⊢
  split at h
  all_goals first
    | exact hids _ h
    | exact h.mono hids
    | exact h

theorem Follows.tears (hf : Follows w a b) (ha : a.Tears ids) : b.Tears ids := by
  cases hf with
  | driverStop | stopExit | closeControl | closeBus | stoppedEarly | stopFailed | busClosed
  | completeActiveTurn | closeAllStreams | delete | closeGoOn | destroyStop | closeStart
  | closeDelete | closeStop =>
    exact ha
  | lookup hl => cases hl <;> trivial
  | run hn => cases hn <;> trivial
  | _ => trivial

theorem OnAgent.exit_origin (h : OnAgent m x ag a ag') (he : ag'.state = .exited) :
    ag.state = .exited ∨ ∃ sc, a = .stop m sc .exit := by
  have hnot : ∀ {dst : AgentState} {changed : Bool}, ag.transition dst = .ok (ag', changed) →
      dst ≠ .exited → False := by
    intro dst changed ht hd
    rw [(Agent.transition_ok ht).2.1] at he
    exact hd he
  cases h with
  | call hs =>
    cases hs with
    | transitioned ht | failIdle ht => exact (hnot ht nofun).elim
    | _ => exact .inl he
  | run hr => exact .inl (hr.exited.mp he)
  | stop hs =>
    cases hs with
    | exit | exitAgain => exact .inr ⟨_, rfl⟩
    | _ => exact .inl he
  | agent hs => cases hs <;> exact .inl he

theorem World.In.id_unique (hw : w.In) (hid : (id, m) ∈ w.svc.sessions)
    (hid' : w.HasSession (id', m)) : id' = id :=
  hid'.2.symm.trans (hw.sessions _ hid).2

theorem Step.serving (hs : Step x w a o) (hw : w.In) (hin : a.In w) (ha : a.Tears ids)
    (hid : ¬ ids id) (h : Serving w id m) : Serving o.state id m := by
  have hm : m < w.nManaged := (hw.sessions _ h.registered).1
  refine ⟨?_, ?_, fun he => ?_⟩
  · obtain ⟨l, hl, hstep⟩ := hs.sessionsStep
    rw [hl]
    cases hstep with
    | same => exact h.registered
    | created => exact List.mem_append_left _ h.registered
    | deleted hd _ hgone =>
      by_contra hnot
      obtain ⟨p, hp, he⟩ := hgone _ h.registered hnot
      unfold Op.deletes at hd
      split at hd
      · cases List.mem_singleton.mp hp
        cases (show id = _ from he)
        exact hid ha
      · exact ha
      · cases hd
  · rcases hs.managed_cases hm with he | ⟨mop, s', more, -, he, -, hstep⟩ | ⟨hmark, -⟩
    · rw [he]
      exact h.live
    · rw [he, hstep.destroyed]
      exact h.live
    · cases hmark with
      | destroy hl =>
        have hsess := hw.sessions _ (World.lookup_some hl)
        exact absurd (hw.id_unique h.registered hsess ▸ ha) hid
      | close => exact ha.elim
  · rcases hs.agent_cases hm with hsame | hon
    · exact h.running (hsame ▸ he)
    · rcases hon.exit_origin he with he | ⟨sc, rfl⟩
      · exact h.running he
      · cases sc with
        | destroy id' => exact hid (hw.id_unique h.registered hin.2 ▸ ha)
        | direct | close todo all => exact ha

theorem Step.svcClosed_frame (hs : Step x w a o) (ha : a.Tears ids) :
    o.state.svc.closed = w.svc.closed := by
  cases hs with
  | turn hs => cases hs <;> rfl
  | svc hs =>
    cases hs with
    | close | closeDelete => exact ha.elim
    | _ => rfl
  | _ => rfl

theorem checkCreate_id (hid : cfg.sessionID ≠ "") (h : w.checkCreate cfg = .ok (w', id)) :
    id = cfg.sessionID := by
  unfold World.checkCreate at h
  split at h
  · cases h
  · split at h
    · cases h
    · simp only at h
      split at h
      · cases h
      · exact (Prod.mk.inj (Except.ok.inj h)).2.symm

theorem SvcOp.Step.serving_created (hs : (SvcOp.createSession cfg).Step w x w' [])
    (hid : cfg.sessionID ≠ "") : ∃ m, Serving w' cfg.sessionID m := by
  cases hs with
  | @created _ cfg' id' log started n hc hcheck _ _ _ =>
    cases hc
    obtain rfl := checkCreate_id hid hcheck
    refine ⟨w.nManaged, List.mem_append_right _ (List.mem_singleton_self _), ?_, ?_⟩
    · simp [World.insertSession, World.setGenerated]
    · simp [World.insertSession, World.setGenerated, World.newAgent]
  | returned hr => cases hr

end Step

end FlexAgentRuntime.AgentLoop
