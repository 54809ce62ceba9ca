import Mathlib.Data.List.Nodup
import FlexAgentRuntime.Agent.Teardown

/-!
Registry integrity: a managed session leaves `s.sessions` only through a call
that has stopped it.

`DestroySession` looks the session up under the lock, tears it down without the
lock and then deletes by id, not by identity. With two such calls for one id, the
second can delete a session that was created under the id in between.

* `Follows.captured_origin`, `Step.captured_next`: a teardown holds on to the
  sessions it captured until it deletes them;
* `registry_integrity`: when no session is created under an id that a
  `DestroySession` in flight still holds, live sessions are registered or being
  torn down, and a session leaves the registry through its own teardown;
* `stale_destroy_drops_session`: a run in which a session is lost.
-/

namespace FlexAgentRuntime.AgentLoop

open Interleaving Config List

/-! ## Captured sessions -/

def StopCaller.captured (m : MsRef) : StopCaller → List (String × MsRef)
  | .direct => []
  | .destroy id => [(id, m)]
  | .close _ all => all

/-- The sessions that the call an action belongs to has captured and not yet
deleted. -/
def Op.captured : Op → List (String × MsRef)
  | .stop m sc _ | .bus m (.close sc) => sc.captured m
  | .svc (.stopped m td) | .ms m (.completeActiveTurn (some td)) | .ms m (.closeAllStreams td) =>
    td.1.captured m
  | .svc (.delete id m _) => [(id, m)]
  | .svc (.closeNext _ all) | .svc (.closeDelete all) => all
  | _ => []

def StopCaller.destroying : StopCaller → Option String
  | .destroy id => some id
  | .direct | .close _ _ => none

/-- The id under which the `DestroySession` an action belongs to will delete. -/
def Op.destroying : Op → Option String
  | .stop _ sc _ | .bus _ (.close sc) => sc.destroying
  | .svc (.stopped _ td) | .ms _ (.completeActiveTurn (some td)) | .ms _ (.closeAllStreams td) =>
    td.1.destroying
  | .svc (.delete id _ _) => some id
  | _ => none

/-- The actions that delete. -/
def Op.deletes : Op → Bool
  | .svc (.delete _ _ _) | .svc (.closeDelete _) => true
  | _ => false

/-- No session is created under an id that a `DestroySession` in flight holds,
and drivers do not refuse to stop. -/
def createsUnheld (c : Config World Op) : Op → Choice → Bool
  | .svc sop, .ok =>
    match sop.creates with
    | some cfg =>
      match c.state.checkCreate cfg with
      | .ok (_, id) => c.pending (fun b => b.destroying == some id) == 0
      | .error _ => true
    | none => true
  | a, x => stopsCleanly c.state a x

/-! ## One step -/

variable {w : World} {a b : Op} {x : Choice} {o : Outcome World Op} {p : String × MsRef}
  {sop : SvcOp} {m : MsRef}

theorem StopCaller.captured_afterTeardown (hp : p ∈ td.1.captured m) :
    ∃ b ∈ afterTeardown m td, p ∈ b.captured := by
  obtain ⟨sc, err⟩ := td
  cases sc with
  | direct => cases hp
  | destroy id | close todo all => exact ⟨_, mem_singleton_self _, hp⟩

theorem captured_of_isCall (h : sop.isCall = true) : (Op.svc sop).captured = [] := by
  cases sop <;> first | rfl | cases h

theorem captured_of_isReturn (h : sop.isReturn = true) : (Op.svc sop).captured = [] := by
  cases sop <;> first | rfl | cases h

theorem SvcOp.isCall_of_creates (h : sop.creates = some cfg) : sop.isCall = true := by
  cases sop <;> first | rfl | cases h

theorem StopOp.Step.captured_next {sc : StopCaller} {sop : StopOp}
    (hs : sop.Step m sc ag x ag' more) (hp : p ∈ sc.captured m) : ∃ b ∈ more, p ∈ b.captured := by
  cases hs with
  | driverStop => exact ⟨_, mem_append_right _ (mem_singleton_self _), hp⟩
  | exit =>
    exact ⟨_, mem_append_right _ (mem_cons_of_mem _ (mem_singleton_self _)), hp⟩
  | _ => exact ⟨_, mem_singleton_self _, hp⟩

theorem SvcOp.Step.captured_next (hs : sop.Step w x w' more) (hp : p ∈ (Op.svc sop).captured) :
    (Op.svc sop).deletes = true ∨ ∃ b ∈ more, p ∈ b.captured := by
  cases hs with
  | refused hc =>
    rw [captured_of_isCall hc] at hp
    cases hp
  | created hc =>
    rw [captured_of_isCall (SvcOp.isCall_of_creates hc)] at hp
    cases hp
  | found hl => cases hl <;> cases hp
  | stopped => exact .inr ⟨_, mem_cons_of_mem _ (mem_singleton_self _), hp⟩
  | delete | closeDelete => exact .inl rfl
  | closedAll => exact .inr ⟨_, mem_singleton_self _, hp⟩
  | closeNext => exact .inr ⟨_, mem_append_right _ (mem_singleton_self _), hp⟩
  | returned hc =>
    rw [captured_of_isReturn hc] at hp
    cases hp
  | _ => cases hp

theorem Step.captured_next (hs : Step x w a o) (hp : p ∈ a.captured) :
    a.deletes = true ∨ ∃ b ∈ o.more, p ∈ b.captured := by
  cases hs with
  | stop hs => exact .inr (hs.captured_next hp)
  | bus hs =>
    cases hs with
    | close => exact .inr ⟨_, mem_singleton_self _, hp⟩
    | _ => cases hp
  | ms hs =>
    cases hs with
    | completeActiveTurn =>
      exact .inr ⟨_, mem_append_right _ (mem_singleton_self _), hp⟩
    | closeAllStreams =>
      obtain ⟨b, hb, hpb⟩ := StopCaller.captured_afterTeardown hp
      exact .inr ⟨b, mem_cons_of_mem _ hb, hpb⟩
    | _ => cases hp
  | svc hs => exact hs.captured_next hp
  | _ => cases hp

theorem Follows.captured_origin (hf : Follows w a b) (hp : p ∈ b.captured) :
    (p ∈ a.captured ∧ b.destroying = a.destroying) ∨
      (p ∈ w.svc.sessions ∧ (b.destroying = some p.1 ∨ a = .svc .close)) := by
  cases hf with
  | driverStop | stopExit | closeControl | closeBus | stoppedEarly | stopFailed | busClosed
  | completeActiveTurn | closeAllStreams | delete | closeGoOn | closeDelete | closeStop =>
    exact .inl ⟨hp, rfl⟩
  | destroyStop hl =>
    obtain rfl := mem_singleton.mp hp
    exact .inr ⟨World.lookup_some hl, .inl rfl⟩
  | closeStart => exact .inr ⟨hp, .inr rfl⟩
  | lookup hl => cases hl <;> cases hp
  | run hn => cases hn <;> cases hp
  | _ => cases hp

/-- How the registry changes. -/
inductive SessionsStep (w : World) : Op → Choice → List (String × MsRef) → Prop where
  | same {a : Op} {x : Choice} : SessionsStep w a x w.svc.sessions
  | created {sop cfg w' id} : sop.creates = some cfg → w.checkCreate cfg = .ok (w', id) →
      w.svc.closed = false → (0 < w.svc.maxSess → w.svc.sessions.length < w.svc.maxSess) →
      w.lookup id = none → SessionsStep w (.svc sop) .ok (w.svc.sessions ++ [(id, w.nManaged)])
  | deleted {a : Op} {x : Choice} {l} : a.deletes = true → l.Sublist w.svc.sessions →
      (∀ q ∈ w.svc.sessions, q ∉ l → ∃ p ∈ a.captured, q.1 = p.1) → SessionsStep w a x l

theorem Step.sessionsStep (hs : Step x w a o) :
    ∃ l, o.state.svc.sessions = l ∧ SessionsStep w a x l := by
  cases hs with
  | turn hs => cases hs <;> exact ⟨_, rfl, .same⟩
  | svc hs =>
    cases hs with
    | created hcfg hcheck hc hmax hl => exact ⟨_, rfl, .created hcfg hcheck hc hmax hl⟩
    | delete =>
      refine ⟨_, rfl, .deleted rfl filter_sublist fun q hq hn => ?_⟩
      refine ⟨_, mem_singleton_self _, ?_⟩
      by_contra hne
      exact hn (mem_filter.mpr ⟨hq, by simpa using hne⟩)
    | closeDelete =>
      rw [deleteAll_eq]
      refine ⟨_, rfl, .deleted rfl filter_sublist fun q hq hn => ?_⟩
      by_contra hne
      exact hn (mem_filter.mpr ⟨hq, all_eq_true.mpr fun p hp =>
        decide_eq_true fun he => hne ⟨p, hp, he⟩⟩)
    | _ => exact ⟨_, rfl, .same⟩
  | _ => exact ⟨_, rfl, .same⟩

theorem Step.session_fresh (hs : Step x w a o) (hm : ¬ m < w.nManaged) (hm' : m < o.state.nManaged) :
    ((o.state.managed m).sessionID, m) ∈ o.state.svc.sessions := by
  cases hs with
  | turn hs => cases hs <;> exact absurd hm' hm
  | svc hs =>
    cases hs with
    | created =>
      obtain rfl : m = w.nManaged := Nat.eq_of_lt_succ_of_not_lt hm' hm
      refine mem_append_right _ (mem_singleton.mpr ?_)
      simp [World.insertSession, World.setGenerated]
    | closeDelete =>
      rw [deleteAll_eq] at hm'
      exact absurd hm' hm
    | _ => exact absurd hm' hm
  | _ => exact absurd hm' hm

theorem Step.svcClosed_mono (hs : Step x w a o) (hc : w.svc.closed = true) :
    o.state.svc.closed = true := by
  cases hs with
  | turn hs => cases hs <;> exact hc
  | svc hs =>
    cases hs with
    | close => rfl
    | closeDelete =>
      rw [deleteAll_eq]
      exact hc
    | _ => exact hc
  | _ => exact hc

theorem Step.maxSess (hs : Step x w a o) : o.state.svc.maxSess = w.svc.maxSess := by
  cases hs with
  | turn hs => cases hs <;> rfl
  | svc hs =>
    cases hs with
    | closeDelete =>
      rw [deleteAll_eq]
    | _ => rfl
  | _ => rfl

/-! ## The invariant -/

/-- `p` is being torn down by a call in flight that captured it. -/
def Captured (c : Config World Op) (p : String × MsRef) : Prop := ∃ b, c.Pend b ∧ p ∈ b.captured

instance : Decidable (Captured c p) :=
  decidable_of_iff (0 < c.pending fun b => p ∈ b.captured) (by simp [pending_pos, Captured])

structure Registry (c : Config World Op) : Prop where
  keys : (c.state.svc.sessions.map Prod.fst).Nodup
  captured : ∀ p, Captured c p → ∀ q ∈ c.state.svc.sessions, q.1 = p.1 → q = p
  held : ∀ b, c.Pend b → ∀ p ∈ b.captured,
    b.destroying = some p.1 ∨ c.state.svc.closed = true
  live : ∀ m < c.state.nManaged, (c.state.agents m).state ≠ .exited →
    ((c.state.managed m).sessionID, m) ∈ c.state.svc.sessions ∨
      Captured c ((c.state.managed m).sessionID, m)
  room : 0 < c.state.svc.maxSess → c.state.svc.sessions.length ≤ c.state.svc.maxSess

variable {h : Teardowns} {c : Config World Op} {i : Nat} {rest : List Op} {q : String × MsRef}

theorem exited_of_deletes (hpast : a.Past h c.state) (hfail : ∀ m, h.failed m = false)
    (hd : a.deletes = true) (hp : p ∈ a.captured) : (c.state.agents p.2).state = .exited := by
  have htorn : Torn h c.state p.2 := by
    unfold Op.deletes at hd
    split at hd
    · obtain rfl := mem_singleton.mp hp
      exact hpast
    · exact hpast p hp
    · cases hd
  rcases htorn.stopped with he | hf
  · exact he
  · rw [hfail] at hf
    cases hf

theorem Registry.keys_step (hreg : Registry c) (hs : Step x c.state a o) :
    (o.state.svc.sessions.map Prod.fst).Nodup := by
  obtain ⟨l, hl, hstep⟩ := hs.sessionsStep
  rw [hl]
  cases hstep with
  | same => exact hreg.keys
  | created _ _ _ _ hfree =>
    rw [map_append, nodup_append]
    refine ⟨hreg.keys, nodup_singleton _, fun k hk k' hk' => ?_⟩
    obtain ⟨⟨id, m⟩, hq, rfl⟩ := mem_map.mp hk
    rw [mem_singleton.mp hk']
    rintro rfl
    exact World.lookup_none hfree m hq
  | deleted _ hsub => exact hreg.keys.sublist (hsub.map _)

theorem Registry.captured_old (hreg : Registry c) (hs : Step x c.state a o)
    (hmeets : createsUnheld c a x = true) (hp : Captured c p) (hq : q ∈ o.state.svc.sessions)
    (he : q.1 = p.1) : q = p := by
  obtain ⟨l, hl, hstep⟩ := hs.sessionsStep
  rw [hl] at hq
  cases hstep with
  | same => exact hreg.captured p hp q hq he
  | deleted _ hsub => exact hreg.captured p hp q (hsub.subset hq) he
  | created hcfg hcheck hcl =>
    rcases mem_append.mp hq with hq | hq
    · exact hreg.captured p hp q hq he
    · obtain ⟨b, hb, hpb⟩ := hp
      rcases hreg.held b hb p hpb with hd | hc
      · rw [mem_singleton.mp hq] at he
        simp only [createsUnheld, hcfg, hcheck, beq_iff_eq, pending_eq_zero] at hmeets
        exact absurd he.symm (by simpa [hd] using hmeets b hb)
      · rw [hcl] at hc
        cases hc

theorem Registry.captured_step (hreg : Registry c) (ht : c.At i a rest)
    (hs : Step x c.state a o) (hmeets : createsUnheld c a x = true) (p : String × MsRef)
    (hp : Captured (c.advance i rest o) p) (q : String × MsRef) (hq : q ∈ o.state.svc.sessions)
    (he : q.1 = p.1) : q = p := by
  obtain ⟨b, hb, hpb⟩ := hp
  rcases pend_cases ht hs hb with hb | hf | ⟨_, _, _, _, -, rfl | rfl⟩
  · exact hreg.captured_old hs hmeets ⟨b, hb, hpb⟩ hq he
  · rcases hf.captured_origin hpb with ⟨hpa, -⟩ | ⟨hmem, -⟩
    · exact hreg.captured_old hs hmeets ⟨a, pend_head ht, hpa⟩ hq he
    · obtain ⟨l, hl, hstep⟩ := hs.sessionsStep
      have hkeys := hreg.keys_step hs
      by_cases hpl : p ∈ o.state.svc.sessions
      · exact inj_on_of_nodup_map hkeys hq hpl he
      · rw [hl] at hpl hq
        cases hstep with
        | same => exact absurd hmem hpl
        | created => exact absurd (mem_append_left _ hmem) hpl
        | deleted _ hsub => exact inj_on_of_nodup_map hreg.keys (hsub.subset hq) hmem he
  · cases hpb
  · cases hpb

theorem Registry.held_step (hreg : Registry c) (ht : c.At i a rest)
    (hs : Step x c.state a o) (b : Op) (hb : (c.advance i rest o).Pend b) (p : String × MsRef)
    (hp : p ∈ b.captured) : b.destroying = some p.1 ∨ o.state.svc.closed = true := by
  rcases hb.of_advance ht with hb | hb | ⟨th, hth, hb⟩
  · exact (hreg.held b hb p hp).imp_right hs.svcClosed_mono
  · rcases (hs.follows hb).captured_origin hp with ⟨hpa, he⟩ | ⟨-, he | rfl⟩
    · rw [he]
      exact (hreg.held a (pend_head ht) p hpa).imp_right hs.svcClosed_mono
    · exact .inl he
    · refine .inr ?_
      cases hs with
      | svc hs =>
        cases hs with
        | refused =>
          obtain rfl := mem_singleton.mp hb
          cases hp
        | created hcfg => cases hcfg
        | found hl => cases hl
        | closeAgain hc => exact hc
        | close => rfl
        | returned hr => cases hr
  · obtain ⟨m, caller, k, prompt, rfl, rfl⟩ := hs.spawn_origin hth
    rcases mem_pair.mp hb with rfl | rfl <;> cases hp

section

variable (hpast : ∀ b, c.Pend b → b.Past h c.state) (hfail : ∀ m, h.failed m = false)
  (ht : c.At i a rest) (hs : Step x c.state a o)

include hpast hfail ht hs

/-- A session leaves the registry through its own teardown, exited. -/
theorem Registry.leaves (hreg : Registry c)
    (hq : q ∈ c.state.svc.sessions) (hq' : q ∉ o.state.svc.sessions) :
    q ∈ a.captured ∧ (c.state.agents q.2).state = .exited := by
  obtain ⟨l, hl, hstep⟩ := hs.sessionsStep
  rw [hl] at hq'
  cases hstep with
  | same => exact absurd hq hq'
  | created => exact absurd (mem_append_left _ hq) hq'
  | deleted hd _ hgone =>
    obtain ⟨p, hp, he⟩ := hgone q hq hq'
    obtain rfl := hreg.captured p ⟨a, pend_head ht, hp⟩ q hq he
    exact ⟨hp, exited_of_deletes (hpast a (pend_head ht)) hfail hd hp⟩

theorem Registry.live_step (hreg : Registry c) (m : MsRef) (hm : m < o.state.nManaged)
    (hlive : (o.state.agents m).state ≠ .exited) :
    ((o.state.managed m).sessionID, m) ∈ o.state.svc.sessions ∨
      Captured (c.advance i rest o) ((o.state.managed m).sessionID, m) := by
  by_cases hold : m < c.state.nManaged
  · have hlive' : (c.state.agents m).state ≠ .exited := fun he => hlive (hs.exited_mono hold he)
    rw [hs.extends.sessionID m hold]
    rcases hreg.live m hold hlive' with hreg' | ⟨b, hb, hcap⟩
    · refine .inl ?_
      by_contra hgone
      exact hlive' (hreg.leaves hpast hfail ht hs hreg' hgone).2
    · refine .inr ?_
      by_cases hba : b = a
      · subst hba
        rcases hs.captured_next hcap with hd | ⟨b', hb', hcap'⟩
        · exact absurd (exited_of_deletes (hpast b hb) hfail hd hcap) hlive'
        · exact ⟨b', pend_more ht hb', hcap'⟩
      · exact ⟨b, hb.advance ht hba, hcap⟩
  · exact .inl (hs.session_fresh hold hm)

end

theorem Registry.room_step (hreg : Registry c) (hs : Step x c.state a o)
    (hmax : 0 < o.state.svc.maxSess) : o.state.svc.sessions.length ≤ o.state.svc.maxSess := by
  rw [hs.maxSess] at hmax ⊢
  obtain ⟨l, hl, hstep⟩ := hs.sessionsStep
  rw [hl]
  cases hstep with
  | same => exact hreg.room hmax
  | created _ _ _ hroom =>
    have := hroom hmax
    simp only [length_append, length_singleton]
    omega
  | deleted _ hsub => exact hsub.length_le.trans (hreg.room hmax)

theorem Registry.call (hreg : Registry c) (he : startEntry c.state a = true) :
    Registry (c.call a) := by
  have hnone : a.captured = [] := by
    cases a with
    | stop m sc sop => cases sop <;> cases sc <;> first | rfl | cases he
    | bus m bop | ms m mop => cases he
    | svc sop => cases sop <;> first | rfl | cases he
    | _ => rfl
  refine ⟨hreg.keys, fun p hp => ?_, fun b hb p hp => ?_, fun m hm hlive => ?_, hreg.room⟩
  · obtain ⟨b, hb, hpb⟩ := hp
    rcases pend_call.mp hb with hb | rfl
    · exact hreg.captured p ⟨b, hb, hpb⟩
    · rw [hnone] at hpb
      cases hpb
  · rcases pend_call.mp hb with hb | rfl
    · exact hreg.held b hb p hp
    · rw [hnone] at hp
      cases hp
  · refine (hreg.live m hm hlive).imp_right fun hcap => ?_
    obtain ⟨b, hb, hpb⟩ := hcap
    exact ⟨b, pend_call.mpr (.inl hb), hpb⟩

/-! ## Whole runs -/

theorem stopsCleanly_of_createsUnheld (h : createsUnheld c a x = true) :
    stopsCleanly c.state a x = true := by
  cases a with
  | svc sop => rfl
  | _ => exact h

theorem Reach.registry
    (hr : Reach (machine startEntry) (watchTeardown fun _ c a x => createsUnheld c a x) .start
      (initialConfig publisher maxSess) h c) : Registry c := by
  refine hr.invariant_of_reach (fun _ c => Registry c) ?_ ?_ ?_
  · refine ⟨nodup_nil, fun p hp => ?_, fun b hb => absurd hb not_pend_nil,
      fun m hm => absurd hm (Nat.not_lt_zero m), fun _ => Nat.zero_le _⟩
    obtain ⟨b, hb, -⟩ := hp
    exact absurd hb not_pend_nil
  · intro h c a _ hreg he
    exact hreg.call he
  · intro h c i a rest x o hr hreg ht hx hmeets
    have hs := step_of_exec hx
    have hpast := (Reach.tearing hr).ops
    have hfail := Reach.not_failed hr fun _ _ _ _ => stopsCleanly_of_createsUnheld
    exact ⟨hreg.keys_step hs, hreg.captured_step ht hs hmeets, hreg.held_step ht hs,
      hreg.live_step hpast hfail ht hs, hreg.room_step hs⟩

/-- When no session is created under an id that a `DestroySession` in flight
holds, and drivers stop: a session whose agent is not exited is registered under
its id or captured by a teardown in flight, the registry does not outgrow
`maxSess`, and whichever action is executed next, a session leaves the registry
only through a teardown that captured it and with its agent exited. -/
theorem registry_integrity {publisher : Bool} {maxSess : Nat} {h : Teardowns}
    {c : Config World Op}
    (hr : Reach (machine startEntry) (watchTeardown fun _ c a x => createsUnheld c a x) .start
      (initialConfig publisher maxSess) h c) :
    (∀ m < c.state.nManaged, (c.state.agents m).state ≠ .exited →
      ((c.state.managed m).sessionID, m) ∈ c.state.svc.sessions ∨
        Captured c ((c.state.managed m).sessionID, m)) ∧
    (0 < c.state.svc.maxSess → c.state.svc.sessions.length ≤ c.state.svc.maxSess) ∧
    ∀ (i : Nat) a rest x o, c.threads[i]? = some (a :: rest) → exec x a c.state = some o →
      ∀ q ∈ c.state.svc.sessions, q ∉ o.state.svc.sessions →
        q ∈ a.captured ∧ (c.state.agents q.2).state = .exited := by
  have hreg := Reach.registry hr
  refine ⟨hreg.live, hreg.room, fun i a rest x o ht hx q hq hq' => ?_⟩
  exact hreg.leaves (Reach.tearing hr).ops
    (Reach.not_failed hr fun _ _ _ _ => stopsCleanly_of_createsUnheld) ht (step_of_exec hx) hq hq'

/-- The id is used again after its session has been destroyed, and the second
session is being destroyed in turn. -/
def recreateAndDestroy : List (Label Op Choice) :=
  [.call (.svc (.createSession ⟨"s", .native, []⟩)), .go 0 1,
   .call (.svc (.destroySession "s")), .go 1 19,
   .call (.svc (.createSession ⟨"s", .native, []⟩)), .go 2 1,
   .call (.svc (.destroySession "s")), .go 3 2]

theorem registry_integrity_recreated :
    ∃ h c, Reach (machine startEntry) (watchTeardown fun _ c a x => createsUnheld c a x) .start
        (initialConfig false 1) h c ∧
      c.state.nManaged = 2 ∧ (c.state.agents 1).state ≠ .exited ∧
      (((c.state.managed 1).sessionID, 1) ∈ c.state.svc.sessions ∨
        Captured c ((c.state.managed 1).sessionID, 1)) := by
  refine Machine.follow_imp Choice.default recreateAndDestroy
    (fun _ c => c.state.nManaged = 2 ∧ (c.state.agents 1).state ≠ .exited) ?_
  rintro h c hr ⟨hn, hst⟩
  exact ⟨hn, hst, (registry_integrity hr).1 1 (by rw [hn]; decide) hst⟩

/-- Two calls of `DestroySession` have captured the session; the first runs to
its end, the id is used again, and the second goes on. -/
def staleDestroy : List (Label Op Choice) :=
  [.call (.svc (.createSession ⟨"s", .native, []⟩)), .go 0 1,
   .call (.svc (.destroySession "s")), .go 1 1, .call (.svc (.destroySession "s")), .go 2 1,
   .go 1 18, .call (.svc (.createSession ⟨"s", .native, []⟩)), .go 3 1, .go 2 8]

/-- The new session is neither registered nor being torn down, and its agent is
not exited. -/
theorem stale_destroy_drops_session :
    ∃ h c, Reach (machine startEntry) (watchTeardown fun _ _ _ _ => true) .start
        (initialConfig false 0) h c ∧
      1 < c.state.nManaged ∧ (c.state.agents 1).state = .idle ∧
      ((c.state.managed 1).sessionID, 1) ∉ c.state.svc.sessions ∧
      ¬ Captured c ((c.state.managed 1).sessionID, 1) :=
  Machine.follow_to Choice.default staleDestroy

end FlexAgentRuntime.AgentLoop
