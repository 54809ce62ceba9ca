import FlexAgentRuntime.Agent.Frames

/-!
How far a teardown has come. `DestroySession` and the loop of `Close` do the
same to a session: mark it destroyed, stop its agent, complete its active turn
and close its streams. An action of a later stage is pending only when the
earlier stages have run on that session.

* `Step.past`: one step moves every teardown to its next stage;
* `Reach.teardown`: in every reachable configuration each pending action has its
  earlier stages behind it, and a session whose teardown has returned is torn
  down completely.
-/

namespace FlexAgentRuntime.AgentLoop

open Interleaving Config List Function

/-! ## The history of teardowns -/

/-- Per session: its driver has refused to stop, `completeActiveTurn` and
`closeAllStreams` have run, a `DestroySession` or `Close` of it has returned. -/
structure Teardowns where
  failed : MsRef → Bool
  completed : MsRef → Bool
  closedAll : MsRef → Bool
  returned : MsRef → Bool

namespace Teardowns

def start : Teardowns := ⟨fun _ => false, fun _ => false, fun _ => false, fun _ => false⟩

def note (h : Teardowns) (w : World) : Op → Choice → Teardowns
  | .stop m _ .driverStop, .error _ =>
    if (w.agents m).kind = .external then { h with failed := update h.failed m true }
    else h
  | .ms m (.completeActiveTurn _), _ =>
    { h with completed := update h.completed m true }
  | .ms m (.closeAllStreams _), _ => { h with closedAll := update h.closedAll m true }
  | .svc (.destroyReturn m _), _ => { h with returned := update h.returned m true }
  | .svc (.closeReturn all _), _ =>
    { h with returned := fun m => h.returned m || all.any (·.2 == m) }
  | _, _ => h

/-- What has happened stays happened. -/
structure Le (h h' : Teardowns) : Prop where
  failed : ∀ m, h.failed m = true → h'.failed m = true
  completed : ∀ m, h.completed m = true → h'.completed m = true
  closedAll : ∀ m, h.closedAll m = true → h'.closedAll m = true
  returned : ∀ m, h.returned m = true → h'.returned m = true

variable {f : MsRef → Bool} {m m' : MsRef}

theorem update_true (h : f m' = true) : update f m true m' = true :=
  update_keeps (· = true) h fun _ => rfl

theorem of_update_true (h : update f m' true m = true) : m = m' ∨ f m = true :=
  (of_update (· = true) h).imp And.left And.right

theorem note_le (h : Teardowns) (w : World) (a : Op) (x : Choice) : h.Le (h.note w a x) := by
  have hkept : ∀ {f : MsRef → Bool} m, f m = true → f m = true := fun _ hm => hm
  unfold note
  split
  · split
    · exact ⟨fun _ => update_true, hkept, hkept, hkept⟩
    · exact ⟨hkept, hkept, hkept, hkept⟩
  · exact ⟨hkept, fun _ => update_true, hkept, hkept⟩
  · exact ⟨hkept, hkept, fun _ => update_true, hkept⟩
  · exact ⟨hkept, hkept, hkept, fun _ => update_true⟩
  · exact ⟨hkept, hkept, hkept, fun _ hm => by simp [hm]⟩
  · exact ⟨hkept, hkept, hkept, hkept⟩

end Teardowns

/-- Watch teardowns under a condition on steps. -/
def watchTeardown (meets : Teardowns → Config World Op → Op → Choice → Bool) :
    Monitor World Op Choice Teardowns :=
  ⟨fun h _ _ => h, fun h c a x => h.note c.state a x, meets⟩

/-! ## The stages -/

/-- `Stop` is through: the agent is exited, unless its driver has refused. -/
def Stopped (h : Teardowns) (w : World) (m : MsRef) : Prop :=
  (w.agents m).state = .exited ∨ h.failed m = true

structure Torn (h : Teardowns) (w : World) (m : MsRef) : Prop where
  destroyed : (w.managed m).destroyed = true
  stopped : Stopped h w m
  completed : h.completed m = true
  closedAll : h.closedAll m = true

/-- The loop of `Close` that is at `m` has the other captured sessions behind it
or before it. -/
def StopCaller.Past (h : Teardowns) (w : World) (m : MsRef) : StopCaller → Prop
  | .close todo all => ∀ p ∈ all, p ∈ todo ∨ p.2 = m ∨ Torn h w p.2
  | .direct | .destroy _ => True

/-- What a teardown at `m` has done when `Stop` is called. -/
structure Begun (h : Teardowns) (w : World) (m : MsRef) (sc : StopCaller) : Prop where
  destroyed : sc ≠ .direct → (w.managed m).destroyed = true
  past : sc.Past h w m

/-- What has happened when an action is pending. -/
def Op.Past (h : Teardowns) (w : World) : Op → Prop
  | .stop m sc .closeControl => Begun h w m sc ∧ Stopped h w m
  | .stop m sc _ => Begun h w m sc
  | .bus m (.close sc) => Begun h w m sc ∧ Stopped h w m
  | .svc (.stopped m td) => Begun h w m td.1 ∧ Stopped h w m
  | .ms m (.completeActiveTurn (some td)) => td.1 ≠ .direct ∧ Begun h w m td.1 ∧ Stopped h w m
  | .ms m (.closeAllStreams td) =>
    td.1 ≠ .direct ∧ Begun h w m td.1 ∧ Stopped h w m ∧ h.completed m = true
  | .ms m (.completeActiveTurn none) | .svc (.delete _ m _) | .svc (.destroyReturn m _) =>
    Torn h w m
  | .svc (.closeNext todo all) => ∀ p ∈ all, p ∈ todo ∨ Torn h w p.2
  | .svc (.closeCancel todo all) => (∀ p ∈ todo, Torn h w p.2) ∧ ∀ p ∈ all, Torn h w p.2
  | .svc (.closeDelete all) | .svc (.closeWait all) | .svc (.closeWaitAgain all)
  | .svc (.closeReturn all _) => ∀ p ∈ all, Torn h w p.2
  | _ => True

/-! ## One step -/

section Step

variable {h : Teardowns} {w : World} {a b : Op} {x : Choice} {o : Outcome World Op} {m : MsRef}
  {sc : StopCaller}

theorem Stopped.step (hs : Step x w a o) (hm : m < w.nManaged) (h' : Stopped h w m) :
    Stopped (h.note w a x) o.state m :=
  h'.imp (hs.exited_mono hm) ((h.note_le w a x).failed m)

theorem Torn.step (hs : Step x w a o) (hm : m < w.nManaged) (ht : Torn h w m) :
    Torn (h.note w a x) o.state m :=
  ⟨hs.destroyed_mono hm ht.destroyed, ht.stopped.step hs hm,
    (h.note_le w a x).completed m ht.completed, (h.note_le w a x).closedAll m ht.closedAll⟩

theorem Begun.step (hs : Step x w a o) (hm : m < w.nManaged) (hin : sc.In w m) (hb : Begun h w m sc) :
    Begun (h.note w a x) o.state m sc := by
  refine ⟨fun hd => hs.destroyed_mono hm (hb.destroyed hd), ?_⟩
  have hpast := hb.past
  cases sc with
  | close todo all =>
    intro p hp
    exact (hpast p hp).imp_right fun hmt => hmt.imp_right (Torn.step hs (hin.2 p hp).1)
  | _ => trivial

theorem Op.Past.step (hs : Step x w a o) (hin : b.In w) (hb : b.Past h w) :
    b.Past (h.note w a x) o.state := by
  have hall : ∀ {l : List (String × MsRef)}, (∀ p ∈ l, w.HasSession p) →
      (∀ p ∈ l, Torn h w p.2) → ∀ p ∈ l, Torn (h.note w a x) o.state p.2 :=
    fun hl ht p hp => (ht p hp).step hs (hl p hp).1
  cases b with
  | stop m sc sop =>
    cases sop with
    | closeControl => exact ⟨hb.1.step hs hin.1 hin.2, hb.2.step hs hin.1⟩
    | _ => exact Begun.step hs hin.1 hin.2 hb
  | bus m bop =>
    cases bop with
    | close sc => exact ⟨hb.1.step hs hin.1 hin.2, hb.2.step hs hin.1⟩
    | _ => trivial
  | ms m mop =>
    cases mop with
    | completeActiveTurn td =>
      cases td with
      | none => exact Torn.step hs hin.1 hb
      | some td =>
        exact ⟨hb.1, hb.2.1.step hs hin.1 (hin.2 td rfl), hb.2.2.step hs hin.1⟩
    | closeAllStreams td =>
      exact ⟨hb.1, hb.2.1.step hs hin.1 hin.2, hb.2.2.1.step hs hin.1,
        (h.note_le w a x).completed m hb.2.2.2⟩
    | _ => trivial
  | svc sop =>
    cases sop with
    | stopped m td => exact ⟨hb.1.step hs hin.1 hin.2, hb.2.step hs hin.1⟩
    | delete id m err => exact Torn.step hs hin.1 hb
    | destroyReturn m err => exact Torn.step hs hin hb
    | closeNext todo all =>
      exact fun p hp => (hb p hp).imp_right fun ht => ht.step hs (hin.2 p hp).1
    | closeCancel todo all => exact ⟨hall hin.1 hb.1, hall hin.2 hb.2⟩
    | closeDelete all | closeWait all | closeWaitAgain all | closeReturn all err =>
      exact hall hin hb
    | _ => trivial
  | _ => trivial

theorem Op.Past.begun (hp : (Op.stop m sc sop).Past h w) : Begun h w m sc := by
  cases sop with
  | closeControl => exact hp.1
  | _ => exact hp

theorem SvcOp.Step.destroyed_of_stop {sop : SvcOp} {w' : World} (hs : sop.Step w x w' more)
    (hb : .stop m sc .begin_ ∈ more) : (w'.managed m).destroyed = true := by
  cases hs with
  | found hl =>
    rw [← mem_singleton.mp hb] at hl
    cases hl
  | destroy | closeNext =>
    simp at hb
    rw [hb.1]
    simp [World.markDestroyed, World.setManaged]
  | _ => simp at hb

theorem Step.exited_of_exit (hs : Step x w (.stop m sc .exit) o) :
    (o.state.agents m).state = .exited := by
  cases hs with
  | stop hs =>
    simp only [World.setAgent, update_self]
    cases hs with
    | exitAgain he => exact he
    | exit ht => exact (Agent.transition_ok ht).2.1

/-- `Stop` returns before the exit only when its driver has refused. -/
theorem Step.failed_of_stopped (hs : Step x w (.stop m sc .driverStop) o)
    (hb : .svc (.stopped m (sc, err)) ∈ o.more) :
    (h.note w (.stop m sc .driverStop) x).failed m = true := by
  cases hs with
  | stop hs =>
    cases hs with
    | driverStop _ hc =>
      rcases mem_concat.mp hb with hb | hb
      · obtain ⟨k, hk⟩ := hc _ hb
        cases hk
      · cases hb
    | externalStop => cases mem_singleton.mp hb
    | externalError hk => simp [Teardowns.note, hk]

theorem mem_or_mem_eraseIdx {α : Type} {l : List α} {i : Nat} {p q : α} (hi : l[i]? = some q)
    (hp : p ∈ l) : p = q ∨ p ∈ l.eraseIdx i := by
  obtain ⟨j, hj⟩ := mem_iff_getElem?.mp hp
  by_cases hij : j = i
  · subst hij
    rw [hi] at hj
    exact .inl (Option.some.inj hj).symm
  · exact .inr (mem_eraseIdx_iff_getElem?.mpr ⟨j, hij, hj⟩)

theorem Step.past (hs : Step x w a o) (hin : a.In w) (hp : a.Past h w) (hb : b ∈ o.more) :
    b.Past (h.note w a x) o.state := by
  have hnext := hp.step hs hin
  cases hs.follows hb with
  | driverStop | stopExit | closeBus | busClosed | destroyReturn | closeWait | closeDrained
  | closeReturn =>
    exact hnext
  | closeControl => exact ⟨hnext, .inl hs.exited_of_exit⟩
  | stoppedEarly he => exact ⟨hnext.begun, .inl (hs.exited_mono hin.1 he)⟩
  | stopFailed => exact ⟨hnext, .inr (hs.failed_of_stopped hb)⟩
  | completeActiveTurn hd => exact ⟨hd, hnext⟩
  | closeAllStreams =>
    exact ⟨hnext.1, hnext.2.1, hnext.2.2, update_self ..⟩
  | delete =>
    obtain ⟨hd, hbeg, hst, hcomp⟩ := hnext
    exact ⟨hbeg.destroyed hd, hst, hcomp, update_self ..⟩
  | closeGoOn =>
    obtain ⟨hd, hbeg, hst, hcomp⟩ := hnext
    intro p hpa
    refine (hbeg.past p hpa).imp_right fun hmt => ?_
    rcases hmt with hm | ht
    · rw [hm]
      exact ⟨hbeg.destroyed hd, hst, hcomp, update_self ..⟩
    · exact ht
  | destroyStop =>
    cases hs with
    | svc hs => exact ⟨fun _ => hs.destroyed_of_stop hb, trivial⟩
  | closeStart => exact fun p hpa => .inl hpa
  | closeDelete => exact fun p hpa => (hnext p hpa).resolve_left not_mem_nil
  | @closeStop todo all i id m hi =>
    refine ⟨fun _ => ?_, fun p hpa => ?_⟩
    · cases hs with
      | svc hs => exact hs.destroyed_of_stop hb
    · rcases hnext p hpa with hmem | ht
      · rcases mem_or_mem_eraseIdx hi hmem with rfl | hmem
        · exact .inr (.inl rfl)
        · exact .inl hmem
      · exact .inr (.inr ht)
  | closeTimeout => exact ⟨hnext, hnext⟩
  | closeAgain => exact hnext.2
  | closeComplete hmem => exact hnext.1 _ hmem
  | closeCancelRest => exact ⟨fun p hpa => hnext.1 p (mem_of_mem_eraseIdx hpa), hnext.2⟩
  | lookup hl => cases hl <;> trivial
  | run hn => cases hn <;> trivial
  | _ => trivial

/-! ### What a step adds to the history -/

theorem Teardowns.completed_note (hc : (h.note w a x).completed m = true) :
    h.completed m = true ∨ ∃ td, a = .ms m (.completeActiveTurn td) := by
  unfold note at hc
  split at hc
  · split at hc <;> exact .inl hc
  · rcases of_update_true hc with rfl | hc
    · exact .inr ⟨_, rfl⟩
    · exact .inl hc
  all_goals exact .inl hc

theorem Teardowns.closedAll_note (hc : (h.note w a x).closedAll m = true) :
    h.closedAll m = true ∨ ∃ td, a = .ms m (.closeAllStreams td) := by
  unfold note at hc
  split at hc
  · split at hc <;> exact .inl hc
  · exact .inl hc
  · rcases of_update_true hc with rfl | hc
    · exact .inr ⟨_, rfl⟩
    · exact .inl hc
  all_goals exact .inl hc

/-- The return of a teardown of `m`. -/
inductive Returns (m : MsRef) : Op → Prop where
  | destroy {err} : Returns m (.svc (.destroyReturn m err))
  | close {all id err} : (id, m) ∈ all → Returns m (.svc (.closeReturn all err))

theorem Teardowns.returned_note (hc : (h.note w a x).returned m = true) :
    h.returned m = true ∨ Returns m a := by
  unfold note at hc
  split at hc
  · split at hc <;> exact .inl hc
  · exact .inl hc
  · exact .inl hc
  · rcases of_update_true hc with rfl | hc
    · exact .inr .destroy
    · exact .inl hc
  · rcases Bool.or_eq_true_iff.mp hc with hc | hc
    · exact .inl hc
    · obtain ⟨p, hp, he⟩ := any_eq_true.mp hc
      cases eq_of_beq he
      exact .inr (.close hp)
  · exact .inl hc

theorem Op.Past.torn_of_returns (hp : a.Past h w) (hr : Returns m a) : Torn h w m := by
  cases hr with
  | destroy => exact hp
  | close hmem => exact hp _ hmem

end Step

/-! ## Whole runs -/

structure Tearing (h : Teardowns) (c : Config World Op) : Prop where
  ops : ∀ b, c.Pend b → b.Past h c.state
  completed : ∀ m, h.completed m = true →
    m < c.state.nManaged ∧ (c.state.managed m).destroyed = true ∧ Stopped h c.state m
  closedAll : ∀ m, h.closedAll m = true → h.completed m = true
  returned : ∀ m, h.returned m = true → Torn h c.state m

variable {h : Teardowns} {a : Op} {c : Config World Op} {w : World} {x : Choice}
  {entry : World → Op → Bool} {publisher : Bool} {maxSess : Nat}
  {meets : Teardowns → Config World Op → Op → Choice → Bool}

theorem Tearing.initial (publisher : Bool) (maxSess : Nat) :
    Tearing .start (initialConfig publisher maxSess) :=
  ⟨fun b hb => absurd hb not_pend_nil, nofun, nofun, nofun⟩

theorem startEntry_past (he : startEntry w a = true) : a.Past h w := by
  cases a with
  | stop m sc sop =>
    cases sop <;> cases sc <;> first | cases he | exact ⟨fun hd => absurd rfl hd, trivial⟩
  | bus m bop | ms m mop => cases he
  | svc sop => cases sop <;> trivial
  | _ => trivial

theorem Tearing.call (hi : Tearing h c) (he : startEntry c.state a = true) :
    Tearing h (c.call a) := by
  refine ⟨fun b hb => ?_, hi.completed, hi.closedAll, hi.returned⟩
  rcases pend_call.mp hb with hb | rfl
  · exact hi.ops b hb
  · exact startEntry_past he

theorem Tearing.step (hi : Tearing h c) (hc : Scoped c) (ht : c.At i a rest)
    (hs : Step x c.state a o) : Tearing (h.note c.state a x) (c.advance i rest o) := by
  have hpa := hi.ops a (pend_head ht)
  have hina := hc.ops a (pend_head ht)
  have hnext := hpa.step hs hina
  refine ⟨fun b hb => ?_, fun m hm => ?_, fun m hm => ?_, fun m hm => ?_⟩
  · rcases hb.of_advance ht with hb | hb | ⟨th, hth, hb⟩
    · exact (hi.ops b hb).step hs (hc.ops b hb)
    · exact hs.past hina hpa hb
    · obtain ⟨m, caller, k, prompt, rfl, rfl⟩ := hs.spawn_origin hth
      rcases mem_pair.mp hb with rfl | rfl <;> trivial
  · rcases Teardowns.completed_note hm with hold | ⟨td, rfl⟩
    · obtain ⟨hlt, hd, hst⟩ := hi.completed m hold
      exact ⟨hlt.trans_le hs.extends.managed, hs.destroyed_mono hlt hd, hst.step hs hlt⟩
    · refine ⟨hina.1.trans_le hs.extends.managed, ?_⟩
      cases td with
      | none => exact ⟨hnext.destroyed, hnext.stopped⟩
      | some td => exact ⟨hnext.2.1.destroyed hnext.1, hnext.2.2⟩
  · rcases Teardowns.closedAll_note hm with hold | ⟨td, rfl⟩
    · exact (h.note_le c.state a x).completed m (hi.closedAll m hold)
    · exact hnext.2.2.2
  · rcases Teardowns.returned_note hm with hold | hret
    · have htorn := hi.returned m hold
      exact htorn.step hs (hi.completed m htorn.completed).1
    · exact hnext.torn_of_returns hret

theorem Reach.tearing
    (hr : Reach (machine entry) (watchTeardown meets) .start (initialConfig publisher maxSess) h c)
    (hentry : ∀ w op, entry w op = true → startEntry w op = true := by exact fun _ _ he => he) :
    Tearing h c := by
  refine hr.invariant_of_reach Tearing (Tearing.initial publisher maxSess) ?_ ?_
  · intro h c a _ hi he
    exact hi.call (hentry _ _ he)
  · intro h c i a rest x o hr hi ht hx _
    exact hi.step (Reach.scoped hr hentry) ht (step_of_exec hx)

/-- A driver other than `NativeDriver` does not refuse to stop. -/
def stopsCleanly (w : World) : Op → Choice → Bool
  | .stop m _ .driverStop, .error _ => (w.agents m).kind != .external
  | _, _ => true

theorem Teardowns.not_failed_note (hc : stopsCleanly w a x = true) (hf : ∀ m, h.failed m = false)
    (m : MsRef) : (h.note w a x).failed m = false := by
  unfold note
  split
  · split
    · simp_all [stopsCleanly]
    · exact hf m
  all_goals exact hf m

theorem Reach.not_failed
    (hr : Reach (machine entry) (watchTeardown meets) .start (initialConfig publisher maxSess) h c)
    (hmeets : ∀ h c a x, meets h c a x = true → stopsCleanly c.state a x = true := by
      exact fun _ _ _ _ hm => hm) : ∀ m, h.failed m = false :=
  hr.invariant (fun (h : Teardowns) _ => ∀ m, h.failed m = false) (fun _ => rfl)
    (fun _ _ _ hi _ => hi)
    fun h c _ a _ x _ hi _ _ hm => Teardowns.not_failed_note (hmeets h c a x hm) hi

end FlexAgentRuntime.AgentLoop
