import FlexAgentRuntime.Agent.Teardown

/-!
Silence after a teardown: once `DestroySession` or `Close` has returned, the
session publishes nothing and none of its receivers gets an event.

`eventBus.publish` takes a snapshot of its subscribers and calls them after it
has released the lock, and `push` checks that the receiver is open before it
sends. A delivery that began before the teardown can end after it.

* `Quiet.step`: a session with a closed bus and no delivery under way stays so;
* `post_destroy_silence`: in a run whose teardowns return only then, nothing is
  added afterwards;
* `delivery_after_destroy`: a run in which a delivery outlives the teardown.
-/

namespace FlexAgentRuntime.AgentLoop

open Interleaving Config List

/-! ## Quiet sessions -/

/-- An event of `m` is on its way: to the subscribers of the bus, to the
publisher, to a receiver, or as the first event of a new subscription. -/
def delivering (w : World) (m : MsRef) : Op → Bool
  | .bus m' (.deliver _ _) | .ms m' (.publish _) | .agent m' (.readState _ _) => m' == m
  | .recv r (.pushCheck _ _) | .recv r (.pushSelect _ _) => (w.recvs r).owner == m
  | _ => false

structure Quiet (c : Config World Op) (m : MsRef) : Prop where
  closed : (c.state.buses m).closed = true
  silent : ∀ b, c.Pend b → delivering c.state m b = false

/-- The computable form of `Quiet`. -/
def quiet (c : Config World Op) (m : MsRef) : Bool :=
  (c.state.buses m).closed && c.pending (delivering c.state m) == 0

theorem quiet_iff : quiet c m = true ↔ Quiet c m := by
  simp only [quiet, Bool.and_eq_true, beq_iff_eq, pending_eq_zero]
  exact ⟨fun h => ⟨h.1, h.2⟩, fun h => ⟨h.closed, h.silent⟩⟩

/-- Teardowns return when the sessions they have torn down are quiet. -/
def quietReturn (c : Config World Op) : Op → Bool
  | .svc (.destroyReturn m _) => quiet c m
  | .svc (.closeReturn all _) => all.all fun p => quiet c p.2
  | _ => true

/-! ## Nothing is added -/

/-- From `w` to `w'` the session `m` has published nothing, its receivers have
only lost events to their readers, and new ones have none. -/
structure NothingAdded (w w' : World) (m : MsRef) : Prop where
  published : (w'.managed m).published = (w.managed m).published
  old : ∀ r < w.nRecvs, (w.recvs r).owner = m → (w'.recvs r).ch <:+ (w.recvs r).ch
  new : ∀ r < w'.nRecvs, ¬ r < w.nRecvs → (w'.recvs r).owner = m → (w'.recvs r).ch = []

theorem NothingAdded.refl (w : World) (m : MsRef) : NothingAdded w w m :=
  ⟨rfl, fun _ _ _ => suffix_rfl, fun _ hr hn => absurd hr hn⟩

theorem NothingAdded.trans (h : NothingAdded w w' m) (h' : NothingAdded w' w'' m)
    (he : w.Extends w') (he' : w'.Extends w'') : NothingAdded w w'' m := by
  refine ⟨h'.published.trans h.published, fun r hr ho => ?_, fun r hr hn ho => ?_⟩
  · have hr' := hr.trans_le he.recvs
    exact (h'.old r hr' ((he.owner r hr).trans ho)).trans (h.old r hr ho)
  · by_cases hr' : r < w'.nRecvs
    · have ho' : (w'.recvs r).owner = m := (he'.owner r hr').symm.trans ho
      have hsuf := h'.old r hr' ho'
      rw [h.new r hr' hn ho'] at hsuf
      exact suffix_nil.mp hsuf
    · exact h'.new r hr hr' ho

/-! ## One step -/

section Step

variable {c : Config World Op} {i : Nat} {a : Op} {rest : List Op} {x : Choice}
  {o : Outcome World Op} {m : MsRef}

theorem delivering_extends (he : w.Extends w') (hin : b.In w) :
    delivering w' m b = delivering w m b := by
  cases b with
  | recv r rop => cases rop <;> simp [delivering, he.owner r hin.1]
  | agent m' aop => cases aop <;> rfl
  | bus m' bop => cases bop <;> rfl
  | ms m' mop => cases mop <;> rfl
  | _ => rfl

/-- A delivery comes from a publish on an open bus, from a delivery under way,
or from a subscription to a session that is not destroyed. -/
theorem Follows.delivering_origin (hf : Follows w a b) (hin : a.In w) (he : w.Extends w')
    (hb : delivering w' m b = true) :
    (w.buses m).closed = false ∨ delivering w m a = true ∨ (w.managed m).destroyed = false := by
  -- a receiver that a handler of `m'` pushes to belongs to `m'`
  have howner : ∀ {m' : MsRef} {r : RecvRef}, w.HasRecv m' r →
      ((w'.recvs r).owner == m) = true → (m' == m) = true := by
    intro m' r hr hb
    rwa [he.owner r hr.1, hr.2] at hb
  cases hf with
  | deliver ho =>
    cases eq_of_beq hb
    exact .inl ho
  | deliverRest | deliverPublisher => exact .inr (.inl hb)
  | deliverTurn hmem | deliverStream hmem => exact .inr (.inl (howner (hin.2 _ hmem).1 hb))
  | pushSelect => exact .inr (.inl (howner ⟨hin.1, rfl⟩ hb))
  | initialPush => exact .inr (.inl (howner (hin.2 _ _ rfl).1 hb))
  | readState _ hd =>
    cases eq_of_beq hb
    exact .inr (.inr hd)
  | lookup hl => cases hl <;> cases hb
  | run hn => cases hn <;> cases hb
  | _ => cases hb

theorem Quiet.step (hq : Quiet c m) (hm : m < c.state.nManaged)
    (hd : (c.state.managed m).destroyed = true) (hc : Scoped c)
    (ht : c.At i a rest) (hs : Step x c.state a o) :
    Quiet (c.advance i rest o) m := by
  refine ⟨hs.busClosed_mono hm hq.closed, fun b hb => ?_⟩
  rcases pend_cases ht hs hb with hb | hf | ⟨_, _, _, _, -, rfl | rfl⟩
  · exact (delivering_extends hs.extends (hc.ops b hb)).trans (hq.silent b hb)
  · refine Bool.eq_false_iff.mpr fun hdel => ?_
    rcases hf.delivering_origin (hc.ops a (pend_head ht)) hs.extends hdel with h | h | h
    · rw [hq.closed] at h
      cases h
    · rw [hq.silent a (pend_head ht)] at h
      cases h
    · rw [hd] at h
      cases h
  · rfl
  · rfl

theorem Quiet.nothingAdded (hq : Quiet c m) (hm : m < c.state.nManaged)
    (ht : c.At i a rest) (hs : Step x c.state a o) :
    NothingAdded c.state o.state m := by
  have hquiet := hq.silent a (pend_head ht)
  refine ⟨?_, fun r hr ho => ?_, fun r hr hn _ => ?_⟩
  · rcases hs.managed_cases hm with he | ⟨mop, s', more, rfl, he, -, hstep⟩ | ⟨-, he⟩ <;> rw [he]
    cases hstep with
    | publish => simp [delivering] at hquiet
    | _ => rfl
  · rcases hs.recv_cases hr with he | ⟨rop, v', more, rfl, he, -, hstep⟩
    · exact he ▸ suffix_rfl
    · rw [he]
      cases hstep with
      | send => simp [delivering, ho] at hquiet
      | take hch | takeWaiting hch => exact hch ▸ suffix_cons _ _
      | _ => exact suffix_rfl
  · obtain ⟨m', turn, buffer, hv⟩ := hs.recvs_fresh hn hr
    rw [hv]
    rfl

end Step

/-! ## Whole runs -/

/-- Every session whose teardown has returned is quiet. -/
theorem Reach.quiet
    (hr : Reach (machine startEntry) (watchTeardown fun _ c a _ => quietReturn c a) .start
      (initialConfig publisher maxSess) h c) : ∀ m, h.returned m = true → Quiet c m := by
  refine hr.invariant_of_reach (fun h c => ∀ m, h.returned m = true → Quiet c m) nofun ?_ ?_
  · intro h c a _ hi he m hm
    refine ⟨(hi m hm).closed, fun b hb => ?_⟩
    rcases pend_call.mp hb with hb | rfl
    · exact (hi m hm).silent b hb
    · cases b with
      | recv r rop => cases rop <;> first | rfl | cases he
      | agent m' aop => cases aop <;> first | rfl | cases he
      | bus m' bop | ms m' mop => cases he
      | _ => rfl
  · intro h c i a rest x o hr hi ht hx hmeets m hm
    have hs := step_of_exec hx
    have hc := Reach.scoped hr
    have htear := Reach.tearing hr
    have hstep : Torn h c.state m → Quiet c m → Quiet (c.advance i rest o) m := fun htorn hq =>
      hq.step (htear.completed m htorn.completed).1 htorn.destroyed hc ht hs
    rcases Teardowns.returned_note hm with hold | hret
    · exact hstep (htear.returned m hold) (hi m hold)
    · -- the teardown returns in this step, and the condition is about this moment
      have htorn := (htear.ops a (pend_head ht)).torn_of_returns hret
      refine hstep htorn (quiet_iff.mp ?_)
      cases hret with
      | destroy => exact hmeets
      | close hmem => exact all_eq_true.mp hmeets _ hmem

/-- When teardowns return only from quiet sessions, a session whose teardown has
returned publishes nothing and adds nothing to its receivers, ever. -/
theorem post_destroy_silence {publisher : Bool} {maxSess : Nat} {h h' : Teardowns}
    {c c' : Config World Op}
    (hr : Reach (machine startEntry) (watchTeardown fun _ c a _ => quietReturn c a) .start
      (initialConfig publisher maxSess) h c)
    (hr' : Reach (machine startEntry) (watchTeardown fun _ c a _ => quietReturn c a) h c h' c')
    (m : MsRef) (hret : h.returned m = true) : NothingAdded c.state c'.state m := by
  refine (hr'.invariant_of_reach
    (fun (h' : Teardowns) c' => h'.returned m = true ∧ c.state.Extends c'.state ∧
      NothingAdded c.state c'.state m)
    ⟨hret, .refl _, .refl _ m⟩ (fun _ _ _ _ hi _ => hi) ?_).2.2
  intro h' c' i a rest x o hr' hi ht hx _
  have hs := step_of_exec hx
  have hreach := hr.trans hr'
  have htear := Reach.tearing hreach
  obtain ⟨hret', he, hadd⟩ := hi
  have hm := (htear.completed m (htear.returned m hret').completed).1
  exact ⟨(h'.note_le c'.state a x).returned m hret', he.trans hs.extends,
    hadd.trans ((Reach.quiet hreach m hret').nothingAdded hm ht hs) he hs.extends⟩

/-- A session with a subscriber is destroyed while nothing else runs, and later
a client reads what is left. -/
def destroyThenRead : List (Label Op Choice) :=
  [.call (.svc (.createSession ⟨"s", .native, []⟩)), .go 0 1,
   .call (.svc (.subscribeEvents "s")), .go 1 9, .call (.svc (.destroySession "s")), .go 2 31]

theorem post_destroy_silence_read :
    ∃ h c h' c', Reach (machine startEntry) (watchTeardown fun _ c a _ => quietReturn c a) .start
        (initialConfig true 0) h c ∧
      Reach (machine startEntry) (watchTeardown fun _ c a _ => quietReturn c a) h c h' c' ∧
      h.returned 0 = true ∧ (c'.state.recvs 0).ch ≠ (c.state.recvs 0).ch ∧
      NothingAdded c.state c'.state 0 := by
  obtain ⟨h, c, h', c', hr, hr', hret, hlen⟩ := (machine startEntry).follow_then
    (watchTeardown fun _ c a _ => quietReturn c a) Choice.default .start (initialConfig true 0)
    destroyThenRead [.call (.recv 0 .recv), .go 3 2]
    (fun h c _ c' => h.returned 0 = true ∧
      (c'.state.recvs 0).ch.length ≠ (c.state.recvs 0).ch.length)
  exact ⟨h, c, h', c', hr, hr', hret, fun he => hlen (by rw [he]),
    post_destroy_silence hr hr' 0 hret⟩

/-- The loop has the subscribers of `turn_started` in hand, and `FollowUp` is
past the check of `push`, when `DestroySession` runs to its end. -/
def destroyDuringDelivery : List (Label Op Choice) :=
  [.call (.svc (.createSession ⟨"s", .native, []⟩)), .go 0 1,
   .call (.svc (.sendMessage "s" "hi")), .go 1 35, .go 2 5,
   .call (.svc (.followUp "s" "more")), .go 3 10, .call (.svc (.destroySession "s")), .go 4 38]

/-- After `DestroySession` has returned the session calls the publisher, and an
event is added to the buffer of its receiver. -/
theorem delivery_after_destroy :
    ∃ h c h' c', Reach (machine startEntry) (watchTeardown fun _ _ _ _ => true) .start
        (initialConfig true 0) h c ∧
      Reach (machine startEntry) (watchTeardown fun _ _ _ _ => true) h c h' c' ∧
      h.returned 0 = true ∧
      (c.state.managed 0).published.length < (c'.state.managed 0).published.length ∧
      (c.state.recvs 0).owner = 0 ∧
      (c.state.recvs 0).ch.length < (c'.state.recvs 0).ch.length :=
  (machine startEntry).follow_then (watchTeardown fun _ _ _ _ => true) Choice.default .start
    (initialConfig true 0) destroyDuringDelivery [.go 2 2, .go 3 1] _

end FlexAgentRuntime.AgentLoop
