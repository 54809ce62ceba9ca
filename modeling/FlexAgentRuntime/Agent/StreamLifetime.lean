import FlexAgentRuntime.Agent.Claims
import FlexAgentRuntime.Agent.Receivers
import FlexAgentRuntime.Agent.Teardown

/-!
No stream outlives its session: when a teardown has returned and no call is in
flight, every receiver handed out is closed and unregistered.

A turn call claims the agent after it has registered its receiver, and the agent
cannot be claimed once it is exited, so `closeAllStreams` finds the receiver of
every successful turn call. `SubscribeEvents` has no such check: between
`getSession` and `addStream` the whole teardown can happen.

* `StreamsOk.openOrClosing_step`: a registered receiver is still registered,
  closed, or in the hands of `closeAllStreams`;
* `no_stream_outlives_session`: when `SubscribeEvents` registers its receivers
  before `closeAllStreams`, none is left;
* `subscription_outlives_session`: a run in which one is.
-/

namespace FlexAgentRuntime.AgentLoop

open Interleaving Config List

/-! ## History and condition -/

/-- Receivers registered, claimed and returned to a client so far. -/
structure StreamHistory where
  tear : Teardowns
  added : RecvRef → Bool
  claimed : RecvRef → Bool
  handed : RecvRef → Bool

def addedRecv : Op → Option RecvRef
  | .ms _ (.addStream r _) => some r
  | _ => none

def handedRecv : Op → Option RecvRef
  | .ms _ (.handOut r) => some r
  | _ => none

namespace StreamHistory

def start : StreamHistory := ⟨.start, fun _ => false, fun _ => false, fun _ => false⟩

def note (h : StreamHistory) (w : World) (a : Op) (x : Choice) : StreamHistory where
  tear := h.tear.note w a x
  added r := h.added r || addedRecv a == some r
  claimed := noteClaim h.claimed w a
  handed r := h.handed r || handedRecv a == some r

end StreamHistory

def watchStreams (meets : StreamHistory → Config World Op → Op → Choice → Bool) :
    Monitor World Op Choice StreamHistory :=
  ⟨fun h _ _ => h, fun h c a x => h.note c.state a x, meets⟩

/-- `SubscribeEvents` registers its receiver before `closeAllStreams` has run on
the session, and drivers do not refuse to stop. -/
def registersInTime (h : StreamHistory) (c : Config World Op) : Op → Choice → Bool
  | .ms m (.addStream _ .stream), _ => !h.tear.closedAll m
  | a, x => stopsCleanly c.state a x

/-! ## Registered receivers -/

/-- `closeAllStreams` has taken `r` and not yet closed it. -/
def closesStream (r : RecvRef) : Op → Bool
  | .ms _ (.closeStreams rs) => rs.contains r
  | .recv r' (.close .destroyed) => r' == r
  | _ => false

/-- The call that made `r` has registered it and goes on to the claim. -/
def afterAdd (r : RecvRef) : Op → Bool
  | .recv r' (.setCloseHook .removeStream _) | .ms _ (.readStarted r' _ _) => r' == r
  | .call _ caller _ => caller.receiver == some r
  | _ => false

structure StreamsOk (h : StreamHistory) (c : Config World Op) : Prop where
  claims : Claims h.claimed c
  exists_ : ∀ r, h.added r = true → r < c.state.nRecvs
  afterAdd : ∀ r b, c.Pend b → afterAdd r b = true → h.added r = true
  claimed : ∀ r, h.claimed r = true → h.added r = true
  handed : ∀ r, h.handed r = true → h.claimed r = true
  openOrClosing : ∀ r, h.added r = true →
    r ∈ (c.state.managed (c.state.recvs r).owner).streams ∨ (c.state.recvs r).closed = true ∨
      ∃ b, c.Pend b ∧ closesStream r b = true
  late : ∀ r, h.claimed r = true → h.tear.closedAll (c.state.recvs r).owner = true →
    r ∉ (c.state.managed (c.state.recvs r).owner).streams

variable {publisher : Bool} {maxSess i : Nat} {h : StreamHistory} {c : Config World Op} {a b : Op}
  {rest : List Op} {x : Choice} {o : Outcome World Op} {r : RecvRef} {w : World} {m : MsRef}

theorem Follows.afterAdd_origin (hf : Follows w a b) (hb : afterAdd r b = true) :
    afterAdd r a = true ∨ addedRecv a = some r := by
  cases hf with
  | snapshot | startClaimed | continueClaimed | callNext | looped | readStarted => exact .inl hb
  | callSnapshot | callContinue => exact .inl (by simpa [afterAdd, Caller.receiver] using hb)
  | removeHook => exact .inr (congrArg some (eq_of_beq hb))
  | lookup hl => cases hl <;> cases hb
  | run hn => cases hn <;> cases hb
  | _ => cases hb

/-- Whoever claims has registered its receiver. -/
theorem afterAdd_of_claimedRecv (hr : claimedRecv w a = some r) :
    afterAdd r a = true ∨ addedRecv a = some r := by
  rcases claimedRecv_iff.mp hr with ⟨m, caller, hon, hrec⟩ | ⟨m, rfl⟩
  · obtain ⟨cop, rfl, -⟩ := call_of_claimedOn hon
    exact .inl (by simp [afterAdd, hrec])
  · exact .inr rfl

theorem addedRecv_owner (hin : a.In w) (hr : addedRecv a = some r) :
    ∃ setup, a = .ms (w.recvs r).owner (.addStream r setup) ∧ r < w.nRecvs := by
  unfold addedRecv at hr
  split at hr
  · cases hr
    have hrecv := Setup.In.hasRecv hin.2
    exact ⟨_, by rw [hrecv.2], hrecv.1⟩
  · cases hr

/-- A registered receiver leaves the map through its close hook or into the
hands of `closeAllStreams`. -/
theorem Step.mem_streams (hs : Step x w a o) (hm : m < w.nManaged) (hr : r ∈ (w.managed m).streams) :
    r ∈ (o.state.managed m).streams ∨
      a = .ms m (.removeStream r) ∨ ∃ b ∈ o.more, closesStream r b = true := by
  rcases hs.managed_cases hm with he | ⟨mop, s', more, rfl, he, hmore, hstep⟩ | ⟨-, he⟩
  · rw [he]
    exact .inl hr
  · rw [he]
    cases hstep with
    | addStream => exact .inl (mem_append_left _ hr)
    | @removeStream r' =>
      by_cases hrr : r = r'
      · exact .inr (.inl (by rw [hrr]))
      · exact .inl (mem_filter.mpr ⟨hr, by simpa using hrr⟩)
    | closeAllStreams =>
      refine .inr (.inr ⟨.ms m (.closeStreams (w.managed m).streams), ?_, ?_⟩)
      · rw [hmore]
        exact mem_cons_self ..
      · exact contains_iff_mem.mpr hr
    | _ => exact .inl hr
  · rw [he]
    exact .inl hr

theorem Step.of_mem_streams (hs : Step x w a o) (hm : m < w.nManaged)
    (hr : r ∈ (o.state.managed m).streams) : r ∈ (w.managed m).streams ∨ addedRecv a = some r := by
  rcases hs.managed_cases hm with he | ⟨mop, s', more, rfl, he, -, hstep⟩ | ⟨-, he⟩
  · rw [he] at hr
    exact .inl hr
  · rw [he] at hr
    cases hstep with
    | addStream =>
      rcases mem_concat.mp hr with hr | hr
      · exact .inl hr
      · exact .inr (by rw [hr]; rfl)
    | removeStream => exact .inl (mem_filter.mp hr).1
    | closeAllStreams => cases hr
    | _ => exact .inl hr
  · rw [he] at hr
    exact .inl hr

theorem managed_setManaged_self (w : World) (m : MsRef) (s : ManagedSession) :
    (w.setManaged m s).managed m = s := Function.update_self ..

theorem Step.streams_closeAllStreams (hs : Step x w (.ms m (.closeAllStreams td)) o) :
    (o.state.managed m).streams = [] := by
  cases hs with
  | ms hs =>
    rw [managed_setManaged_self]
    cases hs
    rfl

theorem Step.mem_streams_addStream (hs : Step x w (.ms m (.addStream r setup)) o) :
    r ∈ (o.state.managed m).streams := by
  cases hs with
  | ms hs =>
    rw [managed_setManaged_self]
    cases hs
    exact mem_append_right _ (mem_singleton_self r)

theorem Step.closesStream_next (hs : Step x w a o)
    (honce : (w.recvs r).once ≠ .idle → (w.recvs r).closed = true) (ha : closesStream r a = true) :
    (o.state.recvs r).closed = true ∨ ∃ b ∈ o.more, closesStream r b = true := by
  cases hs with
  | ms hs =>
    cases hs with
    | @closeStream rs j r' hj =>
      refine .inr ?_
      rcases mem_or_mem_eraseIdx hj (contains_iff_mem.mp ha) with rfl | hmem
      · exact ⟨_, mem_cons_self .., beq_self_eq_true r⟩
      · exact ⟨_, mem_cons_of_mem _ (mem_singleton_self _), contains_iff_mem.mpr hmem⟩
    | _ => cases ha
  | recv hs =>
    refine .inl ?_
    cases hs with
    | @close _ by_ _ =>
      cases by_ with
      | destroyed =>
        cases eq_of_beq ha
        exact congrArg Receiver.closed (recvs_setRecv_self ..)
      | _ => cases ha
    | @closeAgain _ by_ hd =>
      cases by_ with
      | destroyed =>
        cases eq_of_beq ha
        rw [recvs_setRecv_self]
        exact honce (by rw [hd]; nofun)
      | _ => cases ha
    | _ => cases ha
  | _ => cases ha

theorem StreamsOk.openOrClosing_step (hi : StreamsOk h c) (hc : Scoped c) (hrecv : Receivers c)
    (ht : c.At i a rest) (hs : Step x c.state a o) (r : RecvRef)
    (hr : (h.note c.state a x).added r = true) :
    r ∈ (o.state.managed (o.state.recvs r).owner).streams ∨ (o.state.recvs r).closed = true ∨
      ∃ b, (c.advance i rest o).Pend b ∧ closesStream r b = true := by
  have hina := hc.ops a (pend_head ht)
  rcases Bool.or_eq_true_iff.mp hr with hold | hnew
  · have hlt := hi.exists_ r hold
    have hm := (hc.world.recvs r hlt).1
    rw [hs.extends.owner r hlt]
    rcases hi.openOrClosing r hold with hmem | hcl | ⟨b, hb, hcs⟩
    · rcases hs.mem_streams hm hmem with hmem' | rfl | ⟨b, hb, hcs⟩
      · exact .inl hmem'
      · have hcl := hrecv.hooks r _ (pend_head ht) (beq_self_eq_true r)
        exact .inr (.inl (hs.closed_mono hlt hcl))
      · exact .inr (.inr ⟨b, pend_more ht hb, hcs⟩)
    · exact .inr (.inl (hs.closed_mono hlt hcl))
    · by_cases hba : b = a
      · subst hba
        refine .inr ((hs.closesStream_next (hrecv.once r hlt) hcs).imp_right ?_)
        rintro ⟨b', hb', hcs'⟩
        exact ⟨b', pend_more ht hb', hcs'⟩
      · exact .inr (.inr ⟨b, hb.advance ht hba, hcs⟩)
  · obtain ⟨setup, rfl, hlt⟩ := addedRecv_owner hina (eq_of_beq hnew)
    rw [hs.extends.owner r hlt]
    exact .inl hs.mem_streams_addStream

/-- Whoever claims finds the agent running, or registers a stream. -/
theorem claimedRecv_owner (hin : a.In w) (hr : claimedRecv w a = some r) :
    (w.agents (w.recvs r).owner).state ≠ .exited ∨
      a = .ms (w.recvs r).owner (.addStream r .stream) := by
  rcases claimedRecv_iff.mp hr with ⟨m, caller, hon, hrec⟩ | ⟨m, rfl⟩
  · obtain ⟨cop, rfl, -, hlive⟩ := call_of_claimedOn hon
    cases caller with
    | service r' t =>
      cases hrec
      rw [hin.2.1.2]
      exact .inl hlive
    | direct => cases hrec
  · have hstream : w.StreamOf _ r := hin.2
    rw [hstream.1.2]
    exact .inr rfl

/-- When a receiver is claimed, `closeAllStreams` has not run. -/
theorem not_closedAll_of_claimed (htear : Tearing h.tear c) (hfail : ∀ m, h.tear.failed m = false)
    (hina : a.In c.state) (hmeets : registersInTime h c a x = true)
    (hr : claimedRecv c.state a = some r) :
    (h.note c.state a x).tear.closedAll (c.state.recvs r).owner = false := by
  refine Bool.eq_false_iff.mpr fun hcl => ?_
  rcases Teardowns.closedAll_note hcl with hold | ⟨td, rfl⟩
  · rcases claimedRecv_owner hina hr with hlive | ha
    · obtain ⟨-, -, hstop⟩ := htear.completed _ (htear.closedAll _ hold)
      rcases hstop with he | hf
      · exact hlive he
      · rw [hfail] at hf
        cases hf
    · rw [ha] at hmeets
      simp [registersInTime, hold] at hmeets
  · cases hr

theorem StreamsOk.late_step (hi : StreamsOk h c) (hc : Scoped c) (htear : Tearing h.tear c)
    (hfail : ∀ m, h.tear.failed m = false) (ht : c.At i a rest)
    (hs : Step x c.state a o) (hmeets : registersInTime h c a x = true) (r : RecvRef)
    (hr : (h.note c.state a x).claimed r = true)
    (hcl : (h.note c.state a x).tear.closedAll (o.state.recvs r).owner = true) :
    r ∉ (o.state.managed (o.state.recvs r).owner).streams := by
  have hina := hc.ops a (pend_head ht)
  rcases noteClaim_iff.mp hr with hold | hnew
  · have hlt := hi.claims.exists_ r hold
    rw [hs.extends.owner r hlt] at hcl ⊢
    rcases Teardowns.closedAll_note hcl with hcl | ⟨td, rfl⟩
    · intro hmem
      rcases hs.of_mem_streams (hc.world.recvs r hlt).1 hmem with hmem | hadd
      · exact hi.late r hold hcl hmem
      · obtain ⟨setup, rfl, -⟩ := addedRecv_owner hina hadd
        have hno := hi.claims.not_claiming hold (pend_head ht)
        simp [claiming] at hno
    · rw [hs.streams_closeAllStreams]
      exact not_mem_nil
  · have hlt := claiming_in (claiming_of_claimedRecv hnew) hina
    rw [hs.extends.owner r hlt, not_closedAll_of_claimed htear hfail hina hmeets hnew] at hcl
    cases hcl

theorem StreamsOk.step (hi : StreamsOk h c) (hc : Scoped c) (hrecv : Receivers c)
    (htear : Tearing h.tear c) (hfail : ∀ m, h.tear.failed m = false)
    (ht : c.At i a rest) (hs : Step x c.state a o)
    (hmeets : registersInTime h c a x = true) :
    StreamsOk (h.note c.state a x) (c.advance i rest o) where
  claims := hi.claims.step hc ht hs
  exists_ r hr := by
    have hlt : r < c.state.nRecvs := by
      rcases Bool.or_eq_true_iff.mp hr with hr | hr
      · exact hi.exists_ r hr
      · obtain ⟨-, -, hlt⟩ := addedRecv_owner (hc.ops a (pend_head ht)) (eq_of_beq hr)
        exact hlt
    exact hlt.trans_le hs.extends.recvs
  afterAdd r b hb haf := by
    refine Bool.or_eq_true_iff.mpr ?_
    rcases pend_cases ht hs hb with hb | hf | ⟨_, _, _, _, -, rfl | rfl⟩
    · exact .inl (hi.afterAdd r b hb haf)
    · rcases hf.afterAdd_origin haf with haf | hadd
      · exact .inl (hi.afterAdd r a (pend_head ht) haf)
      · exact .inr (beq_iff_eq.mpr hadd)
    · cases haf
    · cases haf
  claimed r hr := by
    refine Bool.or_eq_true_iff.mpr ?_
    rcases noteClaim_iff.mp hr with hold | hnew
    · exact .inl (hi.claimed r hold)
    · rcases afterAdd_of_claimedRecv hnew with haf | hadd
      · exact .inl (hi.afterAdd r a (pend_head ht) haf)
      · exact .inr (beq_iff_eq.mpr hadd)
  handed r hr := by
    refine noteClaim_iff.mpr (.inl ?_)
    rcases Bool.or_eq_true_iff.mp hr with hold | hnew
    · exact hi.handed r hold
    · refine hi.claims.after r a (pend_head ht) ?_
      have hnew := eq_of_beq hnew
      unfold handedRecv at hnew
      split at hnew
      · cases hnew
        exact beq_self_eq_true r
      · cases hnew
  openOrClosing := hi.openOrClosing_step hc hrecv ht hs
  late := hi.late_step hc htear hfail ht hs hmeets

theorem StreamsOk.call (hi : StreamsOk h c) (he : startEntry c.state a = true) :
    StreamsOk h (c.call a) := by
  refine ⟨hi.claims.call he, hi.exists_, fun r b hb haf => ?_, hi.claimed, hi.handed,
    fun r hr => ?_, hi.late⟩
  · rcases pend_call.mp hb with hb | rfl
    · exact hi.afterAdd r b hb haf
    · cases b with
      | call m caller cop =>
        cases caller with
        | service r' t => cases cop <;> cases he
        | direct => cases haf
      | ms m mop => cases he
      | recv r' rop => cases rop <;> first | cases haf | cases he
      | _ => cases haf
  · rcases hi.openOrClosing r hr with hmem | hcl | ⟨b, hb, hcs⟩
    · exact .inl hmem
    · exact .inr (.inl hcl)
    · exact .inr (.inr ⟨b, pend_call.mpr (.inl hb), hcs⟩)

/-! ## Whole runs -/

theorem stopsCleanly_of_registersInTime (hm : registersInTime h c a x = true) :
    stopsCleanly c.state a x = true := by
  unfold registersInTime at hm
  split at hm
  · rfl
  · exact hm

theorem Reach.streams_tear
    (hr : Reach (machine startEntry) (watchStreams registersInTime) .start
      (initialConfig publisher maxSess) h c) :
    Reach (machine startEntry) (watchTeardown fun _ c a x => stopsCleanly c.state a x) .start
      (initialConfig publisher maxSess) h.tear c :=
  hr.project StreamHistory.tear fun _ _ _ _ => stopsCleanly_of_registersInTime

theorem Reach.streamsOk
    (hr : Reach (machine startEntry) (watchStreams registersInTime) .start
      (initialConfig publisher maxSess) h c) : StreamsOk h c := by
  refine hr.invariant_of_reach StreamsOk ?_ ?_ ?_
  · exact ⟨Claims.initial publisher maxSess, nofun, fun r b hb => absurd hb not_pend_nil, nofun,
      nofun, nofun, nofun⟩
  · intro h c a _ hi he
    exact hi.call he
  · intro h c i a rest x o hr hi ht hx hm
    have htr := Reach.streams_tear hr
    exact hi.step (Reach.scoped hr) (Reach.receivers hr)
      (Reach.tearing htr) (Reach.not_failed htr) ht
      (step_of_exec hx) hm

/-- When `SubscribeEvents` registers its receivers before `closeAllStreams` has
run, and drivers stop: after the teardown of a session has returned and with no
call on it in flight, every receiver handed out for it is closed and out of its
map. -/
theorem no_stream_outlives_session
    (hr : Reach (machine startEntry) (watchStreams registersInTime) .start
      (initialConfig publisher maxSess) h c) (m : MsRef) (hret : h.tear.returned m = true)
    (hidle : c.pending (callOn c.state m) = 0) (r : RecvRef) (hhand : h.handed r = true)
    (hown : (c.state.recvs r).owner = m) :
    (c.state.recvs r).closed = true ∧ r ∉ (c.state.managed m).streams := by
  have hi := Reach.streamsOk hr
  have hclaim := hi.handed r hhand
  have htorn := (Reach.tearing (Reach.streams_tear hr)).returned m hret
  have hout : r ∉ (c.state.managed m).streams := by
    have := hi.late r hclaim
    rw [hown] at this
    exact this htorn.closedAll
  refine ⟨?_, hout⟩
  rcases hi.openOrClosing r (hi.claimed r hclaim) with hmem | hcl | ⟨b, hb, hcs⟩
  · rw [hown] at hmem
    exact absurd hmem hout
  · exact hcl
  · -- whoever is closing it is a teardown in flight
    have hno := pending_eq_zero.mp hidle b hb
    have hin := (Reach.scoped hr).ops b hb
    unfold closesStream at hcs
    split at hcs
    · have hown' := (hin.2 r (contains_iff_mem.mp hcs)).2
      rw [hown] at hown'
      simp [callOn, hown'] at hno
    · cases eq_of_beq hcs
      simp [callOn, hown] at hno
    · cases hcs

/-- A turn and a subscription are open when the session is destroyed. -/
def destroyWithStreams : List (Label Op Choice) :=
  [.call (.svc (.createSession ⟨"s", .native, []⟩)), .go 0 1,
   .call (.svc (.subscribeEvents "s")), .go 1 9, .call (.svc (.sendMessage "s" "hi")), .go 2 37,
   .call (.svc (.destroySession "s")), .go 4 48]

theorem no_stream_outlives_session_destroyed :
    ∃ h c, Reach (machine startEntry) (watchStreams registersInTime) .start
        (initialConfig false 0) h c ∧
      h.tear.returned 0 = true ∧ h.handed 0 = true ∧ h.handed 1 = true ∧
      (c.state.recvs 0).closed = true ∧ (c.state.recvs 1).closed = true := by
  refine Machine.follow_imp Choice.default destroyWithStreams
    (fun h c => h.tear.returned 0 = true ∧ h.handed 0 = true ∧ h.handed 1 = true ∧
      c.pending (callOn c.state 0) = 0 ∧ (c.state.recvs 0).owner = 0 ∧
      (c.state.recvs 1).owner = 0) ?_
  rintro h c hr ⟨hret, h0, h1, hidle, ho0, ho1⟩
  exact ⟨hret, h0, h1, (no_stream_outlives_session hr 0 hret hidle 0 h0 ho0).1,
    (no_stream_outlives_session hr 0 hret hidle 1 h1 ho1).1⟩

/-- `SubscribeEvents` has looked the session up when `DestroySession` runs to its
end; then it goes on. -/
def subscribeDuringDestroy : List (Label Op Choice) :=
  [.call (.svc (.createSession ⟨"s", .native, []⟩)), .go 0 1,
   .call (.svc (.subscribeEvents "s")), .go 1 1, .call (.svc (.destroySession "s")), .go 2 19,
   .go 1 8]

/-- After the teardown has returned, with no call in flight, the subscription is
open and registered. -/
theorem subscription_outlives_session :
    ∃ h c, Reach (machine startEntry) (watchStreams fun _ _ _ _ => true) .start
        (initialConfig false 0) h c ∧
      h.tear.returned 0 = true ∧ c.pending (callOn c.state 0) = 0 ∧ h.handed 0 = true ∧
      (c.state.recvs 0).owner = 0 ∧ (c.state.recvs 0).closed = false ∧
      0 ∈ (c.state.managed 0).streams :=
  Machine.follow_to Choice.default subscribeDuringDestroy

end FlexAgentRuntime.AgentLoop
