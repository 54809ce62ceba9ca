import FlexAgentRuntime.Agent.EventSources

/-!
The stream of a turn: what the receiver of a successful `SendMessage` or `Continue` is
given, and who closes it.

The receiver is subscribed before the agent is claimed. While an earlier run is still
winding down, its events reach the new receiver, and one of them may close it.

* `Sources`: where the events of a receiver come from, and who closed it;
* `Attributed`: the receiver of a turn that began alone has events of its own turn only;
* `stream_of_own_turn`: so it is in every run in which calls subscribe and claim apart
  from earlier turns;
* `closed_by_earlier_run`: a run in which a call subscribes during an earlier turn.
-/

namespace FlexAgentRuntime.AgentLoop

open Interleaving Config

/-! ## History and condition -/

/-- A call of `Abort` on `m` is under way, or the event it has emitted. -/
def aborting (w : World) (m : MsRef) : Op → Bool
  | .agent m' (.enqueueCheck cmd) | .agent m' (.enqueueSend cmd) =>
    m' == m && cmd.type == .abort
  | op => (eventOn w op).any fun p =>
    p.1 == m && p.2.origin == .control && isTerminalTurnEvent p.2

/-- No turn of `m` is under way, and no `Abort`. -/
def apart (c : Config World Op) (m : MsRef) : Bool :=
  c.pending (winding c.state m) == 0 && c.pending (aborting c.state m) == 0

/-- For each session the last caller that claimed its agent. For each receiver: whether its
call has claimed the agent, has been apart from other turns since it began, has returned the
receiver or failed; the events it was given, who closed it, and whether `Abort` was called on
its session since it was made. -/
structure TurnLog where
  current : MsRef → Option Caller
  claimed : RecvRef → Bool
  alone : RecvRef → Bool
  handed : RecvRef → Bool
  failed : RecvRef → Bool
  got : RecvRef → List AgentEvent
  closer : RecvRef → Option Closer
  aborted : RecvRef → Bool

namespace TurnLog

def start : TurnLog where
  current := fun _ => none
  claimed := fun _ => false
  alone := fun _ => false
  handed := fun _ => false
  failed := fun _ => false
  got := fun _ => []
  closer := fun _ => none
  aborted := fun _ => false

def noteCurrent (h : TurnLog) (w : World) (a : Op) (m : MsRef) : Option Caller :=
  match claimedOn w a with
  | some (m', caller) => if m' = m then some caller else h.current m
  | none => h.current m

/-- A receiver is made apart from other turns, and remains so until another call claims the
agent before its own does. -/
def noteAlone (h : TurnLog) (c : Config World Op) (a : Op) (r : RecvRef) : Bool :=
  match a with
  | .svc (.newTurn m _) => if r = c.state.nRecvs then apart c m else h.alone r
  | _ =>
    match claimedOn c.state a with
    | some (m, caller) => h.alone r &&
        (h.claimed r || (c.state.recvs r).owner != m || caller.receiver == some r)
    | none => h.alone r

def noteGot (h : TurnLog) (a : Op) (x : Choice) (r : RecvRef) : List AgentEvent :=
  match a, x with
  | .recv r' (.pushSelect evt _), .send => if r' = r then h.got r ++ [evt] else h.got r
  | _, _ => h.got r

def noteCloser (h : TurnLog) (w : World) (a : Op) (r : RecvRef) : Option Closer :=
  match a with
  | .recv r' (.close by_) =>
    if r' = r ∧ (w.recvs r).once = .idle then some by_ else h.closer r
  | _ => h.closer r

def noteAborted (h : TurnLog) (w : World) (a : Op) (r : RecvRef) : Bool :=
  h.aborted r || match a with
    | .svc (.abort id _) => r < w.nRecvs && (w.managed (w.recvs r).owner).sessionID == id
    | _ => false

def note (h : TurnLog) (c : Config World Op) (a : Op) (x : Choice) : TurnLog where
  current := h.noteCurrent c.state a
  claimed := noteClaim h.claimed c.state a
  alone := h.noteAlone c a
  handed r := h.handed r || handsOut r a
  failed r := h.failed r || failing r a
  got := h.noteGot a x
  closer := h.noteCloser c.state a
  aborted := h.noteAborted c.state a

end TurnLog

/-- The receivers of earlier turns of `m` are closed, but for those whose call has failed. -/
def earlierClosed (h : TurnLog) (c : Config World Op) (m : MsRef) : Bool :=
  (List.range c.state.nRecvs).all fun r =>
    !h.claimed r || (c.state.recvs r).turn.isNone || (c.state.recvs r).owner != m ||
      (c.state.recvs r).closed || h.failed r || c.pending (failing r) != 0

/-- A call claims the agent only when it has been apart from other turns since it began, and
the receivers of earlier turns are closed. -/
def turnsApart (h : TurnLog) (c : Config World Op) (a : Op) (_ : Choice) : Bool :=
  match claimedOn c.state a with
  | some (m, caller) => caller.receiver.all h.alone && earlierClosed h c m
  | none => true

def watchAttribution (meets : TurnLog → Config World Op → Op → Choice → Bool) :
    Monitor World Op Choice TurnLog :=
  ⟨fun h _ _ => h, fun h c a x => h.note c a x, meets⟩

/-! ## Where events come from -/

/-- What an event on its way tells about its origin. -/
structure Op.Sound (w : World) (b : Op) (m : MsRef) (evt : AgentEvent) : Prop where
  external : evt.origin = .external → (w.agents m).kind = .external
  terminal : isTerminalTurnEvent evt = true →
    (∃ k, evt.origin = .run k) ∨ evt.origin = .control ∨ evt.origin = .external
  subscribe : evt.origin = .subscribe → ∃ r rop, b = .recv r rop ∧ (w.recvs r).turn = none
  closing : ∀ r e, b = .recv r (.close (.terminal e)) → isTerminalTurnEvent e = true

structure Sources (h : TurnLog) (c : Config World Op) : Prop where
  events : ∀ b m evt, c.Pend b → eventOn c.state b = some (m, evt) → b.Sound c.state m evt
  fresh : ∀ r, ¬ r < c.state.nRecvs → h.got r = [] ∧ h.closer r = none
  external : ∀ r < c.state.nRecvs, ∀ e ∈ h.got r, e.origin = .external →
    (c.state.agents (c.state.recvs r).owner).kind = .external
  subscribe : ∀ r < c.state.nRecvs, ∀ e ∈ h.got r, e.origin = .subscribe →
    (c.state.recvs r).turn = none
  closer : ∀ r < c.state.nRecvs, ∀ e, h.closer r = some (.terminal e) →
    (∃ k, e.origin = .run k) ∨ e.origin = .control ∨
      e.origin = .external ∧ (c.state.agents (c.state.recvs r).owner).kind = .external
  failed : ∀ r, h.closer r = some .failed → h.failed r = true
  closed : ∀ r < c.state.nRecvs, (c.state.recvs r).closed = true →
    h.closer r ≠ none ∧ (c.state.recvs r).once ≠ .idle

variable {h : TurnLog} {c : Config World Op} {i : Nat} {a b : Op} {rest : List Op} {x : Choice}
  {o : Outcome World Op} {r : RecvRef} {t : TurnRef} {m : MsRef} {evt e : AgentEvent} {w w' : World}

theorem Op.Sound.old (hb : b.Sound w m evt) (hin : b.In w) (hm : m < w.nManaged)
    (hs : Step x w a o) : b.Sound o.state m evt := by
  refine ⟨fun ho => ?_, hb.terminal, fun ho => ?_, hb.closing⟩
  · rw [hs.kind_eq hm]
    exact hb.external ho
  · obtain ⟨r, rop, rfl, ht⟩ := hb.subscribe ho
    exact ⟨r, rop, rfl, (hs.extends.turn r hin.1).trans ht⟩

theorem Op.Sound.follows (hf : Follows w a b) (hin : a.In w) (hs : Step x w a o)
    (hb : eventOn o.state b = some (m, evt))
    (ha : ∀ evt, eventOn w a = some (m, evt) → a.Sound w m evt) : b.Sound o.state m evt := by
  have hclosing : ∀ r e, b = .recv r (.close (.terminal e)) → isTerminalTurnEvent e = true := by
    rintro r e rfl
    cases hf with
    | pushClose ht => exact ht
    | lookup hl => cases hl
    | run hn => cases hn
  rcases hf.event_origin hin hs.extends hb with ⟨evt', hev', ho, hterm⟩ | hem
  · have hold := ha evt' hev'
    refine ⟨fun h => ?_, fun h => ?_, fun h => ?_, hclosing⟩
    · rw [hs.kind_eq (event_session hin hev')]
      exact hold.external (ho ▸ h)
    · rw [ho]
      exact hold.terminal (hterm ▸ h)
    · -- the receiver of a subscription hands the event on to itself
      obtain ⟨r, rop, rfl, ht⟩ := hold.subscribe (ho ▸ h)
      refine ⟨r, ?_⟩
      cases hf with
      | pushSelect | pushClose => exact ⟨_, rfl, (hs.extends.turn r hin.1).trans ht⟩
      | _ => cases hb
  · cases hem with
    | call _ ho ht | stop ho ht => exact ⟨by simp [ho], by simp [ht], by simp [ho], hclosing⟩
    | @run k _ ho => exact ⟨by simp [ho], fun _ => .inl ⟨k, ho⟩, by simp [ho], hclosing⟩
    | ack he =>
      subst he
      exact ⟨nofun, fun _ => .inr (.inl rfl), nofun, hclosing⟩
    | @subscribe r id ho ht =>
      refine ⟨by simp [ho], by simp [ht], fun _ => ?_, hclosing⟩
      have hstream := hin.2 r id rfl
      cases hf with
      | initialPush => exact ⟨r, _, rfl, (hs.extends.turn r hstream.1.1).trans hstream.2⟩
      | _ => cases hb

theorem noteGot_cases (he : e ∈ h.noteGot a x r) :
    e ∈ h.got r ∨ ∃ turn, a = .recv r (.pushSelect e turn) ∧ x = .send := by
  unfold TurnLog.noteGot at he
  split at he
  · rename_i r' evt turn
    split at he
    · rename_i heq
      subst heq
      rcases mem_concat.mp he with he | rfl
      · exact .inl he
      · exact .inr ⟨turn, rfl, rfl⟩
    · exact .inl he
  · exact .inl he

theorem noteCloser_cases (he : h.noteCloser w a r = some by_) :
    h.closer r = some by_ ∨ a = .recv r (.close by_) ∧ (w.recvs r).once = .idle := by
  unfold TurnLog.noteCloser at he
  split at he
  · rename_i r' by'
    split at he
    · rename_i hg
      obtain ⟨rfl, hidle⟩ := hg
      cases he
      exact .inr ⟨rfl, hidle⟩
    · exact .inl he
  · exact .inl he

theorem noteCloser_of_close (hidle : (w.recvs r).once = .idle) :
    h.noteCloser w (.recv r (.close by_)) r = some by_ := by
  simp [TurnLog.noteCloser, hidle]

theorem noteCloser_ne_none (hn : h.closer r ≠ none) : h.noteCloser w a r ≠ none := by
  unfold TurnLog.noteCloser
  split
  · split
    · nofun
    · exact hn
  · exact hn

theorem Sources.lt_of_got (hi : Sources h c) (hin : a.In c.state) (he : e ∈ h.noteGot a x r) :
    r < c.state.nRecvs := by
  rcases noteGot_cases he with he | ⟨turn, rfl, -⟩
  · by_contra hr
    rw [(hi.fresh r hr).1] at he
    cases he
  · exact hin.1

theorem Sources.lt_of_closer (hi : Sources h c) (hin : a.In c.state)
    (he : h.noteCloser c.state a r = some by_) : r < c.state.nRecvs := by
  rcases noteCloser_cases he with he | ⟨rfl, -⟩
  · by_contra hr
    cases (hi.fresh r hr).2.symm.trans he
  · exact hin.1

theorem Sources.closed_step (hi : Sources h c) (hs : Step x c.state a o)
    (hr : r < c.state.nRecvs) (hcl : (o.state.recvs r).closed = true) :
    h.noteCloser c.state a r ≠ none ∧ (o.state.recvs r).once ≠ .idle := by
  rcases hs.recv_cases hr with he | ⟨rop, v', more, rfl, he, -, hrop⟩
  · rw [he] at hcl ⊢
    exact (hi.closed r hr hcl).imp_left noteCloser_ne_none
  · rw [he] at hcl ⊢
    cases hrop with
    | close hidle => exact ⟨by rw [noteCloser_of_close hidle]; nofun, nofun⟩
    | hooksDone =>
      exact ⟨noteCloser_ne_none (hi.closed r hr hcl).1, nofun⟩
    | _ => exact (hi.closed r hr hcl).imp_left noteCloser_ne_none

section
variable (hi : Sources h c) (ht : c.At i a rest)
include hi ht

theorem Sources.got_step (hr : r < c.state.nRecvs) (he : e ∈ h.noteGot a x r) :
    (e.origin = .external → (c.state.agents (c.state.recvs r).owner).kind = .external) ∧
      (e.origin = .subscribe → (c.state.recvs r).turn = none) := by
  rcases noteGot_cases he with he | ⟨turn, rfl, -⟩
  · exact ⟨hi.external r hr e he, hi.subscribe r hr e he⟩
  · have hsound := hi.events _ _ e (pend_head ht) rfl
    refine ⟨hsound.external, fun ho => ?_⟩
    obtain ⟨r', rop, heq, hturn⟩ := hsound.subscribe ho
    cases heq
    exact hturn

theorem Sources.closer_step (hr : r < c.state.nRecvs)
    (he : h.noteCloser c.state a r = some (.terminal e)) :
    (∃ k, e.origin = .run k) ∨ e.origin = .control ∨
      e.origin = .external ∧ (c.state.agents (c.state.recvs r).owner).kind = .external := by
  rcases noteCloser_cases he with he | ⟨rfl, -⟩
  · exact hi.closer r hr e he
  · have hsound := hi.events _ _ e (pend_head ht) rfl
    rcases hsound.terminal (hsound.closing r e rfl) with hk | hk | hk
    · exact .inl hk
    · exact .inr (.inl hk)
    · exact .inr (.inr ⟨hk, hsound.external hk⟩)

variable (hc : Scoped c) (hs : Step x c.state a o)
include hc hs

theorem Sources.events_step (hp : (c.advance i rest o).Pend b)
    (hb : eventOn o.state b = some (m, evt)) : b.Sound o.state m evt := by
  rcases pend_cases ht hs hp with hp | hf | ⟨_, _, _, _, -, rfl | rfl⟩
  · have hin := hc.ops b hp
    rw [eventOn_extends hs.extends hin] at hb
    exact (hi.events b m evt hp hb).old hin (event_session hin hb) hs
  · have hhead := pend_head ht
    exact Op.Sound.follows hf (hc.ops a hhead) hs hb fun evt' => hi.events a m evt' hhead
  · cases hb
  · cases hb

theorem Sources.step : Sources (h.note c a x) (c.advance i rest o) := by
  have hin := hc.ops a (pend_head ht)
  have hkind : ∀ r < c.state.nRecvs, (o.state.agents (o.state.recvs r).owner).kind =
      (c.state.agents (c.state.recvs r).owner).kind := by
    intro r hr
    rw [hs.extends.owner r hr, hs.kind_eq (hc.world.recvs r hr).1]
  refine ⟨fun b m evt hp hb => hi.events_step ht hc hs hp hb, fun r hr => ?_,
    fun r _ e he ho => ?_, fun r _ e he ho => ?_, fun r _ e he => ?_, fun r he => ?_,
    fun r hr hcl => ?_⟩
  · -- a receiver with a history has been there before
    have hold : ¬ r < c.state.nRecvs := fun hlt => hr (hlt.trans_le hs.extends.recvs)
    exact ⟨List.eq_nil_iff_forall_not_mem.mpr fun e he => hold (hi.lt_of_got hin he),
      Option.eq_none_iff_forall_ne_some.mpr fun by_ he => hold (hi.lt_of_closer hin he)⟩
  · have hlt := hi.lt_of_got hin he
    exact (hkind r hlt).trans ((hi.got_step ht hlt he).1 ho)
  · have hlt := hi.lt_of_got hin he
    exact (hs.extends.turn r hlt).trans ((hi.got_step ht hlt he).2 ho)
  · have hlt := hi.lt_of_closer hin he
    refine (hi.closer_step ht hlt he).imp_right (Or.imp_right (And.imp_right ?_))
    exact (hkind r hlt).trans
  · rcases noteCloser_cases he with he | ⟨rfl, -⟩
    · exact Bool.or_eq_true_iff.mpr (.inl (hi.failed r he))
    · exact Bool.or_eq_true_iff.mpr (.inr (failing_iff.mpr rfl))
  · by_cases hlt : r < c.state.nRecvs
    · exact hi.closed_step hs hlt hcl
    · obtain ⟨m, turn, buffer, hv⟩ := hs.recvs_fresh hlt hr
      have hcl' : (o.state.recvs r).closed = true := hcl
      rw [hv] at hcl'
      cases hcl'

end

theorem Sources.call (hi : Sources h c) (he : serviceEntry c.state a = true) :
    Sources h (c.call a) := by
  refine { hi with events := fun b m evt hp hb => ?_ }
  rcases pend_call.mp hp with hp | rfl
  · exact hi.events b m evt hp hb
  · cases b with
    | agent m' aop =>
      cases aop <;> cases hb
      simp only [serviceEntry, Bool.and_eq_true, beq_iff_eq] at he
      refine ⟨fun _ => he.1.2, fun _ => .inr (.inr he.2), fun ho => ?_, fun r e heq => ?_⟩
      · rw [he.2] at ho
        cases ho
      · cases heq
    | recv r rop =>
      cases rop with
      | close by_ => cases by_ <;> first | cases he | cases hb
      | _ => first | cases he | cases hb
    | bus m' bop => cases he
    | _ => cases hb

theorem Sources.initial (publisher : Bool) (maxSess : Nat) :
    Sources .start (initialConfig publisher maxSess) :=
  ⟨fun b m evt hp => absurd hp not_pend_nil, fun _ _ => ⟨rfl, rfl⟩,
    fun r hr => absurd hr (Nat.not_lt_zero r), fun r hr => absurd hr (Nat.not_lt_zero r),
    fun r hr => absurd hr (Nat.not_lt_zero r), nofun, fun r hr => absurd hr (Nat.not_lt_zero r)⟩

/-! ## Turns apart -/

/-- An event of that origin, if it is of a turn of `m`, is of the turn of `caller`. -/
def World.OwnEvent (w : World) (m : MsRef) (caller : Caller) (o : Origin) : Prop :=
  ∀ oc, w.causedBy m o = some oc → oc = some caller

/-- The call that made `r` has failed. -/
def Dead (h : TurnLog) (c : Config World Op) (r : RecvRef) : Prop :=
  h.failed r = true ∨ c.Pend (.recv r (.close .failed))

/-- The receiver `r` of a call that began alone. Before the claim no turn is under way; once
the next turn has begun, the receiver is closed and nothing of a turn is about to be sent
to it. -/
structure Attributed (h : TurnLog) (c : Config World Op) (r : RecvRef) (t : TurnRef) : Prop where
  got : ∀ e ∈ h.got r, c.state.OwnEvent (c.state.recvs r).owner (.service r t) e.origin
  closer : ∀ e, h.closer r = some (.terminal e) →
    c.state.OwnEvent (c.state.recvs r).owner (.service r t) e.origin ∧
      (e.origin = .control → h.aborted r = true)
  aborting : h.aborted r = true ∨ c.pending (aborting c.state (c.state.recvs r).owner) = 0
  waiting : h.claimed r = false → c.pending (winding c.state (c.state.recvs r).owner) = 0
  past : h.claimed r = true → h.current (c.state.recvs r).owner ≠ some (.service r t) →
    (c.state.recvs r).closed = true ∧ ∀ evt turn, c.Pend (.recv r (.pushSelect evt turn)) →
      c.state.causedBy (c.state.recvs r).owner evt.origin = none

/-- All actions of a turn belong to the last one that claimed the agent. -/
structure Turns (h : TurnLog) (c : Config World Op) : Prop where
  fate : Fate h.handed h.failed c
  claims : Claims h.claimed c
  service : ∀ m cop, ¬ c.Pend (.call m .direct cop)
  made : ∀ m caller k prompt, c.Pend (.call m caller (.goRun k prompt)) →
    (c.state.agents m).driver.contexts[k]? = some caller
  own : ∀ b m, c.Pend b → winding c.state m b = true →
    ∃ caller, turnOf c.state b = some (m, some caller) ∧ h.current m = some caller
  exists_ : ∀ r, h.alone r = true → r < c.state.nRecvs
  alone : ∀ r t, h.claimed r = true → (c.state.recvs r).turn = some t → h.alone r = true
  handed : ∀ r, h.handed r = true → h.claimed r = true
  streams : ∀ r t, h.alone r = true → (c.state.recvs r).turn = some t → ¬ Dead h c r →
    Attributed h c r t

variable {k : Nat} {caller : Caller} {kick : Kick}

theorem World.OwnEvent.mono {o : Origin} (h : w.OwnEvent m caller o) (hr : w.Remembers w' m) :
    w'.OwnEvent m caller o := by
  intro oc hoc
  obtain ⟨oc', hoc'⟩ := causedBy_change w hoc
  cases h oc' hoc'
  exact Option.some.inj (hoc.symm.trans (hr.causedBy hoc'))

theorem noteCurrent_self (hcl : claimedOn w a = some (m, caller)) :
    h.noteCurrent w a m = some caller := by
  simp [TurnLog.noteCurrent, hcl]

theorem noteCurrent_other (hn : ∀ caller, claimedOn w a ≠ some (m, caller)) :
    h.noteCurrent w a m = h.current m := by
  unfold TurnLog.noteCurrent
  split
  · rename_i m' caller hcl
    refine if_neg ?_
    rintro rfl
    exact hn caller hcl
  · rfl

/-! ### Actions of turns and of `Abort` -/

theorem winding_goRun : winding w m (.call m caller (.goRun k prompt)) = true :=
  winding_iff.mpr ⟨_, rfl⟩

theorem winding_run (h : winding w m (.run m' k rop) = true) : m' = m := by
  obtain ⟨oc, hoc⟩ := winding_iff.mp h
  cases hoc
  rfl

theorem aborting_iff : aborting w m b = true ↔
    (∃ cmd, (b = .agent m (.enqueueCheck cmd) ∨ b = .agent m (.enqueueSend cmd)) ∧
      cmd.type = .abort) ∨
    ∃ evt, eventOn w b = some (m, evt) ∧ evt.origin = .control ∧
      isTerminalTurnEvent evt = true := by
  have hevent : ((eventOn w b).any fun p =>
      p.1 == m && p.2.origin == .control && isTerminalTurnEvent p.2) = true ↔
        ∃ evt, eventOn w b = some (m, evt) ∧ evt.origin = .control ∧
          isTerminalTurnEvent evt = true := by
    cases eventOn w b with
    | none => simp
    | some p =>
      obtain ⟨m', evt⟩ := p
      simp only [Option.any_some, Bool.and_eq_true, beq_iff_eq, Option.some.injEq, Prod.mk.injEq]
      constructor
      · rintro ⟨⟨rfl, ho⟩, hterm⟩
        exact ⟨evt, ⟨rfl, rfl⟩, ho, hterm⟩
      · rintro ⟨_, ⟨rfl, rfl⟩, ho, hterm⟩
        exact ⟨⟨rfl, ho⟩, hterm⟩
  cases b with
  | agent m' aop =>
    cases aop with
    | enqueueCheck cmd | enqueueSend cmd => simp [aborting, eventOn]
    | _ => simpa [aborting] using hevent
  | _ => simpa [aborting] using hevent

theorem aborting_extends (he : w.Extends w') (hin : b.In w) (hb : aborting w' m b = true) :
    aborting w m b = true := by
  refine aborting_iff.mpr ((aborting_iff.mp hb).imp_right ?_)
  rintro ⟨evt, hev, hrest⟩
  exact ⟨evt, (eventOn_extends he hin).symm.trans hev, hrest⟩

theorem Follows.aborting_origin (hf : Follows w a b) (hin : a.In w) (he : w.Extends w')
    (hb : aborting w' m b = true) :
    aborting w m a = true ∨ ∃ id reason, a = .svc (.abort id reason) ∧ (id, m) ∈ w.svc.sessions := by
  rcases aborting_iff.mp hb with ⟨cmd, rfl | rfl, htype⟩ | ⟨evt, hev, ho, hterm⟩
  · cases hf with
    | steer => cases htype
    | lookup hl hmem =>
      cases hl with
      | followUp => cases htype
      | abort => exact .inr ⟨_, _, rfl, hmem⟩
    | run hn => cases hn
  · cases hf with
    | enqueue => exact .inl (aborting_iff.mpr (.inl ⟨cmd, .inl rfl, htype⟩))
    | lookup hl => cases hl
    | run hn => cases hn
  · refine .inl (aborting_iff.mpr ?_)
    rcases hf.event_origin hin he hev with ⟨evt', hev', ho', hterm'⟩ | hem
    · exact .inr ⟨evt', hev', ho'.symm.trans ho, hterm'.symm.trans hterm⟩
    · cases hem with
      | call _ ho' | run ho' | stop ho' | subscribe ho' => exact nomatch ho'.symm.trans ho
      | @ack cmd he' =>
        subst he'
        refine .inl ⟨cmd, .inr rfl, ?_⟩
        cases hty : cmd.type <;> simp [isTerminalTurnEvent, ackEvent, hty] at hterm ⊢

section
variable (hc : Scoped c) (ht : c.At i a rest) (hs : Step x c.state a o)
include hc ht hs

theorem winding_zero_step (hz : c.pending (winding c.state m) = 0)
    (hn : ∀ caller, claimedOn c.state a ≠ some (m, caller)) :
    (c.advance i rest o).pending (winding o.state m) = 0 := by
  have hhead := pend_head ht
  refine pending_none fun b hp hw => ?_
  rcases pend_cases ht hs hp with hp | hf | ⟨m', caller, k, prompt, rfl, hb⟩
  · exact not_pend hz (winding_extends hs.extends (hc.ops b hp) hw) hp
  · rcases hf.turn_origin (hc.ops a hhead) hs.extends hw with ⟨ha, -⟩ | ⟨caller, hcl, -⟩
    · exact not_pend hz ha hhead
    · exact hn caller hcl
  · have hm : m' = m := by rcases hb with rfl | rfl <;> exact winding_run hw
    subst hm
    exact not_pend hz winding_goRun hhead

theorem aborting_zero_step (hz : c.pending (aborting c.state m) = 0) :
    (∃ id reason, a = .svc (.abort id reason) ∧ (id, m) ∈ c.state.svc.sessions) ∨
      (c.advance i rest o).pending (aborting o.state m) = 0 := by
  have hhead := pend_head ht
  refine or_iff_not_imp_left.mpr fun hnot => ?_
  refine pending_none fun b hp hb => ?_
  rcases pend_cases ht hs hp with hp | hf | ⟨_, _, _, _, -, rfl | rfl⟩
  · exact not_pend hz (aborting_extends hs.extends (hc.ops b hp) hb) hp
  · rcases hf.aborting_origin (hc.ops a hhead) hs.extends hb with ha | ha
    · exact not_pend hz ha hhead
    · exact hnot ha
  · cases hb
  · cases hb

theorem Attributed.aborting_step (hat : Attributed h c r t) (hr : r < c.state.nRecvs) :
    h.noteAborted c.state a r = true ∨
      (c.advance i rest o).pending (AgentLoop.aborting o.state (c.state.recvs r).owner) = 0 := by
  rcases hat.aborting with hab | hz
  · exact .inl (Bool.or_eq_true_iff.mpr (.inl hab))
  · refine (aborting_zero_step hc ht hs hz).imp_left ?_
    rintro ⟨id, reason, rfl, hmem⟩
    have hid := (hc.world.sessions _ hmem).2
    simp [TurnLog.noteAborted, hr, hid]

theorem Turns.made_step (hi : Turns h c)
    (hp : (c.advance i rest o).Pend (.call m caller (.goRun k prompt))) :
    (o.state.agents m).driver.contexts[k]? = some caller := by
  rcases hp.of_advance ht with hp | hb | ⟨th, hth, hb⟩
  · exact hs.remembers (hc.ops _ hp).1 k caller (hi.made m caller k prompt hp)
  · cases hs.follows hb with
    | callNext hn | run hn => cases hn
    | looped hk =>
      cases hs with
      | call hs =>
        cases hs with
        | looped => simp [World.setAgent, Agent.setDriver]
        | driverOk hk' | driverPanic hk' => exact nomatch hk.symm.trans hk'
        | startFailed | resumeFailed => cases List.mem_singleton.mp hb
        | claimRefused hclaims => cases hclaims
    | lookup hl => cases hl
  · obtain ⟨_, _, _, _, -, rfl⟩ := hs.spawn_origin hth
    simp at hb

end

/-! ### The claim -/

/-- The call of a receiver that is about to claim the agent has not failed. -/
theorem Turns.not_dead (hi : Turns h c) (hp : c.Pend b) (hb : claiming r b = true) :
    ¬ Dead h c r := by
  have hfate : AgentLoop.fate r b = true := fate_iff.mpr (.inl hb)
  have htok := hi.fate.token r
  rintro (hf | hf)
  · have hpos := pending_pos.mpr ⟨b, hp, hfate⟩
    rw [hf, if_pos rfl] at htok
    omega
  · have hne : b ≠ .recv r (.close .failed) := by
      rintro rfl
      cases hb
    have := two_le_pending hp hf hne hfate (fate_iff.mpr (.inr (.inr (failing_iff.mpr rfl))))
    omega

/-- Who claims is a turn call that began alone, and no turn is under way. -/
theorem Turns.claim (hi : Turns h c) (hc : Scoped c) (ht : c.At i a rest)
    (hm : turnsApart h c a x = true) (hcl : claimedOn c.state a = some (m, caller)) :
    ∃ r t, caller = .service r t ∧ h.alone r = true ∧ c.pending (winding c.state m) = 0 ∧
      earlierClosed h c m = true := by
  have hhead := pend_head ht
  obtain ⟨cop, rfl, -⟩ := call_of_claimedOn hcl
  cases caller with
  | direct => exact absurd hhead (hi.service m cop)
  | service r t =>
    simp only [turnsApart, hcl, Caller.receiver, Option.all_some, Bool.and_eq_true] at hm
    have hpair : c.state.TurnPair m r t := (hc.ops _ hhead).2
    have hclaim := claiming_of_claimedRecv (claimedRecv_of_claimedOn hcl)
    have hun : h.claimed r = false := Bool.eq_false_iff.mpr fun hcl => by
      cases (hi.claims.not_claiming hcl hhead).symm.trans hclaim
    have hz := (hi.streams r t hm.1 hpair.2.1 (hi.not_dead hhead hclaim)).waiting hun
    rw [hpair.1.2] at hz
    exact ⟨r, t, rfl, hm.1, hz, hm.2⟩

/-! ### One receiver -/

theorem noteAlone_old (hr : r < c.state.nRecvs) (hal : h.noteAlone c a r = true) :
    h.alone r = true ∧ ∀ m caller, claimedOn c.state a = some (m, caller) →
      h.claimed r = true ∨ (c.state.recvs r).owner ≠ m ∨ caller.receiver = some r := by
  unfold TurnLog.noteAlone at hal
  split at hal
  · rw [if_neg (ne_of_lt hr)] at hal
    exact ⟨hal, fun m caller hcl => nomatch hcl⟩
  · split at hal
    · rename_i m caller hcl
      simp only [Bool.and_eq_true, Bool.or_eq_true, bne_iff_ne, beq_iff_eq, or_assoc] at hal
      refine ⟨hal.1, fun m' caller' hcl' => ?_⟩
      cases hcl.symm.trans hcl'
      exact hal.2
    · rename_i hnone
      exact ⟨hal, fun m caller hcl => nomatch hnone.symm.trans hcl⟩

theorem Dead.step (hd : Dead h c r) (ht : c.At i a rest) :
    Dead (h.note c a x) (c.advance i rest o) r := by
  rcases hd with hf | hf
  · exact .inl (Bool.or_eq_true_iff.mpr (.inl hf))
  · by_cases hba : .recv r (.close .failed) = a
    · subst hba
      exact .inl (Bool.or_eq_true_iff.mpr (.inr (failing_iff.mpr rfl)))
    · exact .inr (hf.advance ht hba)

/-- An event on its way to the receiver is of its own turn, unless that turn is past. -/
theorem Attributed.ownEvent (hat : Attributed h c r t) (hi : Turns h c) (hp : c.Pend b)
    (hb : eventOn c.state b = some ((c.state.recvs r).owner, e))
    (hpast : h.claimed r = true → h.current (c.state.recvs r).owner ≠ some (.service r t) →
      c.state.causedBy (c.state.recvs r).owner e.origin = none) :
    c.state.OwnEvent (c.state.recvs r).owner (.service r t) e.origin := by
  intro oc hoc
  have hturn : turnOf c.state b = some ((c.state.recvs r).owner, oc) :=
    turnOf_iff.mpr (.inr (.inr ⟨e, hb, hoc⟩))
  have hwind := winding_iff.mpr ⟨oc, hturn⟩
  cases hcl : h.claimed r with
  | false => exact absurd hp (not_pend (hat.waiting hcl) hwind)
  | true =>
    by_cases hcur : h.current (c.state.recvs r).owner = some (.service r t)
    · obtain ⟨caller, hturn', hcur'⟩ := hi.own b _ hp hwind
      cases hturn.symm.trans hturn'
      exact hcur'.symm.trans hcur
    · rw [hpast hcl hcur] at hoc
      cases hoc

theorem Attributed.got_step (hat : Attributed h c r t) (hi : Turns h c) (ht : c.At i a rest)
    (he : e ∈ h.noteGot a x r) :
    c.state.OwnEvent (c.state.recvs r).owner (.service r t) e.origin := by
  rcases noteGot_cases he with he | ⟨turn, rfl, -⟩
  · exact hat.got e he
  · have hhead := pend_head ht
    exact hat.ownEvent hi hhead rfl fun hcl hcur => (hat.past hcl hcur).2 e turn hhead

theorem Attributed.closer_step (hat : Attributed h c r t) (hi : Turns h c) (hsrc : Sources h c)
    (hr : r < c.state.nRecvs) (ht : c.At i a rest)
    (he : h.noteCloser c.state a r = some (.terminal e)) :
    c.state.OwnEvent (c.state.recvs r).owner (.service r t) e.origin ∧
      (e.origin = .control → h.aborted r = true) := by
  rcases noteCloser_cases he with he | ⟨rfl, hidle⟩
  · exact hat.closer e he
  · have hhead := pend_head ht
    refine ⟨hat.ownEvent hi hhead rfl fun hcl hcur => ?_, fun ho => ?_⟩
    · -- a past turn has left the receiver closed
      exact absurd hidle (hsrc.closed r hr (hat.past hcl hcur).1).2
    · have hterm := (hsrc.events _ _ e hhead rfl).closing r e rfl
      refine hat.aborting.resolve_right fun hz => ?_
      exact not_pend hz (aborting_iff.mpr (.inr ⟨e, rfl, ho, hterm⟩)) hhead

/-- The next turn finds the receiver closed. -/
theorem Turns.closed_of_claim (hi : Turns h c) (hc : Scoped c)
    (ht : c.At i a rest) (hm : turnsApart h c a x = true)
    (hcl : claimedOn c.state a = some ((c.state.recvs r).owner, caller)) (hr : h.claimed r = true)
    (hturn : (c.state.recvs r).turn = some t) (hd : ¬ Dead h c r) :
    (c.state.recvs r).closed = true := by
  obtain ⟨-, -, -, -, -, hearly⟩ := hi.claim hc ht hm hcl
  have hall := List.all_eq_true.mp hearly r (List.mem_range.mpr (hi.claims.exists_ r hr))
  simp only [hr, hturn, Bool.or_eq_true, Bool.not_true, Bool.false_eq_true, Option.isNone_some,
    bne_self_eq_false, false_or, bne_iff_ne] at hall
  rcases hall with (hclosed | hfailed) | hpend
  · exact hclosed
  · exact absurd (.inl hfailed) hd
  · obtain ⟨b, hb, hf⟩ := pending_pos.mp (Nat.pos_of_ne_zero hpend)
    cases failing_iff.mp hf
    exact absurd (.inr hb) hd

theorem causedBy_none {o : Origin} (h : w.causedBy m o = none) : w'.causedBy m o = none := by
  cases o with
  | run k | start caller => cases h
  | _ => rfl

theorem Attributed.fresh (hsrc : Sources h c) (hi : Turns h c) (hc : Scoped c)
    (ht : c.threads[i]? = some (.svc (.newTurn m kick) :: rest))
    (hs : Step x c.state (.svc (.newTurn m kick)) o) (hap : apart c m = true) :
    Attributed (h.note c (.svc (.newTurn m kick)) x) (c.advance i rest o) c.state.nRecvs t := by
  have howner : (o.state.recvs c.state.nRecvs).owner = m := by
    simp [hs.newTurn_inv.1, World.newTurn, newServiceEventReceiver]
  obtain ⟨hgot, hcloser⟩ := hsrc.fresh _ (lt_irrefl c.state.nRecvs)
  have hun : h.claimed c.state.nRecvs = false :=
    Bool.eq_false_iff.mpr fun hcl => lt_irrefl _ (hi.claims.exists_ _ hcl)
  simp only [apart, Bool.and_eq_true, beq_iff_eq] at hap
  constructor <;> simp only [Config.advance, howner]
  · intro e he
    rw [show (h.note c (.svc (.newTurn m kick)) x).got c.state.nRecvs = [] from hgot] at he
    cases he
  · intro e he
    cases hcloser.symm.trans he
  · refine .inr ((aborting_zero_step hc ht hs hap.2).resolve_left ?_)
    rintro ⟨_, _, he, -⟩
    cases he
  · intro _
    refine winding_zero_step hc ht hs hap.1 fun caller hcl => ?_
    cases hcl
  · intro hcl
    rcases noteClaim_iff.mp hcl with hcl | hcl
    · rw [hun] at hcl
      cases hcl
    · cases hcl

/-! ### All receivers -/

theorem noteAlone_new (hi : Turns h c) (hr : ¬ r < c.state.nRecvs)
    (hal : h.noteAlone c a r = true) :
    r = c.state.nRecvs ∧ ∃ m kick, a = .svc (.newTurn m kick) ∧ apart c m = true := by
  have hnot : h.alone r = false := Bool.eq_false_iff.mpr fun hal => hr (hi.exists_ r hal)
  unfold TurnLog.noteAlone at hal
  split at hal
  · split at hal
    · rename_i m kick heq
      exact ⟨heq, m, kick, rfl, hal⟩
    · cases hnot.symm.trans hal
  · split at hal <;> simp [hnot] at hal

theorem Turns.service_step (hi : Turns h c) (ht : c.At i a rest) (hs : Step x c.state a o) :
    ¬ (c.advance i rest o).Pend (.call m .direct cop) := by
  intro hp
  rcases pend_cases ht hs hp with hp | hf | ⟨_, _, _, _, -, hb | hb⟩
  · exact hi.service m cop hp
  · rcases hf.call_origin with ⟨cop', rfl⟩ | ⟨_, _, hcaller, -⟩
    · exact hi.service m cop' (pend_head ht)
    · cases hcaller
  · cases hb
  · cases hb

theorem Turns.exists_step (hi : Turns h c) (hs : Step x c.state a o)
    (hal : h.noteAlone c a r = true) : r < o.state.nRecvs := by
  by_cases hr : r < c.state.nRecvs
  · exact hr.trans_le hs.extends.recvs
  · obtain ⟨rfl, m, kick, rfl, -⟩ := noteAlone_new hi hr hal
    rw [hs.newTurn_inv.1]
    exact Nat.lt_succ_self _

section
variable (hc : Scoped c) (ht : c.At i a rest) (hs : Step x c.state a o) (hi : Turns h c)
  (hm : turnsApart h c a x = true)
include hc ht hs hi hm

theorem Turns.own_step (hp : (c.advance i rest o).Pend b) (hb : winding o.state m b = true) :
    ∃ caller, turnOf o.state b = some (m, some caller) ∧
      h.noteCurrent c.state a m = some caller := by
  have hhead := pend_head ht
  have hin := hc.ops a hhead
  by_cases hcl : ∃ caller, claimedOn c.state a = some (m, caller)
  · -- the turn that begins now is the only one
    obtain ⟨caller, hcl⟩ := hcl
    obtain ⟨-, -, -, -, hz, -⟩ := hi.claim hc ht hm hcl
    refine ⟨caller, ?_, noteCurrent_self hcl⟩
    rcases pend_cases ht hs hp with hp | hf | ⟨m', caller', k, prompt, rfl, -⟩
    · exact absurd hp (not_pend hz (winding_extends hs.extends (hc.ops b hp) hb))
    · rcases hf.turn_origin hin hs.extends hb with ⟨ha, -⟩ | ⟨caller', hcl', hturn⟩
      · exact absurd hhead (not_pend hz ha)
      · cases hcl.symm.trans hcl'
        exact hturn
    · cases hcl
  · have hn := not_exists.mp hcl
    rw [noteCurrent_other hn]
    rcases pend_cases ht hs hp with hp | hf | ⟨m', caller', k, prompt, rfl, hrun⟩
    · have hinb := hc.ops b hp
      have hold := winding_extends hs.extends hinb hb
      obtain ⟨caller, hturn, hcur⟩ := hi.own b m hp hold
      exact ⟨caller, turnOf_mono hs.extends hinb (hs.remembers (turnOf_session hinb hturn)) hturn,
        hcur⟩
    · rcases hf.turn_origin hin hs.extends hb with ⟨ha, hkeep⟩ | ⟨caller, hclaim, -⟩
      · obtain ⟨caller, hturn, hcur⟩ := hi.own a m hhead ha
        exact ⟨caller, hkeep (hs.remembers (turnOf_session hin hturn)) caller hturn, hcur⟩
      · exact absurd hclaim (hn caller)
    · have hm' : m' = m := by rcases hrun with rfl | rfl <;> exact winding_run hb
      subst hm'
      obtain ⟨caller, hturn, hcur⟩ := hi.own _ m' hhead winding_goRun
      cases hturn
      have hk := hs.remembers hin.1 k _ (hi.made m' caller' k prompt hhead)
      refine ⟨caller', ?_, hcur⟩
      rcases hrun with rfl | rfl <;> exact congrArg (fun oc => some (m', oc)) hk

theorem Turns.alone_step (hcl : noteClaim h.claimed c.state a r = true)
    (hturn : (o.state.recvs r).turn = some t) : h.noteAlone c a r = true := by
  have hin := hc.ops a (pend_head ht)
  rcases noteClaim_iff.mp hcl with hcl | hcl
  · have hr := hi.claims.exists_ r hcl
    have hal := hi.alone r t hcl ((hs.extends.turn r hr).symm.trans hturn)
    unfold TurnLog.noteAlone
    split
    · rw [if_neg (ne_of_lt hr)]
      exact hal
    · split
      · simp [hal, hcl]
      · exact hal
  · have hr := claiming_in (claiming_of_claimedRecv hcl) hin
    have hclaim := claimedOn_of_claimedRecv hin hcl ((hs.extends.turn r hr).symm.trans hturn)
    obtain ⟨r', t', hcaller, hal, -⟩ := hi.claim hc ht hm hclaim
    cases hcaller
    obtain ⟨cop, rfl, -⟩ := call_of_claimedOn hclaim
    simp [TurnLog.noteAlone, hclaim, hal, Caller.receiver]

theorem Attributed.past_step (hat : Attributed h c r t) (hr : r < c.state.nRecvs)
    (hturn : (c.state.recvs r).turn = some t) (hd : ¬ Dead h c r)
    (hcl : noteClaim h.claimed c.state a r = true)
    (hcur : h.noteCurrent c.state a (c.state.recvs r).owner ≠ some (.service r t)) :
    (o.state.recvs r).closed = true ∧ ∀ evt turn,
      (c.advance i rest o).Pend (.recv r (.pushSelect evt turn)) →
        o.state.causedBy (c.state.recvs r).owner evt.origin = none := by
  have hin := hc.ops a (pend_head ht)
  -- what it was before the step
  obtain ⟨hclosed, hpush⟩ : (c.state.recvs r).closed = true ∧ ∀ evt turn,
      c.Pend (.recv r (.pushSelect evt turn)) →
        c.state.causedBy (c.state.recvs r).owner evt.origin = none := by
    rcases noteClaim_iff.mp hcl with hcl | hcl
    · by_cases hclaim : ∃ caller, claimedOn c.state a = some ((c.state.recvs r).owner, caller)
      · obtain ⟨caller, hclaim⟩ := hclaim
        refine ⟨hi.closed_of_claim hc ht hm hclaim hcl hturn hd, fun evt turn hp => ?_⟩
        obtain ⟨-, -, -, -, hz, -⟩ := hi.claim hc ht hm hclaim
        cases hoc : c.state.causedBy (c.state.recvs r).owner evt.origin with
        | none => rfl
        | some oc =>
          refine absurd hp (not_pend hz (winding_iff.mpr ⟨oc, ?_⟩))
          exact turnOf_iff.mpr (.inr (.inr ⟨evt, rfl, hoc⟩))
      · rw [noteCurrent_other fun caller h => hclaim ⟨caller, h⟩] at hcur
        exact hat.past hcl hcur
    · exact absurd (noteCurrent_self (claimedOn_of_claimedRecv hin hcl hturn)) hcur
  refine ⟨hs.closed_mono hr hclosed, fun evt turn hp => ?_⟩
  rcases pend_cases ht hs hp with hp | hf | ⟨_, _, _, _, -, hb | hb⟩
  · exact causedBy_none (hpush evt turn hp)
  · cases hf with
    | pushSelect hopen =>
      rw [hclosed] at hopen
      cases hopen
    | lookup hl => cases hl
    | run hn => cases hn
  · cases hb
  · cases hb

variable (hsrc : Sources h c)
include hsrc

theorem Attributed.step (hat : Attributed h c r t) (hr : r < c.state.nRecvs)
    (hturn : (c.state.recvs r).turn = some t) (hd : ¬ Dead h c r)
    (hal : h.noteAlone c a r = true) : Attributed (h.note c a x) (c.advance i rest o) r t := by
  have howner : (o.state.recvs r).owner = (c.state.recvs r).owner := hs.extends.owner r hr
  have hrem := hs.remembers (hc.world.recvs r hr).1
  constructor <;> simp only [Config.advance, howner]
  · exact fun e he => (hat.got_step hi ht he).mono hrem
  · intro e he
    obtain ⟨hown, hab⟩ := hat.closer_step hi hsrc hr ht he
    exact ⟨hown.mono hrem, fun ho => Bool.or_eq_true_iff.mpr (.inl (hab ho))⟩
  · exact hat.aborting_step hc ht hs hr
  · intro hcl
    have hno : h.claimed r = false ∧ claimedRecv c.state a ≠ some r := by
      have hnot := mt noteClaim_iff.mpr (Bool.eq_false_iff.mp hcl)
      exact ⟨Bool.eq_false_iff.mpr fun hcl => hnot (.inl hcl), fun hcl => hnot (.inr hcl)⟩
    refine winding_zero_step hc ht hs (hat.waiting hno.1) fun caller hclaim => ?_
    rcases (noteAlone_old hr hal).2 _ _ hclaim with hcl | hne | hrec
    · rw [hno.1] at hcl
      cases hcl
    · exact hne rfl
    · cases caller with
      | service r' t' =>
        cases hrec
        exact hno.2 (claimedRecv_of_claimedOn hclaim)
      | direct => cases hrec
  · exact hat.past_step hc ht hs hi hm hr hturn hd

theorem Turns.streams_step (hal : h.noteAlone c a r = true)
    (hturn : (o.state.recvs r).turn = some t)
    (hd : ¬ Dead (h.note c a x) (c.advance i rest o) r) :
    Attributed (h.note c a x) (c.advance i rest o) r t := by
  by_cases hr : r < c.state.nRecvs
  · have hturn' := (hs.extends.turn r hr).symm.trans hturn
    have hd' : ¬ Dead h c r := fun hdead => hd (hdead.step ht)
    exact (hi.streams r t (noteAlone_old hr hal).1 hturn' hd').step hc ht hs hi hm hsrc hr hturn'
      hd' hal
  · obtain ⟨rfl, m, kick, rfl, hap⟩ := noteAlone_new hi hr hal
    exact Attributed.fresh hsrc hi hc ht hs hap

theorem Turns.step : Turns (h.note c a x) (c.advance i rest o) where
  fate := hi.fate.step hc ht hs
  claims := hi.claims.step hc ht hs
  service _ _ := hi.service_step ht hs
  made _ _ _ _ := hi.made_step hc ht hs
  own _ _ := hi.own_step hc ht hs hm
  exists_ _ := hi.exists_step hs
  alone _ _ := hi.alone_step hc ht hs hm
  handed r hr := by
    refine noteClaim_iff.mpr (.inl ?_)
    rcases Bool.or_eq_true_iff.mp hr with hr | hr
    · exact hi.handed r hr
    · refine hi.claims.after r a (pend_head ht) ?_
      unfold handsOut at hr
      split at hr
      · exact hr
      · cases hr
  streams _ _ := hi.streams_step hc ht hs hm hsrc

end

theorem serviceEntry_quiet (he : serviceEntry w a = true) :
    winding w m a = false ∧ aborting w m a = false := by
  cases a with
  | agent m' aop =>
    cases aop <;> try cases he
    simp only [serviceEntry, Bool.and_eq_true, beq_iff_eq] at he
    simp [winding, turnOf, aborting, eventOn, he.2, World.causedBy]
  | recv r rop =>
    cases rop with
    | close by_ => cases by_ <;> first | cases he | exact ⟨rfl, rfl⟩
    | _ => first | cases he | exact ⟨rfl, rfl⟩
  | svc sop => exact ⟨rfl, rfl⟩
  | _ => cases he

theorem Turns.call (hi : Turns h c) (he : serviceEntry c.state a = true)
    (hstart : startEntry c.state a = true) : Turns h (c.call a) := by
  have hcall : ∀ {m : MsRef} {caller : Caller} {cop : CallOp},
      (c.call a).Pend (.call m caller cop) → c.Pend (.call m caller cop) := by
    intro m caller cop hp
    rcases pend_call.mp hp with hp | rfl
    · exact hp
    · cases he
  refine ⟨hi.fate.call hstart, hi.claims.call hstart, fun m cop hp => hi.service m cop (hcall hp),
    fun m caller k prompt hp => hi.made m caller k prompt (hcall hp), fun b m hp hb => ?_,
    hi.exists_, hi.alone, hi.handed, fun r t hal hturn hd => ?_⟩
  · rcases pend_call.mp hp with hp | rfl
    · exact hi.own b m hp hb
    · exact nomatch (serviceEntry_quiet he).1.symm.trans hb
  · have hat := hi.streams r t hal hturn fun hdead =>
      hd (hdead.imp_right fun hp => pend_call.mpr (.inl hp))
    refine ⟨hat.got, hat.closer, ?_, fun hcl => ?_, fun hcl hcur => ?_⟩
    · exact hat.aborting.imp_right (pending_call_other (serviceEntry_quiet he).2).trans
    · exact (pending_call_other (serviceEntry_quiet he).1).trans (hat.waiting hcl)
    · refine ⟨(hat.past hcl hcur).1, fun evt turn hp => (hat.past hcl hcur).2 evt turn ?_⟩
      rcases pend_call.mp hp with hp | rfl
      · exact hp
      · cases he

theorem Turns.initial (publisher : Bool) (maxSess : Nat) :
    Turns .start (initialConfig publisher maxSess) :=
  ⟨Fate.initial publisher maxSess, Claims.initial publisher maxSess, fun _ _ => not_pend_nil,
    fun _ _ _ _ hp => absurd hp not_pend_nil, fun _ _ hp => absurd hp not_pend_nil, nofun, nofun,
    nofun, nofun⟩

/-! ## Whole runs -/

theorem serviceEntry_start (he : serviceEntry w op = true) : startEntry w op = true := by
  cases op with
  | call m caller cop | stop m sc sop => cases he
  | agent m aop => cases aop <;> first | exact he | cases he
  | _ => exact he

theorem Reach.turns
    (hr : Reach (machine serviceEntry) (watchAttribution turnsApart) .start (initialConfig
      publisher maxSess) h c) : Sources h c ∧ Turns h c := by
  refine hr.invariant_of_reach (fun h c => Sources h c ∧ Turns h c)
    ⟨Sources.initial publisher maxSess, Turns.initial publisher maxSess⟩ ?_ ?_
  · intro h c a _ hi he
    exact ⟨hi.1.call he, hi.2.call he (serviceEntry_start he)⟩
  · intro h c i a rest x o hr hi ht hx hm
    have hc := Reach.scoped hr fun _ _ he => serviceEntry_start he
    have hs := step_of_exec hx
    exact ⟨hi.1.step ht hc hs, hi.2.step hc ht hs hm hi.1⟩

/-- In every run in which calls subscribe and claim the agent apart from earlier turns: the
receiver that a successful `SendMessage` or `Continue` on a session of the native driver has
returned was given events of its own turn only, beside those of control commands and of
`Stop`; and it was closed by the teardown of the session, by its client, by a terminal event
of its own run, or by an `Abort` that was called since the call began. -/
theorem stream_of_own_turn {publisher : Bool} {maxSess : Nat} {h : TurnLog} {c : Config World Op}
    (hr : Reach (machine serviceEntry) (watchAttribution turnsApart) .start
      (initialConfig publisher maxSess) h c) (r : RecvRef) (t : TurnRef)
    (hhanded : h.handed r = true) (hturn : (c.state.recvs r).turn = some t)
    (hkind : (c.state.agents (c.state.recvs r).owner).kind = .native) :
    (∀ e ∈ h.got r, e.origin = .control ∨ e.origin = .stop ∨
      c.state.causedBy (c.state.recvs r).owner e.origin = some (some (.service r t))) ∧
    ((c.state.recvs r).closed = true →
      h.closer r = some .destroyed ∨ h.closer r = some .client ∨
      ∃ e, h.closer r = some (.terminal e) ∧
        ((∃ k, e.origin = .run k ∧
          (c.state.agents (c.state.recvs r).owner).driver.contexts[k]? = some (.service r t)) ∨
        e.origin = .control ∧ h.aborted r = true)) := by
  obtain ⟨hsrc, hi⟩ := Reach.turns hr
  have hcl := hi.handed r hhanded
  have hlt := hi.claims.exists_ r hcl
  obtain ⟨hfailed, hfailing⟩ := hi.fate.not_failing hhanded
  have hat := hi.streams r t (hi.alone r t hcl hturn) hturn fun hdead =>
    hdead.elim (fun hf => nomatch hfailed.symm.trans hf) hfailing
  have hnative : (c.state.agents (c.state.recvs r).owner).kind ≠ .external := by
    rw [hkind]
    nofun
  constructor
  · intro e he
    cases ho : e.origin with
    | run k | start caller =>
      exact .inr (.inr (congrArg some (hat.got e he _ (by rw [ho]; rfl))))
    | control => exact .inl rfl
    | stop => exact .inr (.inl rfl)
    | subscribe => exact nomatch hturn.symm.trans (hsrc.subscribe r hlt e he ho)
    | external => exact absurd (hsrc.external r hlt e he ho) hnative
  · intro hclosed
    cases hby : h.closer r with
    | none => exact absurd hby (hsrc.closed r hlt hclosed).1
    | some by_ =>
      cases by_ with
      | terminal e =>
        refine .inr (.inr ⟨e, rfl, ?_⟩)
        obtain ⟨hown, hab⟩ := hat.closer e hby
        rcases hsrc.closer r hlt e hby with ⟨k, hk⟩ | hk | ⟨-, hext⟩
        · exact .inl ⟨k, hk, hown _ (by rw [hk]; rfl)⟩
        · exact .inr ⟨hk, hab hk⟩
        · exact absurd hext hnative
      | destroyed => exact .inl rfl
      | client => exact .inr (.inl rfl)
      | failed => exact nomatch hfailed.symm.trans (hsrc.failed r hby)

/-- One message after another, the second when the first run is over. -/
def oneAfterAnother : List (Label Op Choice) :=
  [.call (.svc (.createSession ⟨"s", .native, []⟩)), .go 0 1,
   .call (.svc (.sendMessage "s" "hi")), .go 1 31, .go 2 48,
   .call (.svc (.sendMessage "s" "more")), .go 3 31, .go 4 48]

theorem stream_of_own_turn_second :
    ∃ h c, Reach (machine serviceEntry) (watchAttribution turnsApart) .start
        (initialConfig false 0) h c ∧ h.handed 1 = true ∧ (c.state.recvs 1).closed = true ∧
      (h.got 1).map (·.type) = [.stateChange, .sessionStarted, .turnStarted,
        .agentMessageCompleted, .turnCompleted] ∧
      ∀ e ∈ h.got 1, e.origin = .control ∨ e.origin = .stop ∨
        c.state.causedBy (c.state.recvs 1).owner e.origin = some (some (.service 1 1)) := by
  refine Machine.follow_imp Choice.default oneAfterAnother
    (fun h c => h.handed 1 = true ∧ (c.state.recvs 1).closed = true ∧
      (h.got 1).map (·.type) = [.stateChange, .sessionStarted, .turnStarted,
        .agentMessageCompleted, .turnCompleted] ∧ (c.state.recvs 1).turn = some 1 ∧
      (c.state.agents (c.state.recvs 1).owner).kind = .native) ?_
  rintro h c hr ⟨hhanded, hclosed, hgot, hturn, hkind⟩
  exact ⟨hhanded, hclosed, hgot, (stream_of_own_turn hr 1 1 hhanded hturn hkind).1⟩

/-- The second call subscribes while the first run is in its turn, waits at the claim until
that run is over, and claims. -/
def subscribedEarly : List (Label Op Choice) :=
  [.call (.svc (.createSession ⟨"s", .native, []⟩)), .go 0 1,
   .call (.svc (.sendMessage "s" "hi")), .go 1 31, .go 2 4,
   .call (.svc (.sendMessage "s" "more")), .go 3 10, .go 2 65, .go 3 13]

/-- The terminal event that closed a receiver. -/
def Closer.event : Closer → Option AgentEvent
  | .terminal e => some e
  | _ => none

theorem Closer.event_eq_some {by' : Closer} : by'.event = some e ↔ by' = .terminal e := by
  cases by' <;> simp [Closer.event]

instance (o : Option Closer) (P : AgentEvent → Prop) [DecidablePred P] :
    Decidable (∃ e, o = some (.terminal e) ∧ P e) :=
  decidable_of_iff (∃ e ∈ o.bind Closer.event, P e) (by
    simp [Option.bind_eq_some_iff, Closer.event_eq_some])

/-- The second call returns a receiver that the first run has filled and closed. -/
theorem closed_by_earlier_run :
    ∃ h c, Reach (machine serviceEntry) (watchAttribution fun _ _ _ _ => true) .start
        (initialConfig false 0) h c ∧ h.handed 1 = true ∧ (c.state.recvs 1).turn = some 1 ∧
      (c.state.recvs 1).closed = true ∧ h.aborted 1 = false ∧
      (h.got 1).map (·.type) = [.turnStarted, .agentMessageCompleted, .turnCompleted] ∧
      (∀ e ∈ h.got 1, c.state.causedBy (c.state.recvs 1).owner e.origin =
        some (some (.service 0 0))) ∧
      ∃ e, h.closer 1 = some (.terminal e) ∧
        c.state.causedBy (c.state.recvs 1).owner e.origin = some (some (.service 0 0)) :=
  Machine.follow_to Choice.default subscribedEarly

end FlexAgentRuntime.AgentLoop
