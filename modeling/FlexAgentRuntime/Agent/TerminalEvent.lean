import FlexAgentRuntime.Agent.Receivers

/-!
Terminal-event uniqueness: what a consumer obtains from a turn-scoped receiver
has at most one terminal event, and that one is last.

`push` checks that the receiver is open and sends in a later step, and the
handler closes the receiver in a third. Two goroutines that publish at once (the
run loop and `Abort`) can both be past the check before either closes, and then
the buffer holds a terminal event that is not the last event, or two of them.

* `Delivery.step`: a step that does not let publishers overlap in this way keeps
  the terminal event last;
* `terminal_event_last`: so do whole runs;
* `two_terminal_events`: a run with the overlap.
-/

namespace FlexAgentRuntime.AgentLoop

open Interleaving Config List

/-! ## What a consumer obtains -/

/-- Only the last event can be a terminal one; in particular there is at most
one. -/
def TerminalLast (events : List AgentEvent) : Prop :=
  ∀ evt ∈ events.dropLast, isTerminalTurnEvent evt = false

instance (events : List AgentEvent) : Decidable (TerminalLast events) :=
  inferInstanceAs (Decidable (∀ evt ∈ events.dropLast, _))

/-- The event `Recv` takes from the buffer in this step. -/
def taken (w : World) : Op → Choice → Option (RecvRef × AgentEvent)
  | .recv r (.recvDrain _), _ => (w.recvs r).ch.head?.map (r, ·)
  | .recv r .recvWait, .send => (w.recvs r).ch.head?.map (r, ·)
  | _, _ => none

/-- The events obtained so far from each receiver. -/
abbrev Obtained := RecvRef → List AgentEvent

def Obtained.note (h : Obtained) (w : World) (a : Op) (x : Choice) : Obtained := fun r =>
  match taken w a x with
  | some (r', evt) => if r' = r then h r ++ [evt] else h r
  | none => h r

def watchRecv (meets : Config World Op → Op → Choice → Bool) :
    Monitor World Op Choice Obtained :=
  ⟨fun h _ _ => h, fun h c a x => h.note c.state a x, fun _ c a x => meets c a x⟩

/-- `push` has checked that `r` is open and not yet sent. -/
def pushing (r : RecvRef) : Op → Bool
  | .recv r' (.pushSelect _ _) => r' == r
  | _ => false

/-- The handler has sent a terminal event to `r` and not yet closed it. -/
def closing (r : RecvRef) : Op → Bool
  | .recv r' (.close (.terminal _)) => r' == r
  | _ => false

/-- No second publisher between a terminal event and the closing of its
receiver: the check of `push` does not succeed while a terminal event waits for
its close, and a terminal event is sent by the only publisher past the check. -/
def onePublisher (c : Config World Op) : Op → Choice → Bool
  | .recv r (.pushCheck _ (some _)), _ =>
    (c.state.recvs r).closed || c.pending (closing r) == 0
  | .recv r (.pushSelect evt (some _)), .send =>
    !isTerminalTurnEvent evt || c.pending (pushing r) == 1
  | _, _ => true

/-! ## The invariant -/

/-- Once a terminal event is there, the receiver is closed or about to be, and
nothing else is on its way. -/
structure Delivered (h : Obtained) (c : Config World Op) (r : RecvRef) : Prop where
  last : TerminalLast (h r ++ (c.state.recvs r).ch)
  ended : (∃ evt ∈ h r ++ (c.state.recvs r).ch, isTerminalTurnEvent evt = true) →
    ((c.state.recvs r).closed = true ∨ 0 < c.pending (closing r)) ∧ c.pending (pushing r) = 0

structure Delivery (h : Obtained) (c : Config World Op) : Prop where
  delivered : ∀ r < c.state.nRecvs, (c.state.recvs r).turn.isSome → Delivered h c r
  fresh : ∀ r, ¬ r < c.state.nRecvs → h r = []

theorem terminalLast_of_none (h : ∀ evt ∈ l, isTerminalTurnEvent evt = false) : TerminalLast l :=
  fun evt he => h evt (dropLast_subset l he)

theorem terminalLast_append (h : ∀ e ∈ l, isTerminalTurnEvent e = false) :
    TerminalLast (l ++ [evt]) := by
  intro e he
  rw [dropLast_concat] at he
  exact h e he

/-! ## One step -/

section Step

variable {h : Obtained} {c : Config World Op} {i : Nat} {a : Op} {rest : List Op} {x : Choice}
  {o : Outcome World Op} {r : RecvRef} {w : World} {evt : AgentEvent}

theorem pushing_le (ht : c.At i a rest) (hs : Step x c.state a o)
    (hne : ∀ evt turn, a = .recv r (.pushCheck evt turn) → (c.state.recvs r).closed = true) :
    (c.advance i rest o).pending (pushing r) ≤ c.pending (pushing r) := by
  refine pending_advance_le ht (fun b hb => ?_) (fun th hth b hb => ?_)
  · by_contra hp
    cases hs.follows hb with
    | @pushSelect r' _ _ hopen =>
      obtain rfl : r' = r := by simpa [pushing] using hp
      rw [hne _ _ rfl] at hopen
      cases hopen
    | lookup hl => cases hl <;> exact hp rfl
    | run hn => cases hn <;> exact hp rfl
    | _ => exact hp rfl
  · obtain ⟨m, caller, k, prompt, -, rfl⟩ := hs.spawn_origin hth
    rcases mem_pair.mp hb with rfl | rfl <;> rfl

theorem closing_le (ht : c.At i a rest) (hc : closing r a = false) :
    c.pending (closing r) ≤ (c.advance i rest o).pending (closing r) := by
  have hbal := pending_advance (closing r) o ht
  rw [hc] at hbal
  simp only [Bool.false_eq_true, if_false] at hbal
  omega

theorem Delivered.of_same (hd : Delivered h c r)
    (hlist : h' r ++ (c'.state.recvs r).ch = h r ++ (c.state.recvs r).ch)
    (hclosed : (c.state.recvs r).closed = true → (c'.state.recvs r).closed = true)
    (hpush : c'.pending (pushing r) ≤ c.pending (pushing r))
    (hclose : (c'.state.recvs r).closed = true ∨ c.pending (closing r) ≤ c'.pending (closing r)) :
    Delivered h' c' r := by
  refine ⟨hlist ▸ hd.last, fun hterm => ?_⟩
  rw [hlist] at hterm
  obtain ⟨hcl, hpz⟩ := hd.ended hterm
  refine ⟨?_, by omega⟩
  rcases hclose with hc' | hc'
  · exact .inl hc'
  · rcases hcl with hcl | hcl
    · exact .inl (hclosed hcl)
    · exact .inr (by omega)

theorem Delivered.of_none
    (hnone : ∀ e ∈ h r ++ (c.state.recvs r).ch, isTerminalTurnEvent e = false) :
    Delivered h c r := by
  refine ⟨terminalLast_of_none hnone, ?_⟩
  rintro ⟨e, he, hterm⟩
  rw [hnone e he] at hterm
  cases hterm

theorem taken_recv (htk : taken w a x = some (r, evt)) : ∃ rop, a = .recv r rop := by
  unfold taken at htk
  split at htk
  · obtain ⟨e, -, ⟨⟩⟩ := Option.map_eq_some_iff.mp htk
    exact ⟨_, rfl⟩
  · obtain ⟨e, -, ⟨⟩⟩ := Option.map_eq_some_iff.mp htk
    exact ⟨_, rfl⟩
  · cases htk

theorem note_of_ne (hne : ∀ rop, a ≠ .recv r rop) : h.note w a x r = h r := by
  unfold Obtained.note
  split
  · rename_i r' evt htk
    obtain ⟨rop, rfl⟩ := taken_recv htk
    exact if_neg fun he => hne rop (by rw [he])
  · rfl

theorem Delivered.other (hd : Delivered h c r) (hr : r < c.state.nRecvs)
    (ht : c.At i a rest) (hs : Step x c.state a o)
    (hne : ∀ rop, a ≠ .recv r rop) :
    Delivered (h.note c.state a x) (c.advance i rest o) r := by
  have hv : (c.advance i rest o).state.recvs r = c.state.recvs r := hs.recvs_frame hr hne
  refine hd.of_same ?_ ?_ (pushing_le ht hs fun evt turn he => absurd he (hne _)) (.inr ?_)
  · rw [hv, note_of_ne hne]
  · rw [hv]
    exact fun hc => hc
  · refine closing_le ht ?_
    unfold closing
    split
    · exact beq_eq_false_iff_ne.mpr fun he => hne _ (by rw [he])
    · rfl

theorem Delivered.no_terminal (hd : Delivered h c r)
    (hp : ¬ (((c.state.recvs r).closed = true ∨ 0 < c.pending (closing r)) ∧
      c.pending (pushing r) = 0)) :
    ∀ evt ∈ h r ++ (c.state.recvs r).ch, isTerminalTurnEvent evt = false :=
  fun evt he => Bool.eq_false_iff.mpr fun hterm => hp (hd.ended ⟨evt, he, hterm⟩)

theorem Delivered.own (hd : Delivered h c r) (hc : Scoped c)
    (honce : (c.state.recvs r).once ≠ .idle → (c.state.recvs r).closed = true)
    (ht : c.threads[i]? = some (.recv r rop :: rest)) (hs : Step x c.state (.recv r rop) o)
    (hturn : (c.state.recvs r).turn.isSome) (hone : onePublisher c (.recv r rop) x = true) :
    Delivered (h.note c.state (.recv r rop) x) (c.advance i rest o) r := by
  have hin := (hc.ops _ (pend_head ht)).2.2
  have hpush := pushing_le (r := r) ht hs
  have hbal := pending_advance (pushing r) o ht
  cases hs with
  | @recv _ _ v' more hstep =>
    have hv : (c.advance i rest ⟨c.state.setRecv r v', more, []⟩).state.recvs r = v' :=
      Function.update_self ..
    -- nothing happens to the events and the close
    have hsame (hlist : h.note c.state (.recv r rop) x r ++ v'.ch = h r ++ (c.state.recvs r).ch)
        (hclose : v'.closed = true ∨ closing r (.recv r rop) = false := by exact .inr rfl)
        (hcl : (c.state.recvs r).closed = true → v'.closed = true := by exact fun hc => hc)
        (hno : ∀ evt turn, rop = .pushCheck evt turn → (c.state.recvs r).closed = true := by simp) :
        Delivered (h.note c.state (.recv r rop) x)
          (c.advance i rest ⟨c.state.setRecv r v', more, []⟩) r := by
      refine hd.of_same ?_ ?_ (hpush fun evt turn he => hno evt turn (by cases he; rfl)) ?_
      · rw [hv]
        exact hlist
      · rw [hv]
        exact hcl
      · rw [hv]
        exact hclose.imp_right (closing_le ht)
    cases hstep with
    | pushClosed hcl => exact hsame rfl (.inr rfl) (fun hc => hc) fun _ _ _ => hcl
    | @pushOpen _ evt turn hopen =>
      obtain ⟨t, hturn'⟩ := Option.isSome_iff_exists.mp hturn
      obtain rfl : turn = some t := hin.1.trans hturn'
      have hzero : c.pending (closing r) = 0 := by
        simpa [onePublisher, hopen] using hone
      have hnone := hd.no_terminal (by simp [hopen, hzero])
      exact .of_none (by rwa [hv])
    | @send evt turn hlen =>
      obtain ⟨t, hturn'⟩ := Option.isSome_iff_exists.mp hturn
      obtain rfl : turn = some t := hin.1.trans hturn'
      have hpend : 0 < c.pending (pushing r) := pending_head ht (by simp [pushing])
      have hnone := hd.no_terminal fun hend => ne_of_gt hpend hend.2
      have hlist : h.note c.state (.recv r (.pushSelect evt (some t))) .send r ++
          ((c.state.recvs r).ch ++ [evt]) = h r ++ (c.state.recvs r).ch ++ [evt] := by
        rw [append_assoc]
        rfl
      refine ⟨?_, fun hterm => ?_⟩
      · rw [hv, hlist]
        exact terminalLast_append hnone
      · rw [hv, hlist] at hterm
        obtain ⟨e, he, hterm⟩ := hterm
        have hevt : isTerminalTurnEvent evt = true := by
          rcases mem_concat.mp he with he | he
          · rw [hnone e he] at hterm
            cases hterm
          · rw [he] at hterm
            exact hterm
        refine ⟨.inr ?_, ?_⟩
        · exact pending_pos.mpr ⟨.recv r (.close (.terminal evt)),
            pend_more ht (by simp [hevt]), by simp [closing]⟩
        · have hone' : c.pending (pushing r) = 1 := by
            simpa [onePublisher, hevt] using hone
          have hmore : (pushed r evt (some t)).countP (pushing r) = 0 := by
            simp [pushed, hevt, pushing]
          simp only [hmore, hone', pushing, beq_self_eq_true, if_true, map_nil, sum_nil] at hbal
          omega
    | sendGivenUp hcl | hookRun hcl | hookKept hcl | hooksDone | recvEnd | recv | wakeClosed =>
      exact hsame rfl
    | close => exact hsame rfl (.inl rfl) fun _ => rfl
    | closeAgain hdone => exact hsame rfl (.inl (honce (by rw [hdone]; intro h; cases h)))
    | take hch | drainEnd hch | drainWait hch | takeWaiting hch =>
      refine hsame ?_
      simp [Obtained.note, taken, hch]

theorem Delivered.fresh (hv : c'.state.recvs r = newServiceEventReceiver m turn buffer)
    (hempty : h r = []) : Delivered h c' r :=
  .of_none (by simp [hv, hempty, newServiceEventReceiver])

theorem Delivery.step (hd : Delivery h c) (hc : Scoped c) (hrecv : Receivers c)
    (ht : c.At i a rest) (hs : Step x c.state a o)
    (hone : onePublisher c a x = true) :
    Delivery (h.note c.state a x) (c.advance i rest o) := by
  -- a receiver that does not exist yet is not the one a step takes an event from
  have hold : ∀ r, ¬ r < c.state.nRecvs → h.note c.state a x r = [] := by
    intro r hr
    rw [note_of_ne, hd.fresh r hr]
    rintro rop rfl
    exact hr (hc.ops _ (pend_head ht)).1
  refine ⟨fun r hr hturn => ?_, fun r hr => hold r fun hlt => hr (hlt.trans_le hs.extends.recvs)⟩
  by_cases hlt : r < c.state.nRecvs
  · have hturn' : (c.state.recvs r).turn.isSome := by rwa [← hs.extends.turn r hlt]
    have hdr := hd.delivered r hlt hturn'
    by_cases hop : ∃ rop, a = .recv r rop
    · obtain ⟨rop, rfl⟩ := hop
      exact hdr.own hc (hrecv.once r hlt) ht hs hturn' hone
    · exact hdr.other hlt ht hs fun rop he => hop ⟨rop, he⟩
  · obtain ⟨m, turn, buffer, hv⟩ := hs.recvs_fresh hlt hr
    exact Delivered.fresh hv (hold r hlt)

theorem Delivery.call (hd : Delivery h c) (he : startEntry c.state a = true) :
    Delivery h (c.call a) := by
  refine ⟨fun r hr hturn => ?_, hd.fresh⟩
  refine (hd.delivered r hr hturn).of_same rfl (fun hc => hc) ?_ (.inr ?_)
  · have hno : pushing r a = false := by
      cases a with
      | recv r' rop => cases rop <;> first | rfl | cases he
      | _ => rfl
    simp [hno]
  · simp

end Step

/-! ## Whole runs -/

theorem Reach.delivery
    (hr : Reach (machine startEntry) (watchRecv onePublisher) (fun _ => []) (initialConfig
      publisher maxSess) h c) : Delivery h c := by
  refine hr.invariant_of_reach Delivery ⟨fun r hr => absurd hr (Nat.not_lt_zero r), fun _ _ => rfl⟩
    ?_ ?_
  · intro h c a _ hd he
    exact hd.call he
  · intro h c i a rest x o hr hd ht hx hm
    exact hd.step (Reach.scoped hr) (Reach.receivers hr) ht
      (step_of_exec hx) hm

/-- In a run without overlapping publishers, what a turn-scoped receiver has
handed out and still holds ends with its terminal event, if there is one. -/
theorem terminal_event_last {publisher : Bool} {maxSess : Nat} {h : Obtained}
    {c : Config World Op}
    (hr : Reach (machine startEntry) (watchRecv onePublisher) (fun _ => [])
      (initialConfig publisher maxSess) h c) (r : RecvRef) (hlt : r < c.state.nRecvs)
    (hturn : (c.state.recvs r).turn.isSome) : TerminalLast (h r ++ (c.state.recvs r).ch) :=
  ((Reach.delivery hr).delivered r hlt hturn).last

/-- A turn whose loop publishes `turn_completed`, with the consumer reading all
of it. -/
def turnReadToTheEnd : List (Label Op Choice) :=
  [.call (.svc (.createSession ⟨"s", .native, []⟩)), .go 0 1,
   .call (.svc (.sendMessage "s" "hi")), .go 1 31, .go 2 48] ++
  (List.range 5).flatMap fun n => [.call (.recv 0 .recv), .go (3 + n) 2]

theorem terminal_event_last_turn_read :
    ∃ h c, Reach (machine startEntry) (watchRecv onePublisher) (fun _ => [])
        (initialConfig false 0) h c ∧
      (h 0).map (·.type) = [.stateChange, .sessionStarted, .turnStarted, .agentMessageCompleted,
        .turnCompleted] ∧ TerminalLast (h 0 ++ (c.state.recvs 0).ch) := by
  refine Machine.follow_imp Choice.default turnReadToTheEnd
    (fun h c => (h 0).map (·.type) = [.stateChange, .sessionStarted, .turnStarted,
        .agentMessageCompleted, .turnCompleted] ∧
      0 < c.state.nRecvs ∧ (c.state.recvs 0).turn.isSome) ?_
  rintro h c hr ⟨htypes, hlt, hturn⟩
  exact ⟨htypes, terminal_event_last hr 0 hlt hturn⟩

/-- The loop is past the check of `push` with its `turn_completed` when `Abort`
passes it with its own terminal event; then both send, and the consumer reads. -/
def abortDuringPush : List (Label Op Choice) :=
  [.call (.svc (.createSession ⟨"s", .native, []⟩)), .go 0 1,
   .call (.svc (.sendMessage "s" "hi")), .go 1 31, .go 2 32,
   .call (.svc (.abort "s" "stop")), .go 3 9, .go 2 1, .go 3 1] ++
  (List.range 6).flatMap fun n => [.call (.recv 0 .recv), .go (4 + n) 2]

/-- The consumer of a turn obtains two terminal events. -/
theorem two_terminal_events :
    ∃ h c, Reach (machine startEntry) (watchRecv fun _ _ _ => true) (fun _ => [])
        (initialConfig false 0) h c ∧ (c.state.recvs 0).turn.isSome ∧
      (h 0).map (·.type) = [.stateChange, .sessionStarted, .turnStarted, .agentMessageCompleted,
        .turnCompleted, .aborted] ∧ ¬ TerminalLast (h 0) :=
  Machine.follow_to Choice.default abortDuringPush

end FlexAgentRuntime.AgentLoop
