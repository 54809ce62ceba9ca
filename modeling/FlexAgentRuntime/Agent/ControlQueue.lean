import FlexAgentRuntime.Agent.ServiceExec

/-!
The control queue on its own (`control_queue.go`): any number of goroutines that
enqueue, drain and close.

`Enqueue` reads the closed flag under the read lock and sends after it has released
the lock; `Close` sets the flag and closes the channel in one critical section. A
`Close` between the two makes the send panic.

* `agent_queueAction`: what an agent does with its queue is an action of this machine;
* `Account.step`: what one action does to the transcript of the queue;
* `enqueue_never_panics`: no send is made on the closed channel in runs that close
  only while no `Enqueue` is under way;
* `close_panics_enqueue`: otherwise one is.
-/

namespace FlexAgentRuntime.AgentLoop

open Interleaving Config List Function

namespace ControlQueue

/-- How a call of `Enqueue` ends. -/
inductive Result where
  | nil
  | err (e : AgentError)
  | panic (detail : String)
  deriving DecidableEq, Repr

/-- The actions on a queue: `Enqueue` is a check, a send and the return, `Drain` a
receive for each command and the return. -/
inductive Action where
  | enqueue (cmd : ControlCommand)
  | send (cmd : ControlCommand)
  | enqueued (cmd : ControlCommand) (result : Result)
  | drain (out : List ControlCommand)
  | drained (out : List ControlCommand)
  | close
  deriving DecidableEq, Repr

/-- No action on the queue blocks. -/
def act : Action → ControlQueue → ControlQueue × List Action
  | .enqueue cmd, q => (q, if q.closed then [.enqueued cmd (.err .stopped)] else [.send cmd])
  | .send cmd, q =>
    if q.closed then (q, [.enqueued cmd (.panic "send on closed channel")])
    else if q.ch.length < q.buffer then
      ({ q with ch := q.ch ++ [cmd] }, [.enqueued cmd .nil])
    else (q, [.enqueued cmd (.err .queueFull)])
  -- on an empty channel both branches of the select return, closed or not
  | .drain out, q =>
    match q.ch with
    | cmd :: ch => ({ q with ch := ch }, [.drain (out ++ [cmd])])
    | [] => (q, [.drained out])
  | .close, q => ({ q with closed := true }, [])
  | .enqueued _ _, q | .drained _, q => (q, [])

/-- Any goroutine may call `Enqueue`, `Drain` and `Close`. -/
def machine : Machine ControlQueue Action Unit where
  exec := fun _ a q => some ⟨(act a q).1, (act a q).2, []⟩
  entry := fun _ a =>
    match a with
    | .enqueue _ | .drain [] | .close => true
    | _ => false

def Action.isSend : Action → Bool
  | .send _ => true
  | _ => false

/-- The actions of the queue among those of an agent. -/
def Action.isReturn : Action → Bool
  | .enqueued _ _ | .drained _ => true
  | _ => false

end ControlQueue

/-! ## The queue of an agent -/

/-- The agent on whose control queue an action works, and what it does there. -/
def Op.queueAction : Op → Option (MsRef × ControlQueue.Action)
  | .agent m (.enqueueCheck cmd) => some (m, .enqueue cmd)
  | .agent m (.enqueueSend cmd) => some (m, .send cmd)
  | .run m _ (.drain out) => some (m, .drain out)
  | .stop m _ .closeControl => some (m, .close)
  | _ => none

/-! ## Runs of the queue -/

namespace ControlQueue

/-- The documented results of `Enqueue`. -/
def Result.expected : Result → Bool
  | .nil | .err .queueFull | .err .stopped => true
  | _ => false

/-- What has gone through the queue: the results that calls have returned, and the
commands put in the channel and taken from it. -/
structure Transcript where
  returned : List (ControlCommand × Result) := []
  sent : List ControlCommand := []
  received : List ControlCommand := []

/-- A command is sent only while the channel is open. -/
def Transcript.note (h : Transcript) (q : ControlQueue) : Action → Transcript
  | .enqueued cmd r => { h with returned := h.returned ++ [(cmd, r)] }
  | .send cmd =>
    if !q.closed && q.ch.length < q.buffer then { h with sent := h.sent ++ [cmd] } else h
  | .drain _ =>
    match q.ch with
    | cmd :: _ => { h with received := h.received ++ [cmd] }
    | [] => h
  | .enqueue _ | .drained _ | .close => h

def watch (meets : Config ControlQueue Action → Action → Bool) :
    Monitor ControlQueue Action Unit Transcript where
  noteCall := fun h _ _ => h
  note := fun h c a _ => h.note c.state a
  meets := fun _ c a _ => meets c a

/-- `Close` comes only when no `Enqueue` is between its check and its send. -/
def closesIdle (c : Config ControlQueue Action) : Action → Bool
  | .close => c.state.closed || c.pending Action.isSend == 0
  | _ => true

structure Account (h : Transcript) (c : Config ControlQueue Action) : Prop where
  idle : c.state.closed = true → c.pending Action.isSend = 0
  returned : ∀ p ∈ h.returned, p.2.expected = true
  returning : ∀ cmd r, c.Pend (.enqueued cmd r) → r.expected = true
  accepted : ∀ cmd, h.returned.count (cmd, .nil) +
    c.pending (· == .enqueued cmd .nil) = h.sent.count cmd
  channel : h.received ++ c.state.ch = h.sent

variable {q : ControlQueue} {a : Action}

/-- What an action on the queue does, with what it has seen. -/
inductive Acts (q : ControlQueue) : Action → ControlQueue → List Action → Prop where
  | refused {cmd} : q.closed = true → Acts q (.enqueue cmd) q [.enqueued cmd (.err .stopped)]
  | checked {cmd} : q.closed = false → Acts q (.enqueue cmd) q [.send cmd]
  | panicked {cmd} : q.closed = true →
      Acts q (.send cmd) q [.enqueued cmd (.panic "send on closed channel")]
  | sent {cmd} : q.closed = false → q.ch.length < q.buffer →
      Acts q (.send cmd) { q with ch := q.ch ++ [cmd] } [.enqueued cmd .nil]
  | full {cmd} : q.closed = false → ¬ q.ch.length < q.buffer →
      Acts q (.send cmd) q [.enqueued cmd (.err .queueFull)]
  | received {out cmd ch} : q.ch = cmd :: ch →
      Acts q (.drain out) { q with ch := ch } [.drain (out ++ [cmd])]
  | empty {out} : q.ch = [] → Acts q (.drain out) q [.drained out]
  | closed : Acts q .close { q with closed := true } []
  | enqueued {cmd r} : Acts q (.enqueued cmd r) q []
  | drained {out} : Acts q (.drained out) q []

theorem acts_act (a : Action) (q : ControlQueue) : Acts q a (act a q).1 (act a q).2 := by
  cases a with
  | enqueue cmd =>
    dsimp only [act]
    split
    · exact .refused ‹_›
    · rename_i hopen
      exact .checked (by simpa using hopen)
  | send cmd =>
    dsimp only [act]
    split
    · exact .panicked ‹_›
    · rename_i hopen
      have hopen : q.closed = false := by simpa using hopen
      split
      · exact .sent hopen ‹_›
      · exact .full hopen ‹_›
  | drain out =>
    dsimp only [act]
    split
    · exact .received ‹_›
    · exact .empty ‹_›
  | close => exact .closed
  | enqueued cmd r => exact .enqueued
  | drained out => exact .drained

variable {h : Transcript} {c : Config ControlQueue Action} {i : Nat} {rest more : List Action}

section

variable (ht : c.At i a rest) (hs : Acts c.state a q more)

include ht hs

theorem Account.idle_step (hac : Account h c) (hm : closesIdle c a = true) (hcl : q.closed = true) :
    (c.advance i rest ⟨q, more, []⟩).pending Action.isSend = 0 := by
  have hbal := pending_advance Action.isSend ⟨q, more, []⟩ ht
  cases hs with
  | checked hopen =>
    rw [hopen] at hcl
    cases hcl
  | closed =>
    have hnone : c.pending Action.isSend = 0 := by
      rcases Bool.or_eq_true_iff.mp hm with hcl | hm
      · exact hac.idle hcl
      · exact beq_iff_eq.mp hm
    simp only [Action.isSend, countP_nil, map_nil, sum_nil] at hbal
    omega
  | _ =>
    have hnone := hac.idle hcl
    simp [Action.isSend] at hbal
    omega

/-- The results on their way are documented ones: a send that is still to be made
finds the channel open. -/
theorem Account.returning_step (hac : Account h c) (cmd : ControlCommand) (r : Result)
    (hb : (c.advance i rest ⟨q, more, []⟩).Pend (.enqueued cmd r)) : r.expected = true := by
  rcases hb.of_advance_nil ht rfl with hb | hb
  · exact hac.returning cmd r hb
  · cases hs with
    | panicked hcl =>
      exact absurd (pend_head ht) (not_pend (hac.idle hcl) rfl)
    | refused | sent | full =>
      cases mem_singleton.mp hb
      rfl
    | _ => simp at hb

/-- A command is accepted when it has been put in the channel. -/
theorem Account.accepted_step (hac : Account h c) (cmd : ControlCommand) :
    (h.note c.state a).returned.count (cmd, .nil) +
      (c.advance i rest ⟨q, more, []⟩).pending (· == .enqueued cmd .nil) =
        (h.note c.state a).sent.count cmd := by
  have hbal := pending_advance (· == .enqueued cmd .nil) ⟨q, more, []⟩ ht
  have hold := hac.accepted cmd
  cases hs with
  | @sent cmd' hopen hlt =>
    have hnote : h.note c.state (.send cmd') = { h with sent := h.sent ++ [cmd'] } := by
      simp [Transcript.note, hopen, hlt]
    rw [hnote]
    simp [countP_cons, count_cons] at hbal ⊢
    omega
  | @enqueued cmd' r =>
    simp [Transcript.note, count_cons] at hbal ⊢
    omega
  | @panicked cmd' hcl =>
    have hnote : h.note c.state (.send cmd') = h := by simp [Transcript.note, hcl]
    rw [hnote]
    simp at hbal
    omega
  | @full cmd' _ hfull =>
    have hnote : h.note c.state (.send cmd') = h := by simp [Transcript.note, hfull]
    rw [hnote]
    simp at hbal
    omega
  | received hch | empty hch =>
    simp [Transcript.note, hch] at hbal ⊢
    omega
  | _ =>
    simp [Transcript.note] at hbal ⊢
    omega

end

theorem Account.channel_step (hac : Account h c) (hs : Acts c.state a q more) :
    (h.note c.state a).received ++ q.ch = (h.note c.state a).sent := by
  have hold := hac.channel
  cases hs with
  | sent hopen hlt => simp [Transcript.note, hopen, hlt, ← hold]
  | panicked hcl => simpa [Transcript.note, hcl] using hold
  | full _ hfull => simpa [Transcript.note, hfull] using hold
  | received hch | empty hch => simpa [Transcript.note, hch] using hold
  | _ => exact hold

theorem Account.returned_step (hac : Account h c) (ht : c.At i a rest) :
    ∀ p ∈ (h.note c.state a).returned, p.2.expected = true := by
  cases a with
  | enqueued cmd r =>
    intro p hp
    rcases mem_concat.mp hp with hp | rfl
    · exact hac.returned p hp
    · exact hac.returning cmd r (pend_head ht)
  | send cmd | drain out =>
    dsimp only [Transcript.note]
    split <;> exact hac.returned
  | _ => exact hac.returned

theorem Account.step (hac : Account h c) (ht : c.At i a rest)
    (hs : Acts c.state a q more) (hm : closesIdle c a = true) :
    Account (h.note c.state a) (c.advance i rest ⟨q, more, []⟩) where
  idle := hac.idle_step ht hs hm
  returned := hac.returned_step ht
  returning := hac.returning_step ht hs
  accepted := hac.accepted_step ht hs
  channel := hac.channel_step hs

theorem Account.call (hac : Account h c) (he : machine.entry c.state a = true) :
    Account h (c.call a) := by
  have hnew : a.isSend = false ∧ ∀ cmd r, a ≠ .enqueued cmd r := by
    cases a with
    | send cmd | enqueued cmd r => cases he
    | _ => exact ⟨rfl, nofun⟩
  refine ⟨fun hcl => ?_, hac.returned, fun cmd r hb => ?_, fun cmd => ?_, hac.channel⟩
  · rw [pending_call, hac.idle hcl, hnew.1]
    rfl
  · rcases pend_call.mp hb with hb | rfl
    · exact hac.returning cmd r hb
    · exact absurd rfl (hnew.2 cmd r)
  · rw [pending_call, beq_false_of_ne (hnew.2 cmd .nil)]
    exact hac.accepted cmd

theorem Reach.account (hr : Reach machine (watch closesIdle) {} ⟨newControlQueue n, []⟩ h c) :
    Account h c := by
  refine hr.invariant Account ?_ ?_ ?_
  · exact ⟨fun _ => rfl, nofun, fun cmd r hb => absurd hb not_pend_nil, fun _ => rfl, rfl⟩
  · intro h c a hac he
    exact hac.call he
  · intro h c i a rest x o hac ht hx hm
    cases hx
    exact hac.step ht (acts_act a c.state) hm

/-! ## The result -/

/-- In every run that closes the queue only while no `Enqueue` is between its check
and its send: no send is made on the closed channel; no action blocks, and the result
of every `Enqueue` is nil, `ErrQueueFull` or `StoppedError`; every command for which it
was nil has been put in the channel while that was open, where it is received from
in this order. -/
theorem enqueue_never_panics {n : Nat} {h : Transcript} {c : Config ControlQueue Action}
    (hr : Reach machine (watch closesIdle) {} ⟨newControlQueue n, []⟩ h c) :
    (∀ cmd, c.Pend (.send cmd) → c.state.closed = false) ∧
      (∀ (i : Nat) a rest, c.threads[i]? = some (a :: rest) →
        ∃ o, machine.exec () a c.state = some o) ∧
      (∀ p ∈ h.returned, p.2 = .nil ∨ p.2 = .err .queueFull ∨ p.2 = .err .stopped) ∧
      (∀ cmd, h.returned.count (cmd, .nil) ≤ h.sent.count cmd) ∧
      h.received ++ c.state.ch = h.sent := by
  have hac := Reach.account hr
  refine ⟨fun cmd hb => ?_, fun _ _ _ _ => ⟨_, rfl⟩, fun p hp => ?_, fun cmd => ?_, hac.channel⟩
  · by_contra hcl
    exact not_pend (hac.idle (by simpa using hcl)) rfl hb
  · have hexp := hac.returned p hp
    unfold Result.expected at hexp
    split at hexp
    · exact .inl ‹_›
    · exact .inr (.inl ‹_›)
    · exact .inr (.inr ‹_›)
    · cases hexp
  · have := hac.accepted cmd
    omega

/-- Commands for the schedules. -/
def hurry : ControlCommand := ⟨.steer, "hurry"⟩

/-- One command is accepted and received, one comes after the queue is closed. -/
theorem enqueue_never_panics_closed :
    ∃ h c, Reach machine (watch closesIdle) {} ⟨newControlQueue 0, []⟩ h c ∧
      c.state.closed = true ∧ h.returned = [(hurry, .nil), (hurry, .err .stopped)] ∧
      h.returned.count (hurry, .nil) ≤ h.sent.count hurry := by
  refine Machine.follow_imp (fun _ => ())
    [.call (.enqueue hurry), .go 0 3, .call (.drain []), .go 1 3, .call .close, .go 2 1,
      .call (.enqueue hurry), .go 3 2]
    (fun h c => c.state.closed = true ∧ h.returned = [(hurry, .nil), (hurry, .err .stopped)]) ?_
  rintro h c hr ⟨hclosed, hret⟩
  exact ⟨hclosed, hret, (enqueue_never_panics hr).2.2.2.1 hurry⟩

/-- `Close` between the check and the send of an `Enqueue`: the send panics. -/
theorem close_panics_enqueue :
    ∃ h c, Reach machine (watch fun _ _ => true) {} ⟨newControlQueue 0, []⟩ h c ∧
      h.returned = [(hurry, .panic "send on closed channel")] :=
  Machine.follow_to (fun _ => ())
    [.call (.enqueue hurry), .go 0 1, .call .close, .go 1 1, .go 0 2]

end ControlQueue

end FlexAgentRuntime.AgentLoop
