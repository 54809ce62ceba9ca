import FlexAgentRuntime.Agent.Frames

/-!
`serviceEventReceiver.Close` closes before anything else: whoever runs or has
run its body, or is about to run a hook of it, finds the receiver closed
(`Receivers`).
-/

namespace FlexAgentRuntime.AgentLoop

open Interleaving Config

variable {x : Choice} {w : World} {o : Outcome World Op} {r : RecvRef}

theorem Step.closed_of_close (h : Step x w (.recv r (.close by_)) o) (hi : (w.recvs r).once = .idle) :
    (o.state.recvs r).closed = true := by
  cases h with
  | recv hs =>
    rw [recvs_setRecv_self]
    cases hs with
    | close => rfl
    | closeAgain hd =>
      rw [hd] at hi
      cases hi

/-- An action that only `Close` on `r`, or a hook set too late, gives rise to. -/
def afterClose (r : RecvRef) : Op → Bool
  | .recv r' .hooksDone => r' == r
  | .ms _ (.removeStream r') => r' == r
  | _ => false

structure Receivers (c : Config World Op) : Prop where
  once : ∀ r < c.state.nRecvs, (c.state.recvs r).once ≠ .idle → (c.state.recvs r).closed = true
  hooks : ∀ r b, c.Pend b → afterClose r b = true → (c.state.recvs r).closed = true

theorem Receivers.initial (publisher : Bool) (maxSess : Nat) :
    Receivers (initialConfig publisher maxSess) :=
  ⟨fun r hr => absurd hr (Nat.not_lt_zero r), fun r b hp => absurd hp not_pend_nil⟩

theorem startEntry_not_afterClose (he : startEntry w a = true) : afterClose r a = false := by
  cases a with
  | recv r' rop => cases rop <;> first | rfl | cases he
  | ms m mop => cases he
  | _ => rfl

theorem Receivers.call (h : Receivers c) (he : startEntry c.state a = true) :
    Receivers (c.call a) := by
  refine ⟨h.once, fun r b hp hb => ?_⟩
  rcases pend_call.mp hp with hp | rfl
  · exact h.hooks r b hp hb
  · rw [startEntry_not_afterClose he] at hb
    cases hb

variable {c : Config World Op} {i : Nat} {a : Op} {rest : List Op}

theorem Receivers.once_step (h : Receivers c) (ht : c.At i a rest)
    (hs : Step x c.state a o) (r : RecvRef) (hr : r < o.state.nRecvs)
    (honce : (o.state.recvs r).once ≠ .idle) : (o.state.recvs r).closed = true := by
  by_cases hold : r < c.state.nRecvs
  · rcases hs.recv_cases hold with he | ⟨rop, v', more, rfl, he, -, hrop⟩
    · rw [he] at honce ⊢
      exact h.once r hold honce
    · rw [he] at honce ⊢
      cases hrop with
      | close => rfl
      | hooksDone => exact h.hooks r _ (pend_head ht) (beq_self_eq_true r)
      | _ => exact h.once r hold honce
  · obtain ⟨m, turn, buffer, he⟩ := hs.recvs_fresh hold hr
    rw [he] at honce
    exact absurd rfl honce

theorem Follows.afterClose_origin (h : Follows w a b) (hb : afterClose r b = true) :
    ∃ rop, a = .recv r rop ∧
      ((w.recvs r).closed = true ∨ ∃ by_, rop = .close by_ ∧ (w.recvs r).once = .idle) := by
  cases h with
  | hooksDone hi | removeStream hi =>
    cases eq_of_beq hb
    exact ⟨_, rfl, .inr ⟨_, rfl, hi⟩⟩
  | lateRemove hc =>
    cases eq_of_beq hb
    exact ⟨_, rfl, .inl hc⟩
  | lookup hl => cases hl <;> cases hb
  | run hn => cases hn <;> cases hb
  | _ => cases hb

theorem Receivers.hooks_step (h : Receivers c) (hc : Scoped c)
    (ht : c.At i a rest) (hs : Step x c.state a o) (r : RecvRef) (b : Op)
    (hp : (c.advance i rest o).Pend b) (hb : afterClose r b = true) :
    (o.state.recvs r).closed = true := by
  have hlt : ∀ b, b.In c.state → afterClose r b = true → r < c.state.nRecvs := by
    intro b hin hb
    unfold afterClose at hb
    split at hb
    · exact eq_of_beq hb ▸ hin.1
    · exact eq_of_beq hb ▸ hin.2.1
    · cases hb
  rcases pend_cases ht hs hp with hp | hf | ⟨_, _, _, _, -, rfl | rfl⟩
  · exact hs.closed_mono (hlt b (hc.ops b hp) hb) (h.hooks r b hp hb)
  · obtain ⟨rop, rfl, hcl | ⟨by_, rfl, hi⟩⟩ := hf.afterClose_origin hb
    · exact hs.closed_mono (hc.ops _ (pend_head ht)).1 hcl
    · exact hs.closed_of_close hi
  · cases hb
  · cases hb

theorem Reach.receivers (hr : Reach (machine entry) N h₀ (initialConfig publisher maxSess) h c)
    (hentry : ∀ w op, entry w op = true → startEntry w op = true := by exact fun _ _ he => he) :
    Receivers c := by
  refine hr.invariant_of_reach (fun _ c => Receivers c) (Receivers.initial publisher maxSess) ?_ ?_
  · intro h c a _ hi he
    exact hi.call (hentry _ _ he)
  · intro h c i a rest x o hr hi ht hx _
    have hs := step_of_exec hx
    exact ⟨hi.once_step ht hs, hi.hooks_step (Reach.scoped hr hentry) ht hs⟩

end FlexAgentRuntime.AgentLoop
