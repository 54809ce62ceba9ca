import FlexAgentRuntime.Rpc.SandboxServer

/-!
The stream of one `ExecuteToolStream` call whose answer was not in the cache: the goroutine
the server starts (`internal/rpc/server/sandbox_server.go`) and the receiver it returns
(`chanExecuteToolStream` of `internal/rpc/api/stream.go`).

`host.ExecuteTool` may call `OnProgress` from several goroutines at once and returns when
these calls have returned. The consumer may call `Recv` and `Close` and cancel the context at
any time. The response is sent to `ch` without a look at the context.
-/

namespace FlexAgentRuntime.ToolStream

open Interleaving SandboxHost SandboxServer List

structure ToolProgress where
  content : String
  isError : Bool

/-- `api.ExecuteToolStreamMessage`. -/
inductive Message where
  | progress (p : ToolProgress)
  | response (resp : ToolResponse)

/-- What `Recv` returns. -/
inductive Received where
  | message (msg : Message)
  | error (err : RpcError)
  | streamClosed
  | eof

/-- The capacities of `ch` and `errCh`. -/
def chCap : Nat := 32
def errCap : Nat := 1

/-- `calls` are the calls of `OnProgress` that wait in their `select`; `closed` and `closing`
are the receiver's flag and whether `Close` holds its mutex. -/
structure World where
  ch : List Message := []
  chClosed : Bool := false
  errCh : List RpcError := []
  errClosed : Bool := false
  done : Bool := false
  cancelled : Bool := false
  calls : List ToolProgress := []
  closed : Bool := false
  closing : Bool := false
  received : List Received := []

inductive Op where
  -- the goroutine
  | executeTool
  | send (resp : ToolResponse)
  | sendErr (err : RpcError)
  | closeDone
  | closeErrCh
  | closeCh
  -- the consumer
  | recv
  | receive
  | close
  | awaitDone
  | cancel

/-- What the host does next: it calls `OnProgress`, the `select` of the `k`-th such call goes
on with its message sent or because the context is done, or it returns. -/
inductive Choice where
  | onProgress (p : ToolProgress)
  | deliver (k : Nat)
  | giveUp (k : Nat)
  | respond (resp : ToolResponse)
  | fail (err : HostError)

def executeTool (w : World) : Choice → Option (Outcome World Op)
  | .onProgress p =>
    some ⟨if p.content = "" then w else { w with calls := w.calls ++ [p] }, [.executeTool], []⟩
  | .deliver k =>
    w.calls[k]?.bind fun p =>
      if w.ch.length < chCap then
        some ⟨{ w with calls := w.calls.eraseIdx k, ch := w.ch ++ [.progress p] }, [.executeTool], []⟩
      else none
  | .giveUp k =>
    if k < w.calls.length ∧ w.cancelled then
      some ⟨{ w with calls := w.calls.eraseIdx k }, [.executeTool], []⟩
    else none
  | .respond resp => if w.calls.isEmpty then some ⟨w, [.send resp], []⟩ else none
  | .fail err => if w.calls.isEmpty then some ⟨w, [.sendErr (mapError err)], []⟩ else none

def World.give (w : World) (r : Received) : World := { w with received := w.received ++ [r] }

def exec (x : Choice) (a : Op) (w : World) : Option (Outcome World Op) :=
  match a with
  | .executeTool => executeTool w x
  | .send resp =>
    if w.ch.length < chCap then some ⟨{ w with ch := w.ch ++ [.response resp] }, [], []⟩ else none
  | .sendErr err =>
    if w.errCh.length < errCap then some ⟨{ w with errCh := w.errCh ++ [err] }, [], []⟩ else none
  | .closeDone => some ⟨{ w with done := true }, [], []⟩
  | .closeErrCh => some ⟨{ w with errClosed := true }, [], []⟩
  | .closeCh => some ⟨{ w with chClosed := true }, [], []⟩
  | .recv =>
    if w.closing then none
    else if w.closed then some ⟨w.give .streamClosed, [], []⟩
    else some ⟨w, [.receive], []⟩
  | .receive =>
    match w.ch with
    | msg :: ch => some ⟨{ w with ch := ch }.give (.message msg), [], []⟩
    | [] =>
      if w.chClosed then
        match w.errCh with
        | err :: errs => some ⟨{ w with errCh := errs }.give (.error err), [], []⟩
        | [] => some ⟨w.give .eof, [], []⟩
      else none
  | .close =>
    if w.closing then none
    else if w.closed then some ⟨w, [], []⟩
    else some ⟨{ w with closed := true, closing := true }, [.awaitDone], []⟩
  | .awaitDone =>
    if w.done ∨ w.cancelled then some ⟨{ w with closing := false }, [], []⟩ else none
  | .cancel => some ⟨{ w with cancelled := true }, [], []⟩

def entry (_ : World) : Op → Bool
  | .recv | .close | .cancel => true
  | _ => false

def machine : Machine World Op Choice := ⟨exec, entry⟩

/-- The deferred calls of the goroutine. -/
def closes : List Op := [.closeDone, .closeErrCh, .closeCh]

def initialConfig : Config World Op := ⟨{}, [.executeTool :: closes]⟩

def Op.reads : Op → Bool
  | .recv | .receive => true
  | _ => false

def Op.inHost : Op → Bool
  | .executeTool => true
  | _ => false

def Op.sends : Op → Bool
  | .send _ | .sendErr _ => true
  | _ => false

/-- The context is cancelled, nobody reads, `host.ExecuteTool` has returned, and the goroutine
is blocked on a channel send (which no choice of the host decides). -/
def stranded (c : Config World Op) : Bool :=
  c.state.cancelled && c.pending Op.reads == 0 && c.pending Op.inHost == 0 &&
    c.threads.any fun th => th.head?.any fun a => a.sends && (exec (.deliver 0) a c.state).isNone

/-- The host returns a response only when there is room for it in `ch`. -/
def leavesRoom (c : Config World Op) (a : Op) (x : Choice) : Bool :=
  match a, x with
  | .executeTool, .respond _ => c.state.ch.length < chCap
  | _, _ => true

/-! ## What the goroutine has to do -/

def Op.consumes : Op → Bool
  | .recv | .receive | .close | .awaitDone | .cancel => true
  | _ => false

/-- The stacks of the goroutine: what is sent after the host has returned finds room. -/
inductive Proceeds (w : World) : List Op → Prop
  | executing : w.errCh = [] → Proceeds w (.executeTool :: closes)
  | send {resp} : w.ch.length < chCap → Proceeds w (.send resp :: closes)
  | sendErr {err} : w.errCh = [] → Proceeds w (.sendErr err :: closes)
  | closing {th} : th <:+ closes → Proceeds w th

/-- The goroutine is the first thread; the others are calls of the consumer. -/
def Running (c : Config World Op) : Prop :=
  ∃ g calls, c.threads = g :: calls ∧ Proceeds c.state g ∧
    ∀ th ∈ calls, ∀ b ∈ th, b.consumes = true

section Step

variable {c : Config World Op} {w : World} {a : Op} {x : Choice} {o : Outcome World Op}
  {rest : List Op} {i : Nat}

/-- A step of the goroutine leads to a stack that proceeds. -/
theorem Proceeds.step (h : Proceeds w (a :: rest)) (hx : exec x a w = some o)
    (hroom : ∀ resp, a = .executeTool → x = .respond resp → w.ch.length < chCap) :
    Proceeds o.state (o.more ++ rest) ∧ o.spawn = [] := by
  cases h with
  | executing herr =>
    cases x with
    | onProgress p =>
      cases hx
      refine ⟨.executing ?_, rfl⟩
      split <;> exact herr
    | deliver k =>
      obtain ⟨p, -, hp⟩ := Option.bind_eq_some_iff.mp hx
      split at hp <;> cases hp
      exact ⟨.executing herr, rfl⟩
    | giveUp k =>
      simp only [exec, executeTool, Option.ite_none_right_eq_some] at hx
      cases hx.2
      exact ⟨.executing herr, rfl⟩
    | respond resp =>
      simp only [exec, executeTool, Option.ite_none_right_eq_some] at hx
      cases hx.2
      exact ⟨.send (hroom resp rfl rfl), rfl⟩
    | fail err =>
      simp only [exec, executeTool, Option.ite_none_right_eq_some] at hx
      cases hx.2
      exact ⟨.sendErr herr, rfl⟩
  | send | sendErr =>
    simp only [exec, Option.ite_none_right_eq_some] at hx
    cases hx.2
    exact ⟨.closing (suffix_refl _), rfl⟩
  | closing hsuf =>
    have hmem : a ∈ closes := hsuf.subset mem_cons_self
    have hrest : rest <:+ closes := (suffix_cons a rest).trans hsuf
    simp only [closes, mem_cons, not_mem_nil, or_false] at hmem
    rcases hmem with rfl | rfl | rfl <;> cases hx <;> exact ⟨.closing hrest, rfl⟩

theorem consumes_step (ha : a.consumes = true) (hx : exec x a w = some o) :
    o.state.ch.length ≤ w.ch.length ∧ (w.errCh = [] → o.state.errCh = []) ∧
      (∀ b ∈ o.more, b.consumes = true) ∧ o.spawn = [] := by
  cases a with
  | recv | close =>
    simp only [exec] at hx
    split at hx
    · cases hx
    · split at hx <;> cases hx <;> simp [World.give, Op.consumes]
  | receive =>
    simp only [exec] at hx
    split at hx
    · rename_i hch
      cases hx
      simp [World.give, hch]
    · split at hx
      · split at hx <;> cases hx <;> simp_all [World.give]
      · cases hx
  | awaitDone =>
    simp only [exec, Option.ite_none_right_eq_some] at hx
    cases hx.2
    simp
  | cancel =>
    cases hx
    simp
  | _ => cases ha

theorem Proceeds.mono {w' : World} {th : List Op} (h : Proceeds w th)
    (hch : w'.ch.length ≤ w.ch.length) (herr : w.errCh = [] → w'.errCh = []) : Proceeds w' th := by
  cases h with
  | executing he => exact .executing (herr he)
  | send hroom => exact .send (hch.trans_lt hroom)
  | sendErr he => exact .sendErr (herr he)
  | closing hsuf => exact .closing hsuf

theorem Running.step (h : Running c) (ht : c.At i a rest) (hx : exec x a c.state = some o)
    (hm : leavesRoom c a x = true) : Running (c.advance i rest o) := by
  obtain ⟨g, calls, hth, hp, hcalls⟩ := h
  rw [Config.At, hth] at ht
  cases i with
  | zero =>
    cases ht
    obtain ⟨hp', hspawn⟩ := hp.step hx (by
      rintro resp rfl rfl
      exact of_decide_eq_true hm)
    exact ⟨o.more ++ rest, calls, by simp [Config.advance, hth, hspawn], hp', hcalls⟩
  | succ i =>
    have hown := hcalls _ (mem_of_getElem? ht)
    obtain ⟨hch, herr, hmore, hspawn⟩ := consumes_step (hown a mem_cons_self) hx
    refine ⟨g, calls.set i (o.more ++ rest), by simp [Config.advance, hth, hspawn],
      hp.mono hch herr, fun th hmem b hb => ?_⟩
    rcases mem_or_eq_of_mem_set hmem with hmem | rfl
    · exact hcalls th hmem b hb
    · rcases mem_append.mp hb with hb | hb
      · exact hmore b hb
      · exact hown b (mem_cons_of_mem a hb)

theorem Running.call (h : Running c) (he : entry c.state a = true) : Running (c.call a) := by
  obtain ⟨g, calls, hth, hp, hcalls⟩ := h
  refine ⟨g, calls ++ [[a]], by simp [Config.call, hth], hp, fun th hmem b hb => ?_⟩
  rcases mem_concat.mp hmem with hmem | rfl
  · exact hcalls th hmem b hb
  · cases mem_singleton.mp hb
    cases a <;> first | rfl | cases he

theorem Reach.running (hr : Reach machine (.when leavesRoom) () initialConfig () c) : Running c := by
  refine hr.invariant (fun _ c => Running c) ⟨_, [], rfl, .executing rfl, forall_mem_nil _⟩ ?_ ?_
  · intro _ c a h he
    exact h.call he
  · intro _ c i a rest x o h ht hx hm
    exact h.step ht hx hm

theorem Proceeds.sends (h : Proceeds w (a :: rest)) (ha : a.sends = true) :
    (exec x a w).isSome = true := by
  cases h with
  | executing => cases ha
  | send hroom => simp [exec, hroom]
  | sendErr herr => simp [exec, herr, errCap]
  | closing hsuf =>
    have hmem : a ∈ closes := hsuf.subset mem_cons_self
    cases a <;> simp [Op.sends, closes] at ha hmem

end Step

/-- When the host returns a response only while `ch` has room for it, the goroutine of the
stream is never left blocked on a send. -/
theorem goroutine_never_stranded {c : Config World Op}
    (hr : Reach machine (.when leavesRoom) () initialConfig () c) : stranded c = false := by
  obtain ⟨g, calls, hth, hp, hcalls⟩ := Reach.running hr
  refine Bool.eq_false_iff.mpr fun hstr => ?_
  obtain ⟨th, hmem, hblocked⟩ := any_eq_true.mp (Bool.and_eq_true_iff.mp hstr).2
  obtain ⟨a, ha, hblocked⟩ := Option.any_eq_true _ _ |>.mp hblocked
  obtain ⟨rest, rfl⟩ := List.head?_eq_some_iff.mp ha
  obtain ⟨hsends, hnone⟩ := Bool.and_eq_true_iff.mp hblocked
  rw [hth] at hmem
  rcases mem_cons.mp hmem with rfl | hmem
  · rw [Option.isNone_iff_eq_none] at hnone
    have hsome := hp.sends (x := .deliver 0) hsends
    rw [hnone] at hsome
    cases hsome
  · have hcons := hcalls _ hmem a mem_cons_self
    cases a <;> simp [Op.sends, Op.consumes] at hsends hcons

/-- The host reports progress and returns a response; the consumer reads one message, closes
the stream and cancels the context. -/
theorem goroutine_never_stranded_closed :
    ∃ c, Reach machine (.when leavesRoom) () initialConfig () c ∧ c.state.cancelled = true ∧
      stranded c = false := by
  refine Machine.follow_state_imp (fun _ => .deliver 0)
    [.run 0 (.onProgress ⟨"line", false⟩), .go 0 1,
      .run 0 (.respond ⟨"s", "call", "bash", "", "", none, 2⟩), .go 0 1, .call .recv, .go 1 2,
      .call .close, .call .cancel, .go 3 1, .go 2 2]
    (fun c => c.state.cancelled = true) ?_
  intro c hr ht
  exact ⟨ht, goroutine_never_stranded hr⟩

/-- With 32 unread messages the goroutine is blocked on the response for good. -/
theorem response_blocked :
    ∃ c, Reach machine .free () initialConfig () c ∧ stranded c = true :=
  Machine.follow_state (fun _ => .deliver 0)
    (((List.replicate 32 [.run 0 (.onProgress ⟨"line", false⟩), .go 0 1]).flatten) ++
      [.run 0 (.respond ⟨"s", "call", "bash", "", "", none, 2⟩), .call .cancel, .go 1 1])

end FlexAgentRuntime.ToolStream
