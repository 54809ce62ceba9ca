import Mathlib.Algebra.Order.Ring.Int

/-!
The rate limit on terminal input: `inputPump` of `internal/rpc/server/terminal_server.go`.

The pump takes the messages of a client and the ticks of its ticker in the order in which the
`select` gives them. Input costs a token for each byte, and is dropped if there are too few.
-/

namespace FlexAgentRuntime.Terminal

open List

def inputBurst : Int := 64 * 1024
def refillAmount : Int := 10 * 1024 / 10

/-- No input and empty input are the same to the pump. -/
structure ClientMessage where
  input : List UInt8
  resize : Option (Int × Int) := none
  deriving DecidableEq

/-- What the `select` gives; `fails` says whether `WritePTY` fails if the message is written. -/
inductive Event where
  | message (msg : Option ClientMessage) (fails : Bool)
  | tick
  | closed
  | cancelled
  deriving DecidableEq

/-- `written` are the calls of `WritePTY`, `sizes` those of `Resize`. -/
structure Pump where
  tokens : Int := inputBurst
  written : List (List UInt8) := []
  sizes : List (Int × Int) := []
  returned : Bool := false

def Pump.receive (p : Pump) (input : List UInt8) (fails : Bool) : Pump :=
  if input = [] then p
  else if p.tokens ≥ input.length then
    { p with tokens := p.tokens - input.length, written := p.written ++ [input], returned := fails }
  else p

def Pump.resize (p : Pump) (size : Option (Int × Int)) : Pump :=
  { p with sizes := p.sizes ++ (size.filter fun s => s.1 > 0 && s.2 > 0).toList }

def Pump.step (p : Pump) (e : Event) : Pump :=
  if p.returned then p
  else
    match e with
    | .message none _ => p
    | .message (some msg) fails =>
      let p := p.receive msg.input fails
      if p.returned then p else p.resize msg.resize
    | .tick => { p with tokens := min (p.tokens + refillAmount) inputBurst }
    | .closed | .cancelled => { p with returned := true }

def inputPump (events : List Event) : Pump := events.foldl Pump.step {}

def Pump.bytes (p : Pump) : Int := (p.written.map fun data => (data.length : Int)).sum

/-- The input that an event brings. -/
def Event.input : Event → Option (List UInt8)
  | .message (some msg) _ => if msg.input = [] then none else some msg.input
  | _ => none

/-- An event is a tick, or brings input that there are tokens for, or changes neither the tokens nor
what is written. -/
theorem Pump.step_cases (p : Pump) (e : Event) :
    (e = .tick ∧ (p.step e).tokens = min (p.tokens + refillAmount) inputBurst ∧
      (p.step e).written = p.written) ∨
    (∃ data, e.input = some data ∧ data.length ≤ p.tokens ∧
      (p.step e).tokens = p.tokens - data.length ∧ (p.step e).written = p.written ++ [data]) ∨
    ((p.step e).tokens = p.tokens ∧ (p.step e).written = p.written ∧
      (p.returned = false → ∀ data ∈ e.input, p.tokens < data.length)) := by
  unfold Pump.step
  split
  · simp_all
  · cases e with
    | message msg fails =>
      cases msg with
      | none => simp [Event.input]
      | some msg =>
        simp only [Pump.receive, Event.input]
        split_ifs <;> simp_all [Pump.resize]
    | tick => simp
    | _ => simp [Event.input]

/-- From `p` to `q`, after the events: every byte has cost a token, and what was written is some of
the input, in order. -/
structure Leads (p : Pump) (events : List Event) (q : Pump) : Prop where
  nonneg : 0 ≤ q.tokens
  le_burst : q.tokens ≤ inputBurst
  spent : q.bytes + q.tokens ≤ p.bytes + p.tokens + events.count .tick * refillAmount
  written : ∃ l, q.written = p.written ++ l ∧ l <+ events.filterMap Event.input

variable {p q r : Pump}

theorem Leads.trans (h : Leads p es q) (h' : Leads q es' r) : Leads p (es ++ es') r := by
  obtain ⟨l, hl, hsub⟩ := h.written
  obtain ⟨l', hl', hsub'⟩ := h'.written
  refine ⟨h'.nonneg, h'.le_burst, ?_, l ++ l', by simp [hl, hl'], ?_⟩
  · rw [count_append, Nat.cast_add, add_mul]
    have := h.spent
    have := h'.spent
    omega
  · rw [filterMap_append]
    exact hsub.append hsub'

theorem leads_step (h0 : 0 ≤ p.tokens) (h1 : p.tokens ≤ inputBurst) (e : Event) :
    Leads p [e] (p.step e) := by
  have hrefill : refillAmount = 1024 := rfl
  rcases p.step_cases e with ⟨rfl, htok, hwr⟩ | ⟨data, hin, hle, htok, hwr⟩ | ⟨htok, hwr, -⟩
  · have hburst : 0 ≤ inputBurst := by decide
    refine ⟨by omega, by omega, ?_, [], by simp [hwr], nil_sublist _⟩
    simp only [Pump.bytes, hwr, htok, count_singleton_self]
    omega
  · refine ⟨by omega, by omega, ?_, [data], hwr, by simp [hin]⟩
    simp only [Pump.bytes, hwr, htok, map_append, sum_append, map_cons, map_nil, sum_cons, sum_nil,
      hrefill]
    omega
  · refine ⟨by omega, by omega, ?_, [], by simp [hwr], nil_sublist _⟩
    simp only [Pump.bytes, hwr, htok, hrefill]
    omega

theorem leads_foldl (events : List Event) (h0 : 0 ≤ p.tokens) (h1 : p.tokens ≤ inputBurst) :
    Leads p events (events.foldl Pump.step p) := by
  induction events generalizing p with
  | nil => exact ⟨h0, h1, by simp, [], by simp, nil_sublist _⟩
  | cons e events ih =>
    have hstep := leads_step h0 h1 e
    exact hstep.trans (ih hstep.nonneg hstep.le_burst)

/-- The tokens stay within the burst; a window of the run writes at most the burst and what its
ticks add; what is written are whole inputs in the order in which they came; and an input is
dropped only if there are fewer tokens than it has bytes. -/
theorem input_rate_limited (before window : List Event) :
    (0 ≤ (inputPump before).tokens ∧ (inputPump before).tokens ≤ inputBurst) ∧
    (inputPump (before ++ window)).bytes ≤
      (inputPump before).bytes + (inputBurst + window.count .tick * refillAmount) ∧
    (inputPump before).written <+ before.filterMap Event.input ∧
    ∀ e data, e.input = some data → (inputPump before).returned = false →
      (inputPump (before ++ [e])).written = (inputPump before).written ++ [data] ∨
        (inputPump (before ++ [e])).written = (inputPump before).written ∧
          (inputPump before).tokens < data.length := by
  have hbefore : Leads {} before (inputPump before) := leads_foldl before (by decide) (by decide)
  have hwindow := leads_foldl window hbefore.nonneg hbefore.le_burst
  refine ⟨⟨hbefore.nonneg, hbefore.le_burst⟩, ?_, ?_, fun e data hin hret => ?_⟩
  · have := hbefore.le_burst
    have := hwindow.nonneg
    have := hwindow.spent
    rw [inputPump, foldl_append]
    change (window.foldl Pump.step (inputPump before)).bytes ≤ _
    omega
  · obtain ⟨l, hl, hsub⟩ := hbefore.written
    rwa [hl]
  · rw [inputPump, foldl_append]
    change ((inputPump before).step e).written = _ ∨ ((inputPump before).step e).written = _ ∧ _
    rcases (inputPump before).step_cases e with ⟨rfl, -⟩ | ⟨data', hin', -, -, hwr⟩ | ⟨-, hwr, hdrop⟩
    · cases hin
    · cases hin.symm.trans hin'
      exact .inl hwr
    · exact .inr ⟨hwr, hdrop hret data hin⟩

end FlexAgentRuntime.Terminal
