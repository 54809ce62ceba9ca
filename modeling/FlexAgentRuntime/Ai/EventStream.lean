import FlexAgentRuntime.Ai.Transform
import FlexAgentRuntime.Ai.Sse
import FlexAgentRuntime.Lists.Transducer

/-!
The stream of a provider's answer: `EventStream` of `internal/ai/event_stream.go`, and the
part of `stream.go` that the providers share (`runStream`, `sendErrorEvent` and the goroutine
around them).

The stream is given as the sequence of all events sent, which is what a consumer receives who
reads until the channel is closed. A message is given with its blocks or with pointers to
them. The request, the response and the clock are the environment's; of a request's failure
only the text is kept. An error's code, its status and `RetryAfter` are left out.
-/

namespace FlexAgentRuntime.Ai

open List

open Transducer (Machine Result)

inductive EventType where
  | start
  | textStart | textDelta | textEnd
  | thinkingStart | thinkingDelta | thinkingEnd
  | toolCallStart | toolCallDelta | toolCallEnd
  | done | error
  deriving DecidableEq, Repr

/-- `AssistantMessage` with blocks of type `β`. -/
structure StreamedMessage (β : Type) where
  content : List β := []
  api : String := ""
  provider : String := ""
  model : String := ""
  usage : Usage := {}
  stopReason : StopReason
  errorMessage : String := ""
  timestamp : Int

/-- The message with its blocks. -/
def StreamedMessage.resolve {β : Type} (block : β → Option ContentBlock) (m : StreamedMessage β) :
    AssistantMessage where
  content := m.content.filterMap block
  api := m.api
  provider := m.provider
  model := m.model
  usage := m.usage
  stopReason := m.stopReason
  errorMessage := m.errorMessage
  timestamp := m.timestamp

structure AssistantMessageEvent (β : Type) where
  type : EventType
  contentIndex : Int := 0
  delta : String := ""
  content : String := ""
  toolCall : Option ToolCall := none
  partialMessage : Option (StreamedMessage β) := none
  message : Option (StreamedMessage β) := none
  error : Option (StreamedMessage β) := none
  reason : Option StopReason := none

inductive StreamError where
  | provider (message provider : String)
  | other (message : String)
  deriving DecidableEq, Repr

def errStreamClosedWithoutTerminalEvent : String :=
  "event stream closed without terminal done/error event"

/-- `EventStream`; `ch` is everything that has been sent on the channel. -/
structure EventStream (β : Type) where
  ch : List (AssistantMessageEvent β) := []
  result : Option (StreamedMessage β × Option StreamError) := none
  terminated : Bool := false
  closed : Bool := false

variable {β σ : Type} {e : AssistantMessageEvent β} {events : List (AssistantMessageEvent β)}
  {r : Result σ (AssistantMessageEvent β) String}

def providerErrorFromMessage (m : StreamedMessage β) : Option StreamError :=
  if m.stopReason = .error then some (.provider m.errorMessage m.provider) else none

/-- `terminated.CompareAndSwap(false, true)` and then `result <- r`. -/
def EventStream.publish (es : EventStream β) (r : StreamedMessage β × Option StreamError) :
    EventStream β :=
  if es.terminated then es else { es with terminated := true, result := some r }

def EventStream.send (es : EventStream β) (event : AssistantMessageEvent β) : EventStream β :=
  let es := { es with ch := es.ch ++ [event] }
  match event.type with
  | .done =>
    match event.message with
    | some m => es.publish (m, none)
    | none => es
  | .error =>
    match event.error with
    | some m =>
      es.publish (m, some ((providerErrorFromMessage m).getD (.other "provider error")))
    | none => es
  | _ => es

def EventStream.close (es : EventStream β) (now : Int) : EventStream β :=
  if es.closed then es
  else
    { es with closed := true }.publish
      ({ stopReason := .error, errorMessage := errStreamClosedWithoutTerminalEvent
         timestamp := now }, some (.other errStreamClosedWithoutTerminalEvent))

/-! ## What the providers share -/

/-- What comes of the request: it fails before there is a response, it is cancelled, the
response has another status than 2xx with the decoded error message, or it has a body, whose
reading may fail at the end. -/
inductive Response where
  | failed (message : String)
  | canceled
  | status (message : String)
  | body (bytes : Sse.Bytes) (readErr : Option String)

structure ProviderEndpoint where
  providerName : String

def requestCanceled : String := "request canceled"

/-- `runStream`: a provider's machine on the events of the body, as `decode` reads them. The
context is found cancelled before event `canceled`. -/
def runStream {ι σ : Type} (M : Machine ι σ (AssistantMessageEvent β) String)
    (decode : Sse.Bytes → ι) (init : σ) (canceled : Option Nat) :
    Response → Result σ (AssistantMessageEvent β) String
  | .failed message => ⟨[], init, some message⟩
  | .canceled => ⟨[], init, some requestCanceled⟩
  | .status message => ⟨[], init, some message⟩
  | .body bytes readErr =>
    let (events, err) := Sse.scan bytes readErr
    M.run (canceled.map (·, requestCanceled)) (err.map fun e => "sse scan: " ++ e.message) init
      (events.map (decode ·.data))

/-- The event of `sendErrorEvent`. -/
def errorEvent (endpoint : ProviderEndpoint) (model : Model) (now : Int) (message : String) :
    AssistantMessageEvent β where
  type := .error
  reason := some .error
  error := some
    { api := model.api, provider := endpoint.providerName, model := model.id
      stopReason := .error, errorMessage := message, timestamp := now }

/-- The goroutine of `Stream`, from a new stream to its `Close`. -/
def streamOf {σ : Type} (endpoint : ProviderEndpoint) (model : Model) (now : Int)
    (r : Result σ (AssistantMessageEvent β) String) : EventStream β :=
  let es := r.out.foldl EventStream.send {}
  let es := match r.error with
    | some message => es.send (errorEvent endpoint model now message)
    | none => es
  es.close now

/-- All events that the goroutine sends. -/
def sentEvents {σ : Type} (endpoint : ProviderEndpoint) (model : Model) (now : Int)
    (r : Result σ (AssistantMessageEvent β) String) : List (AssistantMessageEvent β) :=
  r.out ++ (r.error.map (errorEvent endpoint model now)).toList

theorem ch_publish (es : EventStream β) (r : StreamedMessage β × Option StreamError) :
    (es.publish r).ch = es.ch := by
  unfold EventStream.publish
  split <;> rfl

theorem ch_close (es : EventStream β) (now : Int) : (es.close now).ch = es.ch := by
  unfold EventStream.close
  split
  · rfl
  · exact ch_publish _ _

theorem ch_send (es : EventStream β) (e : AssistantMessageEvent β) :
    (es.send e).ch = es.ch ++ [e] := by
  unfold EventStream.send
  dsimp only
  split
  · split
    · exact ch_publish _ _
    · rfl
  · split
    · exact ch_publish _ _
    · rfl
  · rfl

theorem ch_foldl_send (events : List (AssistantMessageEvent β)) (es : EventStream β) :
    (events.foldl EventStream.send es).ch = es.ch ++ events := by
  induction events generalizing es with
  | nil => exact (append_nil _).symm
  | cons e events ih => rw [foldl_cons, ih, ch_send, append_assoc, singleton_append]

theorem streamOf_eq (endpoint : ProviderEndpoint) (model : Model) (now : Int)
    (r : Result σ (AssistantMessageEvent β) String) :
    streamOf endpoint model now r =
      ((sentEvents endpoint model now r).foldl EventStream.send {}).close now := by
  unfold streamOf sentEvents
  rw [foldl_append]
  cases r.error <;> rfl

theorem ch_streamOf (endpoint : ProviderEndpoint) (model : Model) (now : Int)
    (r : Result σ (AssistantMessageEvent β) String) :
    (streamOf endpoint model now r).ch = sentEvents endpoint model now r := by
  rw [streamOf_eq, ch_close, ch_foldl_send]
  rfl

/-! ## One terminal event -/

/-- `EventDone` or `EventError`. -/
def AssistantMessageEvent.terminal (e : AssistantMessageEvent β) : Bool :=
  e.type = .done || e.type = .error

/-- What `Send` gives to `Result` for the event. -/
def AssistantMessageEvent.returned (e : AssistantMessageEvent β) :
    Option (StreamedMessage β × Option StreamError) :=
  match e.type with
  | .done => e.message.map (·, none)
  | .error => e.error.map fun m =>
    (m, some ((providerErrorFromMessage m).getD (.other "provider error")))
  | _ => none

/-- The events end with their one terminal event, and it carries a message. -/
def TerminalLast (events : List (AssistantMessageEvent β)) : Prop :=
  ∃ before last, events = before ++ [last] ∧ (∀ e ∈ before, e.terminal = false) ∧
    last.terminal = true ∧ last.returned.isSome = true

/-- The stream is closed, its one terminal event is the last one, and `Result` returns the
message of that event, with an error exactly if it is an `EventError`. -/
def EventStream.OneTerminal (es : EventStream β) : Prop :=
  es.closed = true ∧ ∃ before last m err, es.ch = before ++ [last] ∧
    (∀ e ∈ before, e.terminal = false) ∧ es.result = some (m, err) ∧
    (last.type = .done ∧ last.message = some m ∧ err = none ∨
      last.type = .error ∧ last.error = some m ∧ err.isSome = true)

theorem send_eq (es : EventStream β) (e : AssistantMessageEvent β) :
    es.send e = e.returned.elim { es with ch := es.ch ++ [e] }
      { es with ch := es.ch ++ [e] }.publish := by
  unfold EventStream.send AssistantMessageEvent.returned
  cases e.type with
  | done => cases e.message <;> rfl
  | error => cases e.error <;> rfl
  | _ => rfl

theorem returned_plain (h : e.terminal = false) : e.returned = none := by
  unfold AssistantMessageEvent.terminal at h
  unfold AssistantMessageEvent.returned
  cases ht : e.type <;> simp [ht] at h ⊢

theorem foldl_send_plain (h : ∀ e ∈ events, e.terminal = false) (es : EventStream β) :
    events.foldl EventStream.send es = { es with ch := es.ch ++ events } := by
  induction events generalizing es with
  | nil => simp
  | cons e events ih =>
    obtain ⟨he, hrest⟩ := forall_mem_cons.mp h
    rw [foldl_cons, send_eq, returned_plain he, ih hrest]
    simp

theorem returned_cases (h : e.returned = some (m, err)) :
    e.type = .done ∧ e.message = some m ∧ err = none ∨
      e.type = .error ∧ e.error = some m ∧ err.isSome = true := by
  unfold AssistantMessageEvent.returned at h
  split at h
  · obtain ⟨m', hm, ⟨⟩⟩ := Option.map_eq_some_iff.mp h
    exact .inl ⟨‹_›, hm, rfl⟩
  · obtain ⟨m', hm, ⟨⟩⟩ := Option.map_eq_some_iff.mp h
    exact .inr ⟨‹_›, hm, rfl⟩
  · cases h

theorem TerminalLast.oneTerminal (h : TerminalLast events) (now : Int) :
    ((events.foldl EventStream.send {}).close now).OneTerminal := by
  obtain ⟨before, last, rfl, hbefore, -, hret⟩ := h
  obtain ⟨⟨m, err⟩, hret⟩ := Option.isSome_iff_exists.mp hret
  rw [foldl_append, foldl_send_plain hbefore, foldl_cons, foldl_nil, send_eq, hret]
  exact ⟨rfl, before, last, m, err, by simp [EventStream.close, EventStream.publish], hbefore,
    by simp [EventStream.close, EventStream.publish], returned_cases hret⟩

theorem EventStream.OneTerminal.countP {es : EventStream β} (h : es.OneTerminal) :
    es.ch.countP (·.terminal) = 1 := by
  obtain ⟨-, before, last, m, err, hch, hbefore, -, hlast⟩ := h
  have hlast' : last.terminal = true := by
    rcases hlast with ⟨ht, -⟩ | ⟨ht, -⟩ <;> simp [AssistantMessageEvent.terminal, ht]
  rw [hch, countP_append, countP_eq_zero.mpr fun e he => by simp [hbefore e he]]
  simp [hlast']

/-- A run that fails without having sent a terminal event. -/
theorem terminalLast_of_error (hr : r.error = some message) (hout : ∀ e ∈ r.out, e.terminal = false)
    (endpoint : ProviderEndpoint) (model : Model) (now : Int) :
    TerminalLast (sentEvents endpoint model now r) := by
  refine ⟨r.out, errorEvent endpoint model now message, ?_, hout, rfl, rfl⟩
  rw [sentEvents, hr]
  rfl

/-- A run that ends with its terminal event. -/
theorem terminalLast_of_done (hr : r.error = none) (hout : TerminalLast r.out)
    (endpoint : ProviderEndpoint) (model : Model) (now : Int) :
    TerminalLast (sentEvents endpoint model now r) := by
  rw [sentEvents, hr]
  simpa using hout

end FlexAgentRuntime.Ai
