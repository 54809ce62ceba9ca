import FlexAgentRuntime.Agent.JsonFields
import FlexAgentRuntime.Agent.ServiceExec

/-!
Events on the agent RPC: the conversions and receivers of `internal/rpc/codec/agent_map.go`
and the `JSONCodec` of the transport, on the events that `toAPIEvent` of
`internal/agent/service.go` puts on a stream.

The structs have no JSON tags, so that a struct is the object of its exported fields under
their names. Messages, content blocks and errors are values of interfaces with methods:
what is in such a field is written as any other value, but only `null` can be read back.
In a map of metadata every number is read as a `float64`. Copies are the identity on values.
-/

namespace FlexAgentRuntime.AgentRpc

open Ai AgentLoop Interleaving

/-! ## Values of type `any` -/

/-- What a map of metadata can hold; a `float64` is kept as its literal. -/
inductive Value where
  | null
  | bool (b : Bool)
  | int (n : Int)
  | float (literal : String)
  | str (s : String)
  | arr (items : List Value)
  | obj (fields : List (String × Value))

abbrev Metadata := List (String × Value)

mutual
def Value.marshal : Value → Json
  | .null => .null
  | .bool b => .bool b
  | .int n => jsonInt n
  | .float literal => .num literal
  | .str s => .str s
  | .arr items => .arr (marshalValues items)
  | .obj fields => .obj (marshalFields fields)

def marshalValues : List Value → List Json
  | [] => []
  | v :: vs => v.marshal :: marshalValues vs

def marshalFields : Metadata → Fields
  | [] => []
  | (key, v) :: fields => (key, v.marshal) :: marshalFields fields
end

mutual
def Value.unmarshal : Json → Value
  | .null => .null
  | .bool b => .bool b
  | .num literal => .float literal
  | .str s => .str s
  | .arr items => .arr (unmarshalValues items)
  | .obj fields => .obj (unmarshalFields fields)

def unmarshalValues : List Json → List Value
  | [] => []
  | v :: vs => Value.unmarshal v :: unmarshalValues vs

def unmarshalFields : Fields → Metadata
  | [] => []
  | (key, v) :: fields => (key, Value.unmarshal v) :: unmarshalFields fields
end

mutual
/-- A value as `encoding/json` reads it: there is no integer in it. -/
def Value.decoded : Value → Bool
  | .int _ => false
  | .arr items => decodedValues items
  | .obj fields => decodedFields fields
  | _ => true

def decodedValues : List Value → Bool
  | [] => true
  | v :: vs => v.decoded && decodedValues vs

def decodedFields : Metadata → Bool
  | [] => true
  | (_, v) :: fields => v.decoded && decodedFields fields
end

mutual
theorem Value.unmarshal_marshal : ∀ v : Value, Value.unmarshal v.marshal = v ↔ v.decoded = true
  | .null | .bool _ | .float _ | .str _ => by simp [Value.marshal, Value.unmarshal, Value.decoded]
  | .int n => by simp [Value.marshal, Value.unmarshal, Value.decoded, jsonInt]
  | .arr items => by
    simp only [Value.marshal, Value.unmarshal, Value.decoded, Value.arr.injEq]
    exact unmarshalValues_marshalValues items
  | .obj fields => by
    simp only [Value.marshal, Value.unmarshal, Value.decoded, Value.obj.injEq]
    exact unmarshalFields_marshalFields fields

theorem unmarshalValues_marshalValues : ∀ vs : List Value,
    unmarshalValues (marshalValues vs) = vs ↔ decodedValues vs = true
  | [] => by simp [marshalValues, unmarshalValues, decodedValues]
  | v :: vs => by
    simp only [marshalValues, unmarshalValues, decodedValues, List.cons.injEq, Bool.and_eq_true]
    exact and_congr v.unmarshal_marshal (unmarshalValues_marshalValues vs)

theorem unmarshalFields_marshalFields : ∀ fields : Metadata,
    unmarshalFields (marshalFields fields) = fields ↔ decodedFields fields = true
  | [] => by simp [marshalFields, unmarshalFields, decodedFields]
  | (key, v) :: fields => by
    simp only [marshalFields, unmarshalFields, decodedFields, List.cons.injEq,
      Prod.mk.injEq, true_and, Bool.and_eq_true]
    exact and_congr v.unmarshal_marshal (unmarshalFields_marshalFields fields)
end

/-! ## Events -/

/-- `agentapi.AgentMessage` and `agent.AgentMessage`, whose fields are the same. -/
structure AgentMessage where
  turn : Int
  message : Option Message
  createdAt : Int

/-- `agentapi.AgentToolResult` and `agent.AgentToolResult`. -/
structure AgentToolResult where
  content : List ContentBlock
  snapshotID : String := ""
  exitCode : Option Int := none
  isError : Bool := false
  metadata : Metadata := []

/-- `agentapi.AgentEvent`. A state that is not set is the empty string; `time` is `At`. -/
structure AgentEvent where
  type : AgentEventType
  sessionID : String := ""
  driverSessionID : String := ""
  state : Option AgentState := none
  turn : Int := 0
  message : Option AgentMessage := none
  assistant : Option AssistantMessage := none
  toolName : String := ""
  toolCallID : String := ""
  toolResult : Option AgentToolResult := none
  delta : String := ""
  controlMessage : String := ""
  errorMessage : String := ""
  time : Int := 0
  metadata : Metadata := []

/-- `agent.AgentEvent`, which also has an `Error`. -/
structure RuntimeEvent extends AgentEvent where
  error : Option String := none

structure AgentEventEnvelope where
  sessionID : String
  event : RuntimeEvent

/-- `toAPIEvent`. The event of the loop's model has no times and no metadata; they are
given here. -/
def toAPIEvent (time createdAt : Int) (metadata toolMetadata : Metadata)
    (evt : AgentLoop.AgentEvent) : AgentEvent where
  type := evt.type
  sessionID := evt.sessionID
  driverSessionID := evt.driverSessionID
  state := evt.state
  turn := evt.turn
  message := evt.message.map fun m =>
    { turn := m.turn, message := some m.message, createdAt := createdAt }
  assistant := evt.assistant
  toolName := evt.toolName
  toolCallID := evt.toolCallID
  toolResult := evt.toolResult.map fun r =>
    { content := r.content, snapshotID := r.snapshotID, exitCode := r.exitCode
      isError := r.isError, metadata := toolMetadata }
  delta := evt.delta
  controlMessage := evt.controlMessage
  errorMessage := evt.errorMessage
  time := time
  metadata := metadata

/-- `ToRuntimeEvent` copies every field and leaves `Error` nil. -/
def toRuntimeEvent (evt : AgentEvent) : RuntimeEvent := { toAgentEvent := evt }

/-- `FromRuntimeEvent` copies every field but `Error`. -/
def fromRuntimeEvent (evt : RuntimeEvent) : AgentEvent := evt.toAgentEvent

/-- `eventEnvelopeReceiver.Recv` on an event of its receiver. -/
def EventEnvelopeReceiver.recv (sessionID : String) (evt : AgentEvent) : AgentEventEnvelope :=
  let out := toRuntimeEvent evt
  let id := if sessionID = "" then evt.sessionID else sessionID
  ⟨id, if out.sessionID = "" then { out with sessionID := id } else out⟩

/-- `agentEventReceiver.Recv` on an envelope of its receiver. -/
def AgentEventReceiver.recv (env : AgentEventEnvelope) : AgentEvent :=
  let evt := fromRuntimeEvent env.event
  if evt.sessionID = "" then { evt with sessionID := env.sessionID } else evt

/-! ## `JSONCodec` -/

/-- `MarshalJSON` and `UnmarshalJSON` of `time.Time`: a text that names the instant. -/
structure TimeFormat where
  format : Int → String
  parse : String → Option Int
  parse_format : ∀ t, parse (format t) = some t

def TimeFormat.marshal (T : TimeFormat) (t : Int) : Json := .str (T.format t)

def TimeFormat.read (T : TimeFormat) : Option Json → Option Int
  | none | some .null => some 0
  | some (.str s) => T.parse s
  | _ => none

/-- A pointer, or an interface value. -/
def marshalPtr {α : Type} (marshal : α → Json) : Option α → Json
  | none => .null
  | some a => marshal a

def readPtr {α : Type} (unmarshal : Json → Option α) : Option Json → Option (Option α)
  | none | some .null => some none
  | some json => (unmarshal json).map some

/-- A field whose type is an interface with methods and whose value is nil. -/
def readInterface {α : Type} : Option Json → Option (Option α)
  | none | some .null => some none
  | _ => none

/-- A map that is nil is `null`. -/
def marshalMetadata (metadata : Metadata) : Json :=
  if metadata.isEmpty then .null else .obj (marshalFields metadata)

def readMetadata (json : Option Json) : Option Metadata := (readObject json).map unmarshalFields

def marshalBlock : ContentBlock → Json
  | .text text textSignature => marshalStruct
    [("Text", some (.str text)), ("TextSignature", some (.str textSignature))]
  | .thinking thinking thinkingSignature redacted => marshalStruct
    [("Thinking", some (.str thinking)), ("ThinkingSignature", some (.str thinkingSignature)),
      ("Redacted", some (.bool redacted))]
  | .image data mimeType => marshalStruct
    [("Data", some (.str data)), ("MimeType", some (.str mimeType))]
  | .toolCall call => marshalStruct
    [("ID", some (.str call.id)), ("Name", some (.str call.name)),
      ("Arguments", some (.obj call.arguments)),
      ("ThoughtSignature", some (.str call.thoughtSignature))]

/-- A slice of content blocks; a nil slice is `null`. -/
def marshalBlocks (blocks : List ContentBlock) : Json :=
  if blocks.isEmpty then .null else .arr (blocks.map marshalBlock)

/-- No block of the model is nil, and no other can be read. -/
def readBlocks : Option Json → Option (List ContentBlock) := readArray fun _ => none

def costFields (cost : UsageCost) : List (String × Option Json) := [
  ("Input", some (.num cost.input)),
  ("Output", some (.num cost.output)),
  ("CacheRead", some (.num cost.cacheRead)),
  ("CacheWrite", some (.num cost.cacheWrite)),
  ("Total", some (.num cost.total))]

def unmarshalCost (json : Option Json) : Option UsageCost := do
  let fields ← readObject json
  return { input := ← readFloat (fields.lookup "Input")
           output := ← readFloat (fields.lookup "Output")
           cacheRead := ← readFloat (fields.lookup "CacheRead")
           cacheWrite := ← readFloat (fields.lookup "CacheWrite")
           total := ← readFloat (fields.lookup "Total") }

def usageFields (usage : Usage) : List (String × Option Json) := [
  ("Input", some (jsonInt usage.input)),
  ("Output", some (jsonInt usage.output)),
  ("CacheRead", some (jsonInt usage.cacheRead)),
  ("CacheWrite", some (jsonInt usage.cacheWrite)),
  ("TotalTokens", some (jsonInt usage.totalTokens)),
  ("Cost", some (marshalStruct (costFields usage.cost)))]

def unmarshalUsage (json : Option Json) : Option Usage := do
  let fields ← readObject json
  return { input := ← readInt (fields.lookup "Input")
           output := ← readInt (fields.lookup "Output")
           cacheRead := ← readInt (fields.lookup "CacheRead")
           cacheWrite := ← readInt (fields.lookup "CacheWrite")
           totalTokens := ← readInt (fields.lookup "TotalTokens")
           cost := ← unmarshalCost (fields.lookup "Cost") }

def assistantFields (m : AssistantMessage) : List (String × Option Json) := [
  ("Content", some (marshalBlocks m.content)),
  ("API", some (.str m.api)),
  ("Provider", some (.str m.provider)),
  ("Model", some (.str m.model)),
  ("Usage", some (marshalStruct (usageFields m.usage))),
  ("StopReason", some (.str (StopReason.name m.stopReason))),
  ("ErrorMessage", some (.str m.errorMessage)),
  ("Timestamp", some (jsonInt m.timestamp))]

def marshalAssistant (m : AssistantMessage) : Json := marshalStruct (assistantFields m)

def unmarshalAssistant (json : Json) : Option AssistantMessage := do
  let fields ← readObject (some json)
  return { content := ← readBlocks (fields.lookup "Content")
           api := ← readString (fields.lookup "API")
           provider := ← readString (fields.lookup "Provider")
           model := ← readString (fields.lookup "Model")
           usage := ← unmarshalUsage (fields.lookup "Usage")
           stopReason := ← (readString (fields.lookup "StopReason")).bind StopReason.ofName
           errorMessage := ← readString (fields.lookup "ErrorMessage")
           timestamp := ← readInt (fields.lookup "Timestamp") }

def marshalMessage : Message → Json
  | .user content timestamp => marshalStruct
    [("Content", some (marshalBlocks content)), ("Timestamp", some (jsonInt timestamp))]
  | .assistant m => marshalAssistant m
  | .toolResult m => marshalStruct
    [("ToolCallID", some (.str m.toolCallID)), ("ToolName", some (.str m.toolName)),
      ("Content", some (marshalBlocks m.content)), ("IsError", some (.bool m.isError)),
      ("Timestamp", some (jsonInt m.timestamp))]

def AgentToolResult.fields (r : AgentToolResult) : List (String × Option Json) := [
  ("Content", some (marshalBlocks r.content)),
  ("SnapshotID", some (.str r.snapshotID)),
  ("ExitCode", some (marshalPtr jsonInt r.exitCode)),
  ("IsError", some (.bool r.isError)),
  ("Metadata", some (marshalMetadata r.metadata))]

def AgentToolResult.marshal (r : AgentToolResult) : Json := marshalStruct r.fields

def AgentToolResult.unmarshal (json : Json) : Option AgentToolResult := do
  let fields ← readObject (some json)
  return { content := ← readBlocks (fields.lookup "Content")
           snapshotID := ← readString (fields.lookup "SnapshotID")
           exitCode := ← readPtr (fun v => readInt (some v)) (fields.lookup "ExitCode")
           isError := ← readBool (fields.lookup "IsError")
           metadata := ← readMetadata (fields.lookup "Metadata") }

def eventTypeName : AgentEventType → String
  | .sessionStarted => "session_started"
  | .sessionEnded => "session_ended"
  | .turnStarted => "turn_started"
  | .turnCompleted => "turn_completed"
  | .agentMessageDelta => "agent_message_delta"
  | .agentMessageCompleted => "agent_message_completed"
  | .thinkingDelta => "thinking_delta"
  | .toolStarted => "tool_started"
  | .toolUpdate => "tool_update"
  | .toolCompleted => "tool_completed"
  | .stateChange => "state_change"
  | .steeringApplied => "steering_applied"
  | .followUpEnqueued => "followup_enqueued"
  | .aborted => "aborted"
  | .driverError => "driver_error"
  | .providerError => "provider_error"
  | .toolError => "tool_error"
  | .terminalToolCompleted => "terminal_tool_completed"

def eventTypes : List AgentEventType :=
  [.sessionStarted, .sessionEnded, .turnStarted, .turnCompleted, .agentMessageDelta,
    .agentMessageCompleted, .thinkingDelta, .toolStarted, .toolUpdate, .toolCompleted,
    .stateChange, .steeringApplied, .followUpEnqueued, .aborted, .driverError, .providerError,
    .toolError, .terminalToolCompleted]

def eventTypeOfName (name : String) : Option AgentEventType :=
  eventTypes.find? fun type => eventTypeName type = name

def stateName (state : Option AgentState) : String := state.elim "" AgentState.name

def stateOfName (name : String) : Option (Option AgentState) :=
  [none, some .idle, some .streaming, some .toolExecution, some .waitingFollowUp,
    some .exited].find? fun state => stateName state = name

section Structs

variable (T : TimeFormat)

def AgentMessage.fields (m : AgentMessage) : List (String × Option Json) := [
  ("Turn", some (jsonInt m.turn)),
  ("Message", some (marshalPtr marshalMessage m.message)),
  ("CreatedAt", some (T.marshal m.createdAt))]

def AgentMessage.marshal (m : AgentMessage) : Json := marshalStruct (m.fields T)

def AgentMessage.unmarshal (json : Json) : Option AgentMessage := do
  let fields ← readObject (some json)
  return { turn := ← readInt (fields.lookup "Turn")
           message := ← readInterface (fields.lookup "Message")
           createdAt := ← T.read (fields.lookup "CreatedAt") }

/-- An error without exported fields is an empty object. -/
def RuntimeEvent.fields (e : RuntimeEvent) : List (String × Option Json) := [
  ("Type", some (.str (eventTypeName e.type))),
  ("SessionID", some (.str e.sessionID)),
  ("DriverSessionID", some (.str e.driverSessionID)),
  ("State", some (.str (stateName e.state))),
  ("Turn", some (jsonInt e.turn)),
  ("Message", some (marshalPtr (AgentMessage.marshal T) e.message)),
  ("Assistant", some (marshalPtr marshalAssistant e.assistant)),
  ("ToolName", some (.str e.toolName)),
  ("ToolCallID", some (.str e.toolCallID)),
  ("ToolResult", some (marshalPtr AgentToolResult.marshal e.toolResult)),
  ("Delta", some (.str e.delta)),
  ("ControlMessage", some (.str e.controlMessage)),
  ("Error", some (marshalPtr (fun _ => .obj []) e.error)),
  ("ErrorMessage", some (.str e.errorMessage)),
  ("At", some (T.marshal e.time)),
  ("Metadata", some (marshalMetadata e.metadata))]

def RuntimeEvent.marshal (e : RuntimeEvent) : Json := marshalStruct (e.fields T)

def RuntimeEvent.unmarshal (json : Option Json) : Option RuntimeEvent := do
  let fields ← readObject json
  return { type := ← (readString (fields.lookup "Type")).bind eventTypeOfName
           sessionID := ← readString (fields.lookup "SessionID")
           driverSessionID := ← readString (fields.lookup "DriverSessionID")
           state := ← (readString (fields.lookup "State")).bind stateOfName
           turn := ← readInt (fields.lookup "Turn")
           message := ← readPtr (AgentMessage.unmarshal T) (fields.lookup "Message")
           assistant := ← readPtr unmarshalAssistant (fields.lookup "Assistant")
           toolName := ← readString (fields.lookup "ToolName")
           toolCallID := ← readString (fields.lookup "ToolCallID")
           toolResult := ← readPtr AgentToolResult.unmarshal (fields.lookup "ToolResult")
           delta := ← readString (fields.lookup "Delta")
           controlMessage := ← readString (fields.lookup "ControlMessage")
           error := ← readInterface (fields.lookup "Error")
           errorMessage := ← readString (fields.lookup "ErrorMessage")
           time := ← T.read (fields.lookup "At")
           metadata := ← readMetadata (fields.lookup "Metadata") }

def AgentEventEnvelope.fields (env : AgentEventEnvelope) : List (String × Option Json) := [
  ("SessionID", some (.str env.sessionID)),
  ("Event", some (env.event.marshal T))]

def AgentEventEnvelope.marshal (env : AgentEventEnvelope) : Json := marshalStruct (env.fields T)

def AgentEventEnvelope.unmarshal (json : Json) : Option AgentEventEnvelope := do
  let fields ← readObject (some json)
  return { sessionID := ← readString (fields.lookup "SessionID")
           event := ← RuntimeEvent.unmarshal T (fields.lookup "Event") }

/-- What the client's stream gives for an event on the server's stream of session `id`; `none`
when the envelope cannot be read and the stream fails. -/
def transmit (id : String) (evt : AgentEvent) : Option AgentEvent :=
  (AgentEventEnvelope.unmarshal T ((EventEnvelopeReceiver.recv id evt).marshal T)).map
    AgentEventReceiver.recv

end Structs

/-! ## What comes back -/

variable {α β : Type} {x : Option α} {f : α → Option β}

theorem eventTypeOfName_eventTypeName (type : AgentEventType) :
    eventTypeOfName (eventTypeName type) = some type := by
  cases type <;> decide

theorem stateOfName_stateName (state : Option AgentState) :
    stateOfName (stateName state) = some state := by
  cases state with
  | none => decide
  | some state => cases state <;> decide

theorem readBlocks_marshalBlocks (blocks : List ContentBlock) :
    readBlocks (some (marshalBlocks blocks)) = if blocks.isEmpty then some blocks else none := by
  cases blocks with
  | nil | cons block blocks => rfl

theorem readPtr_int (n : Option Int) :
    readPtr (fun v => readInt (some v)) (some (marshalPtr jsonInt n)) = some n := by
  cases n with
  | none => rfl
  | some n => exact congrArg (Option.map some) (readInt_jsonInt n)

theorem readMetadata_marshalMetadata (metadata : Metadata) :
    readMetadata (some (marshalMetadata metadata)) =
      some (unmarshalFields (marshalFields metadata)) := by
  cases metadata with
  | nil | cons field metadata => rfl

theorem unmarshalCost_costFields (cost : UsageCost) :
    unmarshalCost (some (marshalStruct (costFields cost))) = some cost := by
  have hnodup : ((costFields cost).map (·.1)).Nodup := by simp [costFields]
  simp only [unmarshalCost, bind_readObject, lookup_presentFields hnodup]
  simp [costFields, List.lookup_cons]

theorem unmarshalUsage_usageFields (usage : Usage) :
    unmarshalUsage (some (marshalStruct (usageFields usage))) = some usage := by
  have hnodup : ((usageFields usage).map (·.1)).Nodup := by simp [usageFields]
  simp only [unmarshalUsage, bind_readObject, lookup_presentFields hnodup]
  simp [usageFields, List.lookup_cons, unmarshalCost_costFields]

/-- An assistant message is read back if it has no content. -/
theorem unmarshalAssistant_marshalAssistant (m : AssistantMessage) :
    unmarshalAssistant (marshalAssistant m) = if m.content.isEmpty then some m else none := by
  have hnodup : ((assistantFields m).map (·.1)).Nodup := by simp [assistantFields]
  simp only [unmarshalAssistant, marshalAssistant, bind_readObject, lookup_presentFields hnodup]
  by_cases hcontent : m.content.isEmpty <;>
    simp [assistantFields, List.lookup_cons, readBlocks_marshalBlocks, hcontent,
      unmarshalUsage_usageFields, ofName_name]

/-- Integers in the metadata become floats. -/
def AgentToolResult.reread (r : AgentToolResult) : AgentToolResult :=
  { r with metadata := unmarshalFields (marshalFields r.metadata) }

theorem AgentToolResult.unmarshal_marshal (r : AgentToolResult) :
    AgentToolResult.unmarshal r.marshal =
      if r.content.isEmpty then some r.reread else none := by
  have hnodup : (r.fields.map (·.1)).Nodup := by simp [AgentToolResult.fields]
  simp only [AgentToolResult.unmarshal, AgentToolResult.marshal, bind_readObject,
    lookup_presentFields hnodup]
  by_cases hcontent : r.content.isEmpty <;>
    simp [AgentToolResult.fields, List.lookup_cons, readBlocks_marshalBlocks, hcontent,
      readPtr_int, readMetadata_marshalMetadata, AgentToolResult.reread]

theorem TimeFormat.read_marshal (T : TimeFormat) (t : Int) :
    T.read (some (T.marshal t)) = some t :=
  T.parse_format t

theorem readInterface_marshalMessage (message : Option Message) :
    readInterface (some (marshalPtr marshalMessage message)) =
      if message.isNone then some message else none := by
  cases message with
  | none => rfl
  | some message => cases message <;> rfl

theorem AgentMessage.unmarshal_marshal (T : TimeFormat) (m : AgentMessage) :
    AgentMessage.unmarshal T (m.marshal T) = if m.message.isNone then some m else none := by
  have hnodup : ((m.fields T).map (·.1)).Nodup := by simp [AgentMessage.fields]
  simp only [AgentMessage.unmarshal, AgentMessage.marshal, bind_readObject,
    lookup_presentFields hnodup]
  by_cases hmessage : m.message.isNone <;>
    simp [AgentMessage.fields, List.lookup_cons, readInterface_marshalMessage, hmessage,
      T.read_marshal]

theorem readPtr_marshalPtr {fields : α → List (String × Option Json)} {unmarshal : Json → Option α}
    {ok : α → Bool} {f : α → α}
    (h : ∀ a, unmarshal (marshalStruct (fields a)) = if ok a then some (f a) else none)
    (a : Option α) :
    readPtr unmarshal (some (marshalPtr (fun a => marshalStruct (fields a)) a)) =
      if a.all ok then some (a.map f) else none := by
  cases a with
  | none => rfl
  | some a =>
    show (unmarshal (marshalStruct (fields a))).map some = if ok a then _ else _
    rw [h a]
    cases ok a <;> rfl

/-- Nothing in the event is behind an interface that has methods. -/
def AgentEvent.readable (evt : AgentEvent) : Bool :=
  evt.message.all (·.message.isNone) && evt.assistant.all (·.content.isEmpty) &&
    evt.toolResult.all (·.content.isEmpty)

def AgentEvent.reread (evt : AgentEvent) : AgentEvent :=
  { evt with
    toolResult := evt.toolResult.map AgentToolResult.reread
    metadata := unmarshalFields (marshalFields evt.metadata) }

theorem bind_of_some (hx : x = some a) (h : f a = r) : (x >>= f) = r := by
  rw [hx]
  exact h

theorem bind_of_none (hx : x = none) : (x >>= f) = none := by
  rw [hx]
  rfl

theorem RuntimeEvent.unmarshal_marshal (T : TimeFormat) (evt : AgentEvent) :
    RuntimeEvent.unmarshal T (some ((toRuntimeEvent evt).marshal T)) =
      if evt.readable then some (toRuntimeEvent evt.reread) else none := by
  have hmessage := readPtr_marshalPtr (f := id) (AgentMessage.unmarshal_marshal T) evt.message
  have hassistant := readPtr_marshalPtr (f := id) unmarshalAssistant_marshalAssistant evt.assistant
  have hresult := readPtr_marshalPtr AgentToolResult.unmarshal_marshal evt.toolResult
  unfold RuntimeEvent.unmarshal
  refine bind_of_some rfl ?_
  refine bind_of_some (eventTypeOfName_eventTypeName evt.type) ?_
  refine bind_of_some (readString_str evt.sessionID) ?_
  refine bind_of_some (readString_str evt.driverSessionID) ?_
  refine bind_of_some (stateOfName_stateName evt.state) ?_
  refine bind_of_some (readInt_jsonInt evt.turn) ?_
  -- the three fields with an interface in them are the ones that can fail
  by_cases hm : evt.message.all (·.message.isNone) = true
  · refine bind_of_some (hmessage.trans (if_pos hm)) ?_
    by_cases ha : evt.assistant.all (·.content.isEmpty) = true
    · refine bind_of_some (hassistant.trans (if_pos ha)) ?_
      refine bind_of_some (readString_str evt.toolName) ?_
      refine bind_of_some (readString_str evt.toolCallID) ?_
      by_cases hr : evt.toolResult.all (·.content.isEmpty) = true
      · refine bind_of_some (hresult.trans (if_pos hr)) ?_
        refine bind_of_some (readString_str evt.delta) ?_
        refine bind_of_some (readString_str evt.controlMessage) ?_
        refine bind_of_some (a := none) rfl ?_
        refine bind_of_some (readString_str evt.errorMessage) ?_
        refine bind_of_some (T.read_marshal evt.time) ?_
        refine bind_of_some (readMetadata_marshalMetadata evt.metadata) ?_
        simp [AgentEvent.readable, hm, ha, hr, AgentEvent.reread, toRuntimeEvent]
      · refine (bind_of_none (hresult.trans (if_neg hr))).trans ?_
        simp [AgentEvent.readable, hr]
    · refine (bind_of_none (hassistant.trans (if_neg ha))).trans ?_
      simp [AgentEvent.readable, ha]
  · refine (bind_of_none (hmessage.trans (if_neg hm))).trans ?_
    simp [AgentEvent.readable, hm]

theorem AgentEventEnvelope.unmarshal_marshal (T : TimeFormat) (id : String) (evt : AgentEvent) :
    AgentEventEnvelope.unmarshal T (AgentEventEnvelope.marshal T ⟨id, toRuntimeEvent evt⟩) =
      if evt.readable then some ⟨id, toRuntimeEvent evt.reread⟩ else none := by
  unfold AgentEventEnvelope.unmarshal
  refine bind_of_some rfl ?_
  refine bind_of_some (readString_str id) ?_
  by_cases hr : evt.readable = true
  · refine bind_of_some ((RuntimeEvent.unmarshal_marshal T evt).trans (if_pos hr)) ?_
    rw [if_pos hr]
    rfl
  · refine (bind_of_none ((RuntimeEvent.unmarshal_marshal T evt).trans (if_neg hr))).trans ?_
    rw [if_neg hr]

/-- Nothing in the event is behind an interface that has methods, and there is no integer in
its metadata. -/
def AgentEvent.portable (evt : AgentEvent) : Bool :=
  evt.readable && evt.toolResult.all (decodedFields ·.metadata) && decodedFields evt.metadata

theorem AgentToolResult.reread_eq_iff (r : AgentToolResult) :
    r.reread = r ↔ decodedFields r.metadata = true := by
  rw [← unmarshalFields_marshalFields]
  obtain ⟨content, snapshotID, exitCode, isError, metadata⟩ := r
  simp [AgentToolResult.reread]

theorem AgentEvent.reread_eq_iff (evt : AgentEvent) : evt.reread = evt ↔
    evt.toolResult.all (decodedFields ·.metadata) = true ∧ decodedFields evt.metadata = true := by
  have hresult : evt.toolResult.map AgentToolResult.reread = evt.toolResult ↔
      evt.toolResult.all (decodedFields ·.metadata) = true := by
    cases evt.toolResult with
    | none => simp
    | some r => simp [AgentToolResult.reread_eq_iff]
  rw [← unmarshalFields_marshalFields, ← hresult]
  obtain ⟨type, sessionID, driverSessionID, state, turn, message, assistant, toolName, toolCallID,
    toolResult, delta, controlMessage, errorMessage, time, metadata⟩ := evt
  simp [AgentEvent.reread]

theorem received_eq_iff (evt : AgentEvent) :
    (if evt.readable then some evt.reread else none) = some evt ↔ evt.portable = true := by
  by_cases hr : evt.readable = true
  · rw [if_pos hr, Option.some.injEq, evt.reread_eq_iff]
    simp [AgentEvent.portable, hr]
  · rw [if_neg hr]
    simp [AgentEvent.portable, hr]

theorem transmit_eq (T : TimeFormat) (id : String) (hid : evt.sessionID ≠ "") :
    transmit T id evt = if evt.readable then some evt.reread else none := by
  have henv : EventEnvelopeReceiver.recv id evt =
      ⟨if id = "" then evt.sessionID else id, toRuntimeEvent evt⟩ := by
    simp [EventEnvelopeReceiver.recv, toRuntimeEvent, hid]
  have hrecv : ∀ env : String, AgentEventReceiver.recv ⟨env, toRuntimeEvent evt.reread⟩ =
      evt.reread := fun _ => if_neg hid
  rw [transmit, henv, AgentEventEnvelope.unmarshal_marshal]
  by_cases hr : evt.readable = true
  · rw [if_pos hr, if_pos hr, Option.map_some, hrecv]
  · rw [if_neg hr, if_neg hr, Option.map_none]

/-- An event comes through the conversions and the codec as it was exactly if nothing in it is
behind an interface that has methods and its metadata holds no integer; so it does through the
two receivers when it names its session. -/
theorem events_survive_rpc (T : TimeFormat) (id : String) (evt : AgentEvent) :
    ((AgentEventEnvelope.unmarshal T (AgentEventEnvelope.marshal T ⟨id, toRuntimeEvent evt⟩)).map
        (fun env => fromRuntimeEvent env.event) = some evt ↔ evt.portable = true) ∧
      (evt.sessionID ≠ "" → (transmit T id evt = some evt ↔ evt.portable = true)) := by
  constructor
  · rw [AgentEventEnvelope.unmarshal_marshal, ← received_eq_iff]
    by_cases hr : evt.readable = true
    · rw [if_pos hr, if_pos hr]
      exact Iff.rfl
    · rw [if_neg hr, if_neg hr, Option.map_none]
  · intro hid
    rw [transmit_eq T id hid]
    exact received_eq_iff evt

/-- Instants by their number. -/
def decimalTime : TimeFormat := ⟨Int.repr, String.toInt?, Int.toInt?_repr⟩

theorem events_survive_rpc_tool_started :
    let evt : AgentEvent := { type := .toolStarted, sessionID := "s", turn := 1
                              toolName := "bash", toolCallID := "call_1", time := 7 }
    transmit decimalTime "s" evt = some evt := by
  intro evt
  exact ((events_survive_rpc decimalTime "s" evt).2 (by decide)).mpr (by decide)

/-- A model's answer is on the stream of `SendMessage`, and its envelope cannot be read. -/
theorem completed_message_fails_stream : ∃ c evt,
    Reach (machine startEntry) Monitor.free () (initialConfig false 0) () c ∧
      evt ∈ (c.state.recvs 0).ch ∧ evt.type = .agentMessageCompleted ∧ evt.sessionID = "s" ∧
      ∀ T id time createdAt metadata toolMetadata,
        transmit T id (toAPIEvent time createdAt metadata toolMetadata evt) = none := by
  obtain ⟨c, hr, evt, hevt, htype, hid, hmessage⟩ : ∃ c,
      Reach (machine startEntry) Monitor.free () (initialConfig false 0) () c ∧
        ∃ evt ∈ (c.state.recvs 0).ch, evt.type = .agentMessageCompleted ∧
          evt.sessionID = "s" ∧ evt.message.isSome = true :=
    Machine.follow_state Choice.default [.call (.svc (.createSession ⟨"s", .native, []⟩)), .go 0 1,
      .call (.svc (.sendMessage "s" "hi")), .go 1 31, .go 2 48]
  refine ⟨c, evt, hr, hevt, htype, hid, ?_⟩
  intro T id time createdAt metadata toolMetadata
  have hname : (toAPIEvent time createdAt metadata toolMetadata evt).sessionID ≠ "" := by
    show evt.sessionID ≠ ""
    rw [hid]
    decide
  have hread : (toAPIEvent time createdAt metadata toolMetadata evt).readable = false := by
    obtain ⟨m, hm⟩ := Option.isSome_iff_exists.mp hmessage
    simp [AgentEvent.readable, toAPIEvent, hm]
  rw [transmit_eq T id hname, hread]
  rfl

end FlexAgentRuntime.AgentRpc
