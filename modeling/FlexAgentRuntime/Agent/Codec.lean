import Mathlib.Data.List.Forall2
import FlexAgentRuntime.Agent.Types

/-!
The record format of a conversation log, `internal/agent/api/codec.go`.

`json.Marshal` and `json.Unmarshal` are modelled between the payload structs and
JSON values: a struct is the object of its fields, in order, without the empty
ones that are tagged `omitempty`; a field that is absent or null is read as its
zero value. The text of a JSON value is not modelled. A nil slice or map and an
empty one are the same, and a stop reason is one of the five constants.
-/

namespace FlexAgentRuntime.AgentLoop

open Ai

/-! ## `encoding/json` on structs -/

abbrev Fields := List (String × Json)

/-- A field tagged `omitempty`. -/
def omitEmpty (empty : Bool) (value : Json) : Option Json := if empty then none else some value

def presentFields (fields : List (String × Option Json)) : Fields :=
  fields.filterMap fun (name, value) => value.map fun v => (name, v)

def marshalStruct (fields : List (String × Option Json)) : Json := .obj (presentFields fields)

def jsonInt (n : Int) : Json := .num n.repr

def readString : Option Json → Option String
  | none | some .null => some ""
  | some (.str s) => some s
  | _ => none

def readBool : Option Json → Option Bool
  | none | some .null => some false
  | some (.bool b) => some b
  | _ => none

def readInt : Option Json → Option Int
  | none | some .null => some 0
  | some (.num literal) => literal.toInt?
  | _ => none

def readFloat : Option Json → Option String
  | none | some .null => some "0"
  | some (.num literal) => some literal
  | _ => none

/-- The fields of a struct; of a field that is a struct when it may be absent. -/
def readObject : Option Json → Option Fields
  | none | some .null => some []
  | some (.obj fields) => some fields
  | _ => none

def readArray {α : Type} (read : Json → Option α) : Option Json → Option (List α)
  | none | some .null => some []
  | some (.arr items) => items.mapM read
  | _ => none

/-! ## Payloads -/

structure UserRecordContent where
  text : String
  hasTextBlock : Bool
  timestamp : Int

structure RecordContentBlock where
  type : String
  text : String := ""
  thinking : String := ""
  signature : String := ""
  redacted : Bool := false
  id : String := ""
  name : String := ""
  input : Option Json := none
  thoughtSignature : String := ""
  data : String := ""
  mimeType : String := ""

/-- `assistantUsageRecord` with its cost; the conversions from and to `ai.Usage`
copy the fields one by one. -/
structure AssistantRecordContent where
  contentBlocks : List RecordContentBlock
  model : String
  stopReason : String
  errorMessage : String
  usage : Usage
  timestamp : Int

structure ToolResultRecordContent where
  toolCallID : String
  toolName : String
  content : List RecordContentBlock
  isError : Bool
  timestamp : Int

def UserRecordContent.fields (p : UserRecordContent) : List (String × Option Json) := [
  ("text", some (.str p.text)),
  ("has_text_block", omitEmpty (!p.hasTextBlock) (.bool p.hasTextBlock)),
  ("timestamp", omitEmpty (p.timestamp = 0) (jsonInt p.timestamp))]

def UserRecordContent.marshal (p : UserRecordContent) : Json := marshalStruct p.fields

def UserRecordContent.unmarshal (json : Json) : Option UserRecordContent := do
  let fields ← readObject (some json)
  return { text := ← readString (fields.lookup "text")
           hasTextBlock := ← readBool (fields.lookup "has_text_block")
           timestamp := ← readInt (fields.lookup "timestamp") }

def RecordContentBlock.fields (b : RecordContentBlock) : List (String × Option Json) := [
  ("type", some (.str b.type)),
  ("text", omitEmpty (b.text = "") (.str b.text)),
  ("thinking", omitEmpty (b.thinking = "") (.str b.thinking)),
  ("signature", omitEmpty (b.signature = "") (.str b.signature)),
  ("redacted", omitEmpty (!b.redacted) (.bool b.redacted)),
  ("id", omitEmpty (b.id = "") (.str b.id)),
  ("name", omitEmpty (b.name = "") (.str b.name)),
  ("input", b.input),
  ("thought_signature", omitEmpty (b.thoughtSignature = "") (.str b.thoughtSignature)),
  ("data", omitEmpty (b.data = "") (.str b.data)),
  ("mime_type", omitEmpty (b.mimeType = "") (.str b.mimeType))]

def RecordContentBlock.marshal (b : RecordContentBlock) : Json := marshalStruct b.fields

def RecordContentBlock.unmarshal (json : Json) : Option RecordContentBlock := do
  let fields ← readObject (some json)
  return { type := ← readString (fields.lookup "type")
           text := ← readString (fields.lookup "text")
           thinking := ← readString (fields.lookup "thinking")
           signature := ← readString (fields.lookup "signature")
           redacted := ← readBool (fields.lookup "redacted")
           id := ← readString (fields.lookup "id")
           name := ← readString (fields.lookup "name")
           input := fields.lookup "input"
           thoughtSignature := ← readString (fields.lookup "thought_signature")
           data := ← readString (fields.lookup "data")
           mimeType := ← readString (fields.lookup "mime_type") }

/-- A nil slice is `null`. -/
def marshalBlocks (blocks : List RecordContentBlock) : Json :=
  if blocks.isEmpty then .null else .arr (blocks.map RecordContentBlock.marshal)

/-- `assistantUsageCostRecord`. -/
def costFields (cost : UsageCost) : List (String × Option Json) := [
  ("input", some (.num cost.input)),
  ("output", some (.num cost.output)),
  ("cache_read", some (.num cost.cacheRead)),
  ("cache_write", some (.num cost.cacheWrite)),
  ("total", some (.num cost.total))]

def marshalCost (cost : UsageCost) : Json := marshalStruct (costFields cost)

def unmarshalCost (json : Option Json) : Option UsageCost := do
  let fields ← readObject json
  return { input := ← readFloat (fields.lookup "input")
           output := ← readFloat (fields.lookup "output")
           cacheRead := ← readFloat (fields.lookup "cache_read")
           cacheWrite := ← readFloat (fields.lookup "cache_write")
           total := ← readFloat (fields.lookup "total") }

/-- `assistantUsageRecord`. -/
def usageFields (usage : Usage) : List (String × Option Json) := [
  ("input_tokens", some (jsonInt usage.input)),
  ("output_tokens", some (jsonInt usage.output)),
  ("cache_read_tokens", omitEmpty (usage.cacheRead = 0) (jsonInt usage.cacheRead)),
  ("cache_write_tokens", omitEmpty (usage.cacheWrite = 0) (jsonInt usage.cacheWrite)),
  ("total_tokens", omitEmpty (usage.totalTokens = 0) (jsonInt usage.totalTokens)),
  ("cost", some (marshalCost usage.cost))]

def marshalUsage (usage : Usage) : Json := marshalStruct (usageFields usage)

def unmarshalUsage (json : Option Json) : Option Usage := do
  let fields ← readObject json
  return { input := ← readInt (fields.lookup "input_tokens")
           output := ← readInt (fields.lookup "output_tokens")
           cacheRead := ← readInt (fields.lookup "cache_read_tokens")
           cacheWrite := ← readInt (fields.lookup "cache_write_tokens")
           totalTokens := ← readInt (fields.lookup "total_tokens")
           cost := ← unmarshalCost (fields.lookup "cost") }

def AssistantRecordContent.fields (p : AssistantRecordContent) : List (String × Option Json) := [
  ("content_blocks", some (marshalBlocks p.contentBlocks)),
  ("model", omitEmpty (p.model = "") (.str p.model)),
  ("stop_reason", omitEmpty (p.stopReason = "") (.str p.stopReason)),
  ("error_message", omitEmpty (p.errorMessage = "") (.str p.errorMessage)),
  ("usage", some (marshalUsage p.usage)),
  ("timestamp", omitEmpty (p.timestamp = 0) (jsonInt p.timestamp))]

def AssistantRecordContent.marshal (p : AssistantRecordContent) : Json := marshalStruct p.fields

def AssistantRecordContent.unmarshal (json : Json) : Option AssistantRecordContent := do
  let fields ← readObject (some json)
  return { contentBlocks :=
             ← readArray RecordContentBlock.unmarshal (fields.lookup "content_blocks")
           model := ← readString (fields.lookup "model")
           stopReason := ← readString (fields.lookup "stop_reason")
           errorMessage := ← readString (fields.lookup "error_message")
           usage := ← unmarshalUsage (fields.lookup "usage")
           timestamp := ← readInt (fields.lookup "timestamp") }

def ToolResultRecordContent.fields (p : ToolResultRecordContent) : List (String × Option Json) := [
  ("tool_call_id", some (.str p.toolCallID)),
  ("tool_name", some (.str p.toolName)),
  ("content", some (marshalBlocks p.content)),
  ("is_error", some (.bool p.isError)),
  ("timestamp", omitEmpty (p.timestamp = 0) (jsonInt p.timestamp))]

def ToolResultRecordContent.marshal (p : ToolResultRecordContent) : Json := marshalStruct p.fields

def ToolResultRecordContent.unmarshal (json : Json) : Option ToolResultRecordContent := do
  let fields ← readObject (some json)
  return { toolCallID := ← readString (fields.lookup "tool_call_id")
           toolName := ← readString (fields.lookup "tool_name")
           content := ← readArray RecordContentBlock.unmarshal (fields.lookup "content")
           isError := ← readBool (fields.lookup "is_error")
           timestamp := ← readInt (fields.lookup "timestamp") }

/-! ## Records -/

structure AgentMessageRecord where
  turn : Int
  role : String
  content : Json
  createdAt : Int

def agentMessageRoleUser := "user"
def agentMessageRoleAssistant := "assistant"
def agentMessageRoleToolResult := "tool_result"

/-- A type as `%T` prints it. -/
def typeName : ContentBlock → String
  | .text _ _ => "*ai.TextContent"
  | .thinking _ _ _ => "*ai.ThinkingContent"
  | .image _ _ => "*ai.ImageContent"
  | .toolCall _ => "*ai.ToolCall"

/-- `%q` of a text without characters to escape. -/
def quoted (s : String) : String := "\"" ++ s ++ "\""

/-- The text of an error of `encoding/json` is left out. -/
inductive CodecError where
  | unsupportedUserBlock (type : String)
  | unsupportedToolResultBlock (type : String)
  | unknownBlock (type : String)
  | unknownRole (role : String)
  | parse (what : String)

def CodecError.message : CodecError → String
  | .unsupportedUserBlock type => "unsupported user content block type " ++ type
  | .unsupportedToolResultBlock type => "unsupported tool_result content block type " ++ type
  | .unknownBlock type => "unknown content block type " ++ quoted type
  | .unknownRole role => "unknown record role " ++ quoted role
  | .parse what => "parse " ++ what

def StopReason.name : StopReason → String
  | .stop => "stop"
  | .length => "length"
  | .toolUse => "toolUse"
  | .error => "error"
  | .aborted => "aborted"

/-- `ai.StopReason(name)`. -/
def StopReason.ofName (name : String) : Option StopReason :=
  [.stop, .length, .toolUse, .error, .aborted].find? fun reason => StopReason.name reason = name

/-- The loop of `flattenUserText`. -/
def userTexts : List ContentBlock → Except CodecError (List String)
  | [] => .ok []
  | .text text _ :: blocks => do return text :: (← userTexts blocks)
  | block :: _ => .error (.unsupportedUserBlock (typeName block))

def flattenUserText (blocks : List ContentBlock) : Except CodecError String := do
  return "\n".intercalate (← userTexts blocks)

def toRecordBlock (allowThinkingAndToolUse : Bool) :
    ContentBlock → Except CodecError RecordContentBlock
  | .text text textSignature =>
    .ok { type := "text", text := text, signature := textSignature }
  | .image data mimeType => .ok { type := "image", data := data, mimeType := mimeType }
  | .thinking thinking thinkingSignature redacted =>
    if allowThinkingAndToolUse then
      .ok { type := "thinking", thinking := thinking, signature := thinkingSignature
            redacted := redacted }
    else .error (.unsupportedToolResultBlock "*ai.ThinkingContent")
  | .toolCall call =>
    if allowThinkingAndToolUse then
      .ok { type := "tool_use", id := call.id, name := call.name
            input := some (.obj call.arguments), thoughtSignature := call.thoughtSignature }
    else .error (.unsupportedToolResultBlock "*ai.ToolCall")

def toAssistantRecordBlocks (blocks : List ContentBlock) :
    Except CodecError (List RecordContentBlock) :=
  blocks.mapM (toRecordBlock true)

def toToolResultRecordBlocks (blocks : List ContentBlock) :
    Except CodecError (List RecordContentBlock) :=
  blocks.mapM (toRecordBlock false)

def fromRecordBlock (allowThinkingAndToolUse : Bool) (block : RecordContentBlock) :
    Except CodecError ContentBlock :=
  match block.type with
  | "text" => .ok (.text block.text block.signature)
  | "image" => .ok (.image block.data block.mimeType)
  | "thinking" =>
    if allowThinkingAndToolUse then
      .ok (.thinking block.thinking block.signature block.redacted)
    else .error (.unsupportedToolResultBlock (quoted block.type))
  | "tool_use" =>
    if allowThinkingAndToolUse then
      match readObject block.input with
      | some args => .ok (.toolCall ⟨block.id, block.name, args, block.thoughtSignature⟩)
      | none => .error (.parse "tool_use input")
    else .error (.unsupportedToolResultBlock (quoted block.type))
  | type => .error (.unknownBlock type)

def fromAssistantRecordBlocks (blocks : List RecordContentBlock) :
    Except CodecError (List ContentBlock) :=
  blocks.mapM (fromRecordBlock true)

def fromToolResultRecordBlocks (blocks : List RecordContentBlock) :
    Except CodecError (List ContentBlock) :=
  blocks.mapM (fromRecordBlock false)

/-- The role and the content of the record. -/
def messageToRecord : Message → Except CodecError (String × Json)
  | .user content timestamp => do
    let text ← flattenUserText content
    let payload : UserRecordContent :=
      { text := text, hasTextBlock := !content.isEmpty, timestamp := timestamp }
    return (agentMessageRoleUser, payload.marshal)
  | .assistant m => do
    let blocks ← toAssistantRecordBlocks m.content
    let payload : AssistantRecordContent :=
      { contentBlocks := blocks, model := m.model, stopReason := StopReason.name m.stopReason
        errorMessage := m.errorMessage, usage := m.usage, timestamp := m.timestamp }
    return (agentMessageRoleAssistant, payload.marshal)
  | .toolResult m => do
    let blocks ← toToolResultRecordBlocks m.content
    let payload : ToolResultRecordContent :=
      { toolCallID := m.toolCallID, toolName := m.toolName, content := blocks
        isError := m.isError, timestamp := m.timestamp }
    return (agentMessageRoleToolResult, payload.marshal)

def agentMessageToRecord (msg : AgentMessage) : Except CodecError AgentMessageRecord := do
  let (role, content) ← messageToRecord msg.message
  return { turn := msg.turn, role := role, content := content, createdAt := msg.createdAt }

/-- `json.Unmarshal` with its error wrapped. -/
def parsed {α : Type} (what : String) : Option α → Except CodecError α
  | some a => .ok a
  | none => .error (.parse what)

def recordToMessage (role : String) (content : Json) : Except CodecError Message :=
  if role = agentMessageRoleUser then do
    let payload ← parsed "user content" (UserRecordContent.unmarshal content)
    return .user (if payload.hasTextBlock then [.text payload.text ""] else []) payload.timestamp
  else if role = agentMessageRoleAssistant then do
    let payload ← parsed "assistant content" (AssistantRecordContent.unmarshal content)
    let content ← fromAssistantRecordBlocks payload.contentBlocks
    let stopReason ← parsed "assistant content" (StopReason.ofName payload.stopReason)
    return .assistant
      { content := content, model := payload.model, stopReason := stopReason
        errorMessage := payload.errorMessage, usage := payload.usage
        timestamp := payload.timestamp }
  else if role = agentMessageRoleToolResult then do
    let payload ← parsed "tool_result content" (ToolResultRecordContent.unmarshal content)
    let content ← fromToolResultRecordBlocks payload.content
    return .toolResult
      { toolCallID := payload.toolCallID, toolName := payload.toolName, content := content
        isError := payload.isError, timestamp := payload.timestamp }
  else .error (.unknownRole role)

def recordToAgentMessage (rec : AgentMessageRecord) : Except CodecError AgentMessage := do
  let message ← recordToMessage rec.role rec.content
  return { turn := rec.turn, message := message, createdAt := rec.createdAt }

theorem bind_eq_ok_iff {α β ε : Type} {x : Except ε α} {f : α → Except ε β} {b : β} :
    (x >>= f) = .ok b ↔ ∃ a, x = .ok a ∧ f a = .ok b := by
  cases x <;> simp [bind, Except.bind]

theorem mapM_eq_ok_iff {α β ε : Type} {f : α → Except ε β} {as : List α} {bs : List β} :
    as.mapM f = .ok bs ↔ List.Forall₂ (fun a b => f a = .ok b) as bs := by
  induction as generalizing bs with
  | nil => cases bs <;> simp [pure, Except.pure]
  | cons a as ih =>
    rw [List.mapM_cons]
    cases ha : f a with
    | error e => cases bs <;> simp [bind, Except.bind, ha]
    | ok b =>
      cases has : as.mapM f with
      | error e => cases bs <;> simp [bind, Except.bind, ha, ← ih, has]
      | ok rest => cases bs <;> simp [bind, Except.bind, pure, Except.pure, ha, ← ih, has]

end FlexAgentRuntime.AgentLoop
