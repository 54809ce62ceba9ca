import Mathlib.Data.List.Sort
import FlexAgentRuntime.Ai.Message

/-!
`TransformMessages` of `internal/ai/transform.go`: a conversation prepared for
replay on a model, possibly not the one that produced it.

A Go map is a list of its entries, the entry a read finds being the first with its
key. The clock, read once at the end when no message carries a time, is the
parameter `now`.
-/

namespace FlexAgentRuntime.Ai

/-- What the transform reads of a model. -/
structure Model where
  id : String
  api : String
  provider : String

abbrev ToolCallIDNormalizer := String → Model → AssistantMessage → String

/-- The ids that the normalizer has replaced, with their new values. -/
abbrev ToolCallIDMap := List (String × String)

def sameModel (msg : AssistantMessage) (targetModel : Model) : Bool :=
  msg.provider = targetModel.provider && msg.api = targetModel.api && msg.model = targetModel.id

/-- The case of `transformAssistantMessage` for a tool call. -/
def transformToolCall (msg : AssistantMessage) (targetModel : Model)
    (normalizeID : Option ToolCallIDNormalizer) (idMap : ToolCallIDMap) (call : ToolCall) :
    ToolCall × ToolCallIDMap :=
  let same := sameModel msg targetModel
  let tc := { call with thoughtSignature := if same then call.thoughtSignature else "" }
  match normalizeID with
  | none => (tc, idMap)
  | some normalize =>
    let newID := normalize call.id targetModel msg
    if !same && newID ≠ call.id then
      ({ tc with id := newID }, (call.id, newID) :: idMap)
    else (tc, idMap)

/-- The blocks that one block of an assistant message is replaced by. An image
block matches no case of the source's switch and is dropped. -/
def transformBlock (msg : AssistantMessage) (targetModel : Model)
    (normalizeID : Option ToolCallIDNormalizer) (idMap : ToolCallIDMap) :
    ContentBlock → List ContentBlock × ToolCallIDMap
  | .text text textSignature =>
    if sameModel msg targetModel then ([.text text textSignature], idMap)
    else ([.text text ""], idMap)
  | .thinking thinking thinkingSignature redacted =>
    if sameModel msg targetModel then ([.thinking thinking thinkingSignature redacted], idMap)
    else if redacted then ([], idMap)
    else if thinking ≠ "" then ([.text thinking ""], idMap)
    else ([], idMap)
  | .image _ _ => ([], idMap)
  | .toolCall call =>
    let (tc, idMap) := transformToolCall msg targetModel normalizeID idMap call
    ([.toolCall tc], idMap)

/-- The loop of `transformAssistantMessage` over the blocks. -/
def transformContent (msg : AssistantMessage) (targetModel : Model)
    (normalizeID : Option ToolCallIDNormalizer) :
    List ContentBlock → List ContentBlock → ToolCallIDMap → List ContentBlock × ToolCallIDMap
  | newContent, [], idMap => (newContent, idMap)
  | newContent, block :: content, idMap =>
    let (blocks, idMap) := transformBlock msg targetModel normalizeID idMap block
    transformContent msg targetModel normalizeID (newContent ++ blocks) content idMap

/-- The messages left out of a replay. -/
def AssistantMessage.unfinished (msg : AssistantMessage) : Bool :=
  msg.stopReason = .error || msg.stopReason = .aborted

def transformAssistantMessage (msg : AssistantMessage) (targetModel : Model)
    (normalizeID : Option ToolCallIDNormalizer) (idMap : ToolCallIDMap) :
    Option AssistantMessage × ToolCallIDMap :=
  if msg.unfinished then (none, idMap)
  else
    let (newContent, idMap) := transformContent msg targetModel normalizeID [] msg.content idMap
    (some { msg with content := newContent, errorMessage := "" }, idMap)

def transformToolResult (msg : ToolResultMessage) (idMap : ToolCallIDMap) : ToolResultMessage :=
  { msg with toolCallID := (idMap.lookup msg.toolCallID).getD msg.toolCallID }

/-- The loop of `TransformMessages`, from what has been collected so far. -/
def transformLoop (targetModel : Model) (normalizeToolCallID : Option ToolCallIDNormalizer) :
    List Message → List Message → ToolCallIDMap → List Message
  | transformed, [], _ => transformed
  | transformed, .user content timestamp :: messages, toolCallIDMap =>
    transformLoop targetModel normalizeToolCallID (transformed ++ [.user content timestamp])
      messages toolCallIDMap
  | transformed, .assistant m :: messages, toolCallIDMap =>
    match transformAssistantMessage m targetModel normalizeToolCallID toolCallIDMap with
    | (some t, toolCallIDMap) =>
      transformLoop targetModel normalizeToolCallID (transformed ++ [.assistant t]) messages
        toolCallIDMap
    | (none, toolCallIDMap) =>
      transformLoop targetModel normalizeToolCallID transformed messages toolCallIDMap
  | transformed, .toolResult m :: messages, toolCallIDMap =>
    transformLoop targetModel normalizeToolCallID
      (transformed ++ [.toolResult (transformToolResult m toolCallIDMap)]) messages toolCallIDMap

/-- The calls without a result so far, by id. -/
abbrev PendingToolCalls := List (String × ToolCall)

/-- `pendingToolCalls[tc.ID] = tc`. -/
def PendingToolCalls.set (pending : PendingToolCalls) (tc : ToolCall) : PendingToolCalls :=
  (tc.id, tc) :: pending.filter (·.1 ≠ tc.id)

def PendingToolCalls.delete (pending : PendingToolCalls) (id : String) : PendingToolCalls :=
  pending.filter (·.1 ≠ id)

/-- The result made up for a call that has none. -/
def syntheticToolResult (ts : Int) (id : String) (tc : ToolCall) : Message :=
  .toolResult { toolCallID := id, toolName := tc.name, content := [.text "No result provided" ""]
                isError := true, timestamp := ts }

/-- The messages `flush` appends: a result for each pending call, in the order of the ids. -/
def PendingToolCalls.flushed (pending : PendingToolCalls) (ts : Int) : List Message :=
  (pending.insertionSort fun a b => a.1 ≤ b.1).map fun (id, tc) => syntheticToolResult ts id tc

/-- The variables of `insertSyntheticToolResults`. -/
structure SyntheticState where
  result : List Message := []
  pendingToolCalls : PendingToolCalls := []
  lastTimestamp : Int := 0

def SyntheticState.flush (s : SyntheticState) (ts : Int) : SyntheticState :=
  { s with result := s.result ++ s.pendingToolCalls.flushed ts, pendingToolCalls := [] }

/-- One iteration of the loop of `insertSyntheticToolResults`. -/
def SyntheticState.insert (s : SyntheticState) : Message → SyntheticState
  | .assistant m =>
    let s := s.flush m.timestamp
    { result := s.result ++ [.assistant m]
      pendingToolCalls := (extractToolCalls m).foldl PendingToolCalls.set s.pendingToolCalls
      lastTimestamp := m.timestamp }
  | .toolResult m =>
    { result := s.result ++ [.toolResult m]
      pendingToolCalls := s.pendingToolCalls.delete m.toolCallID
      lastTimestamp := m.timestamp }
  | .user content timestamp =>
    { s with result := s.result ++ [.user content timestamp], lastTimestamp := timestamp }

def insertSyntheticToolResults (now : Int) (messages : List Message) : List Message :=
  let s := messages.foldl SyntheticState.insert {}
  (s.flush (if s.lastTimestamp = 0 then now else s.lastTimestamp)).result

def transformMessages (now : Int) (messages : List Message) (targetModel : Model)
    (normalizeToolCallID : Option ToolCallIDNormalizer) : List Message :=
  insertSyntheticToolResults now (transformLoop targetModel normalizeToolCallID [] messages [])

end FlexAgentRuntime.Ai
