import Mathlib.Data.List.AList
import FlexAgentRuntime.Ai.Provider.ToolArguments

/-!
The Anthropic provider's stream, `internal/ai/provider/anthropic` (`sse_parser.go`,
`usage.go`, the loop of `stream.go`).

The data of a server event is given as `unmarshalEvent` decodes it. A content block is
allocated once and then changed in place, so that every message that points to it shows the
change: `heap` holds the blocks, and messages hold references to them.
-/

namespace FlexAgentRuntime.Ai.Anthropic

open Transducer (Machine Step)

abbrev BlockRef := Nat

/-! ## Server events -/

structure WireUsage where
  inputTokens : Int := 0
  outputTokens : Int := 0
  cacheReadInputTokens : Int := 0
  cacheCreationInputTokens : Int := 0

/-- The content block of a `content_block_start` event, by its type. -/
inductive WireContentBlock where
  | text (text : String)
  | thinking (thinking signature : String)
  | toolUse (id name : String) (input : Arguments)
  | other

/-- The delta of a `content_block_delta` event, by its type. -/
inductive WireDelta where
  | text (text : String)
  | thinking (thinking signature : String)
  | signature (signature : String)
  | inputJSON (partialJSON : String)
  | other

/-- The data of an event: blank, not decodable, or an event of one of the types, where the
event itself may not be decodable. -/
inductive WireEvent where
  | blank
  | invalid (err : String)
  | ping
  | messageStart (e : Except String (String × WireUsage))
  | contentBlockStart (e : Except String (Int × WireContentBlock))
  | contentBlockDelta (e : Except String (Int × WireDelta))
  | contentBlockStop (e : Except String Int)
  | messageDelta (e : Except String (String × WireUsage))
  | messageStop
  | error (e : Except String String)
  | other

def mapUsage (usage : WireUsage) : Usage where
  input := usage.inputTokens
  output := usage.outputTokens
  cacheRead := usage.cacheReadInputTokens
  cacheWrite := usage.cacheCreationInputTokens
  totalTokens := usage.inputTokens + usage.outputTokens + usage.cacheReadInputTokens +
    usage.cacheCreationInputTokens

def mergeUsage (dst : Usage) (usage : WireUsage) : Usage :=
  let input := if usage.inputTokens > 0 then usage.inputTokens else dst.input
  let output := if usage.outputTokens > 0 then usage.outputTokens else dst.output
  let cacheRead := if usage.cacheReadInputTokens > 0 then usage.cacheReadInputTokens
    else dst.cacheRead
  let cacheWrite := if usage.cacheCreationInputTokens > 0 then usage.cacheCreationInputTokens
    else dst.cacheWrite
  { dst with
    input := input, output := output, cacheRead := cacheRead, cacheWrite := cacheWrite
    totalTokens := input + output + cacheRead + cacheWrite }

def mapStopReason (reason : String) : StopReason :=
  if reason = "end_turn" ∨ reason = "stop_sequence" then .stop
  else if reason = "max_tokens" then .length
  else if reason = "tool_use" then .toolUse
  else if reason = "pause_turn" then .stop
  else if reason = "" then .stop
  else .error

/-! ## The processor -/

structure ToolStreamState where
  id : String
  name : String
  parser : ToolJSONParser

structure StreamAccumulator where
  api : String
  provider : String
  modelID : String
  usage : Usage := {}
  stopReason : StopReason := .stop
  blocks : AList (fun _ : Int => BlockRef) := ∅
  toolStates : AList (fun _ : Int => ToolStreamState) := ∅

/-- `sseProcessor`, with the blocks that its accumulator and the messages point to and the
number of server events read so far. -/
structure SseProcessor where
  acc : StreamAccumulator
  done : Bool := false
  heap : List ContentBlock := []
  read : Nat := 0

def newAccumulator (model : Model) : StreamAccumulator :=
  { api := model.api, provider := model.provider, modelID := model.id }

def newSSEProcessor (model : Model) : SseProcessor := { acc := newAccumulator model }

def StreamAccumulator.orderedContent (a : StreamAccumulator) : List BlockRef :=
  (a.blocks.entries.insertionSort fun b b' => b.1 ≤ b'.1).map (·.2)

abbrev Event := AssistantMessageEvent BlockRef

section Process

variable (env : StreamEnv)

/-- `partial`, at the present time. -/
def SseProcessor.snapshot (p : SseProcessor) : StreamedMessage BlockRef where
  content := p.acc.orderedContent
  api := p.acc.api
  provider := p.acc.provider
  model := p.acc.modelID
  usage := p.acc.usage
  stopReason := p.acc.stopReason
  timestamp := env.clock p.read

/-- The block that the accumulator has at an index. -/
def SseProcessor.blockAt (p : SseProcessor) (index : Int) : Option ContentBlock :=
  (p.acc.blocks.lookup index).bind (p.heap[·]?)

/-- `p.acc.blocks[index] = &block`. -/
def SseProcessor.putBlock (p : SseProcessor) (index : Int) (block : ContentBlock) : SseProcessor :=
  { p with
    heap := p.heap ++ [block]
    acc := { p.acc with blocks := p.acc.blocks.insert index p.heap.length } }

/-- The block at an index is changed in place. -/
def SseProcessor.changeBlock (p : SseProcessor) (index : Int) (block : ContentBlock) :
    SseProcessor :=
  match p.acc.blocks.lookup index with
  | some ref => { p with heap := p.heap.set ref block }
  | none => p

def SseProcessor.setTool (p : SseProcessor) (index : Int) (state : ToolStreamState) :
    SseProcessor :=
  { p with acc := { p.acc with toolStates := p.acc.toolStates.insert index state } }

def SseProcessor.deleteTool (p : SseProcessor) (index : Int) : SseProcessor :=
  { p with acc := { p.acc with toolStates := p.acc.toolStates.erase index } }

/-- The parser of a new tool call: its input, if there is any, is the first piece of text. -/
def initialParser (input : Arguments) : ToolJSONParser :=
  if input.isEmpty then {}
  else
    match env.json.marshal input with
    | .ok text => (({} : ToolJSONParser).appendDelta env.json text).1
    | .error _ => {}

def onBlockStart (p : SseProcessor) (index : Int) :
    WireContentBlock → List Event × SseProcessor
  | .text text =>
    let p := p.putBlock index (.text text "")
    ([{ type := .textStart, contentIndex := index, partialMessage := some (p.snapshot env) }], p)
  | .thinking thinking signature =>
    let p := p.putBlock index (.thinking thinking signature false)
    ([{ type := .thinkingStart, contentIndex := index
        partialMessage := some (p.snapshot env) }], p)
  | .toolUse id name input =>
    let p := p.setTool index ⟨id, name, initialParser env input⟩
    let p := p.putBlock index (.toolCall ⟨id, name, [], ""⟩)
    ([{ type := .toolCallStart, contentIndex := index
        partialMessage := some (p.snapshot env) }], p)
  | .other => ([], p)

def onBlockDelta (p : SseProcessor) (index : Int) :
    WireDelta → List Event × Step SseProcessor String
  | .text text =>
    let p := match p.blockAt index with
      | some (.text t signature) => p.changeBlock index (.text (t ++ text) signature)
      | _ => p.putBlock index (.text text "")
    ([{ type := .textDelta, contentIndex := index, delta := text
        partialMessage := some (p.snapshot env) }], .next p)
  | .thinking thinking signature =>
    let p := match p.blockAt index with
      | some (.thinking t s redacted) =>
        p.changeBlock index (.thinking (t ++ thinking) (if signature = "" then s else signature)
          redacted)
      | _ => p.putBlock index (.thinking thinking signature false)
    ([{ type := .thinkingDelta, contentIndex := index, delta := thinking
        partialMessage := some (p.snapshot env) }], .next p)
  | .signature signature =>
    let p := match p.blockAt index with
      | some (.thinking t s redacted) =>
        p.changeBlock index (.thinking t (if signature = "" then s else signature) redacted)
      | _ => p.putBlock index (.thinking "" signature false)
    ([], .next p)
  | .inputJSON partialJSON =>
    match p.acc.toolStates.lookup index with
    | none => ([], .fail p ("tool delta for unknown index " ++ index.repr))
    | some state =>
      match state.parser.appendDelta env.json partialJSON with
      | (parser, .error err) => ([], .fail (p.setTool index { state with parser := parser }) err)
      | (parser, .ok args) =>
        let p := p.setTool index { state with parser := parser }
        ([{ type := .toolCallDelta, contentIndex := index, delta := partialJSON
            partialMessage := some (p.snapshot env)
            toolCall := args.map fun args => ⟨state.id, state.name, args, ""⟩ }], .next p)
  | .other => ([], .next p)

def onBlockStop (p : SseProcessor) (index : Int) : List Event × Step SseProcessor String :=
  match p.blockAt index with
  | some (.text text _) =>
    ([{ type := .textEnd, contentIndex := index, content := text
        partialMessage := some (p.snapshot env) }], .next p)
  | some (.thinking thinking _ _) =>
    ([{ type := .thinkingEnd, contentIndex := index, content := thinking
        partialMessage := some (p.snapshot env) }], .next p)
  | _ =>
    match p.acc.toolStates.lookup index with
    | none => ([], .next p)
    | some state =>
      match state.parser.parseFinal env.json with
      | .error err => ([], .fail p ("tool argument parse failure: " ++ err))
      | .ok args =>
        let call : ToolCall := ⟨state.id, state.name, args, ""⟩
        let p := (p.putBlock index (.toolCall call)).deleteTool index
        ([{ type := .toolCallEnd, contentIndex := index, toolCall := some call
            partialMessage := some (p.snapshot env) }], .next p)

/-- `finish(nil)`. -/
def finish (p : SseProcessor) : List Event × SseProcessor :=
  if p.done then ([], p)
  else
    let msg := { p.snapshot env with usage := env.calculateCost p.acc.usage }
    ([{ type := .done, reason := some msg.stopReason, message := some msg }], { p with done := true })

/-- `process`. -/
def processEvent (p : SseProcessor) : WireEvent → List Event × Step SseProcessor String
  | .blank | .ping | .other => ([], .next p)
  | .invalid err => ([], .fail p ("decode event envelope: " ++ err))
  | .messageStart (.error err) => ([], .fail p ("decode message_start: " ++ err))
  | .messageStart (.ok (model, usage)) =>
    let p := { p with acc := { p.acc with
      modelID := if model = "" then p.acc.modelID else model
      usage := mapUsage usage } }
    ([{ type := .start, partialMessage := some (p.snapshot env) }], .next p)
  | .contentBlockStart (.error err) => ([], .fail p ("decode content_block_start: " ++ err))
  | .contentBlockStart (.ok (index, block)) =>
    let (out, p) := onBlockStart env p index block
    (out, .next p)
  | .contentBlockDelta (.error err) => ([], .fail p ("decode content_block_delta: " ++ err))
  | .contentBlockDelta (.ok (index, delta)) => onBlockDelta env p index delta
  | .contentBlockStop (.error err) => ([], .fail p ("decode content_block_stop: " ++ err))
  | .contentBlockStop (.ok index) => onBlockStop env p index
  | .messageDelta (.error err) => ([], .fail p ("decode message_delta: " ++ err))
  | .messageDelta (.ok (stopReason, usage)) =>
    ([], .next { p with acc := { p.acc with
      usage := mergeUsage p.acc.usage usage
      stopReason := mapStopReason stopReason } })
  | .messageStop =>
    let (out, p) := finish env p
    (out, .next p)
  | .error (.error err) => ([], .fail p ("decode error event: " ++ err))
  | .error (.ok message) => ([], .fail p message)

/-- The loop of `runStream`. -/
def machine : Machine WireEvent SseProcessor Event String where
  step p e := processEvent env { p with read := p.read + 1 } e
  finish p :=
    let (out, p) := finish env { p with read := p.read + 1 }
    (out, p, none)

def stream (endpoint : ProviderEndpoint) (decode : Sse.Bytes → WireEvent) (now : Int)
    (canceled : Option Nat) (response : Response) : EventStream BlockRef :=
  streamOf endpoint env.model now
    (runStream (machine env) decode (newSSEProcessor env.model) canceled response)

end Process

end FlexAgentRuntime.Ai.Anthropic
