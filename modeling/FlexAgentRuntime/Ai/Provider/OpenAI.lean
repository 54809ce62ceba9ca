import Mathlib.Data.List.AList
import FlexAgentRuntime.Ai.Provider.ToolArguments

/-!
The OpenAI provider's stream, `internal/ai/provider/openai` (`sse_parser.go`, `usage.go`).

The data of a server event is given as `json.Unmarshal` decodes it. The message is built when
the stream is finished; nothing changes its blocks afterwards.
-/

namespace FlexAgentRuntime.Ai.OpenAI

open Transducer (Machine Step each)

/-! ## Server events -/

structure WireToolCall where
  index : Option Int
  id : String
  name : String
  arguments : String

structure ChunkChoice where
  content : Option String := none
  reasoning : Option String := none
  toolCalls : List WireToolCall := []
  finishReason : Option String := none

structure ChunkUsage where
  promptTokens : Int
  completionTokens : Int
  totalTokens : Int
  cachedTokens : Option Int

structure ChatChunk where
  id : String := ""
  choices : List ChunkChoice
  usage : Option ChunkUsage := none

/-- The data of an event: blank, `[DONE]`, not decodable, or a chunk. -/
inductive WireEvent where
  | blank
  | done
  | invalid (err : String)
  | chunk (chunk : ChatChunk)

def mapUsage (u : ChunkUsage) : Usage where
  input := u.promptTokens
  output := u.completionTokens
  totalTokens := u.totalTokens
  cacheRead := u.cachedTokens.getD 0

/-- `mapStopReason` of a reason that is not nil. -/
def mapStopReason (reason : String) : StopReason :=
  if reason = "stop" then .stop
  else if reason = "tool_calls" then .toolUse
  else if reason = "length" then .length
  else .stop

/-! ## The accumulator -/

structure ToolStreamState where
  id : String
  name : String
  parser : ToolJSONParser := {}

/-- `streamAccumulator`, with the number of server events read so far. -/
structure StreamAccumulator where
  api : String
  provider : String
  modelID : String
  usage : Usage := {}
  stopReason : StopReason := .stop
  contentBuf : String := ""
  reasoningBuf : String := ""
  toolStates : AList (fun _ : Int => ToolStreamState) := ∅
  started : Bool := false
  read : Nat := 0

def newAccumulator (model : Model) : StreamAccumulator :=
  { api := model.api, provider := model.provider, modelID := model.id }

abbrev Event := AssistantMessageEvent ContentBlock

section Process

variable (env : StreamEnv)

/-- `partial`, at the present time. -/
def StreamAccumulator.snapshot (acc : StreamAccumulator) : StreamedMessage ContentBlock where
  api := acc.api
  provider := acc.provider
  model := acc.modelID
  usage := acc.usage
  stopReason := acc.stopReason
  timestamp := env.clock acc.read

/-- The first part of `processToolCallDelta`: the call at the index, which may be new. -/
def openCall (acc : StreamAccumulator) (index : Int) (tc : WireToolCall) :
    List Event × StreamAccumulator × ToolStreamState :=
  match acc.toolStates.lookup index with
  | some state => ([], acc, state)
  | none =>
    let state : ToolStreamState := { id := tc.id, name := tc.name }
    ([{ type := .toolCallStart, contentIndex := index
        toolCall := some ⟨tc.id, tc.name, [], ""⟩ }],
      { acc with toolStates := acc.toolStates.insert index state }, state)

def processToolCallDelta (acc : StreamAccumulator) (tc : WireToolCall) :
    List Event × Step StreamAccumulator String :=
  let index := tc.index.getD 0
  let (out, acc, state) := openCall acc index tc
  if tc.arguments = "" then (out, .next acc)
  else
    match state.parser.appendDelta env.json tc.arguments with
    | (parser, result) =>
      let acc := { acc with
        toolStates := acc.toolStates.insert index { state with parser := parser } }
      match result with
      | .error err => (out, .fail acc err)
      | .ok args =>
        (out ++ [{ type := .toolCallDelta, contentIndex := index, delta := tc.arguments
                   toolCall := args.map fun args => ⟨state.id, state.name, args, ""⟩ }],
          .next acc)

/-- The texts of `processChoice`. -/
def choiceTexts (acc : StreamAccumulator) (choice : ChunkChoice) : List Event × StreamAccumulator :=
  let content := choice.content.getD ""
  let reasoning := choice.reasoning.getD ""
  ((if content = "" then [] else [{ type := .textDelta, delta := content }]) ++
      (if reasoning = "" then [] else [{ type := .thinkingDelta, delta := reasoning }]),
    { acc with
      contentBuf := acc.contentBuf ++ content, reasoningBuf := acc.reasoningBuf ++ reasoning })

def processChoice (acc : StreamAccumulator) (choice : ChunkChoice) :
    List Event × Step StreamAccumulator String :=
  let (texts, acc) := choiceTexts acc choice
  match each (processToolCallDelta env) acc choice.toolCalls with
  | (out, .next acc) =>
    (texts ++ out, .next { acc with
      stopReason := (choice.finishReason.map mapStopReason).getD acc.stopReason })
  | (out, r) => (texts ++ out, r)

/-- The start event of the first chunk. -/
def startChunk (acc : StreamAccumulator) (chunk : ChatChunk) : List Event × StreamAccumulator :=
  if acc.started then ([], acc)
  else
    let acc := { acc with
      started := true, modelID := if chunk.id = "" then acc.modelID else env.model.id }
    ([{ type := .start, partialMessage := some (acc.snapshot env) }], acc)

def processEvent (acc : StreamAccumulator) : WireEvent → List Event × Step StreamAccumulator String
  | .blank => ([], .next acc)
  | .done => ([], .stop acc)
  | .invalid err => ([], .fail acc ("parse chunk: " ++ err))
  | .chunk chunk =>
    let (start, acc) := startChunk env acc chunk
    let acc := { acc with usage := (chunk.usage.map mapUsage).getD acc.usage }
    let (out, r) := each (processChoice env) acc chunk.choices
    (start ++ out, r)

/-- `finalizeToolCalls` on the states in the order of their indices. -/
def finalizeToolCalls :
    List (Σ _ : Int, ToolStreamState) → List Event × Except String (List ToolCall)
  | [] => ([], .ok [])
  | ⟨index, state⟩ :: states =>
    match state.parser.parseFinal env.json with
    | .error err =>
      ([], .error ("tool \"" ++ state.name ++ "\" (index " ++ index.repr ++
        "): final argument JSON parse failed: " ++ err))
    | .ok args =>
      let call : ToolCall := ⟨state.id, state.name, args, ""⟩
      let (out, calls) := finalizeToolCalls states
      ({ type := .toolCallEnd, contentIndex := index, toolCall := some call } :: out,
        calls.map (call :: ·))

/-- The content of the final message. -/
def finalContent (acc : StreamAccumulator) (calls : List ToolCall) : List ContentBlock :=
  (if acc.reasoningBuf = "" then [] else [.thinking acc.reasoningBuf "" false]) ++
    (if acc.contentBuf = "" then [] else [.text acc.contentBuf ""]) ++ calls.map .toolCall

def finishStream (acc : StreamAccumulator) : List Event × Option String :=
  match finalizeToolCalls env (acc.toolStates.entries.insertionSort fun s s' => s.1 ≤ s'.1) with
  | (out, .error err) => (out, some err)
  | (out, .ok calls) =>
    let msg := { acc.snapshot env with
      content := finalContent acc calls, usage := env.calculateCost acc.usage }
    (out ++ [{ type := .done, reason := some msg.stopReason, message := some msg }], none)

/-- The loop of `processStream`. -/
def machine : Machine WireEvent StreamAccumulator Event String where
  step acc e := processEvent env { acc with read := acc.read + 1 } e
  finish acc :=
    let acc := { acc with read := acc.read + 1 }
    let (out, err) := finishStream env acc
    (out, acc, err)

def stream (endpoint : ProviderEndpoint) (decode : Sse.Bytes → WireEvent) (now : Int)
    (canceled : Option Nat) (response : Response) : EventStream ContentBlock :=
  streamOf endpoint env.model now
    (runStream (machine env) decode (newAccumulator env.model) canceled response)

end Process

end FlexAgentRuntime.Ai.OpenAI
