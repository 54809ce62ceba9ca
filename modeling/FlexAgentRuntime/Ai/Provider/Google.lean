import FlexAgentRuntime.Ai.Provider.ToolArguments

/-!
The Google provider's stream, `internal/ai/provider/google` (`sse_parser.go`, `thought.go`,
`safety.go`, `usage.go`).

The data of a server event is given as `json.Unmarshal` decodes it. Function calls come
complete, and a call without an ID is given one that is made of its name and of its place in
the message.
-/

namespace FlexAgentRuntime.Ai.Google

open Transducer (Machine Step)

/-! ## Server events -/

structure FunctionCall where
  id : String := ""
  name : String
  args : Arguments := []

structure Part where
  text : String := ""
  functionCall : Option FunctionCall := none
  thought : Option Bool := none
  thoughtSignature : Option Sse.Bytes := none

structure SafetyRating where
  category : String
  probability : String
  blocked : Bool

structure Candidate where
  parts : List Part := []
  finishReason : String := ""
  safetyRatings : List SafetyRating := []

structure UsageMetadata where
  promptTokenCount : Int
  candidatesTokenCount : Int
  totalTokenCount : Int
  cachedContentTokenCount : Int

structure GenerateContentResponse where
  candidates : List Candidate
  usageMetadata : Option UsageMetadata := none
  /-- `PromptFeedback.BlockReason`. -/
  blockReason : String := ""

/-- The data of an event: blank, not decodable, or a chunk. -/
inductive WireEvent where
  | blank
  | invalid (err : String)
  | chunk (chunk : GenerateContentResponse)

def mapUsage (u : UsageMetadata) : Usage where
  input := u.promptTokenCount
  output := u.candidatesTokenCount
  cacheRead := u.cachedContentTokenCount
  totalTokens := u.totalTokenCount

def isSafetyBlock (reason : String) : Bool :=
  ["SAFETY", "RECITATION", "BLOCKLIST", "PROHIBITED_CONTENT", "SPII", "IMAGE_SAFETY",
    "IMAGE_PROHIBITED_CONTENT", "IMAGE_RECITATION"].contains reason

def mapFinishReason (reason : String) : StopReason :=
  if reason = "STOP" then .stop
  else if reason = "MAX_TOKENS" then .length
  else if isSafetyBlock reason then .error
  else if reason = "MALFORMED_FUNCTION_CALL" ∨ reason = "UNEXPECTED_TOOL_CALL" then .error
  else .stop

def formatSafetyRatings (ratings : List SafetyRating) : String :=
  match (ratings.filter (·.blocked)).map fun r => r.category ++ " (" ++ r.probability ++ ")" with
  | [] => "unknown safety block"
  | blocked => "blocked by: " ++ ", ".intercalate blocked

/-! ## Base64 -/

/-- A digit of `base64.StdEncoding`. -/
def base64Digit (n : Nat) : Char :=
  if n < 26 then Char.ofNat (65 + n)
  else if n < 52 then Char.ofNat (71 + n)
  else if n < 62 then Char.ofNat (n - 4)
  else if n = 62 then '+'
  else '/'

/-- `base64.StdEncoding.EncodeToString`. -/
def base64Encode : Sse.Bytes → List Char
  | [] => []
  | [a] =>
    [base64Digit (a.toNat / 4), base64Digit (a.toNat % 4 * 16), '=', '=']
  | [a, b] =>
    [base64Digit (a.toNat / 4), base64Digit (a.toNat % 4 * 16 + b.toNat / 16),
      base64Digit (b.toNat % 16 * 4), '=']
  | a :: b :: c :: rest =>
    base64Digit (a.toNat / 4) :: base64Digit (a.toNat % 4 * 16 + b.toNat / 16) ::
      base64Digit (b.toNat % 16 * 4 + c.toNat / 64) :: base64Digit (c.toNat % 64) ::
      base64Encode rest

/-! ## The accumulator -/

/-- `streamAccumulator`, with the number of server events read so far. -/
structure StreamAccumulator where
  api : String
  provider : String
  modelID : String
  usage : Usage := {}
  textParts : List String := []
  thinkingParts : List String := []
  toolCalls : List FunctionCall := []
  thoughtSignatures : List Sse.Bytes := []
  stopReason : StopReason := .stop
  safetyBlocked : Bool := false
  safetyDetails : String := ""
  contentIndex : Nat := 0
  started : Bool := false
  read : Nat := 0

def newAccumulator (model : Model) : StreamAccumulator :=
  { api := model.api, provider := model.provider, modelID := model.id }

abbrev Event := AssistantMessageEvent ContentBlock

def generateToolCallID (name : String) (index : Nat) : String :=
  "call_" ++ name ++ "_" ++ index.repr

/-- The call with the ID that it goes by. -/
def identify (call : FunctionCall) (index : Nat) : FunctionCall :=
  if call.id = "" then { call with id := generateToolCallID call.name index } else call

/-- The tool call of the message. -/
def FunctionCall.toToolCall (call : FunctionCall) : ToolCall := ⟨call.id, call.name, call.args, ""⟩

/-- The loop of `processCandidateParts` on one part. -/
def processPart (acc : StreamAccumulator) (p : Part) : List Event × StreamAccumulator :=
  match p.functionCall with
  | some call =>
    let tc := identify call acc.toolCalls.length
    ([{ type := .toolCallStart, contentIndex := acc.contentIndex
        toolCall := some ⟨tc.id, tc.name, [], ""⟩ },
      { type := .toolCallEnd, contentIndex := acc.contentIndex, toolCall := some tc.toToolCall }],
      { acc with toolCalls := acc.toolCalls ++ [tc], contentIndex := acc.contentIndex + 1 })
  | none =>
    match p.thoughtSignature with
    | some signature =>
      ([], { acc with thoughtSignatures := acc.thoughtSignatures ++ [signature] })
    | none =>
      if p.thought = some true then
        ([{ type := .thinkingDelta, delta := p.text }],
          { acc with thinkingParts := acc.thinkingParts ++ [p.text] })
      else if p.text ≠ "" then
        ([{ type := .textDelta, delta := p.text }],
          { acc with textParts := acc.textParts ++ [p.text] })
      else ([], acc)

def processCandidateParts : StreamAccumulator → List Part → List Event × StreamAccumulator
  | acc, [] => ([], acc)
  | acc, p :: parts =>
    let (out, acc) := processPart acc p
    let (outs, acc) := processCandidateParts acc parts
    (out ++ outs, acc)

/-- The last element that `f` changes is changed. -/
def updateLast (f : ContentBlock → Option ContentBlock) :
    List ContentBlock → Option (List ContentBlock)
  | [] => none
  | b :: bs =>
    match updateLast f bs with
    | some bs => some (b :: bs)
    | none => (f b).map (· :: bs)

def signToolCall (encoded : String) : ContentBlock → Option ContentBlock
  | .toolCall call => some (.toolCall { call with thoughtSignature := encoded })
  | _ => none

def signThinking (encoded : String) : ContentBlock → Option ContentBlock
  | .thinking thinking _ redacted => some (.thinking thinking encoded redacted)
  | _ => none

def attachThoughtSignatures (content : List ContentBlock) (sigs : List Sse.Bytes) :
    List ContentBlock :=
  match sigs.getLast? with
  | none => content
  | some sig =>
    let encoded := String.ofList (base64Encode sig)
    match updateLast (signToolCall encoded) content with
    | some content => content
    | none =>
      match updateLast (signThinking encoded) content with
      | some content => content
      | none => content ++ [.thinking "" encoded false]

/-- The content of the final message before the signatures. -/
def StreamAccumulator.content (acc : StreamAccumulator) : List ContentBlock :=
  (if acc.thinkingParts.isEmpty then [] else [.thinking (String.join acc.thinkingParts) "" false]) ++
    (if acc.textParts.isEmpty then [] else [.text (String.join acc.textParts) ""]) ++
    acc.toolCalls.map (.toolCall ·.toToolCall)

section Process

variable (env : StreamEnv)

/-- `partial`, at the present time. -/
def StreamAccumulator.snapshot (acc : StreamAccumulator) : StreamedMessage ContentBlock where
  api := acc.api
  provider := acc.provider
  model := acc.modelID
  usage := acc.usage
  stopReason := acc.stopReason
  timestamp := env.clock acc.read

/-- The message of `emitDone`. -/
def finalMessage (acc : StreamAccumulator) : StreamedMessage ContentBlock :=
  { acc.snapshot env with
    content := attachThoughtSignatures acc.content acc.thoughtSignatures
    usage := env.calculateCost acc.usage }

/-- The first candidate of a chunk, and whether it is blocked. -/
def processCandidate (acc : StreamAccumulator) (cand : Candidate) :
    List Event × Bool × StreamAccumulator :=
  let acc := if cand.finishReason = "" then acc
    else { acc with stopReason := mapFinishReason cand.finishReason }
  if cand.finishReason ≠ "" ∧ isSafetyBlock cand.finishReason = true then
    ([], true, { acc with
      safetyBlocked := true, safetyDetails := formatSafetyRatings cand.safetyRatings })
  else
    let (out, acc) := processCandidateParts acc cand.parts
    (out, false, acc)

/-- `acc.usage = mapUsage(chunk.UsageMetadata)`, if there is any. -/
def StreamAccumulator.use (acc : StreamAccumulator) (u : Option UsageMetadata) :
    StreamAccumulator :=
  { acc with usage := (u.map mapUsage).getD acc.usage }

def processEvent (acc : StreamAccumulator) : WireEvent → List Event × Step StreamAccumulator String
  | .blank => ([], .next acc)
  | .invalid err => ([], .fail acc ("parse chunk: " ++ err))
  | .chunk chunk =>
    let start : List Event := if acc.started then []
      else [{ type := .start, partialMessage := some (acc.snapshot env) }]
    let acc := { acc with started := true }
    if chunk.blockReason ≠ "" then (start, .fail acc ("prompt blocked: " ++ chunk.blockReason))
    else
      match chunk.candidates with
      | [] => (start, .next (acc.use chunk.usageMetadata))
      | cand :: _ =>
        match processCandidate acc cand with
        -- the parts and the usage of a blocked response are not looked at
        | (out, true, acc) => (start ++ out, .next acc)
        | (out, false, acc) => (start ++ out, .next (acc.use chunk.usageMetadata))

/-- The loop of `processStream`, its check for a blocked response and `emitDone`. -/
def machine : Machine WireEvent StreamAccumulator Event String where
  step acc e := processEvent env { acc with read := acc.read + 1 } e
  finish acc :=
    let acc := { acc with read := acc.read + 1 }
    if acc.safetyBlocked then
      ([], acc, some ("response blocked by safety filter: " ++ acc.safetyDetails))
    else
      ([{ type := .done, reason := some acc.stopReason, message := some (finalMessage env acc) }],
        acc, none)

def stream (endpoint : ProviderEndpoint) (decode : Sse.Bytes → WireEvent) (now : Int)
    (canceled : Option Nat) (response : Response) : EventStream ContentBlock :=
  streamOf endpoint env.model now
    (runStream (machine env) decode (newAccumulator env.model) canceled response)

end Process

end FlexAgentRuntime.Ai.Google
