import Mathlib.Algebra.Order.Ring.Int

/-!
Conversation messages of `internal/ai/types.go` and the text helpers of the
standard library that the agent loop applies to them.
-/

namespace FlexAgentRuntime.Ai

/-- A decoded JSON value (`any` as `encoding/json` produces it); a number is
kept as its literal. -/
inductive Json where
  | null
  | bool (b : Bool)
  | num (literal : String)
  | str (s : String)
  | arr (items : List Json)
  | obj (fields : List (String × Json))

structure ToolCall where
  id : String
  name : String
  arguments : List (String × Json)
  thoughtSignature : String

inductive ContentBlock where
  | text (text textSignature : String)
  | thinking (thinking thinkingSignature : String) (redacted : Bool)
  | image (data mimeType : String)
  | toolCall (call : ToolCall)

inductive StopReason where
  | stop | length | toolUse | error | aborted
  deriving DecidableEq, Repr

/-- Amounts in `float64`, by their JSON literals: nothing here computes with them. -/
structure UsageCost where
  input : String := "0"
  output : String := "0"
  cacheRead : String := "0"
  cacheWrite : String := "0"
  total : String := "0"

structure Usage where
  input : Int := 0
  output : Int := 0
  cacheRead : Int := 0
  cacheWrite : Int := 0
  totalTokens : Int := 0
  cost : UsageCost := {}

/-- Timestamps are in milliseconds. -/
structure AssistantMessage where
  content : List ContentBlock
  api : String := ""
  provider : String := ""
  model : String := ""
  usage : Usage := {}
  stopReason : StopReason
  errorMessage : String := ""
  timestamp : Int := 0

structure ToolResultMessage where
  toolCallID : String
  toolName : String
  content : List ContentBlock
  isError : Bool
  timestamp : Int := 0

inductive Message where
  | user (content : List ContentBlock) (timestamp : Int := 0)
  | assistant (msg : AssistantMessage)
  | toolResult (msg : ToolResultMessage)

def isSpace (c : Char) : Bool :=
  [0x09, 0x0A, 0x0B, 0x0C, 0x0D, 0x20, 0x85, 0xA0, 0x1680, 0x2028, 0x2029, 0x202F, 0x205F,
    0x3000].contains c.toNat || (0x2000 ≤ c.toNat && c.toNat ≤ 0x200A)

def trimSpace (s : String) : String :=
  String.ofList ((s.toList.dropWhile isSpace).reverse.dropWhile isSpace).reverse

/-- `extractToolCalls`: the tool calls among the content blocks, in order. -/
def extractToolCalls (msg : AssistantMessage) : List ToolCall :=
  msg.content.filterMap fun
    | .toolCall call => some call
    | _ => none

end FlexAgentRuntime.Ai
