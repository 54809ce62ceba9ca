import Mathlib.Tactic.Common

/-!
Thinking budgets (`internal/ai/options.go`).

`AdjustMaxTokensForThinking` asks for the tokens of the answer and those of the budget together.
It keeps 1024 tokens for the answer if the limit of the model does not exceed the budget; a limit
just above the budget leaves fewer.
-/

namespace FlexAgentRuntime.Ai

/-- `ThinkingLevel` is a string; `other` is any that is not one of the constants. -/
inductive ThinkingLevel where
  | minimal | low | medium | high | xhigh
  | other (name : String)

structure ThinkingBudgets where
  minimal : Option Int := none
  low : Option Int := none
  medium : Option Int := none
  high : Option Int := none

def clampReasoning : ThinkingLevel → ThinkingLevel
  | .xhigh => .high
  | .other _ => .medium
  | level => level

/-- The map `defaults`. -/
def defaultBudget : ThinkingLevel → Int
  | .minimal => 1024
  | .low => 2048
  | .medium => 8192
  | .high => 16384
  | _ => 0

def ThinkingBudgets.find (budgets : ThinkingBudgets) : ThinkingLevel → Option Int
  | .minimal => budgets.minimal
  | .low => budgets.low
  | .medium => budgets.medium
  | .high => budgets.high
  | _ => none

/-- The user's budget for the level, or the default. -/
def configuredBudget (level : ThinkingLevel) (budgets : Option ThinkingBudgets) : Int :=
  (budgets.bind (·.find (clampReasoning level))).getD (defaultBudget (clampReasoning level))

def minOutputTokens : Int := 1024

/-- The tokens to ask for, and the thinking budget. -/
def adjustMaxTokensForThinking (baseMaxTokens modelMaxTokens : Int) (level : ThinkingLevel)
    (budgets : Option ThinkingBudgets) : Int × Int :=
  let thinkingBudget := configuredBudget level budgets
  let maxTokens := min (baseMaxTokens + thinkingBudget) modelMaxTokens
  if maxTokens ≤ thinkingBudget then (maxTokens, max 0 (maxTokens - minOutputTokens))
  else (maxTokens, thinkingBudget)

variable {base limit : Int} {level : ThinkingLevel} {budgets : Option ThinkingBudgets}

theorem configuredBudget_nonneg (level : ThinkingLevel)
    (h : ∀ bs ∈ budgets, ∀ l, ∀ b ∈ bs.find l, 0 ≤ b) :
    0 ≤ configuredBudget level budgets := by
  unfold configuredBudget
  cases hb : budgets.bind (·.find (clampReasoning level)) with
  | none => cases level <;> simp [clampReasoning, defaultBudget]
  | some b =>
    obtain ⟨bs, hbs, hfind⟩ := Option.bind_eq_some_iff.mp hb
    exact h bs hbs _ b hfind

end FlexAgentRuntime.Ai
