import FlexAgentRuntime.Agent.Types

/-!
What an abort leaves behind in a `NativeDriver` (`loop.go`).

`nextPromptFromControlQueue` returns at the first abort of a drained batch. It keeps
`pendingSteer` and `followUps`, and the next run of the driver goes on with them. No run writes
the two fields elsewhere, so the runs of a driver are, as far as its prompts are concerned, the
batches that its drains return.

* `abort_discards_earlier_intent`: after an abort that comes first in its batch and finds nothing
  pending, the driver goes on like a new one;
* `aborted_steer_prompts`: otherwise an aborted steer may be the next prompt.
-/

namespace FlexAgentRuntime.AgentLoop.AbortedIntent

structure Driver where
  pendingSteer : String := ""
  followUps : List String := []
  deriving DecidableEq

/-- The calls of `nextPromptFromControlQueue` on the batches of all runs: how each of them goes
on, and the driver after the last one. -/
def calls (d : Driver) : List (List ControlCommand) → List NextPrompt × Driver
  | [] => ([], d)
  | batch :: batches =>
    let (steer, followUps, next) := nextPromptFromControlQueue batch d.pendingSteer d.followUps
    let (nexts, d') := calls ⟨steer, followUps⟩ batches
    (next :: nexts, d')

theorem calls_append (d : Driver) (before later : List (List ControlCommand)) :
    (calls d (before ++ later)).1 = (calls d before).1 ++ (calls (calls d before).2 later).1 := by
  induction before generalizing d with
  | nil => rfl
  | cons batch before ih => simp [calls, ih]

/-- An abort that comes first leaves the driver as it finds it. -/
theorem calls_abort {cmd : ControlCommand} (hcmd : cmd.type = .abort) (d : Driver)
    (rest : List ControlCommand) (later : List (List ControlCommand)) :
    (calls d ((cmd :: rest) :: later)).1 = .abort cmd.message :: (calls d later).1 := by
  simp [calls, nextPromptFromControlQueue, applyCommands, hcmd]

/-- In all runs of a driver: after a batch whose first command is an abort, drained while nothing
is pending, the prompts are those of a new driver that is given the later batches only. None is
taken from a command accepted before the abort, and the call itself returns no prompt. -/
theorem abort_discards_earlier_intent (before later : List (List ControlCommand))
    (cmd : ControlCommand) (rest : List ControlCommand) (hcmd : cmd.type = .abort)
    (hidle : (calls {} before).2 = {}) :
    (calls {} (before ++ (cmd :: rest) :: later)).1 =
      (calls {} before).1 ++ .abort cmd.message :: (calls {} later).1 := by
  rw [calls_append, hidle, calls_abort hcmd]

/-- An abort between two steers. -/
theorem abort_discards_earlier_intent_between :
    (calls {} [[⟨.steer, "a"⟩], [⟨.abort, ""⟩, ⟨.steer, "b"⟩], [⟨.steer, "c"⟩]]).1 =
      [.prompt "a", .abort "", .prompt "c"] :=
  abort_discards_earlier_intent [[⟨.steer, "a"⟩]] [[⟨.steer, "c"⟩]] ⟨.abort, ""⟩ [⟨.steer, "b"⟩]
    rfl (by decide)

/-- A steer and an abort in one batch: the next run takes the steer. A new driver would end. -/
theorem aborted_steer_prompts :
    (calls {} [[⟨.steer, "a"⟩, ⟨.abort, ""⟩], []]).1 = [.abort "", .prompt "a"] ∧
      (calls {} [[]]).1 = [.done] := by
  decide

end FlexAgentRuntime.AgentLoop.AbortedIntent
