import FlexAgentRuntime.Ai.ToolAnswers

/-!
Conversations that `TransformMessages` has prepared already. Without a normalizer a second
replay finds every call answered and every block as it wants it.
-/

namespace FlexAgentRuntime.Ai

open List

variable {targetModel : Model}

def isUser : Message → Bool
  | .user _ _ => true
  | .assistant _ | .toolResult _ => false

/-! ## Results -/

theorem remaining_results (now : Int) {results : List Message}
    (h : ∀ msg ∈ results, isToolResult msg) (pending : PendingToolCalls) (last : Int)
    (rest : List Message) :
    ∃ last', remaining now pending last (results ++ rest) = results ++
      remaining now (pending.filter (·.1 ∉ resultIDs results)) last' rest := by
  induction results generalizing pending last with
  | nil => exact ⟨last, by simp [resultIDs]⟩
  | cons msg results ih =>
    have hmsg := h msg mem_cons_self
    cases msg with
    | toolResult r =>
      obtain ⟨last', ih⟩ := ih (fun x hx => h x (mem_cons_of_mem _ hx))
        (pending.delete r.toolCallID) r.timestamp
      have hids : resultIDs (.toolResult r :: results) = r.toolCallID :: resultIDs results := rfl
      refine ⟨last', ?_⟩
      rw [cons_append, remaining, ih, PendingToolCalls.delete, filter_filter, hids, cons_append]
      simp [Bool.and_comm]
    | user | assistant => cases hmsg

/-- The results made up for pending calls leave nothing pending. -/
theorem remaining_flushed (now : Int) (hopen : Open ids pending) (ts last : Int)
    (rest : List Message) :
    ∃ last', remaining now pending last (pending.flushed ts ++ rest) =
      pending.flushed ts ++ remaining now [] last' rest := by
  have h := hopen.completes ts
  obtain ⟨last', heq⟩ := remaining_results now h.results pending last rest
  refine ⟨last', ?_⟩
  rw [heq, filter_eq_nil_iff.2]
  intro entry hentry
  have hid := (h.mem_iff _).2 ⟨(hopen.mem_iff _).1 (mem_map_of_mem hentry), not_mem_nil⟩
  simpa using hid

theorem remaining_remaining (now now' : Int) (hopen : Open ids pending) (last last' : Int)
    (messages : List Message) :
    remaining now' pending last' (remaining now pending last messages) =
      remaining now pending last messages := by
  induction messages generalizing ids pending last last' with
  | nil =>
    obtain ⟨_, h⟩ := remaining_flushed now' hopen (if last = 0 then now else last) last' []
    simpa [remaining, PendingToolCalls.flushed] using h
  | cons msg messages ih =>
    cases msg with
    | assistant m =>
      rw [remaining]
      obtain ⟨_, h⟩ := remaining_flushed now' hopen m.timestamp last' (.assistant m ::
        remaining now ((extractToolCalls m).foldl PendingToolCalls.set []) m.timestamp messages)
      rw [h, remaining, ih (open_callIDs m)]
      rfl
    | toolResult m => simp only [remaining, ih (hopen.delete m.toolCallID)]
    | user => simp only [remaining, ih hopen]

/-- Only results are inserted. -/
theorem filter_remaining {p : Message → Bool} (hp : ∀ r, p (.toolResult r) = false)
    (now : Int) (pending : PendingToolCalls) (last : Int) (messages : List Message) :
    (remaining now pending last messages).filter p = messages.filter p := by
  have hflushed (pending : PendingToolCalls) (ts : Int) : (pending.flushed ts).filter p = [] := by
    rw [PendingToolCalls.flushed, filter_map]
    simp [Function.comp_def, syntheticToolResult, hp]
  induction messages generalizing pending last with
  | nil => exact hflushed ..
  | cons msg messages ih => cases msg <;> simp [remaining, filter_cons, ih, hflushed, hp]

/-! ## Blocks -/

theorem replay_finished {m : AssistantMessage} (h : m.unfinished = false) :
    replay targetModel (.assistant m) = .assistant { m with
      content := m.content.flatMap fun b => (transformBlock m targetModel none [] b).1
      errorMessage := "" } := by
  simp [replay, transformAssistantMessage, h, transformContent_none]

theorem flatMap_transformBlock (m m' : AssistantMessage)
    (hsame : sameModel m' targetModel = sameModel m targetModel) (block : ContentBlock) :
    (transformBlock m targetModel none [] block).1.flatMap
      (fun b => (transformBlock m' targetModel none [] b).1) =
        (transformBlock m targetModel none [] block).1 := by
  cases block <;> simp only [transformBlock, transformToolCall] <;> split_ifs <;>
    simp_all

theorem replay_replay {m : AssistantMessage} (h : m.unfinished = false) :
    ∃ m', replay targetModel (.assistant m) = .assistant m' ∧ m'.unfinished = false ∧
      replay targetModel (.assistant m') = .assistant m' := by
  refine ⟨_, replay_finished h, h, ?_⟩
  rw [replay_finished (by exact h)]
  simp only [flatMap_assoc]
  congr 2
  exact flatMap_congr fun block _ => flatMap_transformBlock m _ rfl block

theorem filter_isUser_replay (messages : List Message) :
    ((finished messages).map (replay targetModel)).filter isUser = messages.filter isUser := by
  induction messages with
  | nil => rfl
  | cons msg messages ih =>
    cases msg with
    | user | toolResult => simpa [finished, replay, isUser, filter_cons] using ih
    | assistant m =>
      cases h : m.unfinished <;> simpa [finished, replay, isUser, filter_cons, h] using ih

/-- The assistant messages of the output are finished and come out of a replay as they are. -/
theorem replay_transformMessages (h : .assistant m ∈ transformMessages now messages targetModel none) :
    m.unfinished = false ∧ replay targetModel (.assistant m) = .assistant m := by
  have hmem := mem_filter.2 ⟨h, (rfl : isAssistant (.assistant m) = true)⟩
  rw [transformMessages_none, filter_remaining fun _ => rfl, mem_filter, mem_map] at hmem
  obtain ⟨⟨msg, hmsg, heq⟩, -⟩ := hmem
  cases msg with
  | user | toolResult => cases heq
  | assistant m₀ =>
    obtain ⟨m', heq', h⟩ := replay_replay (m := m₀) (by simpa using (mem_filter.1 hmsg).2)
    cases heq.symm.trans heq'
    exact h

/-- What was replayed comes out of a second replay, at any later time, as it went in, and
the user's messages are those of the conversation. -/
theorem transformMessages_idempotent (now now' : Int) (messages : List Message)
    (targetModel : Model) :
    transformMessages now' (transformMessages now messages targetModel none) targetModel none =
        transformMessages now messages targetModel none ∧
      (transformMessages now messages targetModel none).filter isUser = messages.filter isUser := by
  have hfinished : finished (transformMessages now messages targetModel none) =
      transformMessages now messages targetModel none := by
    rw [finished, filter_eq_self]
    intro msg h
    cases msg with
    | user | toolResult => rfl
    | assistant m => simp [(replay_transformMessages h).1]
  have hreplay : (transformMessages now messages targetModel none).map (replay targetModel) =
      transformMessages now messages targetModel none := by
    refine (map_congr_left fun msg h => ?_).trans (map_id _)
    cases msg with
    | user | toolResult => rfl
    | assistant m => exact (replay_transformMessages h).2
  constructor
  · rw [transformMessages_none, hfinished, hreplay, transformMessages_none,
      remaining_remaining now now' open_nil]
  · rw [transformMessages_none, filter_remaining fun _ => rfl, filter_isUser_replay]

end FlexAgentRuntime.Ai
