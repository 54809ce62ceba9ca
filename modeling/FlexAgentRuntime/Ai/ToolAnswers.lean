import Mathlib.Data.List.TakeWhile
import FlexAgentRuntime.Ai.Transform
import FlexAgentRuntime.Lists.Segments

/-!
Where the results of tool calls stand in the output of `TransformMessages`.

Providers want every tool call answered before the conversation goes on, every
result to belong to the assistant message just before it, and one result for each
call. The transform completes a segment, an assistant message with what follows up
to the next one, by appending a result for each call that has none; so
- a call without a result before a user message gets its result after that message;
- a result whose assistant message was dropped stays behind.

`transformMessages_meetsProviders_iff` says exactly for which conversations the
output is as providers want it.
-/

namespace FlexAgentRuntime.Ai

open Segments List

/-- The ids of the calls that an assistant message makes. -/
def AssistantMessage.callIDs (m : AssistantMessage) : List String :=
  (extractToolCalls m).map (·.id)

/-- The calls of a message, if it is an assistant message. -/
def assistantCalls : Message → Option (List String)
  | .user _ _ => none
  | .assistant m => some m.callIDs
  | .toolResult _ => none

def resultID : Message → Option String
  | .user _ _ => none
  | .assistant _ => none
  | .toolResult r => some r.toolCallID

def isToolResult (msg : Message) : Bool := (resultID msg).isSome

def isAssistant (msg : Message) : Bool := (assistantCalls msg).isSome

/-- The ids of the results among some messages. -/
def resultIDs (messages : List Message) : List String := messages.filterMap resultID

/-- Each call has a result before the next user or assistant message. -/
def CallsAnswered (messages : List Message) : Prop :=
  ∀ before m after, messages = before ++ .assistant m :: after →
    ∀ id ∈ m.callIDs, id ∈ resultIDs (after.takeWhile isToolResult)

/-- Each result is one for a call of the closest assistant message before it. -/
def ResultsRefer (messages : List Message) : Prop :=
  ∀ before r after, messages = before ++ .toolResult r :: after →
    ∃ ids, closest assistantCalls before = some ids ∧ r.toolCallID ∈ ids

/-- How many results the calls of an assistant message have before the next one. -/
def ResultCounts (holds : Nat → Prop) (messages : List Message) : Prop :=
  ∀ before m after, messages = before ++ .assistant m :: after →
    ∀ id ∈ m.callIDs, holds ((resultIDs (after.takeWhile (!isAssistant ·))).count id)

/-- What providers want of the messages that `input` is transformed to. -/
structure MeetsProviders (input messages : List Message) : Prop where
  answered : CallsAnswered messages
  refer : ResultsRefer messages
  one : ResultCounts (· ≤ 1) input → ResultCounts (· = 1) messages

/-- The conversation that is left without its unfinished assistant messages. -/
def finished (messages : List Message) : List Message :=
  messages.filter fun
    | .assistant m => !m.unfinished
    | _ => true

/-- A segment whose calls are answered before its first user message, if it has one,
and whose results are all for its calls. -/
def settled (ids : List String) (rest : List Message) : Bool :=
  (rest.all isToolResult || ids.all fun id => id ∈ resultIDs (rest.takeWhile isToolResult)) &&
    (resultIDs rest).all (· ∈ ids)

/-- No call has two results. -/
def answeredOnce (messages : List Message) : Bool :=
  (split assistantCalls messages).2.all fun (ids, rest) =>
    ids.all fun id => (resultIDs rest).count id ≤ 1

/-- The conversations that can be replayed: in what is left of them no result comes
before the first assistant message, every segment is settled, and leaving messages
out has not given a call a second result. -/
def replayable (messages : List Message) : Bool :=
  (resultIDs (split assistantCalls (finished messages)).1).isEmpty &&
    (split assistantCalls (finished messages)).2.all (fun (ids, rest) => settled ids rest) &&
    (!answeredOnce messages || answeredOnce (finished messages))

/-! ## The specification by segments -/

variable {ids : List String} {pending : PendingToolCalls} {rest missing : List Message}

theorem takeWhile_isToolResult (after : List Message) :
    (after.takeWhile fun x => (assistantCalls x).isNone).takeWhile isToolResult =
      after.takeWhile isToolResult := by
  induction after with
  | nil => rfl
  | cons msg after ih =>
    cases msg with
    | user | assistant => rfl
    | toolResult r => exact congrArg (.toolResult r :: ·) ih

theorem forall_segments_iff {P : List String → List Message → Prop} {messages : List Message} :
    (∀ s ∈ (split assistantCalls messages).2, P s.1 s.2) ↔
      ∀ before m after, messages = before ++ .assistant m :: after →
        P m.callIDs (after.takeWhile fun x => (assistantCalls x).isNone) := by
  rw [forall_split_iff assistantCalls]
  constructor
  · intro h before m after heq
    exact h before (.assistant m) after heq m.callIDs rfl
  · intro h before msg after heq ids hids
    cases msg with
    | assistant m =>
      cases hids
      exact h before m after heq
    | user | toolResult => cases hids

theorem callsAnswered_iff (messages : List Message) :
    CallsAnswered messages ↔ ∀ s ∈ (split assistantCalls messages).2,
      ∀ id ∈ s.1, id ∈ resultIDs (s.2.takeWhile isToolResult) := by
  rw [forall_segments_iff (P := fun ids rest =>
    ∀ id ∈ ids, id ∈ resultIDs (rest.takeWhile isToolResult))]
  simp only [takeWhile_isToolResult, CallsAnswered]

theorem resultCounts_iff (holds : Nat → Prop) (messages : List Message) :
    ResultCounts holds messages ↔ ∀ s ∈ (split assistantCalls messages).2,
      ∀ id ∈ s.1, holds ((resultIDs s.2).count id) := by
  rw [forall_segments_iff (P := fun ids rest => ∀ id ∈ ids, holds ((resultIDs rest).count id))]
  simp only [ResultCounts, isAssistant, Option.not_isSome]

theorem mem_resultIDs {id : String} {messages : List Message} :
    id ∈ resultIDs messages ↔ ∃ r, .toolResult r ∈ messages ∧ r.toolCallID = id := by
  simp only [resultIDs, mem_filterMap]
  constructor
  · rintro ⟨msg, hmem, hid⟩
    cases msg with
    | toolResult r => exact ⟨r, hmem, Option.some.inj hid⟩
    | user | assistant => cases hid
  · rintro ⟨r, hmem, rfl⟩
    exact ⟨_, hmem, rfl⟩

theorem resultsRefer_iff (messages : List Message) :
    ResultsRefer messages ↔ resultIDs (split assistantCalls messages).1 = [] ∧
      ∀ s ∈ (split assistantCalls messages).2, ∀ id ∈ resultIDs s.2, id ∈ s.1 := by
  have h := forall_closest_iff assistantCalls (P := fun last msg =>
    ∀ id, resultID msg = some id → ∃ ids, last = some ids ∧ id ∈ ids) none messages
  simp only [Option.or_none] at h
  constructor
  · intro hrefer
    obtain ⟨hfirst, hsegs⟩ := h.2 fun before msg after heq _ id hid => by
      cases msg with
      | toolResult r =>
        cases hid
        exact hrefer before r after heq
      | user | assistant => cases hid
    constructor
    · rw [resultIDs, filterMap_eq_nil_iff]
      intro msg hmem
      cases hid : resultID msg with
      | none => rfl
      | some id => obtain ⟨ids, hnone, -⟩ := hfirst msg hmem id hid; cases hnone
    · intro s hs id hid
      obtain ⟨msg, hmem, hid⟩ := mem_filterMap.1 hid
      obtain ⟨ids, heq, hids⟩ := hsegs s hs msg hmem id hid
      cases heq
      exact hids
  · rintro ⟨hfirst, hsegs⟩ before r after heq
    refine h.1 ⟨fun msg hmem id hid => ?_, fun s hs msg hmem id hid => ?_⟩ before _ after heq rfl _ rfl
    · rw [resultIDs, filterMap_eq_nil_iff] at hfirst
      rw [hfirst msg hmem] at hid
      cases hid
    · exact ⟨s.1, rfl, hsegs s hs id (mem_filterMap.2 ⟨msg, hmem, hid⟩)⟩

/-! ## The transform by segments -/

theorem resultIDs_append (ms ns : List Message) :
    resultIDs (ms ++ ns) = resultIDs ms ++ resultIDs ns := by
  simp [resultIDs]

/-- What is appended to a segment: a result for each call that has none. -/
structure Completes (ids : List String) (rest missing : List Message) : Prop where
  results : ∀ msg ∈ missing, isToolResult msg
  nodup : (resultIDs missing).Nodup
  mem_iff : ∀ id, id ∈ resultIDs missing ↔ id ∈ ids ∧ id ∉ resultIDs rest

/-- A segment of the input and the one of the output that it becomes. -/
def Completed (s t : List String × List Message) : Prop :=
  t.1 = s.1 ∧ ∃ missing, t.2 = s.2 ++ missing ∧ Completes s.1 s.2 missing

/-- The keys of the pending calls, as the ids a segment has left open. -/
structure Open (ids : List String) (pending : PendingToolCalls) : Prop where
  nodup : (pending.map (·.1)).Nodup
  mem_iff : ∀ id, id ∈ pending.map (·.1) ↔ id ∈ ids

theorem Open.set (h : Open ids pending) (tc : ToolCall) : Open (tc.id :: ids) (pending.set tc) := by
  have hkeys : (pending.filter (·.1 ≠ tc.id)).map (·.1) =
      (pending.map (·.1)).filter (· ≠ tc.id) := by
    rw [filter_map]
    rfl
  constructor
  · rw [PendingToolCalls.set, map_cons, hkeys]
    exact nodup_cons.2 ⟨by simp, h.nodup.filter _⟩
  · intro id
    rw [PendingToolCalls.set, map_cons, hkeys, mem_cons, mem_cons, mem_filter, h.mem_iff]
    by_cases hid : id = tc.id <;> simp [hid]

theorem Open.delete (h : Open ids pending) (id : String) :
    Open (ids.filter (· ≠ id)) (pending.delete id) := by
  have hkeys : (pending.delete id).map (·.1) = (pending.map (·.1)).filter (· ≠ id) := by
    rw [PendingToolCalls.delete, filter_map]
    rfl
  constructor
  · rw [hkeys]
    exact h.nodup.filter _
  · intro x
    rw [hkeys, mem_filter, mem_filter, h.mem_iff]

theorem Open.calls (h : Open ids pending) (calls : List ToolCall) :
    Open ((calls.map (·.id)).reverse ++ ids) (calls.foldl PendingToolCalls.set pending) := by
  induction calls generalizing ids pending with
  | nil => exact h
  | cons tc calls ih => simpa using ih (h.set tc)

theorem open_nil : Open [] [] := ⟨nodup_nil, by simp⟩

theorem open_callIDs (m : AssistantMessage) :
    Open m.callIDs ((extractToolCalls m).foldl PendingToolCalls.set []) := by
  have h := open_nil.calls (extractToolCalls m)
  exact ⟨h.nodup, fun id => (h.mem_iff id).trans (by simp [AssistantMessage.callIDs])⟩

theorem Open.completes (h : Open ids pending) (ts : Int) :
    Completes ids [] (pending.flushed ts) := by
  have hids : (resultIDs (pending.flushed ts)).Perm (pending.map (·.1)) := by
    have hsorted : resultIDs (pending.flushed ts) =
        (pending.insertionSort fun a b => a.1 ≤ b.1).map (·.1) := by
      rw [resultIDs, PendingToolCalls.flushed, filterMap_map, ← filterMap_eq_map]
      rfl
    rw [hsorted]
    exact (perm_insertionSort _ pending).map _
  refine ⟨?_, hids.nodup_iff.2 h.nodup, fun id => ?_⟩
  · intro msg hmem
    obtain ⟨entry, -, rfl⟩ := mem_map.1 hmem
    rfl
  · rw [hids.mem_iff, h.mem_iff]
    simp [resultIDs]

/-- What the loop still appends, from its variables on. -/
def remaining (now : Int) : PendingToolCalls → Int → List Message → List Message
  | pending, last, [] => pending.flushed (if last = 0 then now else last)
  | pending, _, .assistant m :: messages =>
    pending.flushed m.timestamp ++
      .assistant m :: remaining now ((extractToolCalls m).foldl PendingToolCalls.set []) m.timestamp
        messages
  | pending, _, .toolResult m :: messages =>
    .toolResult m :: remaining now (pending.delete m.toolCallID) m.timestamp messages
  | pending, _, .user content timestamp :: messages =>
    .user content timestamp :: remaining now pending timestamp messages

theorem foldl_insert (now : Int) (messages : List Message) (s t : SyntheticState)
    (ht : messages.foldl SyntheticState.insert s = t) :
    (t.flush (if t.lastTimestamp = 0 then now else t.lastTimestamp)).result =
      s.result ++ remaining now s.pendingToolCalls s.lastTimestamp messages := by
  induction messages generalizing s with
  | nil =>
    subst ht
    rfl
  | cons msg messages ih =>
    rw [ih (s.insert msg) ht]
    cases msg <;> simp [SyntheticState.insert, SyntheticState.flush, remaining]

theorem insertSyntheticToolResults_eq (now : Int) (messages : List Message) :
    insertSyntheticToolResults now messages = remaining now [] 0 messages := by
  have h := foldl_insert now messages {} _ rfl
  rwa [nil_append] at h

theorem Completes.notCalls (h : Completes ids rest missing) :
    ∀ msg ∈ missing, assistantCalls msg = none := by
  intro msg hmem
  cases msg with
  | toolResult => rfl
  | user | assistant => cases h.results _ hmem

/-- A result in hand answers its call, so what completes the segment is the same
whether the result counts as one of the segment or as one no longer open. -/
theorem Completes.cons_result (r : ToolResultMessage)
    (h : Completes (ids.filter (· ≠ r.toolCallID)) rest missing) :
    Completes ids (.toolResult r :: rest) missing := by
  refine ⟨h.results, h.nodup, fun id => (h.mem_iff id).trans ?_⟩
  have hids : resultIDs (.toolResult r :: rest) = r.toolCallID :: resultIDs rest := rfl
  rw [hids, mem_filter, mem_cons]
  simp only [decide_not, Bool.not_eq_eq_eq_not, Bool.not_true, decide_eq_false_iff_not]
  tauto

theorem split_remaining (now : Int) (hopen : Open ids pending) (last : Int)
    (messages : List Message) :
    (∃ missing, (split assistantCalls (remaining now pending last messages)).1 =
        (split assistantCalls messages).1 ++ missing ∧
        Completes ids (split assistantCalls messages).1 missing) ∧
      List.Forall₂ Completed (split assistantCalls messages).2
        (split assistantCalls (remaining now pending last messages)).2 := by
  induction messages generalizing ids pending last with
  | nil =>
    have h := hopen.completes (if last = 0 then now else last)
    rw [remaining, ← append_nil (pending.flushed _), split_append h.notCalls]
    exact ⟨⟨_, by simp, h⟩, .nil⟩
  | cons msg messages ih =>
    cases msg with
    | assistant m =>
      have h := hopen.completes m.timestamp
      obtain ⟨⟨missing, hfirst, hmissing⟩, hsegs⟩ := ih (open_callIDs m) m.timestamp
      have hm : assistantCalls (.assistant m) = some m.callIDs := rfl
      rw [remaining, split_append h.notCalls, split_cons_some hm, split_cons_some hm]
      exact ⟨⟨_, by simp, h⟩, .cons ⟨rfl, missing, hfirst, hmissing⟩ hsegs⟩
    | toolResult m =>
      obtain ⟨⟨missing, hfirst, hmissing⟩, hsegs⟩ := ih (hopen.delete m.toolCallID) m.timestamp
      have hm : assistantCalls (.toolResult m) = none := rfl
      rw [remaining, split_cons_none hm, split_cons_none hm]
      exact ⟨⟨missing, by rw [hfirst, cons_append], hmissing.cons_result m⟩, hsegs⟩
    | user content timestamp =>
      obtain ⟨⟨missing, hfirst, hmissing⟩, hsegs⟩ := ih hopen timestamp
      have hm : assistantCalls (.user content timestamp) = none := rfl
      rw [remaining, split_cons_none hm, split_cons_none hm]
      refine ⟨⟨missing, by rw [hfirst, cons_append], ?_⟩, hsegs⟩
      exact ⟨hmissing.results, hmissing.nodup, hmissing.mem_iff⟩

/-! ## Replay without a normalizer -/

/-- The message that replaces `msg` when no id is normalized. -/
def replay (targetModel : Model) : Message → Message
  | .assistant m => .assistant ((transformAssistantMessage m targetModel none []).1.getD m)
  | msg => msg

section

variable (m : AssistantMessage) (targetModel : Model) (idMap : ToolCallIDMap)

include m targetModel idMap

theorem transformBlock_none (block : ContentBlock) : transformBlock m targetModel none idMap block =
      ((transformBlock m targetModel none [] block).1, idMap) := by
  cases block <;> simp only [transformBlock, transformToolCall] <;> split_ifs <;> rfl

theorem transformContent_none (newContent content : List ContentBlock) :
    transformContent m targetModel none newContent content idMap =
      (newContent ++ content.flatMap fun block => (transformBlock m targetModel none [] block).1,
        idMap) := by
  induction content generalizing newContent with
  | nil => simp [transformContent]
  | cons block content ih =>
    rw [transformContent, transformBlock_none]
    simp only
    rw [ih, flatMap_cons, append_assoc]

theorem transformAssistantMessage_none : transformAssistantMessage m targetModel none idMap =
      ((transformAssistantMessage m targetModel none []).1, idMap) := by
  unfold transformAssistantMessage
  split
  · rfl
  · rw [transformContent_none, transformContent_none]

end

def blockCallID : ContentBlock → Option String
  | .toolCall call => some call.id
  | _ => none

theorem callIDs_eq (m : AssistantMessage) : m.callIDs = m.content.filterMap blockCallID := by
  rw [AssistantMessage.callIDs, extractToolCalls, map_filterMap]
  congr 1
  funext block
  cases block <;> rfl

theorem filterMap_transformBlock (m : AssistantMessage) (targetModel : Model)
    (block : ContentBlock) :
    (transformBlock m targetModel none [] block).1.filterMap blockCallID =
      (blockCallID block).toList := by
  cases block with
  | image | toolCall call => rfl
  | text text textSignature | thinking thinking thinkingSignature redacted =>
    simp only [transformBlock]
    split_ifs <;> rfl

/-- A replayed message makes the calls of the original one. -/
theorem callIDs_transformAssistantMessage (m : AssistantMessage) (targetModel : Model) :
    ((transformAssistantMessage m targetModel none []).1.getD m).callIDs = m.callIDs := by
  unfold transformAssistantMessage
  split
  · rfl
  · rw [transformContent_none]
    simp only [Option.getD_some, nil_append]
    rw [callIDs_eq, callIDs_eq]
    induction m.content with
    | nil => rfl
    | cons block content ih =>
      rw [flatMap_cons, filterMap_append, filterMap_transformBlock, ih]
      cases h : blockCallID block <;> simp [h]

theorem transformLoop_none (targetModel : Model) (transformed messages : List Message) :
    transformLoop targetModel none transformed messages [] =
      transformed ++ (finished messages).map (replay targetModel) := by
  induction messages generalizing transformed with
  | nil => simp [transformLoop, finished]
  | cons msg messages ih =>
    cases msg with
    | user content timestamp | toolResult m =>
      rw [transformLoop, ih, append_assoc]
      rfl
    | assistant m =>
      rw [transformLoop, transformAssistantMessage_none]
      cases h : m.unfinished with
      | true =>
        have hnone : (transformAssistantMessage m targetModel none []).1 = none := by
          simp [transformAssistantMessage, h]
        have hfinished : finished (.assistant m :: messages) = finished messages := by
          simp [finished, h]
        rw [hnone, hfinished]
        exact ih transformed
      | false =>
        obtain ⟨t, ht⟩ : ∃ t, (transformAssistantMessage m targetModel none []).1 = some t := by
          simp [transformAssistantMessage, h]
        have hfinished : finished (.assistant m :: messages) = .assistant m :: finished messages := by
          simp [finished, h]
        rw [ht, hfinished, map_cons]
        simp only [replay, ht, Option.getD_some]
        rw [ih, append_assoc]
        rfl

theorem split_replay (targetModel : Model) (messages : List Message) :
    split assistantCalls (messages.map (replay targetModel)) = split assistantCalls messages := by
  apply split_map
  · intro msg
    cases msg with
    | assistant m => exact congrArg some (callIDs_transformAssistantMessage m targetModel)
    | user | toolResult => rfl
  · intro msg hmsg
    cases msg with
    | assistant => cases hmsg
    | user | toolResult => rfl

theorem transformMessages_none (now : Int) (messages : List Message) (targetModel : Model) :
    transformMessages now messages targetModel none =
      remaining now [] 0 ((finished messages).map (replay targetModel)) := by
  rw [transformMessages, insertSyntheticToolResults_eq, transformLoop_none, nil_append]

/-- The output has the segments of the conversation without its unfinished messages,
each completed by the results it lacked. -/
theorem split_transformMessages (now : Int) (messages : List Message) (targetModel : Model) :
    let out := transformMessages now messages targetModel none
    (split assistantCalls out).1 = (split assistantCalls (finished messages)).1 ∧
      List.Forall₂ Completed (split assistantCalls (finished messages)).2
        (split assistantCalls out).2 := by
  intro out
  have h := split_remaining now open_nil 0 ((finished messages).map (replay targetModel))
  rw [split_replay, ← transformMessages_none] at h
  obtain ⟨⟨missing, hfirst, hmissing⟩, hsegs⟩ := h
  -- nothing is open before the first assistant message
  have hnil : missing = [] := by
    rw [eq_nil_iff_forall_not_mem]
    intro msg hmem
    cases msg with
    | toolResult r => simpa using (hmissing.mem_iff _).1 (mem_resultIDs.2 ⟨r, hmem, rfl⟩)
    | user | assistant => cases hmissing.results _ hmem
  exact ⟨by rw [hfirst, hnil, append_nil], hsegs⟩

/-! ## Which conversations come out as providers want them -/

theorem Completes.answered_iff (h : Completes ids rest missing) :
    (∀ id ∈ ids, id ∈ resultIDs ((rest ++ missing).takeWhile isToolResult)) ↔
      rest.all isToolResult ∨ ∀ id ∈ ids, id ∈ resultIDs (rest.takeWhile isToolResult) := by
  cases hall : rest.all isToolResult with
  | true =>
    have hall : ∀ msg ∈ rest ++ missing, isToolResult msg := by
      intro msg hmsg
      rcases mem_append.1 hmsg with hmsg | hmsg
      · exact all_eq_true.1 hall msg hmsg
      · exact h.results msg hmsg
    simp only [true_or, iff_true]
    intro id hid
    rw [takeWhile_eq_self_iff.2 hall, resultIDs_append, mem_append, h.mem_iff]
    tauto
  | false =>
    -- a user message ends the search before what was appended
    have htake : (rest ++ missing).takeWhile isToolResult = rest.takeWhile isToolResult := by
      rw [takeWhile_append, if_neg]
      intro hlen
      have heq := (List.takeWhile_prefix isToolResult).eq_of_length hlen
      rw [takeWhile_eq_self_iff] at heq
      rw [all_eq_true.2 heq] at hall
      cases hall
    simp [htake]

theorem Completes.refer_iff (h : Completes ids rest missing) :
    (∀ id ∈ resultIDs (rest ++ missing), id ∈ ids) ↔ ∀ id ∈ resultIDs rest, id ∈ ids := by
  rw [resultIDs_append]
  constructor
  · intro hall id hid
    exact hall id (mem_append_left _ hid)
  · intro hall id hid
    rcases mem_append.1 hid with hid | hid
    · exact hall id hid
    · exact ((h.mem_iff id).1 hid).1

theorem Completes.count_iff (h : Completes ids rest missing) :
    (∀ id ∈ ids, (resultIDs (rest ++ missing)).count id = 1) ↔
      ∀ id ∈ ids, (resultIDs rest).count id ≤ 1 := by
  refine forall₂_congr fun id hid => ?_
  rw [resultIDs_append, count_append]
  by_cases hrest : id ∈ resultIDs rest
  · have hmissing : (resultIDs missing).count id = 0 :=
      count_eq_zero.2 fun hmem => ((h.mem_iff id).1 hmem).2 hrest
    have hpos := count_pos_iff.2 hrest
    omega
  · have hmissing : (resultIDs missing).count id = 1 :=
      count_eq_one_of_mem h.nodup ((h.mem_iff id).2 ⟨hid, hrest⟩)
    have hzero := count_eq_zero.2 hrest
    omega

theorem answeredOnce_iff (messages : List Message) :
    answeredOnce messages = true ↔ ResultCounts (· ≤ 1) messages := by
  rw [resultCounts_iff]
  simp [answeredOnce]

theorem settled_iff (ids : List String) (rest : List Message) : settled ids rest = true ↔
    (rest.all isToolResult ∨ ∀ id ∈ ids, id ∈ resultIDs (rest.takeWhile isToolResult)) ∧
      ∀ id ∈ resultIDs rest, id ∈ ids := by
  simp [settled]

theorem replayable_iff (messages : List Message) : replayable messages = true ↔
    resultIDs (split assistantCalls (finished messages)).1 = [] ∧
      (∀ s ∈ (split assistantCalls (finished messages)).2, settled s.1 s.2 = true) ∧
      (ResultCounts (· ≤ 1) messages → ResultCounts (· ≤ 1) (finished messages)) := by
  rw [← answeredOnce_iff, ← answeredOnce_iff]
  simp only [replayable, List.isEmpty_iff, Bool.and_eq_true, all_eq_true, Bool.or_eq_true,
    Bool.not_eq_true', and_assoc]
  cases answeredOnce messages <;> simp

/-- The output is as providers want it exactly for the conversations in which,
unfinished assistant messages aside, every call is answered before the next user
message and every result is for a call of the assistant message before it. -/
theorem transformMessages_meetsProviders_iff (now : Int) (messages : List Message)
    (targetModel : Model) :
    MeetsProviders messages (transformMessages now messages targetModel none) ↔
      replayable messages = true := by
  obtain ⟨hfirst, hsegs⟩ := split_transformMessages now messages targetModel
  have hanswered : CallsAnswered (transformMessages now messages targetModel none) ↔
      ∀ s ∈ (split assistantCalls (finished messages)).2, s.2.all isToolResult ∨
        ∀ id ∈ s.1, id ∈ resultIDs (s.2.takeWhile isToolResult) := by
    rw [callsAnswered_iff]
    refine (forall_mem_iff_of_forall₂ hsegs fun s t hst => ?_).symm
    obtain ⟨hids, missing, hrest, hmissing⟩ := hst
    rw [hids, hrest, hmissing.answered_iff]
  have hrefer : ResultsRefer (transformMessages now messages targetModel none) ↔
      resultIDs (split assistantCalls (finished messages)).1 = [] ∧
        ∀ s ∈ (split assistantCalls (finished messages)).2, ∀ id ∈ resultIDs s.2, id ∈ s.1 := by
    rw [resultsRefer_iff, hfirst]
    refine and_congr_right fun _ => (forall_mem_iff_of_forall₂ hsegs fun s t hst => ?_).symm
    obtain ⟨hids, missing, hrest, hmissing⟩ := hst
    rw [hids, hrest, hmissing.refer_iff]
  have hone : ResultCounts (· = 1) (transformMessages now messages targetModel none) ↔
      ResultCounts (· ≤ 1) (finished messages) := by
    rw [resultCounts_iff, resultCounts_iff]
    refine (forall_mem_iff_of_forall₂ hsegs fun s t hst => ?_).symm
    obtain ⟨hids, missing, hrest, hmissing⟩ := hst
    rw [hids, hrest, hmissing.count_iff]
  rw [replayable_iff]
  simp only [settled_iff]
  constructor
  · rintro ⟨ha, hr, ho⟩
    refine ⟨(hrefer.1 hr).1, fun s hs => ⟨hanswered.1 ha s hs, (hrefer.1 hr).2 s hs⟩, ?_⟩
    exact fun hinput => hone.1 (ho hinput)
  · rintro ⟨hnil, hsettled, hcounts⟩
    refine ⟨hanswered.2 fun s hs => (hsettled s hs).1, ?_, fun hinput => hone.2 (hcounts hinput)⟩
    exact hrefer.2 ⟨hnil, fun s hs => (hsettled s hs).2⟩

/-- An assistant message that calls a tool once under each of the ids. -/
def calling (ids : List String) : Message :=
  .assistant { content := ids.map fun id => .toolCall ⟨id, "read", [], ""⟩, stopReason := .toolUse }

def resultOf (id : String) : Message :=
  .toolResult { toolCallID := id, toolName := "read", content := [.text "done" ""]
                isError := false }

-- the result of a dropped message stays behind without its call
example : replayable [.assistant { content := [.toolCall ⟨"a", "read", [], ""⟩], stopReason := .error },
    resultOf "a"] = false := by decide

/-- Calls cut short by an answer that ends the conversation are completed at its end. -/
theorem transformMessages_meetsProviders_partial :
    replayable [.user [.text "go" ""], calling ["a", "b"], resultOf "a"] = true ∧
      MeetsProviders [.user [.text "go" ""], calling ["a", "b"], resultOf "a"]
        (transformMessages 1 [.user [.text "go" ""], calling ["a", "b"], resultOf "a"]
          ⟨"m", "api", "p"⟩ none) :=
  ⟨by decide, (transformMessages_meetsProviders_iff 1 _ _).2 (by decide)⟩

/-- After two calls, one of them answered, and a user message, the result made up
for the other call comes after the user message. -/
theorem synthetic_result_after_user_message :
    ¬ MeetsProviders [calling ["a", "b"], resultOf "a", .user [.text "go on" ""]]
      (transformMessages 1 [calling ["a", "b"], resultOf "a", .user [.text "go on" ""]]
        ⟨"m", "api", "p"⟩ none) := by
  intro h
  have hb : "b" ∈ ["a"] := h.answered [] _ _ rfl "b" (by decide)
  simp at hb

end FlexAgentRuntime.Ai
