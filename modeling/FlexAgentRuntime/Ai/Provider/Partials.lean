import FlexAgentRuntime.Ai.Provider.ToolCallTexts
import FlexAgentRuntime.Interleaving.Runs

/-!
Whether the partial messages of the Anthropic stream are snapshots.

A message points to the blocks of the accumulator. A delta for a text or thinking block changes
it in place, so that a message sent before shows the text that came after it.
-/

namespace FlexAgentRuntime.Ai.Anthropic

open Interleaving List SseProcessor

/-- The content of a message, read at the state `p`. -/
def SseProcessor.shown (p : SseProcessor) (msg : StreamedMessage BlockRef) : List ContentBlock :=
  (msg.resolve (p.heap[·]?)).content

def stateOf : Transducer.Step SseProcessor String → SseProcessor
  | .next p | .stop p | .fail p _ => p

/-- A stream, with the partial messages that it has sent and what they showed then. -/
structure Watched where
  proc : SseProcessor
  sent : List (StreamedMessage BlockRef × List ContentBlock) := []
  ended : Bool := false

/-- The stream reads an event. Every message is sent after the blocks have been changed. -/
def watch (env : StreamEnv) (w : WireEvent) (s : Watched) : Option Watched :=
  if s.ended then none
  else
    let r := (machine env).step s.proc w
    some { proc := stateOf r.2
           sent := s.sent ++ r.1.filterMap fun e =>
             e.partialMessage.map fun msg => (msg, (stateOf r.2).shown msg)
           ended := match r.2 with
             | .next _ => false
             | _ => true }

/-- The block that an event changes in place. -/
def SseProcessor.rewritten (p : SseProcessor) : WireEvent → Option BlockRef
  | .contentBlockDelta (.ok (index, delta)) =>
    match delta, p.blockAt index with
    | .text _, some (.text _ _) | .thinking _ _, some (.thinking _ _ _)
    | .signature _, some (.thinking _ _ _) => p.acc.blocks.lookup index
    | _, _ => none
  | _ => none

/-- No message that was sent points to the block that the event changes. -/
def apart (w : WireEvent) (s : Watched) : Bool :=
  match s.proc.rewritten w with
  | none => true
  | some ref => s.sent.all fun m => ref ∉ m.1.content

/-- What becomes of the blocks, `changed` apart. -/
structure Frame (p q : SseProcessor) (changed : Option BlockRef) : Prop where
  valid : q.Valid
  length : p.heap.length ≤ q.heap.length
  same : ∀ ref < p.heap.length, changed ≠ some ref → q.heap[ref]? = p.heap[ref]?

variable {env : StreamEnv} {p : SseProcessor} {changed : Option BlockRef} {s s' : Watched}

theorem frame_refl (hp : p.Valid) : Frame p p changed := ⟨hp, le_rfl, fun _ _ _ => rfl⟩

theorem frame_putBlock (hp : p.Valid) (index : Int) (block : ContentBlock) :
    Frame p (p.putBlock index block) changed :=
  ⟨valid_putBlock hp, by simp [putBlock], fun _ h _ => getElem?_append_left h⟩

theorem frame_changeBlock (hp : p.Valid) :
    Frame p (p.changeBlock index block) (p.acc.blocks.lookup index) := by
  unfold changeBlock
  split
  · rename_i ref href
    refine ⟨fun i ref' hi => ?_, by simp, fun ref' _ hne => ?_⟩
    · simpa using hp i ref' hi
    · rw [href] at hne
      exact getElem?_set_ne fun h => hne (congrArg some h)
  · exact frame_refl hp

/-- An event about a block changes no other one and sends the accumulator as it is then. -/
def Frames (p : SseProcessor) (w : WireEvent) (r : List Event × Transducer.Step SseProcessor String) :
    Prop :=
  Frame p (stateOf r.2) (p.rewritten w) ∧ ∀ e ∈ r.1, ∀ msg ∈ e.partialMessage,
    msg.content = (stateOf r.2).acc.orderedContent

theorem frames_start (hp : p.Valid) (index : Int) (block : WireContentBlock) :
    Frames p (.contentBlockStart (.ok (index, block)))
      ((onBlockStart env p index block).1, .next (onBlockStart env p index block).2) := by
  cases block with
  | text | thinking =>
    exact ⟨frame_putBlock hp .., by simp [onBlockStart, snapshot, stateOf]⟩
  | toolUse id name input =>
    have h : Frame _ _ none := frame_putBlock (p := p.setTool index ⟨id, name, initialParser env input⟩)
      hp index (.toolCall ⟨id, name, [], ""⟩)
    exact ⟨⟨h.valid, h.length, h.same⟩, by simp [onBlockStart, snapshot, stateOf]⟩
  | other => exact ⟨frame_refl hp, by simp [onBlockStart]⟩

theorem frames_delta (hp : p.Valid) (index : Int) (delta : WireDelta) :
    Frames p (.contentBlockDelta (.ok (index, delta))) (onBlockDelta env p index delta) := by
  cases delta with
  | text text | thinking thinking signature | signature signature =>
    refine ⟨?_, by simp [onBlockDelta, snapshot, stateOf]⟩
    simp only [onBlockDelta, stateOf, rewritten]
    split
    · rename_i heq
      simp only [heq]
      exact frame_changeBlock hp
    · exact frame_putBlock hp ..
  | inputJSON text =>
    unfold onBlockDelta
    dsimp only
    split
    · exact ⟨frame_refl hp, by simp⟩
    · split
      · exact ⟨⟨hp, le_rfl, fun _ _ _ => rfl⟩, by simp⟩
      · exact ⟨⟨hp, le_rfl, fun _ _ _ => rfl⟩, by simp [snapshot, stateOf]⟩
  | other => exact ⟨frame_refl hp, by simp [onBlockDelta]⟩

theorem frames_stop (hp : p.Valid) (index : Int) :
    Frames p (.contentBlockStop (.ok index)) (onBlockStop env p index) := by
  unfold onBlockStop
  split
  · exact ⟨frame_refl hp, by simp [snapshot, stateOf]⟩
  · exact ⟨frame_refl hp, by simp [snapshot, stateOf]⟩
  · split
    · exact ⟨frame_refl hp, by simp⟩
    · split
      · exact ⟨frame_refl hp, by simp⟩
      · rename_i state _ _ args _
        have h : Frame _ _ none :=
          frame_putBlock hp index (.toolCall ⟨state.id, state.name, args, ""⟩)
        exact ⟨⟨h.valid, h.length, h.same⟩, by simp [snapshot, stateOf]⟩

theorem frames_step (env : StreamEnv) (hp : p.Valid) (w : WireEvent) :
    Frames p w ((machine env).step p w) := by
  have hstep : Frames p.next w (processEvent env p.next w) := by
    cases w with
    | contentBlockStart e | contentBlockDelta e | contentBlockStop e =>
      cases e with
      | error err => exact ⟨frame_refl (p := p.next) hp, by simp [processEvent]⟩
      | ok e => first
        | exact frames_start (p := p.next) hp e.1 e.2
        | exact frames_delta (p := p.next) hp e.1 e.2
        | exact frames_stop (p := p.next) hp e
    | messageStart e | messageDelta e | error e =>
      cases e <;> exact ⟨⟨hp, le_rfl, fun _ _ _ => rfl⟩,
        by simp [processEvent, snapshot, stateOf]⟩
    | messageStop =>
      simp only [processEvent, finish]
      split <;> exact ⟨⟨hp, le_rfl, fun _ _ _ => rfl⟩, by simp⟩
    | _ => exact ⟨frame_refl (p := p.next) hp, by simp [processEvent]⟩
  exact ⟨⟨hstep.1.valid, hstep.1.length, hstep.1.same⟩, hstep.2⟩

/-- Every partial message shows what it showed when it was sent. -/
def Immutable (s : Watched) : Prop := ∀ m ∈ s.sent, s.proc.shown m.1 = m.2

structure Kept (s : Watched) : Prop where
  valid : s.proc.Valid
  refs : ∀ m ∈ s.sent, ∀ ref ∈ m.1.content, ref < s.proc.heap.length
  immutable : Immutable s

theorem Kept.step (h : Kept s) (hw : apart w s = true) (hx : watch env w s = some s') : Kept s' := by
  unfold watch at hx
  split at hx
  · cases hx
  · cases hx
    obtain ⟨hframe, hsent⟩ := frames_step env h.valid w
    have hold (m) (hm : m ∈ s.sent) (ref) (href : ref ∈ m.1.content) :
        (stateOf ((machine env).step s.proc w).2).heap[ref]? = s.proc.heap[ref]? := by
      refine hframe.same ref (h.refs m hm ref href) fun heq => ?_
      simp only [apart, heq, all_eq_true, decide_eq_true_eq] at hw
      exact hw m hm href
    refine ⟨hframe.valid, ?_, ?_⟩
    · intro m hm ref href
      rcases mem_append.1 hm with hm | hm
      · exact lt_of_lt_of_le (h.refs m hm ref href) hframe.length
      · obtain ⟨e, he, heq⟩ := mem_filterMap.1 hm
        obtain ⟨msg, hmsg, rfl⟩ := Option.map_eq_some_iff.1 heq
        rw [hsent e he msg hmsg] at href
        obtain ⟨⟨index, _⟩, hentry, rfl⟩ := mem_map.1 href
        exact hframe.valid index _ (AList.mem_lookup_iff.2 ((mem_insertionSort _).1 hentry))
    · intro m hm
      rcases mem_append.1 hm with hm | hm
      · rw [← h.immutable m hm]
        exact filterMap_congr (hold m hm)
      · obtain ⟨e, -, heq⟩ := mem_filterMap.1 hm
        obtain ⟨msg, -, rfl⟩ := Option.map_eq_some_iff.1 heq
        rfl

end FlexAgentRuntime.Ai.Anthropic
