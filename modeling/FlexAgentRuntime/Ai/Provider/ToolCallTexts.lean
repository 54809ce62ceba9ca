import FlexAgentRuntime.Ai.Provider.TerminalEvents

/-!
The tool calls of a finished message have the arguments that the server has sent.

`SentCall` is what the server has sent of a call: the argument text so far and whether the
call has been ended. It is read off the server's events alone. The processor keeps a
placeholder without arguments until a call ends, and an accepted message shows it if the call
never does: the condition is that every call the server starts is also ended (`CallsEnded`).
-/

namespace FlexAgentRuntime.Ai

open Transducer List Function

/-- A tool call as far as the server has sent it. -/
structure SentCall where
  id : String
  name : String
  input : Arguments := []
  text : String := ""
  ended : Bool := false

/-- The arguments are the strict parse of the text, which is a complete object; or the input
was empty and the call or the message has ended. -/
def SentCall.Gives (J : JsonLib) (messageEnded : Bool) (s : SentCall) (args : Arguments) : Prop :=
  J.unmarshal s.text = .ok (some args) ∨
    s.text = "" ∧ s.input = [] ∧ args = [] ∧ (s.ended = true ∨ messageEnded = true)

/-- Every tool call of the content has been sent, with its arguments. -/
def CallsSent (J : JsonLib) (sent : Int → Option SentCall) (messageEnded : Bool)
    (content : List ContentBlock) : Prop :=
  ∀ call, .toolCall call ∈ content → ∃ index s, sent index = some s ∧
    call.id = s.id ∧ call.name = s.name ∧ s.Gives J messageEnded call.arguments

/-- The events end with `EventDone` and a message with the property, or with `EventError`. -/
def EndsWith {β : Type} (P : StreamedMessage β → Prop) (events : List (AssistantMessageEvent β)) :
    Prop :=
  ∃ before last, events = before ++ [last] ∧
    (last.type = .error ∨ last.type = .done ∧ ∃ m, last.message = some m ∧ P m)

variable {β σ : Type} {P : StreamedMessage β → Prop} {r : Result σ (AssistantMessageEvent β) String}
  {m : StreamedMessage β}

theorem endsWith_of_error (hr : r.error = some message) (endpoint : ProviderEndpoint)
    (model : Model) (now : Int) : EndsWith P (sentEvents endpoint model now r) := by
  refine ⟨r.out, errorEvent endpoint model now message, ?_, .inl rfl⟩
  rw [sentEvents, hr]
  rfl

theorem endsWith_of_done (hr : r.error = none) (hout : r.out = before ++ [last])
    (hlast : last.type = .done) (hm : last.message = some m) (hP : P m)
    (endpoint : ProviderEndpoint) (model : Model) (now : Int) :
    EndsWith P (sentEvents endpoint model now r) := by
  refine ⟨before, last, ?_, .inr ⟨hlast, m, hm, hP⟩⟩
  rw [sentEvents, hr, hout]
  exact append_nil _

theorem EndsWith.message (h : EndsWith P events) (he : events.getLast? = some e)
    (hdone : e.type = .done) (hm : e.message = some m) : P m := by
  obtain ⟨before, last, rfl, hlast⟩ := h
  rw [List.getLast?_concat] at he
  cases he
  rcases hlast with herror | ⟨-, m', hm', hP⟩
  · cases hdone.symm.trans herror
  · cases hm.symm.trans hm'
    exact hP

theorem lookup_insert {γ : Type} (l : AList fun _ : Int => γ) (index : Int) (v : γ) (i : Int) :
    (l.insert index v).lookup i = if i = index then some v else l.lookup i := by
  rcases eq_or_ne i index with rfl | hi
  · simp
  · simp [hi]

/-! ## Anthropic -/

namespace Anthropic

/-- The text of the input that a call starts with. -/
def initialText (J : JsonLib) (input : Arguments) : String :=
  if input.isEmpty then ""
  else
    match J.marshal input with
    | .ok text => text
    | .error _ => ""

/-- The block of an index that an event is about. -/
def WireEvent.blockIndex : WireEvent → Option Int
  | .contentBlockStart (.ok (index, _)) => some index
  | .contentBlockDelta (.ok (index, _)) => some index
  | .contentBlockStop (.ok index) => some index
  | _ => none

def sentBlock (J : JsonLib) (s : Option SentCall) : WireContentBlock → Option SentCall
  | .toolUse id name input => some { id, name, input, text := initialText J input }
  | .text _ | .thinking _ _ => none
  | .other => s

def sentDelta (s : Option SentCall) : WireDelta → Option SentCall
  | .inputJSON text => s.map fun s => { s with text := s.text ++ text }
  | .text _ | .thinking _ _ | .signature _ => none
  | .other => s

/-- The call of a block after one more event about the block. -/
def sentEvent (J : JsonLib) (s : Option SentCall) : WireEvent → Option SentCall
  | .contentBlockStart (.ok (_, block)) => sentBlock J s block
  | .contentBlockDelta (.ok (_, delta)) => sentDelta s delta
  | .contentBlockStop (.ok _) => s.map fun s => { s with ended := true }
  | _ => s

/-- The call that the server has sent at an index. -/
def sentCall (J : JsonLib) (ws : List WireEvent) (index : Int) : Option SentCall :=
  (ws.filter fun w => w.blockIndex = some index).foldl (sentEvent J) none

/-- Every call that is started before the terminal event is ended, or its input is empty and
`message_stop` comes; and its text is read for what it is. -/
def CallsEnded (J : JsonLib) (ws : List WireEvent) : Prop :=
  ∀ index s, sentCall J (untilStop ws) index = some s →
    J.Plain s.text ∧ (s.text = "" → s.input = []) ∧
      (s.ended = true ∨ s.text = "" ∧ ws.any (·.isStop) = true)

/-- What the accumulator has at an index. -/
inductive BlockKind where
  | text
  | tool (call : ToolCall)
  | other

def BlockKind.of : Option ContentBlock → BlockKind
  | some (.text _ _) | some (.thinking _ _ _) => .text
  | some (.toolCall call) => .tool call
  | _ => .other

def SseProcessor.kindAt (p : SseProcessor) (index : Int) : BlockKind := .of (p.blockAt index)

def SseProcessor.toolAt (p : SseProcessor) (index : Int) : Option ToolStreamState :=
  p.acc.toolStates.lookup index

/-- The accumulator points to blocks that there are. -/
def SseProcessor.Valid (p : SseProcessor) : Prop :=
  ∀ index ref, p.acc.blocks.lookup index = some ref → ref < p.heap.length

/-- Blocks stay, and those that are tool calls have been so from the start. -/
def Grows (p q : SseProcessor) : Prop :=
  ∀ (ref : BlockRef) (b : ContentBlock), p.heap[ref]? = some b →
    ∃ b' : ContentBlock, q.heap[ref]? = some b' ∧ ∀ call, b' = .toolCall call → b = .toolCall call

/-- The block and the open call of one index are replaced, and nothing else. -/
structure Change (p q : SseProcessor) (index : Int) (kind : BlockKind)
    (tool : Option ToolStreamState) : Prop where
  valid : q.Valid
  kinds : q.kindAt = update p.kindAt index kind
  tools : q.toolAt = update p.toolAt index tool
  grows : Grows p q

/-- How a block and an open call stand to what the server has sent. -/
inductive Tracks (J : JsonLib) : Option SentCall → BlockKind → Option ToolStreamState → Prop where
  | text {s : Option SentCall} {tool : Option ToolStreamState} : Tracks J s .text tool
  | other {s : Option SentCall} : Tracks J s .other none
  | started {s : SentCall} {parser : ToolJSONParser} : parser.raw = s.text → s.ended = false →
      Tracks J (some s) (.tool ⟨s.id, s.name, [], ""⟩) (some ⟨s.id, s.name, parser⟩)
  | ended {s : SentCall} {parser : ToolJSONParser} {args : Arguments} : parser.raw = s.text →
      s.ended = true → parser.parseFinal J = .ok args →
      Tracks J (some s) (.tool ⟨s.id, s.name, args, ""⟩) none

structure Follows (J : JsonLib) (ws : List WireEvent) (p : SseProcessor) : Prop where
  valid : p.Valid
  tracks : ∀ index, Tracks J (sentCall J ws index) (p.kindAt index) (p.toolAt index)

variable {env : StreamEnv} {p q u : SseProcessor} {index : Int} {block : ContentBlock}
  {kind : BlockKind} {tool : Option ToolStreamState}

open SseProcessor

/-! ### Changes of the accumulator -/

theorem Grows.refl (p : SseProcessor) : Grows p p := fun _ b hb => ⟨b, hb, fun _ h => h⟩

theorem Grows.trans (h : Grows p q) (h' : Grows q u) : Grows p u := by
  intro ref b hb
  obtain ⟨b', hb', htool⟩ := h ref b hb
  obtain ⟨b'', hb'', htool'⟩ := h' ref b' hb'
  exact ⟨b'', hb'', fun call hcall => htool call (htool' call hcall)⟩

theorem grows_putBlock (p : SseProcessor) (index : Int) (block : ContentBlock) :
    Grows p (p.putBlock index block) := by
  intro ref b hb
  obtain ⟨hlt, -⟩ := List.getElem?_eq_some_iff.mp hb
  exact ⟨b, (List.getElem?_append_left hlt).trans hb, fun _ h => h⟩

theorem valid_putBlock (hp : p.Valid) : (p.putBlock index block).Valid := by
  intro i ref hi
  have hlen : (p.putBlock index block).heap.length = p.heap.length + 1 := length_append
  change (p.acc.blocks.insert index p.heap.length).lookup i = some ref at hi
  rw [lookup_insert] at hi
  rw [hlen]
  split at hi
  · cases hi
    exact Nat.lt_succ_self _
  · exact Nat.lt_succ_of_lt (hp i ref hi)

theorem kindAt_putBlock (hp : p.Valid) :
    (p.putBlock index block).kindAt = update p.kindAt index (.of (some block)) := by
  funext i
  simp only [kindAt, blockAt, putBlock, lookup_insert,
    update_apply]
  split
  · simp
  · cases hi : p.acc.blocks.lookup i with
    | none => rfl
    | some ref => rw [Option.bind_some, Option.bind_some, List.getElem?_append_left (hp i ref hi)]

theorem change_putBlock (hp : p.Valid) :
    Change p (p.putBlock index block) index (.of (some block)) (p.toolAt index) where
  valid := valid_putBlock hp
  kinds := kindAt_putBlock hp
  tools := (update_eq_self index p.toolAt).symm
  grows := grows_putBlock p index block

theorem change_refl (hp : p.Valid) (index : Int) :
    Change p p index (p.kindAt index) (p.toolAt index) where
  valid := hp
  kinds := (update_eq_self index p.kindAt).symm
  tools := (update_eq_self index p.toolAt).symm
  grows := .refl p

theorem change_changeBlock (hp : p.Valid) (hold : p.kindAt index = .text)
    (hnew : BlockKind.of (some block) = .text) :
    Change p (p.changeBlock index block) index .text (p.toolAt index) := by
  cases hi : p.acc.blocks.lookup index with
  | none => simp [kindAt, blockAt, hi, BlockKind.of] at hold
  | some ref =>
    have hq : p.changeBlock index block = { p with heap := p.heap.set ref block } := by
      rw [changeBlock, hi]
    have hlt := hp index ref hi
    have hold' : BlockKind.of (p.heap[ref]?) = .text := by
      rwa [kindAt, blockAt, hi] at hold
    rw [hq]
    refine ⟨?_, ?_, (update_eq_self index p.toolAt).symm, ?_⟩
    · intro i ref' hi'
      rw [length_set]
      exact hp i ref' hi'
    · rw [← hold, update_eq_self]
      funext i
      rw [kindAt, kindAt, blockAt, blockAt]
      cases p.acc.blocks.lookup i with
      | none => rfl
      | some ref' =>
        rw [Option.bind_some, Option.bind_some]
        by_cases h : ref = ref'
        · subst h
          rw [List.getElem?_set_self hlt, hnew, hold']
        · rw [List.getElem?_set_ne h]
    · intro ref' b hb
      by_cases h : ref = ref'
      · subst h
        refine ⟨block, List.getElem?_set_self hlt, fun call hcall => ?_⟩
        rw [hcall] at hnew
        cases hnew
      · exact ⟨b, (List.getElem?_set_ne h).trans hb, fun _ h => h⟩

theorem Change.setTool (h : Change p q index kind tool) (state : ToolStreamState) :
    Change p (q.setTool index state) index kind (some state) where
  valid := h.valid
  kinds := h.kinds
  grows := h.grows
  tools := by
    funext i
    have htools := congrFun h.tools i
    simp only [toolAt, SseProcessor.setTool, lookup_insert, update_apply]
      at htools ⊢
    split <;> simp_all

theorem Change.deleteTool (h : Change p q index kind tool) :
    Change p (q.deleteTool index) index kind none where
  valid := h.valid
  kinds := h.kinds
  grows := h.grows
  tools := by
    funext i
    have htools := congrFun h.tools i
    rcases eq_or_ne i index with rfl | hi
    · simp [toolAt, SseProcessor.deleteTool]
    · simpa [toolAt, SseProcessor.deleteTool, hi] using htools

/-! ### Steps -/

/-- An event about a block changes only what belongs to its index, and there it goes on
tracking the call, which becomes `f` of what it was. -/
def BlockStep (J : JsonLib) (p q : SseProcessor) (index : Int)
    (f : Option SentCall → Option SentCall) : Prop :=
  ∃ kind tool, Change p q index kind tool ∧
    ∀ s, Tracks J s (p.kindAt index) (p.toolAt index) → Tracks J (f s) kind tool

theorem raw_initialParser (env : StreamEnv) (input : Arguments) :
    (initialParser env input).raw = initialText env.json input := by
  unfold initialParser initialText
  split
  · rfl
  · cases env.json.marshal input with
    | ok text => exact (raw_appendDelta ..).trans String.empty_append
    | error err => rfl

theorem blockStep_start (hp : p.Valid) (index : Int) (block : WireContentBlock) :
    BlockStep env.json p (onBlockStart env p index block).2 index
      fun s => sentBlock env.json s block := by
  cases block with
  | text text | thinking thinking signature => exact ⟨_, _, change_putBlock hp, fun _ _ => .text⟩
  | toolUse id name input =>
    exact ⟨_, _, (change_putBlock hp).setTool ⟨id, name, initialParser env input⟩,
      fun _ _ => .started (raw_initialParser env input) rfl⟩
  | other => exact ⟨_, _, change_refl hp index, fun _ h => h⟩

theorem blockStep_delta (hp : p.Valid) (h : onBlockDelta env p index delta = (out, .next q)) :
    BlockStep env.json p q index fun s => sentDelta s delta := by
  cases delta with
  | text text | thinking thinking signature | signature signature =>
    cases h
    refine ⟨.text, p.toolAt index, ?_, fun _ _ => .text⟩
    split
    · rename_i heq
      exact change_changeBlock hp (by rw [kindAt, heq]; rfl) rfl
    · exact change_putBlock hp
  | inputJSON text =>
    unfold onBlockDelta at h
    dsimp only at h
    split at h
    · cases h
    · rename_i state hstate
      split at h
      · cases h
      · rename_i parser args happend
        cases h
        refine ⟨_, _, (change_refl hp index).setTool { state with parser := parser }, ?_⟩
        intro s hs
        have hraw := raw_appendDelta env.json state.parser text
        rw [happend] at hraw
        have htool : p.toolAt index = some state := hstate
        rw [htool] at hs
        generalize p.kindAt index = kind at hs ⊢
        cases hs with
        | text => exact .text
        | @started s parser' hs hended =>
          refine .started (s := { s with text := s.text ++ text }) (hraw.trans ?_) hended
          rw [hs]
  | other =>
    cases h
    exact ⟨_, _, change_refl hp index, fun _ h => h⟩

theorem blockStep_stop (hp : p.Valid) (h : onBlockStop env p index = (out, .next q)) :
    BlockStep env.json p q index fun s => s.map fun s => { s with ended := true } := by
  unfold onBlockStop at h
  split at h
  · rename_i heq
    cases h
    have hkind : p.kindAt index = .text := by rw [kindAt, heq]; rfl
    exact ⟨_, _, change_refl hp index, fun _ _ => hkind ▸ .text⟩
  · rename_i heq
    cases h
    have hkind : p.kindAt index = .text := by rw [kindAt, heq]; rfl
    exact ⟨_, _, change_refl hp index, fun _ _ => hkind ▸ .text⟩
  · rename_i hnotext hnothinking
    split at h
    · rename_i hstate
      cases h
      refine ⟨_, _, change_refl hp index, fun s hs => ?_⟩
      have htool : p.toolAt index = none := hstate
      rw [htool] at hs ⊢
      generalize p.kindAt index = kind at hs ⊢
      cases hs with
      | text => exact .text
      | other => exact .other
      | ended hraw hended hparse => exact .ended hraw rfl hparse
    · rename_i state hstate
      split at h
      · cases h
      · rename_i args hparse
        cases h
        refine ⟨_, _, (change_putBlock hp).deleteTool, fun s hs => ?_⟩
        have htool : p.toolAt index = some state := hstate
        have hnot : p.kindAt index ≠ .text := by
          intro hkind
          rw [kindAt] at hkind
          unfold BlockKind.of at hkind
          split at hkind
          · exact hnotext _ _ ‹_›
          · exact hnothinking _ _ _ ‹_›
          · cases hkind
          · cases hkind
        rw [htool] at hs
        generalize p.kindAt index = kind at hs hnot
        cases hs with
        | text => exact absurd rfl hnot
        | started hraw => exact .ended hraw rfl hparse

variable {w : WireEvent} {ws : List WireEvent} {out : List Event}

theorem step_block (hp : p.Valid) (hw : w.blockIndex = some index)
    (h : (machine env).step p w = (out, .next q)) :
    BlockStep env.json p q index fun s => sentEvent env.json s w := by
  have hnext : BlockStep env.json p.next q index fun s => sentEvent env.json s w := by
    cases w with
    | contentBlockStart e =>
      cases e with
      | error err => cases hw
      | ok e =>
        cases hw
        have hq : (onBlockStart env p.next e.1 e.2).2 = q := by
          cases h
          rfl
        exact hq ▸ blockStep_start (p := p.next) hp e.1 e.2
    | contentBlockDelta e =>
      cases e with
      | error err => cases hw
      | ok e =>
        cases hw
        have hdelta : onBlockDelta env p.next e.1 e.2 = (out, .next q) := h
        exact blockStep_delta (p := p.next) hp hdelta
    | contentBlockStop e =>
      cases e with
      | error err => cases hw
      | ok i =>
        cases hw
        exact blockStep_stop (p := p.next) hp h
    | _ => cases hw
  obtain ⟨kind, tool, hchange, htracks⟩ := hnext
  exact ⟨kind, tool, ⟨hchange.valid, hchange.kinds, hchange.tools, hchange.grows⟩, htracks⟩

theorem step_other (hw : w.blockIndex = none) (h : (machine env).step p w = (out, .next q)) :
    q.acc.blocks = p.acc.blocks ∧ q.acc.toolStates = p.acc.toolStates ∧ q.heap = p.heap := by
  cases w with
  | blank | ping | other =>
    cases h
    exact ⟨rfl, rfl, rfl⟩
  | invalid err => cases h
  | messageStart e | messageDelta e =>
    cases e with
    | error err => cases h
    | ok e =>
      cases h
      exact ⟨rfl, rfl, rfl⟩
  | contentBlockStart e | contentBlockDelta e | contentBlockStop e =>
    cases e with
    | error err => cases h
    | ok e => cases hw
  | messageStop =>
    have hstep : (machine env).step p .messageStop =
        ((finish env p.next).1, .next (finish env p.next).2) := rfl
    rw [h, finish] at hstep
    split at hstep <;> cases hstep <;> exact ⟨rfl, rfl, rfl⟩
  | error e => cases e <;> cases h

theorem sentCall_concat (J : JsonLib) (ws : List WireEvent) (w : WireEvent) (index : Int) :
    sentCall J (ws ++ [w]) index =
      if w.blockIndex = some index then sentEvent J (sentCall J ws index) w
      else sentCall J ws index := by
  rw [sentCall, filter_append, foldl_append, ← sentCall, filter_singleton]
  split <;> simp_all

theorem Follows.step (h : Follows env.json ws p) (hs : (machine env).step p w = (out, .next q)) :
    Follows env.json (ws ++ [w]) q := by
  cases hw : w.blockIndex with
  | none =>
    obtain ⟨hblocks, htools, hheap⟩ := step_other hw hs
    refine ⟨?_, fun index => ?_⟩
    · rw [SseProcessor.Valid, hblocks, hheap]
      exact h.valid
    · rw [sentCall_concat, hw, if_neg (fun hnone => by cases hnone), kindAt,
        blockAt, toolAt, hblocks, htools, hheap]
      exact h.tracks index
  | some i =>
    obtain ⟨kind, tool, hchange, htracks⟩ := step_block h.valid hw hs
    refine ⟨hchange.valid, fun index => ?_⟩
    rw [sentCall_concat, hw, hchange.kinds, hchange.tools]
    by_cases hi : index = i
    · subst hi
      rw [if_pos rfl, update_self, update_self]
      exact htracks _ (h.tracks index)
    · rw [if_neg (fun heq => hi (Option.some.inj heq).symm), update_of_ne hi,
        update_of_ne hi]
      exact h.tracks index

theorem steps_follows (h : (machine env).Steps (newSSEProcessor model) ws out q) :
    Follows env.json ws q :=
  h.invariant ⟨nofun, fun _ => .other⟩ fun hread hs => hread.step hs

theorem step_grows (hp : p.Valid) (hs : (machine env).step p w = (out, .next q)) :
    q.Valid ∧ Grows p q := by
  cases hw : w.blockIndex with
  | none =>
    obtain ⟨hblocks, -, hheap⟩ := step_other hw hs
    rw [SseProcessor.Valid, Grows, hblocks, hheap]
    exact ⟨hp, Grows.refl p⟩
  | some i =>
    obtain ⟨kind, tool, hchange, -⟩ := step_block hp hw hs
    exact ⟨hchange.valid, hchange.grows⟩

theorem steps_grows (h : (machine env).Steps p ws out q) (hp : p.Valid) : Grows p q := by
  have key : q.Valid ∧ Grows p q :=
    h.invariant (P := fun _ s => s.Valid ∧ Grows p s) ⟨hp, .refl p⟩
      fun hread hs => (step_grows hread.1 hs).imp_right hread.2.trans
  exact key.2

/-! ### The finished message -/

/-- A message sent at `u` shows the calls of the server, also when it is read later. -/
theorem Follows.callsSent (h : Follows env.json (untilStop ws) u) (hended : CallsEnded env.json ws)
    (hv : Grows u v) :
    CallsSent env.json (sentCall env.json (untilStop ws)) (ws.any (·.isStop))
      (u.acc.orderedContent.filterMap (v.heap[·]?)) := by
  intro call hcall
  obtain ⟨ref, href, hlater⟩ := mem_filterMap.mp hcall
  obtain ⟨⟨index, ref'⟩, hentry, rfl⟩ := mem_map.mp href
  have hlookup : u.acc.blocks.lookup index = some ref' :=
    AList.mem_lookup_iff.mpr ((mem_insertionSort _).mp hentry)
  have hlt := h.valid index ref' hlookup
  obtain ⟨b, hb, htool⟩ := hv ref' _ (List.getElem?_eq_getElem hlt)
  cases hb.symm.trans hlater
  have hblock : u.blockAt index = some (.toolCall call) := by
    rw [blockAt, hlookup, Option.bind_some, List.getElem?_eq_getElem hlt,
      htool call rfl]
  have ht := h.tracks index
  rw [kindAt, hblock] at ht
  generalize hs : sentCall env.json (untilStop ws) index = sent at ht
  generalize u.toolAt index = tool at ht
  cases ht with
  | @started s parser hraw hopen =>
    obtain ⟨-, hinput, hend⟩ := hended index s hs
    rcases hend with hend | ⟨htext, hstop⟩
    · exact absurd (hopen.symm.trans hend) (by decide)
    · exact ⟨index, s, hs, rfl, rfl, .inr ⟨htext, hinput htext, rfl, .inr hstop⟩⟩
  | @ended s parser args hraw hclosed hparse =>
    obtain ⟨hplain, hinput, -⟩ := hended index s hs
    refine ⟨index, s, hs, rfl, rfl, ?_⟩
    rcases parseFinal_ok (hraw.symm ▸ hplain) hparse with hok | ⟨htext, rfl⟩
    · exact .inl (hraw ▸ hok)
    · rw [hraw] at htext
      exact .inr ⟨htext, hinput htext, rfl, .inl hclosed⟩

/-- The run on the events of a connection that ends without an error. -/
def answer (env : StreamEnv) (ws : List WireEvent) : Result SseProcessor Event String :=
  (machine env).run none none (newSSEProcessor env.model) ws

/-- The consumer gets `EventDone` with calls as the server has sent them, or `EventError`. -/
def CallsComplete (env : StreamEnv) (endpoint : ProviderEndpoint) (now : Int)
    (ws : List WireEvent) : Prop :=
  EndsWith (fun m => CallsSent env.json (sentCall env.json (untilStop ws)) (ws.any (·.isStop))
      (m.resolve ((answer env ws).state.heap[·]?)).content)
    (streamOf endpoint env.model now (answer env ws)).ch

theorem callsComplete (hsettled : Settled none none ws) (hended : CallsEnded env.json ws)
    (endpoint : ProviderEndpoint) (now : Int) : CallsComplete env endpoint now ws := by
  have hend : SettledEnd env (newSSEProcessor env.model) ws (answer env ws) :=
    run_settled hsettled rfl
  rw [CallsComplete, ch_streamOf]
  generalize answer env ws = r at hend ⊢
  cases hend with
  | failed => exact endsWith_of_error rfl ..
  | @done out u v q rest hsteps _ hrest hheap =>
    have hfollows := steps_follows hsteps
    refine endsWith_of_done rfl rfl rfl rfl ?_ ..
    have hgrows := steps_grows hrest hfollows.valid
    rw [hheap]
    exact hfollows.callsSent hended hgrows

end Anthropic

/-! ## OpenAI -/

namespace OpenAI

/-- The calls after one more delta: the first one for an index gives the id and the name. -/
def sentDelta (sent : Int → Option SentCall) (tc : WireToolCall) : Int → Option SentCall :=
  let index := tc.index.getD 0
  let s := (sent index).getD { id := tc.id, name := tc.name }
  update sent index (some { s with text := s.text ++ tc.arguments })

def WireEvent.toolCalls : WireEvent → List WireToolCall
  | .chunk c => c.choices.flatMap (·.toolCalls)
  | _ => []

def WireEvent.isDone : WireEvent → Bool
  | .done => true
  | _ => false

/-- A choice of the chunk has a finish reason. -/
def WireEvent.finishes : WireEvent → Bool
  | .chunk c => c.choices.any (·.finishReason.isSome)
  | _ => false

def untilDone (ws : List WireEvent) : List WireEvent := ws.takeWhile (!·.isDone)

/-- The call that the server has sent at an index. -/
def sentCall (ws : List WireEvent) : Int → Option SentCall :=
  (ws.flatMap (·.toolCalls)).foldl sentDelta fun _ => none

/-- The server has said that the message is complete. -/
def messageEnded (ws : List WireEvent) : Bool :=
  ws.any (·.isDone) || (untilDone ws).any (·.finishes)

def CallsEnded (J : JsonLib) (ws : List WireEvent) : Prop :=
  ∀ index s, sentCall (untilDone ws) index = some s →
    J.Plain s.text ∧ (s.text = "" → messageEnded ws = true)

/-- The state of a call is what the server has sent of it. -/
structure Same (s : SentCall) (state : ToolStreamState) : Prop where
  id : state.id = s.id
  name : state.name = s.name
  text : state.parser.raw = s.text
  input : s.input = []

def Tracks (sent : Int → Option SentCall) (acc : StreamAccumulator) : Prop :=
  ∀ index, Option.Rel Same (sent index) (acc.toolStates.lookup index)

variable {env : StreamEnv} {acc acc' : StreamAccumulator} {sent : Int → Option SentCall}
  {out : List Event} {ws : List WireEvent} {calls : List ToolCall}

theorem Tracks.update (h : Tracks sent acc) (hi : acc'.toolStates.lookup index = some state)
    (hne : ∀ j ≠ index, acc'.toolStates.lookup j = acc.toolStates.lookup j) (hs : Same s state) :
    Tracks (update sent index (some s)) acc' := by
  intro j
  by_cases hj : j = index
  · subst hj
    rw [update_self, hi]
    exact .some hs
  · rw [update_of_ne hj, hne j hj]
    exact h j

theorem openCall_same (h : Tracks sent acc) (index : Int) (tc : WireToolCall) :
    (openCall acc index tc).2.1.toolStates.lookup index = some (openCall acc index tc).2.2 ∧
      (∀ j ≠ index,
        (openCall acc index tc).2.1.toolStates.lookup j = acc.toolStates.lookup j) ∧
      Same ((sent index).getD { id := tc.id, name := tc.name }) (openCall acc index tc).2.2 := by
  have hrel := h index
  unfold openCall
  generalize hsent : sent index = s at hrel
  cases hlookup : acc.toolStates.lookup index with
  | none =>
    rw [hlookup] at hrel
    cases hrel
    exact ⟨AList.lookup_insert _, fun j hj => AList.lookup_insert_ne hj, rfl, rfl, rfl, rfl⟩
  | some state =>
    rw [hlookup] at hrel
    cases hrel with
    | some hsame => exact ⟨hlookup, fun _ _ => rfl, hsame⟩

theorem tracks_delta (h : Tracks sent acc)
    (hs : processToolCallDelta env acc tc = (out, .next acc')) :
    Tracks (sentDelta sent tc) acc' := by
  obtain ⟨hi, hne, hsame⟩ := openCall_same h (tc.index.getD 0) tc
  unfold processToolCallDelta at hs
  dsimp only at hs
  generalize openCall acc (tc.index.getD 0) tc = opened at hs hi hne hsame
  obtain ⟨o, acc₁, state⟩ := opened
  dsimp only at hs hi hne hsame
  split at hs
  · rename_i hempty
    cases hs
    refine h.update hi hne ⟨hsame.id, hsame.name, ?_, hsame.input⟩
    rw [hempty, String.append_empty]
    exact hsame.text
  · have hraw := raw_appendDelta env.json state.parser tc.arguments
    generalize state.parser.appendDelta env.json tc.arguments = appended at hs hraw
    obtain ⟨parser, result⟩ := appended
    cases result with
    | error err => cases hs
    | ok args =>
      cases hs
      exact h.update (AList.lookup_insert _)
        (fun j hj => (AList.lookup_insert_ne hj).trans (hne j hj))
        ⟨hsame.id, hsame.name, hraw.trans (congrArg (· ++ tc.arguments) hsame.text), hsame.input⟩

theorem tracks_choice (h : Tracks sent acc)
    (hs : processChoice env acc choice = (out, .next acc')) :
    Tracks (choice.toolCalls.foldl sentDelta sent) acc' := by
  unfold processChoice at hs
  dsimp only at hs
  generalize heach : each (processToolCallDelta env) (choiceTexts acc choice).2 choice.toolCalls =
    r at hs
  obtain ⟨outs, st⟩ := r
  cases st with
  | next acc₁ =>
    cases hs
    have hsteps := steps_of_each (fun acc => ([], acc, none)) heach
    exact hsteps.invariant (P := fun read s => Tracks (read.foldl sentDelta sent) s) h
      fun hP hstep => by
        rw [foldl_append]
        exact tracks_delta hP hstep
  | stop | fail => cases hs

theorem tracks_event (h : Tracks sent acc) (hs : processEvent env acc w = (out, .next acc')) :
    Tracks (w.toolCalls.foldl sentDelta sent) acc' := by
  cases w with
  | blank =>
    cases hs
    exact h
  | done | invalid err => cases hs
  | chunk chunk =>
    have hstart : (startChunk env acc chunk).2.toolStates = acc.toolStates := by
      unfold startChunk
      split <;> rfl
    obtain ⟨-, heach⟩ := Prod.mk.inj hs
    have hsteps := steps_of_each (fun acc => ([], acc, none)) (Prod.ext rfl heach)
    refine hsteps.invariant
      (P := fun read s => Tracks ((read.flatMap (·.toolCalls)).foldl sentDelta sent) s) ?_ ?_
    · intro index
      show Option.Rel Same (sent index) ((startChunk env acc chunk).2.toolStates.lookup index)
      rw [hstart]
      exact h index
    · intro read s choice out s' hP hstep
      rw [flatMap_append, foldl_append, flatMap_singleton]
      exact tracks_choice hP hstep

theorem processEvent_ne_stop (h : (processEvent env acc w).2 = .stop acc') :
    w = .done ∧ acc' = acc := by
  have hdelta : ∀ (acc : StreamAccumulator) tc t, (processToolCallDelta env acc tc).2 ≠ .stop t := by
    intro acc tc t ht
    unfold processToolCallDelta at ht
    dsimp only at ht
    split at ht
    · cases ht
    · split at ht <;> cases ht
  have hchoice : ∀ (acc : StreamAccumulator) choice t, (processChoice env acc choice).2 ≠ .stop t := by
    intro acc choice t ht
    unfold processChoice at ht
    dsimp only at ht
    split at ht
    · cases ht
    · rename_i heach
      exact each_ne_stop hdelta _ _ _ (congrArg Prod.snd heach |>.trans ht)
  cases w with
  | blank | invalid err => cases h
  | done =>
    cases h
    exact ⟨rfl, rfl⟩
  | chunk chunk => exact absurd h (each_ne_stop hchoice _ _ _)

/-- A run tracks the calls that the server has sent, and it stops at `[DONE]`. -/
theorem steps_tracks (h : (machine env).Steps acc ws out acc') (hacc : acc.toolStates = ∅) :
    Tracks (sentCall ws) acc' ∧ ∀ w ∈ ws, w.isDone = false := by
  refine h.invariant (P := fun read s => Tracks (sentCall read) s ∧ ∀ w ∈ read, w.isDone = false)
    ⟨fun index => ?_, forall_mem_nil _⟩ ?_
  · rw [hacc]
    exact .none
  · intro read s w out s' hP hstep
    refine ⟨?_, forall_mem_append.mpr ⟨hP.2, forall_mem_singleton.mpr ?_⟩⟩
    · rw [sentCall, flatMap_append, foldl_append, flatMap_singleton]
      have hnext : Tracks (sentCall read) { s with read := s.read + 1 } := hP.1
      exact tracks_event hnext hstep
    · cases w with
      | done => cases hstep
      | _ => rfl

/-- The call has been sent with this text. -/
def Sent (J : JsonLib) (sent : Int → Option SentCall) (index : Int) (call : ToolCall) : Prop :=
  ∃ s, sent index = some s ∧ call.id = s.id ∧ call.name = s.name ∧ s.input = [] ∧
    ToolJSONParser.parseFinal J ⟨[s.text]⟩ = .ok call.arguments

theorem finalizeToolCalls_sent (hstates : ∀ e ∈ states, ∃ s, sent e.1 = some s ∧ Same s e.2)
    (h : finalizeToolCalls env states = (out, .ok calls)) :
    List.Forall₂ (Sent env.json sent) (states.map (·.1)) calls := by
  induction states generalizing out calls with
  | nil =>
    cases h
    exact .nil
  | cons e states ih =>
    unfold finalizeToolCalls at h
    split at h
    · cases h
    · rename_i args hparse
      obtain ⟨-, hcalls⟩ := Prod.mk.inj h
      generalize hrest : finalizeToolCalls env states = r at hcalls
      obtain ⟨out', result⟩ := r
      cases result with
      | error err => cases hcalls
      | ok calls' =>
        cases hcalls
        obtain ⟨⟨s, hs, hsame⟩, hstates⟩ := forall_mem_cons.mp hstates
        refine .cons ⟨s, hs, hsame.id, hsame.name, hsame.input, ?_⟩ (ih hstates hrest)
        rw [← hparse]
        simp [ToolJSONParser.parseFinal, ToolJSONParser.raw, ← hsame.text]

theorem toolCall_mem_finalContent (h : .toolCall call ∈ finalContent acc calls) : call ∈ calls := by
  rcases mem_append.mp h with h | h
  · rcases mem_append.mp h with h | h
    · split at h
      · cases h
      · cases mem_singleton.mp h
    · split at h
      · cases h
      · cases mem_singleton.mp h
  · obtain ⟨call', hmem, heq⟩ := mem_map.mp h
    cases heq
    exact hmem

/-- The states of the calls in the order in which they are finished. -/
def StreamAccumulator.states (acc : StreamAccumulator) : List (Σ _ : Int, ToolStreamState) :=
  acc.toolStates.entries.insertionSort fun s s' => s.1 ≤ s'.1

theorem Tracks.states (h : Tracks sent acc) : ∀ e ∈ acc.states, ∃ s, sent e.1 = some s ∧ Same s e.2 := by
  intro e he
  have hlookup : acc.toolStates.lookup e.1 = some e.2 :=
    AList.mem_lookup_iff.mpr ((mem_insertionSort _).mp he)
  have hrel := h e.1
  rw [hlookup] at hrel
  generalize hs : sent e.1 = s? at hrel
  cases hrel with
  | some hsame => exact ⟨_, rfl, hsame⟩

theorem forall₂_mem_right (h : List.Forall₂ R l l') : ∀ b ∈ l', ∃ a, R a b := by
  induction h with
  | nil => exact forall_mem_nil _
  | cons hab _ ih => exact forall_mem_cons.mpr ⟨⟨_, hab⟩, ih⟩

/-- What is finished has the calls that have been tracked. -/
theorem Tracks.callsSent (h : Tracks sent acc)
    (hended : ∀ index s, sent index = some s → env.json.Plain s.text ∧ (s.text = "" → ended = true))
    (hcalls : finalizeToolCalls env acc.states = (out, .ok calls)) :
    CallsSent env.json sent ended (finalContent acc calls) := by
  intro call hcall
  obtain ⟨index, s, hs, hid, hname, hinput, hparse⟩ :=
    forall₂_mem_right (finalizeToolCalls_sent h.states hcalls) call (toolCall_mem_finalContent hcall)
  obtain ⟨hplain, hempty⟩ := hended index s hs
  have hraw : (⟨[s.text]⟩ : ToolJSONParser).raw = s.text := by simp [ToolJSONParser.raw]
  refine ⟨index, s, hs, hid, hname, ?_⟩
  rcases parseFinal_ok (hraw.symm ▸ hplain) hparse with hok | ⟨htext, hargs⟩
  · exact .inl (hraw ▸ hok)
  · exact .inr ⟨hraw ▸ htext, hinput, hargs, .inr (hempty (hraw ▸ htext))⟩

def answer (env : StreamEnv) (ws : List WireEvent) : Result StreamAccumulator Event String :=
  (machine env).run none none (newAccumulator env.model) ws

/-- The events of a finished answer, and the message of the last one. -/
structure Finished (env : StreamEnv) (ws : List WireEvent) (events : List Event)
    (m : StreamedMessage ContentBlock) (acc : StreamAccumulator) (calls : List ToolCall) : Prop where
  steps : ∃ out, (machine env).Steps (newAccumulator env.model) (untilDone ws) out acc ∧
    events = out ++ (finalizeToolCalls env acc.states).1 ++
      [{ type := .done, reason := some m.stopReason, message := some m }]
  finalized : (finalizeToolCalls env acc.states).2 = .ok calls
  content : m.content = finalContent acc calls

theorem finished_endsWith {P : StreamedMessage ContentBlock → Prop}
    (hsteps : (machine env).Steps (newAccumulator env.model) (untilDone ws) before acc)
    {r : Result StreamAccumulator Event String}
    (hr : r = ((machine env).finished { acc with read := n }).after before)
    (hP : ∀ m acc calls, Finished env ws (sentEvents endpoint env.model now r) m acc calls → P m) :
    EndsWith P (sentEvents endpoint env.model now r) := by
  have hfinish : ∀ acc, (machine env).finished acc =
      ⟨(finishStream env { acc with read := acc.read + 1 }).1, { acc with read := acc.read + 1 },
        (finishStream env { acc with read := acc.read + 1 }).2⟩ := fun _ => rfl
  rw [hfinish, finishStream] at hr
  split at hr
  · subst hr
    exact endsWith_of_error rfl ..
  · rename_i outs calls hcalls
    have hfinal : finalizeToolCalls env acc.states = (outs, .ok calls) := hcalls
    have hsent : sentEvents endpoint env.model now r = r.out := by
      rw [hr]
      exact append_nil _
    have hout := congrArg Result.out hr
    refine endsWith_of_done (by rw [hr]; rfl) (hout.trans (append_assoc ..).symm) rfl rfl
      (hP _ acc calls ⟨⟨before, hsteps, ?_⟩, by rw [hfinal], rfl⟩) ..
    rw [hsent, hout, hfinal]
    exact (append_assoc ..).symm

theorem answer_endsWith {P : StreamedMessage ContentBlock → Prop} (endpoint : ProviderEndpoint)
    (now : Int) (hP : ∀ m acc calls,
      Finished env ws (sentEvents endpoint env.model now (answer env ws)) m acc calls → P m) :
    EndsWith P (sentEvents endpoint env.model now (answer env ws)) := by
  have hends := (machine env).run_cases none none (newAccumulator env.model) ws
  rw [← answer] at hends
  generalize answer env ws = r at hends hP ⊢
  cases hends with
  | finish hsteps =>
    obtain ⟨-, hdone⟩ := steps_tracks hsteps rfl
    have huntil : untilDone ws = ws := takeWhile_eq_self_iff.mpr fun w hw => by simp [hdone w hw]
    exact finished_endsWith (huntil.symm ▸ hsteps) rfl hP
  | eof _ heof => cases heof
  | interrupt _ _ hint => cases hint
  | @stop read rest out outs t t' w hws hsteps hstop =>
    obtain ⟨-, hdone⟩ := steps_tracks hsteps rfl
    obtain ⟨rfl, rfl⟩ := processEvent_ne_stop (congrArg Prod.snd hstop)
    have huntil : untilDone ws = read := by
      rw [hws, untilDone, takeWhile_append_of_pos fun w hw => by simp [hdone w hw]]
      simp [WireEvent.isDone]
    cases hstop
    rw [append_nil] at hP ⊢
    exact finished_endsWith (huntil.symm ▸ hsteps) rfl hP
  | fail => exact endsWith_of_error rfl ..

def CallsComplete (env : StreamEnv) (endpoint : ProviderEndpoint) (now : Int)
    (ws : List WireEvent) : Prop :=
  EndsWith (fun m => CallsSent env.json (sentCall (untilDone ws)) (messageEnded ws) m.content)
    (streamOf endpoint env.model now (answer env ws)).ch

theorem callsComplete (hended : CallsEnded env.json ws) (endpoint : ProviderEndpoint)
    (now : Int) : CallsComplete env endpoint now ws := by
  rw [CallsComplete, ch_streamOf]
  refine answer_endsWith endpoint now fun m acc calls h => ?_
  obtain ⟨out, hsteps, -⟩ := h.steps
  rw [h.content]
  exact (steps_tracks hsteps rfl).1.callsSent hended (Prod.ext rfl h.finalized)

end OpenAI

def readText : String := "\x7b\"path\":\"a\"\x7d"

/-- A server that sends one call, and a reader of its arguments. -/
def readEnv : StreamEnv :=
  { sampleEnv with json := { sampleEnv.json with
    unmarshal := fun text =>
      if text = readText then .ok (some [("path", .str "a")])
      else .error "unexpected end of JSON input" } }

def readEvents : List Anthropic.WireEvent :=
  [.contentBlockStart (.ok (0, .toolUse "t1" "read" [])),
    .contentBlockDelta (.ok (0, .inputJSON readText)), .contentBlockStop (.ok 0)]

def readChunks : List OpenAI.WireEvent :=
  [.chunk { choices := [{ toolCalls := [⟨some 0, "t1", "read", readText⟩] }] }, .done]

end FlexAgentRuntime.Ai
