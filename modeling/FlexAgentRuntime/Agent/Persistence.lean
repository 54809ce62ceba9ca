import FlexAgentRuntime.Agent.JsonFields
import FlexAgentRuntime.Ai.Transform

/-!
What a conversation log is after it has been written as records and read back.

A record is always readable, and reading it gives the message `restored`: the text
blocks of a user message are one block, and an assistant message has lost its API
and its provider, so that `TransformMessages` no longer takes it for a message of
the model that produced it. `persisted_log_unchanged_iff` says which logs come back
as they were.
-/

namespace FlexAgentRuntime.AgentLoop

open Ai List

/-! ## Payloads come back -/

theorem UserRecordContent.unmarshal_marshal (p : UserRecordContent) :
    UserRecordContent.unmarshal p.marshal = some p := by
  have hnodup : (p.fields.map (·.1)).Nodup := by simp [UserRecordContent.fields]
  simp only [UserRecordContent.unmarshal, UserRecordContent.marshal, bind_readObject,
    lookup_presentFields hnodup]
  simp [UserRecordContent.fields, lookup_cons]

theorem RecordContentBlock.unmarshal_marshal (b : RecordContentBlock) :
    RecordContentBlock.unmarshal b.marshal = some b := by
  have hnodup : (b.fields.map (·.1)).Nodup := by simp [RecordContentBlock.fields]
  simp only [RecordContentBlock.unmarshal, RecordContentBlock.marshal, bind_readObject,
    lookup_presentFields hnodup]
  simp [RecordContentBlock.fields, lookup_cons]

theorem unmarshalBlocks_marshalBlocks (blocks : List RecordContentBlock) :
    readArray RecordContentBlock.unmarshal (some (marshalBlocks blocks)) = some blocks := by
  have hmap (blocks : List RecordContentBlock) :
      (blocks.map RecordContentBlock.marshal).mapM RecordContentBlock.unmarshal = some blocks := by
    induction blocks with
    | nil => rfl
    | cons b blocks ih => simp [RecordContentBlock.unmarshal_marshal, ih]
  cases blocks with
  | nil => rfl
  | cons b blocks => exact hmap (b :: blocks)

theorem unmarshalCost_marshalCost (cost : UsageCost) :
    unmarshalCost (some (marshalCost cost)) = some cost := by
  have hnodup : ((costFields cost).map (·.1)).Nodup := by simp [costFields]
  simp only [unmarshalCost, marshalCost, bind_readObject, lookup_presentFields hnodup]
  simp [costFields, lookup_cons]

theorem unmarshalUsage_marshalUsage (usage : Usage) :
    unmarshalUsage (some (marshalUsage usage)) = some usage := by
  have hnodup : ((usageFields usage).map (·.1)).Nodup := by simp [usageFields]
  simp only [unmarshalUsage, marshalUsage, bind_readObject, lookup_presentFields hnodup]
  simp [usageFields, lookup_cons, unmarshalCost_marshalCost]

theorem AssistantRecordContent.unmarshal_marshal (p : AssistantRecordContent) :
    AssistantRecordContent.unmarshal p.marshal = some p := by
  have hnodup : (p.fields.map (·.1)).Nodup := by simp [AssistantRecordContent.fields]
  simp only [AssistantRecordContent.unmarshal, AssistantRecordContent.marshal,
    bind_readObject, lookup_presentFields hnodup]
  simp [AssistantRecordContent.fields, lookup_cons, unmarshalBlocks_marshalBlocks,
    unmarshalUsage_marshalUsage]

theorem ToolResultRecordContent.unmarshal_marshal (p : ToolResultRecordContent) :
    ToolResultRecordContent.unmarshal p.marshal = some p := by
  have hnodup : (p.fields.map (·.1)).Nodup := by simp [ToolResultRecordContent.fields]
  simp only [ToolResultRecordContent.unmarshal, ToolResultRecordContent.marshal,
    bind_readObject, lookup_presentFields hnodup]
  simp [ToolResultRecordContent.fields, lookup_cons, unmarshalBlocks_marshalBlocks]

/-! ## Messages come back as `restored` -/

/-- The text of the blocks of a user message. -/
def joinedText (content : List ContentBlock) : String :=
  "\n".intercalate (content.filterMap fun
    | .text text _ => some text
    | _ => none)

/-- What reading the record of a message gives. -/
def restoredMessage : Message → Message
  | .user [] timestamp => .user [] timestamp
  | .user (block :: content) timestamp =>
    .user [.text (joinedText (block :: content)) ""] timestamp
  | .assistant m => .assistant { m with api := "", provider := "" }
  | .toolResult m => .toolResult m

def restored (msg : AgentMessage) : AgentMessage :=
  { msg with message := restoredMessage msg.message }

theorem mapM_ok_of_inverse {α β ε : Type} {encode : α → Except ε β} {decode : β → Except ε α}
    {f : α → α} (h : ∀ a b, encode a = .ok b → decode b = .ok (f a)) {as : List α} {bs : List β}
    (hbs : as.mapM encode = .ok bs) : bs.mapM decode = .ok (as.map f) := by
  rw [mapM_eq_ok_iff] at hbs ⊢
  induction hbs with
  | nil => exact .nil
  | cons hab _ ih => exact .cons (h _ _ hab) ih

theorem fromRecordBlock_toRecordBlock (block : ContentBlock) (b : RecordContentBlock)
    (h : toRecordBlock allow block = .ok b) : fromRecordBlock allow b = .ok block := by
  cases block with
  | text | image =>
    cases h
    rfl
  | thinking | toolCall =>
    cases allow with
    | false => cases h
    | true =>
      cases h
      rfl

theorem fromRecordBlocks_toRecordBlocks {allow : Bool} {blocks : List ContentBlock}
    {bs : List RecordContentBlock} (h : blocks.mapM (toRecordBlock allow) = .ok bs) :
    bs.mapM (fromRecordBlock allow) = .ok blocks := by
  have := mapM_ok_of_inverse (f := id) fromRecordBlock_toRecordBlock h
  rwa [map_id] at this

theorem userTexts_eq (h : userTexts content = .ok texts) : texts = content.filterMap fun
      | .text text _ => some text
      | _ => none := by
  induction content generalizing texts with
  | nil =>
    cases h
    rfl
  | cons block content ih =>
    cases block with
    | text text signature =>
      obtain ⟨rest, hrest, htexts⟩ := bind_eq_ok_iff.1 h
      cases htexts
      rw [ih hrest]
      rfl
    | thinking | image | toolCall => cases h

theorem flattenUserText_eq (h : flattenUserText content = .ok text) :
    text = joinedText content := by
  obtain ⟨texts, htexts, htext⟩ := bind_eq_ok_iff.1 h
  cases htext
  rw [userTexts_eq htexts, joinedText]

theorem recordToMessage_of_messageToRecord {msg : Message} {role : String} {content : Json}
    (h : messageToRecord msg = .ok (role, content)) :
    recordToMessage role content = .ok (restoredMessage msg) := by
  cases msg with
  | user blocks timestamp =>
    obtain ⟨text, htext, hrecord⟩ := bind_eq_ok_iff.1 h
    cases hrecord
    rw [flattenUserText_eq htext]
    cases blocks <;>
      simp [recordToMessage, UserRecordContent.unmarshal_marshal, parsed, restoredMessage, bind,
        Except.bind, pure, Except.pure]
  | assistant m =>
    obtain ⟨blocks, hblocks, hrecord⟩ := bind_eq_ok_iff.1 h
    cases hrecord
    have hcontent : fromAssistantRecordBlocks blocks = .ok m.content :=
      fromRecordBlocks_toRecordBlocks hblocks
    simp [recordToMessage, agentMessageRoleUser, agentMessageRoleAssistant,
      AssistantRecordContent.unmarshal_marshal, parsed, restoredMessage, bind, Except.bind, pure,
      Except.pure, hcontent, ofName_name]
  | toolResult m =>
    obtain ⟨blocks, hblocks, hrecord⟩ := bind_eq_ok_iff.1 h
    cases hrecord
    have hcontent : fromToolResultRecordBlocks blocks = .ok m.content :=
      fromRecordBlocks_toRecordBlocks hblocks
    simp [recordToMessage, agentMessageRoleUser, agentMessageRoleAssistant,
      agentMessageRoleToolResult, ToolResultRecordContent.unmarshal_marshal, parsed,
      restoredMessage, bind, Except.bind, pure, Except.pure, hcontent]

theorem recordToAgentMessage_of_agentMessageToRecord (msg : AgentMessage) (r : AgentMessageRecord)
    (h : agentMessageToRecord msg = .ok r) : recordToAgentMessage r = .ok (restored msg) := by
  obtain ⟨record, hmsg, hrecord⟩ := bind_eq_ok_iff.1 h
  cases hrecord
  exact bind_eq_ok_iff.2 ⟨_, recordToMessage_of_messageToRecord hmsg, rfl⟩

/-! ## Which logs come back unchanged -/

/-- The messages that a record keeps whole: a user message of at most one block, a
text without signature, and an assistant message without API and provider. -/
def recordable (msg : AgentMessage) : Bool :=
  match msg.message with
  | .user [] _ => true
  | .user [.text _ textSignature] _ => textSignature = ""
  | .user _ _ => false
  | .assistant m => m.api = "" && m.provider = ""
  | .toolResult _ => true

theorem restored_eq_iff (msg : AgentMessage) : restored msg = msg ↔ recordable msg = true := by
  have heq : restored msg = msg ↔ restoredMessage msg.message = msg.message := by
    constructor
    · intro heq
      exact congrArg AgentMessage.message heq
    · intro heq
      rw [restored, heq]
  rw [heq, recordable]
  cases hm : msg.message with
  | toolResult m => simp [restoredMessage]
  | assistant m =>
    obtain ⟨content, api, provider, model, usage, stopReason, errorMessage, timestamp⟩ := m
    simp only [restoredMessage, Message.assistant.injEq, AssistantMessage.mk.injEq, true_and,
      and_true, Bool.and_eq_true, decide_eq_true_eq]
    exact and_congr eq_comm eq_comm
  | user content timestamp =>
    cases content with
    | nil => simp [restoredMessage]
    | cons block content =>
      cases content with
      | cons => simp [restoredMessage]
      | nil =>
        cases block with
        | text text textSignature => simp [restoredMessage, joinedText, eq_comm]
        | thinking | image | toolCall => simp [restoredMessage]

-- the blocks of a user message are joined
example : restoredMessage (.user [.text "a" "", .text "b" ""]) = .user [.text "a\nb" ""] := by
  simp [restoredMessage, joinedText]

/-- The messages that the provider is given for a log. -/
def providerContext (now : Int) (targetModel : Model)
    (normalizeToolCallID : Option ToolCallIDNormalizer) (log : List AgentMessage) : List Message :=
  transformMessages now (log.map (·.message)) targetModel normalizeToolCallID

/-- A log that has been written as records comes back as it was, and gives every
model the context it gave before, exactly if each of its messages is recordable. -/
theorem persisted_log_unchanged_iff (log : List AgentMessage) (records : List AgentMessageRecord)
    (h : log.mapM agentMessageToRecord = .ok records) :
    (∃ resumed, records.mapM recordToAgentMessage = .ok resumed ∧ resumed = log ∧
      ∀ now targetModel normalizeToolCallID,
        providerContext now targetModel normalizeToolCallID resumed =
          providerContext now targetModel normalizeToolCallID log) ↔
      ∀ msg ∈ log, recordable msg = true := by
  have hread := mapM_ok_of_inverse recordToAgentMessage_of_agentMessageToRecord h
  have hlog : log.map restored = log.map id ↔ ∀ msg ∈ log, recordable msg = true := by
    rw [map_inj_left]
    exact forall₂_congr fun msg _ => restored_eq_iff msg
  rw [map_id] at hlog
  constructor
  · rintro ⟨resumed, hresumed, rfl, -⟩
    rw [hread] at hresumed
    exact hlog.1 (Except.ok.inj hresumed)
  · intro hall
    exact ⟨log, by rw [hread, hlog.2 hall], rfl, fun _ _ _ => rfl⟩

/-- A turn as the loop records it, its answer without the model's API and provider. -/
theorem persisted_turn_unchanged :
    let log : List AgentMessage := [{ turn := 1, message := .user [.text "go" ""] },
      { turn := 1, message := .assistant { content := [.text "done" ""], stopReason := .stop } }]
    ∃ records, log.mapM agentMessageToRecord = .ok records ∧
      ∃ resumed, records.mapM recordToAgentMessage = .ok resumed ∧ resumed = log ∧
        ∀ now targetModel normalizeToolCallID,
          providerContext now targetModel normalizeToolCallID resumed =
            providerContext now targetModel normalizeToolCallID log := by
  intro log
  exact ⟨_, rfl, (persisted_log_unchanged_iff log _ rfl).2 (by decide)⟩

/-- What a model has thought comes back as text that anyone has said: the record
does not keep whose message it is. -/
theorem thinking_resumed_as_text :
    let log : List AgentMessage :=
      [{ turn := 1
         message := .assistant { content := [.thinking "hm" "s" false], api := "messages"
                                 provider := "p", model := "m", stopReason := .stop } }]
    ∃ records, log.mapM agentMessageToRecord = .ok records ∧
      ∃ resumed, records.mapM recordToAgentMessage = .ok resumed ∧ resumed ≠ log ∧
        providerContext 1 ⟨"m", "messages", "p"⟩ none resumed ≠
          providerContext 1 ⟨"m", "messages", "p"⟩ none log := by
  intro log
  refine ⟨_, rfl, log.map restored, ?_, ?_, ?_⟩
  · exact mapM_ok_of_inverse recordToAgentMessage_of_agentMessageToRecord rfl
  · simp [log, restored, restoredMessage]
  · intro h
    cases h

end FlexAgentRuntime.AgentLoop
