import FlexAgentRuntime.Agent.RunSteps

/-!
Where a follow-up can be between `FollowUp` and the conversation: in the channel,
among the commands a loop has drained, in `followUps`, in the hand of the loop,
or appended.

* `nextPrompt_steer`, `nextPrompt_followUp`: what `nextPromptFromControlQueue`
  chooses when no command is an abort;
* `QueueHistory`: the commands accepted so far and what became of them;
* `Ledger`: the accepted follow-ups are, in this order, those dealt with and
  those in each of the places;
* `RunOp.Step.ledger`: every action of a loop keeps the ledger.
-/

namespace FlexAgentRuntime.AgentLoop

open Ai List Interleaving

/-! ## Commands -/

/-- The messages of the follow-ups. -/
def followUps (cmds : List ControlCommand) : List String :=
  (cmds.filter (·.type == .followUp)).map (·.message)

/-- The message of the last steer. -/
def lastSteer (cmds : List ControlCommand) : Option String :=
  ((cmds.filter (·.type == .steer)).map (·.message)).getLast?

/-- Messages as `appendUserMessage` appends them: trimmed, without the blank ones. -/
def texts (msgs : List String) : List String := (msgs.map trimSpace).filter (· != "")

variable {cmds : List ControlCommand} {msg : String}

theorem followUps_append (l l' : List ControlCommand) :
    followUps (l ++ l') = followUps l ++ followUps l' := by
  simp [followUps]

theorem texts_append (l l' : List String) : texts (l ++ l') = texts l ++ texts l' := by
  simp [texts]

theorem mem_followUps : msg ∈ followUps cmds ↔ ⟨.followUp, msg⟩ ∈ cmds := by
  simp only [followUps, mem_map, mem_filter, beq_iff_eq]
  constructor
  · rintro ⟨⟨type, msg⟩, ⟨hmem, rfl⟩, rfl⟩
    exact hmem
  · intro hmem
    exact ⟨_, ⟨hmem, rfl⟩, rfl⟩

theorem lastSteer_mem (h : lastSteer cmds = some msg) : ⟨.steer, msg⟩ ∈ cmds := by
  have hmem := mem_of_getLast? h
  simp only [mem_map, mem_filter, beq_iff_eq] at hmem
  obtain ⟨⟨type, msg⟩, ⟨hmem, rfl⟩, rfl⟩ := hmem
  exact hmem

theorem applyCommands_eq (hab : ∀ cmd ∈ cmds, cmd.type ≠ .abort) (steer : String)
    (pending : List String) :
    applyCommands cmds steer pending =
      ((lastSteer cmds).getD steer, pending ++ followUps cmds, none) := by
  induction cmds generalizing steer pending with
  | nil => simp [applyCommands, lastSteer, followUps]
  | cons cmd cmds ih =>
    obtain ⟨type, msg⟩ := cmd
    have ih := ih fun cmd hc => hab cmd (mem_cons_of_mem _ hc)
    cases type with
    | abort => exact absurd rfl (hab _ mem_cons_self)
    | steer => simp [applyCommands, ih, lastSteer, followUps, List.getLast?_cons]
    | followUp => simp [applyCommands, ih, lastSteer, followUps]

theorem nextPrompt_steer (hab : ∀ cmd ∈ cmds, cmd.type ≠ .abort) (hlast : lastSteer cmds = some msg)
    (hne : msg ≠ "") (steer : String) (pending : List String) :
    nextPromptFromControlQueue cmds steer pending =
      ("", pending ++ followUps cmds, .prompt msg) := by
  have hcmds : cmds ≠ [] := by
    rintro rfl
    cases hlast
  simp [nextPromptFromControlQueue, hcmds, applyCommands_eq hab, hlast, hne]

theorem nextPrompt_followUp (hab : ∀ cmd ∈ cmds, cmd.type ≠ .abort)
    (hlast : (lastSteer cmds).getD "" = "") (pending : List String) :
    nextPromptFromControlQueue cmds "" pending = match pending ++ followUps cmds with
      | msg :: rest => ("", rest, .prompt msg)
      | [] => ("", [], .done) := by
  by_cases hcmds : cmds = [] ∧ pending = []
  · obtain ⟨rfl, rfl⟩ := hcmds
    rfl
  · rw [nextPromptFromControlQueue, if_neg (by simpa using hcmds), applyCommands_eq hab, hlast]
    cases pending ++ followUps cmds <;> rfl

/-- The command whose message `nextPromptFromControlQueue` returns. -/
def takenPrompt (cmds : List ControlCommand) (steer : String) (pending : List String) :
    Option ControlCommand :=
  match nextPromptFromControlQueue cmds steer pending with
  | (_, _, .prompt msg) =>
    some ⟨if (applyCommands cmds steer pending).1 = "" then .followUp else .steer, msg⟩
  | _ => none

/-! ## The ledger of a session -/

/-- The commands accepted; those drained and not yet gone through; the one whose
message the loop has in hand; and the user messages appended for commands, with
the type of the command. -/
structure QueueHistory where
  accepted : List ControlCommand := []
  drained : List ControlCommand := []
  hand : Option ControlCommand := none
  appended : List ControlCommand := []

structure Ledger (q : QueueHistory) (a : Agent) : Prop where
  balance : ∃ done, texts done = followUps q.appended ∧ followUps q.accepted =
    done ++ followUps q.hand.toList ++ a.driver.followUps ++ followUps q.drained ++
      followUps a.control.ch
  sources : ∀ cmd ∈ q.appended, ∃ cmd' ∈ q.accepted,
    cmd'.type = cmd.type ∧ cmd.message = trimSpace cmd'.message
  known : ∀ cmd, cmd ∈ q.hand ∨ cmd ∈ q.drained ∨ cmd ∈ a.control.ch → cmd ∈ q.accepted
  noAbort : ∀ cmd ∈ q.accepted, cmd.type ≠ .abort
  steer : a.driver.pendingSteer = ""
  session : a.session.isSome = true

/-- What the ledger reads of an agent is the same. -/
structure Agent.SameQueue (a a' : Agent) : Prop where
  ch : a'.control.ch = a.control.ch
  followUps : a'.driver.followUps = a.driver.followUps
  steer : a'.driver.pendingSteer = a.driver.pendingSteer
  session : a.session.isSome = true → a'.session.isSome = true

theorem Agent.SameQueue.refl (a : Agent) : a.SameQueue a := ⟨rfl, rfl, rfl, id⟩

theorem Agent.Same.sameQueue {a : Agent} (h : a.Same a') : a.SameQueue a' :=
  ⟨by rw [h.control], by rw [h.driver], by rw [h.driver], by rw [h.session]; exact id⟩

theorem Agent.sameQueue_of_append {a a' : Agent} {msg : AgentMessage}
    (h : a.appendConversation msg = some a') : a.SameQueue a' := by
  obtain ⟨-, hsess, -, hdrv, -, hctl, -⟩ := Agent.appendConversation_some h
  exact ⟨by rw [hctl], by rw [hdrv], by rw [hdrv], by rw [hsess]; exact id⟩

variable {q : QueueHistory} {a a' : Agent} {cmd : ControlCommand}

theorem Ledger.of_same (hl : Ledger q a) (h : a.SameQueue a') : Ledger q a' where
  balance := by
    rw [h.followUps, h.ch]
    exact hl.balance
  sources := hl.sources
  known := by
    rw [h.ch]
    exact hl.known
  noAbort := hl.noAbort
  steer := h.steer.trans hl.steer
  session := h.session hl.session

theorem Ledger.fresh (cfg : SessionConfig) (id : String) (log : List AgentMessage) :
    Ledger {} (World.newAgent cfg id log) :=
  ⟨⟨[], rfl, rfl⟩, nofun, by simp [World.newAgent, newControlQueue], nofun, rfl, rfl⟩

theorem Ledger.accept (hl : Ledger q a) (hcmd : cmd.type ≠ .abort) :
    Ledger { q with accepted := q.accepted ++ [cmd] }
      { a with control := { a.control with ch := a.control.ch ++ [cmd] } } where
  balance := by
    obtain ⟨done, happ, hbal⟩ := hl.balance
    refine ⟨done, happ, ?_⟩
    simp only [followUps_append, hbal, append_assoc]
  sources := by
    intro c hc
    obtain ⟨c', hc', h⟩ := hl.sources c hc
    exact ⟨c', mem_append_left _ hc', h⟩
  known := by
    intro c hc
    simp only [mem_append, mem_singleton] at hc ⊢
    rcases hc with hc | hc | hc | hc
    · exact .inl (hl.known c (.inl hc))
    · exact .inl (hl.known c (.inr (.inl hc)))
    · exact .inl (hl.known c (.inr (.inr hc)))
    · exact .inr hc
  noAbort := by
    intro c hc
    rcases mem_concat.mp hc with hc | rfl
    · exact hl.noAbort c hc
    · exact hcmd
  steer := hl.steer
  session := hl.session

theorem Ledger.drop (hl : Ledger q a)
    (hblank : ∀ cmd ∈ q.hand, cmd.type = .followUp → trimSpace cmd.message = "") :
    Ledger { q with hand := none } a where
  balance := by
    obtain ⟨done, happ, hbal⟩ := hl.balance
    refine ⟨done ++ followUps q.hand.toList, ?_, by simpa [followUps] using hbal⟩
    have hnone : texts (followUps q.hand.toList) = [] := by
      cases hh : q.hand with
      | none => rfl
      | some cmd =>
        obtain ⟨type, msg⟩ := cmd
        cases type with
        | followUp => simp [followUps, texts, hblank _ hh rfl]
        | _ => rfl
    rw [texts_append, happ, hnone, append_nil]
  sources := hl.sources
  known := fun cmd hc => hl.known cmd (.inr (hc.resolve_left nofun))
  noAbort := hl.noAbort
  steer := hl.steer
  session := hl.session

theorem Ledger.append (hl : Ledger q a) (hh : q.hand = some cmd) (hne : trimSpace cmd.message ≠ "")
    :
    Ledger { q with hand := none, appended := q.appended ++ [⟨cmd.type, trimSpace cmd.message⟩] }
      a where
  balance := by
    obtain ⟨done, happ, hbal⟩ := hl.balance
    refine ⟨done ++ followUps q.hand.toList, ?_, by simpa [followUps] using hbal⟩
    rw [texts_append, followUps_append, happ, hh]
    obtain ⟨type, msg⟩ := cmd
    cases type with
    | followUp => simp [followUps, texts, hne]
    | _ => rfl
  sources := by
    intro c hc
    rcases mem_concat.mp hc with hc | rfl
    · exact hl.sources c hc
    · exact ⟨cmd, hl.known cmd (.inl hh), rfl, rfl⟩
  known := fun cmd hc => hl.known cmd (.inr (hc.resolve_left nofun))
  noAbort := hl.noAbort
  steer := hl.steer
  session := hl.session

theorem Ledger.drain (hl : Ledger q a) (hch : a.control.ch = cmd :: ch) :
    Ledger { q with drained := q.drained ++ [cmd] }
      { a with control := { a.control with ch := ch } } where
  balance := by
    obtain ⟨done, happ, hbal⟩ := hl.balance
    refine ⟨done, happ, ?_⟩
    have hsplit : followUps a.control.ch = followUps [cmd] ++ followUps ch := by
      rw [hch, ← followUps_append]
      rfl
    simp only [followUps_append, hbal, hsplit, append_assoc]
  sources := hl.sources
  known := by
    intro c hc
    refine hl.known c ?_
    rw [hch]
    simp only [mem_append, mem_cons, not_mem_nil, or_false] at hc ⊢
    rcases hc with hc | (hc | hc) | hc
    · exact .inl hc
    · exact .inr (.inl hc)
    · exact .inr (.inr (.inl hc))
    · exact .inr (.inr (.inr hc))
  noAbort := hl.noAbort
  steer := hl.steer
  session := hl.session

theorem Ledger.drained_noAbort (hl : Ledger q a) : ∀ cmd ∈ q.drained, cmd.type ≠ .abort :=
  fun cmd hc => hl.noAbort cmd (hl.known cmd (.inr (.inl hc)))

theorem Ledger.move (hl : Ledger q a) (hh : q.hand = none) (hknown : ∀ cmd ∈ hand, cmd ∈ q.accepted)
    (hsame : followUps hand.toList ++ pending = a.driver.followUps ++ followUps q.drained) :
    Ledger { q with drained := [], hand := hand }
      (a.setDriver fun d => { d with pendingSteer := "", followUps := pending }) where
  balance := by
    obtain ⟨done, happ, hbal⟩ := hl.balance
    refine ⟨done, happ, ?_⟩
    calc followUps q.accepted
        = done ++ (a.driver.followUps ++ followUps q.drained) ++ followUps a.control.ch := by
          rw [hbal, hh]
          simp [followUps]
      _ = done ++ (followUps hand.toList ++ pending) ++ followUps a.control.ch := by rw [hsame]
      _ = _ := by simp [followUps, Agent.setDriver]
  sources := hl.sources
  known := by
    intro cmd hc
    rcases hc with hc | hc | hc
    · exact hknown cmd hc
    · cases hc
    · exact hl.known cmd (.inr (.inr hc))
  noAbort := hl.noAbort
  steer := rfl
  session := hl.session

theorem Ledger.take {steer : String} {pending : List String} {next : NextPrompt}
    (hl : Ledger q a) (hh : q.hand = none)
    (hn : nextPromptFromControlQueue q.drained a.driver.pendingSteer a.driver.followUps =
      (steer, pending, next)) :
    Ledger { q with
        drained := []
        hand := takenPrompt q.drained a.driver.pendingSteer a.driver.followUps }
      (a.setDriver fun d => { d with pendingSteer := steer, followUps := pending }) ∧
    next = match takenPrompt q.drained a.driver.pendingSteer a.driver.followUps with
      | some cmd => .prompt cmd.message
      | none => .done := by
  have hab := hl.drained_noAbort
  rw [hl.steer] at hn ⊢
  have happly := applyCommands_eq hab "" a.driver.followUps
  by_cases hlast : (lastSteer q.drained).getD "" = ""
  · have hnext := nextPrompt_followUp hab hlast a.driver.followUps
    cases hall : a.driver.followUps ++ followUps q.drained with
    | nil =>
      rw [hall] at hnext
      have htaken : takenPrompt q.drained "" a.driver.followUps = none := by
        simp [takenPrompt, hnext]
      rw [hn] at hnext
      cases hnext
      rw [htaken]
      exact ⟨hl.move hh nofun hall.symm, rfl⟩
    | cons msg rest =>
      rw [hall] at hnext
      have htaken : takenPrompt q.drained "" a.driver.followUps = some ⟨.followUp, msg⟩ := by
        simp [takenPrompt, hnext, happly, hlast]
      rw [hn] at hnext
      cases hnext
      rw [htaken]
      refine ⟨hl.move hh (fun cmd hc => ?_) hall.symm, rfl⟩
      -- it was in `followUps` or just drained
      cases hc
      obtain ⟨done, -, hbal⟩ := hl.balance
      rw [← mem_followUps, hbal]
      have hmem : msg ∈ a.driver.followUps ++ followUps q.drained := by
        rw [hall]
        exact mem_cons_self
      simp only [mem_append] at hmem ⊢
      tauto
  · obtain ⟨msg, hmsg⟩ : ∃ msg, lastSteer q.drained = some msg := by
      cases h : lastSteer q.drained with
      | none => simp [h] at hlast
      | some msg => exact ⟨msg, rfl⟩
    have hne : msg ≠ "" := by simpa [hmsg] using hlast
    have hnext := nextPrompt_steer hab hmsg hne "" a.driver.followUps
    have htaken : takenPrompt q.drained "" a.driver.followUps = some ⟨.steer, msg⟩ := by
      simp [takenPrompt, hnext, happly, hmsg, hne]
    rw [hn] at hnext
    cases hnext
    rw [htaken]
    refine ⟨hl.move hh (fun cmd hc => ?_) rfl, rfl⟩
    cases hc
    exact hl.known _ (.inr (.inl (lastSteer_mem hmsg)))

/-! ## The actions of a loop -/

/-- The text of the user message that `a'` has more than `a`. -/
def newUserText (a a' : Agent) : Option String :=
  match a'.log.drop a.log.length with
  | [entry] => match entry.message with
    | .user [.text text _] _ => some text
    | _ => none
  | _ => none

/-- What an action of the loop on context `k` does to the history. -/
def RunOp.noteQueue (k : Nat) (a a' : Agent) (q : QueueHistory) : RunOp → QueueHistory
  | .drain cmds => { q with drained := cmds ++ a.control.ch.head?.toList }
  | .nextPrompt cmds => { q with
      drained := []
      hand := takenPrompt cmds a.driver.pendingSteer a.driver.followUps }
  -- an empty prompt is not appended, and a cancelled run drops its prompt
  | .top prompt => if prompt = "" ∨ a.ctxErr k = true then { q with hand := none } else q
  | .appendUser _ => { q with
      hand := none
      appended := q.appended ++
        (q.hand.bind fun cmd => (newUserText a a').map (⟨cmd.type, ·⟩)).toList }
  | _ => q

def QueueHistory.Idle (q : QueueHistory) : Prop := q.hand = none ∧ q.drained = []

/-- The local variables of the loop that is about to execute an action. -/
def RunOp.Locals (q : QueueHistory) : RunOp → Prop
  | .top prompt | .appendUser prompt => (∀ cmd ∈ q.hand, cmd.message = prompt) ∧ q.drained = []
  | .drain cmds | .nextPrompt cmds => q.hand = none ∧ q.drained = cmds
  | _ => q.Idle

/-- The actions that have nothing to do with prompts. -/
def RunOp.plain : RunOp → Bool
  | .top _ | .appendUser _ | .drain _ | .nextPrompt _ => false
  | _ => true

theorem RunOp.locals_of_plain {q : QueueHistory} {rop : RunOp} (hp : rop.plain = true) :
    rop.Locals q ↔ q.Idle := by
  cases rop <;> first | exact Iff.rfl | cases hp

variable {m : MsRef} {k : Nat} {rop : RunOp} {more : List Op}

theorem RunOp.Step.sameQueue (hs : rop.Step m k a a' more) (hp : rop.plain = true) :
    a.SameQueue a' := by
  cases hs with
  | streaming h | toolPhase h | idle h => exact (Agent.transition_ok h).2.2.sameQueue
  | appendAssistant h | appendToolResult h => exact Agent.sameQueue_of_append h
  | toolStarted | toolFinish | turnComplete | turnError => exact (Agent.count_same a _).sameQueue
  | turnBegin =>
    exact ⟨rfl, rfl, rfl, ((Agent.count_same (a.setDriver _) _).sameQueue).session⟩
  | deferred | driverIdle => exact ⟨rfl, rfl, rfl, id⟩
  | topCancelled | topContinue | topPrompt | userBlank | userLost | appendUser | drain | drained
  | abort | prompt | noPrompt => cases hp
  | _ => exact .refl a

/-- An action that has nothing to do with prompts leads to another one, or to the
drain. -/
theorem RunOp.Step.plain_next (hs : rop.Step m k a a' more) (hp : rop.plain = true)
    {next : MsRef × Nat × RunOp} (hn : next ∈ runOps more) :
    next.2.2.plain = true ∨ next.2.2 = .drain [] := by
  cases hs with
  | topCancelled | topContinue | topPrompt | userBlank | userLost | appendUser | drain | drained
  | abort | prompt | noPrompt => cases hp
  | streaming | toolPhase =>
    rw [runOps_append, runOps_emitChange] at hn
    cases mem_singleton.mp hn
    exact .inl rfl
  | idle =>
    rw [runOps_emitChange] at hn
    cases hn
  | @appendToolResult _ _ _ _ _ terminal =>
    rw [runOps_append, runOps_emits] at hn
    cases mem_singleton.mp hn
    cases terminal <;> exact .inl rfl
  | idleRefused | driverIdle => cases hn
  | turnComplete =>
    cases mem_singleton.mp hn
    exact .inr rfl
  | _ =>
    cases mem_singleton.mp hn
    exact .inl rfl

/-- The ledger after an action of the loop, and the locals of what it goes on
with. -/
structure Keeps (q : QueueHistory) (a : Agent) (more : List Op) : Prop where
  ledger : Ledger q a
  next : ∀ next ∈ (runOps more).head?, next.2.2.Locals q
  ends : runOps more = [] → q.Idle

theorem Keeps.run (hmore : runOps more = (m, k, op) :: below) (hl : Ledger q a)
    (hloc : op.Locals q) : Keeps q a more := by
  refine ⟨hl, fun next hn => ?_, fun hnil => ?_⟩
  · rw [hmore] at hn
    cases hn
    exact hloc
  · rw [hmore] at hnil
    cases hnil

theorem newUserText_append {msg : AgentMessage} (h : a.appendConversation msg = some a') :
    newUserText a a' = match msg.message with
      | .user [.text text _] _ => some text
      | _ => none := by
  rw [newUserText, (Agent.appendConversation_some h).1, drop_left]

theorem newUserText_self (a : Agent) : newUserText a a = none := by
  simp [newUserText]

theorem RunOp.Step.keeps (hs : rop.Step m k a a' more) (hl : Ledger q a) (hloc : rop.Locals q)
    (hcancel : ∀ prompt, rop = .top prompt → a.ctxErr k = true →
      ∀ cmd ∈ q.hand, cmd.type ≠ .followUp) : Keeps (rop.noteQueue k a a' q) a' more := by
  by_cases hp : rop.plain = true
  · have hsame : rop.noteQueue k a a' q = q := by
      cases rop <;> first | rfl | cases hp
    have hidle := (RunOp.locals_of_plain hp).mp hloc
    rw [hsame]
    refine ⟨hl.of_same (hs.sameQueue hp), fun next hn => ?_, fun _ => hidle⟩
    rcases hs.plain_next hp (mem_of_mem_head? hn) with h | h
    · exact (RunOp.locals_of_plain h).mpr hidle
    · rw [h]
      exact hidle
  cases hs with try obtain ⟨hhand, rfl⟩ := hloc
  | topCancelled hctx =>
    have hdrop : Ledger { q with hand := none } a :=
      hl.drop fun cmd hc htype => absurd htype (hcancel _ rfl hctx cmd hc)
    rw [noteQueue, if_pos (.inr hctx)]
    exact .run rfl hdrop ⟨rfl, hloc.2⟩
  | topContinue hctx =>
    rw [noteQueue, if_pos (.inl rfl)]
    refine .run rfl (hl.drop fun cmd hc _ => ?_) ⟨rfl, hloc.2⟩
    rw [hloc.1 cmd hc]
    rfl
  | topPrompt hctx hne =>
    rw [noteQueue, if_neg (by simp [hne, hctx])]
    exact .run rfl hl hloc
  | userBlank hblank =>
    simp only [noteQueue, newUserText_self, Option.map_none, Option.bind_fun_none,
      Option.toList_none, append_nil]
    exact ⟨hl.drop fun cmd hc _ => by rw [hloc.1 cmd hc, hblank], nofun, fun _ => ⟨rfl, hloc.2⟩⟩
  | userLost hsess =>
    have := hl.session
    rw [hsess] at this
    cases this
  | @appendUser prompt _ hne happ =>
    have hkeep : Ledger (RunOp.noteQueue k a a' q (.appendUser prompt)) a' := by
      refine Ledger.of_same ?_ (Agent.sameQueue_of_append happ)
      simp only [noteQueue, newUserText_append happ, userMessage, Option.map_some]
      cases hh : q.hand with
      | none =>
        simpa using hl.drop (by rw [hh]; nofun)
      | some cmd =>
        have hmsg := hloc.1 cmd hh
        subst hmsg
        exact hl.append hh hne
    exact ⟨hkeep, nofun, fun _ => ⟨rfl, hloc.2⟩⟩
  | drain hch =>
    simp only [noteQueue, hch, List.head?_cons, Option.toList_some]
    exact .run rfl (hl.drain hch) ⟨hhand, rfl⟩
  | drained hch =>
    simp only [noteQueue, hch, List.head?_nil, Option.toList_none, append_nil]
    exact .run rfl hl ⟨hhand, rfl⟩
  | abort hn =>
    have hnext := (hl.take hhand hn).2
    split at hnext <;> cases hnext
  | prompt hn =>
    obtain ⟨hledger, hnext⟩ := hl.take hhand hn
    split at hnext <;> cases hnext
    rename_i cmd htaken
    refine .run rfl hledger ⟨fun cmd' hc => ?_, rfl⟩
    have heq : takenPrompt q.drained a.driver.pendingSteer a.driver.followUps = some cmd' := hc
    rw [htaken] at heq
    cases heq
    rfl
  | noPrompt hn =>
    obtain ⟨hledger, hnext⟩ := hl.take hhand hn
    split at hnext <;> cases hnext
    exact .run rfl hledger ⟨‹_›, rfl⟩
  | _ => exact absurd rfl hp

end FlexAgentRuntime.AgentLoop
