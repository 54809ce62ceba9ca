import FlexAgentRuntime.Agent.Codec

/-!
`validateAndDecodeResumeLog` of `service.go`: the check of a log that a session is
to be resumed from.

The turn numbers of an accepted log do not decrease, and a log whose turn numbers
do not decrease is never refused for them.
-/

namespace FlexAgentRuntime.AgentLoop

open Ai List

inductive ResumeError where
  | unknownRole (role : String) (index : Nat)
  | invalidRecord (index : Nat) (err : CodecError)
  | turnDecreased (index : Nat) (turn prevTurn : Int)

def ResumeError.message : ResumeError → String
  | .unknownRole role index => "unknown role " ++ quoted role ++ " at index " ++ index.repr
  | .invalidRecord index err => "invalid record at index " ++ index.repr ++ ": " ++ err.message
  | .turnDecreased index turn prevTurn =>
    "turn number decreased at index " ++ index.repr ++ ": " ++ turn.repr ++ " < " ++ prevTurn.repr

def knownRole (role : String) : Bool :=
  role = agentMessageRoleUser || role = agentMessageRoleAssistant ||
    role = agentMessageRoleToolResult

/-- The warnings that one record adds. -/
def recordWarnings (toolSet : List String) (i : Nat) (prevTurn : Int) (prevRole : String)
    (r : AgentMessageRecord) (msg : AgentMessage) : List String :=
  (if 0 < i && prevTurn + 1 < r.turn then
    ["non-contiguous turn numbers at index " ++ (i - 1).repr ++ ": " ++ prevTurn.repr ++ " -> " ++
      r.turn.repr]
  else []) ++
  (if 0 < i && prevRole = r.role then
    ["consecutive records with same role " ++ quoted r.role ++ " at index " ++ i.repr]
  else []) ++
  (match msg.message with
    | .toolResult m =>
      if toolSet.contains m.toolName then []
      else ["tool_result references unknown tool " ++ quoted m.toolName ++ " at index " ++ i.repr]
    | _ => [])

/-- The loop, from the record of index `i` on. -/
def validateLoop (toolSet : List String) : Nat → Int → String → List AgentMessage → List String →
    List AgentMessageRecord → Except ResumeError (List AgentMessage × List String)
  | _, _, _, out, warnings, [] => .ok (out, warnings)
  | i, prevTurn, prevRole, out, warnings, r :: records =>
    if !knownRole r.role then .error (.unknownRole r.role i)
    else
      match recordToAgentMessage r with
      | .error err => .error (.invalidRecord i err)
      | .ok msg =>
        if 0 < i && r.turn < prevTurn then .error (.turnDecreased i r.turn prevTurn)
        else
          validateLoop toolSet (i + 1) r.turn r.role (out ++ [msg])
            (warnings ++ recordWarnings toolSet i prevTurn prevRole r msg) records

def validateAndDecodeResumeLog (records : List AgentMessageRecord) (tools : List String) :
    Except ResumeError (List AgentMessage × List String) :=
  match records with
  | [] => .ok ([], [])
  | first :: _ => validateLoop tools 0 first.turn "" [] [] records

/-- The turn numbers along a log do not decrease. -/
def Ordered (log : List AgentMessage) : Prop := log.Pairwise fun e e' => e.turn ≤ e'.turn

instance (log : List AgentMessage) : Decidable (Ordered log) :=
  inferInstanceAs (Decidable (log.Pairwise _))

variable {log out : List AgentMessage} {records : List AgentMessageRecord}
  {warnings toolSet : List String} {r : AgentMessageRecord} {msg : AgentMessage} {i : Nat}
  {prevTurn : Int} {prevRole : String}

theorem Ordered.append_entry (h : Ordered log) (he : ∀ e' ∈ log, e'.turn ≤ e.turn) :
    Ordered (log ++ [e]) := by
  refine pairwise_append.mpr ⟨h, pairwise_singleton _ e, fun e' he' x hx => ?_⟩
  rw [mem_singleton.mp hx]
  exact he e' he'

theorem turn_recordToAgentMessage (h : recordToAgentMessage r = .ok msg) : msg.turn = r.turn := by
  obtain ⟨message, -, hmsg⟩ := bind_eq_ok_iff.1 h
  cases hmsg
  rfl

theorem turn_agentMessageToRecord (h : agentMessageToRecord msg = .ok r) : r.turn = msg.turn := by
  obtain ⟨⟨role, content⟩, -, hr⟩ := bind_eq_ok_iff.1 h
  cases hr
  rfl

theorem validateLoop_ordered (hout : Ordered out) (hprev : ∀ e ∈ out, e.turn ≤ prevTurn)
    (hfirst : i = 0 → out = [])
    (h : validateLoop toolSet i prevTurn prevRole out warnings records = .ok (log, warnings')) :
    Ordered log := by
  induction records generalizing i prevTurn prevRole out warnings with
  | nil =>
    cases h
    exact hout
  | cons r records ih =>
    unfold validateLoop at h
    split at h
    · cases h
    · split at h
      · cases h
      · rename_i msg hmsg
        split at h
        · cases h
        · rename_i hle
          have hturn := turn_recordToAgentMessage hmsg
          -- the first record is compared with nothing
          have hbefore : ∀ e ∈ out, e.turn ≤ r.turn := by
            intro e he
            rcases Nat.eq_zero_or_pos i with hi | hi
            · rw [hfirst hi] at he
              cases he
            · have hge : prevTurn ≤ r.turn := by simpa [hi] using hle
              exact Int.le_trans (hprev e he) hge
          refine ih (hout.append_entry (hturn ▸ hbefore)) (fun e he => ?_) (fun hi => ?_) h
          · rcases mem_append.mp he with he | he
            · exact hbefore e he
            · exact Int.le_of_eq (by rw [mem_singleton.mp he, hturn])
          · cases hi

theorem validateLoop_not_decreased {prev : Int}
    (hrecords : records.Pairwise fun r r' => r.turn ≤ r'.turn)
    (hprev : ∀ r ∈ records, prevTurn ≤ r.turn) :
    validateLoop toolSet i prevTurn prevRole out warnings records ≠
      .error (.turnDecreased index turn prev) := by
  induction records generalizing i prevTurn prevRole out warnings with
  | nil => nofun
  | cons r records ih =>
    obtain ⟨hr, hrest⟩ := pairwise_cons.mp hrecords
    have hge := hprev r mem_cons_self
    unfold validateLoop
    split
    · nofun
    · split
      · nofun
      · rw [if_neg (by simp; omega)]
        exact ih hrest hr

theorem ordered_records (hlog : Ordered log) (h : log.mapM agentMessageToRecord = .ok records) :
    records.Pairwise fun r r' => r.turn ≤ r'.turn := by
  have hturns : records.map (·.turn) = log.map (·.turn) := by
    rw [mapM_eq_ok_iff] at h
    induction h with
    | nil => rfl
    | cons hr _ ih =>
      rw [map_cons, map_cons, turn_agentMessageToRecord hr, ih (pairwise_cons.mp hlog).2]
  have hmap : (records.map (·.turn)).Pairwise (· ≤ ·) := by
    rw [hturns]
    exact pairwise_map.mpr hlog
  exact pairwise_map.mp hmap

theorem ordered_not_decreased (hlog : Ordered log) (h : log.mapM agentMessageToRecord = .ok records)
    (tools : List String) (index : Nat) (turn prev : Int) :
    validateAndDecodeResumeLog records tools ≠
      .error (.turnDecreased index turn prev) := by
  have hrecords := ordered_records hlog h
  cases records with
  | nil => nofun
  | cons r records =>
    refine validateLoop_not_decreased hrecords fun r' hr' => ?_
    rcases mem_cons.mp hr' with rfl | hr'
    · exact Int.le_refl _
    · exact (pairwise_cons.mp hrecords).1 r' hr'

end FlexAgentRuntime.AgentLoop
