import FlexAgentRuntime.Fleet.Instance
import Mathlib.Data.List.TakeWhile

/-!
Fleet sandbox ids, `fleet:{instanceID}:{sessionID}` (`fleet/sandbox_id.go`).
-/

namespace FlexAgentRuntime.Fleet

open List

def sandboxIDPrefix : String := "fleet:"

def encodeSandboxID (instanceID sessionID : String) : Except FleetError String :=
  if instanceID = "" ∨ sessionID = "" then .error (.invalidComponents instanceID sessionID)
  else if instanceID.toList.contains ':' then .error (.instanceIDColon instanceID)
  else .ok (String.ofList
    (sandboxIDPrefix.toList ++ instanceID.toList ++ ':' :: sessionID.toList))

def parseSandboxID (sandboxID : String) : Except FleetError (String × String) :=
  if sandboxIDPrefix.toList.isPrefixOf sandboxID.toList then
    let rest := sandboxID.toList.drop sandboxIDPrefix.toList.length
    match rest.dropWhile (· ≠ ':') with
    | [] => .error (.missingSeparator sandboxID)
    | _ :: sessionID =>
      let instanceID := rest.takeWhile (· ≠ ':')
      if instanceID = [] ∨ sessionID = [] then .error (.emptyComponent sandboxID)
      else .ok (String.ofList instanceID, String.ofList sessionID)
  else .error (.missingPrefix sandboxID)

/-- `isFleetSandboxID` of the orchestrator (`proxy.go`). -/
def isFleetSandboxID (sandboxID : String) : Bool :=
  sandboxIDPrefix.toList.isPrefixOf sandboxID.toList

/-- The session id on the host; an id that is not the fleet's is one. -/
def extractHostLocalSessionID (sandboxID : String) : String :=
  if isFleetSandboxID sandboxID then
    match parseSandboxID sandboxID with
    | .ok (_, sessionID) => sessionID
    | .error _ => sandboxID
  else sandboxID

variable {i n s : String}

theorem cut_at_first {l b : List Char} (h : l.dropWhile (· ≠ c) = d :: b) :
    l = l.takeWhile (· ≠ c) ++ c :: b ∧ c ∉ l.takeWhile (· ≠ c) := by
  have hd := head?_dropWhile_not (· ≠ c) l
  rw [h] at hd
  obtain rfl : d = c := by simpa using hd
  refine ⟨by rw [← h, takeWhile_append_dropWhile], fun hmem => ?_⟩
  simpa using mem_takeWhile_imp hmem

theorem encodeSandboxID_eq_ok : encodeSandboxID i n = .ok s ↔
    ¬ (i = "" ∨ n = "") ∧ ':' ∉ i.toList ∧
      s.toList = sandboxIDPrefix.toList ++ (i.toList ++ ':' :: n.toList) := by
  unfold encodeSandboxID
  split_ifs with hempty hcolon
  · simp [hempty]
  · simp_all
  · rw [contains_iff_mem] at hcolon
    rw [Except.ok.injEq, ← String.toList_inj, String.toList_ofList, append_assoc, eq_comm]
    simp only [hempty, hcolon, not_false_eq_true, true_and]

theorem parseSandboxID_eq_ok : parseSandboxID s = .ok (i, n) ↔ encodeSandboxID i n = .ok s := by
  rw [encodeSandboxID_eq_ok]
  constructor
  · intro h
    unfold parseSandboxID at h
    split at h
    · rename_i hpre
      obtain ⟨rest, hrest⟩ := isPrefixOf_iff_prefix.mp hpre
      rw [← hrest, drop_left] at h
      dsimp only at h
      split at h
      · cases h
      · rename_i hdrop
        obtain ⟨hcut, hnot⟩ := cut_at_first hdrop
        split at h
        · cases h
        · rename_i hne
          cases h
          refine ⟨by simpa using hne, by simpa using hnot, ?_⟩
          rw [← hrest, String.toList_ofList, String.toList_ofList, ← hcut]
    · cases h
  · rintro ⟨hne, hnot, hs⟩
    have hpos : ∀ x ∈ i.toList, decide (x ≠ ':') = true :=
      fun x hx => decide_eq_true fun heq => hnot (heq ▸ hx)
    unfold parseSandboxID
    rw [hs, if_pos ( isPrefixOf_iff_prefix.mpr (prefix_append ..)), drop_left]
    dsimp only
    rw [takeWhile_append_of_pos hpos, dropWhile_append_of_pos hpos]
    simpa using hne

/-- The ids that are parsed are those that are made, with their parts; the parts are those of no
other id, and the orchestrator finds the session id, whatever colons it has. -/
theorem sandboxID_roundTrip (i n s : String) :
    (parseSandboxID s = .ok (i, n) ↔ encodeSandboxID i n = .ok s) ∧
      (encodeSandboxID i n = .ok s → extractHostLocalSessionID s = n ∧
        ∀ i' n', encodeSandboxID i' n' = .ok s → i' = i ∧ n' = n) := by
  refine ⟨parseSandboxID_eq_ok, fun h => ?_⟩
  have hparse := parseSandboxID_eq_ok.mpr h
  constructor
  · have hfleet : isFleetSandboxID s = true := by
      rw [isFleetSandboxID, (encodeSandboxID_eq_ok.mp h).2.2]
      exact isPrefixOf_iff_prefix.mpr (prefix_append ..)
    rw [extractHostLocalSessionID, if_pos hfleet, hparse]
  · intro i' n' h'
    rw [parseSandboxID_eq_ok.mpr h'] at hparse
    cases hparse
    exact ⟨rfl, rfl⟩

end FlexAgentRuntime.Fleet
