import FlexAgentRuntime.Rpc.SandboxServer

/-!
The tool calls of one agent session that are executed one after the other through one
session of a `SandboxServer`, and the tools that scripts invoke
(`internal/tools/codeinterp`, `builtinInvoke` and `nextToolCallID`).

The server answers from its cache by session and tool call id. Scripts number their calls
from one in every run of `execute_script`, so that the ids of a later run are in use.
-/

namespace FlexAgentRuntime.ToolSession

open List
open SandboxHost (ServiceConfig Zfs)
open SandboxServer (World Answer cacheKey)

structure Call (π : Type) where
  id : String
  name : String
  params : π

/-- The server, the tool calls requested so far and those that have reached the host. -/
structure Session (π : Type) where
  sessionID : String
  server : World
  requested : List (Call π) := []
  reached : List (Call π) := []

variable {π : Type}

/-- `ExecuteTool` of the server, when the host would answer `answer`. -/
def Session.execute (s : Session π) (call : Call π) (answer : Answer) : Session π × Answer :=
  let s := { s with requested := s.requested ++ [call] }
  let key := cacheKey (s.sessionID, call.id)
  if call.id = "" then (s, .noToolCallID)
  else
    match s.server.getCached key with
    | (server, some e) => ({ s with server := server }, e.answer)
    | (server, none) =>
      ({ s with server := server.setCached key answer, reached := s.reached ++ [call] }, answer)

def Session.tick (s : Session π) (d : Nat) : Session π :=
  { s with server := { s.server with now := s.server.now + d } }

/-- The cache has outcomes of the session's calls only, and all of them have reached the host. -/
structure Session.Reached (s : Session π) : Prop where
  entries : ∀ key, s.server.idempotency key ≠ none →
    ∃ call ∈ s.requested, key = cacheKey (s.sessionID, call.id)
  all : s.reached = s.requested

theorem cacheKey_right_inj {sessionID id id' : String}
    (h : cacheKey (sessionID, id) = cacheKey (sessionID, id')) : id = id' := by
  have h := congrArg String.toList h
  simp only [cacheKey, String.toList_ofList, append_cancel_left_eq, List.cons.injEq,
    true_and] at h
  exact String.toList_injective h

theorem Session.Reached.execute {s : Session π} (h : s.Reached) (call : Call π) (answer : Answer)
    (hid : call.id ≠ "") (hnew : ∀ c ∈ s.requested, c.id ≠ call.id) :
    (s.execute call answer).1.Reached := by
  have hnone : s.server.idempotency (cacheKey (s.sessionID, call.id)) = none := by
    by_contra hne
    obtain ⟨c, hc, hkey⟩ := h.entries _ hne
    exact hnew c hc (cacheKey_right_inj hkey).symm
  simp only [Session.execute, hid, if_false, World.getCached, hnone]
  refine ⟨fun key hne => ?_, congrArg (· ++ [call]) h.all⟩
  by_cases hkey : key = cacheKey (s.sessionID, call.id)
  · exact ⟨call, mem_append_right _ (mem_singleton_self _), hkey⟩
  · obtain ⟨c, hc, heq⟩ := h.entries key (by simpa [World.setCached, hkey] using hne)
    exact ⟨c, mem_append_left _ hc, heq⟩

/-! ## Scripts -/

/-- A session with the catalog of its interpreter; `toolCalls` is the count of the script
that runs. -/
structure Scripts (π : Type) where
  session : Session π
  catalog : List String
  toolCalls : Nat := 0

/-- A run of `execute_script` starts, its script invokes a tool that the host would answer
with `answer`, or time passes. -/
inductive Event (π : Type) where
  | run
  | invoke (name : String) (params : π) (answer : Answer)
  | tick (d : Nat)

def Scripts.nextToolCallID (s : Scripts π) : String := "ci-" ++ (s.toolCalls + 1).repr

def Scripts.next (s : Scripts π) : Event π → Scripts π
  | .run => { s with toolCalls := 0 }
  | .invoke name params answer =>
    if name ∈ s.catalog then
      { s with
        session := (s.session.execute ⟨s.nextToolCallID, name, params⟩ answer).1
        toolCalls := s.toolCalls + 1 }
    else s
  | .tick d => { s with session := s.session.tick d }

/-- No earlier call of the session has the number of the call. -/
def Scripts.newNumber (s : Scripts π) : Event π → Bool
  | .invoke _ _ _ => s.session.requested.all (·.id != s.nextToolCallID)
  | _ => true

def Scripts.numbered (s : Scripts π) : List (Event π) → Bool
  | [] => true
  | e :: events => s.newNumber e && (s.next e).numbered events

def Scripts.start (config : ServiceConfig) (zfs : Zfs) (sessionID : String)
    (catalog : List String) : Scripts π :=
  ⟨⟨sessionID, (SandboxServer.initialConfig config zfs).state, [], []⟩, catalog, 0⟩

theorem Scripts.nextToolCallID_ne (s : Scripts π) : s.nextToolCallID ≠ "" := by
  intro h
  have hlen := congrArg String.length h
  simp [Scripts.nextToolCallID, String.length_append] at hlen

theorem Session.Reached.next {s : Scripts π} (h : s.session.Reached) (hm : s.newNumber e = true) :
    (s.next e).session.Reached := by
  cases e with
  | run => exact h
  | tick d => exact ⟨h.entries, h.all⟩
  | invoke name params answer =>
    rw [Scripts.next]
    split
    · refine h.execute ⟨s.nextToolCallID, name, params⟩ answer s.nextToolCallID_ne fun c hc => ?_
      exact bne_iff_ne.mp (all_eq_true.mp hm c hc)
    · exact h

theorem Session.Reached.events {s : Scripts π} {events : List (Event π)} (h : s.session.Reached)
    (hm : s.numbered events = true) : (events.foldl Scripts.next s).session.Reached := by
  induction events generalizing s with
  | nil => exact h
  | cons e events ih =>
    rw [Scripts.numbered, Bool.and_eq_true] at hm
    exact ih (h.next hm.1) hm.2

/-- When every call has a number that no earlier call of the session has, every tool that a
script invokes is executed by the host with the parameters of the invoke. -/
theorem invoked_tools_reach_host (config : ServiceConfig) (zfs : Zfs) (sessionID : String)
    (catalog : List String) (events : List (Event π))
    (hm : (Scripts.start config zfs sessionID catalog).numbered events = true) :
    (events.foldl Scripts.next (.start config zfs sessionID catalog)).session.reached =
      (events.foldl Scripts.next (.start config zfs sessionID catalog)).session.requested := by
  have hstart : (Scripts.start config zfs sessionID catalog : Scripts π).session.Reached :=
    ⟨fun _ hne => absurd rfl hne, rfl⟩
  exact (hstart.events hm).all

def scriptServer : ServiceConfig where
  storageBackend := .localDisk
  containerRuntime := .none
  sessionsDataset := "tank/sessions"
  sessionsRootDir := "/sessions"

def scripts : Scripts String := .start scriptServer {} "s-1" ["read_file", "bash"]

def oneRun : List (Event String) :=
  [.run, .invoke "read_file" "a" .noToolCallID, .invoke "bash" "b" .noToolCallID]

/-- One run with two calls. -/
theorem invoked_tools_reach_host_run :
    (oneRun.foldl Scripts.next scripts).session.reached.map (·.id) = ["ci-1", "ci-2"] :=
  (congrArg (List.map (·.id)) (invoked_tools_reach_host scriptServer {} "s-1"
    ["read_file", "bash"] oneRun (by decide +kernel))).trans (by decide +kernel)

/-- In a second run the first call is answered with the outcome of another tool. -/
theorem second_run_answered_from_cache :
    let s := [.run, .invoke "read_file" "a" .noToolCallID, .run,
      .invoke "bash" "b" .noToolCallID].foldl Scripts.next scripts
    s.session.requested.map (·.name) = ["read_file", "bash"] ∧
      s.session.reached.map (·.name) = ["read_file"] := by
  decide +kernel

end FlexAgentRuntime.ToolSession
