import FlexAgentRuntime.Sandbox.Steps

/-!
`SandboxServer` (`internal/rpc/server/sandbox_server.go`): the requests of the sandbox
service over a `SandboxHostService`, with the idempotency cache of `ExecuteTool` and
`ExecuteToolStream`.

The lookup in the cache, the call of `host.ExecuteTool` and the store are separate
actions; the call is the host's own actions one after the other. The stream variant does
the same in a goroutine of its own. The other requests are passed to the host. The
sweeper may run at any time, and the clock moves when the environment lets it.
-/

namespace FlexAgentRuntime.SandboxServer

open Interleaving SandboxHost Function

inductive Code where
  | ok | invalidArgument | notFound | alreadyExists | failedPrecondition | permissionDenied
  | resourceExhausted | unavailable | deadlineExceeded | canceled | internal
  deriving DecidableEq, Repr

structure RpcError where
  code : Code
  message : String
  deriving DecidableEq, Repr

/-- The code `MapError` gives to an error of the host. -/
def mapCode : HostError → Code
  | .sessionNotFound _ => .notFound
  | .sessionExists _ => .alreadyExists
  | .sessionPaused | .sessionDestroying | .invalidState _ | .rollbackInProgress
  | .toolsInFlight _ | .maxSessionsReached => .failedPrecondition
  | .cancelled => .canceled
  | _ => .internal

def mapError (err : HostError) : RpcError := ⟨mapCode err, err.message⟩

/-- `api.ExecuteToolResponse`. -/
structure ToolResponse where
  sessionID : String
  toolCallID : String
  toolName : String
  content : String
  snapshotID : String
  exitCode : Option Int
  tier : Nat
  deriving DecidableEq, Repr

def fromExecuteToolResponse (resp : ExecuteToolResponse) (req : ExecuteToolRequest) :
    ToolResponse where
  sessionID := req.sessionID
  toolCallID := req.toolCallID
  toolName := req.toolName
  content := resp.output.content
  snapshotID := resp.snapshotID
  exitCode := resp.output.exitCode
  tier := resp.tier

/-- What a tool request is answered with. -/
inductive Answer where
  | response (resp : ToolResponse)
  | error (err : RpcError)
  deriving DecidableEq, Repr

def Answer.of (req : ExecuteToolRequest) : Result → Answer
  | .executed resp => .response (fromExecuteToolResponse resp req)
  | .failed err => .error (mapError err)
  -- `host.ExecuteTool` has no other result
  | _ => .error ⟨.internal, ""⟩

/-- The answer to a request without `ToolCallID`. -/
def Answer.noToolCallID : Answer := .error ⟨.invalidArgument, "tool_call_id is required"⟩

/-- `idempotencyEntry`. -/
structure Entry where
  answer : Answer
  expires : Nat
  deriving DecidableEq, Repr

structure World where
  host : SandboxHost.World
  idempotency : String → Option Entry
  ttl : Nat
  now : Nat

/-- The pair a request is identified by. -/
abbrev Pair := String × String

/-- The pair of a request. -/
def pairOf (req : ExecuteToolRequest) : Pair := (req.sessionID, req.toolCallID)

/-- `req.SessionID + ":" + req.ToolCallID`. -/
def cacheKey (p : Pair) : String := String.ofList (p.1.toList ++ ':' :: p.2.toList)

namespace World

def getCached (w : World) (key : String) : World × Option Entry :=
  match w.idempotency key with
  | none => (w, none)
  | some e =>
    if w.now > e.expires then
      ({ w with idempotency := update w.idempotency key none }, none)
    else (w, some e)

def setCached (w : World) (key : String) (answer : Answer) : World :=
  { w with idempotency := update w.idempotency key (some ⟨answer, w.now + w.ttl⟩) }

/-- `evictExpired`, with the time that was read before the lock. -/
def evictExpired (w : World) (time : Nat) : World :=
  { w with idempotency := fun key => (w.idempotency key).filter fun e => !decide (time > e.expires) }

end World

/-! ## Actions -/

inductive Op where
  /-- `ExecuteTool` or `ExecuteToolStream` up to the end of `getCached`. -/
  | executeTool (stream : Bool) (req : ExecuteToolRequest)
  /-- An action of `host.ExecuteTool`. -/
  | tool (req : ExecuteToolRequest) (op : ToolOp)
  | setCached (req : ExecuteToolRequest) (answer : Answer)
  | ret (req : ExecuteToolRequest) (answer : Answer)
  /-- An action of the host for another request. -/
  | host (op : SandboxHost.Op)
  | sweep
  | evict (time : Nat)
  | clock (d : Nat)
  deriving DecidableEq, Repr

/-- What the host goes on with, in a tool request. -/
def Op.ofHost : SandboxHost.Op → Op
  | .tool req op => .tool req op
  | op => .host op

def World.withHost (w : World) (p : SandboxHost.World × List SandboxHost.Op)
    (lift : SandboxHost.Op → Op) : Outcome World Op :=
  ⟨{ w with host := p.1 }, p.2.map lift, []⟩

def exec (x : Choice) : Op → World → Option (Outcome World Op)
  | .executeTool stream req, w =>
    if req.toolCallID = "" then some ⟨w, [.ret req .noToolCallID], []⟩
    else
      match w.getCached (cacheKey (pairOf req)) with
      | (w', some e) => some ⟨w', [.ret req e.answer], []⟩
      | (w', none) =>
        if stream then some ⟨w', [], [[.tool req .lookup]]⟩
        else some ⟨w', [.tool req .lookup], []⟩
  | .tool req (.ret result), w => some ⟨w, [.setCached req (.of req result)], []⟩
  | .tool req op, w => (op.exec req x w.host).map (w.withHost · Op.ofHost)
  | .setCached req answer, w =>
    some ⟨w.setCached (cacheKey (pairOf req)) answer, [.ret req answer], []⟩
  | .ret _ _, w => some ⟨w, [], []⟩
  | .host op, w => (execOp x op w.host).map (w.withHost · .host)
  | .sweep, w => some ⟨w, [.evict w.now], []⟩
  | .evict time, w => some ⟨w.evictExpired time, [], []⟩
  | .clock d, w => some ⟨{ w with now := w.now + d }, [], []⟩

/-- The requests, the sweeper's ticks and the passing of time. -/
def entry (w : World) : Op → Bool
  | .executeTool _ _ | .sweep | .clock _ => true
  | .host (.tool _ _) => false
  | .host op => apiEntry w.host op
  | _ => false

def machine : Machine World Op Choice := ⟨exec, entry⟩

def defaultChoice : Op → Choice
  | .tool req op => SandboxHost.defaultChoice (.tool req op)
  | .host op => SandboxHost.defaultChoice op
  | _ => .ok

/-- `5 * time.Minute`, in nanoseconds. -/
def idempotencyTTL : Nat := 5 * 60 * 1000000000

/-- `NewSandboxServer` on a new host. -/
def initialConfig (config : ServiceConfig) (zfs : Zfs) : Config World Op :=
  ⟨{ host := SandboxHost.World.initial config zfs
     idempotency := fun _ => none
     ttl := idempotencyTTL
     now := 0 }, []⟩

/-! ## The key -/

/-- The session id has no colon. -/
def colonFree (id : String) : Bool := !id.toList.contains ':'

theorem cacheKey_inj (hp : colonFree p.1 = true) (hq : colonFree q.1 = true)
    (h : cacheKey p = cacheKey q) : p = q := by
  have hbefore : ∀ r : Pair, colonFree r.1 = true →
      (cacheKey r).toList.takeWhile (· ≠ ':') = r.1.toList := by
    intro r hr
    have hne : ∀ ch ∈ r.1.toList, decide (ch ≠ ':') = true := by
      rintro ch hch
      refine decide_eq_true ?_
      rintro rfl
      simp [colonFree, hch] at hr
    rw [cacheKey, String.toList_ofList, List.takeWhile_append_of_pos hne]
    simp
  have hfst : p.1.toList = q.1.toList := by rw [← hbefore p hp, ← hbefore q hq, h]
  have hsnd := congrArg String.toList h
  simp only [cacheKey, String.toList_ofList, hfst, List.append_cancel_left_eq,
    List.cons.injEq, true_and] at hsnd
  exact Prod.ext (String.toList_injective hfst) (String.toList_injective hsnd)

/-! ## Steps -/

/-- What a request that is not in the cache goes on with: actions, and goroutines. -/
def callHost (stream : Bool) (req : ExecuteToolRequest) : List Op × List (List Op) :=
  if stream then ([], [[.tool req .lookup]]) else ([.tool req .lookup], [])

inductive Step (w : World) : Op → World → List Op → List (List Op) → Prop where
  | noID {stream req} : req.toolCallID = "" →
      Step w (.executeTool stream req) w [.ret req .noToolCallID] []
  | hit {stream req e} : req.toolCallID ≠ "" →
      w.idempotency (cacheKey (pairOf req)) = some e → w.now ≤ e.expires →
      Step w (.executeTool stream req) w [.ret req e.answer] []
  | miss {stream req} : req.toolCallID ≠ "" →
      (∀ e, w.idempotency (cacheKey (pairOf req)) = some e → e.expires < w.now) →
      Step w (.executeTool stream req)
        { w with idempotency := update w.idempotency (cacheKey (pairOf req)) none }
        (callHost stream req).1 (callHost stream req).2
  | tool {req op host' op'} : ToolOp.Step w.host req op host' [.tool req op'] →
      Step w (.tool req op) { w with host := host' } [.tool req op'] []
  | returned {req result} :
      Step w (.tool req (.ret result)) w [.setCached req (.of req result)] []
  | stored {req answer} : Step w (.setCached req answer)
      (w.setCached (cacheKey (pairOf req)) answer) [.ret req answer] []
  | ret {req answer} : Step w (.ret req answer) w [] []
  | host {op host' more} : SandboxHost.Step w.host op host' more →
      Step w (.host op) { w with host := host' } (more.map .host) []
  | sweep : Step w .sweep w [.evict w.now] []
  | evict {time} : Step w (.evict time) (w.evictExpired time) [] []
  | clock {d} : Step w (.clock d) { w with now := w.now + d } [] []

variable {w w' : World} {x : Choice} {a : Op} {more : List Op} {o : Outcome World Op}

/-- A tool call of the host goes on with one action of its own, up to its return. -/
theorem toolStep_more {req : ExecuteToolRequest} {op : ToolOp} {h h' : SandboxHost.World}
    {more : List SandboxHost.Op} (hs : ToolOp.Step h req op h' more) (hop : ∀ r, op ≠ .ret r) :
    ∃ op', more = [.tool req op'] := by
  cases hs with
  | ret => exact absurd rfl (hop _)
  | _ => exact ⟨_, rfl⟩

/-- A miss leaves the key without an entry, whether it had an expired one or none. -/
theorem getCached_none (h : w.getCached key = (w', none)) :
    w' = { w with idempotency := update w.idempotency key none } ∧
      ∀ e, w.idempotency key = some e → e.expires < w.now := by
  unfold World.getCached at h
  split at h
  · rename_i hnone
    cases h
    refine ⟨?_, fun e he => by rw [hnone] at he; cases he⟩
    rw [← hnone, update_eq_self]
  · rename_i e he
    split at h
    · cases h
      refine ⟨rfl, fun e' he' => ?_⟩
      rw [he] at he'
      cases he'
      assumption
    · cases h

theorem getCached_some (h : w.getCached key = (w', some e)) :
    w' = w ∧ w.idempotency key = some e ∧ w.now ≤ e.expires := by
  unfold World.getCached at h
  split at h
  · cases h
  · rename_i e' he
    split at h <;> cases h
    rename_i hexp
    exact ⟨rfl, he, Nat.le_of_not_lt hexp⟩

theorem step_of_exec (h : exec x a w = some o) : Step w a o.state o.more o.spawn := by
  cases a with
  | executeTool stream req =>
    dsimp only [exec] at h
    split at h
    · cases h
      exact .noID ‹_›
    · rename_i hid
      split at h
      · rename_i hget
        cases h
        obtain ⟨rfl, he, hexp⟩ := getCached_some hget
        exact .hit hid he hexp
      · rename_i hget
        obtain ⟨rfl, hexp⟩ := getCached_none hget
        have hmiss : Step w (.executeTool stream req) _ _ _ := .miss hid hexp
        cases stream with
        | true | false =>
          cases h
          exact hmiss
  | tool req op =>
    by_cases hret : ∃ r, op = .ret r
    · obtain ⟨r, rfl⟩ := hret
      cases h
      exact .returned
    · have hop : ∀ r, op ≠ .ret r := fun r hr => hret ⟨r, hr⟩
      have heq : exec x (.tool req op) w = (op.exec req x w.host).map (w.withHost · Op.ofHost) := by
        cases op with
        | ret r => exact absurd rfl (hop r)
        | _ => rfl
      rw [heq] at h
      obtain ⟨p, hp, rfl⟩ := Option.map_eq_some_iff.mp h
      have hs := ToolOp.step hp
      obtain ⟨op', hmore⟩ := toolStep_more hs hop
      rw [hmore] at hs
      have hlift : (w.withHost p Op.ofHost).more = [.tool req op'] := by
        simp [World.withHost, hmore, Op.ofHost]
      rw [hlift]
      exact .tool hs
  | setCached req answer =>
    cases h
    exact .stored
  | ret req answer =>
    cases h
    exact .ret
  | host op =>
    obtain ⟨p, hp, rfl⟩ := Option.map_eq_some_iff.mp h
    have hx : SandboxHost.exec x op w.host = some ⟨p.1, p.2, []⟩ := by
      simp [SandboxHost.exec, hp]
    exact .host (SandboxHost.step_of_exec hx).1
  | sweep =>
    cases h
    exact .sweep
  | evict time =>
    cases h
    exact .evict
  | clock d =>
    cases h
    exact .clock

end FlexAgentRuntime.SandboxServer
