import FlexAgentRuntime.Rpc.IdempotencyLog

/-!
Retrying a tool call that the host has refused to start.

`ExecuteTool` stores every outcome, so a refusal (the session is paused, is rolling back,
or is in another state) answers the retries until its time in the cache is over, whatever
the session's state is by then.
-/

namespace FlexAgentRuntime.SandboxServer

open Interleaving SandboxHost

/-- The request is passed to the host, and the host starts the tool in session `s`: the
actions up to the tool's start, one after the other from `w`. -/
def Executed (w : World) (stream : Bool) (req : ExecuteToolRequest) (s : SessRef) : Prop :=
  ∃ w₁ w₂ w₃ w₄,
    exec .ok (.executeTool stream req) w =
      some ⟨w₁, (callHost stream req).1, (callHost stream req).2⟩ ∧
    exec .ok (.tool req .lookup) w₁ = some ⟨w₂, [.tool req (.checkActive s)], []⟩ ∧
    exec .ok (.tool req (.checkActive s)) w₂ = some ⟨w₃, [.tool req (.enter s)], []⟩ ∧
    exec .ok (.tool req (.enter s)) w₃ = some ⟨w₄, [.tool req (.run s)], []⟩

section

variable {w : World} {stream : Bool} {req : ExecuteToolRequest} {s : SessRef} {x : Choice}

theorem exec_hit {e : Entry} (hid : req.toolCallID ≠ "")
    (he : w.idempotency (cacheKey (pairOf req)) = some e) (hexp : w.now ≤ e.expires) :
    exec x (.executeTool stream req) w = some ⟨w, [.ret req e.answer], []⟩ := by
  have hget : w.getCached (cacheKey (pairOf req)) = (w, some e) := by
    simp [World.getCached, he, not_lt.mpr hexp]
  simp [exec, hid, hget]

theorem exec_miss (stream : Bool) (hid : req.toolCallID ≠ "")
    (hexp : ∀ e, w.idempotency (cacheKey (pairOf req)) = some e → e.expires < w.now) :
    ∃ w₁, exec x (.executeTool stream req) w =
        some ⟨w₁, (callHost stream req).1, (callHost stream req).2⟩ ∧ w₁.host = w.host := by
  have hget : ∃ w₁, w.getCached (cacheKey (pairOf req)) = (w₁, none) ∧ w₁.host = w.host := by
    unfold World.getCached
    split
    · exact ⟨w, rfl, rfl⟩
    · rename_i e he
      rw [if_pos (hexp e he)]
      exact ⟨_, rfl, rfl⟩
  obtain ⟨w₁, hget, hhost⟩ := hget
  refine ⟨w₁, ?_, hhost⟩
  cases stream <;> simp [exec, hid, hget, callHost]

theorem Executed.of_miss (hid : req.toolCallID ≠ "")
    (hexp : ∀ e, w.idempotency (cacheKey (pairOf req)) = some e → e.expires < w.now)
    (hs : w.host.getSession req.sessionID = some s) (hact : (w.host.sess s).state = .active)
    (hrb : (w.host.sess s).rollingBack = false) : Executed w stream req s := by
  obtain ⟨w₁, hmiss, hhost⟩ := exec_miss (x := .ok) stream hid hexp
  rw [← hhost] at hs hact hrb
  refine ⟨w₁, w₁, w₁, { w₁ with
    host := w₁.host.setSess s fun v => { v with activeTools := v.activeTools + 1 } },
    hmiss, ?_, ?_, ?_⟩
  · simp [exec, ToolOp.exec, World.withHost, Op.ofHost, hs]
  · simp [exec, ToolOp.exec, World.withHost, Op.ofHost, hact, SessionState.checkActive]
  · simp [exec, ToolOp.exec, World.withHost, Op.ofHost, hact, hrb]

end

/-- After a refusal (or another error) `err` has been stored for a request, a retry that
finds its session active and not rolling back is executed exactly when the refusal's time
is over; otherwise it is answered with the refusal. -/
theorem retry_executed_iff {config : ServiceConfig} {zfs : Zfs} {h : Log} {c : Config World Op}
    (hr : Reach machine watchAll {} (initialConfig config zfs) h c)
    (stream : Bool) (req : ExecuteToolRequest) (hid : req.toolCallID ≠ "") {s : SessRef}
    (hs : c.state.host.getSession req.sessionID = some s)
    (hact : (c.state.host.sess s).state = .active)
    (hrb : (c.state.host.sess s).rollingBack = false) {r : Stored} {err : HostError}
    (hlast : h.latest (cacheKey (pairOf req)) = some r)
    (hrefused : r.answer = .error (mapError err)) :
    (Executed c.state stream req s ↔ r.time + c.state.ttl < c.state.now) ∧
      (c.state.now ≤ r.time + c.state.ttl → ∀ x, exec x (.executeTool stream req) c.state =
        some ⟨c.state, [.ret req (.error (mapError err))], []⟩) := by
  have hm := Reach.mirrors hr
  have hcached : c.state.now ≤ r.time + c.state.ttl → ∀ x,
      exec x (.executeTool stream req) c.state =
        some ⟨c.state, [.ret req (.error (mapError err))], []⟩ := by
    intro hle x
    cases he : c.state.idempotency (cacheKey (pairOf req)) with
    | none => exact absurd (hm.gone _ r hlast he) (not_lt.mpr hle)
    | some e =>
      obtain ⟨r', hl', rfl⟩ := hm.entry _ e he
      rw [hlast] at hl'
      cases hl'
      rw [exec_hit hid he hle, hrefused]
  refine ⟨⟨?_, fun hlt => ?_⟩, hcached⟩
  · rintro ⟨w₁, w₂, w₃, w₄, hmiss, -⟩
    by_contra hnot
    rw [hcached (Nat.le_of_not_lt hnot) .ok] at hmiss
    cases stream <;> simp [callHost] at hmiss
  · refine Executed.of_miss hid (fun e he => ?_) hs hact hrb
    obtain ⟨r', hl', rfl⟩ := hm.entry _ e he
    rw [hlast] at hl'
    cases hl'
    exact hlt

def diskServer : ServiceConfig where
  storageBackend := .localDisk
  containerRuntime := .none
  sessionsDataset := "tank/sessions"
  sessionsRootDir := "/sessions"

/-- Session `s-1` is created and paused, and its tool call `t-1` is refused. -/
def refusedRun : List (Label Op Choice) :=
  [.call (.host (.create ⟨"", "s-1", 0⟩ .start)), .go 0 5,
    .call (.host (.pause "s-1" .lookup)), .go 1 5,
    .call (.executeTool false ⟨"s-1", "bash", "t-1"⟩), .go 2 6,
    .call (.host (.resume "s-1" .lookup)), .go 3 3]

/-- The session is active again, and five minutes and one nanosecond have passed. -/
theorem retry_executed_iff_later : ∃ h c,
    Reach machine watchAll {} (initialConfig diskServer {}) h c ∧
      (∃ r, h.latest (cacheKey ("s-1", "t-1")) = some r ∧
        r.answer = .error (mapError .sessionPaused) ∧ r.time + c.state.ttl < c.state.now) ∧
      Executed c.state false ⟨"s-1", "bash", "t-1"⟩ 1 := by
  refine Machine.follow_imp defaultChoice
    (refusedRun ++ [.call (.clock (idempotencyTTL + 1)), .go 4 1])
    (fun h c => c.state.host.getSession "s-1" = some 1 ∧
      (c.state.host.sess 1).state = .active ∧ (c.state.host.sess 1).rollingBack = false ∧
      ∃ r ∈ h.latest (cacheKey ("s-1", "t-1")), r.answer = .error (mapError .sessionPaused) ∧
        r.time + c.state.ttl < c.state.now) ?_
  rintro h c hr ⟨hs, hact, hrb, r, hl, hpaused, hlate⟩
  exact ⟨⟨r, hl, hpaused, hlate⟩, (retry_executed_iff hr false ⟨"s-1", "bash", "t-1"⟩
    (by decide) hs hact hrb hl hpaused).1.mpr hlate⟩

/-- The session is active again, and the retry is answered with the refusal. -/
theorem refusal_answers_retry : ∃ h c,
    Reach machine watchAll {} (initialConfig diskServer {}) h c ∧
      c.state.host.getSession "s-1" = some 1 ∧ (c.state.host.sess 1).state = .active ∧
      (c.state.host.sess 1).rollingBack = false ∧
      ∃ o, exec .ok (.executeTool false ⟨"s-1", "bash", "t-1"⟩) c.state = some o ∧
        o.more = [.ret ⟨"s-1", "bash", "t-1"⟩ (.error (mapError .sessionPaused))] :=
  Machine.follow_to defaultChoice refusedRun

end FlexAgentRuntime.SandboxServer
