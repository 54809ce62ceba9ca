import FlexAgentRuntime.Rpc.IdempotencyLog

/-!
An answer from the idempotency cache belongs to the request's own session and tool call,
in runs in which

* session ids have no colon (the key is `SessionID + ":" + ToolCallID`, and only the local
  disk backend restricts the ids);
* a session is created under an id only when no outcome stored for that id is still valid
  and no tool call for it is in progress (neither `DestroySession` nor `CreateSession`
  touches the cache, and the lookup comes before the session is looked up).
-/

namespace FlexAgentRuntime.SandboxServer

open Interleaving Config SandboxHost List Function

/-- A tool call for session id `id` is in progress in the host. -/
def Op.inCallOf (id : String) : Op → Bool
  | .tool _ .lookup => false
  | .tool req _ | .setCached req _ => req.sessionID == id
  | _ => false

/-- Session ids without colons; a session is created only when nothing is left of an
earlier one with its id. -/
def ownCond (h : Log) (c : Config World Op) (a : Op) (_ : Choice) : Bool :=
  match a with
  | .executeTool _ req => req.toolCallID == "" || colonFree req.sessionID
  | .host (.create _ (.store id _ _)) =>
    h.stored.all (fun r => r.pair.1 != id || decide (r.time + c.state.ttl < c.state.now)) &&
      c.pending (Op.inCallOf id) == 0
  | _ => true

/-- What is in progress or stored belongs to the current incarnation of its session, and
so do the answers given from the cache. -/
structure Owned (h : Log) (c : Config World Op) : Prop where
  calls : ∀ p, 0 < c.pending (Op.inCall p) → h.origin p = h.births p.1
  kept : ∀ r ∈ h.stored, r.time + c.state.ttl < c.state.now ∨ r.born = h.births r.pair.1
  served : ∀ g ∈ h.given, g.cached = true →
    ∃ r, g.source = some r ∧ r.pair = g.pair ∧ r.answer = g.answer ∧ r.born = g.births

section

variable {h : Log} {c : Config World Op} {a b : Op} {x : Choice} {i : Nat} {rest : List Op}
  {o : Outcome World Op}

theorem Op.inCall_inCallOf (hp : b.inCall p = true) : b.inCallOf p.1 = true := by
  cases b with
  | tool req op =>
    cases op with
    | lookup => cases hp
    | _ =>
      simp only [Op.inCall, beq_iff_eq] at hp
      simp [Op.inCallOf, ← hp, pairOf]
  | setCached req answer =>
    simp only [Op.inCall, beq_iff_eq] at hp
    simp [Op.inCallOf, ← hp, pairOf]
  | _ => cases hp

section

variable (ht : c.At i a rest) (hx : exec x a c.state = some o)

include ht hx

theorem inCall_before (hpos : 0 < (c.advance i rest o).pending (Op.inCall p)) :
    0 < c.pending (Op.inCall p) ∨ ∃ req, a = .tool req .lookup ∧ pairOf req = p := by
  obtain ⟨b, hb, hp⟩ := pending_pos.mp hpos
  rcases hb.of_advance ht with hb | hb
  · exact .inl (pending_pos.mpr ⟨b, hb, hp⟩)
  · rcases (step_of_exec hx).inCall_more hb hp with ha | ha
    · exact .inl (pending_head ht ha)
    · exact .inr ha

theorem Owned.calls_step (hown : Owned h c)
    (hcond : ownCond h c a x = true) (hpos : 0 < (c.advance i rest o).pending (Op.inCall p)) :
    (h.note c a x).origin p = (h.note c a x).births p.1 := by
  by_cases hcall : ∃ req, a = .tool req .lookup
  · -- the call has looked up the current incarnation, and so have those in progress
    obtain ⟨req, rfl⟩ := hcall
    change (if c.pending (Op.inCall (pairOf req)) = 0 then _ else h.origin) p = h.births p.1
    by_cases hp : p = pairOf req
    · subst hp
      split
      · exact update_self ..
      · exact hown.calls _ (Nat.pos_of_ne_zero ‹_›)
    · have hbefore : 0 < c.pending (Op.inCall p) := by
        rcases inCall_before ht hx hpos with h | ⟨req', heq, hp'⟩
        · exact h
        · cases heq
          exact absurd hp'.symm hp
      split
      · rw [update_of_ne hp]
        exact hown.calls p hbefore
      · exact hown.calls p hbefore
  · have hbefore : 0 < c.pending (Op.inCall p) := by
      rcases inCall_before ht hx hpos with h | ⟨req, heq, -⟩
      · exact h
      · exact absurd ⟨req, heq⟩ hcall
    rw [Log.note_origin fun req heq => hcall ⟨req, heq⟩]
    rcases h.note_births c a x with hb | ⟨q, id, dataset, mp, rfl, hb⟩
    · rw [hb]
      exact hown.calls p hbefore
    · -- a new incarnation: no call of the id is in progress
      simp only [ownCond, Bool.and_eq_true, beq_iff_eq] at hcond
      have hne : p.1 ≠ id := by
        rintro rfl
        obtain ⟨b, hb, hp⟩ := pending_pos.mp hbefore
        exact not_pend hcond.2 (Op.inCall_inCallOf hp) hb
      rw [hb, update_of_ne hne]
      exact hown.calls p hbefore

theorem Owned.kept_step (hown : Owned h c)
    (hcond : ownCond h c a x = true) (hr : r ∈ (h.note c a x).stored) :
    r.time + o.state.ttl < o.state.now ∨
      r.born = (h.note c a x).births r.pair.1 := by
  have hs := step_of_exec hx
  rw [hs.ttl]
  rcases Log.mem_stored_note hr with hr | ⟨req, answer, rfl, rfl⟩
  · have hkept := (hown.kept r hr).imp_left fun hlt => lt_of_lt_of_le hlt hs.now_le
    rcases h.note_births c a x with hb | ⟨q, id, dataset, mp, rfl, hb⟩
    · exact hb ▸ hkept
    · -- a new incarnation: what is stored for the id is over
      simp only [ownCond, Bool.and_eq_true, all_eq_true, Bool.or_eq_true, bne_iff_ne,
        decide_eq_true_eq] at hcond
      rcases hcond.1 r hr with hne | hlt
      · rwa [hb, update_of_ne hne]
      · exact .inl (lt_of_lt_of_le hlt hs.now_le)
  · exact .inr (hown.calls (pairOf req) (pending_head ht (by simp [Op.inCall])))

end

theorem Owned.served_step (hown : Owned h c) (hm : Mirrors h c) (hcol : Colonless h c)
    (hcond : ownCond h c a x = true) (hg : g ∈ (h.note c a x).given) (hcached : g.cached = true) :
    ∃ r, g.source = some r ∧ r.pair = g.pair ∧ r.answer = g.answer ∧ r.born = g.births := by
  by_cases hstore : ∃ req answer, a = .setCached req answer
  · obtain ⟨req, answer, rfl⟩ := hstore
    rcases mem_concat.mp hg with hg | rfl
    · exact hown.served g hg hcached
    · cases hcached
  · rcases Log.given_note (fun req answer heq => hstore ⟨req, answer, heq⟩) hg with
      hg | ⟨stream, req, e, rfl, hid, he, hexp, rfl⟩
    · exact hown.served g hg hcached
    · obtain ⟨r, hl, hans, -, hvalid⟩ := hm.hit he hexp
      simp only [ownCond, Bool.or_eq_true, beq_iff_eq, hid, false_or] at hcond
      have hpair := hcol.latest_pair (p := pairOf req) hcond hl
      refine ⟨r, hl, hpair, hans, ?_⟩
      rcases hown.kept r (Log.latest_mem hl).1 with hlt | hborn
      · exact absurd hvalid (not_le.mpr hlt)
      · rw [hborn, hpair]
        rfl

end

/-- In every run whose steps meet the condition, whatever `ExecuteTool` or
`ExecuteToolStream` answers from the cache was produced by a request with the same session
id and the same tool call id, for the incarnation of the session that is current. -/
theorem cached_answer_own {config : ServiceConfig} {zfs : Zfs} {h : Log} {c : Config World Op}
    (hr : Reach machine (watch ownCond) {} (initialConfig config zfs) h c) :
    ∀ g ∈ h.given, g.cached = true →
      ∃ r, g.source = some r ∧ r.pair = g.pair ∧ r.answer = g.answer ∧ r.born = g.births := by
  have hcond : ∀ h c stream req x, ownCond h c (.executeTool stream req) x = true →
      req.toolCallID ≠ "" → colonFree req.sessionID = true := by
    intro h c stream req x hmeets hid
    simpa [ownCond, hid] using hmeets
  have hown : Owned h c := by
    refine hr.invariant_of_reach (fun h c => Owned h c) ?_ ?_ ?_
    · exact ⟨fun p hp => absurd hp (lt_irrefl 0), fun _ hr => absurd hr not_mem_nil,
        fun _ hg => absurd hg not_mem_nil⟩
    · intro h c a _ ih he
      refine ⟨fun p hp => ih.calls p ?_, ih.kept, ih.served⟩
      have hnot : a.inCall p = false := by
        cases a with
        | tool | setCached => cases he
        | _ => rfl
      rwa [pending_call, hnot] at hp
    · intro h c i a rest x o hr ih ht hx hmeets
      exact ⟨fun p => ih.calls_step ht hx hmeets, fun r => ih.kept_step ht hx hmeets,
        fun g => ih.served_step (x := x) (Reach.mirrors hr) (Reach.colonless hr hcond) hmeets⟩
  exact hown.served

/-! ## Runs -/

def zfsServer : ServiceConfig where
  storageBackend := .zfs
  containerRuntime := .gvisor
  sessionsDataset := "tank/sessions"

def serverPool : Zfs where
  datasets := ["tank/base"]
  snapshots := [("tank/base", "v1")]

/-- Session `s-1` and two requests for its tool call `t-1`, one after the other. -/
theorem cached_answer_own_retry : ∃ h c,
    Reach machine (watch ownCond) {} (initialConfig zfsServer serverPool) h c ∧
      ∃ g ∈ h.given, g.cached = true ∧
        ∃ r, g.source = some r ∧ r.pair = g.pair ∧ r.answer = g.answer ∧ r.born = g.births := by
  refine Machine.follow_imp defaultChoice
    [.call (.host (.create ⟨"tank/base@v1", "s-1", 0⟩ .start)), .go 0 6,
      .call (.executeTool false ⟨"s-1", "bash", "t-1"⟩), .go 1 8,
      .call (.executeTool false ⟨"s-1", "bash", "t-1"⟩), .go 2 1]
    (fun h _ => ∃ g ∈ h.given, g.cached = true) ?_
  rintro h c hr ⟨g, hg, hcached⟩
  exact ⟨g, hg, hcached, cached_answer_own hr g hg hcached⟩

set_option synthInstance.maxSize 200 in
/-- Sessions `a` and `a:b`. The answer to tool call `b:c` of `a` is served to tool call
`c` of `a:b`, and again to tool call `b:c` of `a` after `a` has been destroyed and
created anew. -/
theorem cached_answer_disclosed : ∃ h c,
    Reach machine watchAll {} (initialConfig zfsServer serverPool) h c ∧
      (∃ g ∈ h.given, ∃ r, g.source = some r ∧ g.pair = ("a:b", "c") ∧ r.pair = ("a", "b:c")) ∧
      ∃ g ∈ h.given, ∃ r, g.source = some r ∧ g.pair = ("a", "b:c") ∧ r.pair = ("a", "b:c") ∧
        r.born = 1 ∧ g.births = 2 :=
  Machine.follow_to defaultChoice
    [.call (.host (.create ⟨"tank/base@v1", "a", 0⟩ .start)), .go 0 6,
      .call (.host (.create ⟨"tank/base@v1", "a:b", 0⟩ .start)), .go 1 6,
      .call (.executeTool false ⟨"a", "bash", "b:c"⟩), .go 2 8,
      .call (.executeTool false ⟨"a:b", "bash", "c"⟩), .go 3 1,
      .call (.host (.destroy "a" .lookup)), .go 4 7,
      .call (.host (.create ⟨"tank/base@v1", "a", 0⟩ .start)), .go 5 6,
      .call (.executeTool false ⟨"a", "bash", "b:c"⟩), .go 6 1]

end FlexAgentRuntime.SandboxServer
