import FlexAgentRuntime.Rpc.SandboxServer

/-!
A log of what a `SandboxServer` has done: the calls of `host.ExecuteTool`, the outcomes
stored in the idempotency cache, and the answers given.

* `Reach.mirrors`: in every run the cache is what the log says. An entry is the outcome
  stored last under its key; the outcome stored last is there until its time is over.
* `Reach.colonless`: when requests have session ids without colons, so have the calls in
  progress and the outcomes stored.
-/

namespace FlexAgentRuntime.SandboxServer

open Interleaving Config SandboxHost List Function

/-- A call of `host.ExecuteTool`, with its outcome and the time that was stored. -/
structure Invocation where
  pair : Pair
  startedAt : Nat
  finished : Option (Answer × Nat) := none
  deriving DecidableEq, Repr

/-- An outcome put in the cache. `born` is the incarnation of the session, or an earlier
one, that its call has looked up. -/
structure Stored where
  pair : Pair
  answer : Answer
  time : Nat
  born : Nat
  deriving DecidableEq, Repr

/-- An answer to a request with a `ToolCallID`, with the incarnation of its session at that
time; for an answer from the cache, with the outcome that was stored last. -/
structure Given where
  pair : Pair
  answer : Answer
  time : Nat
  births : Nat
  cached : Bool
  source : Option Stored
  deriving DecidableEq, Repr

structure Log where
  invocations : List Invocation := []
  /-- The latest one first. -/
  stored : List Stored := []
  given : List Given := []
  /-- How often a session has been created under an id. -/
  births : String → Nat := fun _ => 0
  /-- The incarnation that the calls of a pair in progress have looked up first. -/
  origin : Pair → Nat := fun _ => 0

/-- The outcome stored last under a key. -/
def Log.latest (h : Log) (key : String) : Option Stored :=
  h.stored.find? fun r => cacheKey r.pair = key

/-- The call of pair `p` that is in progress gets its outcome. -/
def Invocation.finish (p : Pair) (answer : Answer) (time : Nat) (v : Invocation) : Invocation :=
  if v.pair = p ∧ v.finished = none then { v with finished := some (answer, time) } else v

/-- A request for pair `p` is between its lookup in the cache and its store. -/
def Op.inFlight (p : Pair) : Op → Bool
  | .tool req _ | .setCached req _ => pairOf req == p
  | _ => false

/-- `host.ExecuteTool` has been called for pair `p` and its outcome is not stored. -/
def Op.inCall (p : Pair) : Op → Bool
  | .tool _ .lookup => false
  | .tool req _ | .setCached req _ => pairOf req == p
  | _ => false

def Log.note (h : Log) (c : Config World Op) (a : Op) (_ : Choice) : Log :=
  match a with
  | .executeTool _ req =>
    if req.toolCallID = "" then h
    else
      match (c.state.getCached (cacheKey (pairOf req))).2 with
      | some e => { h with given := h.given ++ [{
            pair := pairOf req
            answer := e.answer
            time := c.state.now
            births := h.births req.sessionID
            cached := true
            source := h.latest (cacheKey (pairOf req)) }] }
      | none => h
  | .tool req .lookup => { h with
      invocations := h.invocations ++ [{ pair := pairOf req, startedAt := c.state.now }]
      origin := if c.pending (Op.inCall (pairOf req)) = 0 then
          update h.origin (pairOf req) (h.births req.sessionID)
        else h.origin }
  | .setCached req answer => { h with
      invocations := h.invocations.map (Invocation.finish (pairOf req) answer c.state.now)
      stored := {
        pair := pairOf req
        answer := answer
        time := c.state.now
        born := h.origin (pairOf req) } :: h.stored
      given := h.given ++ [{
        pair := pairOf req
        answer := answer
        time := c.state.now
        births := h.births req.sessionID
        cached := false
        source := none }] }
  | .host (.create _ (.store id _ _)) =>
    { h with births := update h.births id (h.births id + 1) }
  | _ => h

/-- The log, with a condition on the steps. -/
def watch (meets : Log → Config World Op → Op → Choice → Bool) : Monitor World Op Choice Log :=
  ⟨fun h _ _ => h, Log.note, meets⟩

/-- The log of any run. -/
def watchAll : Monitor World Op Choice Log := watch fun _ _ _ _ => true

variable {h : Log} {c : Config World Op} {a : Op} {x : Choice}

theorem Log.note_stored (hstore : ∀ req answer, a ≠ .setCached req answer) :
    (h.note c a x).stored = h.stored := by
  unfold Log.note
  split
  · split
    · rfl
    · split <;> rfl
  · rfl
  · exact absurd rfl (hstore _ _)
  all_goals rfl

theorem Log.mem_stored_note (hr : r ∈ (h.note c a x).stored) :
    r ∈ h.stored ∨ ∃ req answer, a = .setCached req answer ∧
      r = ⟨pairOf req, answer, c.state.now, h.origin (pairOf req)⟩ := by
  by_cases ha : ∃ req answer, a = .setCached req answer
  · obtain ⟨req, answer, rfl⟩ := ha
    exact (mem_cons.mp hr).symm.imp_right fun heq => ⟨req, answer, rfl, heq⟩
  · rw [Log.note_stored fun req answer heq => ha ⟨req, answer, heq⟩] at hr
    exact .inl hr

theorem Log.note_invocations (hcall : ∀ req, a ≠ .tool req .lookup)
    (hstore : ∀ req answer, a ≠ .setCached req answer) :
    (h.note c a x).invocations = h.invocations := by
  unfold Log.note
  split
  · split
    · rfl
    · split <;> rfl
  · exact absurd rfl (hcall _)
  · exact absurd rfl (hstore _ _)
  all_goals rfl

theorem Log.note_origin (hcall : ∀ req, a ≠ .tool req .lookup) :
    (h.note c a x).origin = h.origin := by
  unfold Log.note
  split
  · split
    · rfl
    · split <;> rfl
  · exact absurd rfl (hcall _)
  all_goals rfl

theorem Log.note_births (h : Log) (c : Config World Op) (a : Op) (x : Choice) :
    (h.note c a x).births = h.births ∨
      ∃ q id dataset mp, a = .host (.create q (.store id dataset mp)) ∧
        (h.note c a x).births = update h.births id (h.births id + 1) := by
  unfold Log.note
  split
  · left
    split
    · rfl
    · split <;> rfl
  · exact .inl rfl
  · exact .inl rfl
  · exact .inr ⟨_, _, _, _, rfl, rfl⟩
  · exact .inl rfl

theorem Log.given_note (hstore : ∀ req answer, a ≠ .setCached req answer)
    (hg : g ∈ (h.note c a x).given) :
    g ∈ h.given ∨ ∃ stream req e, a = .executeTool stream req ∧ req.toolCallID ≠ "" ∧
      c.state.idempotency (cacheKey (pairOf req)) = some e ∧ c.state.now ≤ e.expires ∧
      g = ⟨pairOf req, e.answer, c.state.now, h.births req.sessionID, true,
        h.latest (cacheKey (pairOf req))⟩ := by
  unfold Log.note at hg
  split at hg
  · split at hg
    · exact .inl hg
    · rename_i hid
      split at hg
      · rename_i e hget
        obtain ⟨-, he, hexp⟩ := getCached_some (Prod.ext rfl hget)
        rcases mem_concat.mp hg with hg | hg
        · exact .inl hg
        · exact .inr ⟨_, _, e, rfl, hid, he, hexp, hg⟩
      · exact .inl hg
  · exact .inl hg
  · exact absurd rfl (hstore _ _)
  all_goals exact .inl hg

variable {w w' : World} {b : Op} {more : List Op} {spawn : List (List Op)}

theorem Step.ttl (hs : Step w a w' more spawn) : w'.ttl = w.ttl := by
  cases hs <;> rfl

theorem Step.now_le (hs : Step w a w' more spawn) : w.now ≤ w'.now := by
  cases hs with
  | clock => exact Nat.le_add_right _ _
  | _ => exact le_refl _

theorem Step.evict_more (hs : Step w a w' more spawn)
    (hb : .evict time ∈ more ∨ ∃ th ∈ spawn, .evict time ∈ th) : time = w.now := by
  have hnot : ∀ stream req, ¬ (.evict time ∈ (callHost stream req).1 ∨
      ∃ th ∈ (callHost stream req).2, .evict time ∈ th) := by
    intro stream req
    cases stream <;> simp [callHost]
  cases hs with
  | miss => exact absurd hb (hnot _ _)
  | sweep =>
    simp only [mem_singleton, not_mem_nil, false_and, exists_false, or_false] at hb
    cases hb
    rfl
  | _ => simp at hb

theorem callHost_mem (hb : b ∈ (callHost stream req).1 ∨ ∃ th ∈ (callHost stream req).2, b ∈ th) :
    b = .tool req .lookup := by
  cases stream <;> simpa [callHost] using hb

theorem Step.inFlight_more (hs : Step w a w' more spawn) (hb : b ∈ more ∨ ∃ th ∈ spawn, b ∈ th)
    (hp : b.inFlight p = true) :
    a.inFlight p = true ∨ ∃ stream req, a = .executeTool stream req ∧ pairOf req = p ∧
      req.toolCallID ≠ "" ∧ b = .tool req .lookup := by
  cases hs with
  | @miss stream req hid _ =>
    cases callHost_mem hb
    exact .inr ⟨stream, req, rfl, by simpa [Op.inFlight] using hp, hid, rfl⟩
  | tool | returned =>
    simp only [mem_singleton, not_mem_nil, false_and, exists_false, or_false] at hb
    subst hb
    exact .inl hp
  | host =>
    simp only [mem_map, not_mem_nil, false_and, exists_false, or_false] at hb
    obtain ⟨_, -, rfl⟩ := hb
    cases hp
  | ret | evict | clock => simp at hb
  | _ =>
    simp only [mem_singleton, not_mem_nil, false_and, exists_false, or_false] at hb
    subst hb
    cases hp

theorem Step.inCall_more (hs : Step w a w' more spawn) (hb : b ∈ more ∨ ∃ th ∈ spawn, b ∈ th)
    (hp : b.inCall p = true) :
    a.inCall p = true ∨ ∃ req, a = .tool req .lookup ∧ pairOf req = p := by
  have hflight : b.inFlight p = true := by
    cases b with
    | tool req op => cases op <;> first | exact hp | cases hp
    | setCached => exact hp
    | _ => cases hp
  rcases hs.inFlight_more hb hflight with ha | ⟨_, _, -, -, -, rfl⟩
  · cases a with
    | tool req op =>
      cases op with
      | lookup => exact .inr ⟨req, rfl, by simpa [Op.inFlight] using ha⟩
      | _ => exact .inl ha
    | setCached => exact .inl ha
    | _ => cases ha
  · cases hp

/-! ## The cache and the log -/

structure Mirrors (h : Log) (c : Config World Op) : Prop where
  entry : ∀ key e, c.state.idempotency key = some e →
    ∃ r, h.latest key = some r ∧ e = ⟨r.answer, r.time + c.state.ttl⟩
  gone : ∀ key r, h.latest key = some r → c.state.idempotency key = none →
    r.time + c.state.ttl < c.state.now
  past : ∀ r ∈ h.stored, r.time ≤ c.state.now
  sweeps : ∀ time, c.Pend (.evict time) → time ≤ c.state.now

variable {key : String} {e : Entry} {r : Stored}

theorem Log.latest_mem (hl : h.latest key = some r) : r ∈ h.stored ∧ cacheKey r.pair = key := by
  have hk := List.find?_some hl
  simp only [decide_eq_true_eq] at hk
  exact ⟨mem_of_find?_eq_some hl, hk⟩

/-- An answer from the cache is the outcome stored last, within its time. -/
theorem Mirrors.hit (hm : Mirrors h c) (he : c.state.idempotency key = some e)
    (hexp : c.state.now ≤ e.expires) : ∃ r, h.latest key = some r ∧ r.answer = e.answer ∧
      r.time ≤ c.state.now ∧ c.state.now ≤ r.time + c.state.ttl := by
  obtain ⟨r, hl, rfl⟩ := hm.entry key e he
  exact ⟨r, hl, rfl, hm.past r (Log.latest_mem hl).1, hexp⟩

/-- When the cache has no answer, the time of the outcome stored last is over. -/
theorem Mirrors.missed (hm : Mirrors h c)
    (hexp : ∀ e, c.state.idempotency key = some e → e.expires < c.state.now)
    (hl : h.latest key = some r) : r.time + c.state.ttl < c.state.now := by
  cases hc : c.state.idempotency key with
  | none => exact hm.gone key r hl hc
  | some e =>
    obtain ⟨r', hl', rfl⟩ := hm.entry key e hc
    rw [hl] at hl'
    cases hl'
    exact hexp _ hc

theorem Mirrors.initial (config : ServiceConfig) (zfs : Zfs) :
    Mirrors {} (initialConfig config zfs) :=
  ⟨nofun, nofun, nofun, fun _ hb => by obtain ⟨_, hth, -⟩ := hb; cases hth⟩

/-- The entries after a step, one key at a time: kept, dropped when over, or stored. -/
theorem Step.entry (hs : Step w a w' more spawn) (key : String) :
    w'.idempotency key = w.idempotency key ∨
      (w'.idempotency key = none ∧ ∀ e, w.idempotency key = some e → e.expires < w.now) ∨
      (∃ time e, a = .evict time ∧ w.idempotency key = some e ∧ e.expires < time ∧
        w'.idempotency key = none) ∨
      (∃ req answer, a = .setCached req answer ∧ key = cacheKey (pairOf req) ∧
        w'.idempotency key = some ⟨answer, w.now + w.ttl⟩) := by
  cases hs with
  | @miss stream req _ hexp =>
    by_cases hk : key = cacheKey (pairOf req)
    · subst hk
      exact .inr (.inl ⟨update_self .., hexp⟩)
    · exact .inl (update_of_ne hk ..)
  | @stored req answer =>
    by_cases hk : key = cacheKey (pairOf req)
    · subst hk
      exact .inr (.inr (.inr ⟨req, answer, rfl, rfl, update_self ..⟩))
    · exact .inl (update_of_ne hk ..)
  | @evict time =>
    cases he : w.idempotency key with
    | none => exact .inl (by simp [World.evictExpired, he])
    | some e =>
      by_cases hexp : e.expires < time
      · refine .inr (.inr (.inl ⟨time, e, rfl, rfl, hexp, ?_⟩))
        simp [World.evictExpired, he, hexp]
      · exact .inl (by simp [World.evictExpired, he, Option.filter, Nat.le_of_not_lt hexp])
  | _ => exact .inl rfl

theorem Step.stored_entry (hs : Step w (.setCached req answer) w' more spawn) :
    w'.idempotency (cacheKey (pairOf req)) = some ⟨answer, w.now + w.ttl⟩ := by
  cases hs
  exact update_self ..

/-- The outcome stored last, after a step. -/
theorem Log.latest_note (h : Log) (c : Config World Op) (a : Op) (x : Choice) (key : String) :
    ((h.note c a x).latest key = h.latest key ∧
        ∀ req answer, a = .setCached req answer → key ≠ cacheKey (pairOf req)) ∨
      ∃ req answer, a = .setCached req answer ∧ key = cacheKey (pairOf req) ∧
        (h.note c a x).latest key =
          some ⟨pairOf req, answer, c.state.now, h.origin (pairOf req)⟩ := by
  by_cases ha : ∃ req answer, a = .setCached req answer
  · obtain ⟨req, answer, rfl⟩ := ha
    by_cases hk : cacheKey (pairOf req) = key
    · refine .inr ⟨req, answer, rfl, hk.symm, ?_⟩
      simp [Log.latest, Log.note, hk]
    · refine .inl ⟨?_, ?_⟩
      · simp [Log.latest, Log.note, hk]
      · rintro req answer ⟨⟩ rfl
        exact hk rfl
  · refine .inl ⟨?_, fun req answer heq => absurd ⟨req, answer, heq⟩ ha⟩
    unfold Log.latest
    rw [Log.note_stored fun req answer heq => ha ⟨req, answer, heq⟩]

theorem Mirrors.step (hm : Mirrors h c) (ht : c.At i a rest) (hx : exec x a c.state = some o) :
    Mirrors (h.note c a x) (c.advance i rest o) := by
  have hs := step_of_exec hx
  have hnow := hs.now_le
  refine ⟨fun key e he => ?_, fun key r hl hnone => ?_, fun r hr => ?_, fun time hp => ?_⟩
  · rw [advance_state] at he ⊢
    rw [hs.ttl]
    rcases h.latest_note c a x key with ⟨hl, hne⟩ | ⟨req, answer, rfl, rfl, hl⟩
    · rw [hl]
      rcases hs.entry key with heq | ⟨hnone, -⟩ | ⟨_, _, -, -, -, hnone⟩ | ⟨req, answer, ha, hk, -⟩
      · exact hm.entry key e (heq ▸ he)
      · rw [hnone] at he
        cases he
      · rw [hnone] at he
        cases he
      · exact absurd hk (hne req answer ha)
    · rw [hs.stored_entry] at he
      cases he
      exact ⟨_, hl, rfl⟩
  · rw [advance_state] at hnone ⊢
    rw [hs.ttl]
    rcases h.latest_note c a x key with ⟨heq, -⟩ | ⟨req, answer, rfl, rfl, -⟩
    · rw [heq] at hl
      refine lt_of_lt_of_le ?_ hnow
      rcases hs.entry key with hsame | ⟨-, hexp⟩ | ⟨time, e, rfl, he, hexp, -⟩ | ⟨_, _, -, -, hsome⟩
      · exact hm.gone key r hl (hsame ▸ hnone)
      · exact hm.missed hexp hl
      · refine hm.missed (fun e' he' => ?_) hl
        rw [he] at he'
        cases he'
        exact lt_of_lt_of_le hexp (hm.sweeps time (pend_head ht))
      · rw [hsome] at hnone
        cases hnone
    · rw [hs.stored_entry] at hnone
      cases hnone
  · refine le_trans ?_ hnow
    rcases Log.mem_stored_note hr with hr | ⟨req, answer, -, rfl⟩
    · exact hm.past r hr
    · exact le_refl _
  · refine le_trans ?_ hnow
    rcases hp.of_advance ht with hp | hp
    · exact hm.sweeps time hp
    · exact le_of_eq (hs.evict_more hp)

theorem Reach.mirrors (hr : Reach machine (watch meets) {} (initialConfig config zfs) h c) :
    Mirrors h c := by
  refine hr.invariant (fun h c => Mirrors h c) (Mirrors.initial config zfs) ?_ ?_
  · intro h c a ih he
    refine ⟨ih.entry, ih.gone, ih.past, fun time hp => ?_⟩
    rcases pend_call.mp hp with hp | rfl
    · exact ih.sweeps time hp
    · cases he
  · intro h c i a rest x o ih ht hx _
    exact ih.step ht hx

/-! ## Session ids without colons -/

structure Colonless (h : Log) (c : Config World Op) : Prop where
  flight : ∀ b, c.Pend b → ∀ p, b.inFlight p = true → colonFree p.1 = true
  stored : ∀ r ∈ h.stored, colonFree r.pair.1 = true

variable {h : Log} {c : Config World Op}

theorem Reach.colonless (hr : Reach machine (watch meets) {} (initialConfig config zfs) h c)
    (hcond : ∀ h c stream req x, meets h c (.executeTool stream req) x = true →
      req.toolCallID ≠ "" → colonFree req.sessionID = true) : Colonless h c := by
  refine hr.invariant (fun h c => Colonless h c) ?_ ?_ ?_
  · exact ⟨fun _ hb => absurd hb not_pend_nil, nofun⟩
  · intro h c a ih he
    refine ⟨forall_pend_call ih.flight fun p hp => ?_, ih.stored⟩
    cases a with
    | tool | setCached => cases he
    | _ => cases hp
  · intro h c i a rest x o ih ht hx hmeets
    have hs := step_of_exec hx
    refine ⟨fun b hb p hp => ?_, fun r hr => ?_⟩
    · rcases hb.of_advance ht with hb | hb
      · exact ih.flight b hb p hp
      · rcases hs.inFlight_more hb hp with ha | ⟨stream, req, rfl, rfl, hid, -⟩
        · exact ih.flight a (pend_head ht) p ha
        · exact hcond h c stream req x hmeets hid
    · rcases Log.mem_stored_note (x := x) hr with hr | ⟨req, answer, rfl, rfl⟩
      · exact ih.stored r hr
      · exact ih.flight _ (pend_head ht) _ (by simp [Op.inFlight])

/-- The outcome stored last under the key of `p` is one of `p`. -/
theorem Colonless.latest_pair (hc : Colonless h c) (hp : colonFree p.1 = true)
    (hl : h.latest (cacheKey p) = some r) : r.pair = p := by
  obtain ⟨hmem, hkey⟩ := Log.latest_mem hl
  exact cacheKey_inj (hc.stored r hmem) hp hkey

end FlexAgentRuntime.SandboxServer
