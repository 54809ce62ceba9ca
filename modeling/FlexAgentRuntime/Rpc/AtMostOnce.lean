import FlexAgentRuntime.Rpc.IdempotencyLog
import Mathlib.Data.List.Pairwise

/-!
At-most-once execution of tool calls, in runs in which

* a request looks its key up in the cache only while no other request with that key is
  between its lookup and its store;
* session ids have no colon.

The source has no marker for a call in progress: a retry that arrives before the first
attempt has stored its outcome misses the cache and is executed as well.
-/

namespace FlexAgentRuntime.SandboxServer

open Interleaving Config SandboxHost List Function Invocation

/-- A request with this key is between its lookup in the cache and its store. -/
def Op.usesKey (key : String) : Op → Bool
  | .tool req _ | .setCached req _ => cacheKey (pairOf req) == key
  | _ => false

def onceCond (_ : Log) (c : Config World Op) (a : Op) (_ : Choice) : Bool :=
  match a with
  | .executeTool _ req => req.toolCallID == "" ||
      (colonFree req.sessionID && c.pending (Op.usesKey (cacheKey (pairOf req))) == 0)
  | _ => true

/-- The call has ended, and the time of its outcome is over. -/
def Invocation.Over (ttl now : Nat) (v : Invocation) : Prop :=
  ∃ o f, v.finished = some (o, f) ∧ f + ttl < now

/-- Two calls of one pair, the first one over when the second one starts. -/
def Apart (ttl : Nat) (v v' : Invocation) : Prop := v.pair = v'.pair → v.Over ttl v'.startedAt

/-- The answer is the outcome of the call, given while it is valid. -/
def Given.From (ttl : Nat) (g : Given) (v : Invocation) : Prop :=
  v.pair = g.pair ∧ ∃ f, v.finished = some (g.answer, f) ∧ f ≤ g.time ∧ g.time ≤ f + ttl

/-- The calls of a pair that have no outcome yet. -/
def Log.running (h : Log) (p : Pair) : Nat :=
  h.invocations.countP fun v => v.pair == p && v.finished.isNone

variable {v : Invocation} {p q : Pair} {answer : Answer} {time ttl now now' : Nat}

theorem Invocation.Over.mono (hv : v.Over ttl now) (h : now ≤ now') : v.Over ttl now' := by
  obtain ⟨o, f, hfin, hlt⟩ := hv
  exact ⟨o, f, hfin, lt_of_lt_of_le hlt h⟩

@[simp] theorem Invocation.finish_pair : (v.finish p answer time).pair = v.pair := by
  unfold finish
  split <;> rfl

@[simp] theorem Invocation.finish_startedAt :
    (v.finish p answer time).startedAt = v.startedAt := by
  unfold finish
  split <;> rfl

theorem Invocation.finish_of_finished (h : v.finished ≠ none) : v.finish p answer time = v :=
  if_neg fun hv => h hv.2

theorem Invocation.finish_of_running (hp : v.pair = p) (h : v.finished = none) :
    (v.finish p answer time).finished = some (answer, time) := by
  simp [finish, hp, h]

theorem Invocation.Over.finish (hv : v.Over ttl now) : v.finish p answer time = v := by
  obtain ⟨o, f, hfin, -⟩ := hv
  exact finish_of_finished (by simp [hfin])

theorem Invocation.finish_cases (h : (v.finish p answer time).finished = some (o, f)) :
    (v.finish p answer time = v ∧ v.finished = some (o, f)) ∨
      (v.pair = p ∧ v.finished = none ∧ o = answer ∧ f = time) := by
  by_cases hv : v.pair = p ∧ v.finished = none
  · rw [finish_of_running hv.1 hv.2] at h
    cases h
    exact .inr ⟨hv.1, hv.2, rfl, rfl⟩
  · have heq : v.finish p answer time = v := if_neg hv
    rw [heq] at h
    exact .inl ⟨heq, h⟩

theorem countP_finish (l : List Invocation) : (l.map (finish p answer time)).countP
      (fun v => v.pair == q && v.finished.isNone) =
    if q = p then 0 else l.countP fun v => v.pair == q && v.finished.isNone := by
  rw [countP_map]
  split
  · rename_i heq
    subst heq
    refine countP_eq_zero.mpr fun v _ hv => ?_
    simp only [comp, finish_pair, Bool.and_eq_true, beq_iff_eq,
      Option.isNone_iff_eq_none] at hv
    by_cases hrun : v.finished = none
    · rw [finish_of_running hv.1 hrun] at hv
      cases hv.2
    · rw [finish_of_finished hrun] at hv
      exact hrun hv.2
  · rename_i hne
    refine countP_congr fun v _ => ?_
    by_cases hq : v.pair = q
    · have heq : v.finish p answer time = v := if_neg fun hv => hne (hq.symm.trans hv.1)
      simp [comp, heq]
    · simp [comp, hq]

/-! ## Requests in flight -/

/-- One request of a pair at a time; its call is the one the log has without outcome. -/
structure Flights (h : Log) (c : Config World Op) : Prop where
  single : ∀ p, c.pending (Op.inFlight p) ≤ 1
  running : ∀ p, h.running p = c.pending (Op.inCall p)

variable {h : Log} {c : Config World Op} {a b : Op} {x : Choice} {i : Nat} {rest : List Op}
  {o : Outcome World Op}

theorem Op.inCall_inFlight (hb : b.inCall p = true) : b.inFlight p = true := by
  cases b with
  | tool req op =>
    cases op with
    | lookup => cases hb
    | _ => exact hb
  | setCached => exact hb
  | _ => cases hb

theorem Op.inFlight_usesKey (hb : b.inFlight p = true) : b.usesKey (cacheKey p) = true := by
  cases b with
  | tool req op | setCached req answer =>
    simp only [Op.inFlight, beq_iff_eq] at hb
    simp [Op.usesKey, hb]
  | _ => cases hb

theorem pending_inCall_le (c : Config World Op) (p : Pair) :
    c.pending (Op.inCall p) ≤ c.pending (Op.inFlight p) :=
  c.pending_mono fun _ => Op.inCall_inFlight

theorem callHost_countP (f : Op → Bool) (stream : Bool) (req : ExecuteToolRequest) :
    (callHost stream req).1.countP f + ((callHost stream req).2.map (List.countP f)).sum =
      if f (.tool req .lookup) then 1 else 0 := by
  cases stream <;> simp [callHost, countP_cons]

theorem toolStep_ne_lookup (hs : ToolOp.Step w req op w' [.tool req op']) : op' ≠ .lookup := by
  cases hs <;> nofun

theorem Flights.single_step (hf : Flights h c) (ht : c.At i a rest)
    (hx : exec x a c.state = some o) (hcond : onceCond h c a x = true) (q : Pair) :
    (c.advance i rest o).pending (Op.inFlight q) ≤ 1 := by
  have hs := step_of_exec hx
  have hbal := pending_advance (Op.inFlight q) o ht
  have hsingle := hf.single q
  obtain ⟨state, more, spawn⟩ := o
  dsimp only at hs hbal
  cases hs with
  | @miss stream req hid =>
    -- no other request with the key is in flight
    simp only [onceCond, Bool.or_eq_true, beq_iff_eq, hid, false_or, Bool.and_eq_true] at hcond
    have hle : c.pending (Op.inFlight q) ≤ c.pending (Op.usesKey (cacheKey q)) :=
      c.pending_mono fun _ => Op.inFlight_usesKey
    rw [Nat.add_assoc, callHost_countP] at hbal
    by_cases hq : pairOf req = q
    · subst hq
      simp [Op.inFlight] at hbal
      omega
    · simp [Op.inFlight, hq] at hbal
      omega
  | @host _ _ more =>
    have hnone : (more.map Op.host).countP (Op.inFlight q) = 0 := by
      simp [countP_eq_zero, Op.inFlight]
    simp [hnone, Op.inFlight] at hbal
    omega
  | _ =>
    simp [countP_singleton, Op.inFlight] at hbal
    omega

theorem Flights.running_step (hf : Flights h c) (ht : c.At i a rest)
    (hx : exec x a c.state = some o) (q : Pair) :
    (h.note c a x).running q = (c.advance i rest o).pending (Op.inCall q) := by
  have hs := step_of_exec hx
  have hbal := pending_advance (Op.inCall q) o ht
  have hrun := hf.running q
  have hsame : (∀ req, a ≠ .tool req .lookup) → (∀ req answer, a ≠ .setCached req answer) →
      (h.note c a x).running q = c.pending (Op.inCall q) := fun hcall hstore => by
    rw [Log.running, Log.note_invocations hcall hstore]
    exact hrun
  obtain ⟨state, more, spawn⟩ := o
  dsimp only at hs hbal
  cases hs with
  | @tool req op host' op' hs =>
    have hcall : ∀ op : ToolOp, op ≠ .lookup → (Op.tool req op).inCall q = (pairOf req == q) := by
      intro op hop
      cases op with
      | lookup => exact absurd rfl hop
      | _ => rfl
    simp only [countP_singleton, hcall op' (toolStep_ne_lookup hs), map_nil, sum_nil] at hbal
    by_cases hop : op = .lookup
    · subst hop
      simp only [Op.inCall, Bool.false_eq_true, if_false] at hbal
      simp only [Log.running, Log.note, countP_append, countP_singleton, Option.isNone_none,
        Bool.and_true] at hrun ⊢
      omega
    · rw [hcall op hop] at hbal
      rw [hsame (fun _ heq => hop (by cases heq; rfl)) (by simp)]
      omega
  | @stored req answer =>
    simp only [countP_singleton, Op.inCall, map_nil, sum_nil, Bool.false_eq_true,
      if_false] at hbal
    simp only [Log.running, Log.note, countP_finish] at hrun ⊢
    by_cases hq : q = pairOf req
    · subst hq
      have hle := pending_inCall_le c (pairOf req)
      have hone := hf.single (pairOf req)
      simp only [beq_self_eq_true, if_true] at hbal ⊢
      omega
    · have hne : (pairOf req == q) = false := beq_eq_false_iff_ne.mpr fun h => hq h.symm
      simp only [hne, Bool.false_eq_true, if_false, hq] at hbal ⊢
      omega
  | miss =>
    rw [hsame (by simp) (by simp)]
    rw [Nat.add_assoc, callHost_countP] at hbal
    exact hbal.symm
  | @host _ _ more =>
    have hnone : (more.map Op.host).countP (Op.inCall q) = 0 := by
      simp [countP_eq_zero, Op.inCall]
    simp [hnone, Op.inCall] at hbal
    rw [hsame (by simp) (by simp), hbal]
  | _ =>
    rw [hsame (by simp) (by simp)]
    simp [countP_singleton, Op.inCall] at hbal
    omega

/-! ## The times of the calls -/

structure Windows (h : Log) (c : Config World Op) : Prop where
  known : ∀ v ∈ h.invocations, colonFree v.pair.1 = true
  started : ∀ v ∈ h.invocations, v.startedAt ≤ c.state.now
  ended : ∀ v ∈ h.invocations, ∀ o f, v.finished = some (o, f) → v.startedAt ≤ f
  apart : h.invocations.Pairwise (Apart c.state.ttl)
  recorded : ∀ r ∈ h.stored, ∃ v ∈ h.invocations, v.pair = r.pair ∧
    v.finished = some (r.answer, r.time)
  /-- The outcome of a call is over, or it is the one stored last under its key. -/
  current : ∀ v ∈ h.invocations, ∀ o f, v.finished = some (o, f) →
    v.Over c.state.ttl c.state.now ∨
      ∃ r, h.latest (cacheKey v.pair) = some r ∧ r.answer = o ∧ r.time = f
  /-- A request that has missed the cache finds the earlier calls over. -/
  fresh : ∀ req, c.Pend (.tool req .lookup) → ∀ v ∈ h.invocations, v.pair = pairOf req →
    v.Over c.state.ttl c.state.now
  given : ∀ g ∈ h.given, ∃ v ∈ h.invocations, g.From c.state.ttl v

variable {h' : Log} {c' : Config World Op} {req : ExecuteToolRequest}

theorem Windows.frame (hw : Windows h c) (hinv : h'.invocations = h.invocations)
    (hstored : h'.stored = h.stored)
    (hgiven : ∀ g ∈ h'.given, g ∈ h.given ∨ ∃ v ∈ h.invocations, g.From c.state.ttl v)
    (hfresh : ∀ req, c'.Pend (.tool req .lookup) → c.Pend (.tool req .lookup) ∨
      ∀ v ∈ h.invocations, v.pair = pairOf req → v.Over c.state.ttl c.state.now)
    (hnow : c.state.now ≤ c'.state.now) (httl : c'.state.ttl = c.state.ttl) : Windows h' c' := by
  obtain ⟨invocations, stored, given, births, origin⟩ := h'
  cases hinv
  cases hstored
  refine ⟨hw.known, fun v hv => le_trans (hw.started v hv) hnow, hw.ended, httl ▸ hw.apart,
    hw.recorded, fun v hv o f hfin => ?_, fun req hp v hv hpair => ?_, fun g hg => ?_⟩
  · rw [httl]
    exact (hw.current v hv o f hfin).imp_left fun hover => hover.mono hnow
  · rw [httl]
    rcases hfresh req hp with hp | hover
    · exact (hw.fresh req hp v hv hpair).mono hnow
    · exact (hover v hv hpair).mono hnow
  · rw [httl]
    rcases hgiven g hg with hg | hg
    · exact hw.given g hg
    · exact hg

/-- A request that misses the cache: the earlier calls of its pair are over. -/
theorem Windows.missed (hw : Windows h c) (hf : Flights h c) (hm : Mirrors h c)
    (hnone : c.pending (Op.inFlight (pairOf req)) = 0)
    (hexp : ∀ e, c.state.idempotency (cacheKey (pairOf req)) = some e → e.expires < c.state.now)
    (hv : v ∈ h.invocations) (hpair : v.pair = pairOf req) : v.Over c.state.ttl c.state.now := by
  cases hfin : v.finished with
  | none =>
    -- a call without outcome would be in flight
    have hrun : 0 < h.running (pairOf req) := countP_pos_iff.mpr ⟨v, hv, by simp [hpair, hfin]⟩
    have := hf.running (pairOf req)
    have := pending_inCall_le c (pairOf req)
    omega
  | some q =>
    obtain ⟨o, f⟩ := q
    rcases hw.current v hv o f hfin with hover | ⟨r, hl, -, rfl⟩
    · exact hover
    · rw [hpair] at hl
      exact ⟨o, r.time, hfin, hm.missed hexp hl⟩

theorem Flights.exists_running (hf : Flights h c) (hp : 0 < c.pending (Op.inCall p)) :
    ∃ v ∈ h.invocations, v.pair = p ∧ v.finished = none := by
  rw [← hf.running p] at hp
  obtain ⟨v, hv, htest⟩ := countP_pos_iff.mp hp
  simp only [Bool.and_eq_true, beq_iff_eq, Option.isNone_iff_eq_none] at htest
  exact ⟨v, hv, htest.1, htest.2⟩

theorem Windows.apart_or (hw : Windows h c) (hv : v ∈ h.invocations) (hv' : v' ∈ h.invocations)
    (hne : v ≠ v') : Apart c.state.ttl v v' ∨ Apart c.state.ttl v' v := by
  have : Std.Symm fun v v' => Apart c.state.ttl v v' ∨ Apart c.state.ttl v' v :=
    ⟨fun _ _ => Or.symm⟩
  have heither : h.invocations.Pairwise
      fun v v' => Apart c.state.ttl v v' ∨ Apart c.state.ttl v' v := hw.apart.imp .inl
  exact heither.forall hv hv' hne

/-- While a call of a pair is in progress, the other ones are over. -/
theorem Windows.over_of_running (hw : Windows h c) (hv : v ∈ h.invocations)
    (hv₀ : v₀ ∈ h.invocations) (hpair : v.pair = v₀.pair) (hrun : v₀.finished = none)
    (hfin : v.finished ≠ none) : v.Over c.state.ttl c.state.now := by
  have hne : v ≠ v₀ := by
    rintro rfl
    exact hfin hrun
  rcases hw.apart_or hv hv₀ hne with h | h
  · exact (h hpair).mono (hw.started v₀ hv₀)
  · obtain ⟨o, f, hfin₀, -⟩ := h hpair.symm
    rw [hrun] at hfin₀
    cases hfin₀

theorem Windows.call (hw : Windows h c) (hcol : Colonless h c)
    (ht : c.threads[i]? = some (.tool req .lookup :: rest))
    (hx : exec x (.tool req .lookup) c.state = some o)
    (hf' : Flights (h.note c (.tool req .lookup) x) (c.advance i rest o)) :
    Windows (h.note c (.tool req .lookup) x) (c.advance i rest o) := by
  have hs := step_of_exec hx
  obtain ⟨state, more, spawn⟩ := o
  dsimp only at hs
  have hpend := pend_head ht
  cases hs with
  | @tool _ _ host' op' hs =>
  have hop' := toolStep_ne_lookup hs
  have hcolon := hcol.flight _ hpend (pairOf req) (by simp [Op.inFlight])
  refine ⟨forall_mem_concat.mpr ⟨hw.known, hcolon⟩,
    forall_mem_concat.mpr ⟨hw.started, (le_refl _)⟩,
    forall_mem_concat.mpr ⟨hw.ended, (by simp)⟩, ?_, fun r hr => ?_,
    forall_mem_concat.mpr ⟨hw.current, (by simp)⟩,
    fun req' hp v hv hpair => ?_, fun g hg => ?_⟩
  · refine pairwise_append.mpr ⟨hw.apart, pairwise_singleton _ _, fun v hv v' hv' => ?_⟩
    cases mem_singleton.mp hv'
    exact hw.fresh req hpend v hv
  · obtain ⟨v, hv, hrec⟩ := hw.recorded r hr
    exact ⟨v, mem_append_left _ hv, hrec⟩
  · rcases mem_append.mp hv with hv | hv
    · refine hw.fresh req' ?_ v hv hpair
      rcases hp.of_advance_nil ht rfl with hp | hp
      · exact hp
      · exact absurd (by cases mem_singleton.mp hp; rfl) hop'
    · -- a second request of the pair would be in flight
      cases mem_singleton.mp hv
      have hone := hf'.single (pairOf req)
      have htwo := two_le_pending (p := Op.inFlight (pairOf req))
        (pend_more ht (mem_singleton_self _)) hp
        (fun heq => hop' (by cases heq; rfl)) (by simp [Op.inFlight])
        (by simp [Op.inFlight, ← hpair])
      omega
  · obtain ⟨v, hv, hfrom⟩ := hw.given g hg
    exact ⟨v, mem_append_left _ hv, hfrom⟩

theorem Windows.store (hw : Windows h c) (hf : Flights h c) (hcol : Colonless h c)
    (ht : c.threads[i]? = some (.setCached req answer :: rest))
    (hx : exec x (.setCached req answer) c.state = some o) :
    Windows (h.note c (.setCached req answer) x) (c.advance i rest o) := by
  cases hx
  obtain ⟨v₀, hv₀, hpair₀, hrun₀⟩ := hf.exists_running (p := pairOf req)
    (pending_head ht (by simp [Op.inCall]))
  have hcolon : colonFree (pairOf req).1 = true :=
    hcol.flight _ (pend_head ht) (pairOf req) (by simp [Op.inFlight])
  have hmem : ∀ v ∈ h.invocations, v.finished ≠ none →
      v ∈ h.invocations.map (finish (pairOf req) answer c.state.now) := by
    intro v hv hfin
    exact mem_map.mpr ⟨v, hv, finish_of_finished hfin⟩
  have hmem₀ : v₀.finish (pairOf req) answer c.state.now ∈
      h.invocations.map (finish (pairOf req) answer c.state.now) :=
    mem_map_of_mem hv₀
  have hfin₀ : (v₀.finish (pairOf req) answer c.state.now).finished =
      some (answer, c.state.now) := finish_of_running hpair₀ hrun₀
  refine ⟨forall_mem_map.mpr fun v hv => ?_, forall_mem_map.mpr fun v hv => ?_,
    forall_mem_map.mpr fun v hmemv o f hfin => ?_, ?_, fun r hr => ?_,
    forall_mem_map.mpr fun v hmemv o f hfin => ?_,
    fun req' hp => forall_mem_map.mpr fun v hmemv hpair => ?_, fun g hg => ?_⟩
  · rw [finish_pair]
    exact hw.known v hv
  · rw [finish_startedAt]
    exact hw.started v hv
  · rw [finish_startedAt]
    rcases finish_cases hfin with ⟨-, hfin'⟩ | ⟨-, -, -, rfl⟩
    · exact hw.ended v hmemv o f hfin'
    · exact hw.started v hmemv
  · refine pairwise_map.mpr (hw.apart.imp fun hap hpair => ?_)
    rw [finish_pair, finish_pair] at hpair
    rw [finish_startedAt, (hap hpair).finish]
    exact hap hpair
  · rcases mem_cons.mp hr with rfl | hr
    · exact ⟨_, hmem₀, by simp [hpair₀], hfin₀⟩
    · obtain ⟨v, hv, hpair, hfin⟩ := hw.recorded r hr
      exact ⟨v, hmem v hv (by simp [hfin]), hpair, hfin⟩
  · rcases finish_cases hfin with ⟨heq, hfin'⟩ | ⟨hpair, -, rfl, rfl⟩
    · rw [heq]
      by_cases hpair : v.pair = pairOf req
      · exact .inl (hw.over_of_running hmemv hv₀ (hpair.trans hpair₀.symm) hrun₀ (by simp [hfin']))
      · -- the key is another one
        rcases h.latest_note c (.setCached req answer) x (cacheKey v.pair) with
          ⟨hl, -⟩ | ⟨req', answer', heq', hkey, -⟩
        · rw [hl]
          exact hw.current v hmemv o f hfin'
        · cases heq'
          exact absurd (cacheKey_inj (hw.known v hmemv) hcolon hkey) hpair
    · refine .inr ⟨⟨pairOf req, o, c.state.now, h.origin (pairOf req)⟩, ?_, rfl, rfl⟩
      simp [Log.latest, Log.note, hpair]
  · rw [finish_pair] at hpair
    have hover : v.Over c.state.ttl c.state.now := by
      refine hw.fresh req' ?_ v hmemv hpair
      rcases hp.of_advance_nil ht rfl with hp | hp
      · exact hp
      · cases mem_singleton.mp hp
    rw [hover.finish]
    exact hover
  · rcases mem_concat.mp hg with hg | rfl
    · obtain ⟨v, hv, hpair, f, hfin, htime⟩ := hw.given g hg
      exact ⟨v, hmem v hv (by simp [hfin]), hpair, f, hfin, htime⟩
    · exact ⟨_, hmem₀, by simp [hpair₀], _, hfin₀, le_refl _, Nat.le_add_right _ _⟩

theorem lookup_before (ht : c.At i a rest) (hx : exec x a c.state = some o)
    (hp : (c.advance i rest o).Pend (.tool req .lookup)) :
    c.Pend (.tool req .lookup) ∨ ∃ stream, a = .executeTool stream req ∧ req.toolCallID ≠ "" ∧
      ∀ e, c.state.idempotency (cacheKey (pairOf req)) = some e → e.expires < c.state.now := by
  rcases hp.of_advance ht with hp | hnew
  · exact .inl hp
  · have hs := step_of_exec hx
    obtain ⟨state, more, spawn⟩ := o
    dsimp only at hs hnew
    cases hs with
    | miss hid hexp =>
      cases callHost_mem hnew
      exact .inr ⟨_, rfl, hid, hexp⟩
    | tool hs =>
      simp only [mem_singleton, not_mem_nil, false_and, exists_false, or_false] at hnew
      cases hnew
      exact absurd rfl (toolStep_ne_lookup hs)
    | _ => simp at hnew

theorem Windows.step (hw : Windows h c) (hf : Flights h c) (hm : Mirrors h c)
    (hcol : Colonless h c) (ht : c.At i a rest)
    (hx : exec x a c.state = some o) (hcond : onceCond h c a x = true)
    (hf' : Flights (h.note c a x) (c.advance i rest o)) :
    Windows (h.note c a x) (c.advance i rest o) := by
  have hs := step_of_exec hx
  by_cases hcall : ∃ req, a = .tool req .lookup
  · obtain ⟨req, rfl⟩ := hcall
    exact hw.call hcol ht hx hf'
  by_cases hstore : ∃ req answer, a = .setCached req answer
  · obtain ⟨req, answer, rfl⟩ := hstore
    exact hw.store hf hcol ht hx
  have hstore : ∀ req answer, a ≠ .setCached req answer :=
    fun req answer heq => hstore ⟨req, answer, heq⟩
  refine hw.frame (Log.note_invocations (fun req heq => hcall ⟨req, heq⟩) hstore)
    (Log.note_stored hstore) (fun g hg => ?_) (fun req hp => ?_) hs.now_le hs.ttl
  · rcases Log.given_note hstore hg with hg | ⟨stream, req, e, rfl, hid, he, hexp, rfl⟩
    · exact .inl hg
    · simp only [onceCond, Bool.or_eq_true, beq_iff_eq, hid, false_or, Bool.and_eq_true] at hcond
      obtain ⟨r, hl, hans, hle, hvalid⟩ := hm.hit he hexp
      have hpair := hcol.latest_pair (p := pairOf req) hcond.1 hl
      obtain ⟨v, hv, hvpair, hfin⟩ := hw.recorded r (Log.latest_mem hl).1
      exact .inr ⟨v, hv, hvpair.trans hpair, r.time, by rw [hfin, hans], hle, hvalid⟩
  · rcases lookup_before ht hx hp with hp | ⟨stream, rfl, hid, hexp⟩
    · exact .inl hp
    · simp only [onceCond, Bool.or_eq_true, beq_iff_eq, hid, false_or, Bool.and_eq_true] at hcond
      have hle : c.pending (Op.inFlight (pairOf req)) ≤
          c.pending (Op.usesKey (cacheKey (pairOf req))) :=
        c.pending_mono fun _ => Op.inFlight_usesKey
      exact .inr fun v hv hpair => hw.missed hf hm (by omega) hexp hv hpair

/-! ## The result -/

/-- Of two calls of `host.ExecuteTool` for one pair, the first one has ended and the time
of its outcome is over when the second one starts. Every answer to a request is the
outcome of a call for its pair, and of every call for its pair whose outcome is valid at
that time. -/
structure AtMostOnce (ttl : Nat) (h : Log) : Prop where
  once : h.invocations.Pairwise (Apart ttl)
  answered : ∀ g ∈ h.given, ∃ v ∈ h.invocations, g.From ttl v
  same : ∀ g ∈ h.given, ∀ v ∈ h.invocations, v.pair = g.pair → ∀ o f,
    v.finished = some (o, f) → f ≤ g.time → g.time ≤ f + ttl → g.answer = o

/-- The outcomes of two calls for one pair are not valid at the same time. -/
theorem Apart.disjoint {ttl time f f' : Nat} {v v' : Invocation} {o : Answer}
    (hap : Apart ttl v v') (hpair : v.pair = v'.pair) (hstart : v'.startedAt ≤ f')
    (hv : v.finished = some (o, f)) (hle : time ≤ f + ttl) (hle' : f' ≤ time) : False := by
  obtain ⟨o₁, f₁, hfin, hlt⟩ := hap hpair
  rw [hv] at hfin
  cases hfin
  omega

/-- In every run whose steps meet the condition, `host.ExecuteTool` is called at most once
for a pair within the time its outcome is kept, and every request for the pair that
completes within that time is answered with that outcome. -/
theorem tool_executed_at_most_once {config : ServiceConfig} {zfs : Zfs} {h : Log}
    {c : Config World Op}
    (hr : Reach machine (watch onceCond) {} (initialConfig config zfs) h c) :
    AtMostOnce c.state.ttl h := by
  have hcond : ∀ h c stream req x, onceCond h c (.executeTool stream req) x = true →
      req.toolCallID ≠ "" → colonFree req.sessionID = true := by
    intro h c stream req x hmeets hid
    simp only [onceCond, Bool.or_eq_true, beq_iff_eq, hid, false_or, Bool.and_eq_true] at hmeets
    exact hmeets.1
  have hinv : Flights h c ∧ Windows h c := by
    refine hr.invariant_of_reach (fun h c => Flights h c ∧ Windows h c) ?_ ?_ ?_
    · have hnone : ∀ v, v ∉ ({} : Log).invocations := fun _ => not_mem_nil
      exact ⟨⟨fun _ => Nat.zero_le _, fun _ => rfl⟩, fun v hv => absurd hv (hnone v),
        fun v hv => absurd hv (hnone v), fun v hv => absurd hv (hnone v), .nil,
        fun _ hr => absurd hr not_mem_nil, fun v hv => absurd hv (hnone v),
        fun _ _ v hv => absurd hv (hnone v), fun _ hg => absurd hg not_mem_nil⟩
    · intro h c a _ ih he
      have hnot : ∀ p, a.inFlight p = false := by
        intro p
        cases a with
        | tool | setCached => cases he
        | _ => rfl
      have hcall : ∀ p, a.inCall p = false := fun p =>
        Bool.eq_false_iff.mpr fun hp => Bool.eq_false_iff.mp (hnot p) (Op.inCall_inFlight hp)
      refine ⟨⟨fun p => ?_, fun p => ?_⟩, ih.2.frame rfl rfl (fun g hg => .inl hg)
        (fun req hp => ?_) (le_refl _) rfl⟩
      · rw [pending_call, hnot p]
        exact ih.1.single p
      · rw [pending_call, hcall p]
        exact ih.1.running p
      · rcases pend_call.mp hp with hp | rfl
        · exact .inl hp
        · cases he
    · intro h c i a rest x o hr ih ht hx hmeets
      have hf : Flights (h.note c a x) (c.advance i rest o) :=
        ⟨ih.1.single_step ht hx hmeets, ih.1.running_step ht hx⟩
      exact ⟨hf, ih.2.step ih.1 (Reach.mirrors hr) (Reach.colonless hr hcond) ht hx hmeets hf⟩
  obtain ⟨-, hw⟩ := hinv
  refine ⟨hw.apart, hw.given, fun g hg v hv hpair o f hfin hle hle' => ?_⟩
  obtain ⟨v₁, hv₁, hpair₁, f₁, hfin₁, hle₁, hle₁'⟩ := hw.given g hg
  by_cases heq : v = v₁
  · subst heq
    rw [hfin] at hfin₁
    cases hfin₁
    rfl
  · -- the other call's outcome is not valid at that time
    rcases hw.apart_or hv hv₁ heq with hap | hap
    · exact (hap.disjoint (hpair.trans hpair₁.symm) (hw.ended v₁ hv₁ _ _ hfin₁) hfin hle'
        hle₁).elim
    · exact (hap.disjoint (hpair₁.trans hpair.symm) (hw.ended v hv _ _ hfin) hfin₁ hle₁'
        hle).elim

def toolServer : ServiceConfig where
  storageBackend := .localDisk
  containerRuntime := .none
  sessionsDataset := "tank/sessions"
  sessionsRootDir := "/sessions"

/-- A tool call, its retry after it has ended, and another one after five minutes. -/
theorem tool_executed_at_most_once_retried : ∃ h c,
    Reach machine (watch onceCond) {} (initialConfig toolServer {}) h c ∧
      h.invocations.length = 2 ∧ h.given.length = 3 ∧ AtMostOnce c.state.ttl h := by
  refine Machine.follow_imp defaultChoice [.call (.host (.create ⟨"", "s-1", 0⟩ .start)), .go 0 5,
      .call (.executeTool false ⟨"s-1", "bash", "t-1"⟩), .go 1 8,
      .call (.executeTool false ⟨"s-1", "bash", "t-1"⟩), .go 2 2,
      .call (.clock (idempotencyTTL + 1)), .go 3 1,
      .call (.executeTool true ⟨"s-1", "bash", "t-1"⟩), .go 4 1, .go 5 7]
    (fun h _ => h.invocations.length = 2 ∧ h.given.length = 3) ?_
  rintro h c hr ⟨hinv, hgiven⟩
  exact ⟨hinv, hgiven, tool_executed_at_most_once hr⟩

/-- The retry arrives while the first attempt is running: both run the tool. -/
theorem retry_executes_tool_twice : ∃ h c,
    Reach machine watchAll {} (initialConfig toolServer {}) h c ∧ c.state.now = 0 ∧
      c.pending (fun a => decide (a = .tool ⟨"s-1", "bash", "t-1"⟩ (.run 1))) = 2 :=
  Machine.follow_to defaultChoice [.call (.host (.create ⟨"", "s-1", 0⟩ .start)), .go 0 5,
      .call (.executeTool false ⟨"s-1", "bash", "t-1"⟩), .go 1 4,
      .call (.executeTool false ⟨"s-1", "bash", "t-1"⟩), .go 2 4]

end FlexAgentRuntime.SandboxServer
