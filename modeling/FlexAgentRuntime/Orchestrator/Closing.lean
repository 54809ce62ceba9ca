import FlexAgentRuntime.Orchestrator.Lifecycle

/-!
What `Close` waits for before it tears sessions down.

It refuses new operations, waits for the health loop and for the operations under way,
and then destroys the sessions one after the other.

* `Reach.shutdown`: `wg` counts the operations, there is one health loop and one `Close`;
* `Reach.no_checks`, `Reach.quiet`: when sessions are torn down by `Close`, no health check
  and no `DestroySession` is under way.
-/

namespace FlexAgentRuntime.Orchestrator

open List

open AgentLoop (Choice)
open Interleaving Config

/-! ## Actions of the health loop, of operations and of `Close` -/

def Op.ticks : Op → Bool
  | .orch .healthTick => true
  | _ => false

/-- A health check, of whatever entry. -/
def Op.checking : Op → Bool
  | .entry _ .probe | .entry _ .verdict => true
  | _ => false

def Op.ends : Op → Bool
  | .orch .endOperation => true
  | _ => false

def Op.waitsHealth : Op → Bool
  | .orch .waitHealth => true
  | _ => false

def Op.waitsOperations : Op → Bool
  | .orch .waitOperations => true
  | _ => false

def Op.waits (a : Op) : Bool := a.waitsHealth || a.waitsOperations

def Op.closesSessions : Op → Bool
  | .orch .closeSessions => true
  | _ => false

/-- The last two actions of `Close`. -/
def Op.closes : Op → Bool
  | .orch .closeSessions | .orch .closeShared => true
  | _ => false

/-- A teardown, of whatever entry, or the lookup of `DestroySession`. -/
def Op.tearing : Op → Bool
  | .orch (.lookupDestroy _) | .entry _ (.destroy _) | .entry _ .destroyed => true
  | _ => false

/-- What comes after the teardowns of `DestroySession` and of `Close`. -/
def Op.concludes : Op → Bool
  | .orch .endOperation | .orch .closeShared => true
  | _ => false

variable {w w' : World} {x : Choice} {a b : Op} {o : Outcome World Op} {op : OrchOp}
  {more : List Op}

theorem Step.orch_more (hs : Step x w a o) (hb : .orch op ∈ o.more) :
    (∃ op', a = .orch op') ∨ ∃ e err, op = .ret (some e) err := by
  cases hs.comes hb with
  | orch => exact .inl ⟨_, rfl⟩
  | returned | created => exact .inr ⟨_, _, rfl⟩

/-- Kinds of actions of the orchestrator that come from its actions only. -/
structure OfOrch (p : Op → Bool) : Prop where
  orch : ∀ a, p a = true → ∃ op, a = .orch op
  ret : ∀ e err, p (.orch (.ret (some e) err)) = false

theorem OfOrch.not_loop (hp : OfOrch p) (op : AgentLoop.Op) : p (.loop op) = false := by
  refine Bool.eq_false_iff.mpr fun h => ?_
  obtain ⟨_, h⟩ := hp.orch _ h
  cases h

theorem OfOrch.countP_more (hp : OfOrch p) (hs : Step x w a o) (ha : ¬ ∃ op, a = .orch op) :
    o.more.countP p = 0 := by
  refine countP_eq_zero.mpr fun b hb hpb => ?_
  obtain ⟨op, rfl⟩ := hp.orch b hpb
  rcases hs.orch_more hb with h | ⟨e, err, rfl⟩
  · exact ha h
  · rw [hp.ret e err] at hpb
    cases hpb

theorem Step.orch_eq (hs : Step x w a o) (ha : ¬ ∃ op, a = .orch op) :
    o.state.orch.healthDone = w.orch.healthDone ∧ o.state.orch.wg = w.orch.wg ∧
      o.state.orch.closing = w.orch.closing := by
  cases hs with
  | orch hs => exact absurd ⟨_, rfl⟩ ha
  | expire | loop hs => exact ⟨rfl, rfl, rfl⟩
  | create hs | entry hs | backend hs => cases hs <;> exact ⟨rfl, rfl, rfl⟩

/-! ## Counting -/

/-- The counters and flags of `Close` against the actions that are pending. -/
structure Shutdown (c : Config World Op) : Prop where
  ticks : c.pending Op.ticks + c.state.orch.healthDone.toNat ≤ 1
  ends : c.pending Op.ends = c.state.orch.wg
  closes : c.pending Op.closes ≤ c.state.orch.closing.toNat
  health : c.state.orch.closing = true →
    0 < c.pending Op.waitsHealth ∨ c.state.orch.healthDone = true
  operations : c.state.orch.closing = true →
    0 < c.pending Op.waitsOperations ∨ c.state.orch.wg = 0

variable {c : Config World Op} {i : Nat} {rest : List Op}

theorem exists_orch (h : a.ticks ∨ a.ends ∨ a.closes ∨ a.waits) : ∃ op, a = .orch op := by
  cases a with
  | orch op => exact ⟨op, rfl⟩
  | _ => simp [Op.ticks, Op.ends, Op.closes, Op.waits, Op.waitsHealth, Op.waitsOperations] at h

theorem ofOrch_ticks : OfOrch Op.ticks := ⟨fun _ h => exists_orch (.inl h), fun _ _ => rfl⟩

theorem ofOrch_ends : OfOrch Op.ends := ⟨fun _ h => exists_orch (.inr (.inl h)), fun _ _ => rfl⟩

theorem ofOrch_closes : OfOrch Op.closes :=
  ⟨fun _ h => exists_orch (.inr (.inr (.inl h))), fun _ _ => rfl⟩

theorem OfOrch.pending_same (hp : OfOrch p) (ht : c.At i a rest) (hs : Step x c.state a o)
    (ha : ¬ ∃ op, a = .orch op) : (c.advance i rest o).pending p = c.pending p := by
  have hbal := pending_advance p o ht
  have hpa : p a = false := Bool.eq_false_iff.mpr fun h => ha (hp.orch a h)
  rw [hp.countP_more hs ha, hs.spawn_countP hp.not_loop, hpa] at hbal
  simpa using hbal

theorem OrchOp.Step.ticks (h : op.Step w w' more) :
    more.countP Op.ticks + w'.orch.healthDone.toNat ≤
      (if Op.ticks (.orch op) then 1 else 0) + w.orch.healthDone.toNat := by
  cases h with
  | begun hb => cases hb <;> exact Nat.add_le_add_right (Nat.zero_le _) _
  | closeSessions =>
    rw [countP_concat _ _ fun _ => rfl]
    exact le_refl _
  | healthTick => rw [countP_concat _ _ fun _ => rfl]
  | healthEnd => exact Nat.le_add_right ..
  | _ => exact Nat.add_le_add_right (Nat.zero_le _) _

theorem OrchOp.Step.ends (h : op.Step w w' more)
    (hpos : Op.ends (.orch op) = true → 0 < w.orch.wg) :
    more.countP Op.ends + w.orch.wg = (if Op.ends (.orch op) then 1 else 0) + w'.orch.wg := by
  cases h with
  | refused hop =>
    have hno : Op.ends (.orch op) = false := by cases op <;> first | rfl | cases hop
    rw [hno]
    rfl
  | begun hb => cases hb <;> simp [Op.ends, World.setOrch, Nat.add_comm]
  | found hf => cases hf <;> simp [Op.ends]
  | ended =>
    have := hpos rfl
    simp only [Op.ends, countP_nil, if_true, World.setOrch]
    omega
  | closeSessions =>
    rw [countP_concat _ _ fun _ => rfl]
    rfl
  | healthTick => rw [countP_concat _ _ fun _ => rfl]
  | _ => simp [Op.ends, World.setOrch, World.newEntry]

theorem OrchOp.Step.closes (h : op.Step w w' more) :
    more.countP Op.closes + w.orch.closing.toNat ≤
      (if Op.closes (.orch op) then 1 else 0) + w'.orch.closing.toNat := by
  cases h with
  | begun hb => cases hb <;> exact Nat.add_le_add_right (Nat.zero_le _) _
  | close hc =>
    rw [hc]
    exact le_refl 1
  | closeSessions =>
    rw [countP_concat _ _ fun _ => rfl]
    exact le_refl _
  | healthTick => rw [countP_concat _ _ fun _ => rfl]
  | _ => exact Nat.add_le_add_right (Nat.zero_le _) _

theorem OrchOp.Step.flags (h : op.Step w w' more) :
    (w.orch.healthDone = true → w'.orch.healthDone = true) ∧
      (w'.orch.closing = true → w.orch.closing = true ∨ op = .close ∧
        .orch .waitHealth ∈ more ∧ .orch .waitOperations ∈ more) ∧
      (w.orch.closing = true → w'.orch.closing = true ∧ w'.orch.wg ≤ w.orch.wg) := by
  cases h with
  | begun _ hc => exact ⟨id, .inl, fun h => absurd (hc.symm.trans h) nofun⟩
  | ended => exact ⟨id, .inl, fun h => ⟨h, Nat.sub_le ..⟩⟩
  | close => exact ⟨id, fun _ => .inr ⟨rfl, by simp, by simp⟩, fun _ => ⟨rfl, le_refl _⟩⟩
  | healthEnd => exact ⟨fun _ => rfl, .inl, fun h => ⟨h, le_refl _⟩⟩
  | _ => exact ⟨id, .inl, fun h => ⟨h, le_refl _⟩⟩

theorem Shutdown.step (h : Shutdown c) (ht : c.At i a rest)
    (hs : Step x c.state a o) : Shutdown (c.advance i rest o) := by
  by_cases ha : ∃ op, a = .orch op
  · have hbal : ∀ {p : Op → Bool}, OfOrch p →
        (c.advance i rest o).pending p + (if p a then 1 else 0) =
          c.pending p + o.more.countP p := by
      intro p hp
      have := pending_advance p o ht
      rwa [hs.spawn_countP hp.not_loop, Nat.add_zero] at this
    have ht₁ := hbal ofOrch_ticks
    have ht₂ := hbal ofOrch_ends
    have ht₃ := hbal ofOrch_closes
    obtain ⟨op, rfl⟩ := ha
    cases hs with
    | @orch _ w' more hs =>
    have hticks := hs.ticks
    have hends := hs.ends fun hp => by
      have := pending_head ht hp
      rwa [h.ends] at this
    have hcloses := hs.closes
    obtain ⟨hdone, hclosing, hwg⟩ := hs.flags
    have h₁ := h.ticks
    have h₂ := h.ends
    have h₃ := h.closes
    dsimp only at ht₁ ht₂ ht₃
    refine ⟨?_, ?_, ?_, fun hc => ?_, fun hc => ?_⟩
    · dsimp only [advance_state]
      omega
    · dsimp only [advance_state]
      omega
    · dsimp only [advance_state]
      omega
    · rcases hclosing hc with hold | ⟨-, hw, -⟩
      · rcases h.health hold with hp | hd
        · cases hw : Op.waitsHealth (.orch op) with
          | false => exact .inl (pending_pos_advance ht hw hp)
          | true =>
            cases op <;> cases hw
            cases hs with
            | healthWaited hd => exact .inr hd
            | refused h | begun h | found h => cases h
        · exact .inr (hdone hd)
      · exact .inl (pending_pos.mpr ⟨_, pend_more ht hw, rfl⟩)
    · rcases hclosing hc with hold | ⟨-, -, hw⟩
      · rcases h.operations hold with hp | hz
        · cases hw : Op.waitsOperations (.orch op) with
          | false => exact .inl (pending_pos_advance ht hw hp)
          | true =>
            cases op <;> cases hw
            cases hs with
            | operationsWaited hz => exact .inr hz
            | refused h | begun h | found h => cases h
        · exact .inr (Nat.le_zero.mp ((hwg hold).2.trans_eq hz))
      · exact .inl (pending_pos.mpr ⟨_, pend_more ht hw, rfl⟩)
  · obtain ⟨hd, hw, hc⟩ := hs.orch_eq ha
    have hpa : a.waits = false :=
      Bool.eq_false_iff.mpr fun h => ha (exists_orch (.inr (.inr (.inr h))))
    rw [Op.waits, Bool.or_eq_false_iff] at hpa
    refine ⟨?_, ?_, ?_, ?_, ?_⟩
    · rw [ofOrch_ticks.pending_same ht hs ha, advance_state, hd]
      exact h.ticks
    · rw [ofOrch_ends.pending_same ht hs ha, advance_state, hw]
      exact h.ends
    · rw [ofOrch_closes.pending_same ht hs ha, advance_state, hc]
      exact h.closes
    · rw [advance_state, hc, hd]
      exact fun hc => (h.health hc).imp_left (pending_pos_advance ht hpa.1)
    · rw [advance_state, hc, hw]
      exact fun hc => (h.operations hc).imp_left (pending_pos_advance ht hpa.2)

theorem apiEntry_quiet (he : apiEntry w a = true) : a.ticks = false ∧ a.ends = false ∧
    a.closes = false ∧ a.checking = false ∧ a.waits = false ∧ a.tearing = false := by
  cases a with
  | orch op => cases op <;> first | exact ⟨rfl, rfl, rfl, rfl, rfl, rfl⟩ | cases he
  | loop op => exact ⟨rfl, rfl, rfl, rfl, rfl, rfl⟩
  | _ => cases he

variable {γ : Type} {N : Monitor World Op Choice γ} {config : OrchestratorConfig} {publisher : Bool}
  {maxSess : Nat} {h₀ h : γ} (hr : Reach machine N h₀ (initialConfig config publisher maxSess) h c)

include hr

theorem Reach.shutdown : Shutdown c := by
  refine hr.invariant (fun _ c => Shutdown c) ⟨le_refl 1, rfl, Nat.zero_le _, nofun, nofun⟩ ?_ ?_
  · intro _ c a hc he
    obtain ⟨hticks, hends, hcloses, -⟩ := apiEntry_quiet he
    have hmono : ∀ {p : Op → Bool}, 0 < c.pending p → 0 < (c.call a).pending p := by
      intro p hp
      rw [pending_call]
      omega
    exact ⟨(pending_call_other hticks).symm ▸ hc.ticks, (pending_call_other hends).symm ▸ hc.ends,
      (pending_call_other hcloses).symm ▸ hc.closes, fun h => (hc.health h).imp_left hmono, fun h => (hc.operations h).imp_left hmono⟩
  · intro _ c i a rest x o hc ht hx _
    exact hc.step ht (step_of_exec hx)

/-! ## What comes after what -/

theorem Reach.checks_followed :
    ∀ th ∈ c.threads, FollowedBy Op.checking Op.ticks th := by
  refine Reach.order hr rfl (fun w a he => (apiEntry_quiet he).2.2.2.1) (fun _ => rfl) ?_
  intro x w a o b hs hb hb'
  cases b with
  | entry e op =>
    rcases hs.entry_more hb with ⟨op', rfl, hl⟩ | ⟨oop, rfl, hh, -⟩
    · cases hl with
      | probe => exact .inl rfl
      | _ => cases hb'
    · cases hh with
      | finds hf => cases hf <;> cases hb'
      | closeSessions => cases hb'
      | healthTick =>
        cases hs with
        | orch hs =>
          cases hs with
          | healthTick => exact .inr (followedBy_concat rfl rfl)
          | refused h | begun h | found h => cases h
          | healthEnd => cases hb
  | _ => cases hb'

theorem Reach.waits_followed :
    ∀ th ∈ c.threads, FollowedBy Op.waits Op.closesSessions th := by
  refine Reach.order hr rfl (fun w a he => (apiEntry_quiet he).2.2.2.2.1) (fun _ => rfl) ?_
  intro x w a o b hs hb hw
  cases b with
  | orch op =>
    rcases hs.orch_more hb with ⟨op', rfl⟩ | ⟨e, err, rfl⟩
    · cases hs with
      | orch hs =>
        cases hs with
        | begun hbg =>
          simp only [mem_cons, not_mem_nil, or_false, Op.orch.injEq] at hb
          rcases hb with rfl | rfl
          · cases hbg <;> cases hw
          · cases hw
        | close =>
          exact .inr (followedBy_concat (l := [.orch .cancelLifecycle, .orch .waitHealth,
            .orch .waitOperations]) rfl rfl)
        | closeSessions | healthTick =>
          rcases mem_map_concat hb with ⟨_, -, h⟩ | h <;> cases h
          cases hw
        | refused =>
          cases mem_singleton.mp hb
          cases hw
        | placed | found | closeShared => cases mem_singleton.mp hb
        | _ => cases hb
    · cases hw
  | _ => cases hw

/-- Teardowns are part of an operation, or of `Close`. -/
theorem Reach.tearing_followed :
    ∀ th ∈ c.threads, FollowedBy Op.tearing Op.concludes th := by
  refine Reach.order hr rfl (fun w a he => (apiEntry_quiet he).2.2.2.2.2) (fun _ => rfl) ?_
  intro x w a o b hs hb hb'
  cases b with
  | entry e op =>
    rcases hs.entry_more hb with ⟨op', rfl, hl⟩ | ⟨oop, rfl, hh, -⟩
    · cases hl with
      | destroy => exact .inl rfl
      | _ => cases hb'
    · cases hh with
      | finds hf =>
        cases hf with
        | destroy => exact .inl rfl
        | _ => cases hb'
      | closeSessions =>
        cases hs with
        | orch hs =>
          cases hs with
          | closeSessions => exact .inr (followedBy_concat rfl rfl)
          | refused h | begun h | found h => cases h
      | healthTick => cases hb'
  | orch op =>
    rcases hs.orch_more hb with ⟨op', rfl⟩ | ⟨e, err, rfl⟩
    · cases hs with
      | orch hs =>
        cases hs with
        | @begun _ op'' hbg _ =>
          exact .inr (followedBy_concat (l := [.orch op'']) rfl rfl)
        | close =>
          simp only [mem_cons, not_mem_nil, or_false, Op.orch.injEq] at hb
          rcases hb with rfl | rfl | rfl | rfl <;> cases hb'
        | closeSessions => exact .inr (followedBy_concat rfl rfl)
        | healthTick =>
          rcases mem_map_concat hb with ⟨_, -, h⟩ | h <;> cases h
          cases hb'
        | refused =>
          cases mem_singleton.mp hb
          cases hb'
        | placed | found | closeShared => cases mem_singleton.mp hb
        | _ => cases hb
    · cases hb'
  | _ => cases hb'

theorem Reach.no_checks (hd : c.state.orch.healthDone = true) : c.pending Op.checking = 0 := by
  have hzero : c.pending Op.ticks = 0 := by
    have := (Reach.shutdown hr).ticks
    rw [hd] at this
    simpa using this
  refine pending_none fun b hb hc => ?_
  obtain ⟨th, hth, hmem⟩ := hb
  obtain ⟨b', hb', ht⟩ := (Reach.checks_followed hr th hth).exists_of_mem hmem hc
  exact not_pend hzero ht ⟨th, hth, hb'⟩

/-- When `Close` comes to the sessions the health loop has ended, no operation is under way,
and no session is being torn down. -/
theorem Reach.quiet (ht : c.threads[i]? = some (.orch .closeSessions :: rest)) :
    c.state.orch.healthDone = true ∧ c.state.orch.wg = 0 ∧ c.pending Op.tearing = 0 := by
  have hsd := Reach.shutdown hr
  have hpend := pend_head ht
  have hcloses : 0 < c.pending Op.closes := pending_head ht rfl
  have hle := hsd.closes
  have hclosing : c.state.orch.closing = true := by
    by_contra hne
    rw [Bool.not_eq_true] at hne
    rw [hne] at hle
    exact absurd hcloses (not_lt.mpr hle)
  have hone : c.pending Op.closes ≤ 1 := hle.trans (Bool.toNat_le _)
  have hmono : c.pending Op.closesSessions ≤ c.pending Op.closes := c.pending_mono fun a ha => by
    cases a with
    | orch op => cases op <;> first | rfl | cases ha
    | _ => cases ha
  have hnowait : ∀ {p : Op → Bool}, (∀ b, p b = true → b.waits = true) → ¬ 0 < c.pending p := by
    intro p hp hpos
    obtain ⟨b, hb, hw⟩ := pending_pos.mp hpos
    have := not_pend_of_followedBy (Reach.waits_followed hr) (hmono.trans hone) ht rfl rfl hb
    simp [hp b hw] at this
  have hdone : c.state.orch.healthDone = true :=
    (hsd.health hclosing).resolve_left (hnowait fun b hw => by simp [Op.waits, hw])
  have hwg : c.state.orch.wg = 0 :=
    (hsd.operations hclosing).resolve_left (hnowait fun b hw => by simp [Op.waits, hw])
  refine ⟨hdone, hwg, pending_none fun b hb htear => ?_⟩
  -- a teardown would have the end of an operation, or that of `Close`, after it
  obtain ⟨th, hth, hmem⟩ := hb
  obtain ⟨b', hb', hq⟩ := (Reach.tearing_followed hr th hth).exists_of_mem hmem htear
  have hb'' : c.Pend b' := ⟨th, hth, hb'⟩
  cases b' with
  | orch op =>
    cases op with
    | endOperation =>
      have hpos : 0 < c.pending Op.ends := pending_pos.mpr ⟨_, hb'', rfl⟩
      rw [hsd.ends, hwg] at hpos
      exact lt_irrefl 0 hpos
    | closeShared =>
      have := two_le_pending (p := Op.closes) hpend hb'' nofun rfl rfl
      omega
    | _ => cases hq
  | _ => cases hq

end FlexAgentRuntime.Orchestrator
