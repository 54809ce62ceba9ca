import FlexAgentRuntime.Interleaving.Stacks
import FlexAgentRuntime.Orchestrator.Ownership

/-!
The life of a session entry: it is created, registered, locked by one call at a time
and removed from the registry.

* `Step.entry_more`, `Step.backend_more` and the like: where actions come from;
* `Reach.locks`: `mu` is held exactly while one stage of a call that took it is pending;
* `Reach.births`: an entry whose `CreateSession` is under way, or has failed and is being
  undone, is not registered, and nothing is done to it by anyone else;
* `Reach.unfilled`: until it is added it holds no sandbox;
* `Reach.background`: the backend calls made under the lock end before it is released.
-/

namespace FlexAgentRuntime.Orchestrator

open List Function

open AgentLoop (Choice)
open Interleaving Config

/-- The action is a stage of a call that holds the lock of `e`. -/
def Op.holds (e : EntryRef) : Op → Bool
  | .entry r op => r == e && op.holding
  | _ => false

/-- The action is done on the entry `e`. -/
def Op.onEntry (e : EntryRef) : Op → Bool
  | .entry r _ => r == e
  | _ => false

/-- The action is a stage of the `CreateSession` that makes `e`. -/
def Op.creates (e : EntryRef) : Op → Bool
  | .create r _ _ _ => r == e
  | _ => false

/-- The action undoes the creation of `e`. -/
def Op.cleansUp (e : EntryRef) : Op → Bool
  | .backend r (.create _) _ => r == e
  | _ => false

/-- The action creates `e` and has not come as far as `addSession`. -/
def Op.builds (e : EntryRef) : Op → Bool
  | .create _ _ _ (.abandon _ _) => false
  | .create r _ _ _ => r == e
  | _ => false

/-- The action is a backend call made under the lock of `e`. -/
def Op.background (e : EntryRef) : Op → Bool
  | .backend r .background _ => r == e
  | _ => false

section Updates

variable (w : World)

@[simp] theorem World.setEntry_entries_self (e : EntryRef) (f : SessionEntry → SessionEntry) :
    (w.setEntry e f).entries e = f (w.entries e) := update_self ..

@[simp] theorem World.setOrch_entries (f : Orchestrator → Orchestrator) :
    (w.setOrch f).entries = w.entries := rfl

@[simp] theorem World.setSandbox_entries (s : SandboxRef) (f : Sandbox → Sandbox) :
    (w.setSandbox s f).entries = w.entries := rfl

@[simp] theorem World.stopProcesses_entries (s : SandboxRef) :
    (w.stopProcesses s).entries = w.entries := rfl

end Updates

/-! ## Where actions come from -/

/-- What an action on an entry goes on with. -/
inductive EntryOp.Leads : EntryOp → EntryOp → Prop where
  | destroy {byClose} : Leads (.destroy byClose) .destroyed
  | pause : Leads .pause .pauseSandbox
  | resume : Leads .resume .resumeSandbox
  | resumeSandbox : Leads .resumeSandbox .relaunch
  | relaunch {p} : Leads .relaunch (.reconnect p)
  | reconnect {p a} : Leads (.reconnect p) (.reconnected p a)
  | reconnectFailed {p} : Leads (.reconnect p) .unlock
  | probe : Leads .probe .verdict

/-- What the orchestrator starts on a registered entry. -/
inductive OrchOp.Hands : OrchOp → EntryOp → Prop where
  | finds {op id eop} : op.Finds id eop → Hands op eop
  | closeSessions : Hands .closeSessions (.destroy true)
  | healthTick : Hands .healthTick .probe

/-- The entry a call returns from. -/
def OrchOp.returns : OrchOp → Option EntryRef
  | .ret e _ => e
  | _ => none

def World.Registered (w : World) (e : EntryRef) : Prop := ∃ id, (id, e) ∈ w.orch.sessions

/-- Where an action that a step goes on with comes from. -/
inductive Comes (w w' : World) : Op → Op → Prop where
  | leads {e op op'} : op.Leads op' → Comes w w' (.entry e op) (.entry e op')
  | hands {op e eop} : op.Hands eop → w.Registered e → Comes w w' (.orch op) (.entry e eop)
  | placed {placement cfg} : w' = w.newEntry placement →
      Comes w w' (.orch (.place (some placement) cfg)) (.create w.nEntries cfg false .createSandbox)
  | stage {e cfg expired op cfg' expired' op'} :
      Comes w w' (.create e cfg expired op) (.create e cfg' expired' op')
  | called {e op call} : Comes w w' (.entry e op) (.backend e .background call)
  | undone {e cfg expired err cleanup call} : call ∈ cleanup →
      Comes w w' (.create e cfg expired (.abandon err cleanup)) (.backend e (.create expired) call)
  | returned {e op err} : Comes w w' (.entry e op) (ret e err)
  | created {e cfg expired op err} : Comes w w' (.create e cfg expired op) (ret e err)
  | orch {op op'} : op'.returns = none → Comes w w' (.orch op) (.orch op')
  | loop {a op} : Comes w w' a (.loop op)

section Origins

variable {w w' : World} {e : EntryRef} {s : SandboxRef} {x : Choice} {a b : Op}
  {o : Outcome World Op} {more : List Op} {op : OrchOp} {ctx : Ctx} {call : Backend}
  {cfg : AgentLoop.SessionConfig} {expired : Bool} {p : Op → Bool}

theorem OrchOp.Hands.not_holding (h : op.Hands eop) : eop.holding = false := by
  cases h with
  | finds hf => cases hf <;> rfl
  | closeSessions | healthTick => rfl

theorem Backend.Step.comes (h : call.Step w w' more) (hb : b ∈ more) :
    Comes w w' (.backend e ctx call) b := by
  cases h with
  | destroyShared | abortShared | closeShared =>
    cases mem_singleton.mp hb
    exact .loop
  | _ => cases hb

theorem CreateOp.Step.comes {op : CreateOp} (h : op.Step e cfg expired w w' more)
    (hb : b ∈ more) : Comes w w' (.create e cfg expired op) b := by
  cases h with try cases mem_singleton.mp hb
  | added => exact .created
  | abandon =>
    rcases mem_map_concat hb with ⟨call, hc, rfl⟩ | rfl
    · exact .undone hc
    · exact .created
  | _ => exact .stage

theorem EntryOp.Step.comes {op : EntryOp} (h : op.Step e w w' more) (hb : b ∈ more) :
    Comes w w' (.entry e op) b := by
  cases h with try cases mem_singleton.mp hb
  | skipped | unlock | healthy | unhealthy => cases hb
  | destroy | pause =>
    rcases mem_map_concat hb with ⟨call, -, rfl⟩ | rfl
    · exact .called
    · exact .leads (by constructor)
  | reconnect =>
    rcases mem_pair.mp hb with rfl | rfl
    · exact .called
    · exact .leads .reconnect
  | reconnectFailed =>
    simp only [mem_cons, not_mem_nil, or_false] at hb
    rcases hb with rfl | rfl | rfl
    · exact .called
    · exact .leads .reconnectFailed
    · exact .returned
  | resume | resumedDirect | relaunched | connect | probe => exact .leads (by constructor)
  | proxy => exact .loop
  | _ => exact .returned

theorem OrchOp.Step.comes (h : op.Step w w' more) (hb : b ∈ more) :
    Comes w w' (.orch op) b := by
  have hlist : ∀ {eop last}, op.Hands eop → last.returns = none →
      b ∈ w.listSessionEntries.map (Op.entry · eop) ++ [.orch last] → Comes w w' (.orch op) b := by
    intro eop last hh hl hb
    rcases mem_map_concat hb with ⟨e, he, rfl⟩ | rfl
    · exact .hands hh (mem_listSessionEntries he)
    · exact .orch hl
  cases h with try cases mem_singleton.mp hb
  | refused => exact .orch rfl
  | begun hbg =>
    rcases mem_pair.mp hb with rfl | rfl
    · exact .orch (by cases hbg <;> rfl)
    · exact .orch rfl
  | placed => exact .placed rfl
  | found hf he => exact .hands (.finds hf) ⟨_, getSessionEntry_some he⟩
  | close =>
    simp only [mem_cons, not_mem_nil, or_false] at hb
    rcases hb with rfl | rfl | rfl | rfl <;> exact .orch rfl
  | closeSessions => exact hlist .closeSessions rfl hb
  | closeShared => exact .loop
  | healthTick => exact hlist .healthTick rfl hb
  | _ => cases hb

theorem Step.comes (hs : Step x w a o) (hb : b ∈ o.more) : Comes w o.state a b := by
  cases hs with
  | orch hs | create hs | entry hs | backend hs => exact hs.comes hb
  | expire =>
    cases mem_singleton.mp hb
    exact .stage
  | loop hs =>
    obtain ⟨_, -, rfl⟩ := mem_map.mp hb
    exact .loop

theorem Step.spawn_loop (hs : Step x w a o) : ∀ th ∈ o.spawn, ∀ b ∈ th, ∃ op, b = .loop op := by
  intro th hth b hb
  cases hs with
  | loop hs =>
    obtain ⟨th', -, rfl⟩ := mem_map.mp hth
    obtain ⟨op, -, rfl⟩ := mem_map.mp hb
    exact ⟨op, rfl⟩
  | _ => cases hth

theorem Step.spawn_false (hs : Step x w a o) (hp : ∀ op, p (.loop op) = false) :
    ∀ th ∈ o.spawn, ∀ b ∈ th, p b = false := by
  intro th hth b hb
  obtain ⟨op, rfl⟩ := hs.spawn_loop th hth b hb
  exact hp op

theorem Step.spawn_countP (hs : Step x w a o) (hp : ∀ op, p (.loop op) = false) :
    (o.spawn.map (List.countP p)).sum = 0 :=
  sum_countP_eq_zero (hs.spawn_false hp)

/-- What is pending outside the shared service was so before, or a step goes on with it. -/
theorem Step.pend_cases {c : Config World Op} (hs : Step x c.state a o) (ht : c.At i a rest)
    (hb : (c.advance i rest o).Pend b) (hne : ∀ op, b ≠ .loop op) : c.Pend b ∨ b ∈ o.more := by
  rcases hb.of_advance ht with hb | hb | ⟨th, hth, hb⟩
  · exact .inl hb
  · exact .inr hb
  · obtain ⟨op, h⟩ := hs.spawn_loop th hth b hb
    exact absurd h (hne op)

section
variable (hs : Step x w a o)
include hs

theorem Step.entry_more {op : EntryOp} (hb : .entry e op ∈ o.more) :
    (∃ op', a = .entry e op' ∧ op'.Leads op) ∨
      ∃ oop, a = .orch oop ∧ oop.Hands op ∧ w.Registered e := by
  cases hs.comes hb with
  | leads hl => exact .inl ⟨_, rfl, hl⟩
  | hands hh hr => exact .inr ⟨_, rfl, hh, hr⟩

theorem Step.create_more {op : CreateOp} (hb : .create e cfg expired op ∈ o.more) :
    (∃ cfg' expired' op', a = .create e cfg' expired' op') ∨
      (∃ placement, a = .orch (.place (some placement) cfg) ∧ o.state = w.newEntry placement) ∧
        e = w.nEntries := by
  cases hs.comes hb with
  | stage => exact .inl ⟨_, _, _, rfl⟩
  | placed h => exact .inr ⟨⟨_, rfl, h⟩, rfl⟩

/-- Backend calls are made under the lock of the entry, or undo its creation. -/
theorem Step.backend_more (hb : .backend e ctx call ∈ o.more) :
    (∃ op, a = .entry e op ∧ ctx = .background) ∨
      ∃ cfg expired err cleanup, a = .create e cfg expired (.abandon err cleanup) ∧
        ctx = .create expired ∧ call ∈ cleanup := by
  cases hs.comes hb with
  | called => exact .inl ⟨_, rfl, rfl⟩
  | undone hc => exact .inr ⟨_, _, _, _, rfl, rfl, hc⟩

theorem Step.ret_more {err : Option OrchestratorError} (hb : ret e err ∈ o.more) :
    (∃ op, a = .entry e op) ∨ ∃ cfg expired op, a = .create e cfg expired op := by
  cases hs.comes hb with
  | orch h => cases h
  | returned => exact .inl ⟨_, rfl⟩
  | created => exact .inr ⟨_, _, _, rfl⟩

theorem Step.registers (h : o.state.Registered e) :
    w.Registered e ∨ ∃ cfg expired s p svc, a = .create e cfg expired (.addSession s p svc) ∧
      o.more = [ret e none] := by
  obtain ⟨id, hid⟩ := h
  cases hs with
  | orch hs | backend hs => exact .inl ⟨id, by cases hs <;> exact hid⟩
  | expire | loop hs => exact .inl ⟨id, hid⟩
  | create hs =>
    cases hs with
    | added =>
      rcases mem_concat.mp hid with hid | hid
      · exact .inl ⟨id, hid⟩
      · cases hid
        exact .inr ⟨_, _, _, _, _, rfl, rfl⟩
    | _ => exact .inl ⟨id, hid⟩
  | entry hs =>
    refine .inl ⟨id, ?_⟩
    cases hs with
    | destroyed => exact (mem_filter.mp hid).1
    | _ => exact hid

theorem Step.entries_cases (e : EntryRef) :
    o.state.entries e = w.entries e ∨ (∃ op, a = .entry e op) ∨
      (∃ cfg expired s p svc, a = .create e cfg expired (.addSession s p svc) ∧
        o.state.entries e = (w.entries e).filled s p svc) ∨
      (∃ placement cfg, a = .orch (.place (some placement) cfg) ∧ e = w.nEntries ∧
        o.state.entries e = { sessionID := World.generateSessionID (w.orch.generated + 1),
                              placement := placement }) := by
  cases hs with
  | orch hs =>
    cases hs with
    | @placed placement cfg _ =>
      by_cases he : e = w.nEntries
      · subst he
        exact .inr (.inr (.inr ⟨placement, cfg, rfl, rfl, update_self ..⟩))
      · exact .inl (update_of_ne he _ _)
    | _ => exact .inl rfl
  | expire | loop hs => exact .inl rfl
  | @create r cfg expired _ _ _ hs =>
    cases hs with
    | @refused s p svc _ _ | @added s p svc _ =>
      by_cases he : e = r
      · subst he
        exact .inr (.inr (.inl ⟨cfg, expired, s, p, svc, rfl, update_self ..⟩))
      · exact .inl (update_of_ne he _ _)
    | _ => exact .inl rfl
  | @entry r op _ _ hs =>
    by_cases he : e = r
    · exact .inr (.inl ⟨op, he ▸ rfl⟩)
    · left
      cases hs
      all_goals first
        | rfl
        | exact update_of_ne he _ _
  | backend hs => cases hs <;> exact .inl rfl

theorem Step.new_entry (hold : ¬ e < w.nEntries) (hlt : e < o.state.nEntries) :
    e = w.nEntries ∧ ∃ placement, o.state = w.newEntry placement := by
  cases hs with
  | orch hs =>
    cases hs with
    | @placed placement cfg _ =>
      exact ⟨Nat.eq_of_lt_succ_of_not_lt hlt hold, placement, rfl⟩
    | _ => exact absurd hlt hold
  | expire | loop hs => exact absurd hlt hold
  | create hs | entry hs | backend hs => cases hs <;> exact absurd hlt hold

theorem Step.hasSandbox (h : o.state.HasSandbox e s) :
    w.HasSandbox e s ∨ s = w.nSandboxes ∧ (o.state.sandboxes s).paused = false ∧
      ∃ cfg expired, a = .create e cfg expired .createSandbox := by
  by_cases hlt : s < w.nSandboxes
  · exact .inl ⟨hlt, (hs.extends.owner s hlt).symm.trans h.2⟩
  · have hn : ∀ {w' : World}, w'.nSandboxes = w.nSandboxes → ¬ w'.HasSandbox e s :=
      fun heq h' => hlt (heq ▸ h'.1)
    cases hs with
    | orch hs | entry hs | backend hs => cases hs <;> exact absurd h (hn rfl)
    | expire | loop hs => exact absurd h (hn rfl)
    | create hs =>
      cases hs with
      | sandbox =>
        have heq : s = w.nSandboxes :=
          Nat.eq_of_lt_succ_of_not_lt h.1 hlt
        subst heq
        have hown := h.2
        simp only [World.newSandbox, update_self] at hown
        subst hown
        exact .inr ⟨rfl, by simp [World.newSandbox], _, _, rfl⟩
      | _ => exact absurd h (hn rfl)

end

end Origins

/-! ## Sandboxes -/

/-- Every sandbox has been created for an entry. -/
def OwnersExist (c : Config World Op) : Prop :=
  ∀ s < c.state.nSandboxes, (c.state.sandboxes s).owner < c.state.nEntries

theorem Reach.ownersExist (hr : Reach machine N h₀ (initialConfig config publisher maxSess) h c) :
    OwnersExist c := by
  refine hr.invariant_of_reach (fun _ c => OwnersExist c) nofun (fun _ _ _ _ hc _ => hc) ?_
  intro _ c i a rest x o hr hc ht hx _ s hlt
  have hs := step_of_exec hx
  have hnew : o.state.HasSandbox (o.state.sandboxes s).owner s := ⟨hlt, rfl⟩
  rcases hs.hasSandbox hnew with ⟨hold, hown⟩ | ⟨-, -, cfg, expired, ha⟩
  · exact (hown ▸ hc s hold).trans_le hs.extends.entries
  · have hin := (Reach.owned hr).ops a (pend_head ht)
    rw [ha] at hin
    exact hin.1.trans_le hs.extends.entries

/-! ## The lock -/

section Lock

variable {w w' : World} {e : EntryRef} {x : Choice} {a b : Op} {o : Outcome World Op}
  {c : Config World Op} {i : Nat} {rest more : List Op} {op : EntryOp}

theorem EntryOp.not_holding_of_asks (h : op.asks = true) : op.holding = false := by
  cases op with
  | pause | resume | proxy req => rfl
  | _ => cases h

theorem EntryOp.not_holding_of_looks (h : op.looks = true) : op.holding = false := by
  cases op with
  | proxy req | probe | verdict => rfl
  | _ => cases h

theorem EntryOp.holding_of_mayGiveUp (h : op.mayGiveUp = true) : op.holding = true := by
  cases op with
  | pauseSandbox | resumeSandbox | relaunch => rfl
  | _ => cases h

theorem Op.holds_iff : a.holds e = true ↔ ∃ op, a = .entry e op ∧ op.holding = true := by
  cases a with
  | _ => simp [Op.holds]

theorem Step.holds_more (hs : Step x w a o) (hb : b ∈ o.more) (hh : b.holds e = true) :
    ∃ op op', a = .entry e op ∧ op.Leads op' ∧ b = .entry e op' := by
  obtain ⟨op', rfl, hop⟩ := Op.holds_iff.mp hh
  rcases hs.entry_more hb with ⟨op, rfl, hl⟩ | ⟨_, -, hands, -⟩
  · exact ⟨op, op', rfl, hl, rfl⟩
  · rw [hands.not_holding] at hop
    cases hop

theorem Step.not_holds (hs : Step x w a o) (hon : ¬ ∃ op, a = .entry e op) :
    a.holds e = false ∧ o.more.countP (Op.holds e) = 0 := by
  constructor
  · refine Bool.eq_false_iff.mpr fun hh => ?_
    obtain ⟨op, rfl, -⟩ := Op.holds_iff.mp hh
    exact hon ⟨op, rfl⟩
  · refine countP_eq_zero.mpr fun b hb hh => ?_
    obtain ⟨op, -, rfl, -⟩ := hs.holds_more hb hh
    exact hon ⟨op, rfl⟩

theorem countP_concat {β : Type} {p : Op → Bool} {f : β → Op} (l : List β) (last : Op)
    (hp : ∀ y, p (f y) = false) :
    (l.map f ++ [last]).countP p = if p last then 1 else 0 := by
  have hz : (l.map f).countP p = 0 := by
    refine countP_eq_zero.mpr fun b hb => ?_
    obtain ⟨y, -, rfl⟩ := mem_map.mp hb
    simp [hp y]
  rw [countP_append, hz, countP_singleton, Nat.zero_add]

/-- An action on `e` takes its lock, keeps it or gives it back. -/
theorem EntryOp.Step.lock (h : op.Step e w w' more)
    (hl : op.holding = true → (w.entries e).locked = true) :
    more.countP (Op.holds e) + (w.entries e).locked.toNat =
      op.holding.toNat + (w'.entries e).locked.toNat := by
  have hback : ∀ call : Backend, Op.holds e (.backend e .background call) = false := fun _ => rfl
  cases h with
  | refused hop => simp [EntryOp.not_holding_of_asks hop, Op.holds, ret]
  | skipped hop => simp [EntryOp.not_holding_of_looks hop]
  | gaveUp hop =>
    have hop := EntryOp.holding_of_mayGiveUp hop
    simp [hop, hl hop, SessionEntry.unlocked, Op.holds, ret]
  | destroy hfree | pause hfree =>
    rw [countP_concat _ _ hback]
    simp [Op.holds, EntryOp.holding, hfree]
  | resume hfree => simp [Op.holds, EntryOp.holding, hfree]
  | healthy | unhealthy => simp [EntryOp.holding, SessionEntry.activated]
  | resumedDirect | relaunched | reconnect | connect | probe | reconnectFailed | proxy =>
    simp [Op.holds, EntryOp.holding, ret, World.newProcess, World.newAgent]
  | _ =>
    -- the last stage of its call
    simp [EntryOp.holding, hl rfl, SessionEntry.unlocked, Op.holds, ret]

/-- `mu` is held exactly while one stage of the call that took it is pending. -/
def Locks (c : Config World Op) : Prop :=
  ∀ e, c.pending (Op.holds e) = if (c.state.entries e).locked then 1 else 0

theorem Locks.step (h : Locks c) (hin : Owned c) (ht : c.At i a rest)
    (hs : Step x c.state a o) : Locks (c.advance i rest o) := by
  intro e
  have hbal := pending_advance (Op.holds e) o ht
  rw [hs.spawn_countP fun _ => rfl, h e] at hbal
  by_cases hon : ∃ op, a = .entry e op
  · obtain ⟨op, rfl⟩ := hon
    have hop : Op.holds e (.entry e op) = op.holding := by simp [Op.holds]
    rw [hop] at hbal
    cases hs with
    | entry hs =>
    have hlock := hs.lock fun hh => by
      have hpos := pending_head ht (hop.trans hh)
      rw [h e] at hpos
      by_contra hl
      simp [hl] at hpos
    have hif (b : Bool) : (if b = true then 1 else 0) = b.toNat := by cases b <;> rfl
    simp only [hif] at hbal ⊢
    simp only [Config.advance] at hbal ⊢
    omega
  · obtain ⟨ha, hm⟩ := hs.not_holds hon
    rw [hm, ha] at hbal
    simp only [Bool.false_eq_true, if_false, Nat.add_zero] at hbal
    rw [hbal]
    rcases hs.entries_cases e with heq | hop | ⟨_, _, _, _, _, -, heq⟩ | ⟨_, _, -, he, heq⟩
    · rw [advance_state, heq]
    · exact absurd hop hon
    · rw [advance_state, heq]
      rfl
    · -- nothing is pending on an entry that does not exist yet
      have hz : c.pending (Op.holds e) = 0 := by
        refine pending_none fun b hb hh => ?_
        obtain ⟨op, rfl, -⟩ := Op.holds_iff.mp hh
        exact ne_of_lt (hin.ops _ hb).1 he
      rw [← h e, hz, advance_state, heq]
      rfl

theorem apiEntry_orch_or_loop (h : apiEntry w a = true) :
    (∃ op, a = .orch op ∧ op.returns = none) ∨ ∃ op, a = .loop op := by
  cases a with
  | orch op =>
    refine .inl ⟨op, rfl, ?_⟩
    cases op with
    | ret e err => cases h
    | _ => rfl
  | loop op => exact .inr ⟨op, rfl⟩
  | _ => cases h

/-- Calls from outside do not count among the actions on entries and backends. -/
theorem apiEntry_false {p : Op → Bool} (h : apiEntry w a = true)
    (horch : ∀ op, op.returns = none → p (.orch op) = false := by exact fun _ _ => rfl)
    (hloop : ∀ op, p (.loop op) = false := by exact fun _ => rfl) :
    p a = false := by
  rcases apiEntry_orch_or_loop h with ⟨op, rfl, hop⟩ | ⟨op, rfl⟩
  · exact horch op hop
  · exact hloop op

theorem pending_call_of_apiEntry (p : Op → Bool) (h : apiEntry c.state a = true)
    (horch : ∀ op, op.returns = none → p (.orch op) = false := by exact fun _ _ => rfl)
    (hloop : ∀ op, p (.loop op) = false := by exact fun _ => rfl) :
    (c.call a).pending p = c.pending p :=
  pending_call_other (apiEntry_false h horch hloop)

theorem Reach.locks (hr : Reach machine N h₀ (initialConfig config publisher maxSess) h c) :
    Locks c := by
  refine hr.invariant_of_reach (fun _ c => Locks c) (fun e => rfl) ?_ ?_
  · intro _ c a _ hc he e
    rw [pending_call_of_apiEntry _ he]
    exact hc e
  · intro _ c i a rest x o hr hc ht hx _
    exact hc.step (Reach.owned hr) ht (step_of_exec hx)

/-! ### Stages of calls that hold a lock -/

theorem Locks.le_one (h : Locks c) (e : EntryRef) : c.pending (Op.holds e) ≤ 1 := by
  rw [h e]
  split <;> omega

section Stages

variable {p : Op → Bool} (hp : ∀ b, p b = true → b.holds e = true)
include hp

theorem Locks.pending_of_holder (h : Locks c) (ht : c.At i a rest)
    (ha : a.holds e = true) : c.pending p = if p a then 1 else 0 :=
  pending_of_le_one ht ha (h.le_one e) hp

theorem Locks.pending_of_unlocked (h : Locks c) (hl : (c.state.entries e).locked = false) :
    c.pending p = 0 := by
  have hle := c.pending_mono hp
  rw [h e, hl] at hle
  simpa using hle

theorem not_loop_of_holds (op : AgentLoop.Op) : p (.loop op) = false :=
  Bool.eq_false_iff.mpr fun h => nomatch hp _ h

/-- An action that has the entry for itself decides what is pending on it afterwards. -/
theorem Locks.pending_advance (h : Locks c) (ht : c.At i a rest)
    (hs : Step x c.state a o)
    (hfree : a.holds e = true ∨ a.holds e = false ∧ (c.state.entries e).locked = false) :
    (c.advance i rest o).pending p = o.more.countP p := by
  have hbal := Config.pending_advance p o ht
  rw [hs.spawn_countP (not_loop_of_holds hp)] at hbal
  rcases hfree with ha | ⟨ha, hl⟩
  · rw [h.pending_of_holder hp ht ha] at hbal
    omega
  · have hpa : p a = false := Bool.eq_false_iff.mpr fun hpa => by
      rw [hp a hpa] at ha
      cases ha
    rw [h.pending_of_unlocked hp hl, hpa] at hbal
    simpa using hbal

theorem pending_advance_other (ht : c.At i a rest) (hs : Step x c.state a o)
    (ha : a.holds e = false) (hm : o.more.countP (Op.holds e) = 0) :
    (c.advance i rest o).pending p = c.pending p := by
  have hbal := pending_advance p o ht
  have hpa : p a = false := Bool.eq_false_iff.mpr fun hpa => by
    rw [hp a hpa] at ha
    cases ha
  have hmore : o.more.countP p = 0 := countP_eq_zero.mpr fun b hb hpb =>
    countP_eq_zero.mp hm b hb (hp b hpb)
  rw [hs.spawn_countP (not_loop_of_holds hp), hpa, hmore] at hbal
  simpa using hbal

end Stages

end Lock

/-! ## Creation -/

/-- The entry is not in the registry, and nothing is being done to it. -/
structure Unregistered (c : Config World Op) (e : EntryRef) : Prop where
  registered : ¬ c.state.Registered e
  idle : c.pending (Op.onEntry e) = 0

/-- One `CreateSession` makes an entry, which is not registered before it has succeeded
nor while it is being undone. -/
structure Births (c : Config World Op) : Prop where
  once : ∀ e, c.pending (Op.creates e) ≤ 1
  clean : ∀ e, 0 < c.pending (Op.creates e) → c.pending (Op.cleansUp e) = 0
  unregistered : ∀ e, 0 < c.pending (Op.creates e) ∨ 0 < c.pending (Op.cleansUp e) →
    Unregistered c e

section Birth

variable {e : EntryRef} {x : Choice} {a b : Op} {o : Outcome World Op} {c : Config World Op}
  {i maxSess : Nat} {rest : List Op} {w : World} {γ : Type} {N : Monitor World Op Choice γ}
  {config : OrchestratorConfig} {publisher : Bool} {h₀ h : γ}

theorem Op.onEntry_iff : a.onEntry e = true ↔ ∃ op, a = .entry e op := by
  cases a <;> simp [Op.onEntry]

theorem Op.creates_iff : a.creates e = true ↔
    ∃ cfg expired op, a = .create e cfg expired op := by
  cases a <;> simp [Op.creates]

@[simp] theorem Op.creates_self (e : EntryRef) (cfg : AgentLoop.SessionConfig) (expired : Bool)
    (op : CreateOp) : Op.creates e (.create e cfg expired op) = true := by
  simp [Op.creates]

theorem Op.cleansUp_iff : a.cleansUp e = true ↔
    ∃ expired call, a = .backend e (.create expired) call := by
  unfold cleansUp
  split <;> simp_all

theorem Unregistered.not_pend (h : Unregistered c e) : ¬ c.Pend (.entry e op) := by
  exact Config.not_pend h.idle (by simp [Op.onEntry])

theorem Owned.unregistered (h : Owned c) : Unregistered c c.state.nEntries := by
  refine ⟨fun ⟨id, hid⟩ => lt_irrefl _ (h.world.sessions _ hid).1, ?_⟩
  refine pending_none fun b hb hon => ?_
  obtain ⟨op, rfl⟩ := Op.onEntry_iff.mp hon
  exact lt_irrefl _ (h.ops _ hb).1

theorem Unregistered.step (h : Unregistered c e) (ht : c.At i a rest)
    (hs : Step x c.state a o)
    (hadd : ∀ cfg expired s p svc, a = .create e cfg expired (.addSession s p svc) →
      o.more ≠ [ret e none]) : Unregistered (c.advance i rest o) e := by
  constructor
  · intro hreg
    rcases hs.registers hreg with hreg | ⟨cfg, expired, s, p, svc, ha, hm⟩
    · exact h.registered hreg
    · exact hadd cfg expired s p svc ha hm
  · refine pending_advance_zero ht h.idle (fun b hb hon => ?_) (hs.spawn_false fun _ => rfl)
    obtain ⟨op, rfl⟩ := Op.onEntry_iff.mp hon
    rcases hs.entry_more hb with ⟨op', rfl, -⟩ | ⟨_, -, -, hreg⟩
    · exact h.not_pend (pend_head ht)
    · exact h.registered hreg

theorem Step.countP_creates_le (hs : Step x w a o) : o.more.countP (Op.creates e) ≤ 1 := by
  refine countP_le_of_mem fun b hb hc => countP_le_length.trans ?_
  cases hs.comes hb with
  | placed =>
    cases hs with
    | orch hs =>
      cases hs with
      | begun hbg => cases hbg
      | _ => exact le_refl 1
  | stage =>
    cases hs with
    | expire => exact le_refl 1
    | create hs =>
      cases hs with
      | abandon => rcases mem_map_concat hb with ⟨_, -, h⟩ | h <;> cases h
      | _ => exact le_refl 1
  | _ => cases hc

theorem Step.creates_more (hs : Step x w a o) (hb : b ∈ o.more) (hc : b.creates e = true) :
    a.creates e = true ∨ e = w.nEntries := by
  obtain ⟨cfg, expired, op, rfl⟩ := Op.creates_iff.mp hc
  rcases hs.create_more hb with ⟨_, _, _, rfl⟩ | ⟨-, he⟩
  · exact .inl (Op.creates_self ..)
  · exact .inr he

theorem Step.hasSandbox_old (hs : Step x w a o) (h : o.state.HasSandbox e s)
    (ha : a.creates e = false) : w.HasSandbox e s := by
  rcases hs.hasSandbox h with hold | ⟨-, -, _, _, rfl⟩
  · exact hold
  · rw [Op.creates_self] at ha
    cases ha

theorem Step.cleansUp_more (hs : Step x w a o) (hb : b ∈ o.more) (hc : b.cleansUp e = true) :
    (∃ cfg expired err cleanup, a = .create e cfg expired (.abandon err cleanup)) ∧
      ∀ b' ∈ o.more, b'.creates e = false := by
  obtain ⟨expired, call, rfl⟩ := Op.cleansUp_iff.mp hc
  rcases hs.backend_more hb with ⟨_, -, h⟩ | ⟨cfg, expired, err, cleanup, rfl, -, -⟩
  · cases h
  · refine ⟨⟨cfg, expired, err, cleanup, rfl⟩, fun b' hb' => ?_⟩
    cases hs with
    | expire => cases mem_singleton.mp hb
    | create hs =>
      cases hs with
      | failed hcl => cases mem_singleton.mp hb
      | abandon => rcases mem_map_concat hb' with ⟨_, -, rfl⟩ | rfl <;> rfl

theorem Owned.creates_zero (h : Owned c) : c.pending (Op.creates c.state.nEntries) = 0 := by
  refine pending_none fun b hb hc => ?_
  obtain ⟨_, _, _, rfl⟩ := Op.creates_iff.mp hc
  exact lt_irrefl _ (h.ops _ hb).1

theorem Owned.cleansUp_zero (h : Owned c) : c.pending (Op.cleansUp c.state.nEntries) = 0 := by
  refine pending_none fun b hb hc => ?_
  obtain ⟨_, _, rfl⟩ := Op.cleansUp_iff.mp hc
  exact lt_irrefl _ (h.ops _ hb).1

theorem Births.new (h : Births c) (ht : c.At i a rest) (hs : Step x c.state a o)
    (ha : a.creates e = true) (hb : (c.advance i rest o).Pend b) (hc : b.creates e = true) :
    b ∈ o.more := by
  rcases hb.new_of_pending_le_one ht ha (h.once e) hc with hb | ⟨th, hth, hb⟩
  · exact hb
  · rw [hs.spawn_false (p := Op.creates e) (fun _ => rfl) th hth b hb] at hc
    cases hc

/-- A creation that is under way was so before, or its entry is new. -/
theorem pending_creates (ht : c.At i a rest) (hs : Step x c.state a o)
    (hpos : 0 < (c.advance i rest o).pending (Op.creates e)) :
    0 < c.pending (Op.creates e) ∨ e = c.state.nEntries := by
  rcases pos_of_pending_advance ht (hs.spawn_false fun _ => rfl) hpos with hold | ⟨b, hb, hc⟩
  · exact .inl hold
  · exact (hs.creates_more hb hc).imp_left fun ha => pending_head ht ha

theorem Births.step (h : Births c) (hin : Owned c) (ht : c.At i a rest)
    (hs : Step x c.state a o) : Births (c.advance i rest o) := by
  have hcleans : ∀ e, 0 < (c.advance i rest o).pending (Op.cleansUp e) →
      0 < c.pending (Op.cleansUp e) ∨
        (∃ cfg expired err cleanup, a = .create e cfg expired (.abandon err cleanup)) ∧
          ∀ b' ∈ o.more, b'.creates e = false := by
    intro e hpos
    rcases pos_of_pending_advance ht (hs.spawn_false fun _ => rfl) hpos with hold | ⟨b, hb, hc⟩
    · exact .inl hold
    · exact .inr (hs.cleansUp_more hb hc)
  refine ⟨fun e => ?_, fun e hpos => ?_, fun e hpos => ?_⟩
  · refine unused_token_step ht (h.once e) (hs.spawn_false fun _ => rfl) (fun _ => hs.countP_creates_le)
      fun ha ⟨b, hb, hc⟩ => ?_
    rcases hs.creates_more hb hc with ha' | rfl
    · rw [ha] at ha'
      cases ha'
    · exact ⟨hin.creates_zero, hs.countP_creates_le⟩
  · refine pending_none fun b' hb' hc' => ?_
    rcases hcleans e (pending_pos.mpr ⟨b', hb', hc'⟩) with hold | ⟨⟨_, _, _, _, rfl⟩, hnone⟩
    · rcases pending_creates ht hs hpos with hold' | rfl
      · have := h.clean e hold'
        omega
      · have := hin.cleansUp_zero
        omega
    · obtain ⟨b, hb, hc⟩ := pending_pos.mp hpos
      have hmem := h.new ht hs (Op.creates_self ..) hb hc
      rw [hnone b hmem] at hc
      cases hc
  · have hun : Unregistered c e := by
      rcases hpos with hpos | hpos
      · rcases pending_creates ht hs hpos with hold | rfl
        · exact h.unregistered e (.inl hold)
        · exact hin.unregistered
      · rcases hcleans e hpos with hold | ⟨⟨_, _, _, _, rfl⟩, -⟩
        · exact h.unregistered e (.inr hold)
        · exact h.unregistered e (.inl (pending_head ht (Op.creates_self ..)))
    refine hun.step ht hs ?_
    rintro cfg expired s p svc rfl hm
    have ha := Op.creates_self e cfg expired (.addSession s p svc)
    rcases hpos with hpos | hpos
    · obtain ⟨b, hb, hc⟩ := pending_pos.mp hpos
      have hmem := h.new ht hs ha hb hc
      rw [hm, mem_singleton] at hmem
      rw [hmem] at hc
      cases hc
    · rcases hcleans e hpos with hold | ⟨⟨_, _, _, _, habandon⟩, -⟩
      · have := h.clean e (pending_head ht ha)
        omega
      · cases habandon

theorem creates_zero_step (hlt : e < c.state.nEntries) (hzero : c.pending (Op.creates e) = 0)
    (ht : c.At i a rest) (hs : Step x c.state a o) :
    (c.advance i rest o).pending (Op.creates e) = 0 := by
  refine pending_advance_zero ht hzero (fun b hb hb' => ?_) (hs.spawn_false fun _ => rfl)
  rcases hs.creates_more hb hb' with ha | he
  · exact not_pend hzero ha (pend_head ht)
  · exact ne_of_lt hlt he

/-- A creation that is given up is over, and its entry stays unregistered. -/
theorem Births.abandoned (h : Births c) {cfg : AgentLoop.SessionConfig} {expired : Bool}
    {err : OrchestratorError} {cleanup : List Backend}
    (ht : c.threads[i]? = some (.create e cfg expired (.abandon err cleanup) :: rest))
    (hs : Step x c.state (.create e cfg expired (.abandon err cleanup)) o) (hx : x ≠ .timeout) :
    (c.advance i rest o).pending (Op.creates e) = 0 ∧ Unregistered (c.advance i rest o) e := by
  have ha := Op.creates_self e cfg expired (.abandon err cleanup)
  have hun := h.unregistered e (.inl (pending_head ht ha))
  refine ⟨?_, hun.step ht hs nofun⟩
  refine pending_none fun b hb hb' => ?_
  have hmem := h.new ht hs ha hb hb'
  cases hs with
  | expire hto => exact hx hto
  | create hs =>
    cases hs with
    | failed hcl => cases hcl
    | abandon => rcases mem_map_concat hmem with ⟨_, -, rfl⟩ | rfl <;> cases hb'

theorem Unregistered.call (h : Unregistered c e) (he : apiEntry c.state a = true) :
    Unregistered (c.call a) e :=
  ⟨h.registered, (pending_call_of_apiEntry _ he).trans h.idle⟩

theorem Reach.births (hr : Reach machine N h₀ (initialConfig config publisher maxSess) h c) :
    Births c := by
  refine hr.invariant_of_reach (fun _ c => Births c) ⟨fun _ => Nat.zero_le 1, nofun, ?_⟩ ?_ ?_
  · rintro e (h | h) <;> exact absurd h (lt_irrefl 0)
  · intro _ c a _ hc he
    have hcr := fun e => pending_call_of_apiEntry (Op.creates e) he
    have hcl := fun e => pending_call_of_apiEntry (Op.cleansUp e) he
    refine ⟨fun e => hcr e ▸ hc.once e, fun e h => ?_, fun e h => ?_⟩
    · rw [hcr] at h
      rw [hcl]
      exact hc.clean e h
    · rw [hcr, hcl] at h
      exact (hc.unregistered e h).call he
  · intro _ c i a rest x o hr hc ht hx _
    exact hc.step (Reach.owned hr) ht (step_of_exec hx)

/-! ### Until it is added -/

theorem Op.builds_creates (h : a.builds e = true) : a.creates e = true := by
  cases a with
  | create r cfg expired op => cases op <;> first | cases h | exact h
  | _ => cases h

/-- An entry that has not been added has no sandbox. -/
def Unfilled (c : Config World Op) : Prop :=
  ∀ e, 0 < c.pending (Op.builds e) →
    (c.state.entries e).sandbox = none ∧ (c.state.entries e).state = .creating

theorem Unfilled.step (h : Unfilled c) (hbirths : Births c)
    (ht : c.At i a rest) (hs : Step x c.state a o) :
    Unfilled (c.advance i rest o) := by
  intro e hpos
  obtain ⟨b, hb, hbuilds⟩ := pending_pos.mp hpos
  have hcreates := Op.builds_creates hbuilds
  by_cases ha : a.creates e = true
  · have hmem := hbirths.new ht hs ha hb hcreates
    have hold : a.builds e = true → (c.state.entries e).sandbox = none ∧
        (c.state.entries e).state = .creating :=
      fun hab => h e (pending_head ht hab)
    obtain ⟨cfg, expired, op, rfl⟩ := Op.creates_iff.mp ha
    cases hs with
    | expire =>
      cases mem_singleton.mp hmem
      exact hold (by cases op <;> exact hbuilds)
    | create hs =>
      cases hs with
      | abandon => rcases mem_map_concat hmem with ⟨_, -, rfl⟩ | rfl <;> cases hbuilds
      | added | failed | sharedFailed | refused =>
        cases mem_singleton.mp hmem
        cases hbuilds
      | _ => exact hold ha
  · obtain ⟨cfg, expired, op, rfl⟩ := Op.creates_iff.mp hcreates
    rcases hs.pend_cases ht hb (by simp) with hb | hb
    · have hold := h e (pending_pos.mpr ⟨_, hb, hbuilds⟩)
      rcases hs.entries_cases e with heq | ⟨op, rfl⟩ | ⟨_, _, _, _, _, rfl, -⟩ | ⟨_, _, -, -, heq⟩
      · rw [← heq] at hold
        exact hold
      · have hun := hbirths.unregistered e (.inl (pending_pos.mpr ⟨_, hb, hcreates⟩))
        exact absurd (pend_head ht) hun.not_pend
      · exact absurd (Op.creates_self ..) ha
      · rw [advance_state, heq]
        exact ⟨rfl, rfl⟩
    · rcases hs.create_more hb with ⟨_, _, _, rfl⟩ | ⟨⟨placement, rfl, heq⟩, rfl⟩
      · exact absurd (Op.creates_self ..) ha
      · rw [advance_state, heq]
        simp [World.newEntry]

theorem Reach.unfilled (hr : Reach machine N h₀ (initialConfig config publisher maxSess) h c) :
    Unfilled c := by
  refine hr.invariant_of_reach (fun _ c => Unfilled c) (fun e h => ?_) ?_ ?_
  · exact absurd h (lt_irrefl 0)
  · intro _ c a _ hc he e hpos
    exact hc e (pending_call_of_apiEntry (Op.builds e) he ▸ hpos)
  · intro _ c i a rest x o hr hc ht hx _
    exact hc.step (Reach.births hr) ht (step_of_exec hx)

end Birth

/-! ## Calls under the lock -/

section Background

variable {w w' : World} {e : EntryRef} {x : Choice} {a b : Op} {o : Outcome World Op}
  {c : Config World Op} {i : Nat} {rest more : List Op}

theorem Op.background_iff : a.background e = true ↔ ∃ call, a = .backend e .background call := by
  unfold background
  split <;> simp_all

theorem followedBy_concat {p q : Op → Bool} {l : List Op} {last : Op} (hp : p last = false)
    (hq : q last = true) : FollowedBy p q (l ++ [last]) :=
  FollowedBy.append_of_exists ⟨last, mem_singleton_self last, hq⟩
    (FollowedBy.of_none fun _ ha => mem_singleton.mp ha ▸ hp)

theorem EntryOp.Step.background {op : EntryOp} (h : op.Step e w w' more) :
    FollowedBy (Op.background e) (Op.holds e) more := by
  have hholds : ∀ op, op.holding = true → Op.holds e (.entry e op) = true :=
    fun op hop => Op.holds_iff.mpr ⟨op, rfl, hop⟩
  cases h with
  | destroy | pause => exact followedBy_concat rfl (hholds _ rfl)
  | @reconnect p svc _ => exact followedBy_concat (l := [.backend e .background (.closeService svc)]) rfl (hholds _ rfl)
  | @reconnectFailed p err =>
    have hcall : FollowedBy (Op.background e) (Op.holds e)
        ([.killProcess p].map (Op.backend e .background) ++ [.entry e .unlock]) :=
      followedBy_concat rfl (hholds _ rfl)
    have hret : FollowedBy (Op.background e) (Op.holds e) [ret e (some err)] := ⟨nofun, trivial⟩
    exact hcall.append hret
  | skipped | unlock | healthy | unhealthy => trivial
  | _ => exact FollowedBy.of_none fun a ha => mem_singleton.mp ha ▸ rfl

theorem Reach.order {p q : Op → Bool}
    (hr : Reach machine N h₀ (initialConfig config publisher maxSess) h c)
    (hstart : p (.orch .healthTick) = false) (hentry : ∀ w a, apiEntry w a = true → p a = false)
    (hloop : ∀ op, p (.loop op) = false)
    (hstep : ∀ x w a o b, Step x w a o → b ∈ o.more → p b = true →
      p a = true ∨ FollowedBy p q o.more) : ∀ th ∈ c.threads, FollowedBy p q th := by
  refine hr.followedBy ?_ hentry fun x a w o hx => ?_
  · refine forall_mem_singleton.mpr (FollowedBy.of_none fun b hb => ?_)
    cases mem_singleton.mp hb
    exact hstart
  · have hs := step_of_exec hx
    refine ⟨?_, fun th hth => FollowedBy.of_none (hs.spawn_false hloop th hth)⟩
    by_cases hp : ∃ b ∈ o.more, p b = true
    · obtain ⟨b, hb, hp⟩ := hp
      exact hstep x w a o b hs hb hp
    · exact .inr (FollowedBy.of_none fun b hb => Bool.eq_false_iff.mpr fun h => hp ⟨b, hb, h⟩)

/-- Calls under the lock are followed by what gives it back. -/
theorem Reach.background (hr : Reach machine N h₀ (initialConfig config publisher maxSess) h c)
    (e : EntryRef) : ∀ th ∈ c.threads, FollowedBy (Op.background e) (Op.holds e) th := by
  refine Reach.order hr rfl (fun w a he => apiEntry_false he)
    (fun _ => rfl) fun x w a o b hs hb hbg => .inr ?_
  obtain ⟨call, rfl⟩ := Op.background_iff.mp hbg
  rcases hs.backend_more hb with ⟨op, rfl, -⟩ | ⟨_, _, _, _, -, h, -⟩
  · cases hs with
    | entry hs => exact hs.background
  · cases h

/-- The last stage of a call finds none of its backend calls pending. -/
theorem not_background_of_head (hl : Locks c)
    (hf : ∀ th ∈ c.threads, FollowedBy (Op.background e) (Op.holds e) th)
    (ht : c.At i a rest) (ha : a.holds e = true) :
    c.pending (Op.background e) = 0 := by
  have hbg : a.background e = false := by
    obtain ⟨op, rfl, -⟩ := Op.holds_iff.mp ha
    rfl
  exact pending_eq_zero.mpr fun b hb => not_pend_of_followedBy hf (hl.le_one e) ht ha hbg hb

end Background

end FlexAgentRuntime.Orchestrator
