import FlexAgentRuntime.Agent.Undisturbed
import FlexAgentRuntime.Orchestrator.Lifecycle

/-!
Isolation of sessions: destroying one session leaves the others alone.

`destroySessionEntry` calls `Close` on the entry's agent service. For a remote
agent that is a client of its own; for the tools-sandbox placement it is the one
`AgentLoopService` that all such sessions share, and its `Close` tears all of them
down and refuses new ones.

* `Step.running`, `ServiceRef.Serves.step`: what is done for one entry does not
  reach the backends of another;
* `sessions_isolated`: when no tools-sandbox session is destroyed, every session
  that no call has touched goes on being served;
* `destroy_closes_shared_service`: a run in which one `DestroySession` takes
  another session down.
-/

namespace FlexAgentRuntime.Orchestrator

open List Function

open AgentLoop (Choice)
open Interleaving Config

/-! ## History and condition -/

/-- Entries that a call to destroy, pause or resume has got hold of or whose
creation has failed, and whether `Close` has begun to tear sessions down. -/
structure Calls where
  touched : EntryRef → Bool
  torn : Bool

namespace Calls

def start : Calls := ⟨fun _ => false, false⟩

def note (h : Calls) : Op → Calls
  | .entry e (.destroy _) | .entry e .pause | .entry e .resume | .create e _ _ (.abandon _ _) =>
    { h with touched := update h.touched e true }
  | .orch .closeSessions => { h with torn := true }
  | _ => h

variable {h : Calls} {a : Op}

theorem touched_note (ht : h.touched e = true) : (h.note a).touched e = true := by
  unfold note
  split
  all_goals first
    | exact update_keeps (· = true) ht fun _ => rfl
    | exact ht

theorem untouched_of_note (ht : (h.note a).touched e = false) : h.touched e = false := by
  by_contra hne
  rw [touched_note (by simpa using hne)] at ht
  cases ht

theorem torn_of_note (ht : (h.note a).torn = false) : h.torn = false := by
  unfold note at ht
  split at ht
  all_goals first
    | exact ht
    | cases ht

end Calls

/-- `DestroySession` does not get hold of a tools-sandbox entry. -/
def sparesShared (c : Config World Op) : Op → Choice → Bool
  | .entry e (.destroy false), _ => (c.state.entries e).placement != .toolsSandbox
  | _, _ => true

def watchCalls (meets : Config World Op → Op → Choice → Bool) : Monitor World Op Choice Calls :=
  ⟨fun h _ _ => h, fun h _ a _ => h.note a, fun _ => meets⟩

/-! ## What a session needs -/

/-- The service has the session `id`, and it is not stopped. -/
def ServiceRef.Serves (w : World) (id : String) : ServiceRef → Prop
  | .shared => ∃ m, AgentLoop.Serving w.loop id m
  | .remote a => id ∈ (w.agents a).sessions ∧ w.answers a = true

/-- The ids of touched entries. -/
def Doomed (h : Calls) (w : World) (id : String) : Prop :=
  ∃ e < w.nEntries, h.touched e = true ∧ (w.entries e).sessionID = id

/-- The action harms touched entries only. -/
def Op.Calm (h : Calls) (w : World) : Op → Prop
  | .loop b => b.Tears (Doomed h w)
  | .backend e _ call => h.touched e = true ∧ call ≠ .closeService .shared
  | .entry e op => op ≠ .destroy true ∧ (op.holding = true → h.touched e = true)
  | .create e _ _ (.addSession _ _ svc) =>
    h.touched e = false → svc.Serves w (w.entries e).sessionID
  | .create _ _ _ (.abandon _ cleanup) => ∀ call ∈ cleanup, call ≠ .closeService .shared
  | .orch op => op ≠ .closeShared
  | _ => True

variable {config : OrchestratorConfig} {publisher : Bool} {maxSess : Nat} {h : Calls}
  {c : Config World Op} {w w' : World} {a b : Op} {x : Choice} {o : Outcome World Op} {e : EntryRef}
  {id : String} {more : List Op} {svc : ServiceRef}

theorem World.In.not_doomed (hw : w.In) (hlt : e < w.nEntries) (hun : h.touched e = false) :
    ¬ Doomed h w (w.entries e).sessionID := by
  rintro ⟨e', hlt', ht, hid⟩
  rw [hw.sessionID_injective hlt' hlt hid, hun] at ht
  cases ht

theorem Doomed.step (hs : Step x w a o) (hd : Doomed h w id) : Doomed (h.note a) o.state id := by
  obtain ⟨e, hlt, ht, hid⟩ := hd
  exact ⟨e, hlt.trans_le hs.extends.entries, Calls.touched_note ht,
    (hs.extends.sessionID e hlt).trans hid⟩

theorem Step.loop_cases (hs : Step x w a o) (hin : a.In w) (hcalm : a.Calm h w) :
    o.state.loop = w.loop ∨ ∃ x' b o', AgentLoop.Step x' w.loop b o' ∧ b.In w.loop ∧
      b.Tears (Doomed h w) ∧ o.state.loop = o'.state := by
  cases hs with
  | orch hs | entry hs | backend hs => cases hs <;> exact .inl rfl
  | expire => exact .inl rfl
  | create hs =>
    cases hs with
    | shared hs | sharedFailed hs => exact .inr ⟨_, _, _, .svc hs, trivial, trivial, rfl⟩
    | _ => exact .inl rfl
  | loop hs => exact .inr ⟨_, _, _, hs, hin, hcalm, rfl⟩

theorem Step.running (hs : Step x w a o) (hw : w.In) (hin : a.In w) (hcalm : a.Calm h w)
    (hun : h.touched e = false) (hp : w.HasProcess e p) (hrun : (w.processes p).running = true) :
    (o.state.processes p).running = true := by
  have hother : ∀ {e' : EntryRef}, h.touched e' = true → e' ≠ e := by
    rintro e' ht rfl
    rw [hun] at ht
    cases ht
  have hstop : ∀ {e' : EntryRef} {s : SandboxRef}, h.touched e' = true → w.HasSandbox e' s →
      (w.processes p).sandbox ≠ s := by
    rintro e' s ht hs rfl
    exact hother ht (hp.2.unique hs)
  cases hs with
  | orch hs => cases hs <;> exact hrun
  | expire | loop => exact hrun
  | create hs =>
    cases hs with
    | launched => simpa [World.newProcess, ne_of_lt hp.1] using hrun
    | _ => exact hrun
  | @entry e' _ _ _ hs =>
    cases hs with
    | pausedDirect hsb =>
      have hne := hstop (hcalm.2 rfl) ((hw.entries e' hin.1).sandbox _ hsb)
      simpa [World.stopProcesses, World.setEntry, World.setSandbox, hne] using hrun
    | relaunched => simpa [World.newProcess, ne_of_lt hp.1] using hrun
    | _ => exact hrun
  | backend hs =>
    cases hs with
    | @killed p' =>
      have hne : p ≠ p' := by
        rintro rfl
        exact hother hcalm.1 (hp.2.unique hin.2.2)
      simpa [World.setProcess, hne] using hrun
    | sandboxDestroyed =>
      have hne := hstop hcalm.1 hin.2
      simpa [World.stopProcesses, World.setSandbox, hne] using hrun
    | _ => exact hrun

theorem Step.keeps_session (hs : Step x w a o) (hin : a.In w) (hcalm : a.Calm h w)
    (hun : h.touched e = false) (ha : w.HasAgent e ag) (hid : id ∈ (w.agents ag).sessions) :
    id ∈ (o.state.agents ag).sessions := by
  cases hs with
  | orch hs => cases hs <;> exact hid
  | expire | loop => exact hid
  | create hs =>
    cases hs with
    | connected => simpa [World.newAgent, ne_of_lt ha.1] using hid
    | @created _ _ ag' _ =>
      by_cases he : ag = ag'
      · subst he
        simp [World.setAgent, hid]
      · simpa [World.setAgent, he] using hid
    | _ => exact hid
  | entry hs =>
    cases hs with
    | reconnect | connect => simpa [World.newAgent, ne_of_lt ha.1] using hid
    | _ => exact hid
  | backend hs =>
    cases hs with
    | @destroyRemote ag' _ =>
      have hne : ag ≠ ag' := by
        rintro rfl
        have hown : w.HasAgent _ ag := hin.2.1
        rw [← ha.2.2.unique hown.2.2, hcalm.1] at hun
        cases hun
      simpa [World.setAgent, hne] using hid
    | _ => exact hid

/-- A session that no call has touched stays served. -/
theorem ServiceRef.Serves.step (hserv : svc.Serves w (w.entries e).sessionID) (hs : Step x w a o)
    (hw : w.In) (hin : a.In w) (hcalm : a.Calm h w) (hlt : e < w.nEntries)
    (hun : h.touched e = false) (hsvc : svc.In w e) :
    svc.Serves o.state (o.state.entries e).sessionID := by
  rw [hs.extends.sessionID e hlt]
  cases svc with
  | shared =>
    obtain ⟨m, hm⟩ := hserv
    rcases hs.loop_cases hin hcalm with hl | ⟨x', b, o', hs', hin', ht, hl⟩
    · exact ⟨m, hl ▸ hm⟩
    · exact ⟨m, hl ▸ hs'.serving hw.loop hin' ht (hw.not_doomed hlt hun) hm⟩
  | remote ag =>
    have hag : w.HasAgent e ag := hsvc
    refine ⟨hs.keeps_session hin hcalm hun hag hserv.1, ?_⟩
    show (o.state.processes (o.state.agents ag).process).running = true
    rw [hs.extends.process ag hag.1]
    exact hs.running hw hin hcalm hun hag.2 hserv.2

theorem EntryOp.Step.service {op : EntryOp} (hs : op.Step e w w' more) :
    (w'.entries e).agentService = (w.entries e).agentService ∨
      ∃ p ag, op = .reconnected p ag ∧ (w'.entries e).agentService = some (.remote ag) := by
  cases hs with
  | @reconnected p ag => exact .inr ⟨p, ag, rfl, by simp [World.setEntry]⟩
  | _ => exact .inl (by simp [World.setEntry, World.newProcess, World.newAgent,
      SessionEntry.activated, SessionEntry.unlocked])

theorem Step.service_origin (hs : Step x w a o) (hlt : e < w.nEntries)
    (hsvc : (o.state.entries e).agentService = some svc) :
    (w.entries e).agentService = some svc ∨
      (∃ cfg expired s p, a = .create e cfg expired (.addSession s p svc)) ∨
      ∃ p ag, a = .entry e (.reconnected p ag) := by
  rcases hs.entries_cases e with he | ⟨op, rfl⟩ | ⟨_, _, _, _, svc', rfl, he⟩ | ⟨_, _, _, rfl, _⟩
  · exact .inl (he ▸ hsvc)
  · cases hs with
    | entry hs =>
      rcases hs.service with he | ⟨p, ag, rfl, _⟩
      · exact .inl (he ▸ hsvc)
      · exact .inr (.inr ⟨p, ag, rfl⟩)
  · rw [he] at hsvc
    cases hsvc
    exact .inr (.inl ⟨_, _, _, _, rfl⟩)
  · exact absurd hlt (lt_irrefl _)

theorem Step.keeps_service (hs : Step x w a o) (hlt : e < w.nEntries)
    (hsvc : (w.entries e).agentService.isSome) : (o.state.entries e).agentService.isSome := by
  rcases hs.entries_cases e with he | ⟨op, rfl⟩ | ⟨_, _, _, _, _, rfl, he⟩ | ⟨_, _, _, rfl, _⟩
  · exact he ▸ hsvc
  · cases hs with
    | entry hs => rcases hs.service with he | ⟨_, _, _, he⟩ <;> simp [he, hsvc]
  · rw [he]
    rfl
  · exact absurd hlt (lt_irrefl _)

theorem Step.registered (hs : Step x w a o) (hw : w.In)
    (hreg : ∀ q ∈ w.orch.sessions, (w.entries q.2).agentService.isSome) :
    ∀ q ∈ o.state.orch.sessions, (o.state.entries q.2).agentService.isSome := by
  intro q hq
  rcases hs.registers ⟨q.1, hq⟩ with ⟨id, hid⟩ | ⟨cfg, expired, s, p, svc, rfl, hmore⟩
  · exact hs.keeps_service (hw.sessions _ hid).1 (hreg (id, q.2) hid)
  · cases hs with
    | expire => cases hmore
    | create hs =>
      cases hs with
      | added => simp [World.setEntry, SessionEntry.filled]
      | failed | refused => cases hmore

/-! ### The actions that follow -/

theorem cleanupSession_spares :
    ∀ call ∈ cleanupSession id s p svc, call ≠ .closeService .shared := by
  rintro _ hc rfl
  cases svc with
  | shared => simp [cleanupSession] at hc
  | remote a => cases p <;> simp [cleanupSession] at hc

theorem CreateOp.Cleanup.spares {op : CreateOp} (hc : op.Cleanup id cleanup) :
    ∀ call ∈ cleanup, call ≠ .closeService .shared := by
  cases hc with
  | createSession => exact cleanupSession_spares
  | _ => simp

/-- Only a tools-sandbox entry's teardown closes the shared service. -/
theorem SessionEntry.In.teardown_spares (hv : (w.entries e).In w e)
    (hp : (w.entries e).placement ≠ .toolsSandbox) :
    ∀ call ∈ (w.entries e).teardown, call ≠ .closeService .shared := by
  rintro _ hc rfl
  have hin : ServiceRef.In w e .shared := hv.teardown _ hc
  exact hp hin

theorem abortForPause_spares {v : SessionEntry} (h : v.abortForPause config = .ok calls) :
    ∀ call ∈ calls, call ≠ .closeService .shared := by
  unfold SessionEntry.abortForPause at h
  split at h
  · split at h <;> cases h
    simp
  · cases h
    simp

theorem generateSessionID_ne_empty : World.generateSessionID n ≠ "" := by
  intro h
  unfold World.generateSessionID at h
  have hl := congrArg String.toList h
  rw [String.toList_ofList] at hl
  exact absurd hl (append_ne_nil_of_left_ne_nil (by decide) _)

theorem CreateOp.Step.calm {op : CreateOp} (hs : op.Step e cfg expired w w' more) (hw : w.In)
    (hlt : e < w.nEntries) (hcalm : (Op.create e cfg expired op).Calm h w) :
    ∀ b ∈ more, b.Calm (h.note (.create e cfg expired op)) w' := by
  cases hs with
  | sandbox =>
    refine forall_mem_singleton.mpr ?_
    cases (w.entries e).placement <;> trivial
  | launched | connected => exact forall_mem_singleton.mpr trivial
  | created hans =>
    refine forall_mem_singleton.mpr fun _ => ⟨?_, ?_⟩
    · simp [World.setAgent]
    · simpa [World.answers, World.setAgent] using hans
  | failed hc => exact forall_mem_singleton.mpr hc.spares
  | shared hs =>
    have hne : (w.entries e).sessionID ≠ "" := by
      rw [hw.sessionID e hlt]
      exact generateSessionID_ne_empty
    exact forall_mem_singleton.mpr fun _ => hs.serving_created hne
  | sharedFailed hs =>
    exact forall_mem_singleton.mpr (forall_mem_singleton.mpr fun he => by cases he)
  | refused => exact forall_mem_singleton.mpr cleanupSession_spares
  | added => exact forall_mem_singleton.mpr fun he => by cases he
  | abandon =>
    refine forall_mem_concat.mpr ⟨fun b hb => ?_, fun he => by
      cases he⟩
    obtain ⟨call, hc, rfl⟩ := mem_map.mp hb
    exact ⟨update_self .., hcalm call hc⟩

theorem EntryOp.Step.calm {op : EntryOp} (hs : op.Step e w w' more) (hw : w.In)
    (hin : (Op.entry e op).In w) (hcalm : (Op.entry e op).Calm h w)
    (hspare : op = .destroy false → (w.entries e).placement ≠ .toolsSandbox) :
    ∀ b ∈ more, b.Calm (h.note (.entry e op)) w' := by
  have hv := hw.entries e hin.1
  have hheld : op.holding = true → (h.note (.entry e op)).touched e = true :=
    fun hop => Calls.touched_note (hcalm.2 hop)
  have hret : ∀ {err}, ∀ b ∈ [ret e err], b.Calm (h.note (.entry e op)) w' :=
    forall_mem_singleton.mpr nofun
  have hcalls : ∀ {calls : List Backend} {ctx : Ctx},
      (h.note (.entry e op)).touched e = true → (∀ call ∈ calls, call ≠ .closeService .shared) →
      ∀ b ∈ calls.map (Op.backend e ctx), b.Calm (h.note (.entry e op)) w' := by
    intro calls ctx ht hc b hb
    obtain ⟨call, hm, rfl⟩ := mem_map.mp hb
    exact ⟨ht, hc call hm⟩
  cases hs with
  | refused | destroyed | paused | pausedDirect | gaveUp | resumed | reconnected => exact hret
  | skipped | unlock | healthy | unhealthy => exact forall_mem_nil _
  | @destroy byClose _ =>
    cases byClose with
    | true => exact absurd rfl hcalm.1
    | false =>
      have ht : (h.note (.entry e (.destroy false))).touched e = true := update_self ..
      exact forall_mem_concat.mpr ⟨hcalls ht (hv.teardown_spares (hspare rfl)),
        ⟨nofun, fun _ => ht⟩⟩
  | pause _ _ ha =>
    have ht : (h.note (.entry e .pause)).touched e = true := update_self ..
    exact forall_mem_concat.mpr ⟨hcalls ht (abortForPause_spares ha),
      ⟨nofun, fun _ => ht⟩⟩
  | resume => exact forall_mem_singleton.mpr ⟨nofun, fun _ => update_self ..⟩
  | resumedDirect | relaunched | connect =>
    exact forall_mem_singleton.mpr ⟨nofun, fun _ => hheld rfl⟩
  | @reconnect p svc hsvc =>
    refine forall_mem_cons.mpr ⟨⟨hheld rfl, ?_⟩,
      forall_mem_singleton.mpr ⟨nofun, fun _ => hheld rfl⟩⟩
    rintro ⟨⟩
    -- Only agent-direct entries are relaunched, and their service is not the shared one.
    have htools : (w.entries e).placement = .toolsSandbox := hv.service _ hsvc
    have hdirect : (w.entries e).placement = .agentDirect := hin.2.1
    rw [htools] at hdirect
    cases hdirect
  | reconnectFailed =>
    exact forall_mem_cons.mpr ⟨⟨hheld rfl, nofun⟩,
      forall_mem_cons.mpr ⟨⟨nofun, fun _ => hheld rfl⟩, hret⟩⟩
  | @proxy req _ _ =>
    refine forall_mem_singleton.mpr ?_
    cases req <;> trivial
  | probe => exact forall_mem_singleton.mpr ⟨nofun, nofun⟩

theorem OrchOp.Step.calm (hs : op.Step w w' more) (hcalm : op ≠ .closeShared)
    (htorn : (h.note (.orch op)).torn = false) : ∀ b ∈ more, b.Calm (h.note (.orch op)) w' := by
  have hops : ∀ {l : List OrchOp}, (∀ op' ∈ l, op' ≠ .closeShared) →
      ∀ b ∈ l.map Op.orch, b.Calm (h.note (.orch op)) w' := by
    intro l hl b hb
    obtain ⟨op', hop, rfl⟩ := mem_map.mp hb
    exact hl op' hop
  cases hs with
  | refused => exact forall_mem_singleton.mpr nofun
  | @begun _ op' hb _ =>
    refine hops (l := [op', .endOperation]) ?_
    cases hb <;> simp
  | placed => exact forall_mem_singleton.mpr trivial
  | found hf =>
    refine forall_mem_singleton.mpr ?_
    cases hf <;> exact ⟨nofun, nofun⟩
  | close =>
    exact hops (l := [.cancelLifecycle, .waitHealth, .waitOperations, .closeSessions]) (by simp)
  | closeSessions => cases htorn
  | closeShared | noShared => exact absurd rfl hcalm
  | healthTick =>
    refine forall_mem_concat.mpr ⟨fun b hb => ?_, nofun⟩
    obtain ⟨e, _, rfl⟩ := mem_map.mp hb
    exact ⟨nofun, nofun⟩
  | _ => exact forall_mem_nil _

theorem Backend.Step.calm {call : Backend} (hs : call.Step w w' more)
    (hin : (Op.backend e ctx call).In w) (hcalm : (Op.backend e ctx call).Calm h w) :
    ∀ b ∈ more, b.Calm (h.note (.backend e ctx call)) w' := by
  cases hs with
  | destroyShared =>
    exact forall_mem_singleton.mpr ⟨e, hin.1, hcalm.1, hin.2.2.symm⟩
  | abortShared => exact forall_mem_singleton.mpr trivial
  | closeShared => exact absurd rfl hcalm.2
  | _ => exact forall_mem_nil _

theorem Step.calm (hs : Step x w a o) (hw : w.In) (hin : a.In w) (hcalm : a.Calm h w)
    (hspare : ∀ e, a = .entry e (.destroy false) → (w.entries e).placement ≠ .toolsSandbox)
    (htorn : (h.note a).torn = false) :
    (∀ b ∈ o.more, b.Calm (h.note a) o.state) ∧
      ∀ th ∈ o.spawn, ∀ b ∈ th, b.Calm (h.note a) o.state := by
  have hids : ∀ id, Doomed h w id → Doomed (h.note a) o.state id := fun _ hd => hd.step hs
  cases hs with
  | orch hs => exact ⟨hs.calm hcalm htorn, forall_mem_nil _⟩
  | @expire e cfg op =>
    refine ⟨forall_mem_singleton.mpr ?_, forall_mem_nil _⟩
    cases op with
    | addSession s p svc => exact fun hun => hcalm hun
    | abandon err cleanup => exact hcalm
    | _ => trivial
  | create hs => exact ⟨hs.calm hw hin.1 hcalm, forall_mem_nil _⟩
  | entry hs =>
    exact ⟨hs.calm hw hin hcalm fun hop => hspare _ (hop ▸ rfl), forall_mem_nil _⟩
  | backend hs => exact ⟨hs.calm hin hcalm, forall_mem_nil _⟩
  | @loop op o hs =>
    refine ⟨fun b hb => ?_, fun th hth b hb => ?_⟩
    · obtain ⟨b, hm, rfl⟩ := mem_map.mp hb
      exact ((hs.follows hm).tears hcalm).mono hids
    · obtain ⟨th', hm, rfl⟩ := mem_map.mp hth
      obtain ⟨m, caller, k, prompt, rfl, rfl⟩ := hs.spawn_origin hm
      simp only [map_cons, map_nil, mem_cons, not_mem_nil, or_false] at hb
      rcases hb with rfl | rfl <;> trivial

theorem Op.Calm.step (hb : b.Calm h w) (hbin : b.In w) (hs : Step x w a o) (hw : w.In)
    (hin : a.In w) (hcalm : a.Calm h w) : b.Calm (h.note a) o.state := by
  cases b with
  | loop b => exact AgentLoop.Op.Tears.mono (fun _ hd => hd.step hs) hb
  | backend e ctx call => exact ⟨Calls.touched_note hb.1, hb.2⟩
  | entry e op => exact ⟨hb.1, fun hop => Calls.touched_note (hb.2 hop)⟩
  | orch op => exact hb
  | create e cfg expired op =>
    cases op with
    | addSession s p svc =>
      intro hun
      have hun' := Calls.untouched_of_note hun
      exact (hb hun').step hs hw hin hcalm hbin.1 hun' hbin.2.2.2
    | abandon err cleanup => exact hb
    | _ => trivial

/-! ## Along a run -/

/-- Until `Close` tears sessions down, the shared service is open, what is still to
be executed harms touched entries only, and untouched sessions are served. -/
structure Isolated (h : Calls) (c : Config World Op) : Prop where
  isOpen : c.state.loop.svc.closed = false
  ops : ∀ b, c.Pend b → b.Calm h c.state
  registered : ∀ q ∈ c.state.orch.sessions, (c.state.entries q.2).agentService.isSome
  serves : ∀ e < c.state.nEntries, h.touched e = false →
    ∀ svc ∈ (c.state.entries e).agentService, svc.Serves c.state (c.state.entries e).sessionID

theorem Isolated.step (hc : Isolated h c) (hw : Owned c) (ht : c.At i a rest)
    (hs : Step x c.state a o)
    (hspare : ∀ e, a = .entry e (.destroy false) → (c.state.entries e).placement ≠ .toolsSandbox)
    (htorn : (h.note a).torn = false) : Isolated (h.note a) (c.advance i rest o) := by
  have hin := hw.ops a (pend_head ht)
  have hcalm := hc.ops a (pend_head ht)
  obtain ⟨hmore, hspawn⟩ := hs.calm hw.world hin hcalm hspare htorn
  refine ⟨?_, fun b hb => ?_, fun q hq => ?_, fun e hlt hun svc hsvc => ?_⟩
  · rcases hs.loop_cases hin hcalm with hl | ⟨x', b, o', hs', hin', ht', hl⟩
    · exact (congrArg (·.svc.closed) hl).trans hc.isOpen
    · exact (congrArg (·.svc.closed) hl).trans ((hs'.svcClosed_frame ht').trans hc.isOpen)
  · rcases hb.of_advance ht with hb | hb | ⟨th, hth, hb⟩
    · exact (hc.ops b hb).step (hw.ops b hb) hs hw.world hin hcalm
    · exact hmore b hb
    · exact hspawn th hth b hb
  · exact hs.registered hw.world hc.registered q hq
  · have hun' := Calls.untouched_of_note hun
    by_cases hold : e < c.state.nEntries
    · have hin' : svc.In c.state e ∧ svc.Serves c.state (c.state.entries e).sessionID := by
        rcases hs.service_origin hold hsvc with h | ⟨cfg, ex, s, p, rfl⟩ | ⟨p, ag, rfl⟩
        · exact ⟨(hw.world.entries e hold).service svc h, hc.serves e hold hun' svc h⟩
        · exact ⟨hin.2.2.2, hcalm hun'⟩
        · rw [hcalm.2 rfl] at hun'
          cases hun'
      exact hin'.2.step hs hw.world hin hcalm hold hun' hin'.1
    · obtain ⟨rfl, _, hnew⟩ := hs.new_entry hold hlt
      simp [Config.advance, hnew, World.newEntry] at hsvc

theorem Reach.isolated
    (hr : Reach machine (watchCalls sparesShared) .start
      (initialConfig config publisher maxSess) h c) : h.torn = false → Isolated h c := by
  refine hr.invariant_of_reach (fun h c => h.torn = false → Isolated h c) ?_ ?_ ?_
  · exact fun _ => ⟨rfl, forall_pend_singleton nofun, forall_mem_nil _, nofun⟩
  · intro h c a _ ih he htorn
    obtain ⟨hopen, hops, hreg, hserv⟩ := ih htorn
    refine ⟨hopen, forall_pend_call hops ?_, hreg, hserv⟩
    change apiEntry c.state a = true at he
    unfold apiEntry at he
    split at he
    all_goals first
      | trivial
      | exact nofun
  · intro h c i a rest x o hr ih ht hx hm htorn
    refine (ih (Calls.torn_of_note htorn)).step (Reach.owned hr) ht (step_of_exec hx) ?_ htorn
    rintro e rfl
    simpa [watchCalls, sparesShared] using hm

/-- In every run in which `DestroySession` is not used on tools-sandbox sessions,
until `Close` the shared service stays open, and each registered session that no
call has destroyed, paused or resumed is still served, whatever happens to the
others. -/
theorem sessions_isolated
    (hr : Reach machine (watchCalls sparesShared) .start
      (initialConfig config publisher maxSess) h c) (htorn : h.torn = false) :
    (∀ cfg, c.state.loop.checkCreate cfg ≠ .error .closing) ∧
      ∀ id e, (id, e) ∈ c.state.orch.sessions → h.touched e = false →
        ∃ svc, (c.state.entries e).agentService = some svc ∧ svc.Serves c.state id := by
  have hi := Reach.isolated hr htorn
  have hw := (Reach.owned hr).world
  refine ⟨fun cfg hc => ?_, fun id e hreg hun => ?_⟩
  · unfold AgentLoop.World.checkCreate at hc
    rw [if_neg (by simp [hi.isOpen])] at hc
    split at hc
    · cases hc
    · dsimp only at hc
      split at hc <;> split at hc <;> cases hc
  · obtain ⟨svc, hsvc⟩ := Option.isSome_iff_exists.mp (hi.registered _ hreg)
    obtain ⟨hlt, hid⟩ := hw.sessions _ hreg
    refine ⟨svc, hsvc, ?_⟩
    rw [show id = (c.state.entries e).sessionID from hid.symm]
    exact hi.serves e hlt hun svc hsvc

/-- `CreateSession` with a placement and an empty configuration. -/
def createWith (placement : PlacementMode) : Label Op Choice :=
  .call (.orch (.createSession (some placement) ⟨"", .native, []⟩))

def destroyFirst : Label Op Choice := .call (.orch (.destroySession (World.generateSessionID 1)))

/-- An agent-sandbox session is destroyed beside a tools-sandbox session. -/
def destroyRemoteSession : List (Label Op Choice) :=
  [createWith .agentSandbox, .go 1 9, createWith .toolsSandbox, .go 2 7, destroyFirst, .go 3 10]

theorem sessions_isolated_remote_destroyed :
    ∃ h c, Reach machine (watchCalls sparesShared) .start
        (initialConfig ⟨true, true, true, false, 0⟩ false 0) h c ∧
      h.touched 0 = true ∧ c.state.loop.checkCreate ⟨"", .native, []⟩ ≠ .error .closing ∧
      ∃ svc, (c.state.entries 1).agentService = some svc ∧
        svc.Serves c.state (World.generateSessionID 2) := by
  refine Machine.follow_imp defaultChoice destroyRemoteSession
    (fun h c => h.torn = false ∧ h.touched 0 = true ∧ h.touched 1 = false ∧
      (World.generateSessionID 2, 1) ∈ c.state.orch.sessions) ?_
  rintro h c hr ⟨htorn, ht0, ht1, hreg⟩
  obtain ⟨hcreate, hserved⟩ := sessions_isolated hr htorn
  exact ⟨ht0, hcreate _, hserved _ 1 hreg ht1⟩

/-- Of two tools-sandbox sessions the first is destroyed. -/
def destroyToolsSession : List (Label Op Choice) :=
  [createWith .toolsSandbox, .go 1 7, createWith .toolsSandbox, .go 2 7, destroyFirst, .go 3 50]

/-- The call has returned, no other call has touched the second session, and the
shared service is closed and has lost it. -/
theorem destroy_closes_shared_service :
    ∃ h c, Reach machine (watchCalls fun _ _ _ => true) .start
        (initialConfig ⟨false, true, true, false, 0⟩ false 0) h c ∧
      h.torn = false ∧ h.touched 1 = false ∧ c.threads[3]? = some [] ∧
      (World.generateSessionID 2, 1) ∈ c.state.orch.sessions ∧
      (c.state.entries 1).state = .active ∧
      (c.state.entries 1).agentService = some .shared ∧
      ¬ ServiceRef.Serves c.state (World.generateSessionID 2) .shared ∧
      c.state.loop.checkCreate ⟨"", .native, []⟩ = .error .closing := by
  refine Machine.follow_imp defaultChoice destroyToolsSession
    (fun h c => h.torn = false ∧ h.touched 1 = false ∧ c.threads[3]? = some [] ∧
      (World.generateSessionID 2, 1) ∈ c.state.orch.sessions ∧
      (c.state.entries 1).state = .active ∧ (c.state.entries 1).agentService = some .shared ∧
      c.state.loop.svc.sessions = [] ∧ c.state.loop.svc.closed = true) ?_
  rintro h c hr ⟨htorn, ht1, hth, hreg, hact, hsvc, hnone, hclosed⟩
  refine ⟨htorn, ht1, hth, hreg, hact, hsvc, ?_, ?_⟩
  · rintro ⟨m, hm⟩
    have hmem := hm.registered
    rw [hnone] at hmem
    cases hmem
  · unfold AgentLoop.World.checkCreate
    exact if_pos hclosed

end FlexAgentRuntime.Orchestrator
