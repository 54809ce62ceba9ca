import FlexAgentRuntime.Agent.Scope
import FlexAgentRuntime.Orchestrator.Steps

/-!
Every sandbox, agent process and agent service belongs to one session entry, and
the calls made for an entry name only what belongs to it. Entries have distinct
session ids.

* `Step.in_`: a step keeps references where they belong;
* `Reach.owned`: so they do in every reachable configuration;
* `sessionID_injective`: two entries never share an id.
-/

namespace FlexAgentRuntime.Orchestrator

open List Function

open AgentLoop (Choice)
open Interleaving Config

namespace World

def HasSandbox (w : World) (e : EntryRef) (s : SandboxRef) : Prop :=
  s < w.nSandboxes ∧ (w.sandboxes s).owner = e

def HasProcess (w : World) (e : EntryRef) (p : ProcessRef) : Prop :=
  p < w.nProcesses ∧ w.HasSandbox e (w.processes p).sandbox

def HasAgent (w : World) (e : EntryRef) (a : AgentRef) : Prop :=
  a < w.nAgents ∧ w.HasProcess e (w.agents a).process

/-- Steps create things, and never change what those that exist belong to. -/
structure Extends (w w' : World) : Prop where
  entries : w.nEntries ≤ w'.nEntries
  sandboxes : w.nSandboxes ≤ w'.nSandboxes
  processes : w.nProcesses ≤ w'.nProcesses
  agents : w.nAgents ≤ w'.nAgents
  sessionID : ∀ e < w.nEntries, (w'.entries e).sessionID = (w.entries e).sessionID
  placement : ∀ e < w.nEntries, (w'.entries e).placement = (w.entries e).placement
  owner : ∀ s < w.nSandboxes, (w'.sandboxes s).owner = (w.sandboxes s).owner
  sandbox : ∀ p < w.nProcesses, (w'.processes p).sandbox = (w.processes p).sandbox
  process : ∀ a < w.nAgents, (w'.agents a).process = (w.agents a).process
  loop : w.loop.Extends w'.loop

section Mono

variable {w w' : World} {e : EntryRef} {s : SandboxRef} {p : ProcessRef} {a : AgentRef}

theorem HasSandbox.unique (h : w.HasSandbox e s) (h' : w.HasSandbox e' s) :
    e' = e := h'.2.symm.trans h.2

theorem HasSandbox.mono (h : w.HasSandbox e s) (he : w.Extends w') : w'.HasSandbox e s :=
  ⟨h.1.trans_le he.sandboxes, (he.owner s h.1).trans h.2⟩

theorem HasProcess.mono (h : w.HasProcess e p) (he : w.Extends w') : w'.HasProcess e p :=
  ⟨h.1.trans_le he.processes, he.sandbox p h.1 ▸ h.2.mono he⟩

theorem HasAgent.mono (h : w.HasAgent e a) (he : w.Extends w') : w'.HasAgent e a :=
  ⟨h.1.trans_le he.agents, he.process a h.1 ▸ h.2.mono he⟩

theorem Extends.refl (w : World) : w.Extends w :=
  ⟨le_rfl, le_rfl, le_rfl, le_rfl, fun _ _ => rfl, fun _ _ => rfl, fun _ _ => rfl,
    fun _ _ => rfl, fun _ _ => rfl, AgentLoop.World.Extends.refl _⟩

theorem Extends.trans (h : w.Extends w') (h' : w'.Extends w'') :
    w.Extends w'' where
  entries := h.entries.trans h'.entries
  sandboxes := h.sandboxes.trans h'.sandboxes
  processes := h.processes.trans h'.processes
  agents := h.agents.trans h'.agents
  sessionID e he := (h'.sessionID e (he.trans_le h.entries)).trans (h.sessionID e he)
  placement e he := (h'.placement e (he.trans_le h.entries)).trans (h.placement e he)
  owner s hs := (h'.owner s (hs.trans_le h.sandboxes)).trans (h.owner s hs)
  sandbox p hp := (h'.sandbox p (hp.trans_le h.processes)).trans (h.sandbox p hp)
  process a ha := (h'.process a (ha.trans_le h.agents)).trans (h.process a ha)
  loop := h.loop.trans h'.loop

theorem Extends.setOrch (h : w.Extends w') : w.Extends (w'.setOrch f) :=
  h.trans { Extends.refl w' with loop := AgentLoop.World.Extends.refl _ }

theorem Extends.setEntry (h : w.Extends w')
    (hid : ∀ v, (f v).sessionID = v.sessionID := by exact fun _ => rfl)
    (hp : ∀ v, (f v).placement = v.placement := by exact fun _ => rfl) :
    w.Extends (w'.setEntry e f) :=
  h.trans { Extends.refl w' with
    sessionID := fun e' _ => update_proj SessionEntry.sessionID (hid _) e'
    placement := fun e' _ => update_proj SessionEntry.placement (hp _) e' }

theorem Extends.stopProcesses (h : w.Extends w') : w.Extends (w'.stopProcesses s) := by
  refine h.trans { Extends.refl w' with sandbox := fun p _ => ?_ }
  simp only [World.stopProcesses]
  split <;> rfl

end Mono

/-! ### Updates -/

section Updates

variable (w : World)

theorem extends_setLoop {loop : AgentLoop.World} (h : w.loop.Extends loop) :
    w.Extends { w with loop := loop } :=
  { Extends.refl w with loop := h }

theorem extends_setSandbox (s : SandboxRef)
    (ho : ∀ v, (f v).owner = v.owner := by exact fun _ => rfl) :
    w.Extends (w.setSandbox s f) :=
  { Extends.refl w with owner := fun s' _ => update_proj Sandbox.owner (ho _) s' }

theorem extends_setProcess (p : ProcessRef) (hs : ∀ v, (f v).sandbox = v.sandbox) :
    w.Extends (w.setProcess p f) :=
  { Extends.refl w with sandbox := fun p' _ => update_proj Process.sandbox (hs _) p' }

theorem extends_setAgent (a : AgentRef) (hp : ∀ v, (f v).process = v.process) :
    w.Extends (w.setAgent a f) :=
  { Extends.refl w with process := fun a' _ => update_proj RemoteAgent.process (hp _) a' }

theorem extends_newEntry (placement : PlacementMode) : w.Extends (w.newEntry placement) :=
  { Extends.refl w with
    entries := Nat.le_succ _
    sessionID := fun e he => by simp [newEntry, ne_of_lt he]
    placement := fun e he => by simp [newEntry, ne_of_lt he] }

theorem extends_newSandbox (e : EntryRef) : w.Extends (w.newSandbox e) :=
  { Extends.refl w with
    sandboxes := Nat.le_succ _
    owner := fun s hs => by simp [newSandbox, ne_of_lt hs] }

theorem extends_newProcess (s : SandboxRef) : w.Extends (w.newProcess s) :=
  { Extends.refl w with
    processes := Nat.le_succ _
    sandbox := fun p hp => by simp [newProcess, ne_of_lt hp] }

theorem extends_newAgent (p : ProcessRef) : w.Extends (w.newAgent p) :=
  { Extends.refl w with
    agents := Nat.le_succ _
    process := fun a ha => by simp [newAgent, ne_of_lt ha] }

theorem hasSandbox_new (e : EntryRef) : (w.newSandbox e).HasSandbox e w.nSandboxes :=
  ⟨Nat.lt_succ_self _, by simp [newSandbox]⟩

theorem hasProcess_new (h : w.HasSandbox e s) : (w.newProcess s).HasProcess e w.nProcesses :=
  ⟨Nat.lt_succ_self _, by
    rw [show ((w.newProcess s).processes w.nProcesses).sandbox = s by simp [newProcess]]
    exact h.mono (w.extends_newProcess s)⟩

theorem hasAgent_new (h : w.HasProcess e p) : (w.newAgent p).HasAgent e w.nAgents :=
  ⟨Nat.lt_succ_self _, by
    rw [show ((w.newAgent p).agents w.nAgents).process = p by simp [newAgent]]
    exact h.mono (w.extends_newAgent p)⟩

end Updates

end World

/-! ## Actions -/

def ServiceRef.In (w : World) (e : EntryRef) : ServiceRef → Prop
  | .shared => (w.entries e).placement = .toolsSandbox
  | .remote a => w.HasAgent e a

def Backend.In (w : World) (e : EntryRef) : Backend → Prop
  | .destroySession svc id => svc.In w e ∧ id = (w.entries e).sessionID
  | .abort svc _ _ | .closeService svc => svc.In w e
  | .killProcess p => w.HasProcess e p
  | .destroySandbox s => w.HasSandbox e s

def CreateOp.In (w : World) (e : EntryRef) : CreateOp → Prop
  | .createSandbox => True
  | .launchProcess s => w.HasSandbox e s
  | .connect s p => w.HasSandbox e s ∧ w.HasProcess e p
  | .createSession s p a => w.HasSandbox e s ∧ w.HasProcess e p ∧ w.HasAgent e a
  | .createShared s => w.HasSandbox e s ∧ (w.entries e).placement = .toolsSandbox
  | .addSession s p svc => w.HasSandbox e s ∧ (∀ q ∈ p, w.HasProcess e q) ∧ svc.In w e
  | .abandon _ cleanup => ∀ call ∈ cleanup, call.In w e

def EntryOp.In (w : World) (e : EntryRef) : EntryOp → Prop
  | .relaunch => (w.entries e).placement = .agentDirect
  | .reconnect p => (w.entries e).placement = .agentDirect ∧ w.HasProcess e p
  | .reconnected p a => w.HasProcess e p ∧ w.HasAgent e a
  | _ => True

def Op.In (w : World) : Op → Prop
  | .orch _ => True
  | .create e _ _ op => e < w.nEntries ∧ op.In w e
  | .entry e op => e < w.nEntries ∧ op.In w e
  | .backend e _ call => e < w.nEntries ∧ call.In w e
  | .loop op => op.In w.loop

/-- What an entry holds belongs to it. -/
structure SessionEntry.In (w : World) (e : EntryRef) (v : SessionEntry) : Prop where
  sandbox : ∀ s ∈ v.sandbox, w.HasSandbox e s
  process : ∀ p ∈ v.process, w.HasProcess e p
  service : ∀ svc ∈ v.agentService, svc.In w e
  remote : v.remoteSessionID = v.sessionID ∨ v.remoteSessionID = ""

structure World.In (w : World) : Prop where
  sessionID : ∀ e < w.nEntries, (w.entries e).sessionID = World.generateSessionID (e + 1)
  generated : w.orch.generated = w.nEntries
  entries : ∀ e < w.nEntries, (w.entries e).In w e
  sessions : ∀ q ∈ w.orch.sessions, q.2 < w.nEntries ∧ (w.entries q.2).sessionID = q.1
  loop : w.loop.In

variable {w w' : World}

theorem generateSessionID_injective : Injective World.generateSessionID := by
  intro m n h
  unfold World.generateSessionID at h
  exact Hex.padded_injective 8 (append_cancel_left (String.ofList_injective h))

theorem World.In.sessionID_injective (hw : w.In) (he : e < w.nEntries) (he' : e' < w.nEntries)
    (h : (w.entries e).sessionID = (w.entries e').sessionID) : e = e' := by
  rw [hw.sessionID e he, hw.sessionID e' he'] at h
  exact Nat.succ.inj (generateSessionID_injective h)

variable {w w' : World} {e : EntryRef}

section
variable (he : w.Extends w') (hlt : e < w.nEntries)
include he hlt

theorem ServiceRef.In.mono {svc : ServiceRef} (h : svc.In w e) : svc.In w' e := by
  cases svc with
  | shared => exact (he.placement e hlt).trans h
  | remote a => exact World.HasAgent.mono h he

theorem Backend.In.mono {call : Backend} (h : call.In w e) : call.In w' e := by
  cases call with
  | destroySession svc id => exact ⟨h.1.mono he hlt, h.2.trans (he.sessionID e hlt).symm⟩
  | abort svc id reason | closeService svc => exact ServiceRef.In.mono he hlt h
  | killProcess p => exact World.HasProcess.mono h he
  | destroySandbox s => exact World.HasSandbox.mono h he

theorem CreateOp.In.mono {op : CreateOp} (h : op.In w e) : op.In w' e := by
  cases op with
  | createSandbox => trivial
  | launchProcess s => exact World.HasSandbox.mono h he
  | connect s p => exact ⟨h.1.mono he, h.2.mono he⟩
  | createSession s p a => exact ⟨h.1.mono he, h.2.1.mono he, h.2.2.mono he⟩
  | createShared s => exact ⟨h.1.mono he, (he.placement e hlt).trans h.2⟩
  | addSession s p svc =>
    exact ⟨h.1.mono he, fun q hq => (h.2.1 q hq).mono he, h.2.2.mono he hlt⟩
  | abandon err cleanup => exact fun call hc => (h call hc).mono he hlt

theorem EntryOp.In.mono {op : EntryOp} (h : op.In w e) : op.In w' e := by
  cases op with
  | relaunch => exact (he.placement e hlt).trans h
  | reconnect p => exact ⟨(he.placement e hlt).trans h.1, h.2.mono he⟩
  | reconnected p a => exact ⟨h.1.mono he, h.2.mono he⟩
  | _ => trivial

theorem SessionEntry.In.mono {v : SessionEntry} (h : v.In w e) : v.In w' e where
  sandbox s hs := (h.sandbox s hs).mono he
  process p hp := (h.process p hp).mono he
  service svc hs := (h.service svc hs).mono he hlt
  remote := h.remote

end

theorem Op.In.mono {op : Op} (h : op.In w) (he : w.Extends w') : op.In w' := by
  cases op with
  | orch op => trivial
  | create e cfg expired op | entry e op | backend e ctx call =>
    exact ⟨h.1.trans_le he.entries, h.2.mono he h.1⟩
  | loop op => exact AgentLoop.Op.In.mono he.loop h

/-! ## One step -/

variable {more : List Op} {s : SandboxRef} {op : CreateOp} {call : Backend}
  {cfg : AgentLoop.SessionConfig} {expired : Bool} {x : Choice} {o : Outcome World Op}
  {f : SessionEntry → SessionEntry} {p : Option ProcessRef} {svc : ServiceRef} {v : SessionEntry}
  {calls : List Backend}

theorem Backend.Step.extends (h : call.Step w w' more) : w.Extends w' := by
  cases h with
  | destroyRemote => exact w.extends_setAgent _ fun _ => rfl
  | killed => exact w.extends_setProcess _ fun _ => rfl
  | sandboxDestroyed => exact .stopProcesses (w.extends_setSandbox _)
  | _ => exact .refl w

theorem CreateOp.Step.extends (h : op.Step e cfg expired w w' more) : w.Extends w' := by
  cases h with
  | sandbox => exact w.extends_newSandbox e
  | launched => exact w.extends_newProcess _
  | connected => exact w.extends_newAgent _
  | created => exact w.extends_setAgent _ fun _ => rfl
  | failed | abandon => exact .refl w
  | shared hs | sharedFailed hs => exact w.extends_setLoop hs.extends
  | refused => exact .setEntry (.refl w)
  | added => exact .setOrch (.setEntry (.refl w))

theorem EntryOp.Step.extends {op : EntryOp} (h : op.Step e w w' more) : w.Extends w' := by
  cases h with
  | refused | skipped | reconnectFailed | proxy | probe => exact .refl w
  | destroyed => exact .setOrch (.setEntry (.refl w))
  | paused | resumed => exact .setEntry (w.extends_setSandbox _)
  | pausedDirect => exact .stopProcesses (.setEntry (w.extends_setSandbox _))
  | resumedDirect => exact w.extends_setSandbox _
  | relaunched => exact w.extends_newProcess _
  | reconnect | connect => exact w.extends_newAgent _
  | _ => exact .setEntry (.refl w)

theorem OrchOp.Step.extends {op : OrchOp} (h : op.Step w w' more) : w.Extends w' := by
  cases h with
  | begun | ended | close | cancelLifecycle | healthEnd => exact .setOrch (.refl w)
  | placed => exact w.extends_newEntry _
  | _ => exact .refl w

theorem Step.extends {op : Op} (h : Step x w op o) : w.Extends o.state := by
  cases h with
  | orch hs | create hs | entry hs | backend hs => exact hs.extends
  | expire => exact .refl w
  | loop hs => exact w.extends_setLoop hs.extends

theorem World.In.same (hw : w.In) (he : w.Extends w') (hloop : w'.loop.In)
    (hn : w'.nEntries = w.nEntries := by rfl) (hent : w'.entries = w.entries := by rfl)
    (hgen : w'.orch.generated = w.orch.generated := by rfl)
    (hsess : ∀ q ∈ w'.orch.sessions, q ∈ w.orch.sessions := by exact fun _ hq => hq) :
    w'.In where
  sessionID e hlt := by
    rw [hent]
    exact hw.sessionID e (hn ▸ hlt)
  generated := by rw [hgen, hn, hw.generated]
  entries e hlt := by
    rw [hent]
    exact (hw.entries e (hn ▸ hlt)).mono he (hn ▸ hlt)
  sessions q hq := by
    rw [hn, hent]
    exact hw.sessions q (hsess q hq)
  loop := hloop

theorem World.In.setOrch (hw : w.In) {f : Orchestrator → Orchestrator}
    (hgen : (f w.orch).generated = w.orch.generated)
    (hsess : ∀ q ∈ (f w.orch).sessions, q ∈ w.orch.sessions) : (w.setOrch f).In :=
  hw.same (.setOrch (.refl w)) hw.loop rfl rfl hgen hsess

theorem World.In.setEntry (hw : w.In) (hid : ∀ v, (f v).sessionID = v.sessionID)
    (hp : ∀ v, (f v).placement = v.placement) (hin : (f (w.entries e)).In w e) :
    (w.setEntry e f).In := by
  have hext : w.Extends (w.setEntry e f) := .setEntry (.refl w) hid hp
  refine ⟨fun e' hlt => (hext.sessionID e' hlt).trans (hw.sessionID e' hlt), hw.generated,
    fun e' hlt => ?_, fun q hq => ?_, hw.loop⟩
  · refine update_keeps (SessionEntry.In _ e') ((hw.entries e' hlt).mono hext hlt) fun hee => ?_
    subst hee
    exact hin.mono hext hlt
  · obtain ⟨hlt, hq'⟩ := hw.sessions q hq
    exact ⟨hlt, (hext.sessionID q.2 hlt).trans hq'⟩

theorem World.In.setSandbox (hw : w.In) {f : Sandbox → Sandbox}
    (ho : ∀ v, (f v).owner = v.owner := by exact fun _ => rfl) : (w.setSandbox s f).In :=
  hw.same (w.extends_setSandbox s ho) hw.loop

theorem World.In.stopProcesses (hw : w.In) : (w.stopProcesses s).In :=
  hw.same (.stopProcesses (.refl w)) hw.loop

/-- `v'` has the ids of `v` and refers to the same backends. -/
structure SessionEntry.SameRefs (v v' : SessionEntry) : Prop where
  sessionID : v'.sessionID = v.sessionID
  remoteSessionID : v'.remoteSessionID = v.remoteSessionID
  placement : v'.placement = v.placement
  sandbox : v'.sandbox = v.sandbox
  process : v'.process = v.process
  agentService : v'.agentService = v.agentService

theorem World.In.keepRefs (hw : w.In) (hlt : e < w.nEntries)
    (hf : ∀ v : SessionEntry, v.SameRefs (f v) := by exact fun _ => ⟨rfl, rfl, rfl, rfl, rfl, rfl⟩) :
    (w.setEntry e f).In := by
  have hv := hw.entries e hlt
  have hsame := hf (w.entries e)
  refine hw.setEntry (fun v => (hf v).sessionID) (fun v => (hf v).placement)
    ⟨fun s hm => ?_, fun p hm => ?_, fun svc hm => ?_, ?_⟩
  · exact hv.sandbox s (hsame.sandbox ▸ hm)
  · exact hv.process p (hsame.process ▸ hm)
  · exact hv.service svc (hsame.agentService ▸ hm)
  · rw [hsame.remoteSessionID, hsame.sessionID]
    exact hv.remote

theorem World.In.newEntry (hw : w.In) (placement : PlacementMode) : (w.newEntry placement).In := by
  have hext := w.extends_newEntry placement
  have hself : (w.newEntry placement).entries w.nEntries =
      { sessionID := World.generateSessionID (w.orch.generated + 1), placement := placement } :=
    update_self ..
  have hcases : ∀ e < (w.newEntry placement).nEntries, e = w.nEntries ∨ e < w.nEntries :=
    fun e he => (Nat.lt_succ_iff_lt_or_eq.mp he).symm
  refine ⟨fun e he => ?_, ?_, fun e he => ?_, fun q hq => ?_, hw.loop⟩
  · rcases hcases e he with rfl | hlt
    · rw [hself, hw.generated]
    · rw [hext.sessionID e hlt, hw.sessionID e hlt]
  · exact congrArg (· + 1) hw.generated
  · rcases hcases e he with rfl | hlt
    · rw [hself]
      exact ⟨nofun, nofun, nofun, .inr rfl⟩
    · rw [show (w.newEntry placement).entries e = w.entries e from
        update_of_ne (ne_of_lt hlt) _ _]
      exact (hw.entries e hlt).mono hext hlt
  · obtain ⟨hlt, hid⟩ := hw.sessions q hq
    exact ⟨hlt.trans_le hext.entries, (hext.sessionID q.2 hlt).trans hid⟩

theorem getSessionEntry_some {id : String} (h : w.getSessionEntry id = some e) :
    (id, e) ∈ w.orch.sessions := by
  obtain ⟨⟨id', e'⟩, hf, rfl⟩ := Option.map_eq_some_iff.mp h
  have hid := List.find?_some hf
  simp only [beq_iff_eq] at hid
  exact hid ▸ mem_of_find?_eq_some hf

theorem mem_listSessionEntries (h : e ∈ w.listSessionEntries) :
    ∃ id, (id, e) ∈ w.orch.sessions := by
  unfold World.listSessionEntries at h
  rw [mem_insertionSort] at h
  obtain ⟨⟨id, e'⟩, hq, rfl⟩ := mem_map.mp h
  exact ⟨id, hq⟩

theorem cleanupSession_in (hs : w.HasSandbox e s) (hp : ∀ q ∈ p, w.HasProcess e q)
    (hsvc : svc.In w e) : ∀ call ∈ cleanupSession (w.entries e).sessionID s p svc, call.In w e := by
  intro call hc
  cases svc with
  | shared =>
    simp only [cleanupSession, mem_cons, not_mem_nil, or_false] at hc
    rcases hc with rfl | rfl
    · exact ⟨hsvc, rfl⟩
    · exact hs
  | remote a =>
    simp only [cleanupSession, mem_append, mem_cons, not_mem_nil, or_false] at hc
    rcases hc with ((rfl | rfl) | hc) | rfl
    · exact ⟨hsvc, rfl⟩
    · exact hsvc
    · cases p with
      | some q =>
        cases mem_singleton.mp hc
        exact hp q rfl
      | none => cases hc
    · exact hs

theorem CreateOp.Cleanup.in_ (h : op.Cleanup (w.entries e).sessionID cleanup) (hop : op.In w e) :
    ∀ call ∈ cleanup, call.In w e := by
  cases h with
  | createSandbox => exact forall_mem_nil _
  | launchProcess => exact forall_mem_singleton.mpr hop
  | connect =>
    exact forall_mem_cons.mpr ⟨hop.2, forall_mem_singleton.mpr hop.1⟩
  | createSession =>
    refine cleanupSession_in hop.1 (fun q hq => ?_) hop.2.2
    cases hq
    exact hop.2.1

theorem SessionEntry.In.remoteID (h : v.In w e) : v.remoteID = v.sessionID := by
  unfold SessionEntry.remoteID
  rcases h.remote with hr | hr <;> rw [hr]
  · split <;> rfl
  · exact if_pos rfl

theorem SessionEntry.In.teardown (h : (w.entries e).In w e) :
    ∀ call ∈ (w.entries e).teardown, call.In w e := by
  intro call hc
  simp only [SessionEntry.teardown, mem_append] at hc
  rcases hc with ((hc | hc) | hc) | hc
  · split at hc
    · rename_i svc hsvc
      cases mem_singleton.mp hc
      exact ⟨h.service svc hsvc, h.remoteID⟩
    · cases hc
  · split at hc
    · rename_i p _ hp _
      cases mem_singleton.mp hc
      exact h.process p hp
    · cases hc
  · split at hc
    · rename_i s hs
      cases mem_singleton.mp hc
      exact h.sandbox s hs
    · cases hc
  · split at hc
    · rename_i svc hsvc
      cases mem_singleton.mp hc
      exact h.service svc hsvc
    · cases hc

theorem Backend.Step.in_ (h : call.Step w w' more) (hw : w.In) : w'.In ∧ ∀ b ∈ more, b.In w' := by
  have he := h.extends
  cases h with
  | none => exact ⟨hw, forall_mem_nil _⟩
  | destroyShared | abortShared | closeShared => exact ⟨hw, forall_mem_singleton.mpr trivial⟩
  | destroyRemote | killed | sandboxDestroyed =>
    exact ⟨hw.same he hw.loop, forall_mem_nil _⟩

theorem SessionEntry.filled_in (hs : w.HasSandbox e s) (hp : ∀ q ∈ p, w.HasProcess e q)
    (hsvc : svc.In w e) :
    (v.filled s p svc).In w e where
  sandbox s' hs' := by
    cases hs'
    exact hs
  process := hp
  service svc' hs' := by
    cases hs'
    exact hsvc
  remote := .inl rfl

theorem CreateOp.Step.in_ (h : op.Step e cfg expired w w' more) (hw : w.In) (hlt : e < w.nEntries)
    (hop : op.In w e) : w'.In ∧ ∀ b ∈ more, b.In w' := by
  have he := h.extends
  have hlt' := hlt.trans_le he.entries
  have hone : ∀ {op' : CreateOp}, op'.In w' e → ∀ b ∈ [Op.create e cfg expired op'], b.In w' :=
    fun hop' => forall_mem_singleton.mpr ⟨hlt', hop'⟩
  have hloop : ∀ {x : Choice} {sop : AgentLoop.SvcOp} {loop : AgentLoop.World}
      {more : List AgentLoop.Op}, sop.Step w.loop x loop more → sop.In w.loop → loop.In :=
    fun hs hin => (hs.in_ hw.loop hin).1
  have hset : ∀ {s p svc}, w.HasSandbox e s → (∀ q ∈ p, w.HasProcess e q) → svc.In w e →
      (w.setEntry e fun v => v.filled s p svc).In :=
    fun hs hp hsvc => hw.setEntry (fun _ => rfl) (fun _ => rfl) (SessionEntry.filled_in hs hp hsvc)
  cases h with
  | sandbox =>
    refine ⟨hw.same he hw.loop, hone ?_⟩
    cases hp : (w.entries e).placement with
    | toolsSandbox => exact ⟨w.hasSandbox_new e, (he.placement e hlt).trans hp⟩
    | _ => exact w.hasSandbox_new e
  | launched =>
    exact ⟨hw.same he hw.loop,
      hone ⟨World.HasSandbox.mono hop he, w.hasProcess_new hop⟩⟩
  | connected =>
    exact ⟨hw.same he hw.loop,
      hone ⟨hop.1.mono he, hop.2.mono he, w.hasAgent_new hop.2⟩⟩
  | created =>
    refine ⟨hw.same he hw.loop,
      hone ⟨hop.1.mono he, fun q hq => ?_, hop.2.2.mono he⟩⟩
    cases hq
    exact hop.2.1.mono he
  | failed hc => exact ⟨hw, hone (hc.in_ hop)⟩
  | shared hs =>
    exact ⟨hw.same he (hloop hs trivial),
      hone ⟨hop.1.mono he, nofun, (he.placement e hlt).trans hop.2⟩⟩
  | sharedFailed hs =>
    exact ⟨hw.same he (hloop hs trivial),
      hone (forall_mem_singleton.mpr (hop.1.mono he))⟩
  | refused =>
    refine ⟨hset hop.1 hop.2.1 hop.2.2, hone fun call hc => ?_⟩
    exact (cleanupSession_in hop.1 hop.2.1 hop.2.2 call hc).mono he hlt
  | @added s p svc _ =>
    have hw' := hset hop.1 hop.2.1 hop.2.2
    have hext : w.Extends (w.setEntry e fun v => v.filled s p svc) := .setEntry (.refl w)
    refine ⟨⟨hw'.sessionID, hw'.generated, fun e' hlt' => ?_, fun q hq => ?_, hw'.loop⟩,
      forall_mem_singleton.mpr trivial⟩
    · exact (hw'.entries e' hlt').mono (World.Extends.refl (w.setEntry e _)).setOrch hlt'
    · rcases mem_concat.mp hq with hq | rfl
      · exact hw'.sessions q hq
      · exact ⟨hlt, hext.sessionID e hlt⟩
  | abandon =>
    refine ⟨hw, fun b hb => ?_⟩
    rcases mem_map_concat hb with ⟨call, hc, rfl⟩ | rfl
    · exact ⟨hlt, hop call hc⟩
    · trivial

theorem abortForPause_in (hv : (w.entries e).In w e)
    (h : (w.entries e).abortForPause w.orch.config = .ok calls) : ∀ call ∈ calls, call.In w e := by
  unfold SessionEntry.abortForPause at h
  split at h
  · split at h
    · rename_i svc hsvc
      cases h
      exact forall_mem_singleton.mpr (hv.service svc hsvc)
    · cases h
  · cases h
    exact forall_mem_nil _

theorem calls_in {last : Op} (hlt : e < w.nEntries) (hcalls : ∀ call ∈ calls, call.In w e)
    (hlast : last.In w) : ∀ b ∈ calls.map (.backend e ctx) ++ [last], b.In w := by
  intro b hb
  rcases mem_map_concat hb with ⟨call, hc, rfl⟩ | rfl
  · exact ⟨hlt, hcalls call hc⟩
  · exact hlast

theorem EntryOp.Step.in_ {op : EntryOp} (h : op.Step e w w' more) (hw : w.In)
    (hlt : e < w.nEntries) (hop : op.In w e) : w'.In ∧ ∀ b ∈ more, b.In w' := by
  have he := h.extends
  have hlt' := hlt.trans_le he.entries
  have hv := hw.entries e hlt
  have hret : ∀ {err : Option OrchestratorError} (w' : World), ∀ b ∈ [ret e err], b.In w' :=
    fun _ => forall_mem_singleton.mpr trivial
  cases h with
  | refused => exact ⟨hw, hret w⟩
  | skipped => exact ⟨hw, forall_mem_nil _⟩
  | destroy =>
    exact ⟨hw.keepRefs hlt,
      calls_in hlt' (fun c hc => (hv.teardown c hc).mono he hlt) ⟨hlt', trivial⟩⟩
  | destroyed =>
    refine ⟨World.In.setOrch ?_ rfl fun q hq => (mem_filter.mp hq).1, hret _⟩
    exact hw.keepRefs hlt
  | pause _ _ hcalls =>
    exact ⟨hw.keepRefs hlt,
      calls_in hlt' (fun c hc => (abortForPause_in hv hcalls c hc).mono he hlt) ⟨hlt', trivial⟩⟩
  | paused | resumed =>
    exact ⟨hw.setSandbox.keepRefs hlt, hret _⟩
  | pausedDirect =>
    exact ⟨(hw.setSandbox.keepRefs hlt).stopProcesses, hret _⟩
  | gaveUp => exact ⟨hw.keepRefs hlt, hret _⟩
  | resume =>
    exact ⟨hw.keepRefs hlt,
      forall_mem_singleton.mpr ⟨hlt', trivial⟩⟩
  | resumedDirect _ hp =>
    exact ⟨hw.setSandbox, forall_mem_singleton.mpr ⟨hlt', hp⟩⟩
  | relaunched hs =>
    exact ⟨hw.same he hw.loop,
      forall_mem_singleton.mpr ⟨hlt', hop, w.hasProcess_new (hv.sandbox _ hs)⟩⟩
  | reconnect hsvc =>
    exact ⟨hw.same he hw.loop, forall_mem_cons.mpr
      ⟨⟨hlt', (hv.service _ hsvc).mono he hlt⟩, forall_mem_singleton.mpr
        ⟨hlt', hop.2.mono he, w.hasAgent_new hop.2⟩⟩⟩
  | connect =>
    exact ⟨hw.same he hw.loop, forall_mem_singleton.mpr
      ⟨hlt', hop.2.mono he, w.hasAgent_new hop.2⟩⟩
  | reconnectFailed =>
    exact ⟨hw, forall_mem_cons.mpr ⟨⟨hlt, hop.2⟩, forall_mem_cons.mpr ⟨⟨hlt, trivial⟩, hret w⟩⟩⟩
  | reconnected =>
    refine ⟨hw.setEntry (fun _ => rfl) (fun _ => rfl)
      ⟨hv.sandbox, fun p hp => ?_, fun svc hs => ?_, hv.remote⟩, hret _⟩
    · cases hp
      exact hop.1
    · cases hs
      exact hop.2
  | unlock | healthy | unhealthy =>
    exact ⟨hw.keepRefs hlt, forall_mem_nil _⟩
  | @proxy req _ _ =>
    refine ⟨hw, forall_mem_singleton.mpr ?_⟩
    cases req <;> trivial
  | probe => exact ⟨hw, forall_mem_singleton.mpr ⟨hlt, trivial⟩⟩

theorem OrchOp.Step.in_ {op : OrchOp} (h : op.Step w w' more) (hw : w.In) :
    w'.In ∧ ∀ b ∈ more, b.In w' := by
  have hlist : ∀ {eop : EntryOp} {last : OrchOp}, (∀ e, eop.In w e) →
      ∀ b ∈ w.listSessionEntries.map (fun e => Op.entry e eop) ++ [.orch last], b.In w := by
    intro eop last heop b hb
    rcases mem_map_concat hb with ⟨e, he, rfl⟩ | rfl
    · obtain ⟨id, hid⟩ := mem_listSessionEntries he
      exact ⟨(hw.sessions _ hid).1, heop e⟩
    · trivial
  cases h with
  | refused | closeShared => exact ⟨hw, forall_mem_singleton.mpr trivial⟩
  | begun =>
    exact ⟨hw.setOrch rfl fun _ hq => hq,
      forall_mem_cons.mpr ⟨trivial, forall_mem_singleton.mpr trivial⟩⟩
  | placed => exact ⟨hw.newEntry _, forall_mem_singleton.mpr ⟨Nat.lt_succ_self _, trivial⟩⟩
  | found hf he =>
    refine ⟨hw, forall_mem_singleton.mpr ⟨(hw.sessions _ (getSessionEntry_some he)).1, ?_⟩⟩
    cases hf <;> trivial
  | ended | cancelLifecycle | healthEnd =>
    exact ⟨hw.setOrch rfl fun _ hq => hq, forall_mem_nil _⟩
  | closeAgain | healthWaited | operationsWaited | noShared | ret =>
    exact ⟨hw, forall_mem_nil _⟩
  | close =>
    refine ⟨hw.setOrch rfl fun _ hq => hq, fun b hb => ?_⟩
    simp only [mem_cons, not_mem_nil, or_false] at hb
    rcases hb with rfl | rfl | rfl | rfl <;> trivial
  | closeSessions | healthTick => exact ⟨hw, hlist fun _ => trivial⟩

theorem Step.in_ {op : Op} (h : Step x w op o) (hw : w.In) (hop : op.In w) :
    o.state.In ∧ (∀ b ∈ o.more, b.In o.state) ∧ ∀ th ∈ o.spawn, ∀ b ∈ th, b.In o.state := by
  cases h with
  | orch hs | backend hs => exact ⟨(hs.in_ hw).1, (hs.in_ hw).2, forall_mem_nil _⟩
  | expire => exact ⟨hw, forall_mem_singleton.mpr hop, forall_mem_nil _⟩
  | create hs | entry hs =>
    obtain ⟨hw', hmore⟩ := hs.in_ hw hop.1 hop.2
    exact ⟨hw', hmore, forall_mem_nil _⟩
  | loop hs =>
    obtain ⟨hl, hmore, hspawn⟩ := hs.in_ hw.loop hop
    refine ⟨hw.same (w.extends_setLoop hs.extends) hl,
      fun b hb => ?_, fun th hth b hb => ?_⟩
    · obtain ⟨b', hb', rfl⟩ := mem_map.mp hb
      exact hmore b' hb'
    · obtain ⟨th', hth', rfl⟩ := mem_map.mp hth
      obtain ⟨b', hb', rfl⟩ := mem_map.mp hb
      exact hspawn th' hth' b' hb'

/-! ## Every reachable configuration -/

structure Owned (c : Config World Op) : Prop where
  world : c.state.In
  ops : ∀ b, c.Pend b → b.In c.state

theorem apiEntry_in {op : Op} (hw : w.In) (h : apiEntry w op = true) : op.In w := by
  unfold apiEntry at h
  split at h
  all_goals first
    | trivial
    | exact AgentLoop.startEntry_in hw.loop (AgentLoop.startEntry_of_agentEntry
        (AgentLoop.agentEntry_of_serviceEntry h))

theorem Owned.initial (config : OrchestratorConfig) (publisher : Bool) (maxSess : Nat) :
    Owned (initialConfig config publisher maxSess) := by
  refine ⟨⟨nofun, rfl, nofun, forall_mem_nil _,
    (AgentLoop.Scoped.initial publisher maxSess).world⟩, forall_pend_singleton trivial⟩

theorem Owned.step {c : Config World Op} (h : Owned c) (ht : c.At i a rest)
    (hs : Step x c.state a o) : Owned (c.advance i rest o) := by
  obtain ⟨hw, hmore, hspawn⟩ := hs.in_ h.world (h.ops a (pend_head ht))
  exact ⟨hw, forall_pend_advance ht h.ops (fun b hb => hb.mono hs.extends) hmore hspawn⟩

theorem Reach.owned {γ : Type} {N : Monitor World Op Choice γ} {config : OrchestratorConfig}
    {publisher : Bool} {maxSess : Nat} {h₀ h : γ} {c : Config World Op}
    (hr : Reach machine N h₀ (initialConfig config publisher maxSess) h c) : Owned c := by
  refine hr.invariant (fun _ c => Owned c) (Owned.initial config publisher maxSess) ?_ ?_
  · intro _ c a hc he
    exact ⟨hc.world, forall_pend_call hc.ops (apiEntry_in hc.world he)⟩
  · intro _ c i a rest x o hc ht hx _
    exact hc.step ht (step_of_exec hx)

end FlexAgentRuntime.Orchestrator
