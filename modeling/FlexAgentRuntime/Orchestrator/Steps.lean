import FlexAgentRuntime.Agent.Steps
import FlexAgentRuntime.Orchestrator.Exec

/-!
The inversion of `exec` for the orchestrator, one relation per kind of action.
-/

namespace FlexAgentRuntime.Orchestrator

open AgentLoop (Choice)
open Interleaving

/-! ## Backends -/

inductive Backend.Step (w : World) : Backend → World → List Op → Prop where
  | none {call} : Step w call w []
  | destroyShared {id} : Step w (.destroySession .shared id) w [.loop (.svc (.destroySession id))]
  | destroyRemote {a id} : Step w (.destroySession (.remote a) id)
      (w.setAgent a fun v => { v with sessions := v.sessions.filter (· ≠ id) }) []
  | abortShared {id reason} : Step w (.abort .shared id reason) w
      [.loop (.svc (.abort id reason))]
  | closeShared : Step w (.closeService .shared) w [.loop (.svc .close)]
  | killed {p} : Step w (.killProcess p) (w.setProcess p fun v => { v with running := false }) []
  | sandboxDestroyed {s} : Step w (.destroySandbox s)
      ((w.setSandbox s fun v => { v with destroyed := true }).stopProcesses s) []

theorem attempt_cases (h : attempt x can w w₁ = some (w', more)) :
    more = [] ∧ (w' = w₁ ∨ w' = w) := by
  unfold attempt at h
  split at h
  · split at h <;> cases h
    exact ⟨rfl, .inl rfl⟩
  · cases h
    exact ⟨rfl, .inr rfl⟩
  · cases h

theorem Backend.step_of_exec {call : Backend} (h : call.exec x done w = some (w', more)) :
    call.Step w w' more := by
  cases call with
  | destroySession svc id =>
    cases svc with
    | shared => cases h; exact .destroyShared
    | remote a =>
      obtain ⟨rfl, rfl | rfl⟩ := attempt_cases h
      · exact .destroyRemote
      · exact .none
  | abort svc | closeService svc => cases svc <;> cases h <;> constructor
  | killProcess p | destroySandbox s => obtain ⟨rfl, rfl | rfl⟩ := attempt_cases h <;> constructor

/-! ## CreateSession -/

/-- The compensation when a stage fails. -/
inductive CreateOp.Cleanup (id : String) : CreateOp → List Backend → Prop where
  | createSandbox : Cleanup id .createSandbox []
  | launchProcess {s} : Cleanup id (.launchProcess s) [.destroySandbox s]
  | connect {s p} : Cleanup id (.connect s p) [.killProcess p, .destroySandbox s]
  | createSession {s p a} :
      Cleanup id (.createSession s p a) (cleanupSession id s (some p) (.remote a))

inductive CreateOp.Step (e : EntryRef) (cfg : AgentLoop.SessionConfig) (expired : Bool)
    (w : World) : CreateOp → World → List Op → Prop where
  | sandbox : Step e cfg expired w .createSandbox (w.newSandbox e)
      [.create e cfg expired ((w.entries e).placement.afterSandbox w.nSandboxes)]
  | launched {s} : Step e cfg expired w (.launchProcess s) (w.newProcess s)
      [.create e cfg expired (.connect s w.nProcesses)]
  | connected {s p} : Step e cfg expired w (.connect s p) (w.newAgent p)
      [.create e cfg expired (.createSession s p w.nAgents)]
  | created {s p a} : w.answers a = true → Step e cfg expired w (.createSession s p a)
      (w.setAgent a fun v => { v with sessions := v.sessions ++ [(w.entries e).sessionID] })
      [.create e cfg expired (.addSession s (some p) (.remote a))]
  | failed {op err cleanup} : op.Cleanup (w.entries e).sessionID cleanup →
      Step e cfg expired w op w [.create e cfg expired (.abandon err cleanup)]
  | shared {s x loop} :
      (AgentLoop.SvcOp.createSession { cfg with sessionID := (w.entries e).sessionID }).Step
        w.loop x loop [] →
      Step e cfg expired w (.createShared s) { w with loop := loop }
        [.create e cfg expired (.addSession s none .shared)]
  | sharedFailed {s x loop more err} :
      (AgentLoop.SvcOp.createSession { cfg with sessionID := (w.entries e).sessionID }).Step
        w.loop x loop more →
      Step e cfg expired w (.createShared s) { w with loop := loop }
        [.create e cfg expired (.abandon err [.destroySandbox s])]
  | refused {s p svc err} : w.addSessionErr e = some err →
      Step e cfg expired w (.addSession s p svc) (w.setEntry e fun v => v.filled s p svc)
        [.create e cfg expired (.abandon err (cleanupSession (w.entries e).sessionID s p svc))]
  | added {s p svc} : w.addSessionErr e = none → Step e cfg expired w (.addSession s p svc)
      ((w.setEntry e fun v => v.filled s p svc).setOrch
        fun o => { o with sessions := o.sessions ++ [((w.entries e).sessionID, e)] })
      [ret e none]
  | abandon {err cleanup} : Step e cfg expired w (.abandon err cleanup) w
      (cleanup.map (.backend e (.create expired)) ++ [ret e (some err)])

theorem CreateOp.step_of_exec {op : CreateOp} (h : op.exec e cfg expired x w = some (w', more)) :
    op.Step e cfg expired w w' more := by
  cases op with try simp only [exec] at h
  | createSandbox | launchProcess =>
    split at h
    · split at h <;> cases h
      constructor
    · cases h; exact .failed (by constructor)
    · cases h
  | connect s p =>
    split at h <;> cases h
    · exact .connected
    · exact .failed .connect
  | createSession s p a =>
    split at h
    · split at h <;> cases h
      rename_i hcan
      simp only [Bool.or_eq_true, Bool.not_eq_true', not_or, Bool.not_eq_false] at hcan
      exact .created hcan.2
    · cases h; exact .failed .createSession
    · cases h
  | createShared s =>
    split at h
    · cases h; exact .shared (AgentLoop.SvcOp.step_of_exec ‹_›)
    · cases h; exact .sharedFailed (AgentLoop.SvcOp.step_of_exec ‹_›)
    · cases h
  | addSession s p svc => split at h <;> cases h <;> constructor <;> assumption
  | abandon err cleanup => cases h; exact .abandon

/-! ## Entries -/

/-- Calls that may be refused before they lock the entry. -/
def EntryOp.asks : EntryOp → Bool
  | .pause | .resume | .proxy _ => true
  | _ => false

/-- Actions that may leave everything as it is. -/
def EntryOp.looks : EntryOp → Bool
  | .proxy _ | .probe | .verdict => true
  | _ => false

/-- Backend calls after whose failure the entry is unlocked. -/
def EntryOp.mayGiveUp : EntryOp → Bool
  | .pauseSandbox | .resumeSandbox | .relaunch => true
  | _ => false

/-- The stages of a call that has got hold of its entry. -/
def EntryOp.holding : EntryOp → Bool
  | .destroyed | .pauseSandbox | .resumeSandbox | .relaunch | .reconnect _ | .reconnected _ _
  | .unlock => true
  | _ => false

inductive EntryOp.Step (e : EntryRef) (w : World) : EntryOp → World → List Op → Prop where
  | refused {op err} : op.asks = true → Step e w op w [ret e (some err)]
  | skipped {op} : op.looks = true → Step e w op w []
  | destroy {byClose} : (w.entries e).locked = false → Step e w (.destroy byClose)
      (w.setEntry e fun v => { v with locked := true })
      ((w.entries e).teardown.map (.backend e .background) ++ [.entry e .destroyed])
  | destroyed : Step e w .destroyed
      ((w.setEntry e fun v => { v with state := .destroyed, locked := false }).setOrch
        fun o => { o with sessions := o.sessions.filter (·.1 ≠ (w.entries e).sessionID) })
      [ret e none]
  | pause {calls} : (w.entries e).locked = false → (w.entries e).state = .active →
      (w.entries e).abortForPause w.orch.config = .ok calls →
      Step e w .pause (w.setEntry e fun v => { v with locked := true })
        (calls.map (.backend e .background) ++ [.entry e .pauseSandbox])
  | paused {s} : (w.entries e).sandbox = some s → (w.entries e).placement ≠ .agentDirect →
      Step e w .pauseSandbox ((w.setSandbox s fun v => { v with paused := true }).setEntry e
        fun v => { v with state := .paused, locked := false }) [ret e none]
  | pausedDirect {s} : (w.entries e).sandbox = some s →
      (w.entries e).placement = .agentDirect →
      Step e w .pauseSandbox (((w.setSandbox s fun v => { v with paused := true }).setEntry e
        fun v => { v with state := .paused, locked := false }).stopProcesses s) [ret e none]
  | gaveUp {op err} : op.mayGiveUp = true →
      Step e w op (w.setEntry e SessionEntry.unlocked) [ret e (some err)]
  | resume : (w.entries e).locked = false → (w.entries e).state = .paused →
      Step e w .resume (w.setEntry e fun v => { v with locked := true })
        [.entry e .resumeSandbox]
  | resumed {s} : (w.entries e).sandbox = some s → (w.entries e).placement ≠ .agentDirect →
      Step e w .resumeSandbox ((w.setSandbox s fun v => { v with paused := false }).setEntry e
        fun v => v.activated.unlocked) [ret e none]
  | resumedDirect {s} : (w.entries e).sandbox = some s →
      (w.entries e).placement = .agentDirect →
      Step e w .resumeSandbox (w.setSandbox s fun v => { v with paused := false })
        [.entry e .relaunch]
  | relaunched {s} : (w.entries e).sandbox = some s →
      Step e w .relaunch (w.newProcess s) [.entry e (.reconnect w.nProcesses)]
  | reconnect {p svc} : (w.entries e).agentService = some svc →
      Step e w (.reconnect p) (w.newAgent p)
        [.backend e .background (.closeService svc), .entry e (.reconnected p w.nAgents)]
  | connect {p} : (w.entries e).agentService = none → Step e w (.reconnect p) (w.newAgent p)
      [.entry e (.reconnected p w.nAgents)]
  | reconnectFailed {p err} : Step e w (.reconnect p) w
      [.backend e .background (.killProcess p), .entry e .unlock, ret e (some err)]
  | reconnected {p a} : Step e w (.reconnected p a) (w.setEntry e fun v =>
      { v.activated.unlocked with process := some p, agentService := some (.remote a) })
      [ret e none]
  | unlock : Step e w .unlock (w.setEntry e SessionEntry.unlocked) []
  | proxy {req} : (w.entries e).locked = false → (w.entries e).agentService = some .shared →
      Step e w (.proxy req) w [.loop (.svc (req.op (w.entries e).remoteID))]
  | probe : (w.entries e).locked = false → (w.entries e).state.unchecked = false →
      Step e w .probe w [.entry e .verdict]
  | healthy : (w.entries e).locked = false → (w.entries e).state.unchecked = false →
      Step e w .verdict (w.setEntry e SessionEntry.activated) []
  | unhealthy {msg} : (w.entries e).locked = false → (w.entries e).state.unchecked = false →
      Step e w .verdict (w.setEntry e fun v => { v with
        state := .unhealthy, healthFailures := v.healthFailures + 1, healthErr := some msg }) []

theorem EntryOp.step_of_exec {op : EntryOp} (h : op.exec e x w = some (w', more)) :
    op.Step e w w' more := by
  cases op with try simp only [exec] at h
  | destroyed | reconnected | unlock => cases h; constructor
  | destroy byClose =>
    split at h <;> cases h
    exact .destroy (Bool.of_not_eq_true ‹_›)
  | pause =>
    split at h
    · cases h
    · rename_i hl
      split at h
      · cases h; exact .refused rfl
      · rename_i hst
        split at h
        · cases h; exact .refused rfl
        · split at h <;> cases h
          · exact .refused rfl
          · exact .pause (by simpa using hl) (by simpa using hst) ‹_›
  | pauseSandbox =>
    split at h
    · rename_i hs
      by_cases hp : (w.entries e).placement = .agentDirect
      · simp only [hp, if_true] at h
        cases h
        exact .pausedDirect hs hp
      · simp only [hp, if_false] at h
        cases h
        exact .paused hs hp
    · cases h; exact .gaveUp rfl
    · cases h
  | resume =>
    split at h
    · cases h
    · rename_i hl
      split at h
      · cases h; exact .refused rfl
      · rename_i hst
        split at h <;> cases h
        · exact .refused rfl
        · exact .resume (by simpa using hl) (by simpa using hst)
  | resumeSandbox =>
    split at h
    · split at h <;> cases h <;> constructor <;> assumption
    · cases h; exact .gaveUp rfl
    · cases h
  | relaunch =>
    split at h <;> cases h
    · exact .relaunched ‹_›
    · exact .gaveUp rfl
  | reconnect p =>
    split at h
    · split at h <;> cases h <;> constructor <;> assumption
    · cases h; exact .reconnectFailed
    · cases h
  | proxy req =>
    split at h
    · cases h
    · rename_i hl
      split at h
      · cases h; exact .refused rfl
      · split at h <;> cases h
        · exact .refused rfl
        · exact .proxy (by simpa using hl) ‹_›
        · exact .skipped rfl
  | probe =>
    split at h
    · cases h
    · rename_i hl
      split at h <;> cases h
      · exact .skipped rfl
      · exact .probe (by simpa using hl) (Bool.of_not_eq_true ‹_›)
  | verdict =>
    split at h
    · cases h
    · rename_i hl
      split at h
      · cases h; exact .skipped rfl
      · rename_i hu
        split at h <;> cases h
        · exact .healthy (by simpa using hl) (by simpa using hu)
        · exact .unhealthy (by simpa using hl) (by simpa using hu)

/-! ## The orchestrator -/

/-- The calls that `beginOperation` admits, and what they go on with. -/
inductive OrchOp.Begins : OrchOp → OrchOp → Prop where
  | createSession {placement cfg} : Begins (.createSession placement cfg) (.place placement cfg)
  | destroySession {id} : Begins (.destroySession id) (.lookupDestroy id)
  | resumeSession {id cfg log} : Begins (.resumeSession id cfg log) (.lookupResume id cfg log)

/-- The calls that look an entry up, and what they do to it. -/
inductive OrchOp.Finds : OrchOp → String → EntryOp → Prop where
  | destroy {id} : Finds (.lookupDestroy id) id (.destroy false)
  | pause {id} : Finds (.pauseSession id) id .pause
  | resume {id} : Finds (.resumeSessionSandbox id) id .resume
  | proxy {id req} : Finds (.proxy id req) id (.proxy req)
  | resumeSession {id cfg log} :
      Finds (.lookupResume id cfg log) id (.proxy (.resumeSession cfg log))

/-- Calls of clients, which may be refused. -/
def OrchOp.asks : OrchOp → Bool
  | .createSession _ _ | .place _ _ | .destroySession _ | .lookupDestroy _ | .pauseSession _
  | .resumeSessionSandbox _ | .proxy _ _ | .resumeSession _ _ _ | .lookupResume _ _ _ => true
  | _ => false

inductive OrchOp.Step (w : World) : OrchOp → World → List Op → Prop where
  | refused {op err} : op.asks = true → Step w op w [.orch (.ret none (some err))]
  | begun {op op'} : op.Begins op' → w.orch.closing = false →
      Step w op (w.setOrch fun o => { o with wg := o.wg + 1 }) [.orch op', .orch .endOperation]
  | placed {placement cfg} : w.orch.config.configured placement = true →
      Step w (.place (some placement) cfg) (w.newEntry placement)
        [.create w.nEntries cfg false .createSandbox]
  | found {op id eop e} : op.Finds id eop → w.getSessionEntry id = some e →
      Step w op w [.entry e eop]
  | ended : Step w .endOperation (w.setOrch fun o => { o with wg := o.wg - 1 }) []
  | closeAgain : w.orch.closing = true → Step w .close w []
  | close : w.orch.closing = false → Step w .close (w.setOrch fun o => { o with closing := true })
      [.orch .cancelLifecycle, .orch .waitHealth, .orch .waitOperations, .orch .closeSessions]
  | cancelLifecycle : Step w .cancelLifecycle
      (w.setOrch fun o => { o with cancelled := true }) []
  | healthWaited : w.orch.healthDone = true → Step w .waitHealth w []
  | operationsWaited : w.orch.wg = 0 → Step w .waitOperations w []
  | closeSessions : Step w .closeSessions w
      (w.listSessionEntries.map (fun e => .entry e (.destroy true)) ++ [.orch .closeShared])
  | closeShared : Step w .closeShared w [.loop (.svc .close)]
  | noShared : Step w .closeShared w []
  | healthTick : Step w .healthTick w
      (w.listSessionEntries.map (fun e => .entry e .probe) ++ [.orch .healthTick])
  | healthEnd : w.orch.cancelled = true →
      Step w .healthTick (w.setOrch fun o => { o with healthDone := true }) []
  | ret {e err} : Step w (.ret e err) w []

theorem step_of_beginOperation {op : OrchOp} {w : World} (hb : op.Begins op')
    (h : some (w.beginOperation op') = some (w', more)) : op.Step w w' more := by
  unfold World.beginOperation at h
  split at h
  · cases h
    exact .refused (by cases hb <;> rfl)
  · rename_i hc
    cases h; exact .begun hb (by simpa using hc)

theorem step_of_withEntry {op : OrchOp} {id : String} {eop : EntryOp} {w w' : World}
    {more : List Op} (hf : op.Finds id eop) (h : some (w.withEntry id eop) = some (w', more)) :
    op.Step w w' more := by
  unfold World.withEntry at h
  split at h
  · cases h; exact .found hf ‹_›
  · cases h
    exact .refused (by cases hf <;> rfl)

theorem OrchOp.step_of_exec {x : Choice} {op : OrchOp} {w w' : World} {more : List Op}
    (h : op.exec x w = some (w', more)) : op.Step w w' more := by
  cases op with try simp only [exec] at h
  | createSession | destroySession | resumeSession =>
    exact step_of_beginOperation (by constructor) h
  | lookupDestroy | pauseSession | resumeSessionSandbox | proxy =>
    exact step_of_withEntry (by constructor) h
  | place placement cfg =>
    cases placement with
    | none => cases h; exact .refused rfl
    | some placement =>
      simp only [exec] at h
      split at h <;> cases h
      · exact .placed ‹_›
      · exact .refused rfl
  | lookupResume id cfg log =>
    split at h
    · cases h; exact .refused rfl
    · exact step_of_withEntry .resumeSession h
  | endOperation => cases h; exact .ended
  | close =>
    split at h <;> cases h
    · exact .closeAgain ‹_›
    · exact .close (Bool.of_not_eq_true ‹_›)
  | cancelLifecycle => cases h; exact .cancelLifecycle
  | waitHealth =>
    split at h <;> cases h
    exact .healthWaited ‹_›
  | waitOperations =>
    split at h <;> cases h
    exact .operationsWaited ‹_›
  | closeSessions => cases h; exact .closeSessions
  | closeShared =>
    cases h
    split
    · exact .closeShared
    · exact .noShared
  | healthTick =>
    split at h
    · cases h; exact .healthTick
    · split at h <;> cases h
      exact .healthEnd ‹_›
    · cases h
  | ret e err => cases h; exact .ret

/-! ## Any action -/

inductive Step (x : Choice) (w : World) : Op → Outcome World Op → Prop where
  | orch {op w' more} : op.Step w w' more → Step x w (.orch op) ⟨w', more, []⟩
  | expire {e cfg op} : x = .timeout →
      Step x w (.create e cfg false op) ⟨w, [.create e cfg true op], []⟩
  | create {e cfg expired op w' more} : op.Step e cfg expired w w' more → x ≠ .timeout →
      Step x w (.create e cfg expired op) ⟨w', more, []⟩
  | entry {e op w' more} : op.Step e w w' more → Step x w (.entry e op) ⟨w', more, []⟩
  | backend {e ctx call w' more} : call.Step w w' more →
      Step x w (.backend e ctx call) ⟨w', more, []⟩
  | loop {op o} : AgentLoop.Step x w.loop op o → Step x w (.loop op)
      ⟨{ w with loop := o.state }, o.more.map .loop, o.spawn.map (·.map .loop)⟩

theorem plain_eq_some (h : plain r = some o) :
    r = some (o.state, o.more) ∧ o = ⟨o.state, o.more, []⟩ := by
  obtain ⟨⟨w', more⟩, hr, rfl⟩ := Option.map_eq_some_iff.mp h
  exact ⟨hr, rfl⟩

theorem step_of_exec (h : exec x op w = some o) : Step x w op o := by
  cases op with
  | orch op =>
    obtain ⟨hr, ho⟩ := plain_eq_some h
    rw [ho]
    exact .orch (OrchOp.step_of_exec hr)
  | create e cfg expired op =>
    simp only [exec] at h
    split at h
    · split at h
      · cases h
      · rename_i hexp
        cases h
        rw [Bool.not_eq_true] at hexp
        subst hexp
        exact .expire rfl
    · rename_i hne
      obtain ⟨hr, ho⟩ := plain_eq_some h
      rw [ho]
      exact .create (CreateOp.step_of_exec hr) hne
  | entry e op =>
    obtain ⟨hr, ho⟩ := plain_eq_some h
    rw [ho]
    exact .entry (EntryOp.step_of_exec hr)
  | backend e ctx call =>
    obtain ⟨hr, ho⟩ := plain_eq_some h
    rw [ho]
    exact .backend (Backend.step_of_exec hr)
  | loop op =>
    obtain ⟨o', ho', rfl⟩ := Option.map_eq_some_iff.mp h
    exact .loop (AgentLoop.step_of_exec ho')

end FlexAgentRuntime.Orchestrator
