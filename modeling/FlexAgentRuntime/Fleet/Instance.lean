import Mathlib.Algebra.Order.Ring.Int

/-!
`ManagedInstance` and its state machine (`fleet/instance_state.go`).

A managed instance carries a lifecycle state and the number of session slots in
use. `claimSession` and `releaseSession` change the pair together; `transitionTo`
changes the state along `validTransitions` only.

* `ManagedInstance.claimSession_eq_ok`, `ManagedInstance.releaseSession_eq_ok`,
  `ManagedInstance.transitionTo_eq_ok`: what a successful call has checked and done.
-/

namespace FlexAgentRuntime.Fleet

inductive InstanceState where
  | provisioning | ready | active | draining | terminating
  deriving DecidableEq, Repr

inductive DrainReason where
  | health | scaleDown | shutdown
  deriving DecidableEq, Repr

/-- A reading of the clock, or a duration. The zero `time.Time` is `none`. -/
abbrev Time := Nat

inductive FleetError where
  | noCapacity
  | fleetClosed
  | instanceNotFound (instanceID : String)
  | invalidStateTransition (state newState : InstanceState) (instanceID : String)
  | recoveryNotPermitted (reason : Option DrainReason) (instanceID : String)
  | instanceDraining (instanceID : String) (state : InstanceState)
  | atCapacity (instanceID : String) (sessionCount : Int) (maxSessions : Nat)
  | sessionCountZero (instanceID : String)
  | invalidComponents (instanceID sessionID : String)
  | instanceIDColon (instanceID : String)
  | missingPrefix (sandboxID : String)
  | missingSeparator (sandboxID : String)
  | emptyComponent (sandboxID : String)
  | encodeSandboxID (err : FleetError)
  | rpc
  deriving DecidableEq, Repr

structure ManagedInstance where
  instanceID : String
  state : InstanceState
  sessionCount : Int := 0
  maxSessions : Nat
  consecutiveHealthSuccesses : Nat := 0
  consecutiveHealthFailures : Nat := 0
  drainReason : Option DrainReason := none
  idleSince : Option Time := none
  provisionStarted : Option Time := none
  drainStarted : Option Time := none
  terminateRetries : Nat := 0
  deriving DecidableEq, Repr

def validTransitions : InstanceState → InstanceState → Bool
  | .provisioning, .ready => true
  | .provisioning, .terminating => true
  | .ready, .active => true
  | .ready, .draining => true
  | .active, .ready => true
  | .active, .draining => true
  | .draining, .ready => true
  | .draining, .terminating => true
  | _, _ => false

/-- The states in which new sessions are routed to an instance. -/
def InstanceState.routable : InstanceState → Bool
  | .ready | .active => true
  | _ => false

namespace ManagedInstance

def transitionTo (mi : ManagedInstance) (newState : InstanceState) :
    Except FleetError ManagedInstance :=
  if !validTransitions mi.state newState then
    .error (.invalidStateTransition mi.state newState mi.instanceID)
  else if mi.state = .draining ∧ newState = .ready ∧ mi.drainReason ≠ some .health then
    .error (.recoveryNotPermitted mi.drainReason mi.instanceID)
  else .ok { mi with state := newState }

def claimSession (mi : ManagedInstance) : Except FleetError ManagedInstance :=
  if !mi.state.routable then .error (.instanceDraining mi.instanceID mi.state)
  else if mi.sessionCount ≥ mi.maxSessions then
    .error (.atCapacity mi.instanceID mi.sessionCount mi.maxSessions)
  else if mi.state = .ready then
    .ok { mi with sessionCount := mi.sessionCount + 1, state := .active, idleSince := none }
  else .ok { mi with sessionCount := mi.sessionCount + 1 }

def releaseSession (mi : ManagedInstance) (now : Time) : Except FleetError ManagedInstance :=
  if mi.sessionCount ≤ 0 then .error (.sessionCountZero mi.instanceID)
  else if mi.sessionCount - 1 = 0 ∧ mi.state = .active then
    .ok { mi with sessionCount := mi.sessionCount - 1, state := .ready, idleSince := some now }
  else .ok { mi with sessionCount := mi.sessionCount - 1 }

variable {mi mi' : ManagedInstance}

theorem transitionTo_eq_ok (h : mi.transitionTo newState = .ok mi') :
    validTransitions mi.state newState = true ∧
      (mi.state = .draining → newState = .ready → mi.drainReason = some .health) ∧
      mi' = { mi with state := newState } := by
  unfold transitionTo at h
  split at h
  · cases h
  · rename_i hv
    split at h
    · cases h
    · rename_i hr
      cases h
      refine ⟨by simpa using hv, fun hd hn => ?_, rfl⟩
      by_contra hne
      exact hr ⟨hd, hn, hne⟩

theorem claimSession_eq_ok (h : mi.claimSession = .ok mi') :
    mi.state.routable = true ∧ mi.sessionCount < mi.maxSessions ∧
      mi' = { mi with
        sessionCount := mi.sessionCount + 1
        state := .active
        idleSince := if mi.state = .ready then none else mi.idleSince } := by
  unfold claimSession at h
  split at h
  · cases h
  · rename_i hs
    split at h
    · cases h
    · rename_i hc
      have hr : mi.state.routable = true := by simpa using hs
      refine ⟨hr, by omega, ?_⟩
      split at h
      · rename_i hready
        cases h
        rw [if_pos hready]
      · rename_i hready
        cases h
        have ha : mi.state = .active := by
          revert hr hready
          cases mi.state <;> simp [InstanceState.routable]
        rw [if_neg hready, ← ha]

theorem releaseSession_eq_ok (h : mi.releaseSession now = .ok mi') :
    0 < mi.sessionCount ∧ mi'.sessionCount = mi.sessionCount - 1 ∧
      mi'.instanceID = mi.instanceID ∧ mi'.maxSessions = mi.maxSessions ∧
      (mi'.state = mi.state ∧ (mi.sessionCount ≠ 1 ∨ mi.state ≠ .active) ∨
        mi.sessionCount = 1 ∧ mi.state = .active ∧ mi'.state = .ready) := by
  unfold releaseSession at h
  split at h
  · cases h
  · rename_i hc
    refine ⟨by omega, ?_⟩
    split at h
    · rename_i hlast
      cases h
      exact ⟨rfl, rfl, rfl, .inr ⟨by omega, hlast.2, rfl⟩⟩
    · rename_i hlast
      cases h
      refine ⟨rfl, rfl, rfl, .inl ⟨rfl, ?_⟩⟩
      by_cases h1 : mi.sessionCount = 1
      · exact .inr fun ha => hlast ⟨by omega, ha⟩
      · exact .inl h1

end ManagedInstance

end FlexAgentRuntime.Fleet
