import FlexAgentRuntime.Interleaving.Runs
import Mathlib.Data.List.Nodup

/-!
The agent monitor, `internal/termmux/monitor` (`monitor.go`, `state.go`): the state it reports,
and its subscribers.

`updateState` changes the state in one critical section, or leaves it as it has just read it,
so that an event is one step. A timer that is stopped may have fired already: the idle timer
may fire at any time.
-/

namespace FlexAgentRuntime.Termmux.Monitor

open List

/-! ## The state -/

inductive State where
  | initialized | active | idle | exited
  deriving DecidableEq

inductive SubState where
  | none | thinking | toolUse | waitingForPermission | compacting
  deriving DecidableEq

inductive TransitionEvent where
  | sessionStarted | toolStarted | toolCompleted | approvalRequested | permissionGranted
  | permissionDenied | compactionStarted | compactionCompleted | idleTimeout | activity
  | sessionEnded | processExit

inductive AgentEventType where
  | sessionStarted | sessionEnded | turnCompleted | toolStarted | toolCompleted
  | approvalRequested | permissionGranted | permissionDenied | compactionStarted
  | compactionCompleted | agentMessage | stateChange
  | other (name : String)
  deriving DecidableEq

/-- `transition`; `none` if it is not valid. -/
def transition (current : State) (currentSub : SubState) :
    TransitionEvent → Option (State × SubState)
  | .sessionStarted => if current = .initialized then some (.active, .thinking) else none
  | .toolStarted =>
    if current = .active ∧ (currentSub = .thinking ∨ currentSub = .none) then
      some (.active, .toolUse)
    else none
  | .toolCompleted =>
    if current = .active ∧ currentSub = .toolUse then some (.active, .thinking) else none
  | .approvalRequested =>
    if current = .active ∧ currentSub = .thinking then some (.active, .waitingForPermission)
    else none
  | .permissionGranted =>
    if current = .active ∧ currentSub = .waitingForPermission then some (.active, .toolUse)
    else none
  | .permissionDenied =>
    if current = .active ∧ currentSub = .waitingForPermission then some (.active, .thinking)
    else none
  | .compactionStarted =>
    if current = .active ∧ currentSub = .thinking then some (.active, .compacting) else none
  | .compactionCompleted =>
    if current = .active ∧ currentSub = .compacting then some (.active, .thinking) else none
  | .idleTimeout => if current = .active then some (.idle, .none) else none
  | .activity => if current = .idle then some (.active, .thinking) else none
  | .sessionEnded | .processExit =>
    if current = .active ∨ current = .idle then some (.exited, .none) else none

structure AgentMonitor where
  state : State := .initialized
  subState : SubState := .none

def AgentMonitor.apply (m : AgentMonitor) (te : TransitionEvent) : AgentMonitor :=
  match transition m.state m.subState te with
  | some (newState, newSub) => ⟨newState, newSub⟩
  | none => m

/-- The events that `updateState` has a transition for. -/
def AgentEventType.transition : AgentEventType → Option TransitionEvent
  | .sessionStarted => some .sessionStarted
  | .sessionEnded => some .sessionEnded
  | .toolStarted => some .toolStarted
  | .toolCompleted => some .toolCompleted
  | .approvalRequested => some .approvalRequested
  | .permissionGranted => some .permissionGranted
  | .permissionDenied => some .permissionDenied
  | .compactionStarted => some .compactionStarted
  | .compactionCompleted => some .compactionCompleted
  | _ => none

def AgentMonitor.updateState (m : AgentMonitor) (type : AgentEventType) : AgentMonitor :=
  match type.transition with
  | some te => m.apply te
  | none => if m.state = .idle then m.apply .activity else m

inductive Input where
  | event (type : AgentEventType)
  | idleTimer

def AgentMonitor.next (m : AgentMonitor) : Input → AgentMonitor
  | .event type => m.updateState type
  | .idleTimer => m.apply .idleTimeout

/-- What an input makes of the state. -/
def Reflected (m : AgentMonitor) (input : Input) : Prop :=
  (∀ type, input = .event type → m.state = .active ∨ m.state = .idle →
    (m.next input).state = if type = .sessionEnded then .exited else .active) ∧
  (m.state = .exited → (m.next input).state = .exited)

/-- Every input of a sequence is reflected in the state. -/
def Reflects (m : AgentMonitor) : List Input → Prop
  | [] => True
  | input :: inputs => Reflected m input ∧ Reflects (m.next input) inputs

/-- While the monitor is idle it gets no events with a transition of their own, but for the end
of the session. -/
def wakes (m : AgentMonitor) : List Input → Bool
  | [] => true
  | input :: inputs => (match input with
      | .event type => m.state != .idle || type == .sessionEnded || type.transition.isNone
      | .idleTimer => true) && wakes (m.next input) inputs

theorem reflected_of_wakes (m : AgentMonitor) (h : wakes m (input :: inputs) = true) :
    Reflected m input := by
  simp only [wakes, Bool.and_eq_true] at h
  obtain ⟨state, sub⟩ := m
  refine ⟨?_, ?_⟩
  · rintro type rfl hstate
    have h := h.1
    rcases hstate with rfl | rfl
    · -- every transition from the active state leads back to it
      cases type <;> cases sub <;> rfl
    · cases type <;> first | rfl | cases h
  · rintro rfl
    cases input with
    | idleTimer => rfl
    | event type => cases type <;> rfl

theorem monitor_reflects_activity (m : AgentMonitor) (inputs : List Input)
    (h : wakes m inputs = true) : Reflects m inputs := by
  induction inputs generalizing m with
  | nil => trivial
  | cons input inputs ih =>
    exact ⟨reflected_of_wakes m h, ih _ (Bool.and_eq_true_iff.mp h).2⟩

theorem monitor_reflects_activity_woken :
    Reflects {} [.event .sessionStarted, .idleTimer, .event .agentMessage, .event .toolStarted] :=
  monitor_reflects_activity _ _ rfl

/-- A tool that is started while the monitor is idle leaves it idle. -/
theorem tool_started_while_idle :
    ¬ Reflects {} [.event .sessionStarted, .idleTimer, .event .toolStarted] := by
  rintro ⟨-, -, h, -⟩
  cases h.1 .toolStarted rfl (.inr rfl)

/-! ## Subscribers -/

/-- `ch` is the number of the call of `Subscribe`. -/
structure Subscriber where
  id : Nat
  ch : Nat

/-- The list of subscribers, the IDs that the calls of `Subscribe` have got, which the functions
they returned remember, and the calls whose function was called. -/
structure Subscriptions where
  subscribers : List Subscriber := []
  ids : List Nat := []
  called : List Nat := []

inductive Action where
  | subscribe
  | unsubscribe (ch : Nat)

def Subscriptions.exec : Action → Subscriptions → Option Subscriptions
  | .subscribe, s => some { s with
      subscribers := s.subscribers ++ [⟨s.subscribers.length, s.ids.length⟩]
      ids := s.ids ++ [s.subscribers.length] }
  | .unsubscribe ch, s => s.ids[ch]?.map fun id => { s with
      subscribers := s.subscribers.eraseP (·.id == id)
      called := ch :: s.called }

/-- No subscriber has the ID that a new one gets, or that a function called once more
remembers. -/
def Subscriptions.unused : Action → Subscriptions → Bool
  | .subscribe, s => s.subscribers.all (·.id != s.subscribers.length)
  | .unsubscribe ch, s => ch ∉ s.called || s.subscribers.all fun sub => s.ids[ch]? != some sub.id

/-- The subscribers are those whose function was not called, in order, with different IDs. -/
def Subscriptions.Own (s : Subscriptions) : Prop :=
  s.subscribers.map (·.ch) = (List.range s.ids.length).filter (· ∉ s.called) ∧
    (s.subscribers.map (·.id)).Nodup

structure Subscriptions.Kept (s : Subscriptions) : Prop where
  own : s.Own
  ids : ∀ sub ∈ s.subscribers, s.ids[sub.ch]? = some sub.id
  called : ∀ ch ∈ s.called, ch < s.ids.length

theorem eraseP_eq_filter {l : List Subscriber} (h : (l.map (·.id)).Nodup) (id : Nat) :
    l.eraseP (·.id == id) = l.filter (·.id != id) := by
  induction l with
  | nil => rfl
  | cons sub l ih =>
    simp only [map_cons, nodup_cons, mem_map, not_exists, not_and] at h
    by_cases hid : sub.id = id
    · subst hid
      simpa using (filter_eq_self.mpr fun x hx => by simpa using h.1 x hx).symm
    · simp [hid, ih h.2]

variable {s s' : Subscriptions}

theorem Subscriptions.Kept.subscribe (h : s.Kept) (hm : unused .subscribe s = true)
    (hx : exec .subscribe s = some s') : s'.Kept := by
  cases hx
  have hnew : s.ids.length ∉ s.called := fun hc => Nat.lt_irrefl _ (h.called _ hc)
  simp only [unused, all_eq_true, bne_iff_ne] at hm
  refine ⟨⟨?_, ?_⟩, ?_, ?_⟩
  · simp [range_succ, filter_append, h.own.1, hnew]
  · simpa [nodup_append, h.own.2] using hm
  · intro sub hsub
    rcases mem_append.mp hsub with hsub | hsub
    · have := h.ids sub hsub
      rw [getElem?_append_left (List.getElem?_eq_some_iff.mp this).1, this]
    · simp [mem_singleton.mp hsub]
  · intro ch hc
    have := h.called ch hc
    simp only [length_append]
    omega

theorem Subscriptions.Kept.unsubscribe (h : s.Kept) (hm : unused (.unsubscribe ch) s = true)
    (hx : exec (.unsubscribe ch) s = some s') : s'.Kept := by
  obtain ⟨id, hid, rfl⟩ := Option.map_eq_some_iff.mp hx
  have hlt := (List.getElem?_eq_some_iff.mp hid).1
  -- whoever has the ID is the subscriber of that call
  have hself (sub) (hsub : sub ∈ s.subscribers) : sub.id = id ↔ sub.ch = ch := by
    have hch : sub.ch ∉ s.called := by
      have := mem_map_of_mem (f := (·.ch)) hsub
      rw [h.own.1] at this
      simpa using (mem_filter.mp this).2
    constructor
    · intro heq
      by_cases hc : ch ∈ s.called
      · simp [unused, hc, hid] at hm
        exact absurd heq.symm (hm sub hsub)
      · have hmem : ch ∈ s.subscribers.map (·.ch) := by simp [h.own.1, hc, hlt]
        obtain ⟨sub', hsub', rfl⟩ := mem_map.mp hmem
        have heq' := Option.some.inj (hid.symm.trans (h.ids sub' hsub'))
        rw [inj_on_of_nodup_map h.own.2 hsub hsub' (heq.trans heq')]
    · rintro rfl
      exact Option.some.inj ((h.ids sub hsub).symm.trans hid)
  have herase : s.subscribers.eraseP (·.id == id) = s.subscribers.filter (·.ch != ch) := by
    rw [eraseP_eq_filter h.own.2]
    exact filter_congr fun sub hsub => by simp [bne, hself sub hsub, Bool.beq_eq_decide_eq]
  refine ⟨⟨?_, ?_⟩, ?_, ?_⟩
  · simp only [herase]
    rw [show (fun sub : Subscriber => sub.ch != ch) = (· != ch) ∘ (·.ch) from rfl,
      ← filter_map, h.own.1, filter_filter]
    simp [bne, not_or, Bool.beq_eq_decide_eq]
  · simp only [herase]
    exact h.own.2.sublist (filter_sublist.map _)
  · intro sub hsub
    exact h.ids sub (mem_of_mem_eraseP hsub)
  · exact forall_mem_cons.mpr ⟨hlt, h.called⟩

/-- As long as no ID is given or removed while another subscriber has it, the subscribers are
those whose own function was not called. -/
theorem unsubscribe_own (s : Subscriptions)
    (hr : Interleaving.Runs Subscriptions.exec Subscriptions.unused {} s) : s.Own := by
  have hkept : s.Kept := by
    refine hr.invariant Subscriptions.Kept ⟨⟨rfl, nodup_nil⟩, nofun, nofun⟩ ?_
    rintro (_ | ch) s s' h hm hx
    · exact h.subscribe hm hx
    · exact h.unsubscribe hm hx
  exact hkept.own

theorem unsubscribe_own_last : ∃ s, Interleaving.Runs Subscriptions.exec Subscriptions.unused {} s ∧
    s.ids = [0, 1, 1] ∧ s.Own :=
  Interleaving.Runs.exists_and_of_follow [.subscribe, .subscribe, .unsubscribe 1, .subscribe] fun s hr _ => unsubscribe_own s hr

/-- After the first of two has left, a third one gets the ID of the second; its function then
removes the second. -/
theorem shared_id_removes_other : ∃ s, Interleaving.Runs Subscriptions.exec (fun _ _ => true) {} s ∧
    (s.called = [2, 0] ∧ s.subscribers.map (·.ch) = [2]) ∧ ¬ s.Own :=
  Interleaving.Runs.exists_and_of_follow
    [.subscribe, .subscribe, .unsubscribe 0, .subscribe, .unsubscribe 2] fun s _ hs h => by
      have hmem : 2 ∈ s.subscribers.map (·.ch) := by simp [hs.2]
      simp [h.1, hs.1] at hmem

end FlexAgentRuntime.Termmux.Monitor
