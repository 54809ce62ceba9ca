import FlexAgentRuntime.Sandbox.Steps

/-!
How one session changes in a step of the sandbox host, which session an action is
about, and that these sessions exist.

* `Step.change`: how a session changes;
* `Step.ref_more`: an action goes on with the session it has, or with the one it has
  looked up;
* `Reach.scoped`: the map and the pending actions refer to sessions that exist;
* `Reach.activeTools`: the counter of active tools counts the tool calls in flight.
-/

namespace FlexAgentRuntime.SandboxHost

open Interleaving Config List

variable {w w' : World} {a b : Op} {more : List Op} {s : SessRef} {v : Session}

/-- Action `a` leaves session `s` with the value `v`. -/
inductive Change (w : World) (a : Op) (s : SessRef) (v : Session) : Prop where
  | same : v = w.sess s → Change w a s v
  | entered {req} : a = .tool req (.enter s) → (w.sess s).state = .active →
      (w.sess s).rollingBack = false →
      v = { w.sess s with activeTools := (w.sess s).activeTools + 1 } → Change w a s v
  | finished {req result} : a = .tool req (.finish s result) →
      v = { w.sess s with activeTools := (w.sess s).activeTools - 1 } → Change w a s v
  | listed (turnCount : Nat) (snapshots : List SnapshotEntry) :
      v = { w.sess s with turnCount := turnCount, snapshots := snapshots } → Change w a s v
  | paused {id} : a = .pause id (.set s) → (w.sess s).state = .active →
      v = { w.sess s with state := .paused } → Change w a s v
  | resumed {id} : a = .resume id (.set s) → (w.sess s).state = .paused →
      v = { w.sess s with state := .active } → Change w a s v
  | marked {id} : a = .destroy id (.mark s) → v = { w.sess s with state := .destroying } →
      Change w a s v
  | rolling {id name} : a = .rollback id name (.enter s) → (w.sess s).state = .active →
      (w.sess s).activeTools ≤ 0 → v = { w.sess s with rollingBack := true } → Change w a s v
  | rolledBack {id name} : a = .rollback id name (.finish s none) →
      v = { w.sess s with rollingBack := false }.rolledBack name → Change w a s v
  | rollbackFailed {id name err} : a = .rollback id name (.finish s (some err)) →
      v = { w.sess s with rollingBack := false, state := .failed } → Change w a s v
  | stored : s = w.nSess → v.new → (∃ req op, a = .create req op) → Change w a s v

theorem Change.update (h : Change w a r v) : Change w a s (Function.update w.sess r v s) :=
  update_keeps (Change w a s) (.same rfl) fun heq => heq ▸ h

theorem Step.change (hs : Step w a w' more) (s : SessRef) : Change w a s (w'.sess s) := by
  have hsame : ∀ {w'' : World}, w.SameSessions w'' → Change w a s (w''.sess s) :=
    fun h => .same (congrFun h.1 s)
  cases hs with
  | create hs =>
    cases hs with
    | quiet hsess => exact .same (congrFun hsess s)
    | stored hnew => exact .update (.stored rfl hnew ⟨_, _, rfl⟩)
  | tool hs =>
    cases hs with
    | entered hst hrb => exact .update (.entered rfl hst hrb rfl)
    | snapshotTaken h | snapshotFailed h => exact hsame h
    | recorded => exact .update (.listed _ _ rfl)
    | finished => exact .update (.finished rfl rfl)
    | _ => exact .same rfl
  | pause hs =>
    cases hs with
    | paused hst => exact .update (.paused rfl hst rfl)
    | _ => exact .same rfl
  | resume hs =>
    cases hs with
    | resumed hst => exact .update (.resumed rfl hst rfl)
    | _ => exact .same rfl
  | destroy hs =>
    cases hs with
    | marked => exact .update (.marked rfl rfl)
    | removed h | datasetEnded h => exact hsame h
    | _ => exact .same rfl
  | turn hs =>
    cases hs with
    | snapshotTaken h | snapshotFailed h | snapshotDestroyed h => exact hsame h
    | recorded | cleaned => exact .update (.listed _ _ rfl)
    | _ => exact .same rfl
  | snapshot hs =>
    cases hs with
    | taken h | failed h => exact hsame h
    | recorded => exact .update (.listed _ _ rfl)
    | _ => exact .same rfl
  | rollback hs =>
    cases hs with
    | entered hst ht => exact .update (.rolling rfl hst ht rfl)
    | ended h => exact hsame h
    | finished => exact .update (.rolledBack rfl rfl)
    | failed => exact .update (.rollbackFailed rfl rfl)
    | _ => exact .same rfl
  | ret => exact .same rfl

/-- A rollback that has succeeded changes the list of snapshots and the turn count. -/
theorem Session.rolledBack_eq (v : Session) (name : String) :
    ∃ n l, v.rolledBack name = { v with turnCount := n, snapshots := l } := by
  unfold Session.rolledBack
  split
  · exact ⟨_, _, rfl⟩
  · exact ⟨v.turnCount, v.snapshots, rfl⟩

theorem Change.activeTools (hc : Change w a s v) :
    v.activeTools = (w.sess s).activeTools ∨
      (∃ req, a = .tool req (.enter s) ∧ (w.sess s).state = .active ∧
        (w.sess s).rollingBack = false ∧ v.activeTools = (w.sess s).activeTools + 1) ∨
      (∃ req result, a = .tool req (.finish s result) ∧
        v.activeTools = (w.sess s).activeTools - 1) ∨
      (s = w.nSess ∧ v.activeTools = 0 ∧ ∃ req op, a = .create req op) := by
  cases hc with
  | entered ha hst hrb hv => exact .inr (.inl ⟨_, ha, hst, hrb, hv ▸ rfl⟩)
  | finished ha hv => exact .inr (.inr (.inl ⟨_, _, ha, hv ▸ rfl⟩))
  | stored hn hnew ha => exact .inr (.inr (.inr ⟨hn, hnew.1, ha⟩))
  | @rolledBack _ name _ hv =>
    obtain ⟨n, l, heq⟩ := Session.rolledBack_eq { w.sess s with rollingBack := false } name
    exact .inl (by rw [hv, heq])
  | listed n l hv | same hv | paused _ _ hv | resumed _ _ hv | marked _ hv | rolling _ _ _ hv
  | rollbackFailed _ hv =>
    exact .inl (hv ▸ rfl)

theorem Change.state (hc : Change w a s v) :
    v.state = (w.sess s).state ∨
      (∃ id, a = .pause id (.set s) ∧ (w.sess s).state = .active ∧ v.state = .paused) ∨
      (∃ id, a = .resume id (.set s) ∧ (w.sess s).state = .paused ∧ v.state = .active) ∨
      (∃ id, a = .destroy id (.mark s) ∧ v.state = .destroying) ∨
      (∃ id name err, a = .rollback id name (.finish s (some err)) ∧ v.state = .failed) ∨
      (s = w.nSess ∧ (v.state = .creating ∨ v.state = .active) ∧ ∃ req op, a = .create req op) := by
  cases hc with
  | paused ha hst hv => exact .inr (.inl ⟨_, ha, hst, hv ▸ rfl⟩)
  | resumed ha hst hv => exact .inr (.inr (.inl ⟨_, ha, hst, hv ▸ rfl⟩))
  | marked ha hv => exact .inr (.inr (.inr (.inl ⟨_, ha, hv ▸ rfl⟩)))
  | rollbackFailed ha hv =>
    exact .inr (.inr (.inr (.inr (.inl ⟨_, _, _, ha, hv ▸ rfl⟩))))
  | stored hn hnew ha =>
    exact .inr (.inr (.inr (.inr (.inr ⟨hn, hnew.2.2.2.2, ha⟩))))
  | @rolledBack _ name _ hv =>
    obtain ⟨n, l, heq⟩ := Session.rolledBack_eq { w.sess s with rollingBack := false } name
    exact .inl (by rw [hv, heq])
  | same hv | entered _ _ _ hv | finished _ hv | listed n l hv | rolling _ _ _ hv =>
    exact .inl (hv ▸ rfl)

theorem Change.rollingBack (hc : Change w a s v) :
    v.rollingBack = (w.sess s).rollingBack ∨
      (∃ id name, a = .rollback id name (.enter s) ∧ (w.sess s).state = .active ∧
        (w.sess s).activeTools ≤ 0 ∧ v.rollingBack = true) ∨
      (∃ id name err, a = .rollback id name (.finish s err) ∧ v.rollingBack = false) ∨
      (s = w.nSess ∧ v.rollingBack = false ∧ ∃ req op, a = .create req op) := by
  cases hc with
  | rolling ha hst ht hv => exact .inr (.inl ⟨_, _, ha, hst, ht, hv ▸ rfl⟩)
  | @rolledBack _ name ha hv =>
    obtain ⟨n, l, heq⟩ := Session.rolledBack_eq { w.sess s with rollingBack := false } name
    exact .inr (.inr (.inl ⟨_, _, _, ha, by rw [hv, heq]⟩))
  | rollbackFailed ha hv => exact .inr (.inr (.inl ⟨_, _, _, ha, hv ▸ rfl⟩))
  | stored hn hnew ha => exact .inr (.inr (.inr ⟨hn, hnew.2.1, ha⟩))
  | same hv | entered _ _ _ hv | finished _ hv | listed n l hv | paused _ _ hv | resumed _ _ hv
  | marked _ hv =>
    exact .inl (hv ▸ rfl)

/-! ## References -/

/-- The session an action is about. -/
def Op.ref : Op → Option SessRef
  | .tool _ (.checkActive s) | .tool _ (.enter s) | .tool _ (.run s) | .tool _ (.snapshot s _)
  | .tool _ (.snapshotEnd s _ _) | .tool _ (.record s _ _) | .tool _ (.finish s _) => some s
  | .pause _ (.checkActive s) | .pause _ (.wait s) | .pause _ (.set s) => some s
  | .resume _ (.set s) => some s
  | .destroy _ (.mark s) | .destroy _ (.wait s) | .destroy _ (.dataset s)
  | .destroy _ (.datasetEnd s) | .destroy _ (.delete s) => some s
  | .turn _ (.check s) | .turn _ (.snapshot s _ _) | .turn _ (.snapshotEnd s _ _)
  | .turn _ (.record s _ _) | .turn _ (.cleanup s) | .turn _ (.destroySnapshots s _) => some s
  | .snapshot _ _ (.call s) | .snapshot _ _ (.callEnd s) | .snapshot _ _ (.record s) => some s
  | .rollback _ _ (.enter s) | .rollback _ _ (.call s) | .rollback _ _ (.callEnd s)
  | .rollback _ _ (.finish s _) => some s
  | _ => none

/-- The request an action belongs to. -/
inductive Request where
  | create (req : CreateSessionRequest)
  | tool (req : ExecuteToolRequest)
  | pause (id : String)
  | resume (id : String)
  | destroy (id : String)
  | turn (id : String)
  | snapshot (id name : String)
  | rollback (id snapshotID : String)
  | ret
  deriving DecidableEq, Repr

def Op.request : Op → Request
  | .create req _ => .create req
  | .tool req _ => .tool req
  | .pause id _ => .pause id
  | .resume id _ => .resume id
  | .destroy id _ => .destroy id
  | .turn id _ => .turn id
  | .snapshot id name _ => .snapshot id name
  | .rollback id name _ => .rollback id name
  | .ret _ => .ret

/-- The id of the session a request asks for. -/
def Request.session : Request → Option String
  | .tool req => some req.sessionID
  | .pause id | .resume id | .destroy id | .turn id | .snapshot id _ | .rollback id _ => some id
  | .create _ | .ret => none

theorem CreateOp.Step.goes (hs : CreateOp.Step w req op w' more) : CreateOp.Goes req more := by
  cases hs with
  | quiet _ _ _ _ h | stored _ h => exact h

theorem Step.ref_more (hs : Step w a w' more) (hb : b ∈ more) (hr : b.ref = some s) :
    a.ref = some s ∨ ∃ id, a.request.session = some id ∧ w.getSession id = some s := by
  have hkeep : ∀ {b' : Op}, b ∈ [b'] → b'.ref = a.ref ∨ b'.ref = none → a.ref = some s := by
    intro b' hb h
    cases mem_singleton.mp hb
    rcases h with h | h
    · exact h.symm.trans hr
    · cases h.symm.trans hr
  have hfound : ∀ {b' : Op} {id : String} {s' : SessRef}, b ∈ [b'] → b'.ref = some s' →
      a.request.session = some id → w.getSession id = some s' →
      ∃ id, a.request.session = some id ∧ w.getSession id = some s := by
    intro b' id s' hb h hid hf
    cases mem_singleton.mp hb
    cases h.symm.trans hr
    exact ⟨id, hid, hf⟩
  cases hs with
  | create hs =>
    obtain ⟨b', rfl, ⟨op, rfl⟩ | ⟨r, rfl⟩⟩ := hs.goes <;> exact .inl (hkeep hb (.inr rfl))
  | tool hs =>
    cases hs with
    | found hf => exact .inr (hfound hb rfl rfl hf)
    | ret => cases hb
    | _ => exact .inl (hkeep hb (by simp [Op.ref]))
  | pause hs | resume hs | destroy hs | snapshot hs | rollback hs =>
    cases hs with
    | found hf => exact .inr (hfound hb rfl rfl hf)
    | _ => exact .inl (hkeep hb (by simp [Op.ref]))
  | turn hs =>
    cases hs with
    | found hf => exact .inr (hfound hb rfl rfl hf)
    | recorded =>
      unfold TurnOp.after at hb
      rcases mem_append.mp hb with hb | hb
      · split at hb
        · exact .inl (hkeep hb (.inl rfl))
        · cases hb
      · exact .inl (hkeep hb (.inr rfl))
    | kept | cleanedUp => cases hb
    | _ => exact .inl (hkeep hb (by simp [Op.ref]))
  | ret => cases hb

theorem Step.map_cases (hs : Step w a w' more) :
    (∃ req op, a = .create req op) ∨ (∃ id r, a = .destroy id (.delete r)) ∨
      (w'.sessions = w.sessions ∧ w'.nSess = w.nSess ∧ w'.config = w.config) := by
  have hsame : ∀ {w'' : World}, w.SameSessions w'' →
      w''.sessions = w.sessions ∧ w''.nSess = w.nSess ∧ w''.config = w.config :=
    fun h => ⟨h.2.2.1, h.2.1, h.2.2.2⟩
  cases hs with
  | create hs => exact .inl ⟨_, _, rfl⟩
  | destroy hs =>
    cases hs with
    | removed h | datasetEnded h => exact .inr (.inr (hsame h))
    | deleted => exact .inr (.inl ⟨_, _, rfl⟩)
    | _ => exact .inr (.inr ⟨rfl, rfl, rfl⟩)
  | tool hs | pause hs | resume hs | turn hs | snapshot hs | rollback hs =>
    cases hs
    all_goals first
      | exact .inr (.inr ⟨rfl, rfl, rfl⟩)
      | exact .inr (.inr (hsame ‹_›))
  | ret => exact .inr (.inr ⟨rfl, rfl, rfl⟩)

theorem Step.sessions (hs : Step w a w' more) :
    (w'.nSess = w.nSess ∧ ∀ q ∈ w'.sessions, q ∈ w.sessions) ∨
      (w'.nSess = w.nSess + 1 ∧ ∀ q ∈ w'.sessions, q ∈ w.sessions ∨ q.2 = w.nSess) := by
  rcases hs.map_cases with ⟨req, op, rfl⟩ | ⟨id, r, rfl⟩ | ⟨hmap, hn, -⟩
  · obtain ⟨hs⟩ := hs
    cases hs with
    | quiet _ hn _ hsess =>
      refine .inl ⟨hn, fun q hq => ?_⟩
      rcases hsess with hsess | ⟨id, hsess⟩
      · exact hsess ▸ hq
      · rw [hsess] at hq
        exact (mem_filter.mp hq).1
    | stored =>
      refine .inr ⟨rfl, fun q hq => ?_⟩
      rcases mem_concat.mp hq with hq | rfl
      · exact .inl (mem_filter.mp hq).1
      · exact .inr rfl
  · cases hs with
    | destroy hs =>
      cases hs with
      | deleted => exact .inl ⟨rfl, fun q hq => (mem_filter.mp hq).1⟩
      | returned => exact .inl ⟨rfl, fun _ hq => hq⟩
  · exact .inl ⟨hn, fun q hq => hmap ▸ hq⟩

theorem getSession_some {id : String} (h : w.getSession id = some s) : (id, s) ∈ w.sessions := by
  obtain ⟨q, hq, rfl⟩ := Option.map_eq_some_iff.mp h
  have hid := List.find?_some hq
  have hmem := mem_of_find?_eq_some hq
  simp only [decide_eq_true_eq] at hid
  rw [← hid]
  exact hmem

/-- The sessions in the map and those that pending actions are about exist. -/
structure Scoped (c : Config World Op) : Prop where
  map : ∀ q ∈ c.state.sessions, q.2 < c.state.nSess
  ops : ∀ b, c.Pend b → ∀ s ∈ b.ref, s < c.state.nSess

variable {c : Config World Op} {i : Nat} {rest : List Op} {x : Choice} {o : Outcome World Op}

theorem Scoped.initial (config : ServiceConfig) (zfs : Zfs) : Scoped (initialConfig config zfs) :=
  ⟨nofun, fun _ hb => by obtain ⟨_, hth, -⟩ := hb; cases hth⟩

theorem Step.nSess_le (hs : Step w a w' more) : w.nSess ≤ w'.nSess := by
  rcases hs.sessions with ⟨hn, -⟩ | ⟨hn, -⟩ <;> omega

theorem Scoped.step (h : Scoped c) (ht : c.At i a rest)
    (hx : exec x a c.state = some o) : Scoped (c.advance i rest o) := by
  obtain ⟨hs, hspawn⟩ := step_of_exec hx
  refine ⟨fun q hq => ?_, fun b hb s hr => ?_⟩
  · rcases hs.sessions with ⟨hn, hmap⟩ | ⟨hn, hmap⟩
    · exact hn.symm ▸ h.map q (hmap q hq)
    · change q.2 < o.state.nSess
      rw [hn]
      rcases hmap q hq with hq | hq
      · exact Nat.lt_succ_of_lt (h.map q hq)
      · exact hq ▸ Nat.lt_succ_self _
  · refine lt_of_lt_of_le ?_ hs.nSess_le
    rcases hb.of_advance_nil ht hspawn with hb | hb
    · exact h.ops b hb s hr
    · rcases hs.ref_more hb hr with ha | ⟨id, -, hid⟩
      · exact h.ops a (pend_head ht) s ha
      · exact h.map _ (getSession_some hid)

theorem apiEntry_ref (h : apiEntry w a = true) : a.ref = none := by
  unfold apiEntry at h
  split at h
  all_goals first
    | rfl
    | cases h

theorem Reach.scoped (hr : Reach machine N h₀ (initialConfig config zfs) h c) : Scoped c := by
  refine hr.invariant (fun _ c => Scoped c) (Scoped.initial config zfs) ?_ ?_
  · intro _ c a ih he
    refine ⟨ih.map, forall_pend_call ih.ops fun s hs => ?_⟩
    rw [apiEntry_ref (w := c.state) he] at hs
    cases hs
  · intro _ c i a rest x o ih ht hx _
    exact ih.step ht hx

/-! ## Requests and the tools in flight -/

/-- The tool call in session `s` has been let in and has not returned. -/
def Op.inTool (s : SessRef) : Op → Bool
  | .tool _ (.run r) | .tool _ (.snapshot r _) | .tool _ (.snapshotEnd r _ _)
  | .tool _ (.record r _ _) | .tool _ (.finish r _) => r == s
  | _ => false

theorem Step.request_more (hs : Step w a w' more) (hb : b ∈ more) :
    b.request = a.request ∨ ∃ r, b = .ret r := by
  cases hs with
  | create hs =>
    obtain ⟨b', rfl, ⟨op, rfl⟩ | ⟨r, rfl⟩⟩ := hs.goes
    · cases mem_singleton.mp hb
      exact .inl rfl
    · exact .inr ⟨r, mem_singleton.mp hb⟩
  | tool hs =>
    cases hs with
    | ret => cases hb
    | _ =>
      cases mem_singleton.mp hb
      exact .inl rfl
  | turn hs =>
    cases hs with
    | recorded =>
      rcases mem_concat.mp hb with hb | hb
      · split at hb
        · cases mem_singleton.mp hb
          exact .inl rfl
        · cases hb
      · exact .inr ⟨_, hb⟩
    | kept | cleanedUp => cases hb
    | _ =>
      cases mem_singleton.mp hb
      first
        | exact .inl rfl
        | exact .inr ⟨_, rfl⟩
  | ret => cases hb
  | pause hs | resume hs | destroy hs | snapshot hs | rollback hs =>
    cases hs
    all_goals
      cases mem_singleton.mp hb
      first
        | exact .inl rfl
        | exact .inr ⟨_, rfl⟩

theorem Op.inTool_tool (h : a.inTool s = true) : ∃ req op, a = .tool req op := by
  cases a with
  | tool req op => exact ⟨req, op, rfl⟩
  | _ => cases h

/-- The balance of a step: a tool call that is let in raises the counter, one that
returns lowers it. -/
theorem Step.inTool (hs : Step w a w' more) (s : SessRef) :
    (w'.sess s).activeTools + (if a.inTool s then 1 else 0) =
        (w.sess s).activeTools + more.countP (Op.inTool s) ∨
      (s = w.nSess ∧ (w'.sess s).activeTools = 0 ∧ a.inTool s = false ∧
        more.countP (Op.inTool s) = 0) := by
  by_cases htool : ∃ req op, a = .tool req op
  · obtain ⟨req, op, rfl⟩ := htool
    left
    cases hs with
    | tool hs =>
    cases hs with
    | @entered r hst hrb | @finished r | @recorded r =>
      by_cases hr : r = s
      · subst hr
        simp [World.setSess, Op.inTool]
      · have hne : s ≠ r := fun h => hr h.symm
        simp [World.setSess, Op.inTool, hr, Function.update_of_ne hne]
    | snapshotTaken h | snapshotFailed h => simp [Op.inTool, h.1, countP_cons]
    | @refused op _ hop => cases op <;> first | (simp [Op.inTool]; done) | cases hop
    | _ => simp [Op.inTool, countP_cons]
  · have ha : a.inTool s = false := Bool.eq_false_iff.mpr fun h => htool (Op.inTool_tool h)
    have hmore : more.countP (Op.inTool s) = 0 := by
      refine countP_eq_zero.mpr fun b hb hin => ?_
      obtain ⟨req, op, rfl⟩ := Op.inTool_tool hin
      rcases hs.request_more hb with h | ⟨r, h⟩
      · cases a with
        | tool req op => exact htool ⟨req, op, rfl⟩
        | _ => cases h
      · cases h
    rcases (hs.change s).activeTools with h | ⟨req, h, -⟩ | ⟨req, result, h, -⟩ | ⟨hn, h, -⟩
    · exact .inl (by simp [ha, hmore, h])
    · exact absurd ⟨req, _, h⟩ htool
    · exact absurd ⟨req, _, h⟩ htool
    · exact .inr ⟨hn, h, ha, hmore⟩

theorem Op.inTool_ref (h : a.inTool s = true) : a.ref = some s := by
  obtain ⟨req, op, rfl⟩ := Op.inTool_tool h
  cases op <;> simp_all [Op.inTool, Op.ref]

theorem Scoped.pending_inTool (h : Scoped c) (hn : c.state.nSess ≤ s) :
    c.pending (Op.inTool s) = 0 := by
  refine pending_none fun b hb hin => ?_
  exact absurd (h.ops b hb s (Op.inTool_ref hin)) (not_lt.mpr hn)

theorem apiEntry_inTool (h : apiEntry w a = true) (s : SessRef) : a.inTool s = false := by
  refine Bool.eq_false_iff.mpr fun hin => ?_
  have hr := Op.inTool_ref hin
  rw [apiEntry_ref h] at hr
  cases hr

theorem Reach.activeTools (hr : Reach machine N h₀ (initialConfig config zfs) h c) (s : SessRef) :
    (c.state.sess s).activeTools = c.pending (Op.inTool s) := by
  refine hr.invariant_of_reach
    (fun _ c => (c.state.sess s).activeTools = (c.pending (Op.inTool s) : Int)) rfl ?_ ?_
  · intro _ c a _ ih he
    rw [pending_call, apiEntry_inTool (w := c.state) he s]
    exact ih
  · intro _ c i a rest x o hr ih ht hx _
    obtain ⟨hs, hspawn⟩ := step_of_exec hx
    have hbal := pending_advance_nil (Op.inTool s) ht hspawn
    change (o.state.sess s).activeTools = _
    rcases hs.inTool s with h | ⟨hn, hz, ha, hm⟩
    · split at h <;> split at hbal <;> first | contradiction | omega
    · -- a session that has just been built has no tool call yet
      have hnone := (Reach.scoped hr).pending_inTool (s := s) (le_of_eq hn.symm)
      rw [ha, hm, hnone] at hbal
      rw [hz]
      simp only [Bool.false_eq_true, if_false] at hbal
      omega

end FlexAgentRuntime.SandboxHost
