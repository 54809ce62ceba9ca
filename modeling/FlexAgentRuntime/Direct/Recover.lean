import Mathlib.Data.List.Nodup

/-!
Sandbox identity across a restart of the direct backend
(`internal/sandbox/control/direct`: `create.go`, `recover.go`, `sandbox_id.go`).

`CreateSandbox` returns the ID `direct:` with the instance ID behind it. `Recover` makes the IDs
anew from the tags of the instances, into which the labels of the callers have been merged, and
prefers the tag `flex-sandbox-id`.

* `recover_restores_identity`: every instance is found under its own ID, where no caller has set
  that tag;
* `label_takes_identity`: otherwise it is found under another, and the operations on that one
  disagree about the instance.
-/

namespace FlexAgentRuntime.Direct

open List

/-- Maps of strings; a missing key reads as the empty string. -/
abbrev Tags := String → Option String

def sandboxIDPrefix : List Char := "direct:".toList

def encodeSandboxID (instanceID : List Char) : List Char := sandboxIDPrefix ++ instanceID

def parseSandboxID (sandboxID : List Char) : Option (List Char) :=
  if sandboxIDPrefix.isPrefixOf sandboxID && sandboxID.drop 7 != [] then some (sandboxID.drop 7)
  else none

def mergeCreateTags (base labels : Tags) : Tags :=
  Function.update (Function.update (fun k => (labels k).or (base k)) "ManagedBy"
    (some "flex-agent-runtime")) "adapter" (some "direct")

/-- `InstanceInfo`, as `ListInstances` returns it for a running or stopped instance. -/
structure InstanceInfo where
  instanceID : List Char
  tags : Tags
  running : Bool

structure InstanceState where
  instanceID : List Char
  running : Bool

def recoverSandboxID (info : InstanceInfo) : List Char :=
  let id := ((info.tags "flex-sandbox-id").getD "").toList
  if id = [] then encodeSandboxID info.instanceID
  else if sandboxIDPrefix.isPrefixOf id then id
  else encodeSandboxID id

abbrev Instances := List Char → Option InstanceState

/-- The loop body of `Recover`. -/
def recoverInfo (d : Instances) (info : InstanceInfo) : Instances :=
  if info.instanceID = [] then d
  else Function.update d (recoverSandboxID info) (some ⟨info.instanceID, info.running⟩)

/-- `Recover` on what `ListInstances` returns. -/
def recover (infos : List InstanceInfo) : Instances := infos.foldl recoverInfo fun _ => none

inductive Operation where
  | launchProcess | killProcess | getProcessStatus | pauseSandbox | resumeSandbox | destroySandbox

/-- Whether the operation uses the instance ID that is stored, or the one in the sandbox ID. -/
def Operation.usesStored : Operation → Bool
  | .launchProcess | .killProcess | .getProcessStatus => false
  | .pauseSandbox | .resumeSandbox | .destroySandbox => true

/-- The instance that an operation on a sandbox acts on, if it comes to that. -/
def Operation.actsOn (op : Operation) (d : Instances) (sandboxID : List Char) : Option (List Char) :=
  match parseSandboxID sandboxID, d sandboxID with
  | some instanceID, some st =>
    some (if op.usesStored && st.instanceID != [] then st.instanceID else instanceID)
  | _, _ => none

/-- An instance that `CreateSandbox` has launched, and that is running or stopped. -/
structure Launched where
  instanceID : List Char
  labels : Tags
  running : Bool

def Launched.info (base : Tags) (l : Launched) : InstanceInfo :=
  ⟨l.instanceID, mergeCreateTags base l.labels, l.running⟩

/-- What `CreateSandbox` has returned for it. -/
def Launched.sandboxID (l : Launched) : List Char := encodeSandboxID l.instanceID

/-- No caller and no configuration has set the tag. -/
def Launched.Untagged (base : Tags) (l : Launched) : Prop :=
  (((l.info base).tags "flex-sandbox-id").getD "").toList = []

variable {base : Tags} {launched : List Launched} {d : Instances}

theorem parse_encode {id : List Char} (h : id ≠ []) :
    parseSandboxID (encodeSandboxID id) = some id := by
  simp [parseSandboxID, encodeSandboxID, sandboxIDPrefix, h]

/-- Every entry is under the ID of its instance. -/
def Keyed (d : Instances) : Prop :=
  ∀ s st, d s = some st → s = encodeSandboxID st.instanceID ∧ st.instanceID ≠ []

theorem recoverInfo_untagged {l : Launched} (hne : l.instanceID ≠ []) (hu : l.Untagged base) :
    recoverInfo d (l.info base) =
      Function.update d l.sandboxID (some ⟨l.instanceID, l.running⟩) := by
  have hid : recoverSandboxID (l.info base) = l.sandboxID := if_pos hu
  rw [← hid]
  exact if_neg hne

theorem keyed_foldl (hne : ∀ l ∈ launched, l.instanceID ≠ []) (hu : ∀ l ∈ launched, l.Untagged base)
    (hd : Keyed d) : Keyed ((launched.map (·.info base)).foldl recoverInfo d) ∧
      ∀ s, (d s).isSome = true ∨ (∃ l ∈ launched, s = l.sandboxID) →
        ((launched.map (·.info base)).foldl recoverInfo d s).isSome = true := by
  induction launched generalizing d with
  | nil => simpa using hd
  | cons l launched ih =>
    obtain ⟨hnel, hne⟩ := forall_mem_cons.mp hne
    obtain ⟨hul, hu⟩ := forall_mem_cons.mp hu
    rw [map_cons, foldl_cons, recoverInfo_untagged hnel hul]
    obtain ⟨hkeyed, hsome⟩ := ih hne hu
        (d := Function.update d l.sandboxID (some ⟨l.instanceID, l.running⟩)) <| by
      intro s st hst
      by_cases hs : s = l.sandboxID
      · subst hs
        rw [Function.update_self] at hst
        cases hst
        exact ⟨rfl, hnel⟩
      · rw [Function.update_of_ne hs] at hst
        exact hd s st hst
    refine ⟨hkeyed, fun s hs => hsome s ?_⟩
    by_cases hl : s = l.sandboxID
    · exact .inl (by rw [hl, Function.update_self]; rfl)
    · rw [Function.update_of_ne hl]
      refine hs.imp_right fun ⟨l', hmem, hs'⟩ => ?_
      rcases mem_cons.mp hmem with rfl | hmem
      · exact absurd hs' hl
      · exact ⟨l', hmem, hs'⟩

/-- After `Recover` every running or stopped instance is under the sandbox ID that
`CreateSandbox` has returned for it, different instances have different IDs, and every operation
on a recovered sandbox acts on its instance. -/
theorem recover_restores_identity (hne : ∀ l ∈ launched, l.instanceID ≠ [])
    (hu : ∀ l ∈ launched, l.Untagged base) :
    (∀ l ∈ launched, ∃ st, recover (launched.map (·.info base)) l.sandboxID = some st ∧
      st.instanceID = l.instanceID) ∧
    (∀ l ∈ launched, ∀ l' ∈ launched, l.instanceID ≠ l'.instanceID → l.sandboxID ≠ l'.sandboxID) ∧
    ∀ s st, recover (launched.map (·.info base)) s = some st → ∀ op : Operation,
      op.actsOn (recover (launched.map (·.info base))) s = some st.instanceID := by
  obtain ⟨hkeyed, hsome⟩ := keyed_foldl (d := fun _ => none) hne hu fun _ _ h => by cases h
  refine ⟨fun l hl => ?_, fun l _ l' _ hid hs => hid (append_cancel_left hs), fun s st hst op => ?_⟩
  · obtain ⟨st, hst⟩ := Option.isSome_iff_exists.mp (hsome _ (.inr ⟨l, hl, rfl⟩))
    exact ⟨st, hst, (append_cancel_left (hkeyed _ st hst).1).symm⟩
  · obtain ⟨rfl, hnil⟩ := hkeyed s st hst
    simp [Operation.actsOn, hst, parse_encode hnil]

/-- Two instances with labels of no importance. -/
theorem recover_restores_identity_two :
    ∃ st, recover ([⟨['a'], fun _ => none, true⟩, ⟨['b'], fun _ => none, false⟩].map
        (Launched.info fun _ => none)) "direct:b".toList = some st ∧ st.instanceID = ['b'] :=
  (@recover_restores_identity (fun _ => none)
    [⟨['a'], fun _ => none, true⟩, ⟨['b'], fun _ => none, false⟩]
    (by simp) (by simp [Launched.Untagged, Launched.info, mergeCreateTags])).1
    ⟨['b'], fun _ => none, false⟩ (by simp)

/-- The label `flex-sandbox-id` of instance `a`: it is not found under its ID any more, and
`LaunchProcess` and `PauseSandbox` on the ID that it is found under act on different instances. -/
theorem label_takes_identity :
    ∃ (l : Launched) (s : List Char) (st : InstanceState),
      recover [l.info fun _ => none] l.sandboxID = none ∧
      recover [l.info fun _ => none] s = some st ∧
      Operation.actsOn .launchProcess (recover [l.info fun _ => none]) s = some ['x'] ∧
      Operation.actsOn .pauseSandbox (recover [l.info fun _ => none]) s = some l.instanceID ∧
      l.instanceID = ['a'] :=
  ⟨⟨['a'], Function.update (fun _ => none) "flex-sandbox-id" (some "x"), true⟩, "direct:x".toList,
    ⟨['a'], true⟩, by decide, rfl, rfl, rfl, rfl⟩

end FlexAgentRuntime.Direct
