import FlexAgentRuntime.Sandbox.ProcessAssertions

/-!
No managed process outlives its session, as long as `DestroySession` lists the processes
only while no `LaunchProcess` is between the registration of a process and the record of its
child, and is not cancelled while a child is still running.

`LaunchProcess` registers a process before it starts it, and to kill a process that has not
been started does nothing: a process that is registered when `DestroySession` lists the
processes and started afterwards stays.
-/

namespace FlexAgentRuntime.ProcessHost

open Interleaving Config List Function

/-! ## The actions that follow -/

section Added

variable {h : Bool} {c : Config World Op} {a b : Op} {i : Nat} {rest : List Op} {x : Choice}
  {o : Outcome World Op} {p : ProcRef}

theorem Inv.tended_added (hI : Inv h c)
    (ht : c.At i a rest) (ha : a.tendRef = some p)
    (hb : (c.advance i rest o).Pend b) (hp : b.tendRef = some p) : b ∈ added o := by
  have htends : ∀ {b : Op}, b.tendRef = some p → b.tends p = true := fun h => by simp [Op.tends, h]
  rcases hb.new_of_pending_le_one ht (htends ha) (hI.once p) (htends hp) with hb | ⟨th, hth, hb⟩
  · exact mem_append_left _ hb
  · exact mem_append_right _ (mem_flatten.mpr ⟨th, hth, hb⟩)

theorem Inv.launch_over (hI : Inv h c)
    (ht : c.At i a rest) (ha : a.launchRef = some p)
    (hnew : ∀ b ∈ added o, b.launchRef ≠ some p) :
    (c.advance i rest o).pending (Op.launches p) = 0 := by
  refine pending_none fun b hb hl => ?_
  have hp : b.launchRef = some p := eq_of_beq hl
  exact hnew b (hI.tended_added ht (launchRef_tendRef ha) hb (launchRef_tendRef hp)) hp

theorem setProc_self (w : World) (p : ProcRef) (f : ManagedProcess → ManagedProcess) :
    (w.setProc p f).proc p = f (w.proc p) := update_self ..

theorem Inv.good_launch (hI : Inv h c) (ht : c.threads[i]? = some (.launch req op :: rest))
    (hs : Step c.state x (.launch req op) o.state (added o)) (hb : b ∈ added o) :
    Good (c.advance i rest o) b := by
  have hG := hI.ops _ (pend_head ht)
  have hover : ∀ p, (Op.launch req op).launchRef = some p →
      (∀ b ∈ added o, b.launchRef ≠ some p) → (c.advance i rest o).pending (Op.launches p) = 0 :=
    fun p => hI.launch_over ht
  have hidle := fun p => Idle.step (p := p) ht hs
  obtain ⟨w', more, spawn⟩ := o
  change Step c.state x _ w' _ at hs
  generalize added _ = l at hs hb hover
  cases hs with try cases mem_singleton.mp hb
  | refused | started | notFound | found | notRegistered | launchDone => trivial
  | @registered _ now _ _ _ hop =>
    have hlt : c.state.nProc < (c.state.prune now).register.nProc := Nat.lt_succ_self _
    have hmapped : (c.state.prune now).register.Mapped c.state.nProc :=
      ⟨_, mem_append_right _ (mem_singleton_self _)⟩
    have hproc : (c.state.prune now).register.proc c.state.nProc =
        { id := processID c.state.sessionID (c.state.processSeq + 1) } :=
      update_self ..
    rcases hop with rfl | rfl
    · refine ⟨hlt, hmapped, ?_⟩
      show ((c.state.prune now).register.proc c.state.nProc).Quiet
      rw [hproc]
      exact ⟨by simp, rfl⟩
    · refine ⟨hlt, hmapped, ?_⟩
      show ((c.state.prune now).register.proc c.state.nProc).child ≠ .running ∧
        ((c.state.prune now).register.proc c.state.nProc).Wired
      rw [hproc]
      exact ⟨by simp, fun h => by cases h⟩
  | listens =>
    obtain ⟨hl, hm, hq⟩ := hG
    refine ⟨hl, hm, ?_⟩
    simpa only [Config.advance, setProc_self] using hq.1
  | proxyFailed | runFailed => exact ⟨hG.1, hG.2.2⟩
  | proxied =>
    obtain ⟨hl, hm, hch⟩ := hG
    refine ⟨hl, hm, ?_⟩
    simp only [Config.advance, setProc_self]
    exact ⟨hch, fun _ => rfl⟩
  | born =>
    obtain ⟨hl, hm, hch, hw⟩ := hG
    refine ⟨hl, hm, ?_⟩
    simp only [Config.advance, setProc_self]
    exact hw
  | @published _ p => exact ⟨hG.1, hover p rfl (by simp [Op.launchRef])⟩
  | @launchCloses _ p err =>
    obtain ⟨hl, hch, hw⟩ := hG
    refine ⟨hl, ?_⟩
    show ((c.state.setProc p _).proc p).Quiet
    rw [setProc_self]
    obtain ⟨l, heq, -⟩ := closeProxy_eq (c.state.proc p)
    exact ⟨by rw [heq]; exact hch, hw.closeProxy⟩
  | @unregistered _ p err => exact ⟨⟨hG.1, hover p rfl (by simp [Op.launchRef])⟩, hG.2⟩
  | responded =>
    rcases mem_pair.mp hb with rfl | rfl
    · trivial
    · exact hidle _ hG

theorem Inv.good_monitor (hI : Inv h c) (ht : c.threads[i]? = some (.monitor op :: rest))
    (hs : Step c.state x (.monitor op) o.state (added o))
    (hcond : processCond c (.monitor op) x = true) (hb : b ∈ added o) :
    Good (c.advance i rest o) b := by
  have hold := hI.ops _ (pend_head ht)
  -- what was known before the step is still true
  have hG := hI.good_kept ht hs hcond (pend_head ht) nofun
  obtain ⟨w', more, spawn⟩ := o
  change Step c.state x _ w' _ at hs
  generalize added _ = l at hs hb
  cases hs with try cases mem_singleton.mp hb
  | waited hch => exact ⟨hG, hch⟩
  | markedBefore hexited =>
    -- only this monitor could have marked the process
    have hzero := (hI.exited _ hold.1.1 hexited).1
    exact absurd (pend_head ht) (not_pend hzero (by simp [Op.tends, Op.tendRef]))
  | marked => exact hG
  | @monitorCloses p =>
    refine ⟨hG.1, hG.2, ?_⟩
    show ((c.state.setProc p _).proc p).listening = false
    rw [setProc_self]
    exact (hI.wired p hold.1).closeProxy
  | monitorDone => cases hb

theorem Inv.signals_false (hI : Inv h c) (hi : Idle c p)
    (hs : (c.state.proc p).signals = false) : (c.state.proc p).Hit := by
  simp only [ManagedProcess.signals, Bool.and_eq_false_iff, bne_eq_false_iff_eq] at hs
  rcases hs with hexited | hcmd
  · exact .inr (hI.exited p hi.1 hexited).2
  · rcases hI.recorded p hi with h | hquiet
    · rw [hcmd] at h
      cases h
    · exact .inr hquiet.1

/-- A wait that has ended has seen the child's end. -/
theorem Inv.awaited_over (hI : Inv h c) (hlt : p < c.state.nProc) (hhit : (c.state.proc p).Hit)
    (hsel : (c.state.proc p).done = true ∨ x = .cancelled ∨
      ¬ ((c.state.proc p).signalled = true ∧ (c.state.proc p).child = .running))
    (hcancel : x = .cancelled → (c.state.proc p).child ≠ .running) :
    (c.state.proc p).child ≠ .running := by
  rcases hsel with hdone | hx | hno
  · exact (hI.done p hlt hdone).2.1
  · exact hcancel hx
  · rcases hhit with hsig | hch
    · exact fun hrun => hno ⟨hsig, hrun⟩
    · exact hch

theorem hit_or_mem {w : World} {todo all : List ProcRef} (hp : p ∈ all → (w.proc p).Hit)
    (hall : ∀ q ∈ all, q < w.nProc ∧ (q ∈ p :: todo ∨ (w.proc q).Hit)) :
    ∀ q ∈ all, q < w.nProc ∧ (q ∈ todo ∨ (w.proc q).Hit) := by
  intro q hq
  refine ⟨(hall q hq).1, ?_⟩
  rcases (hall q hq).2 with hmem | hhit
  · rcases mem_cons.mp hmem with rfl | hmem
    · exact .inr (hp hq)
    · exact .inl hmem
  · exact .inr hhit

theorem Inv.good_destroy (hI : Inv h c) {id : String} {op : DestroyOp}
    (ht : c.threads[i]? = some (.destroy id op :: rest))
    (hs : Step c.state x (.destroy id op) o.state (added o))
    (hcond : processCond c (.destroy id op) x = true) (hb : b ∈ added o) :
    Good (c.advance i rest o) b := by
  have hold := hI.ops _ (pend_head ht)
  have hG := hI.good_kept ht hs hcond (pend_head ht) nofun
  have hkept := fun p => Calm.kept (p := p) ht hs
  have hstep := Calm.step ht hs
  obtain ⟨w', more, spawn⟩ := o
  change Step c.state x _ w' _ at hs
  generalize added _ = l at hs hb
  cases hs with try cases mem_singleton.mp hb
  | destroyNotFound | destroyFound | notDrained | deleted => trivial
  | destroying =>
    show SandboxHost.SessionState.destroying ≠ .active
    decide
  | drained | killing | signalAgain | awaitedAgain | unstored => exact hG
  | listedNone hempty =>
    have hcalm : Calm c := ⟨hold, by simpa [processCond] using hcond⟩
    refine ⟨hstep hcalm, fun q hq => ?_⟩
    rcases hI.mapped q (hcalm.idle hq) with ⟨k, hk⟩ | hquiet
    · rw [hempty] at hk
      cases hk
    · exact hquiet
  | @listed _ procs hperm =>
    have hcalm : Calm c := ⟨hold, by simpa [processCond] using hcond⟩
    have hmem : ∀ q, q ∈ procs ↔ c.state.Mapped q := by
      intro q
      rw [hperm.mem_iff]
      simp [World.Mapped]
    exact ⟨hstep hcalm, fun q hq => (hmem q).mpr hq, fun q hq => ⟨((hmem q).mp hq).lt hI, .inl hq⟩⟩
  | killedAll =>
    obtain ⟨hc, hmap, hall⟩ := hG
    exact ⟨hc, fun q hq => .inl (hmap q hq),
      fun q hq => ⟨(hall q hq).1, (hall q hq).2.resolve_left not_mem_nil⟩⟩
  | notKilled hsig =>
    obtain ⟨hc, hmap, hall⟩ := hG
    refine ⟨hc, hmap, hit_or_mem (fun hp => ?_) hall⟩
    have hlt := (hall _ hp).1
    exact (hkept _ hold.1 hlt).hit (hI.signals_false (hold.1.idle hlt) hsig)
  | @signalling _ p todo all =>
    obtain ⟨hc, hmap, hall⟩ := hG
    refine ⟨hc, hmap, hit_or_mem (fun _ => ?_) hall⟩
    show ((c.state.setProc p _).proc p).Hit
    rw [setProc_self]
    exact signal_hit _
  | awaitedAll => exact ⟨hG.1, fun q hq => (hG.2.1 q hq).resolve_left not_mem_nil⟩
  | @awaited _ p todo _ hop hsel =>
    obtain ⟨hc, hmap, hwait⟩ := hG
    obtain ⟨hlt, hhit⟩ := hwait p mem_cons_self
    have hch := hI.awaited_over hlt hhit hsel fun hcanc => by
      subst hcanc
      simpa [processCond] using hcond
    have hwait' : Awaited c todo := fun q hq => hwait q (mem_cons_of_mem p hq)
    rcases hop with rfl | rfl <;> exact ⟨hc, hmap, hwait', hlt, hch⟩
  | killAgain hop => rcases hop with rfl | rfl <;> exact hG
  | @destroyCloses _ p todo =>
    obtain ⟨hc, hmap, hwait, hl, hch⟩ := hG
    refine ⟨hc, fun q hq => ?_, hwait⟩
    rcases hmap q hq with hmem | hquiet
    · rcases mem_cons.mp hmem with rfl | hmem
      · refine .inr ⟨hch, ?_⟩
        show ((c.state.setProc q _).proc q).listening = false
        rw [setProc_self]
        exact (hI.wired q (hold.1.idle hl)).closeProxy
      · exact .inl hmem
    · exact .inr hquiet
  | cleared =>
    obtain ⟨hc, hmap⟩ := hold
    refine ⟨hG.1, fun q hq => ?_⟩
    rcases hI.mapped q (hc.idle hq) with hm | hquiet
    · exact hmap q hm
    · exact hquiet

end Added

/-! ## The invariant -/

section Fields

variable {w w' : World} {h : Bool} {c : Config World Op} {a b : Op} {i : Nat} {l rest : List Op}
  {x : Choice} {o : Outcome World Op} {p : ProcRef} {v : ManagedProcess}

/-- The name of a process stays; its monitor marks it, and closes `done` unless the launcher
does. -/
theorem Change.record (hc : Change w a p v) (hp : p < w.nProc) :
    v.id = (w.proc p).id ∧
      (v.status = .exited → (w.proc p).status = .exited ∨ a = .monitor (.markExited p)) ∧
      (v.done = true → (w.proc p).done = true ∨
        (∃ req err, a = .launch req (.closeDone p err)) ∨ a = .monitor (.closeDone p)) := by
  cases hc with
  | registered _ hn => exact absurd hn (ne_of_lt hp)
  | closed hv =>
    obtain ⟨l, heq, -⟩ := closeProxy_eq (w.proc p)
    rw [hv, heq]
    exact ⟨rfl, .inl, .inl⟩
  | killed sig hv =>
    obtain ⟨n, heq⟩ := kill_eq (w.proc p) sig
    rw [hv, heq]
    exact ⟨rfl, .inl, .inl⟩
  | signalled hv =>
    obtain ⟨l, heq, -⟩ := signal_eq (w.proc p)
    rw [hv, heq]
    exact ⟨rfl, .inl, .inl⟩
  | published _ hv =>
    subst hv
    exact ⟨rfl, fun h => (by cases h), .inl⟩
  | marked ha hv =>
    subst hv
    exact ⟨rfl, fun _ => .inr ha, .inl⟩
  | finished ha hv =>
    subst hv
    exact ⟨rfl, .inl, fun _ => .inr ha⟩
  | same hv | listens _ hv | proxied _ hv | born _ hv | died _ hv =>
    subst hv
    exact ⟨rfl, .inl, .inl⟩

theorem Inv.tends_lt (hI : Inv h c) (hb : c.Pend b) (hp : b.tendRef = some p) :
    p < c.state.nProc := by
  have hG := hI.ops b hb
  cases b with
  | launch req op =>
    cases op with
    | createProxy q | setProxy q text | run q | publish q | closeProxy q err | unregister q err
    | respond q =>
      cases hp
      exact hG.1
    | _ => cases hp
  | monitor op =>
    cases op with
    | wait q =>
      cases hp
      exact hG.1
    | markExited q =>
      cases hp
      exact hG.1.1
    | _ => cases hp
  | _ => cases hp

theorem Inv.names_step (hI : Inv h c) (hs : Step c.state x a w' l) :
    w'.processSeq = w'.nProc ∧
      (∀ p < w'.nProc, (w'.proc p).id = processID w'.sessionID (p + 1)) ∧
      ∀ q ∈ w'.processes, q.2 < w'.nProc ∧ q.1 = (w'.proc q.2).id := by
  have hid : ∀ p < c.state.nProc, (w'.proc p).id = (c.state.proc p).id :=
    fun p hp => ((hs.change p).record hp).1
  -- entries that were in the map before
  have hold : ∀ q ∈ c.state.processes, c.state.nProc ≤ w'.nProc →
      q.2 < w'.nProc ∧ q.1 = (w'.proc q.2).id := by
    intro q hq hle
    obtain ⟨hlt, hkey⟩ := hI.keys q hq
    exact ⟨lt_of_lt_of_le hlt hle, hkey.trans (hid q.2 hlt).symm⟩
  cases hs.mapChange with
  | same _ hproc hn hseq hsid =>
    refine ⟨by rw [hseq, hn, hI.seq], ?_, ?_⟩
    · intro p hp
      rw [hsid, hid p (hn ▸ hp)]
      exact hI.ids p (hn ▸ hp)
    · intro q hq
      exact hold q (hproc ▸ hq) (le_of_eq hn.symm)
  | @registered req now _ _ =>
    have hnew : (((c.state.prune now).register).proc c.state.nProc).id =
        processID c.state.sessionID (c.state.processSeq + 1) := by
      simp [World.register, World.prune]
    refine ⟨congrArg (· + 1) hI.seq, ?_, ?_⟩
    · intro p hp
      rcases Nat.lt_succ_iff_lt_or_eq.mp hp with hlt | rfl
      · exact (hid p hlt).trans (hI.ids p hlt)
      · exact hnew.trans (congrArg (fun n => processID _ (n + 1)) hI.seq)
    · intro q hq
      rcases mem_concat.mp hq with hq | rfl
      · exact hold q (mem_filter.mp (mem_filter.mp hq).1).1 (Nat.le_succ _)
      · exact ⟨Nat.lt_succ_self _, hnew.symm⟩
  | unregistered =>
    refine ⟨hI.seq, fun p hp => (hid p hp).trans (hI.ids p hp), ?_⟩
    intro q hq
    exact hold q (mem_filter.mp hq).1 (le_refl _)
  | marked =>
    exact ⟨hI.seq, fun p hp => (hid p hp).trans (hI.ids p hp), fun q hq => hold q hq (le_refl _)⟩
  | cleared =>
    refine ⟨hI.seq, fun p hp => (hid p hp).trans (hI.ids p hp), ?_⟩
    intro q hq
    cases hq

theorem Step.proc_new (hs : Step w x a w' l) (hlt : p < w'.nProc) (hnew : ¬ p < w.nProc) :
    p = w.nProc ∧ (∃ req, a = .launch req .register) ∧ ∃ id, w'.proc p = { id := id } := by
  cases hs.mapChange with
  | same _ _ hn => exact absurd (hn ▸ hlt) hnew
  | registered =>
    have heq : p = w.nProc := Nat.eq_of_lt_succ_of_not_lt hlt hnew
    subst heq
    exact ⟨rfl, ⟨_, rfl⟩, _, update_self ..⟩
  | unregistered | marked | cleared => exact absurd hlt hnew

variable (ht : c.At i a rest) (hs : Step c.state x a o.state (added o))

include ht hs

theorem Inv.once_step (hI : Inv h c) (p : ProcRef) :
    (c.advance i rest o).pending (Op.tends p) ≤ 1 := by
  have hbal := pending_advance (Op.tends p) o ht
  have hnew := countP_tends_added hs p
  have hone := hI.once p
  by_cases ha : a.tends p = true
  · rw [if_pos (.inl ha)] at hnew
    rw [if_pos ha] at hbal
    omega
  · rw [if_neg ha] at hbal
    by_cases hp : p = c.state.nProc
    · have hzero : c.pending (Op.tends p) = 0 := by
        refine pending_none fun b hb htend => ?_
        have hlt := hI.tends_lt hb (eq_of_beq htend)
        exact absurd hp (ne_of_lt hlt)
      rw [if_pos (.inr hp)] at hnew
      omega
    · rw [if_neg (not_or.mpr ⟨ha, hp⟩)] at hnew
      omega

theorem idle_cases (hidle : Idle (c.advance i rest o) p) :
    Idle c p ∨ (∃ req, a = .launch req (.publish p)) ∨
      ∃ req err, a = .launch req (.unregister p err) := by
  have hnone : ∀ b, (c.advance i rest o).Pend b → b.launchRef ≠ some p := by
    intro b hb hp
    exact not_pend hidle.2 (by simp [Op.launches, hp]) hb
  have hadded : ∀ b ∈ added o, b.launchRef ≠ some p := by
    intro b hb
    rcases mem_append.mp hb with hb | hb
    · exact hnone b (pend_more ht hb)
    · obtain ⟨th, hth, hb⟩ := mem_flatten.mp hb
      exact hnone b ⟨th, mem_append_right _ hth, hb⟩
  have hlt : p < o.state.nProc := hidle.1
  generalize o.state = w', added o = l at hs hadded hlt
  by_cases hz : c.pending (Op.launches p) = 0
  · by_cases hp : p < c.state.nProc
    · exact .inl ⟨hp, hz⟩
    · -- a process that has just been registered is being launched
      obtain ⟨rfl, ⟨req, rfl⟩, -⟩ := hs.proc_new hlt hp
      cases hs with
      | notRegistered => exact absurd hlt hp
      | registered _ _ hop =>
        refine absurd ?_ (hadded _ (mem_singleton_self _))
        rcases hop with rfl | rfl <;> rfl
  · obtain ⟨b, hb, hl⟩ := pending_pos.mp (Nat.pos_of_ne_zero hz)
    have hp : b.launchRef = some p := eq_of_beq hl
    by_cases hba : b = a
    · subst hba
      right
      cases hs with
      | published =>
        cases hp
        exact .inl ⟨_, rfl⟩
      | unregistered =>
        cases hp
        exact .inr ⟨_, _, rfl⟩
      | listens | proxyFailed | proxied | born | runFailed | launchCloses =>
        exact (hadded _ (mem_singleton_self _) hp).elim
      | _ => cases hp
    · exact absurd hp (hnone b (hb.advance ht hba))

section
variable (hI : Inv h c) (hidle : Idle (c.advance i rest o) p)
include hI hidle

/-- A process that is not being launched was not before the step, or its child is on record,
or it has been taken out. -/
theorem Inv.idle_step : Idle c p ∨
    ((o.state.proc p).cmd = true ∧ (o.state.proc p).Wired ∧ o.state.Mapped p) ∨
      (o.state.proc p).Quiet := by
  rcases idle_cases ht hs hidle with hold | ⟨req, rfl⟩ | ⟨req, err, rfl⟩
  · exact .inl hold
  · obtain ⟨-, hm, hw⟩ := hI.ops _ (pend_head ht)
    generalize o.state = w', added o = l at hs ⊢
    cases hs
    rw [setProc_self]
    exact .inr (.inl ⟨rfl, hw, hm⟩)
  · have hG := hI.ops _ (pend_head ht)
    generalize o.state = w', added o = l at hs ⊢
    cases hs
    exact .inr (.inr hG.2)

theorem Inv.recorded_step : (o.state.proc p).cmd = true ∨ (o.state.proc p).Quiet := by
  rcases hI.idle_step ht hs hidle with hold | ⟨hcmd, -⟩ | hquiet
  · have hk := hold.kept ht hs
    exact (hI.recorded p hold).imp hk.cmd.trans hk.quiet
  · exact .inl hcmd
  · exact .inr hquiet

theorem Inv.wired_step : (o.state.proc p).Wired := by
  rcases hI.idle_step ht hs hidle with hold | ⟨-, hw, -⟩ | hquiet
  · exact (hold.kept ht hs).wired (hI.wired p hold)
  · exact hw
  · intro hl
    rw [hquiet.2] at hl
    cases hl

theorem Inv.mapped_or_quiet_step (hcond : processCond c a x = true) :
    o.state.Mapped p ∨ (o.state.proc p).Quiet := by
  rcases hI.idle_step ht hs hidle with hold | ⟨-, -, hm⟩ | hquiet
  · have hk := hold.kept ht hs
    rcases hI.mapped p hold with hm | hquiet
    · rcases hI.mapped_step ht hs hcond hm with hm | ⟨req, err, rfl⟩ | ⟨id, rfl⟩ | hdone
      · exact .inl hm
      · exact absurd rfl (not_launchRef ht hold.2)
      · exact .inr (hk.quiet ((hI.ops _ (pend_head ht)).2 p hm))
      · exact .inr (hk.quiet (hI.done p hold.1 hdone).2)
    · exact .inr (hk.quiet hquiet)
  · exact .inl hm
  · exact .inr hquiet

end

theorem Inv.exited_step (hI : Inv h c) (hlt : p < o.state.nProc)
    (hst : (o.state.proc p).status = .exited) :
    (c.advance i rest o).pending (Op.tends p) = 0 ∧ (o.state.proc p).child ≠ .running := by
  have hch := hs.change p
  by_cases hp : p < c.state.nProc
  · rcases (hch.record hp).2.1 hst with hold | rfl
    · obtain ⟨hz, hchild⟩ := hI.exited p hp hold
      have ha : a.tends p = false := pending_eq_zero.mp hz a (pend_head ht)
      refine ⟨?_, (hch.kept hp fun hl => ?_).child hchild⟩
      · have hbal := pending_advance (Op.tends p) o ht
        have hnew := countP_tends_added hs p
        rw [if_neg (by simp [ha, ne_of_lt hp])] at hnew
        rw [if_neg (by simp [ha])] at hbal
        omega
      · simp [Op.tends, launchRef_tendRef hl] at ha
    · -- the monitor marks the process and tends it no more
      obtain ⟨hidle, hchild⟩ := hI.ops _ (pend_head ht)
      refine ⟨?_, (hidle.kept ht hs).child hchild⟩
      refine pending_none fun b hb htend => ?_
      have hb := hI.tended_added ht rfl hb (eq_of_beq htend)
      generalize o.state = w', added o = l at hs hb
      cases hs <;> cases mem_singleton.mp hb <;> cases htend
  · obtain ⟨-, -, id, heq⟩ := hs.proc_new hlt hp
    rw [heq] at hst
    cases hst

theorem Inv.done_step (hI : Inv h c) (hlt : p < o.state.nProc)
    (hd : (o.state.proc p).done = true) :
    Idle (c.advance i rest o) p ∧ (o.state.proc p).Quiet := by
  have hstep : Idle c p → (c.state.proc p).Quiet →
      Idle (c.advance i rest o) p ∧ (o.state.proc p).Quiet :=
    fun hidle hquiet => ⟨hidle.step ht hs, (hidle.kept ht hs).quiet hquiet⟩
  by_cases hp : p < c.state.nProc
  · rcases ((hs.change p).record hp).2.2 hd with hold | ⟨req, err, rfl⟩ | rfl
    · obtain ⟨hidle, hquiet⟩ := hI.done p hp hold
      exact hstep hidle hquiet
    · obtain ⟨hidle, hquiet⟩ := hI.ops _ (pend_head ht)
      exact hstep hidle hquiet
    · obtain ⟨hidle, hquiet⟩ := hI.ops _ (pend_head ht)
      exact hstep hidle hquiet
  · obtain ⟨-, -, id, heq⟩ := hs.proc_new hlt hp
    rw [heq] at hd
    cases hd

theorem Inv.ops_step (hI : Inv h c) (hcond : processCond c a x = true)
    (hb : (c.advance i rest o).Pend b) : Good (c.advance i rest o) b := by
  have hadded : b ∈ added o → Good (c.advance i rest o) b := by
    intro hb
    cases a with
    | launch req op => exact hI.good_launch ht hs hb
    | monitor op => exact hI.good_monitor ht hs hcond hb
    | destroy id op => exact hI.good_destroy ht hs hcond hb
    | kill req op =>
      generalize o.state = w', added o = l at hs hb
      cases hs with try cases mem_singleton.mp hb
      | killLooks hop | killed hop => obtain ⟨op', rfl⟩ | ⟨r, rfl⟩ := hop <;> trivial
      | signalled => trivial
    | exit p | ret r =>
      generalize o.state = w', added o = l at hs hb
      cases hs
      cases hb
  by_cases hl : ∃ p, b.launchRef = some p ∧ a.launchRef = some p
  · obtain ⟨p, hbp, hap⟩ := hl
    exact hadded (hI.tended_added ht (launchRef_tendRef hap) hb (launchRef_tendRef hbp))
  · rcases pend_cases ht hb with hb | hb
    · exact hI.good_kept ht hs hcond hb fun p hbp hap => hl ⟨p, hbp, hap⟩
    · exact hadded hb

theorem Inv.returned_step (hI : Inv h c) (hret : noteReturned h c a x = true) :
    Calm (c.advance i rest o) ∧ ∀ p < o.state.nProc, (o.state.proc p).Quiet := by
  have hbefore : Calm c ∧ ∀ p < c.state.nProc, (c.state.proc p).Quiet := by
    unfold noteReturned at hret
    split at hret
    · exact hI.ops _ (pend_head ht)
    · exact hI.returned hret
  obtain ⟨hc, hquiet⟩ := hbefore
  refine ⟨hc.step ht hs, fun p hp => ?_⟩
  have hlt : p < c.state.nProc := (hs.inactive hc.1).2.1 ▸ hp
  exact (hc.kept ht hs hlt).quiet (hquiet p hlt)

omit ht hs

theorem Inv.step (hI : Inv h c) (ht : c.At i a rest)
    (hx : exec x a c.state = some o) (hcond : processCond c a x = true) :
    Inv (noteReturned h c a x) (c.advance i rest o) := by
  have hs := step_of_exec hx
  obtain ⟨hseq, hids, hkeys⟩ := hI.names_step hs
  exact ⟨hseq, hids, hkeys, hI.once_step ht hs, fun p => hI.recorded_step ht hs,
    fun p hp => hI.mapped_or_quiet_step ht hs hp hcond, fun p => hI.wired_step ht hs,
    fun p => hI.exited_step ht hs, fun p => hI.done_step ht hs, fun b => hI.ops_step ht hs hcond,
    hI.returned_step ht hs⟩

theorem apiEntry_good (he : apiEntry w a = true) (c : Config World Op) :
    Good c a ∧ a.tendRef = none ∧ a.launchRef = none := by
  unfold apiEntry at he
  split at he
  all_goals first
    | exact ⟨trivial, rfl, rfl⟩
    | cases he

theorem Inv.call (hI : Inv h c) (he : apiEntry c.state a = true) : Inv h (c.call a) := by
  obtain ⟨-, htend, hlaunch⟩ := apiEntry_good he c
  have htends : ∀ p, (c.call a).pending (Op.tends p) = c.pending (Op.tends p) :=
    fun p => pending_call_other (by simp [Op.tends, htend])
  have hlaunches : ∀ p, (c.call a).pending (Op.launches p) = c.pending (Op.launches p) :=
    fun p => pending_call_other (by simp [Op.launches, hlaunch])
  have hlaunching : (c.call a).pending Op.launching = c.pending Op.launching :=
    pending_call_other (by simp [Op.launching, hlaunch])
  have hidle : ∀ {p}, Idle (c.call a) p ↔ Idle c p := by
    intro p
    unfold Idle
    rw [hlaunches p]
    exact Iff.rfl
  have hcalm : Calm (c.call a) ↔ Calm c := by
    unfold Calm
    rw [hlaunching]
    exact Iff.rfl
  have hgood : ∀ b, Good c b → Good (c.call a) b := by
    intro b hG
    cases b with
    | launch req op =>
      cases op with
      | closeDone p err => exact ⟨hidle.mpr hG.1, hG.2⟩
      | respond p => exact hidle.mpr hG
      | _ => exact hG
    | monitor op =>
      cases op with
      | wait p => exact hidle.mpr hG
      | markExited p | closeProxy p | closeDone p => exact ⟨hidle.mpr hG.1, hG.2⟩
    | destroy id op =>
      cases op with
      | lookup | mark | drain | list => exact hG
      | _ => exact ⟨hcalm.mpr hG.1, hG.2⟩
    | _ => exact hG
  refine ⟨hI.seq, hI.ids, hI.keys, fun p => (htends p).symm ▸ hI.once p,
    fun p hp => hI.recorded p (hidle.mp hp), fun p hp => hI.mapped p (hidle.mp hp),
    fun p hp => hI.wired p (hidle.mp hp), fun p hp hst => (htends p).symm ▸ hI.exited p hp hst,
    fun p hp hd => ⟨hidle.mpr (hI.done p hp hd).1, (hI.done p hp hd).2⟩, ?_,
    fun hh => ⟨hcalm.mpr (hI.returned hh).1, (hI.returned hh).2⟩⟩
  exact forall_pend_call (fun b hb => hgood b (hI.ops b hb)) (apiEntry_good he _).1

theorem Reach.inv {id : String}
    (hr : Reach machine processMonitor false (initialConfig id) h c) : Inv h c := by
  refine hr.invariant (fun h c => Inv h c) ?_ (fun h c a ih he => ih.call he)
    (fun h c i a rest x o ih ht hx hcond => ih.step ht hx hcond)
  have hno : ∀ {p : ProcRef}, ¬ p < (initialConfig id).state.nProc := fun {p} => Nat.not_lt_zero p
  exact ⟨rfl, fun p hp => absurd hp hno, forall_mem_nil _, fun p => Nat.zero_le 1,
    fun p hp => absurd hp.1 hno, fun p hp => absurd hp.1 hno, fun p hp => absurd hp.1 hno,
    fun p hp => absurd hp hno, fun p hp => absurd hp hno, fun b hb => absurd hb not_pend_nil,
    fun hf => by cases hf⟩

end Fields

/-- Choices for schedules with one process whose waits time out. -/
def usualChoice : Op → Choice
  | .launch _ .register => .time 0
  | .launch _ (.createProxy _) => .address "127.0.0.1:9000"
  | .monitor (.markExited _) => .exited 0 0
  | .destroy _ .list => .order [0]
  | .destroy _ (.awaiting (_ :: _)) | .destroy _ (.awaitAgain _ _) => .timeout
  | _ => .ok

end FlexAgentRuntime.ProcessHost
