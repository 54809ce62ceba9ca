import FlexAgentRuntime.Sandbox.ProcessHost

/-!
What is known at each action of `DestroySession`, of the launcher and of the monitor of a
process: the assertions `Good`, and the invariant `Inv` that carries them. After the listing
of the processes the assertions of `DestroySession` rest on `Calm`: no process can be launched
any more. Each assertion is kept by the actions of the other threads.
-/

namespace FlexAgentRuntime.ProcessHost

open Interleaving Config List

/-- The process that a `LaunchProcess` has registered, until its child is on record or the
process has been taken out again. -/
def Op.launchRef : Op → Option ProcRef
  | .launch _ (.createProxy p) | .launch _ (.setProxy p _) | .launch _ (.run p)
  | .launch _ (.publish p) | .launch _ (.closeProxy p _) | .launch _ (.unregister p _) => some p
  | _ => none

/-- The same, and then until the monitor has marked the process as exited. -/
def Op.tendRef : Op → Option ProcRef
  | .launch _ (.createProxy p) | .launch _ (.setProxy p _) | .launch _ (.run p)
  | .launch _ (.publish p) | .launch _ (.closeProxy p _) | .launch _ (.unregister p _) => some p
  | .launch _ (.respond p) | .monitor (.wait p) | .monitor (.markExited p) => some p
  | _ => none

def Op.launches (p : ProcRef) (a : Op) : Bool := a.launchRef == some p
def Op.launching (a : Op) : Bool := a.launchRef.isSome
def Op.tends (p : ProcRef) (a : Op) : Bool := a.tendRef == some p

/-- `DestroySession` lists the processes while none is being launched, and its context is
not cancelled while it waits for a child that is running. A process whose retention has
passed is taken out of the map when its monitor has ended. -/
def processCond (c : Config World Op) (a : Op) (x : Choice) : Bool :=
  match a, x with
  | .destroy _ .list, _ => c.pending Op.launching == 0
  | .destroy _ (.awaiting (p :: _)), .cancelled => (c.state.proc p).child != .running
  | .destroy _ (.awaitAgain p _), .cancelled => (c.state.proc p).child != .running
  | .launch _ .register, .time now =>
    c.state.processes.all fun q => !(c.state.proc q.2).stale now || (c.state.proc q.2).done
  | _, _ => true

/-- Notes that a `DestroySession` has returned nil. -/
def noteReturned (h : Bool) (_ : Config World Op) (a : Op) (_ : Choice) : Bool :=
  match a with
  | .destroy _ .delete => true
  | _ => h

def processMonitor : Monitor World Op Choice Bool :=
  ⟨fun h _ _ => h, noteReturned, fun _ => processCond⟩

/-! ## Processes -/

def ManagedProcess.Quiet (v : ManagedProcess) : Prop := v.child ≠ .running ∧ v.listening = false

/-- The child has been signalled, or it is not running. -/
def ManagedProcess.Hit (v : ManagedProcess) : Prop := v.signalled = true ∨ v.child ≠ .running

/-- A proxy that listens is on record. -/
def ManagedProcess.Wired (v : ManagedProcess) : Prop :=
  v.listening = true → v.proxy.isSome = true

variable {w : World} {a : Op} {p : ProcRef} {v : ManagedProcess}

theorem closeProxy_eq (v : ManagedProcess) :
    ∃ b, v.closeProxy = { v with listening := b } ∧ (b = true → v.listening = true) := by
  unfold ManagedProcess.closeProxy
  split
  · exact ⟨false, rfl, fun h => by cases h⟩
  · exact ⟨v.listening, rfl, fun h => h⟩

theorem ManagedProcess.Wired.closeProxy (h : v.Wired) : v.closeProxy.listening = false := by
  unfold ManagedProcess.closeProxy
  split
  · rfl
  · rename_i hnone
    exact Bool.eq_false_iff.mpr fun hl => hnone (h hl)

theorem kill_eq (v : ManagedProcess) (sig : Nat) :
    ∃ n, v.kill sig = { v with killSignal := n } := by
  unfold ManagedProcess.kill
  split
  · exact ⟨v.killSignal, rfl⟩
  · exact ⟨sig, rfl⟩

theorem signal_eq (v : ManagedProcess) :
    ∃ b, v.signal = { v with signalled := b } ∧ (v.signalled = true → b = true) := by
  unfold ManagedProcess.signal
  split
  · exact ⟨true, rfl, fun _ => rfl⟩
  · exact ⟨v.signalled, rfl, fun h => h⟩

theorem signal_hit (v : ManagedProcess) : v.signal.Hit := by
  unfold ManagedProcess.signal
  split
  · exact .inl rfl
  · exact .inr ‹_›

/-- What an action that does not launch `p` leaves of it. -/
structure ManagedProcess.Kept (v v' : ManagedProcess) : Prop where
  id : v'.id = v.id
  child : v.child ≠ .running → v'.child ≠ .running
  listening : v'.listening = true → v.listening = true
  proxy : v'.proxy = v.proxy
  signalled : v.signalled = true → v'.signalled = true
  cmd : v'.cmd = v.cmd

theorem ManagedProcess.Kept.refl (v : ManagedProcess) : v.Kept v :=
  ⟨rfl, fun h => h, fun h => h, rfl, fun h => h, rfl⟩

theorem Change.kept (hc : Change w a p v) (hp : p < w.nProc) (ha : a.launchRef ≠ some p) :
    (w.proc p).Kept v := by
  cases hc with
  | same h => exact h ▸ .refl _
  | listens h | proxied h | born h | published h => exact absurd (h ▸ rfl) ha
  | closed h =>
    obtain ⟨b, heq, hb⟩ := closeProxy_eq (w.proc p)
    rw [h, heq]
    exact ⟨rfl, fun h => h, hb, rfl, fun h => h, rfl⟩
  | killed sig h =>
    obtain ⟨n, heq⟩ := kill_eq (w.proc p) sig
    rw [h, heq]
    exact ⟨rfl, fun h => h, fun h => h, rfl, fun h => h, rfl⟩
  | signalled h =>
    obtain ⟨b, heq, hb⟩ := signal_eq (w.proc p)
    rw [h, heq]
    exact ⟨rfl, fun h => h, fun h => h, rfl, hb, rfl⟩
  | died _ h => exact h ▸ ⟨rfl, fun _ => by simp, fun h => h, rfl, fun h => h, rfl⟩
  | marked _ h | finished _ h => exact h ▸ ⟨rfl, fun h => h, fun h => h, rfl, fun h => h, rfl⟩
  | registered _ hn => exact absurd hn (ne_of_lt hp)

/-! ## Who tends a process -/

/-- The actions of an outcome that tend a process: none; the one that goes on with the
process of the executed action; or the first one of a process that has been registered. -/
inductive News (w : World) (a : Op) : List Op → Prop where
  | none : News w a []
  | goes {b p} : a.tendRef = some p → b.tendRef = some p →
      (b.launchRef = some p → a.launchRef = some p) → News w a [b]
  | registered {b req} : a = .launch req .register → w.state = .active →
      b.tendRef = some w.nProc → News w a [b]

variable {w' : World} {b : Op} {x : Choice} {o : Outcome World Op} {c : Config World Op} {i : Nat}
  {l rest : List Op}

theorem News.length_le (h : News w a l) : l.length ≤ 1 := by
  cases h <;> simp

theorem launchRef_tendRef (h : b.launchRef = some p) : b.tendRef = some p := by
  cases b with
  | launch req op => cases op <;> first | exact h | cases h
  | _ => cases h

theorem Step.news (hs : Step w x a w' l) : News w a (l.filter (·.tendRef.isSome)) := by
  cases hs with
  | registered hact _ hop => rcases hop with rfl | rfl <;> exact .registered rfl hact rfl
  | listens | proxyFailed | proxied | born | runFailed | published | launchCloses =>
    exact .goes rfl rfl fun _ => rfl
  | responded | waited => exact .goes rfl rfl fun h => by cases h
  | killLooks hb | killed hb => obtain ⟨op', rfl⟩ | ⟨r, rfl⟩ := hb <;> exact .none
  | awaited hop | killAgain hop => rcases hop with rfl | rfl <;> exact .none
  | _ => exact .none

theorem pend_cases (ht : c.At i a rest) (hb : (c.advance i rest o).Pend b) :
    c.Pend b ∨ b ∈ added o := by
  rcases hb.of_advance ht with hb | hb | ⟨th, hth, hb⟩
  · exact .inl hb
  · exact .inr (mem_append_left _ hb)
  · exact .inr (mem_append_right _ (mem_flatten.mpr ⟨th, hth, hb⟩))

theorem Step.tendRef (hs : Step w x a w' l) (hb : b ∈ l) (hp : b.tendRef = some p) :
    a.tendRef = some p ∧ (b.launchRef = some p → a.launchRef = some p) ∨
      (∃ req, a = .launch req .register) ∧ w.state = .active ∧ p = w.nProc := by
  have hmem : b ∈ l.filter (·.tendRef.isSome) := mem_filter.mpr ⟨hb, by simp [hp]⟩
  have hnews := hs.news
  generalize l.filter (·.tendRef.isSome) = l' at hmem hnews
  cases hnews with try cases mem_singleton.mp hmem
  | none => cases hmem
  | goes ha hb' hl =>
    cases hb'.symm.trans hp
    exact .inl ⟨ha, hl⟩
  | registered ha hact hb' =>
    cases hb'.symm.trans hp
    exact .inr ⟨⟨_, ha⟩, hact, rfl⟩

theorem Step.launchRef (hs : Step w x a w' l) (hb : b ∈ l) (hp : b.launchRef = some p) :
    a.launchRef = some p ∨
      (∃ req, a = .launch req .register) ∧ w.state = .active ∧ p = w.nProc := by
  rcases hs.tendRef hb (launchRef_tendRef hp) with ⟨-, h⟩ | h
  · exact .inl (h hp)
  · exact .inr h

theorem countP_tends_added (hs : Step w x a w' (added o)) (p : ProcRef) :
    o.more.countP (Op.tends p) + (o.spawn.map (List.countP (Op.tends p))).sum ≤
      if a.tends p ∨ p = w.nProc then 1 else 0 := by
  rw [← countP_flatten, ← countP_append]
  show (added o).countP (Op.tends p) ≤ _
  by_cases hex : ∃ b ∈ added o, b.tendRef = some p
  · obtain ⟨b, hb, hp⟩ := hex
    have hle : (added o).countP (Op.tends p) ≤ ((added o).filter (·.tendRef.isSome)).length := by
      rw [← countP_eq_length_filter]
      refine countP_mono_left fun b' _ h => ?_
      simp only [Op.tends, beq_iff_eq] at h
      simp [h]
    have hlen := hs.news.length_le
    rw [if_pos]
    · omega
    · rcases hs.tendRef hb hp with ⟨ha, -⟩ | ⟨-, -, hn⟩
      · exact .inl (by simp [Op.tends, ha])
      · exact .inr hn
  · have hzero : (added o).countP (Op.tends p) = 0 := by
      refine countP_eq_zero.mpr fun b hb h => hex ⟨b, hb, ?_⟩
      simpa [Op.tends] using h
    omega

/-! ## Assertions -/

def World.Mapped (w : World) (p : ProcRef) : Prop := ∃ k, (k, p) ∈ w.processes

/-- Process `p` is not being launched. -/
def Idle (c : Config World Op) (p : ProcRef) : Prop :=
  p < c.state.nProc ∧ c.pending (Op.launches p) = 0

/-- No process is being launched, and none can be. -/
def Calm (c : Config World Op) : Prop :=
  c.state.state ≠ .active ∧ c.pending Op.launching = 0

/-- The processes that a waiting `DestroySession` has still to wait for. -/
def Awaited (c : Config World Op) (todo : List ProcRef) : Prop :=
  ∀ q ∈ todo, q < c.state.nProc ∧ (c.state.proc q).Hit

/-- What is known when an action is pending. -/
def Good (c : Config World Op) : Op → Prop
  | .launch _ (.createProxy p) =>
    p < c.state.nProc ∧ c.state.Mapped p ∧ (c.state.proc p).Quiet
  | .launch _ (.setProxy p _) =>
    p < c.state.nProc ∧ c.state.Mapped p ∧ (c.state.proc p).child ≠ .running
  | .launch _ (.run p) =>
    p < c.state.nProc ∧ c.state.Mapped p ∧ (c.state.proc p).child ≠ .running ∧
      (c.state.proc p).Wired
  | .launch _ (.publish p) =>
    p < c.state.nProc ∧ c.state.Mapped p ∧ (c.state.proc p).Wired
  | .launch _ (.closeProxy p _) =>
    p < c.state.nProc ∧ (c.state.proc p).child ≠ .running ∧ (c.state.proc p).Wired
  | .launch _ (.unregister p _) => p < c.state.nProc ∧ (c.state.proc p).Quiet
  | .launch _ (.closeDone p _) | .monitor (.closeDone p) => Idle c p ∧ (c.state.proc p).Quiet
  | .launch _ (.respond p) | .monitor (.wait p) => Idle c p
  | .monitor (.markExited p) | .monitor (.closeProxy p) =>
    Idle c p ∧ (c.state.proc p).child ≠ .running
  | .destroy _ .drain | .destroy _ .list => c.state.state ≠ .active
  | .destroy _ (.killing todo all) =>
    Calm c ∧ (∀ q, c.state.Mapped q → q ∈ all) ∧
      ∀ q ∈ all, q < c.state.nProc ∧ (q ∈ todo ∨ (c.state.proc q).Hit)
  | .destroy _ (.signalling p todo all) =>
    Calm c ∧ (∀ q, c.state.Mapped q → q ∈ all) ∧
      ∀ q ∈ all, q < c.state.nProc ∧ (q ∈ p :: todo ∨ (c.state.proc q).Hit)
  | .destroy _ (.awaiting todo) =>
    Calm c ∧ (∀ q, c.state.Mapped q → q ∈ todo ∨ (c.state.proc q).Quiet) ∧ Awaited c todo
  | .destroy _ (.killAgain p todo) | .destroy _ (.signalAgain p todo)
  | .destroy _ (.awaitAgain p todo) | .destroy _ (.closeProxy p todo) =>
    Calm c ∧ (∀ q, c.state.Mapped q → q ∈ p :: todo ∨ (c.state.proc q).Quiet) ∧
      Awaited c todo ∧ p < c.state.nProc ∧ (c.state.proc p).child ≠ .running
  | .destroy _ .clear => Calm c ∧ ∀ q, c.state.Mapped q → (c.state.proc q).Quiet
  | .destroy _ .storage | .destroy _ .delete =>
    Calm c ∧ ∀ q < c.state.nProc, (c.state.proc q).Quiet
  | _ => True

structure Inv (h : Bool) (c : Config World Op) : Prop where
  seq : c.state.processSeq = c.state.nProc
  ids : ∀ p < c.state.nProc, (c.state.proc p).id = processID c.state.sessionID (p + 1)
  keys : ∀ q ∈ c.state.processes, q.2 < c.state.nProc ∧ q.1 = (c.state.proc q.2).id
  once : ∀ p, c.pending (Op.tends p) ≤ 1
  recorded : ∀ p, Idle c p → (c.state.proc p).cmd = true ∨ (c.state.proc p).Quiet
  mapped : ∀ p, Idle c p → c.state.Mapped p ∨ (c.state.proc p).Quiet
  wired : ∀ p, Idle c p → (c.state.proc p).Wired
  exited : ∀ p < c.state.nProc, (c.state.proc p).status = .exited →
    c.pending (Op.tends p) = 0 ∧ (c.state.proc p).child ≠ .running
  done : ∀ p < c.state.nProc, (c.state.proc p).done = true → Idle c p ∧ (c.state.proc p).Quiet
  ops : ∀ b, c.Pend b → Good c b
  returned : h = true → Calm c ∧ ∀ p < c.state.nProc, (c.state.proc p).Quiet

section Frames

variable {h : Bool} {w w' : World} {c : Config World Op} {a b : Op} {i : Nat} {l rest : List Op}
  {x : Choice} {o : Outcome World Op} {p : ProcRef} (ht : c.At i a rest)
  (hs : Step c.state x a o.state (added o)) {v v' : ManagedProcess}

theorem ManagedProcess.Kept.quiet (hk : v.Kept v') (h : v.Quiet) : v'.Quiet :=
  ⟨hk.child h.1, Bool.eq_false_iff.mpr fun hl => by
    have hold := hk.listening hl
    rw [h.2] at hold
    cases hold⟩

theorem ManagedProcess.Kept.hit (hk : v.Kept v') (h : v.Hit) : v'.Hit := by
  rcases h with h | h
  · exact .inl (hk.signalled h)
  · exact .inr (hk.child h)

theorem ManagedProcess.Kept.wired (hk : v.Kept v') (h : v.Wired) :
    v'.Wired := fun hl => hk.proxy ▸ h (hk.listening hl)

theorem Step.nProc_le (hs : Step w x a w' l) : w.nProc ≤ w'.nProc := by
  cases hs.mapChange with
  | same _ _ hn => exact le_of_eq hn.symm
  | registered => exact Nat.le_succ _
  | unregistered | marked | cleared => exact le_refl _

theorem Step.inactive (hs : Step w x a w' l) (hact : w.state ≠ .active) :
    w'.state ≠ .active ∧ w'.nProc = w.nProc ∧ ∀ q, w'.Mapped q → w.Mapped q := by
  cases hs.mapChange with
  | same hst hproc hn =>
    refine ⟨hst ▸ hact, hn, ?_⟩
    rintro q ⟨k, hk⟩
    exact ⟨k, hproc ▸ hk⟩
  | registered hactive => exact absurd hactive hact
  | unregistered =>
    refine ⟨hact, rfl, ?_⟩
    rintro q ⟨k, hk⟩
    exact ⟨k, (mem_filter.mp hk).1⟩
  | marked => exact ⟨by simp, rfl, fun _ h => h⟩
  | cleared =>
    refine ⟨hact, rfl, ?_⟩
    rintro q ⟨k, hk⟩
    cases hk

theorem Calm.idle (hc : Calm c) (hp : p < c.state.nProc) : Idle c p := by
  refine ⟨hp, pending_none fun b hb hl => ?_⟩
  have href : b.launchRef = some p := eq_of_beq hl
  exact not_pend hc.2 (by simp [Op.launching, href]) hb

theorem Inv.idInj (hI : Inv h c) (hp : p < c.state.nProc) (hq : q < c.state.nProc)
    (heq : (c.state.proc p).id = (c.state.proc q).id) : p = q := by
  rw [hI.ids p hp, hI.ids q hq] at heq
  exact Nat.succ.inj (processID_injective _ heq)

theorem World.Mapped.lt (hm : c.state.Mapped p) (hI : Inv h c) : p < c.state.nProc := by
  obtain ⟨k, hk⟩ := hm
  exact (hI.keys _ hk).1

include ht

theorem not_launchRef (hz : c.pending (Op.launches p) = 0) : a.launchRef ≠ some p := by
  intro ha
  exact not_pend hz (by simp [Op.launches, ha]) (pend_head ht)

include hs

theorem Idle.step (hi : Idle c p) : Idle (c.advance i rest o) p := by
  refine ⟨lt_of_lt_of_le hi.1 hs.nProc_le, pending_none fun b hb hl => ?_⟩
  have hp : b.launchRef = some p := eq_of_beq hl
  rcases pend_cases ht hb with hb | hb
  · exact not_pend hi.2 hl hb
  · rcases hs.launchRef hb hp with ha | ⟨-, -, hn⟩
    · exact not_launchRef ht hi.2 ha
    · exact absurd hn (ne_of_lt hi.1)

theorem Idle.kept (hi : Idle c p) : (c.state.proc p).Kept (o.state.proc p) :=
  (hs.change p).kept hi.1 (not_launchRef ht hi.2)

theorem Calm.step (hc : Calm c) : Calm (c.advance i rest o) := by
  refine ⟨(hs.inactive hc.1).1, pending_none fun b hb hl => ?_⟩
  rcases pend_cases ht hb with hb | hb
  · exact not_pend hc.2 hl hb
  · obtain ⟨p, hp⟩ := Option.isSome_iff_exists.mp hl
    rcases hs.launchRef hb hp with ha | ⟨-, hact, -⟩
    · exact not_pend hc.2 (by simp [Op.launching, ha]) (pend_head ht)
    · exact hc.1 hact

theorem Calm.kept (hc : Calm c) (hp : p < c.state.nProc) :
    (c.state.proc p).Kept (o.state.proc p) :=
  (hc.idle hp).kept ht hs

theorem Inv.mapped_step (hI : Inv h c) (hcond : processCond c a x = true) (hm : c.state.Mapped p) :
    o.state.Mapped p ∨ (∃ req err, a = .launch req (.unregister p err)) ∨
      (∃ id, a = .destroy id .clear) ∨ (c.state.proc p).done = true := by
  have hp := hm.lt hI
  obtain ⟨k, hk⟩ := hm
  have hkey := (hI.keys _ hk).2
  generalize ho : o.state = w'
  have hmc := hs.mapChange
  rw [ho] at hmc
  cases hmc with
  | same _ hproc => exact .inl ⟨k, hproc ▸ hk⟩
  | @registered req now _ hnow =>
    by_cases hstale : (c.state.proc p).stale now = true
    · subst hnow
      have hdone := all_eq_true.mp hcond (k, p) hk
      simp only [hstale, Bool.not_true, Bool.false_or] at hdone
      exact .inr (.inr (.inr hdone))
    · refine .inl ⟨k, mem_append_left _ (mem_filter.mpr ⟨?_, ?_⟩)⟩
      · exact mem_filter.mpr ⟨hk, by simpa using hstale⟩
      · have hne : k ≠ processID c.state.sessionID (c.state.processSeq + 1) := by
          rw [show k = _ from hkey, hI.ids p hp, hI.seq]
          intro heq
          have hlt := Nat.succ.inj (processID_injective _ heq)
          exact absurd hlt (ne_of_lt hp)
        exact decide_eq_true hne
  | @unregistered req r err =>
    by_cases hr : p = r
    · subst hr
      exact .inr (.inl ⟨req, err, rfl⟩)
    · refine .inl ⟨k, mem_filter.mpr ⟨hk, ?_⟩⟩
      have hrlt : r < c.state.nProc := (hI.ops _ (pend_head ht)).1
      have hne : k ≠ (c.state.proc r).id := fun heq => hr (hI.idInj hp hrlt (hkey ▸ heq))
      simpa using hne
  | marked => exact .inl ⟨k, hk⟩
  | cleared => exact .inr (.inr (.inl ⟨_, rfl⟩))

/-- A process that is being launched stays in the map. -/
theorem Inv.launching_mapped (hI : Inv h c) (hcond : processCond c a x = true) (hb : c.Pend b)
    (hp : b.launchRef = some p) (ha : a.launchRef ≠ some p) (hm : c.state.Mapped p) :
    o.state.Mapped p := by
  rcases hI.mapped_step ht hs hcond hm with h | ⟨req, err, rfl⟩ | ⟨id, rfl⟩ | hdone
  · exact h
  · exact absurd rfl ha
  · have hcalm : Calm c := (hI.ops _ (pend_head ht)).1
    exact absurd hb (not_pend hcalm.2 (by simp [Op.launching, hp]))
  · have hidle := (hI.done p (hm.lt hI) hdone).1.2
    exact absurd hb (not_pend hidle (by simp [Op.launches, hp]))

theorem Awaited.step (h : Awaited c todo) (hc : Calm c) : Awaited (c.advance i rest o) todo := by
  intro q hq
  obtain ⟨hlt, hhit⟩ := h q hq
  exact ⟨lt_of_lt_of_le hlt hs.nProc_le, (hc.kept ht hs hlt).hit hhit⟩

/-- What has been asserted about the processes of the map after the listing. -/
theorem Inv.mapped_quiet (hI : Inv h c) (todo : List ProcRef) (hc : Calm c)
    (hmap : ∀ q, c.state.Mapped q → q ∈ todo ∨ (c.state.proc q).Quiet) :
    ∀ q, o.state.Mapped q → q ∈ todo ∨ (o.state.proc q).Quiet := by
  intro q hq
  have hold := (hs.inactive hc.1).2.2 q hq
  rcases hmap q hold with hmem | hquiet
  · exact .inl hmem
  · exact .inr ((hc.kept ht hs (hold.lt hI)).quiet hquiet)

theorem listed_step (todo all : List ProcRef) (hc : Calm c)
    (hall : ∀ q ∈ all, q < c.state.nProc ∧ (q ∈ todo ∨ (c.state.proc q).Hit)) :
    ∀ q ∈ all, q < o.state.nProc ∧ (q ∈ todo ∨ (o.state.proc q).Hit) := by
  intro q hq
  obtain ⟨hlt, hor⟩ := hall q hq
  refine ⟨lt_of_lt_of_le hlt hs.nProc_le, ?_⟩
  rcases hor with hmem | hhit
  · exact .inl hmem
  · exact .inr ((hc.kept ht hs hlt).hit hhit)

/-- What is known at an action stays true while another one is executed. -/
theorem Inv.good_kept (hI : Inv h c) (hcond : processCond c a x = true) (hb : c.Pend b)
    (hne : ∀ p, b.launchRef = some p → a.launchRef ≠ some p) : Good (c.advance i rest o) b := by
  have hG := hI.ops b hb
  have hlt : ∀ {p}, p < c.state.nProc → p < o.state.nProc :=
    fun hp => lt_of_lt_of_le hp hs.nProc_le
  have hmapped : ∀ {p}, b.launchRef = some p → c.state.Mapped p → o.state.Mapped p :=
    fun hp hm => hI.launching_mapped ht hs hcond hb hp (hne _ hp) hm
  have hkept : ∀ {p}, b.launchRef = some p → p < c.state.nProc →
      (c.state.proc p).Kept (o.state.proc p) :=
    fun hp hl => (hs.change _).kept hl (hne _ hp)
  cases b with
  | launch req op =>
    cases op with
    | start | lookup | register => trivial
    | createProxy p =>
      obtain ⟨hl, hm, hq⟩ := hG
      exact ⟨hlt hl, hmapped rfl hm, (hkept rfl hl).quiet hq⟩
    | setProxy p text =>
      obtain ⟨hl, hm, hch⟩ := hG
      exact ⟨hlt hl, hmapped rfl hm, (hkept rfl hl).child hch⟩
    | run p =>
      obtain ⟨hl, hm, hch, hw⟩ := hG
      exact ⟨hlt hl, hmapped rfl hm, (hkept rfl hl).child hch, (hkept rfl hl).wired hw⟩
    | publish p =>
      obtain ⟨hl, hm, hw⟩ := hG
      exact ⟨hlt hl, hmapped rfl hm, (hkept rfl hl).wired hw⟩
    | closeProxy p err =>
      obtain ⟨hl, hch, hw⟩ := hG
      exact ⟨hlt hl, (hkept rfl hl).child hch, (hkept rfl hl).wired hw⟩
    | unregister p err =>
      obtain ⟨hl, hq⟩ := hG
      exact ⟨hlt hl, (hkept rfl hl).quiet hq⟩
    | closeDone p err => exact ⟨hG.1.step ht hs, (hG.1.kept ht hs).quiet hG.2⟩
    | respond p => exact Idle.step ht hs hG
  | monitor op =>
    cases op with
    | wait p => exact Idle.step ht hs hG
    | markExited p | closeProxy p => exact ⟨hG.1.step ht hs, (hG.1.kept ht hs).child hG.2⟩
    | closeDone p => exact ⟨hG.1.step ht hs, (hG.1.kept ht hs).quiet hG.2⟩
  | destroy id op =>
    cases op with
    | lookup | mark => trivial
    | drain | list => exact (hs.inactive hG).1
    | killing todo all | signalling p todo all =>
      obtain ⟨hc, hmap, hall⟩ := hG
      exact ⟨hc.step ht hs, fun q hq => hmap q ((hs.inactive hc.1).2.2 q hq),
        listed_step ht hs _ _ hc hall⟩
    | awaiting todo =>
      obtain ⟨hc, hmap, hwait⟩ := hG
      exact ⟨hc.step ht hs, hI.mapped_quiet ht hs _ hc hmap, hwait.step ht hs hc⟩
    | killAgain p todo | signalAgain p todo | awaitAgain p todo | closeProxy p todo =>
      obtain ⟨hc, hmap, hwait, hl, hch⟩ := hG
      exact ⟨hc.step ht hs, hI.mapped_quiet ht hs _ hc hmap, hwait.step ht hs hc, hlt hl,
        (hc.kept ht hs hl).child hch⟩
    | clear =>
      obtain ⟨hc, hmap⟩ := hG
      refine ⟨hc.step ht hs, fun q hq => ?_⟩
      have hold := (hs.inactive hc.1).2.2 q hq
      exact (hc.kept ht hs (hold.lt hI)).quiet (hmap q hold)
    | storage | delete =>
      obtain ⟨hc, hquiet⟩ := hG
      refine ⟨hc.step ht hs, fun q hq => ?_⟩
      have hold : q < c.state.nProc := (hs.inactive hc.1).2.1 ▸ hq
      exact (hc.kept ht hs hold).quiet (hquiet q hold)
  | kill req op | exit p | ret r => trivial

end Frames

end FlexAgentRuntime.ProcessHost
