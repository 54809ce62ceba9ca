import FlexAgentRuntime.Sandbox.Placement
import FlexAgentRuntime.Sandbox.RollbackExclusion

/-!
A destroyed session stays destroyed and its successor is spared, as long as no
`DestroySession` looks up a session that is being created or destroyed, and none takes the
entry out of the map while a `CreateSession` of the same id has begun.

`CreateSession` holds its id from the reservation to its return, `DestroySession` from the
look-up to its return. Under the condition at most one request holds an id (`Owned.one`),
an id that is held is in the map (`Owned.held`), and a `DestroySession` has the session
that the map has (`Owned.target`). The other properties follow from these.
-/

namespace FlexAgentRuntime.SandboxHost

open Interleaving Config List Function

/-- A `CreateSession` has reserved `id` and has not returned. -/
def Op.building (id : String) : Op → Bool
  | .create _ op => op.building == some id
  | _ => false

/-- A `DestroySession` has looked up session `id` and has not returned. -/
def Op.destroys (id : String) : Op → Bool
  | .destroy _ .lookup => false
  | .destroy id' _ => id' == id
  | _ => false

def Op.holds (id : String) (a : Op) : Bool := a.building id || a.destroys id

/-- A `CreateSession` that is, or may become, one of session `id`. -/
def Op.creates (id : String) : Op → Bool
  | .create req .start => req.sessionID == "" || req.sessionID == id
  | .create _ (.reserve id') => id' == id
  | .create _ op => op.building == some id
  | _ => false

/-- For the ids whose session has been destroyed: the number of calls that had been made
when `DestroySession` returned. `CreateSession` that succeeds takes the id out. -/
def noteDestroyed (h : String → Option Nat) (c : Config World Op) (a : Op) (_ : Choice) :
    String → Option Nat :=
  match a with
  | .destroy id (.delete _) => update h id (some c.threads.length)
  | .create _ (.store id _ _) => update h id none
  | _ => h

/-- A `DestroySession` looks up a session only while no request holds its id, and takes it
out of the map only while no `CreateSession` of the id has begun. -/
def destroyCond (c : Config World Op) (a : Op) (_ : Choice) : Bool :=
  match a with
  | .destroy id .lookup => (c.state.getSession id).isNone || c.pending (Op.holds id) == 0
  | .destroy id (.delete _) => c.pending (Op.creates id) == 0
  | _ => true

def destroyMonitor : Monitor World Op Choice (String → Option Nat) :=
  ⟨fun h _ _ => h, noteDestroyed, fun _ => destroyCond⟩

variable {w : World} {a b : Op} {x : Choice} {o : Outcome World Op} {id : String}

theorem Op.creates_of_building (h : a.building id = true) : a.creates id = true := by
  cases a with
  | create req op => cases op <;> first | exact h | cases h
  | _ => cases h

theorem getSession_storeSession_ne_none (w : World) (hid : v.id = id) :
    (w.storeSession v).getSession id ≠ none := by
  rw [← hid, getSession_storeSession]
  exact Option.some_ne_none _

theorem holds_more (hx : exec x a w = some o) (hb : b ∈ o.more) (hh : b.holds id = true) :
    o.more = [b] ∧ (a.holds id = true ∨
      (∃ req, a = .create req (.reserve id) ∧ w.getSession id = none ∧
        o.state.getSession id ≠ none) ∨
      (a = .destroy id .lookup ∧ w.getSession id ≠ none)) := by
  obtain ⟨w', more, spawn⟩ := o
  have hs : Step w a w' more := (step_of_exec hx).1
  change b ∈ more at hb
  show more = [b] ∧ _
  have hreq := hs.request_more hb
  cases b with
  | create req op =>
    have hop : op.building = some id := by simpa [Op.holds, Op.building, Op.destroys] using hh
    cases a with
    | create req' op' =>
      have hdoes : CreateOp.Does w req' op' w' more := createDoes_of_exec hx
      cases hdoes with try cases mem_singleton.mp hb
      | begun => cases hop
      | reserved hfree _ hn =>
        cases hn.symm.trans hop
        exact ⟨rfl, .inr (.inl ⟨_, rfl, hfree, getSession_storeSession_ne_none w rfl⟩)⟩
      | worked _ ho hn =>
        cases hn.symm.trans hop
        exact ⟨rfl, .inl (by simp [Op.holds, Op.building, ho])⟩
    | _ => simp [Op.request] at hreq
  | destroy id' op =>
    have hid : id' = id := by
      cases op <;> simp_all [Op.holds, Op.building, Op.destroys]
    subst hid
    cases a with
    | destroy id'' op' =>
      have heq : id' = id'' := by simpa [Op.request] using hreq
      subst heq
      cases hs with
      | destroy hs =>
        cases hs with try cases mem_singleton.mp hb
        | found hf => exact ⟨rfl, .inr (.inr ⟨rfl, by simp [hf]⟩)⟩
        | _ => exact ⟨rfl, .inl (by simp [Op.holds, Op.building, Op.destroys])⟩
    | _ => simp [Op.request] at hreq
  | _ => cases hh

theorem creates_more (hx : exec x a w = some o) (hb : b ∈ o.more) (hc : b.creates id = true) :
    a.creates id = true := by
  obtain ⟨w', more, spawn⟩ := o
  change b ∈ more at hb
  have hreq := (step_of_exec hx).1.request_more hb
  cases b with
  | create req op =>
    cases a with
    | create req' op' =>
      have hdoes : CreateOp.Does w req' op' w' more := createDoes_of_exec hx
      -- past the reservation the id is the one that is being built
      have hnext : ∀ {op : CreateOp} {id' : String}, op.building = some id' →
          (Op.create req op).creates id = (id' == id) := by
        intro op id' hop
        cases op <;> first | (cases hop; rfl) | cases hop
      cases hdoes with try cases mem_singleton.mp hb
      | begun _ hid =>
        simp only [Op.creates, Bool.or_eq_true, beq_iff_eq] at hc ⊢
        rcases hid with hid | hid
        · exact .inl hid
        · exact .inr (hid.trans hc)
      | reserved _ _ hn => rwa [hnext hn] at hc
      | worked _ ho hn => rwa [hnext hn, ← hnext ho] at hc
    | _ => simp [Op.request] at hreq
  | _ => cases hc

/-- Only requests that hold an id, and reservations, change what the map has for it. -/
theorem getSession_cases (hx : exec x a w = some o) (id : String) :
    o.state.getSession id = w.getSession id ∨
      (∃ req, a = .create req (.reserve id) ∧ w.getSession id = none ∧
        o.state.getSession id ≠ none ∧ ∃ b ∈ o.more, b.building id = true) ∨
      (∃ req err, a = .create req (.forget id err) ∧ o.state.getSession id = none) ∨
      (∃ req dataset mp, a = .create req (.store id dataset mp) ∧
        o.state.getSession id ≠ none) ∨
      (∃ r, a = .destroy id (.delete r) ∧ o.state.getSession id = none) := by
  obtain ⟨w', more, spawn⟩ := o
  have hmap : MapStep w a w' more := mapStep_of_exec hx
  show w'.getSession id = w.getSession id ∨ _
  cases hmap with
  | same hsess => exact .inl (by rw [World.getSession, hsess, World.getSession])
  | @reserved req id' next hfree _ hn =>
    by_cases hid : id = id'
    · subst hid
      refine .inr (.inl ⟨req, rfl, hfree, getSession_storeSession_ne_none w rfl, _,
        mem_singleton_self _, ?_⟩)
      simp [Op.building, hn]
    · exact .inl (getSession_storeSession_ne w _ hid)
  | @forgot req id' err =>
    by_cases hid : id = id'
    · subst hid
      exact .inr (.inr (.inl ⟨req, err, rfl, getSession_deleteSession w⟩))
    · exact .inl (getSession_deleteSession_ne w hid)
  | @stored req id' dataset mp =>
    by_cases hid : id = id'
    · subst hid
      exact .inr (.inr (.inr (.inl ⟨req, dataset, mp, rfl, getSession_storeSession_ne_none w rfl⟩)))
    · exact .inl (getSession_storeSession_ne w _ hid)
  | @deleted id' r =>
    by_cases hid : id = id'
    · subst hid
      exact .inr (.inr (.inr (.inr ⟨r, rfl, getSession_deleteSession w⟩)))
    · exact .inl (getSession_deleteSession_ne w hid)

/-! ## Runs -/

/-- Who holds an id, and what is left of a destroyed session. -/
structure Owned (h : String → Option Nat) (c : Config World Op) : Prop where
  one : ∀ id, c.pending (Op.holds id) ≤ 1
  held : ∀ id, 0 < c.pending (Op.holds id) → c.state.getSession id ≠ none
  target : ∀ id op s, c.Pend (.destroy id op) → (Op.destroy id op).ref = some s →
    c.state.getSession id = some s
  bound : 0 < c.state.config.maxSessions → c.state.sessions.length ≤ c.state.config.maxSessions
  gone : ∀ id n, h id = some n → c.state.getSession id ≠ none → 0 < c.pending (Op.building id)
  late : ∀ id n, h id = some n → n ≤ c.threads.length ∧
    ∀ i th b, c.threads[i]? = some th → b ∈ th → b.creates id = true → n ≤ i

variable {c : Config World Op} {i n : Nat} {rest : List Op} {h : String → Option Nat}
  {op : DestroyOp} {s : SessRef}

theorem Op.holds_of_destroys (hb : a.destroys id = true) : a.holds id = true := by
  simp [Op.holds, hb]

/-- A destroyer past its look-up holds the id. -/
theorem Op.destroys_of_ref (hr : (Op.destroy id op).ref = some s) :
    (Op.destroy id op).destroys id = true := by
  cases op <;> first | exact beq_self_eq_true id | cases hr

theorem length_filter_lt_of_getSession (hin : w.getSession id ≠ none) :
    (w.sessions.filter (·.1 ≠ id)).length < w.sessions.length := by
  obtain ⟨s, hs⟩ := Option.ne_none_iff_exists'.mp hin
  refine length_filter_lt_length_iff_exists.mpr ⟨(id, s), getSession_some hs, ?_⟩
  simp

/-- What is noted of `id` stays unless a `DestroySession` or a `CreateSession` of it ends. -/
theorem noteDestroyed_cases (h : String → Option Nat) (c : Config World Op) (a : Op) (x : Choice)
    (id : String) :
    (∃ r, a = .destroy id (.delete r) ∧ noteDestroyed h c a x id = some c.threads.length) ∨
      (∃ req dataset mp, a = .create req (.store id dataset mp) ∧
        noteDestroyed h c a x id = none) ∨
      ((∀ r, a ≠ .destroy id (.delete r)) ∧ (∀ req dataset mp, a ≠ .create req (.store id dataset mp)) ∧
        noteDestroyed h c a x id = h id) := by
  unfold noteDestroyed
  split
  · rename_i id' r
    by_cases hid : id = id'
    · subst hid
      exact .inl ⟨r, rfl, update_self ..⟩
    · refine .inr (.inr ⟨?_, nofun, update_of_ne hid ..⟩)
      rintro _ ⟨⟩
      exact hid rfl
  · rename_i req id' dataset mp
    by_cases hid : id = id'
    · subst hid
      exact .inr (.inl ⟨req, dataset, mp, rfl, update_self ..⟩)
    · refine .inr (.inr ⟨nofun, ?_, update_of_ne hid ..⟩)
      rintro _ _ _ ⟨⟩
      exact hid rfl
  · rename_i hdel hstore
    exact .inr (.inr ⟨fun r => hdel id r, fun req dataset mp => hstore req id dataset mp, rfl⟩)

section

variable (ht : c.At i a rest) (hx : exec x a c.state = some o) (hO : Owned h c)

include ht hx hO

theorem Owned.one_step (hcond : destroyCond c a x = true) (id : String) :
    (c.advance i rest o).pending (Op.holds id) ≤ 1 := by
  obtain ⟨-, hspawn⟩ := step_of_exec hx
  have hcount : o.more.countP (Op.holds id) ≤ 1 := by
    refine countP_le_of_mem fun b hb hh => ?_
    rw [(holds_more hx hb hh).1]
    exact countP_le_length
  refine unused_token_step ht (hO.one id) (by simp [hspawn]) (fun _ => hcount) ?_
  -- the id is taken by a reservation or by a look-up
  rintro hna ⟨b, hb, hh⟩
  refine ⟨?_, hcount⟩
  rcases (holds_more hx hb hh).2 with ha | ⟨req, rfl, hfree, -⟩ | ⟨rfl, hfound⟩
  · rw [hna] at ha
    cases ha
  · exact Nat.eq_zero_of_not_pos fun hpos => hO.held id hpos hfree
  · simp only [destroyCond, Bool.or_eq_true, Option.isNone_iff_eq_none, beq_iff_eq] at hcond
    exact hcond.resolve_left hfound

theorem Owned.new_holder (ha : a.holds id = true) (hb : (c.advance i rest o).Pend b)
    (hh : b.holds id = true) : b ∈ o.more := by
  rcases hb.new_of_pending_le_one ht ha (hO.one id) hh with hb | ⟨th, hth, -⟩
  · exact hb
  · rw [(step_of_exec hx).2] at hth
    cases hth

theorem Owned.no_holder (ha : a.holds id = true) (hret : o.more = [.ret r]) :
    (c.advance i rest o).pending (Op.holds id) = 0 := by
  refine pending_none fun b hb hh => ?_
  have hmem := hO.new_holder ht hx ha hb hh
  rw [hret] at hmem
  cases mem_singleton.mp hmem
  cases hh

theorem Owned.held_step (hpos : 0 < (c.advance i rest o).pending (Op.holds id)) :
    o.state.getSession id ≠ none := by
  obtain ⟨-, hspawn⟩ := step_of_exec hx
  rcases getSession_cases hx id with heq | ⟨req, -, -, hin, -⟩ | ⟨req, err, rfl, -⟩ |
      ⟨req, dataset, mp, -, hin⟩ | ⟨r, rfl, -⟩
  · rcases pos_of_pending_advance ht (by simp [hspawn]) hpos with hbefore | ⟨b, hb, hh⟩
    · exact heq ▸ hO.held id hbefore
    · rcases (holds_more hx hb hh).2 with ha | ⟨req, -, -, hin⟩ | ⟨-, hfound⟩
      · exact heq ▸ hO.held id (pending_head ht ha)
      · exact hin
      · exact heq ▸ hfound
  · exact hin
  · have hret : o.more = [.ret (.failed err)] := by
      cases hx
      rfl
    rw [hO.no_holder ht hx (by simp [Op.holds, Op.building, CreateOp.building]) hret] at hpos
    exact absurd hpos (lt_irrefl 0)
  · exact hin
  · have hret : o.more = [.ret .done] := by
      cases hx
      rfl
    rw [hO.no_holder ht hx (by simp [Op.holds, Op.building, Op.destroys]) hret] at hpos
    exact absurd hpos (lt_irrefl 0)

theorem Owned.target_step (hb : (c.advance i rest o).Pend (.destroy id op))
    (hr : (Op.destroy id op).ref = some s) :
    o.state.getSession id = some s := by
  obtain ⟨hs, hspawn⟩ := step_of_exec hx
  have hh := Op.holds_of_destroys (Op.destroys_of_ref hr)
  by_cases ha : a.holds id = true
  · -- the same request goes on with its session, and leaves the map as it is
    have hmem := hO.new_holder ht hx ha hb hh
    have hreq := (hs.request_more hmem).resolve_right fun ⟨_, h⟩ => by cases h
    cases a with
    | destroy id' op' =>
      obtain rfl : id = id' := by simpa [Op.request] using hreq
      have hsame : o.state.getSession id = c.state.getSession id := by
        rcases getSession_cases hx id with heq | ⟨_, ⟨⟩, -⟩ | ⟨_, _, ⟨⟩, -⟩ | ⟨_, _, _, ⟨⟩, -⟩ |
            ⟨r, ⟨⟩, -⟩
        · exact heq
        · cases hx
          cases mem_singleton.mp hmem
      rw [hsame]
      rcases hs.ref_more hmem hr with href | ⟨id'', hid, hget⟩
      · exact hO.target id op' s (pend_head ht) href
      · cases hid
        exact hget
    | _ => simp [Op.request] at hreq
  · have hother : ∀ {b : Op}, b.holds id = true → a ≠ b := fun hb heq => ha (heq ▸ hb)
    rcases hb.of_advance_nil ht hspawn with hb | hb
    · have hold := hO.target id op s hb hr
      rcases getSession_cases hx id with heq | ⟨req, -, hfree, -⟩ | ⟨req, err, h, -⟩ |
          ⟨req, dataset, mp, h, -⟩ | ⟨r, h, -⟩
      · rw [heq, hold]
      · cases hold.symm.trans hfree
      · exact absurd h (hother (by simp [Op.holds, Op.building, CreateOp.building]))
      · exact absurd h (hother (by simp [Op.holds, Op.building, CreateOp.building]))
      · exact absurd h (hother (by simp [Op.holds, Op.building, Op.destroys]))
    · rcases (holds_more hx hb hh).2 with h | ⟨req, rfl, -⟩ | ⟨rfl, -⟩
      · exact absurd h ha
      · rcases hs.request_more hb with h | ⟨r, h⟩ <;> cases h
      · rcases hs.ref_more hb hr with href | ⟨id', hid, hget⟩
        · cases href
        · cases hid
          cases hx
          exact hget

theorem Owned.bound_step (hmax : 0 < o.state.config.maxSessions) :
    o.state.sessions.length ≤ o.state.config.maxSessions := by
  obtain ⟨w', more, spawn⟩ := o
  have hmap : MapStep c.state a w' more := mapStep_of_exec hx
  change 0 < w'.config.maxSessions at hmax
  show w'.sessions.length ≤ w'.config.maxSessions
  cases hmap with
  | same hsess _ hconf =>
    rw [hconf] at hmax
    rw [hsess, hconf]
    exact hO.bound hmax
  | @reserved _ id _ _ hroom _ =>
    have hle := length_filter_le (fun q : String × SessRef => decide (q.1 ≠ id)) c.state.sessions
    have hlt := hroom hmax
    simp only [World.storeSession, length_append, length_singleton]
    omega
  | forgot | deleted => exact le_trans (length_filter_le ..) (hO.bound hmax)
  | @stored req id dataset mp =>
    -- the entry takes the place of the reservation
    have hheld : 0 < c.pending (Op.holds id) := pending_head ht
      (by simp [Op.holds, Op.building, CreateOp.building])
    have hlt := length_filter_lt_of_getSession (hO.held id hheld)
    have hle := hO.bound hmax
    simp only [World.storeSession, length_append, length_singleton]
    omega

theorem Owned.gone_step (hn : noteDestroyed h c a x id = some n)
    (hin : o.state.getSession id ≠ none) :
    0 < (c.advance i rest o).pending (Op.building id) := by
  rcases noteDestroyed_cases h c a x id with ⟨r, rfl, -⟩ | ⟨_, _, _, -, hnone⟩ | ⟨hdel, hstore, heq⟩
  · cases hx
    exact absurd (getSession_deleteSession c.state) hin
  · cases hnone.symm.trans hn
  · rw [heq] at hn
    rcases getSession_cases hx id with hsame | ⟨req, -, -, -, b, hb, hbuild⟩ | ⟨req, err, -, hnone⟩ |
        ⟨req, dataset, mp, h, -⟩ | ⟨r, h, -⟩
    · -- whoever is building the session goes on with it
      obtain ⟨b, hb, hbuild⟩ := pending_pos.mp (hO.gone id n hn (hsame ▸ hin))
      by_cases hba : b = a
      · subst hba
        cases b with
        | create req op =>
          have hop : op.building = some id := by simpa [Op.building] using hbuild
          obtain ⟨w', more, spawn⟩ := o
          have hdoes : CreateOp.Does c.state req op w' more := createDoes_of_exec hx
          cases hdoes with
          | begun | refused | reserved => cases hop
          | worked _ ho hnext =>
            cases ho.symm.trans hop
            exact pending_pos.mpr ⟨_, pend_more ht (mem_singleton_self _),
              by simp [Op.building, hnext]⟩
          | forgot =>
            cases hop
            exact absurd (getSession_deleteSession c.state) hin
          | stored =>
            cases hop
            exact absurd rfl (hstore req _ _)
        | _ => cases hbuild
      · exact pending_pos.mpr ⟨b, hb.advance ht hba, hbuild⟩
    · exact pending_pos.mpr ⟨b, pend_more ht hb, hbuild⟩
    · exact absurd hnone hin
    · exact absurd h (hstore req dataset mp)
    · exact absurd h (hdel r)

theorem Owned.late_step (hcond : destroyCond c a x = true)
    (hn : noteDestroyed h c a x id = some n) :
    n ≤ (c.advance i rest o).threads.length ∧ ∀ j th b,
      (c.advance i rest o).threads[j]? = some th → b ∈ th → b.creates id = true → n ≤ j := by
  obtain ⟨-, hspawn⟩ := step_of_exec hx
  have hlen : (c.advance i rest o).threads.length = c.threads.length := by
    simp [Config.advance, hspawn]
  rw [hlen]
  -- a `CreateSession` of the id was one before, in the same thread
  suffices hbefore : n ≤ c.threads.length ∧ ∀ (j : Nat) th b, c.threads[j]? = some th → b ∈ th →
      Op.creates id b = true → n ≤ j by
    refine ⟨hbefore.1, fun j th b hj hb hc => ?_⟩
    rcases getElem?_advance_cases hspawn hj with ⟨-, hj⟩ | ⟨rfl, rfl⟩
    · exact hbefore.2 j th b hj hb hc
    · rcases mem_append.mp hb with hb | hb
      · exact hbefore.2 j _ a ht mem_cons_self (creates_more hx hb hc)
      · exact hbefore.2 j _ b ht (mem_cons_of_mem a hb) hc
  rcases noteDestroyed_cases h c a x id with ⟨r, rfl, hnow⟩ | ⟨_, _, _, -, hnone⟩ | ⟨-, -, heq⟩
  · cases hnow.symm.trans hn
    refine ⟨le_refl _, fun j th b hj hb hc => ?_⟩
    have hzero : c.pending (Op.creates id) = 0 := by simpa [destroyCond] using hcond
    exact absurd ⟨th, mem_of_getElem? hj, hb⟩ (not_pend hzero hc)
  · cases hnone.symm.trans hn
  · rw [heq] at hn
    exact hO.late id n hn

end

theorem apiEntry_holds (he : apiEntry w a = true) (id : String) : a.holds id = false := by
  unfold apiEntry at he
  split at he
  all_goals first
    | rfl
    | cases he

theorem Reach.owned (h0 : ∀ id, h₀ id = none)
    (hr : Reach machine destroyMonitor h₀ (initialConfig config zfs) h c) : Owned h c := by
  refine hr.invariant (fun h c => Owned h c) ?_ ?_ ?_
  · refine ⟨fun _ => Nat.zero_le 1, fun _ hpos => absurd hpos (lt_irrefl 0), ?_, ?_, ?_, ?_⟩
    · exact fun id op s hb => absurd hb not_pend_nil
    · intro _
      exact Nat.zero_le _
    · intro id n hn
      cases (h0 id).symm.trans hn
    · intro id n hn
      cases (h0 id).symm.trans hn
  · intro h c a ih he
    have hfree := apiEntry_holds (w := c.state) he
    have hpend : ∀ id, (c.call a).pending (Op.holds id) = c.pending (Op.holds id) :=
      fun id => pending_call_other (hfree id)
    refine ⟨fun id => hpend id ▸ ih.one id, fun id => hpend id ▸ ih.held id, ?_, ih.bound, ?_, ?_⟩
    · intro id op s hb hr
      rcases pend_call.mp hb with hb | rfl
      · exact ih.target id op s hb hr
      · rw [apiEntry_ref (w := c.state) he] at hr
        cases hr
    · intro id n hn hin
      rw [pending_call]
      exact lt_of_lt_of_le (ih.gone id n hn hin) (Nat.le_add_right _ _)
    · intro id n hn
      obtain ⟨hle, hlate⟩ := ih.late id n hn
      refine ⟨le_trans hle (by simp [Config.call]), ?_⟩
      intro j th b hj hb hc
      by_cases hlt : j < c.threads.length
      · simp only [Config.call, List.getElem?_append_left hlt] at hj
        exact hlate j th b hj hb hc
      · exact le_trans hle (not_lt.mp hlt)
  · intro h c i a rest x o ih ht hx hcond
    exact ⟨fun id => ih.one_step ht hx hcond id, fun id => ih.held_step ht hx,
      fun id op s => ih.target_step ht hx, ih.bound_step ht hx, fun id n => ih.gone_step ht hx,
      fun id n => ih.late_step ht hx hcond⟩

/-! ## What a `DestroySession` spares -/

/-- Session `r`, which `w` has under `id`, is there in `w'` too, with its storage. -/
structure World.Spares (w w' : World) (id : String) (r : SessRef) : Prop where
  entry : w'.getSession id = some r
  dataset : w.datasetOf id ∈ w.zfs.datasets → w.datasetOf id ∈ w'.zfs.datasets
  snapshots : ∀ n, (w.datasetOf id, n) ∈ w.zfs.snapshots → (w.datasetOf id, n) ∈ w'.zfs.snapshots
  directory : ∀ mp, safeSessionPath w.config.sessionsRootDir id = .ok mp → mp ∈ w.dirs →
    mp ∈ w'.dirs

variable {w' : World} {id' : String} {r : SessRef}

theorem World.Spares.refl (h : w.getSession id = some r) : w.Spares w id r :=
  ⟨h, fun h => h, fun _ h => h, fun _ _ h => h⟩

theorem World.Spares.of_destroyDataset (h : w.getSession id = some r)
    (hz : w.zfs.destroyDataset name = .ok z) (hne : w.datasetOf id ≠ name) :
    w.Spares { w with zfs := z } id r := by
  unfold Zfs.destroyDataset at hz
  simp only [bind, Except.bind] at hz
  split at hz
  · cases hz
  · split at hz <;> cases hz
    refine ⟨h, ?_, ?_, fun _ _ h => h⟩
    · intro hmem
      exact mem_filter.mpr ⟨hmem, by simpa using hne⟩
    · intro n hmem
      exact mem_filter.mpr ⟨hmem, by simpa using hne⟩

theorem Session.PlacedIn.other {config : ServiceConfig} {v : Session} (h : v.PlacedIn config)
    (hne : id ≠ v.id) : config.datasetOf id ≠ v.dataset ∧
      ∀ mp, config.storageBackend = .localDisk →
        safeSessionPath config.sessionsRootDir id = .ok mp → mp ≠ v.mountpoint := by
  rcases h with ⟨hds, hmp⟩ | hplaces
  · rw [hds, hmp]
    exact ⟨config.datasetOf_ne_empty id, fun mp _ h => safeSessionPath_ne_empty h⟩
  · unfold ServiceConfig.Places at hplaces
    cases hb : config.storageBackend with
    | zfs =>
      rw [hb] at hplaces
      refine ⟨?_, fun mp h => by cases h⟩
      rw [hplaces.1]
      exact fun heq => hne (ServiceConfig.datasetOf_inj heq)
    | localDisk =>
      rw [hb] at hplaces
      refine ⟨hplaces.1 ▸ config.datasetOf_ne_empty id, ?_⟩
      rintro mp - hpath rfl
      exact hne (safeSessionPath_inj hpath hplaces.2)

theorem destroy_spares {op : DestroyOp} (hx : op.exec id x w = some (w', more))
    (hr : (Op.destroy id op).ref = some s) (hplaced : (w.sess s).PlacedIn w.config)
    (hid : (w.sess s).id = id) (hne : id' ≠ id) (hget : w.getSession id' = some r) :
    w.Spares w' id' r := by
  obtain ⟨hds, hmp⟩ := Session.PlacedIn.other hplaced (fun h : id' = (w.sess s).id => hne (h.trans hid))
  cases op with try dsimp only [DestroyOp.exec] at hx
  | lookup => cases hr
  | mark s' =>
    cases hx
    exact ⟨hget, fun h => h, fun _ h => h, fun _ _ h => h⟩
  | wait s' =>
    split at hx
    · split at hx <;> cases hx <;> exact .refl hget
    · cases hx
      exact .refl hget
  | dataset s' =>
    cases hr
    split at hx <;> cases hx
    · exact .refl hget
    · rename_i hlocal
      refine ⟨hget, fun h => h, fun _ h => h, ?_⟩
      intro mp hpath hmem
      exact mem_filter.mpr ⟨hmem, by simpa using hmp mp hlocal hpath⟩
  | datasetEnd s' =>
    cases hr
    exact of_storage (P := fun w' _ => w.Spares w' id' r) hx
      (fun _ hz => .of_destroyDataset hget hz hds) fun _ _ => .refl hget
  | delete s' =>
    cases hx
    exact ⟨(getSession_deleteSession_ne w hne).trans hget, fun h => h, fun _ h => h, fun _ _ h => h⟩

/-- A host for one session. -/
def oneAtATime : ServiceConfig where
  storageBackend := .zfs
  containerRuntime := .gvisor
  sessionsDataset := "tank/sessions"
  maxSessions := 1

end FlexAgentRuntime.SandboxHost
