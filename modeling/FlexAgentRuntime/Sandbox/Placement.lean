import FlexAgentRuntime.Sandbox.Effects

/-!
Where the storage of a session lies, and how the map of sessions changes.

* `safeSessionPath_eq_ok`: the directory of a session is the one called like its id in the
  sessions root;
* `MapStep`: what an action does to the map;
* `Reach.placed`: every session that has been built has the storage that its id gives, and
  the map has it under its id.
-/

namespace FlexAgentRuntime.SandboxHost

open Interleaving Config List SlashPath

/-! ## Directories and datasets -/

variable {id id' root mp : String}

theorem validateSessionID_plain (h : validateSessionID id = .ok ()) :
    SlashPath.Plain id.toList ∧ id.toList.take 2 ≠ dotDot := by
  unfold validateSessionID at h
  split at h
  · cases h
  · rename_i hm
    split at h
    · cases h
    · simp only [Bool.not_eq_true', Bool.not_eq_false, Bool.and_eq_true] at hm
      revert hm
      cases id.toList with
      | nil =>
        rintro ⟨-, hm⟩
        cases hm
      | cons c cs =>
        rintro ⟨-, hm⟩
        simp only [matchesName, Bool.and_eq_true, all_eq_true] at hm
        obtain ⟨hc, hcs⟩ := hm
        have hdot : c ≠ '.' := by
          rintro rfl
          revert hc
          decide
        refine ⟨⟨cons_ne_nil c cs, ?_, ?_, ?_⟩, ?_⟩
        · simp [dot, hdot]
        · simp [dotDot, hdot]
        · intro hmem
          rcases mem_cons.mp hmem with rfl | hmem
          · revert hc
            decide
          · have hslash := hcs '/' hmem
            revert hslash
            decide
        · simp [dotDot, hdot]

/-- The directory of session `id`. -/
def sessionDir (root id : String) : SlashPath.Path :=
  (SlashPath.parse root.toList).child id.toList

theorem sessionDir_clean (h : validateSessionID id = .ok ()) : (sessionDir root id).Clean :=
  (parse_clean _).child (validateSessionID_plain h).1

theorem safeSessionPath_eq_ok : safeSessionPath root id = .ok mp ↔
    validateSessionID id = .ok () ∧ mp = String.ofList (sessionDir root id).render := by
  unfold safeSessionPath
  cases hv : validateSessionID id with
  | error err => simp
  | ok =>
    obtain ⟨hplain, htake⟩ := validateSessionID_plain hv
    have hroot := parse_clean root.toList
    have htarget : clean (join (clean root.toList) id.toList) =
        (sessionDir root id).render := by
      unfold clean
      rw [parse_join hroot hplain, parse_render (hroot.child hplain)]
      rfl
    have hrel : rel (clean root.toList) (sessionDir root id).render =
        some id.toList := rel_child hroot hplain
    simp only [htarget, hrel, if_neg htake, Except.ok.injEq, true_and]
    exact eq_comm

theorem safeSessionPath_ne_empty (h : safeSessionPath root id = .ok mp) : mp ≠ "" := by
  obtain ⟨hv, rfl⟩ := safeSessionPath_eq_ok.mp h
  intro hnil
  have hempty := congrArg String.toList hnil
  rw [String.toList_ofList] at hempty
  exact SlashPath.Path.render_ne_nil (sessionDir_clean hv) hempty

theorem parse_safeSessionPath (h : safeSessionPath root id = .ok mp) :
    parse mp.toList = sessionDir root id := by
  obtain ⟨hv, rfl⟩ := safeSessionPath_eq_ok.mp h
  rw [String.toList_ofList, parse_render (sessionDir_clean hv)]

theorem safeSessionPath_inj (h : safeSessionPath root id = .ok mp)
    (h' : safeSessionPath root id' = .ok mp) : id = id' := by
  have heq : sessionDir root id = sessionDir root id' := by
    rw [← parse_safeSessionPath h, parse_safeSessionPath h']
  have hparts := congrArg SlashPath.Path.parts heq
  simp only [sessionDir, SlashPath.Path.child, append_cancel_left_eq, List.cons.injEq,
    and_true] at hparts
  exact String.toList_inj.mp hparts

theorem ServiceConfig.datasetOf_inj {config : ServiceConfig}
    (h : config.datasetOf id = config.datasetOf id') : id = id' := by
  have hlist := congrArg String.toList h
  simp only [ServiceConfig.datasetOf, String.toList_ofList, append_cancel_left_eq,
    List.cons.injEq, true_and] at hlist
  exact String.toList_inj.mp hlist

theorem ServiceConfig.datasetOf_ne_empty (config : ServiceConfig) (id : String) :
    config.datasetOf id ≠ "" := by
  intro h
  have hlist := congrArg String.toList h
  simp [ServiceConfig.datasetOf] at hlist

/-! ## The map -/

section Map

variable (w : World) (v : Session) {id id' : String}

theorem getSession_storeSession : (w.storeSession v).getSession v.id = some w.nSess := by
  have hnone : (w.sessions.filter (·.1 ≠ v.id)).find? (·.1 = v.id) = none :=
    List.find?_eq_none.mpr fun q hq => by simpa using (mem_filter.mp hq).2
  simp only [World.getSession, World.storeSession, List.find?_append, hnone]
  simp

theorem find_filter_ne (l : List (String × SessRef)) (h : id' ≠ id) :
    (l.filter (·.1 ≠ id)).find? (·.1 = id') = l.find? (·.1 = id') := by
  rw [List.find?_filter]
  congr 1
  funext q
  by_cases hq : q.1 = id'
  · simp [hq, h]
  · simp [hq]

theorem getSession_storeSession_ne (h : id ≠ v.id) :
    (w.storeSession v).getSession id = w.getSession id := by
  have hlast : [(v.id, w.nSess)].find? (·.1 = id) = none := by simpa using h.symm
  simp only [World.getSession, World.storeSession, List.find?_append, find_filter_ne _ h, hlast,
    Option.or_none]

theorem getSession_deleteSession : (w.deleteSession id).getSession id = none := by
  simp [World.getSession, World.deleteSession]

theorem getSession_deleteSession_ne (h : id' ≠ id) :
    (w.deleteSession id).getSession id' = w.getSession id' := by
  simp only [World.getSession, World.deleteSession, find_filter_ne _ h]

theorem getSession_of_deleteSession (h : (w.deleteSession id).getSession id' = some s) :
    w.getSession id' = some s := by
  by_cases hid : id' = id
  · rw [hid, getSession_deleteSession] at h
    cases h
  · rwa [getSession_deleteSession_ne _ hid] at h

end Map

/-! ## Steps -/

/-- What an action does to the map of sessions. -/
inductive MapStep (w : World) : Op → World → List Op → Prop where
  | same {a w' more} : w'.sessions = w.sessions → w'.nSess = w.nSess → w'.config = w.config →
      MapStep w a w' more
  | reserved {req id next} : w.getSession id = none →
      (w.config.maxSessions > 0 → w.sessions.length < w.config.maxSessions) →
      next.building = some id → MapStep w (.create req (.reserve id))
        (w.storeSession { id := id, state := .creating }) [.create req next]
  | forgot {req id err} :
      MapStep w (.create req (.forget id err)) (w.deleteSession id) [.ret (.failed err)]
  | stored {req id dataset mp} : MapStep w (.create req (.store id dataset mp))
      (w.storeSession { id := id, state := .active, dataset := dataset, mountpoint := mp })
      [.ret (.created id)]
  | deleted {id r} : MapStep w (.destroy id (.delete r)) (w.deleteSession id) [.ret .done]

variable {w w' : World} {a b : Op} {x : Choice} {more : List Op} {s : SessRef}

theorem Change.place (hc : Change w a s v) :
    (v.id = (w.sess s).id ∧ v.dataset = (w.sess s).dataset ∧
      v.mountpoint = (w.sess s).mountpoint) ∨
      (s = w.nSess ∧ ∃ req op, a = .create req op) := by
  cases hc with
  | stored hn _ ha => exact .inr ⟨hn, ha⟩
  | @rolledBack _ name _ hv =>
    obtain ⟨n, l, heq⟩ := Session.rolledBack_eq { w.sess s with rollingBack := false } name
    exact .inl (by rw [hv, heq]; exact ⟨rfl, rfl, rfl⟩)
  | same hv | entered _ _ _ hv | finished _ hv | listed n l hv | paused _ _ hv | resumed _ _ hv
  | marked _ hv | rolling _ _ _ hv | rollbackFailed _ hv =>
    exact .inl (hv ▸ ⟨rfl, rfl, rfl⟩)

variable {o : Outcome World Op}

theorem createDoes_of_exec (hx : exec x (.create req op) w = some o) :
    CreateOp.Does w req op o.state o.more := by
  obtain ⟨p, hp, rfl⟩ := Option.map_eq_some_iff.mp hx
  exact CreateOp.does hp

theorem mapStep_of_exec (hx : exec x a w = some o) : MapStep w a o.state o.more := by
  obtain ⟨w', more, spawn⟩ := o
  show MapStep w a w' more
  rcases (step_of_exec hx).1.map_cases with ⟨req, op, rfl⟩ | ⟨id, r, rfl⟩ | ⟨hmap, hn, hconf⟩
  · have hdoes : CreateOp.Does w req op w' more := createDoes_of_exec hx
    cases hdoes with
    | begun h | worked h => exact .same h.2.2.1 h.2.1 h.2.2.2
    | refused => exact .same rfl rfl rfl
    | reserved hfree hroom hb => exact .reserved hfree hroom hb
    | forgot => exact .forgot
    | stored => exact .stored
  · cases hx
    exact .deleted
  · exact .same hmap hn hconf

theorem Step.place_eq (hs : Step w a w' more) (hlt : s < w.nSess) :
    (w'.sess s).id = (w.sess s).id ∧ (w'.sess s).dataset = (w.sess s).dataset ∧
      (w'.sess s).mountpoint = (w.sess s).mountpoint := by
  rcases (hs.change s).place with h | ⟨hn, -⟩
  · exact h
  · exact absurd hn (ne_of_lt hlt)

/-! ## Runs -/

/-- The session is only a reservation, or it has the storage of its id. -/
def Session.PlacedIn (config : ServiceConfig) (v : Session) : Prop :=
  (v.dataset = "" ∧ v.mountpoint = "") ∨ config.Places v.id v.dataset v.mountpoint

structure Placed (config : ServiceConfig) (c : Config World Op) : Prop where
  config_eq : c.state.config = config
  ids : ∀ id s, c.state.getSession id = some s → (c.state.sess s).id = id
  built : ∀ s < c.state.nSess, (c.state.sess s).PlacedIn config
  ops : ∀ req op, c.Pend (.create req op) → op.Fits config
  named : ∀ b id s, c.Pend b → b.request.session = some id → b.ref = some s →
    (c.state.sess s).id = id

variable {config : ServiceConfig} {c : Config World Op} {i : Nat} {rest : List Op}

theorem Scoped.getSession (h : Scoped c) (hget : c.state.getSession id = some s) :
    s < c.state.nSess :=
  h.map _ (getSession_some hget)

theorem MapStep.config_eq (h : MapStep w a w' more) : w'.config = w.config := by
  cases h with
  | same _ _ hconf => exact hconf
  | _ => rfl

section
variable (h : Placed config c) (hs : Step c.state a w' more) (hmap : MapStep c.state a w' more)
include h hs hmap

theorem Placed.ids_step (hsc : Scoped c) (hget : w'.getSession id = some s) :
    (w'.sess s).id = id := by
  -- a session that was in the map before keeps its id
  have hold : c.state.getSession id = some s → (w'.sess s).id = id := by
    intro hold
    rw [(hs.place_eq (hsc.getSession hold)).1]
    exact h.ids id s hold
  have hstore : ∀ v : Session, w' = c.state.storeSession v → (w'.sess s).id = id := by
    intro v heq
    by_cases hid : id = v.id
    · rw [heq, hid, getSession_storeSession] at hget
      cases hget
      rw [heq, hid]
      simp [World.storeSession]
    · rw [heq, getSession_storeSession_ne _ _ hid] at hget
      exact hold hget
  cases hmap with
  | same hsess =>
    apply hold
    rwa [World.getSession, hsess] at hget
  | reserved | stored => exact hstore _ rfl
  | forgot | deleted => exact hold (getSession_of_deleteSession _ hget)

theorem Placed.built_step (ht : c.At i a rest) (hlt : s < w'.nSess) :
    (w'.sess s).PlacedIn config := by
  by_cases hold : s < c.state.nSess
  · obtain ⟨hid, hds, hmp⟩ := hs.place_eq hold
    have hplaced := h.built s hold
    rwa [Session.PlacedIn, hid, hds, hmp]
  · -- a session that has just been built
    have hnew : ∀ v : Session, s < (c.state.storeSession v).nSess →
        (c.state.storeSession v).sess s = v := by
      intro v hlt
      have heq : s = c.state.nSess := Nat.eq_of_lt_succ_of_not_lt hlt hold
      simp [World.storeSession, heq]
    cases hmap with
    | same _ hn => exact absurd (hn ▸ hlt) hold
    | reserved =>
      rw [hnew _ hlt]
      exact .inl ⟨rfl, rfl⟩
    | forgot | deleted => exact absurd hlt hold
    | stored =>
      rw [hnew _ hlt]
      exact .inr (h.ops _ _ (pend_head ht))

end

section
variable (h : Placed config c) (ht : c.At i a rest) (hx : exec x a c.state = some o)
include h ht hx

theorem Placed.ops_step (hb : .create req op ∈ o.more) : op.Fits config := by
  obtain ⟨w', more, spawn⟩ := o
  change .create req op ∈ more at hb
  rcases (step_of_exec hx).1.request_more hb with hreq | ⟨r, hr⟩
  · cases a with
    | create req' op' =>
      cases hreq
      have hfits := h.ops _ _ (pend_head ht)
      have hdoes : CreateOp.Does c.state req op' w' more := createDoes_of_exec hx
      cases hdoes with try cases mem_singleton.mp hb
      | begun => trivial
      | reserved _ _ _ hf => exact h.config_eq ▸ hf
      | worked _ _ _ hf =>
        rw [h.config_eq] at hf
        exact hf hfits
    | _ => cases hreq
  · cases hr

variable (hsc : Scoped c)
include hsc

theorem Placed.named_step (hb : b ∈ o.more) (hid : b.request.session = some id)
    (hr : b.ref = some s) : (o.state.sess s).id = id := by
  obtain ⟨hs, -⟩ := step_of_exec hx
  rcases hs.request_more hb with hreq | ⟨r, rfl⟩
  · rw [hreq] at hid
    have hpend := pend_head ht
    rcases hs.ref_more hb hr with ha | ⟨id', hid', hget⟩
    · rw [(hs.place_eq (hsc.ops a hpend s ha)).1]
      exact h.named a id s hpend hid ha
    · cases hid.symm.trans hid'
      rw [(hs.place_eq (hsc.getSession hget)).1]
      exact h.ids id s hget
  · cases hr

theorem Placed.step : Placed config (c.advance i rest o) := by
  obtain ⟨hs, hspawn⟩ := step_of_exec hx
  have hmap := mapStep_of_exec hx
  refine ⟨hmap.config_eq.trans h.config_eq, fun id s => h.ids_step hs hmap hsc,
    fun s => h.built_step hs hmap ht, ?_, ?_⟩
  · intro req op hb
    rcases hb.of_advance_nil ht hspawn with hb | hb
    · exact h.ops req op hb
    · exact h.ops_step ht hx hb
  · intro b id s hb hid hr
    rcases hb.of_advance_nil ht hspawn with hb | hb
    · show (o.state.sess s).id = id
      rw [(hs.place_eq (hsc.ops b hb s hr)).1]
      exact h.named b id s hb hid hr
    · exact h.named_step ht hx hsc hb hid hr

end

theorem Reach.placed (hr : Reach machine N h₀ (initialConfig config zfs) h c) :
    Placed config c := by
  refine hr.invariant_of_reach (fun _ c => Placed config c) ?_ ?_ ?_
  · refine ⟨rfl, ?_, ?_, ?_, ?_⟩
    · intro id s hget
      cases hget
    · intro s hlt
      exact absurd hlt (Nat.not_lt_zero s)
    · exact fun req op hb => absurd hb not_pend_nil
    · exact fun b id s hb => absurd hb not_pend_nil
  · intro _ c a _ ih he
    refine ⟨ih.config_eq, ih.ids, ih.built, ?_, ?_⟩
    · intro req op hb
      rcases pend_call.mp hb with hb | rfl
      · exact ih.ops req op hb
      · cases op with
        | start => trivial
        | _ => cases he
    · intro b id s hb hid hr
      rcases pend_call.mp hb with hb | rfl
      · exact ih.named b id s hb hid hr
      · rw [apiEntry_ref (w := c.state) he] at hr
        cases hr
  · intro _ c i a rest x o hr ih ht hx _
    exact ih.step ht hx (Reach.scoped hr)

end FlexAgentRuntime.SandboxHost
