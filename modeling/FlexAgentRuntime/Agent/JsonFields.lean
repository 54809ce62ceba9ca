import Mathlib
import FlexAgentRuntime.Agent.Codec

/-!
Reading back what a struct has written: each reader inverts the writer of its type, and a
field is found under its name as long as the names of the struct differ.
-/

namespace FlexAgentRuntime.AgentLoop

open Ai

theorem lookup_cons_ne {α : Type} (h : name ≠ key) (value : α) (fields : List (String × α)) :
    ((key, value) :: fields).lookup name = fields.lookup name := by
  simp [List.lookup_cons, beq_false_of_ne h]

theorem lookup_presentFields (h : (fields.map (·.1)).Nodup) (name : String) :
    (presentFields fields).lookup name = (fields.lookup name).join := by
  induction fields with
  | nil => rfl
  | cons field fields ih =>
    obtain ⟨key, value⟩ := field
    obtain ⟨hkey, hrest⟩ := List.nodup_cons.1 h
    have hpresent : presentFields ((key, value) :: fields) =
        (value.map fun v => (key, v)).toList ++ presentFields fields := by
      cases value <;> rfl
    rw [hpresent]
    by_cases hname : name = key
    · subst hname
      cases value with
      | some v => simp
      | none =>
        have hnone : fields.lookup name = none := by
          rw [List.lookup_eq_none_iff]
          intro field hmem
          rw [bne_iff_ne]
          rintro rfl
          exact hkey (List.mem_map.2 ⟨field, hmem, rfl⟩)
        simp [ih hrest, hnone]
    · rw [lookup_cons_ne hname, ← ih hrest]
      cases value with
      | some v => exact lookup_cons_ne hname v _
      | none => rfl

@[simp]
theorem readString_str (s : String) : readString (some (.str s)) = some s := rfl

@[simp]
theorem readString_omitEmpty (s : String) :
    readString (omitEmpty (decide (s = "")) (.str s)) = some s := by
  by_cases h : s = "" <;> simp [h, omitEmpty, readString]

@[simp]
theorem readBool_bool (b : Bool) : readBool (some (.bool b)) = some b := rfl

@[simp]
theorem readBool_omitEmpty (b : Bool) : readBool (omitEmpty (!b) (.bool b)) = some b := by
  cases b <;> rfl

@[simp]
theorem readInt_jsonInt (n : Int) : readInt (some (jsonInt n)) = some n :=
  Int.toInt?_repr n

@[simp]
theorem readInt_omitEmpty (n : Int) :
    readInt (omitEmpty (decide (n = 0)) (jsonInt n)) = some n := by
  by_cases h : n = 0
  · simp [h, omitEmpty, readInt]
  · simpa [h, omitEmpty] using readInt_jsonInt n

@[simp]
theorem readFloat_num (literal : String) : readFloat (some (.num literal)) = some literal := rfl

theorem bind_readObject (fields : List (String × Option Json)) (f : _ → Option α) :
    (readObject (some (marshalStruct fields)) >>= f) = f (presentFields fields) := rfl

theorem ofName_name (reason : StopReason) :
    StopReason.ofName (StopReason.name reason) = some reason := by
  cases reason <;> decide

end FlexAgentRuntime.AgentLoop
