import FlexAgentRuntime.Ai.Message

/-!
`CoerceTypes` of `internal/ai/coerce.go`: arguments that a model has sent as strings are turned
into what the schema of the tool wants.

A schema is given as decoded. `coerceToArray` passes the items' schema on without the schema of
the items' own items, so the elements of an array in an array are left as they are.
-/

namespace FlexAgentRuntime.Ai

inductive ScalarType where
  | integer | number | boolean | null

mutual

/-- What the coercion reads of a schema; `other` is a type it leaves alone (or none), and an
array without items. -/
inductive Schema where
  | scalar (typ : ScalarType)
  | object (properties : Props)
  | array (items : Schema)
  | other

inductive Props where
  | nil
  | cons (name : String) (schema : Schema) (rest : Props)

end

/-- The parsers of `strconv`; a float is its literal. -/
structure Strconv where
  atoi : String → Option Int
  parseFloat : String → Option String
  parseBool : String → Option Bool

/-- A string that parses is replaced. -/
def coerceString (parse : String → Option Json) : Json → Json
  | .str s => (parse s).getD (.str s)
  | val => val

def coerceToInteger (L : Strconv) : Json → Json :=
  coerceString fun s => (L.atoi s).map fun i => .num (toString i)

def coerceToNumber (L : Strconv) : Json → Json := coerceString fun s => (L.parseFloat s).map .num

def coerceToBoolean (L : Strconv) : Json → Json := coerceString fun s => (L.parseBool s).map .bool

def coerceToNull : Json → Json := coerceString fun s => if s = "null" then some .null else none

def coerceScalar (L : Strconv) : ScalarType → Json → Json
  | .integer => coerceToInteger L
  | .number => coerceToNumber L
  | .boolean => coerceToBoolean L
  | .null => coerceToNull

mutual

/-- `coerceValue` for the `propInfo` of a schema, with its `itemSchema` as `extractProps` makes
it or without as `coerceToArray` does. -/
def coerceValue (L : Strconv) : Schema → (itemSchema : Bool) → Json → Json
  | .scalar typ, _, val => coerceScalar L typ val
  | .object properties, _, .obj m =>
    .obj (m.map fun (name, val) => (name, coerceProp L properties name val))
  | .array items, true, .arr arr => .arr (arr.map (coerceValue L items false))
  | _, _, val => val

/-- The argument of a name, in the loop of `CoerceTypes` over the properties. -/
def coerceProp (L : Strconv) : Props → String → Json → Json
  | .nil, _, val => val
  | .cons prop schema rest, name, val =>
    if prop = name then coerceValue L schema true val else coerceProp L rest name val

end

def coerceTypes (L : Strconv) (properties : Props) (args : List (String × Json)) :
    List (String × Json) :=
  args.map fun (name, val) => (name, coerceProp L properties name val)

mutual

/-- The value as the schema wants it, by recursion on the schema. -/
def Schema.coerced (L : Strconv) : Schema → Json → Json
  | .scalar typ, val => coerceScalar L typ val
  | .object properties, .obj m => .obj (m.map fun (name, val) => (name, properties.coerced L name val))
  | .array items, .arr arr => .arr (arr.map (items.coerced L))
  | _, val => val

def Props.coerced (L : Strconv) : Props → String → Json → Json
  | .nil, _, val => val
  | .cons prop schema rest, name, val =>
    if prop = name then schema.coerced L val else rest.coerced L name val

end

def Schema.isArray : Schema → Bool
  | .array _ => true
  | _ => false

mutual

/-- No array has arrays for items. -/
def Schema.flat : Schema → Bool
  | .object properties => properties.flat
  | .array items => !items.isArray && items.flat
  | _ => true

def Props.flat : Props → Bool
  | .nil => true
  | .cons _ schema rest => schema.flat && rest.flat

end

variable {L : Strconv}

/-! ## The code against the recursion -/

mutual

theorem coerceValue_eq_coerced (s : Schema) (hs : s.flat) (b : Bool) (hb : b = true ∨ ¬ s.isArray)
    (val : Json) : coerceValue L s b val = s.coerced L val := by
  cases s with
  | scalar | other => simp [coerceValue, Schema.coerced]
  | object properties =>
    cases val <;> simp [coerceValue, Schema.coerced, coerceProp_eq_coerced properties hs]
  | array items =>
    obtain rfl : b = true := by simpa [Schema.isArray] using hb
    simp only [Schema.flat, Bool.and_eq_true, Bool.not_eq_true'] at hs
    cases val <;> simp [coerceValue, Schema.coerced,
      coerceValue_eq_coerced items hs.2 false (.inr (by simp [hs.1]))]

theorem coerceProp_eq_coerced (props : Props) (hs : props.flat) (name : String) (val : Json) :
    coerceProp L props name val = props.coerced L name val := by
  cases props with
  | nil => simp [coerceProp, Props.coerced]
  | cons prop schema rest =>
    simp only [Props.flat, Bool.and_eq_true] at hs
    simp [coerceProp, Props.coerced, coerceValue_eq_coerced schema hs.1 true (.inl rfl),
      coerceProp_eq_coerced rest hs.2]

end

theorem coerceString_twice {parse : String → Option Json}
    (hparse : ∀ s j, parse s = some j → ∀ s', j ≠ .str s') (val : Json) :
    coerceString parse (coerceString parse val) = coerceString parse val := by
  cases val with
  | str s =>
    cases h : parse s with
    | none => simp [coerceString, h]
    | some j =>
      have hj := hparse s j h
      cases j <;> simp_all [coerceString]
  | _ => rfl

theorem coerceScalar_twice (typ : ScalarType) (val : Json) :
    coerceScalar L typ (coerceScalar L typ val) = coerceScalar L typ val := by
  cases typ <;> apply coerceString_twice <;> intro s j h s' hj <;> subst hj <;> simp at h

mutual

theorem coerceValue_twice (s : Schema) (b : Bool) (val : Json) :
    coerceValue L s b (coerceValue L s b val) = coerceValue L s b val := by
  cases s with
  | scalar typ => simp [coerceValue, coerceScalar_twice]
  | other => simp [coerceValue]
  | object properties => cases val <;> simp [coerceValue, coerceProp_twice properties]
  | array items =>
    cases b <;> cases val <;> simp [coerceValue, coerceValue_twice items]

theorem coerceProp_twice (props : Props) (name : String) (val : Json) :
    coerceProp L props name (coerceProp L props name val) = coerceProp L props name val := by
  cases props with
  | nil => simp [coerceProp]
  | cons prop schema rest =>
    simp only [coerceProp]
    split
    · exact coerceValue_twice schema true val
    · exact coerceProp_twice rest name val

end

/-- Reads the number 1. -/
def strconvOne : Strconv where
  atoi s := if s = "1" then some 1 else none
  parseFloat _ := none
  parseBool _ := none

end FlexAgentRuntime.Ai
