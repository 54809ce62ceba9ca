import Mathlib.Data.List.TakeWhile
import FlexAgentRuntime.Ai.EventStream

/-!
The arguments of a tool call that is being streamed: `tool_json_parser.go` of the Anthropic
and the OpenAI provider, which are the same, and `internal/ai/arguments.go`.

`encoding/json` and the lexer that completes a truncated text are parameters.
-/

namespace FlexAgentRuntime.Ai

abbrev Arguments := List (String × Json)

/-- The libraries. `unmarshal` is `json.Unmarshal` of a text into a map, `decode` reads the
first value of a text into a map (`json.NewDecoder(r).Decode`), both with a nil map for
`null`; `marshal` writes a map; `completeJSON` is the lexer after the given pieces of text:
the error of its last `AppendString`, or else `CompleteJSON`. -/
structure JsonLib where
  unmarshal : String → Except String (Option Arguments)
  decode : String → Except String (Option Arguments)
  marshal : Arguments → Except String String
  completeJSON : List String → Except String String

def largeArgumentThreshold : Nat := 64 * 1024

/-- `UnmarshalArguments` and `UnmarshalArgumentsFromReader`, by what they read with. -/
def unmarshalArguments (read : String → Except String (Option Arguments)) (data : String) :
    Except String (Option Arguments) :=
  (read data).mapError ("invalid tool arguments JSON: " ++ ·)

/-- `toolJSONParser`: the pieces of text appended so far. -/
structure ToolJSONParser where
  chunks : List String := []

def ToolJSONParser.raw (p : ToolJSONParser) : String := String.join p.chunks

/-- `AppendDelta`: the parser, and the arguments as far as they can be read, if they can. -/
def ToolJSONParser.appendDelta (J : JsonLib) (p : ToolJSONParser) (chunk : String) :
    ToolJSONParser × Except String (Option Arguments) :=
  let p : ToolJSONParser := ⟨p.chunks ++ [chunk]⟩
  match J.completeJSON p.chunks with
  | .error e => (p, .error ("append tool delta: " ++ e))
  | .ok completed =>
    if completed = "" then (p, .ok none)
    else
      match unmarshalArguments J.unmarshal completed with
      | .error _ => (p, .ok none)
      | .ok args => (p, .ok (some (args.getD [])))

def ToolJSONParser.parseFinal (J : JsonLib) (p : ToolJSONParser) : Except String Arguments :=
  let data := p.raw
  if trimSpace data = "" then .ok []
  else
    (unmarshalArguments (if data.utf8ByteSize > largeArgumentThreshold then J.decode
      else J.unmarshal) data).map fun args => args.getD []

/-- What a provider's stream is started with: the model with its prices, the clock, read
before the event of a number is sent, and the libraries. -/
structure StreamEnv where
  model : Model
  cost : Usage → UsageCost
  clock : Nat → Int
  json : JsonLib

def StreamEnv.calculateCost (env : StreamEnv) (usage : Usage) : Usage :=
  { usage with cost := env.cost usage }

/-! ## Texts -/

@[simp] theorem chunks_appendDelta (J : JsonLib) (p : ToolJSONParser) (chunk : String) :
    (p.appendDelta J chunk).1.chunks = p.chunks ++ [chunk] := by
  unfold ToolJSONParser.appendDelta
  dsimp only
  split
  · rfl
  · split
    · rfl
    · split <;> rfl

theorem raw_appendDelta (J : JsonLib) (p : ToolJSONParser) (chunk : String) :
    (p.appendDelta J chunk).1.raw = p.raw ++ chunk := by
  simp [ToolJSONParser.raw, String.join_append]

/-- The text is not `null` and not made of spaces, and if it is long the first value in it is
the whole of it. -/
structure JsonLib.Plain (J : JsonLib) (text : String) : Prop where
  notNull : J.unmarshal text ≠ .ok none
  blank : trimSpace text = "" → text = ""
  large : text.utf8ByteSize > largeArgumentThreshold → J.decode text = J.unmarshal text

theorem parseFinal_ok {J : JsonLib} {p : ToolJSONParser} (hp : J.Plain p.raw)
    (h : p.parseFinal J = .ok args) :
    J.unmarshal p.raw = .ok (some args) ∨ p.raw = "" ∧ args = [] := by
  unfold ToolJSONParser.parseFinal at h
  dsimp only at h
  split at h
  · cases h
    exact .inr ⟨hp.blank ‹_›, rfl⟩
  · left
    have hread : (if p.raw.utf8ByteSize > largeArgumentThreshold then J.decode else J.unmarshal)
        p.raw = J.unmarshal p.raw := by
      split
      · exact hp.large ‹_›
      · rfl
    rw [unmarshalArguments, hread] at h
    cases hu : J.unmarshal p.raw with
    | error e =>
      rw [hu] at h
      cases h
    | ok args? =>
      cases args? with
      | none => exact absurd hu hp.notNull
      | some args' =>
        rw [hu] at h
        cases h
        rfl

/-! ## Long and short texts -/

/-- White space of JSON. -/
def jsonBlank (s : String) : Bool := s.toList.all (· ∈ [' ', '\t', '\n', '\r'])

/-- `encoding/json` as documented, over a reader `first` of the value at the start of a text
and of what follows it: `Decode` leaves that unread, `Unmarshal` wants it blank. -/
structure JsonLib.Documented (J : JsonLib)
    (first : String → Except String (Option Arguments × String)) : Prop where
  decode : ∀ text, J.decode text = (first text).map (·.1)
  unmarshal : ∀ text args, J.unmarshal text = .ok args ↔
    ∃ rest, first text = .ok (args, rest) ∧ jsonBlank rest = true

/-- What `ParseFinal` accepts is what `json.Unmarshal` accepts, a blank text apart, with the
same map. -/
def ToolJSONParser.Strict (J : JsonLib) (p : ToolJSONParser) : Prop :=
  ∀ args, p.parseFinal J = .ok args ↔
    if trimSpace p.raw = "" then args = []
    else ∃ args?, J.unmarshal p.raw = .ok args? ∧ args?.getD [] = args

/-- A reader of the empty object only. -/
def readEmptyObject (text : String) : Except String (Option Arguments × String) :=
  match text.toList with
  | '\x7b' :: '\x7d' :: rest => .ok (some [], String.ofList rest)
  | _ => .error "invalid character"

def emptyObjectLib : JsonLib where
  unmarshal text := (readEmptyObject text).bind fun (args, rest) =>
    if jsonBlank rest then .ok args else .error "invalid character after top-level value"
  decode text := (readEmptyObject text).map (·.1)
  marshal _ := .ok "\x7b\x7d"
  completeJSON chunks := .ok (String.join chunks)

theorem emptyObjectLib_documented : emptyObjectLib.Documented readEmptyObject := by
  refine ⟨fun _ => rfl, fun text args => ?_⟩
  simp only [emptyObjectLib]
  cases readEmptyObject text with
  | error e => simp [Except.bind]
  | ok v => cases hblank : jsonBlank v.2 <;> simp [Except.bind, Prod.ext_iff, hblank]

/-- An object with `n` bytes after it. -/
def garbled (n : Nat) : ToolJSONParser := ⟨[String.ofList ('\x7b' :: '\x7d' :: List.replicate n 'x')]⟩

theorem toList_garbled (n : Nat) : (garbled n).raw.toList = '\x7b' :: '\x7d' :: List.replicate n 'x' := by
  simp [garbled, ToolJSONParser.raw]

theorem utf8ByteSize_garbled (n : Nat) : (garbled n).raw.utf8ByteSize = n + 2 := by
  have hrest : (String.ofList (List.replicate n 'x')).utf8ByteSize = n := by
    induction n with
    | zero => rfl
    | succ n ih =>
      have hx : "x".utf8ByteSize = 1 := rfl
      simp [List.replicate_succ, ih, hx, Nat.add_comm]
  have hopen : "\x7b".utf8ByteSize = 1 := rfl
  have hclose : "\x7d".utf8ByteSize = 1 := rfl
  simp [garbled, ToolJSONParser.raw, hrest, hopen, hclose]
  omega

theorem trimSpace_garbled (n : Nat) : trimSpace (garbled n).raw ≠ "" := by
  intro h
  rw [trimSpace, toList_garbled, List.dropWhile_cons_of_neg (by decide)] at h
  simp only [String.ofList_eq_empty_iff, List.reverse_eq_nil_iff, List.dropWhile_eq_nil_iff] at h
  exact absurd (h '\x7b' (by simp)) (by decide)

theorem garbled_accepted (hn : largeArgumentThreshold ≤ n) :
    ¬ (garbled n).Strict emptyObjectLib := by
  intro h
  have h := h []
  have hfirst : readEmptyObject (garbled n).raw =
      .ok (some [], String.ofList (List.replicate n 'x')) := by
    rw [readEmptyObject, toList_garbled]
    rfl
  rw [ToolJSONParser.parseFinal, if_neg (trimSpace_garbled n), if_neg (trimSpace_garbled n),
    if_pos (by rw [utf8ByteSize_garbled]; omega)] at h
  simp only [emptyObjectLib, unmarshalArguments, hfirst] at h
  obtain ⟨args, h, -⟩ := h.1 rfl
  have hx : jsonBlank (String.ofList (List.replicate n 'x')) = false := by
    have hpos : n ≠ 0 := by simp [largeArgumentThreshold] at hn; omega
    simp [jsonBlank, hpos]
  simp [Except.bind, hx] at h

end FlexAgentRuntime.Ai
