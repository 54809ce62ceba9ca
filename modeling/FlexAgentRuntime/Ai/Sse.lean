import Mathlib.Data.List.Basic

/-!
The scanner of server-sent events, `internal/ai/sse/sse.go`.

The reader's bytes are given as the lines that `readLine` returns one after the other, each
with its newline; the last one comes together with the end of the input or with the reader's
error. `scanLines` is `Next` called until it returns false. The buffers that save copies are
left out.
-/

namespace FlexAgentRuntime.Sse

abbrev Bytes := List UInt8

/-- The bytes of an ASCII text. -/
def ascii (s : String) : Bytes := s.toList.map fun c => UInt8.ofNat c.toNat

structure Event where
  type : Bytes := []
  data : Bytes := []
  id : Bytes := []
  retry : Bytes := []
  deriving DecidableEq, Repr

structure Limits where
  maxLineBytes : Nat
  maxEventBytes : Nat

/-- `defaultMaxLineBytes` and `defaultMaxEventBytes`. -/
def defaultLimits : Limits := ⟨1048576, 4194304⟩

inductive ScanError where
  | lineTooLarge (length limit : Nat)
  | eventTooLarge (length limit : Nat)
  | read (message : String)
  deriving DecidableEq, Repr

def ScanError.message : ScanError → String
  | .lineTooLarge length limit => "sse: line too large: " ++ length.repr ++ " > " ++ limit.repr
  | .eventTooLarge length limit => "sse: event too large: " ++ length.repr ++ " > " ++ limit.repr
  | .read message => message

/-- The lines of the input; the flag says that the reader ended with the line. -/
def lines : Bytes → List (Bytes × Bool)
  | [] => [([], true)]
  | b :: bs =>
    if b = 10 then ([b], false) :: lines bs
    else
      match lines bs with
      | (line, ended) :: rest => (b :: line, ended) :: rest
      | [] => []

/-- `bytes.TrimPrefix(line, bomPrefix)`. -/
def trimBom (line : Bytes) : Bytes :=
  if line.take 3 = [0xEF, 0xBB, 0xBF] then line.drop 3 else line

/-- `bytes.TrimRight(line, "\r\n")`. -/
def trimNewline (line : Bytes) : Bytes :=
  (line.reverse.dropWhile fun b => b = 13 || b = 10).reverse

/-- The field and the value of a line. -/
def splitField (line : Bytes) : Bytes × Bytes :=
  match line.span (· ≠ 58) with
  | (field, _ :: 32 :: value) => (field, value)
  | (field, _ :: value) => (field, value)
  | (field, []) => (field, [])

/-- The variables of one call of `Next`. -/
structure Pending where
  dataBuf : Bytes := []
  dataCount : Nat := 0
  eventType : Bytes := []
  id : Bytes := []
  retry : Bytes := []
  eventBytes : Nat := 0

def Pending.dispatch (p : Pending) : Option Event :=
  if p.dataCount = 0 ∧ p.eventType = [] ∧ p.id = [] ∧ p.retry = [] then none
  else some { type := p.eventType, data := p.dataBuf, id := p.id, retry := p.retry }

def Pending.set (p : Pending) (field value : Bytes) : Pending :=
  if field = ascii "event" then { p with eventType := value }
  else if field = ascii "data" then
    { p with
      dataBuf := (if p.dataCount > 0 then p.dataBuf ++ [10] else p.dataBuf) ++ value
      dataCount := p.dataCount + 1 }
  else if field = ascii "id" then { p with id := value }
  else if field = ascii "retry" then { p with retry := value }
  else p

/-- The events of the remaining lines, and `Err`. -/
def scanLines (limits : Limits) (readErr : Option String) (p : Pending) (bomStripped : Bool) :
    List (Bytes × Bool) → List Event × Option ScanError
  | [] => ([], none)
  | (line, ended) :: rest =>
    match ended, readErr with
    | true, some message => ([], some (.read message))
    | _, _ =>
      if line.length > limits.maxLineBytes then
        ([], some (.lineTooLarge line.length limits.maxLineBytes))
      else
        let line := trimNewline (if bomStripped then line else trimBom line)
        match line with
        | [] =>
          match p.dispatch with
          | some e =>
            let (events, err) := scanLines limits readErr {} true rest
            (e :: events, err)
          -- the variables stay as they are, the number of bytes included
          | none => if ended then ([], none) else scanLines limits readErr p true rest
        | first :: _ =>
          if first = 58 then
            if ended then (p.dispatch.toList, none) else scanLines limits readErr p true rest
          else
            let (field, value) := splitField line
            let p := { p with eventBytes := p.eventBytes + field.length + value.length }
            if p.eventBytes > limits.maxEventBytes then
              ([], some (.eventTooLarge p.eventBytes limits.maxEventBytes))
            else if ended then ((p.set field value).dispatch.toList, none)
            else scanLines limits readErr (p.set field value) true rest

/-- `NewScanner` on a reader that gives the bytes and then ends, or fails with `readErr`. -/
def scan (bytes : Bytes) (readErr : Option String) : List Event × Option ScanError :=
  scanLines defaultLimits readErr {} false (lines bytes)

end FlexAgentRuntime.Sse
