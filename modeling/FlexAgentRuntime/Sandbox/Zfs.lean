import Mathlib.Algebra.Order.Ring.Int

/-!
The storage behind the sandbox host (`internal/sandbox/zfs`): datasets and their
snapshots, with the checks on names that every manager makes (`validate.go`) and the
effects of the calls as the in-memory manager has them (`mock.go`).

Snapshots are listed in the order of their creation, which is what a rollback goes by.
-/

namespace FlexAgentRuntime.SandboxHost

inductive ZfsError where
  | invalidName (detail : String)
  | datasetExists
  | datasetNotFound
  | snapshotExists
  | snapshotNotFound
  | command (message : String)
  deriving DecidableEq, Repr

/-- `Error()`; the sentinels come joined with the coarse ones. -/
def ZfsError.message : ZfsError → String
  | .invalidName detail => "zfs: invalid dataset or snapshot name: " ++ detail
  | .datasetExists => "zfs: object already exists\nzfs: dataset already exists"
  | .datasetNotFound => "zfs: object does not exist\nzfs: dataset does not exist"
  | .snapshotExists => "zfs: object already exists\nzfs: snapshot already exists"
  | .snapshotNotFound => "zfs: object does not exist\nzfs: snapshot does not exist"
  | .command message => message

/-! ## Names -/

def isAlnum (c : Char) : Bool :=
  ('a' ≤ c && c ≤ 'z') || ('A' ≤ c && c ≤ 'Z') || ('0' ≤ c && c ≤ '9')

/-- `strings.Contains(name, "..")`. -/
def hasDotDot : List Char → Bool
  | '.' :: '.' :: _ => true
  | _ :: cs => hasDotDot cs
  | [] => false

/-- The pattern of a name: it starts with a letter or digit and goes on with those and
the characters of `extra`. -/
def matchesName (extra : List Char) : List Char → Bool
  | [] => false
  | c :: cs => isAlnum c && cs.all fun c => isAlnum c || extra.contains c

/-- The loop over the path components in `ValidateName`. -/
def checkParts : List (List Char) → Except ZfsError Unit
  | [] => .ok ()
  | part :: parts =>
    if part = [] then .error (.invalidName "empty path component")
    else if part.length > 255 then .error (.invalidName "component exceeds 255 characters")
    else checkParts parts

def validateName (name : String) : Except ZfsError Unit :=
  let cs := name.toList
  if cs = [] then .error (.invalidName "empty name")
  else if name.utf8ByteSize > 1024 then .error (.invalidName "name exceeds 1024 characters")
  else if hasDotDot cs then .error (.invalidName "path traversal not allowed")
  else if cs.head? = some '/' ∨ cs.getLast? = some '/' then
    .error (.invalidName "name cannot start or end with '/'")
  else if !matchesName ['_', '.', '-', ':', '/'] cs then
    .error (.invalidName ("invalid characters in \"" ++ name ++ "\""))
  else checkParts (cs.splitOn '/')

def validateSnapshotName (name : String) : Except ZfsError Unit :=
  if name = "" then .error (.invalidName "empty snapshot name")
  else if name.utf8ByteSize > 255 then .error (.invalidName "snapshot name exceeds 255 characters")
  else if !matchesName ['_', '.', '-'] name.toList then
    .error (.invalidName ("invalid snapshot name \"" ++ name ++ "\""))
  else .ok ()

/-- `ValidateSnapshotFullName`, which gives the dataset and the snapshot. -/
def validateSnapshotFullName (name : String) : Except ZfsError (String × String) :=
  match name.toList.dropWhile (· ≠ '@') with
  | [] => .error (.invalidName "full snapshot name must contain one '@'")
  | _ :: snapshot => do
    let dataset := String.ofList (name.toList.takeWhile (· ≠ '@'))
    validateName dataset
    validateSnapshotName (String.ofList snapshot)
    return (dataset, String.ofList snapshot)

/-! ## Calls -/

structure Zfs where
  datasets : List String := []
  snapshots : List (String × String) := []

namespace Zfs

def require (cond : Bool) (err : ZfsError) : Except ZfsError Unit :=
  if cond then .ok () else .error err

def cloneFromSnapshot (z : Zfs) (snapshot newDataset : String) : Except ZfsError Zfs := do
  let source ← validateSnapshotFullName snapshot
  validateName newDataset
  require (!z.datasets.contains newDataset) .datasetExists
  require (z.snapshots.contains source) .snapshotNotFound
  return { z with datasets := z.datasets ++ [newDataset] }

/-- With the recursive option. -/
def destroyDataset (z : Zfs) (name : String) : Except ZfsError Zfs := do
  validateName name
  require (z.datasets.contains name) .datasetNotFound
  return {
    datasets := z.datasets.filter (· ≠ name)
    snapshots := z.snapshots.filter (·.1 ≠ name) }

/-- `SetProperty` of the quota. -/
def setQuota (z : Zfs) (dataset : String) : Except ZfsError Unit := do
  validateName dataset
  require (z.datasets.contains dataset) .datasetNotFound

def getMountpoint (z : Zfs) (dataset : String) : Except ZfsError String := do
  validateName dataset
  require (z.datasets.contains dataset) .datasetNotFound
  return String.ofList ('/' :: dataset.toList)

def createSnapshot (z : Zfs) (dataset name : String) : Except ZfsError Zfs := do
  validateName dataset
  validateSnapshotName name
  require (z.datasets.contains dataset) .datasetNotFound
  require (!z.snapshots.contains (dataset, name)) .snapshotExists
  return { z with snapshots := z.snapshots ++ [(dataset, name)] }

/-- What is left when the snapshots of `dataset` later than `name` are destroyed. -/
def keepUpTo (dataset name : String) : List (String × String) → List (String × String)
  | [] => []
  | p :: ps =>
    if p = (dataset, name) then p :: ps.filter (·.1 ≠ dataset) else p :: keepUpTo dataset name ps

/-- With the option to destroy later snapshots. -/
def rollback (z : Zfs) (dataset name : String) : Except ZfsError Zfs := do
  validateName dataset
  validateSnapshotName name
  require (z.snapshots.contains (dataset, name)) .snapshotNotFound
  return { z with snapshots := keepUpTo dataset name z.snapshots }

def destroySnapshot (z : Zfs) (dataset name : String) : Except ZfsError Zfs := do
  validateName dataset
  validateSnapshotName name
  require (z.snapshots.contains (dataset, name)) .snapshotNotFound
  return { z with snapshots := z.snapshots.filter (· ≠ (dataset, name)) }

end Zfs

end FlexAgentRuntime.SandboxHost
