import FlexAgentRuntime.Ai.Message
import Mathlib.Data.List.TakeWhile

/-!
The argument lists that the git tools of `internal/tools/git.go` pass to git, and the
commands of `buildTier2Command` in `internal/sandbox/execute.go`, which stand for them where
tools run in containers.

A parameter is what the tools see of it: a text, a flag, a number as `int`, a list, or
something else. What `resolveSafePath` says of a path is a parameter of the model.
-/

namespace FlexAgentRuntime.Tools

open List

inductive Param where
  | text (s : String)
  | flag (b : Bool)
  | number (n : Int)
  | list (items : List Param)
  | other

abbrev Params := String → Option Param

def Params.text (params : Params) (key : String) : String :=
  match params key with
  | some (.text s) => s
  | _ => ""

def Params.flag (params : Params) (key : String) : Bool :=
  match params key with
  | some (.flag b) => b
  | _ => false

def Params.list (params : Params) (key : String) : List Param :=
  match params key with
  | some (.list items) => items
  | _ => []

def intParam (params : Params) (key : String) (default : Int) : Int :=
  match params key with
  | some (.number n) => n
  | _ => default

/-- An argument that is left out when it is empty. -/
def optional (s : String) : List String := if s = "" then [] else [s]

/-- `"--", path`, unless the path is empty. -/
def pathArgs (params : Params) : List String :=
  if params.text "path" = "" then [] else ["--", params.text "path"]

def gitDiffArgs (params : Params) : List String :=
  "diff" :: optional (params.text "ref") ++ (if params.flag "staged" then ["--cached"] else []) ++
    pathArgs params

/-- The number of commits that `git_log` asks for. -/
def logCount (params : Params) : Int :=
  let n := intParam params "n" 10
  let n := if n ≤ 0 then 10 else n
  if n > 100 then 100 else n

def countOption (params : Params) : String := "-n" ++ toString (logCount params)

def gitLogArgs (params : Params) : List String :=
  ["log", countOption params, "--format=%H %an %ai %s"] ++ optional (params.text "ref") ++
    pathArgs params

def gitShowArgs (params : Params) : List String :=
  ["show", if params.text "ref" = "" then "HEAD" else params.text "ref"]

/-- The paths of `git_add`: texts that are not empty, each of which must be safe. -/
def addPaths (resolveSafePath : String → Except String String) :
    List Param → Except String (List String)
  | [] => .ok []
  | .text s :: items =>
    if s = "" then addPaths resolveSafePath items
    else
      match resolveSafePath s with
      | .error err => .error ("path \"" ++ s ++ "\": " ++ err)
      | .ok _ => (addPaths resolveSafePath items).map (s :: ·)
  | _ :: items => addPaths resolveSafePath items

def gitAddArgs (resolveSafePath : String → Except String String) (params : Params) :
    Except String (List String) :=
  if (params.list "paths").isEmpty then .error "missing required parameter: paths"
  else
    match addPaths resolveSafePath (params.list "paths") with
    | .error err => .error err
    | .ok [] => .error "no valid paths provided"
    | .ok paths => .ok ("add" :: paths)

def gitCommitArgs (params : Params) : Except String (List String) :=
  if params.text "message" = "" then .error "missing required parameter: message"
  else .ok ["commit", "-m", params.text "message"]

/-- The texts of a list, without the empty ones. -/
def texts (items : List Param) : List String :=
  items.filterMap fun
    | .text s => if s = "" then none else some s
    | _ => none

/-- `git` with a subcommand that gets its arguments as they are. -/
def gitRemote (subcommand : String) (params : Params) : List String :=
  ["git", subcommand] ++ texts (params.list "args")

/-- The path that `git_add` stages in a container. -/
def addedPath (params : Params) : String :=
  if params.text "path" = "" then "." else params.text "path"

def buildTier2Command (toolName : String) (params : Params) : Except String (List String) :=
  match toolName with
  | "bash" =>
    if Ai.trimSpace (params.text "cmd") = "" then .error "bash cmd is required"
    else .ok ["/bin/bash", "-c", params.text "cmd"]
  | "git_add" => .ok ["git", "add", addedPath params]
  | "git_commit" =>
    if Ai.trimSpace (params.text "message") = "" then .error "git_commit message is required"
    else .ok ["git", "commit", "-m", params.text "message"]
  | "git_push" => .ok (gitRemote "push" params)
  | "git_clone" => .ok (gitRemote "clone" params)
  | "git_fetch" => .ok (gitRemote "fetch" params)
  | "git_pull" => .ok (gitRemote "pull" params)
  | _ => .error ("unknown Tier 2 tool: " ++ toolName)

inductive GitTool where
  | gitDiff | gitLog | gitShow | gitAdd
  deriving DecidableEq, Repr

/-- The arguments of a tool, or its error. -/
def GitTool.args (resolveSafePath : String → Except String String) (params : Params) :
    GitTool → Except String (List String)
  | .gitDiff => .ok (gitDiffArgs params)
  | .gitLog => .ok (gitLogArgs params)
  | .gitShow => .ok (gitShowArgs params)
  | .gitAdd => gitAddArgs resolveSafePath params

/-! ## Options -/

/-- The argument starts with `-`. -/
def isOption (arg : String) : Bool := arg.toList.head? == some '-'

/-- The arguments that git takes for options. -/
def options (args : List String) : List String := (args.takeWhile (· ≠ "--")).filter isOption

/-- The options that are written in the code of a tool. -/
def GitTool.Literal : GitTool → String → Prop
  | .gitDiff, arg => arg = "--cached"
  | .gitLog, arg => arg = "--format=%H %an %ai %s" ∨
      ∃ n : Int, 1 ≤ n ∧ n ≤ 100 ∧ arg = "-n" ++ toString n
  | .gitShow, _ | .gitAdd, _ => False

/-- The revision, or the paths of `git_add`, do not start with `-`. -/
def GitTool.Plain (params : Params) : GitTool → Prop
  | .gitAdd => ∀ s, .text s ∈ params.list "paths" → isOption s = false
  | _ => isOption (params.text "ref") = false

variable {params : Params} {arg : String}

theorem mem_options (h : arg ∈ options (before ++ pathArgs params)) :
    arg ∈ before ∧ isOption arg = true := by
  obtain ⟨hmem, hopt⟩ := mem_filter.mp h
  refine ⟨?_, hopt⟩
  unfold pathArgs at hmem
  split at hmem
  · rw [append_nil] at hmem
    exact (List.takeWhile_prefix _).subset hmem
  · rw [takeWhile_append] at hmem
    split at hmem
    · simpa using hmem
    · exact (List.takeWhile_prefix _).subset hmem

theorem isOption_of_mem_optional (href : isOption ref = false) (h : arg ∈ optional ref) :
    isOption arg = false := by
  unfold optional at h
  split at h
  · cases h
  · cases mem_singleton.mp h
    exact href

theorem logCount_range (params : Params) : 1 ≤ logCount params ∧ logCount params ≤ 100 := by
  unfold logCount
  dsimp only
  split <;> split <;> omega

theorem addPaths_eq_texts (h : addPaths resolveSafePath items = .ok paths) :
    paths = texts items := by
  induction items generalizing paths with
  | nil =>
    cases h
    rfl
  | cons item items ih =>
    cases item with
    | text s =>
      unfold addPaths at h
      split at h
      · rename_i hs
        simpa [texts, hs] using ih h
      · rename_i hs
        split at h
        · cases h
        · cases hrest : addPaths resolveSafePath items with
          | error err =>
            rw [hrest] at h
            cases h
          | ok rest =>
            rw [hrest] at h
            cases h
            rw [ih hrest]
            simp [texts, hs]
    | _ => exact ih h

theorem text_of_mem_texts (h : s ∈ texts items) : .text s ∈ items := by
  obtain ⟨item, hmem, hitem⟩ := mem_filterMap.mp h
  cases item with
  | text s' =>
    dsimp only at hitem
    split at hitem
    · cases hitem
    · cases hitem
      exact hmem
  | _ => cases hitem

theorem gitAddArgs_ok (h : gitAddArgs resolveSafePath params = .ok args) :
    args = "add" :: texts (params.list "paths") := by
  unfold gitAddArgs at h
  split at h
  · cases h
  · split at h
    · cases h
    · cases h
    · rename_i hpaths
      cases h
      rw [addPaths_eq_texts hpaths]

/-- Parameters with one text. -/
def oneText (key value : String) : Params := fun k => if k = key then some (.text value) else none

/-! ## Staging and committing in a container -/

/-- Parameters with a list of paths and a message. -/
def staging (paths : List String) (message : String) : Params := fun k =>
  if k = "paths" then some (.list (paths.map .text))
  else if k = "message" then some (.text message) else none

end FlexAgentRuntime.Tools
