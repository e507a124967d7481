import BundleLink.CommandLine.Invocation
import BundleLink.CommandLine.LogFilter
import BundleLink.Package

/-!
The command from its arguments and environment to the status it exits with. A refused call exits
with 2, a failed run with 1; only a run changes files, and what is logged has no bearing on them.
-/

set_option autoImplicit false

namespace BundleLink.CommandLine

open BundleLink.Text

/-- What is written to standard error, in order. -/
inductive Notice where
  | log (e : Event)
  | text (s : String)
deriving Inhabited

/-- What a call comes to. -/
structure Result where
  files : FileSystem
  exitCode : Nat
  output : String
  notices : List Notice
deriving Inhabited

/-- The lines that tell of an event, without the time; those after the first are indented. -/
def eventLines (e : Event) : String × List String :=
  let head := "[" ++ padded 5 e.level.name ++ " " ++ e.target ++ "] "
  match partsBetween '\n' e.text.toList with
  | [] => (head, [])
  | first :: rest =>
    (head ++ String.ofList first, rest.map fun l ↦ "    " ++ String.ofList l)

/-- The filter of a call: that of the environment, or the one that the flags ask for. -/
def filterSpec (r : Request) (environment : Option Bytes) : String :=
  match environment.bind decode? with
  | some spec => String.ofList spec
  | none => if r.verbose then "debug" else if r.quiet then "warn" else "info"

/-- Links the package that a request names. -/
def perform (r : Request) (files : FileSystem) : Outcome Report :=
  let outcome := Package.link r.config r.config.options files
  match outcome.result with
  | .ok report =>
    if report.artifacts.isEmpty then
      { outcome with log := outcome.log ++ [.nothingFound r.config.bundleRoot] }
    else outcome
  | .error _ => outcome

/-- Runs the command in a file system. `environment` is the filter of the log, if it is set. -/
def run (args : List Bytes) (environment : Option Bytes) (files : FileSystem) : Result :=
  match Request.ofArguments args with
  | .error .help => ⟨files, 0, helpText, []⟩
  | .error .version => ⟨files, 0, versionText, []⟩
  | .error (.refused r) => ⟨files, 2, "", [.text r.message]⟩
  | .ok request =>
    let (filter, problems) := LogFilter.ofSpec (filterSpec request environment)
    let outcome := perform request files
    let notices := problems.map (.text ·.message) ++ (outcome.log.filter filter.enables).map .log
    match outcome.result with
    | .ok _ => ⟨outcome.files, 0, "", notices⟩
    | .error e =>
      let text := "Error: Failed to link package at " ++ request.config.baseDir.shown ++ ": " ++
        e.message ++ "\n"
      ⟨outcome.files, 1, "", notices ++ [.text text]⟩

end BundleLink.CommandLine
