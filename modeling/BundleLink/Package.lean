import BundleLink.Discovery
import BundleLink.Task

/-!
Linking a package: its bundles are found, then every task runs to its end. A refused configuration
and a failed search stop the run before any file is written; a failed task stops no other task.
-/

set_option autoImplicit false

namespace BundleLink

open BundleLink.Link

/-- What a run has done that succeeded. -/
structure Report where
  /-- In the order of their paths. -/
  artifacts : List Path
  manifest : ManifestChanges
deriving DecidableEq, Repr, Inhabited

/-- The options that go with a configuration. -/
def Config.options (c : Config) : Options :=
  { suffix := c.suffix }

namespace Package

/-- The tasks of a run, the manifest's first. -/
def tasks (bundles : List Path) : List Task :=
  .manifest :: bundles.map .bundle

/-- Runs tasks one after the other. -/
def runTasks (c : Config) (o : Options) (files : FileSystem) :
    List Task → FileSystem × List (Except Failure Product) × Log
  | [] => (files, [], [])
  | t :: ts =>
    let first := t.run c o files
    let (files, results, log) := runTasks c o first.files ts
    (files, first.result :: results, first.log ++ log)

def failure? : Except Failure Product → Option Failure
  | .error e => some e
  | .ok _ => none

def artifact? : Except Failure Product → Option Path
  | .ok (.artifact p) => some p
  | _ => none

def changes? : Except Failure Product → Option ManifestChanges
  | .ok (.manifest m) => some m
  | _ => none

/-- What a run comes to when its tasks have ended in the given way. -/
def conclude (results : List (Except Failure Product)) : Except Failure Report × Log :=
  let failures := results.filterMap failure?
  if failures.isEmpty then
    let artifacts := Path.sort (results.filterMap artifact?)
    let changes := (results.findSome? changes?).getD {}
    (.ok ⟨artifacts, changes⟩, [.runFinished artifacts.length changes.conditions.length])
  else (.error (.tasks results.length failures), failures.map .taskFailed)

/-- Finds the bundles, if the configuration is accepted. -/
def plan (c : Config) (files : FileSystem) : Except Failure (List Path) × Log :=
  match c.problem? with
  | some p => (.error (.config p), [])
  | none =>
    match discover c files with
    | (.error e, log) => (.error e, log)
    | (.ok bundles, log) => (.ok bundles, log ++ [.bundlesFound bundles.length c.bundleRoot])

/-- Links every bundle of a package and updates its manifest. -/
def link (c : Config) (o : Options) (files : FileSystem) : Outcome Report :=
  match plan c files with
  | (.error e, log) => ⟨files, .error e, log⟩
  | (.ok bundles, log) =>
    let (files, results, taskLog) := runTasks c o files (tasks bundles)
    let (result, endLog) := conclude results
    ⟨files, result, log ++ taskLog ++ endLog⟩

end Package

end BundleLink
