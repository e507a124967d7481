import BundleLink.Event
import BundleLink.Glob.Search
import BundleLink.Text.Basic

/-!
Finding the bundles of a package: the files with the right extension at any depth below the bundle
directory. Artifacts of earlier runs carry the suffix and are passed over. A directory that cannot be
read ends the search.
-/

set_option autoImplicit false

namespace BundleLink

open BundleLink.Text

/-- The pattern that bundles match. Only the extension can hold wildcards. -/
def bundlePattern (c : Config) : Except Failure (List Char) :=
  match c.baseText? with
  | none => .error (.config (.baseDirNotText c.baseDir))
  | some base =>
    .ok (Glob.Pattern.escape base ++ ['/'] ++ Glob.Pattern.escape c.bundleDirChars ++
      "/**/*.".toList ++ c.extension.toList)

def bundleQuery (c : Config) : Except Failure Glob.Query := do
  let pattern ← bundlePattern c
  (Glob.Query.ofChars pattern).mapError fun flaw ↦ .discovery (.pattern (String.ofList pattern) flaw)

/-- Whether the name of a file carries the suffix of artifacts. -/
def isArtifact (c : Config) (p : Path) : Bool :=
  match p.fileName?.bind decode? with
  | some name => endsWith c.suffix (String.ofList name)
  | none => false

/-- What is found is a bundle if it is a file and no artifact. -/
def isBundle (c : Config) (fs : FileSystem) (p : Path) : Bool :=
  fs.isFile p && !isArtifact c p

/-- The paths among what a search meets that pass a test, or the first directory that it could not
read. -/
def gather (test : Path → Bool) : List Glob.Finding → Except Failure (List Path)
  | [] => .ok []
  | .error unread :: _ => .error (.discovery (.unread unread))
  | .ok p :: rest => bif test p then (gather test rest).map (p :: ·) else gather test rest

/-- What is told of the paths that pass a test, as far as the search is followed. -/
def skipped (test : Path → Bool) : List Glob.Finding → Log
  | [] => []
  | .error _ :: _ => []
  | .ok p :: rest => bif test p then .artifactSkipped p :: skipped test rest else skipped test rest

/-- The bundles of a package in the order of their paths. Some directories may be closed to the
process. -/
def discover (c : Config) (fs : FileSystem) (closed : List Address := []) :
    Except Failure (List Path) × Log :=
  match bundleQuery c with
  | .error e => (.error e, [])
  | .ok q =>
    let found := Glob.search fs closed q
    ((gather (isBundle c fs) found).map Path.sort,
      skipped (fun p ↦ fs.isFile p && isArtifact c p) found)

end BundleLink
