import BundleLink.Path.Basic
import BundleLink.Text.Basic

/-!
The settings of a run over one package: where its bundles are, how their linked artifacts are named,
and which condition of the manifest points at them.
-/

set_option autoImplicit false

namespace BundleLink

open BundleLink.Text

structure Config where
  /-- The package, which holds the bundle directory and the manifest. -/
  baseDir : Path := .ofString "."
  bundleDir : String := "fesm2022"
  /-- The extension of bundles, without its dot. -/
  extension : String := "mjs"
  condition : String := "ng-linked"
  manifest : String := "package.json"
  /-- How many tasks may be in flight at once. -/
  jobs : Nat := 64
deriving DecidableEq, Repr, Inhabited

/-- Why a configuration is refused. -/
inductive ConfigProblem where
  | emptyField (field : String)
  | globCharacters (field value : String)
  | noBundleDir (bundleDir : String)
  | leadingDot (extension : String)
  | noJobs
  | baseDirNotText (baseDir : Path)
deriving DecidableEq, Repr, Inhabited

def ConfigProblem.message : ConfigProblem → String
  | emptyField field => field ++ " must not be empty"
  | globCharacters field value =>
    field ++ " `" ++ value ++ "` must not contain glob characters"
  | noBundleDir dir =>
    "bundle directory `" ++ dir ++ "` must name a directory below the base directory"
  | leadingDot ext => "extension `" ++ ext ++ "` must be given without a leading dot"
  | noJobs => "jobs must be at least 1"
  | baseDirNotText dir => "base directory `" ++ dir.shown ++ "` is not valid UTF-8"

/-- A text without the `./` that it begins with, however often. -/
def dropDotSlashes : List Char → List Char
  | '.' :: '/' :: cs => dropDotSlashes cs
  | cs => cs

def isSeparator (c : Char) : Bool :=
  c = '/' || c = '\\'

/-- A text without the separators that it ends in. -/
def dropTrailingSeparators (cs : List Char) : List Char :=
  (cs.reverse.dropWhile isSeparator).reverse

def isGlobCharacter (c : Char) : Bool :=
  ['*', '?', '[', ']', '\x7b', '\x7d', '!'].contains c

def isBlankText (s : String) : Bool :=
  s.toList.all isBlank

namespace Config

/-- The bundle directory without a leading `./` or trailing separators. -/
def bundleDirChars (c : Config) : List Char :=
  dropTrailingSeparators (dropDotSlashes c.bundleDir.toList)

def bundleDirName (c : Config) : String :=
  String.ofList c.bundleDirChars

/-- What is appended to the name of a bundle to name its artifact. -/
def suffix (c : Config) : String :=
  ".linked." ++ c.extension

def linkedName (c : Config) (name : String) : String :=
  name ++ c.suffix

def linkedPath (c : Config) (bundle : Path) : Path :=
  bundle.append c.suffix

def manifestPath (c : Config) : Path :=
  c.baseDir.join (.ofString c.manifest)

/-- The directory that is searched for bundles. -/
def bundleRoot (c : Config) : Path :=
  c.baseDir.join (.ofString c.bundleDirName)

/-- The first field that is refused, if any; emptiness is looked for in all fields first. -/
def problem? (c : Config) : Option ConfigProblem :=
  let named : List (String × String) :=
    [("bundle directory", c.bundleDir), ("extension", c.extension),
     ("condition", c.condition), ("manifest", c.manifest)]
  let globbed : List (String × String) :=
    [("bundle directory", c.bundleDir), ("extension", c.extension)]
  match named.find? fun f ↦ isBlankText f.2 with
  | some f => some (.emptyField f.1)
  | none =>
    match globbed.find? fun f ↦ f.2.toList.any isGlobCharacter with
    | some f => some (.globCharacters f.1 f.2)
    | none =>
      if c.bundleDirChars.isEmpty then some (.noBundleDir c.bundleDir)
      else if c.extension.toList.head? = some '.' then some (.leadingDot c.extension)
      else if c.jobs = 0 then some .noJobs
      else none

/-- The base directory as text, without trailing separators; empty for the root. -/
def baseText? (c : Config) : Option (List Char) :=
  (decode? c.baseDir.bytes).map dropTrailingSeparators

end Config

end BundleLink
