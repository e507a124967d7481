import BundleLink.Config
import BundleLink.Glob.Pattern
import BundleLink.Json.Reader
import BundleLink.Script.Diagnostic
import BundleLink.Script.Location

/-!
Why linking fails. A failed run lists the failures of its tasks.
-/

set_option autoImplicit false

namespace BundleLink

/-- Why a file could not be read or written. -/
inductive FileProblem where
  | notFound
  | notADirectory
  | isADirectory
  | nameTooLong
  | tooManyLinks
  | permissionDenied
  | notText
  | nulByte
deriving DecidableEq, Repr, Inhabited

def FileProblem.message : FileProblem → String
  | notFound => "No such file or directory (os error 2)"
  | notADirectory => "Not a directory (os error 20)"
  | isADirectory => "Is a directory (os error 21)"
  | nameTooLong => "File name too long (os error 36)"
  | tooManyLinks => "Too many levels of symbolic links (os error 40)"
  | permissionDenied => "Permission denied (os error 13)"
  | notText => "stream did not contain valid UTF-8"
  | nulByte => "file name contained an unexpected NUL byte"

/-- A directory that could not be read, and why. -/
structure Unread where
  path : Path
  problem : FileProblem
deriving DecidableEq, Repr, Inhabited

/-- Why bundles could not be looked for. -/
inductive DiscoveryProblem where
  | pattern (text : String) (flaw : Glob.Flaw)
  | unread (directory : Unread)
deriving Repr, Inhabited

def DiscoveryProblem.message : DiscoveryProblem → String
  | pattern text flaw => "invalid pattern `" ++ text ++ "`: " ++ flaw.message
  | unread directory =>
    "cannot read `" ++ directory.path.shown ++ "`: " ++ directory.problem.message

inductive Failure where
  | config (problem : ConfigProblem)
  | discovery (problem : DiscoveryProblem)
  | file (path : Path) (problem : FileProblem)
  | parse (path : Path) (problem : Script.Problem) (place : Script.Location)
  | missingExports (path : Path)
  | unsupportedExports (path : Path)
  | json (path : Path) (flaw : Json.Flaw)
  | tasks (total : Nat) (failures : List Failure)
deriving Repr, Inhabited

mutual

def Failure.message : Failure → String
  | .config p => "Invalid configuration: " ++ p.message
  | .discovery p => "Bundle discovery failed: " ++ p.message
  | .file path p => "I/O error on `" ++ path.shown ++ "`: " ++ p.message
  | .parse path problem place =>
    "Failed to parse `" ++ path.shown ++ "`: " ++ problem.message ++ " at " ++
      toString place.line ++ ":" ++ toString place.column
  | .missingExports path => "No `exports` in `" ++ path.shown ++ "`. Cannot link Angular code"
  | .unsupportedExports path =>
    "Unsupported `exports` shape in `" ++ path.shown ++ "`: expected an object of subpaths"
  | .json path flaw => "Invalid JSON in `" ++ path.shown ++ "`: " ++ flaw.message
  | .tasks total failures =>
    toString failures.length ++ " of " ++ toString total ++ " link task(s) failed:\n" ++
      String.intercalate "\n" (Failure.lines failures)

/-- One line for each failed task. -/
def Failure.lines : List Failure → List String
  | [] => []
  | f :: fs => ("  - " ++ f.message) :: Failure.lines fs

end

end BundleLink
