/-!
The arguments of the command, and how usage messages name them.
-/

set_option autoImplicit false

namespace BundleLink.CommandLine

inductive Argument where
  | packageDir
  | bundleDir
  | extension
  | condition
  | manifest
  | jobs
  | verbose
  | quiet
  | help
  | version
deriving DecidableEq, Repr, Inhabited

namespace Argument

def all : List Argument :=
  [packageDir, bundleDir, extension, condition, manifest, jobs, verbose, quiet, help, version]

/-- The word after two dashes; the package directory is given by its place alone. -/
def long? : Argument → Option String
  | packageDir => none
  | bundleDir => some "bundle-dir"
  | extension => some "extension"
  | condition => some "condition"
  | manifest => some "manifest"
  | jobs => some "jobs"
  | verbose => some "verbose"
  | quiet => some "quiet"
  | help => some "help"
  | version => some "version"

/-- The letter after one dash. -/
def short? : Argument → Option Char
  | packageDir => none
  | bundleDir => some 'b'
  | extension => some 'e'
  | condition => some 'c'
  | manifest => some 'm'
  | jobs => some 'j'
  | verbose => some 'v'
  | quiet => some 'q'
  | help => some 'h'
  | version => some 'V'

/-- The name of the value that an argument takes. -/
def value? : Argument → Option String
  | packageDir => some "PACKAGE_DIR"
  | bundleDir => some "BUNDLE_DIR"
  | extension => some "EXTENSION"
  | condition => some "CONDITION"
  | manifest => some "MANIFEST"
  | jobs => some "JOBS"
  | verbose | quiet | help | version => none

def takesValue (a : Argument) : Bool :=
  a.value?.isSome

/-- An argument as messages show it. -/
def shown (a : Argument) : String :=
  match a.long?, a.value? with
  | some word, some value => "--" ++ word ++ " <" ++ value ++ ">"
  | some word, none => "--" ++ word
  | none, some value => "[" ++ value ++ "]"
  | none, none => ""

def ofLong? (word : String) : Option Argument :=
  all.find? fun a ↦ a.long? = some word

def ofShort? (letter : Char) : Option Argument :=
  all.find? fun a ↦ a.short? = some letter

end Argument

/-! ### Texts of the command -/

def commandName : String :=
  "ng-link"

/-- How the command is called; with the arguments `used`, if it was called with some. -/
def usage (used : List Argument) : String :=
  let options := if used.isEmpty then ["[OPTIONS]"]
    else ((used.filter (· ≠ .packageDir)).eraseDups).map (·.shown)
  "Usage: " ++ String.intercalate " " (commandName :: options ++ [Argument.packageDir.shown])

def versionText : String :=
  commandName ++ " 0.1.0\n"

/-- What an argument is for. -/
def Argument.about : Argument → String
  | packageDir =>
    "Package directory containing the bundle directory and package.json [default: .]"
  | bundleDir => "Bundle directory, relative to the package directory [default: fesm2022]"
  | extension => "Bundle file extension [default: mjs]"
  | condition => "Export condition pointing at the linked bundles [default: ng-linked]"
  | manifest => "Manifest file name, relative to the package directory [default: package.json]"
  | jobs => "Maximum number of files processed at once [default: 64]"
  | verbose => "Log each skipped entry and rewritten specifier"
  | quiet => "Only log warnings and errors"
  | help => "Print help"
  | version => "Print version"

/-- A text with blanks after it, up to a width. -/
def padded (width : Nat) (s : String) : String :=
  s.pushn ' ' (width - s.length)

def Argument.helpLine (a : Argument) : String :=
  match a.short? with
  | some letter => "  -" ++ letter.toString ++ ", " ++ padded 25 a.shown ++ "  " ++ a.about ++ "\n"
  | none => "  " ++ a.shown ++ "  " ++ a.about ++ "\n"

def helpText : String :=
  "CLI application for linking a package's FESM bundles and publishing them under an export " ++
    "condition\n\n" ++ usage [] ++ "\n\nArguments:\n" ++ Argument.packageDir.helpLine ++
    "\nOptions:\n" ++ String.join ((Argument.all.drop 1).map (·.helpLine))

end BundleLink.CommandLine
