import BundleLink.Failure

/-!
What a run reports while it works. An event has a level, the part of the program it comes from, and
a text.
-/

set_option autoImplicit false

namespace BundleLink

inductive Level where
  | error
  | warn
  | info
  | debug
  | trace
deriving DecidableEq, Repr, Inhabited

/-- Levels in order of growing detail. -/
def Level.detail : Level → Nat
  | error => 1
  | warn => 2
  | info => 3
  | debug => 4
  | trace => 5

def Level.name : Level → String
  | error => "ERROR"
  | warn => "WARN"
  | info => "INFO"
  | debug => "DEBUG"
  | trace => "TRACE"

inductive Event where
  | pluginRun (plugin : String) (file : Path)
  | specifierRewritten (old new : String)
  | artifactSkipped (file : Path)
  | exportNotObject (subpath : String)
  | exportOutside (subpath bundleDir : String)
  | exportPresent (subpath condition : String)
  | exportLinked (subpath condition target : String)
  | sideEffectOutside (pattern scope : String)
  | manifestUpdated (file : Path) (conditions sideEffects : Nat)
  | bundleLinked (artifact : Path) (rewritten : Nat)
  | bundlesFound (count : Nat) (directory : Path)
  | taskFailed (failure : Failure)
  | runFinished (bundles conditions : Nat)
  | nothingFound (directory : Path)
deriving Repr, Inhabited

namespace Event

def level : Event → Level
  | pluginRun .. | specifierRewritten .. | artifactSkipped .. | exportNotObject ..
  | exportOutside .. | exportPresent .. | sideEffectOutside .. => .debug
  | exportLinked .. | manifestUpdated .. | bundleLinked .. | bundlesFound ..
  | runFinished .. => .info
  | taskFailed .. => .error
  | nothingFound .. => .warn

/-- The part of the program an event comes from, as filters of the log name it. -/
def target : Event → String
  | pluginRun .. => "ng_link_rs::linker::emit"
  | specifierRewritten .. => "ng_link_rs::linker::specifier_hook"
  | artifactSkipped .. => "ng_link_rs::discovery"
  | exportNotObject .. | exportOutside .. | exportPresent .. | exportLinked ..
  | sideEffectOutside .. | manifestUpdated .. => "ng_link_rs::manifest"
  | bundleLinked .. => "ng_link_rs::linker"
  | bundlesFound .. | taskFailed .. | runFinished .. => "ng_link_rs::runner"
  | nothingFound .. => "ng_link"

def text : Event → String
  | pluginRun plugin file => "Running linker plugin " ++ plugin ++ " on " ++ file.shown
  | specifierRewritten old new => "Rewriting specifier " ++ old ++ " -> " ++ new
  | artifactSkipped file => "Skipping linked artifact " ++ file.shown
  | exportNotObject subpath => "Skipping export " ++ subpath ++ ": not a conditions object"
  | exportOutside subpath dir => "Skipping export " ++ subpath ++ ": no `default` in " ++ dir
  | exportPresent subpath condition =>
    "Export " ++ subpath ++ " already has a `" ++ condition ++ "` condition"
  | exportLinked subpath condition target =>
    "Export " ++ subpath ++ ": `" ++ condition ++ "` -> " ++ target
  | sideEffectOutside pattern scope =>
    "Side-effect pattern " ++ pattern ++ " is outside " ++ scope
  | manifestUpdated file conditions sideEffects =>
    "Updated " ++ file.shown ++ ": " ++ toString conditions ++ " condition(s), " ++
      toString sideEffects ++ " side-effect pattern(s) added"
  | bundleLinked artifact rewritten =>
    "Linked " ++ artifact.shown ++ " (" ++ toString rewritten ++ " specifier(s) rewritten)"
  | bundlesFound count dir => "Found " ++ toString count ++ " bundle(s) under " ++ dir.shown
  | taskFailed failure => failure.message
  | runFinished bundles conditions =>
    "Linked " ++ toString bundles ++ " bundle(s), added " ++ toString conditions ++
      " export condition(s)"
  | nothingFound dir => "No bundles found under " ++ dir.shown

end Event

/-- The events of a run, in order. -/
abbrev Log := List Event

end BundleLink
