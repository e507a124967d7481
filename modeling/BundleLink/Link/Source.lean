import BundleLink.Link.Plugin
import BundleLink.Link.Specifier
import BundleLink.Script.Location
import BundleLink.Script.Parser.Module
import BundleLink.Script.Printer.Module

/-!
Linking the text of one bundle: it is parsed, passed through the plugins, pointed at linked
artifacts and printed. The path only names the text; nothing is read or written here.
-/

set_option autoImplicit false

namespace BundleLink.Link

open BundleLink.Script

/-- A linked text, and how many of its specifiers were suffixed. -/
structure Linked where
  code : String
  rewritten : Nat
deriving DecidableEq, Repr, Inhabited

/-- A text without the byte order mark it may begin with. -/
def withoutMark (source : List Char) : List Char :=
  match source with
  | '\uFEFF' :: cs => cs
  | cs => cs

def parseModule (source : List Char) (path : Path) : Except Failure (Module × Comments) :=
  match Script.parse (String.ofList source) with
  | .ok m => .ok m
  | .error d => .error (.parse path d.problem (Location.ofOffset source d.span.lo))

/-- A module after all plugins, with the events that announce them. -/
def runPlugins (plugins : List Plugin) (path : Path) (m : Module) : Module × Log :=
  (plugins.foldl (fun m p ↦ p.pass path m) m, plugins.map fun p ↦ .pluginRun p.name path)

/-- Links a text. The events tell what was done even if it fails. -/
def linkSource (source : List Char) (path : Path) (options : Options) :
    Except Failure Linked × Log :=
  match parseModule (withoutMark source) path with
  | .error e => (.error e, [])
  | .ok (m, comments) =>
    let (m, pluginLog) := runPlugins options.plugins path m
    let (m, relinker, log) := Relinker.run ⟨options.suffix, 0⟩ m
    let code := m.print (if options.preserveComments then comments else [])
    (.ok ⟨code, relinker.rewritten⟩, pluginLog ++ log)

end BundleLink.Link
