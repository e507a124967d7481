import BundleLink.Event
import BundleLink.Script.Tree

/-!
Pointing module specifiers at linked artifacts. The source of a static import, of a named export and
of a wildcard export gets a suffix if it is relative. A `Relinker` counts the specifiers that it has
suffixed in all modules so far.
-/

set_option autoImplicit false

namespace BundleLink.Script.ModuleItem

/-- The module that an item loads. -/
def source? : ModuleItem → Option StringLit
  | importDecl d => some d.source
  | exportNamed d => d.source
  | exportAll d => some d.source
  | _ => none

/-- The item with another module to load, if it loads one. -/
def withSource (s : StringLit) : ModuleItem → ModuleItem
  | importDecl d => importDecl { d with source := s }
  | exportNamed d => exportNamed { d with source := d.source.map fun _ ↦ s }
  | exportAll d => exportAll { d with source := s }
  | item => item

end BundleLink.Script.ModuleItem

namespace BundleLink.Link

open BundleLink.Script

/-- Whether a specifier begins with a dot; others name packages or absolute places. -/
def isRelative (specifier : String) : Bool :=
  specifier.toList.head? = some '.'

theorem isRelative_append {s : String} (hs : isRelative s) (suffix : String) :
    isRelative (s ++ suffix) := by
  have hfirst : s.toList.head? = some '.' := by simpa [isRelative] using hs
  obtain ⟨cs, hcs⟩ := List.head?_eq_some_iff.mp hfirst
  simp [isRelative, String.toList_append, hcs]

structure Relinker where
  suffix : String
  /-- How many specifiers have been suffixed. -/
  rewritten : Nat := 0
deriving DecidableEq, Repr, Inhabited

namespace Relinker

/-- The literal with the suffix after its value, in which lone surrogates are replaced. -/
def suffixed (suffix : String) (s : StringLit) : StringLit :=
  ⟨s.span, .ofString (s.value.lossy ++ suffix), none⟩

/-- An item with its source suffixed, and the event of it if it was. -/
def item (suffix : String) (i : ModuleItem) : ModuleItem × Option Event :=
  match i.source? with
  | none => (i, none)
  | some s =>
    let old := s.value.lossy
    if isRelative old then
      (i.withSource (suffixed suffix s), some (.specifierRewritten old (old ++ suffix)))
    else (i, none)

/-- A module with its sources suffixed, in the order of its items. -/
def run (r : Relinker) (m : Module) : Module × Relinker × Log :=
  let items := m.items.map (item r.suffix)
  let log := items.filterMap (·.2)
  ({ m with items := items.map (·.1) }, { r with rewritten := r.rewritten + log.length }, log)

end Relinker

end BundleLink.Link
