import BundleLink.Proofs.Discovery.Linked
import BundleLink.Proofs.Path.Components

/-!
The paths of artifacts. What is appended to a path that ends in a name changes its last component and
no other (`Named.components_append`), so the artifact of a bundle is named in the directory of the
bundle, by its name and the suffix (`Linkable.sibling`). Different bundles hence have different
artifacts (`Linkable.components_eq`), and no artifact is named like a bundle, however paths are
written (`Linkable.components_linkedPath_ne`).
-/

set_option autoImplicit false

namespace BundleLink

open BundleLink.Text FileSystem

namespace FileSystem.Named

variable {p : Path} {name : Bytes}

theorem components_eq (hp : Named p name) :
    p.components = p.components.dropLast ++ [.name name] := by
  obtain ⟨front, hparts, hname⟩ := hp
  rw [Path.components, hparts, List.filterMap_append, List.filterMap_cons,
    Path.partComponent?_of_isName hname, List.filterMap_nil, ← List.append_assoc,
    List.dropLast_concat]

/-- What is appended to a named path changes its last component and no other. -/
theorem components_append (hp : Named p name) {s : String} (hs : Path.slash ∉ bytesOf s)
    (hname : IsName (name ++ bytesOf s)) :
    (p.append s).components = p.components.dropLast ++ [.name (name ++ bytesOf s)] := by
  obtain ⟨front, hparts, hold⟩ := id hp
  have hparts' : partsBetween Path.slash (p.append s).bytes = front ++ [name ++ bytesOf s] := by
    rw [Path.append, partsBetween_append hparts, partsBetween_of_notMem]
    rw [List.mem_append, not_or]
    exact ⟨hold.2.1, hs⟩
  -- Neither name is a step in place, so neither path begins with one that the other lacks.
  have hhead : ((front ++ [name ++ bytesOf s]).head? = some [Path.dot]) =
      ((front ++ [name]).head? = some [Path.dot]) := by
    cases front with
    | nil => simp [hold.2.2.1, hname.2.2.1]
    | cons part parts => rfl
  have hlast (n : Bytes) (hn : IsName n) :
      (front ++ [n]).filterMap Path.partComponent? =
        front.filterMap Path.partComponent? ++ [.name n] := by
    rw [List.filterMap_append, List.filterMap_cons, Path.partComponent?_of_isName hn,
      List.filterMap_nil]
  rw [Path.components, Path.components, hparts', hparts, hp.isAbsolute_append, hlast _ hold,
    hlast _ hname, ← List.append_assoc, ← List.append_assoc, List.dropLast_concat]
  simp only [hhead]

end FileSystem.Named

/-- One path stands in the directory of another, and its name is longer by the suffix. -/
structure Sibling (c : Config) (b a : Path) : Prop where
  directory : a.components.dropLast = b.components.dropLast
  fileName : ∃ name, b.fileName? = some name ∧ a.fileName? = some (name ++ bytesOf c.suffix)

namespace Linkable

variable {c : Config} {b : Path} {name : Bytes} (hb : Linkable c b name)
  (hext : '/' ∉ c.extension.toList)

include hb hext

theorem components_linkedPath :
    (c.linkedPath b).components =
      b.components.dropLast ++ [.name (name ++ bytesOf c.suffix)] :=
  hb.named.components_append (slash_notMem_bytesOf (slash_notMem_suffix hext))
    (isName_append_suffix hext hb.named.isName.2.1)

theorem sibling : Sibling c b (c.linkedPath b) := by
  refine ⟨?_, name, hb.named.fileName?, ?_⟩
  · rw [hb.components_linkedPath hext, List.dropLast_concat]
  · rw [Path.fileName?, hb.components_linkedPath hext, List.getLast?_concat]

/-- Different bundles have different artifacts. -/
theorem components_eq {b' : Path} {name' : Bytes} (hb' : Linkable c b' name')
    (heq : (c.linkedPath b).components = (c.linkedPath b').components) :
    b.components = b'.components := by
  rw [hb.components_linkedPath hext, hb'.components_linkedPath hext] at heq
  obtain ⟨hfront, hlast⟩ := List.append_inj' heq rfl
  have hname : name = name' :=
    List.append_cancel_right (Path.Component.name.inj (List.singleton_inj.mp hlast))
  rw [hb.named.components_eq, hb'.named.components_eq, hfront, hname]

/-- No artifact is a bundle, here or elsewhere. -/
theorem components_linkedPath_ne {b' : Path} {name' : Bytes} (hb' : Linkable c b' name') :
    (c.linkedPath b).components ≠ b'.components := by
  rw [hb.components_linkedPath hext, hb'.named.components_eq]
  intro heq
  have hlast := List.singleton_inj.mp (List.append_inj' heq rfl).2
  exact hb'.not_suffixed (Path.Component.name.inj hlast ▸ hb.suffixed)

end Linkable

end BundleLink
