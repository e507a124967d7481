import BundleLink.Proofs.FileSystem.Naming

/-!
The components of a path without a step in place at its beginning (`Path.solid`). They say where a
path leads (`address_eq_foldl_solid`, `address_of_solid_eq`), those of a path that is joined follow
those of the directory (`solid_join_of_relative`), and a path that ends in a name has that name as its
last component (`Named.solid_eq`).
-/

set_option autoImplicit false

namespace BundleLink

open BundleLink.Text FileSystem

namespace Path

/-- What a path names, component by component: a step in place at its beginning names nothing. -/
def solid (p : Path) : List Component :=
  p.components.filter (· ≠ .here)

theorem partComponent?_ne_here (part : Bytes) : partComponent? part ≠ some .here := by
  rw [partComponent?]
  split_ifs <;> simp

theorem partComponent?_ne_root (part : Bytes) : partComponent? part ≠ some .root := by
  rw [partComponent?]
  split_ifs <;> simp

theorem partComponent?_of_isName {name : Bytes} (hname : IsName name) :
    partComponent? name = some (.name name) := by
  simp [partComponent?, hname.1, hname.2.2.1, hname.2.2.2]

theorem ne_nil_of_mem_steps {p : Path} {name : Bytes} (hname : name ∈ steps p) : name ≠ [] :=
  of_decide_eq_true (List.mem_filter.mp hname).2

theorem filterMap_partComponent?_steps (p : Path) :
    (steps p).filterMap partComponent? =
      (partsBetween slash p.bytes).filterMap partComponent? := by
  rw [steps, List.filterMap_filter]
  refine List.filterMap_congr fun part _ ↦ ?_
  by_cases hpart : part = [] <;> simp [hpart, partComponent?]

/-- The root, for an absolute path, and then what the steps name. -/
theorem solid_eq (p : Path) : p.solid =
    (if p.isAbsolute then [.root] else []) ++ (steps p).filterMap partComponent? := by
  have hnever : ∀ x ∈ (partsBetween slash p.bytes).filterMap partComponent?, x ≠ .here := by
    intro x hx
    obtain ⟨part, -, hpart⟩ := List.mem_filterMap.mp hx
    rintro rfl
    exact partComponent?_ne_here part hpart
  have hkept : ((partsBetween slash p.bytes).filterMap partComponent?).filter (· ≠ .here) =
      (partsBetween slash p.bytes).filterMap partComponent? :=
    List.filter_eq_self.mpr fun x hx ↦ decide_eq_true (hnever x hx)
  rw [solid, components, List.filter_append, hkept, filterMap_partComponent?_steps]
  split_ifs <;> rfl

theorem isAbsolute_iff_solid (p : Path) : p.isAbsolute = true ↔ .root ∈ p.solid := by
  have hnever : Component.root ∉ (steps p).filterMap partComponent? := by
    intro hroot
    obtain ⟨part, -, hpart⟩ := List.mem_filterMap.mp hroot
    exact partComponent?_ne_root part hpart
  rw [solid_eq, List.mem_append]
  by_cases habsolute : p.isAbsolute <;> simp [habsolute, hnever]

theorem solid_of_relative {q : Path} (hq : q.isAbsolute = false) :
    q.solid = (steps q).filterMap partComponent? := by
  rw [solid_eq, hq, if_neg Bool.false_ne_true, List.nil_append]

theorem solid_join_of_relative (p : Path) {q : Path} (hq : q.isAbsolute = false) :
    (p.join q).solid = p.solid ++ q.solid := by
  rw [solid_eq, solid_of_relative hq, solid_eq, isAbsolute_join_of_relative p hq,
    steps_join_of_relative p hq, List.filterMap_append, List.append_assoc]

/-- Names lead where the components lead that they name. -/
theorem foldl_step_of_ne_nil {names : List Bytes} (hnames : ∀ name ∈ names, name ≠ [])
    (loc : Address) :
    names.foldl step loc = (names.filterMap partComponent?).foldl stepComponent loc := by
  have hkept : names.filter (· ≠ []) = names :=
    List.filter_eq_self.mpr fun name hname ↦ decide_eq_true (hnames name hname)
  rw [← foldl_step_eq, hkept]

/-- A path leads where its components say. -/
theorem address_eq_foldl_solid (fs : FileSystem) (p : Path) :
    fs.address p = p.solid.foldl stepComponent (fs.start p) := by
  rw [solid_eq, List.foldl_append, address_eq,
    foldl_step_of_ne_nil fun _ hname ↦ ne_nil_of_mem_steps hname]
  split_ifs <;> rfl

/-- What follows a path by names leads where the names lead from there. -/
theorem address_of_solid_eq (fs : FileSystem) {p r : Path} {names : List Bytes}
    (hnames : ∀ name ∈ names, name ≠ [])
    (hsolid : r.solid = p.solid ++ names.filterMap partComponent?) :
    fs.address r = names.foldl step (fs.address p) := by
  have hroot : Component.root ∉ names.filterMap partComponent? := by
    intro hmem
    obtain ⟨part, -, hpart⟩ := List.mem_filterMap.mp hmem
    exact partComponent?_ne_root part hpart
  have habsolute : r.isAbsolute = p.isAbsolute := by
    rw [Bool.eq_iff_iff, isAbsolute_iff_solid, isAbsolute_iff_solid, hsolid, List.mem_append,
      or_iff_left hroot]
  rw [address_eq_foldl_solid, hsolid, List.foldl_append, start, habsolute, ← start,
    ← address_eq_foldl_solid, foldl_step_of_ne_nil hnames]

end Path

open BundleLink.Path in
/-- A path that ends in a name has that name as its last component. -/
theorem FileSystem.Named.solid_eq {p : Path} {name : Bytes} (hp : Named p name) :
    p.solid = p.solid.dropLast ++ [.name name] := by
  obtain ⟨front, -, hsteps⟩ := hp.steps_eq
  have hlast : [name].filterMap partComponent? = [.name name] := by
    rw [List.filterMap_cons, partComponent?_of_isName hp.isName, List.filterMap_nil]
  rw [Path.solid_eq, hsteps, List.filterMap_append, hlast, ← List.append_assoc,
    List.dropLast_concat]

end BundleLink
