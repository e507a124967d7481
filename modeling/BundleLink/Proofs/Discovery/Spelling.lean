import BundleLink.Proofs.Discovery.Moves
import BundleLink.Proofs.FileSystem.Following

/-!
The paths that a search spells. From where it begins, a search joins one part after the other to a
path (`spelled`); in the current directory the part takes the place of the path, so no part may be
empty there (`Ready`). A spelled path leads where the names of its parts lead
(`Ready.leads_spelled_iff`), and if it leads to a directory so do all the paths on the way to it
(`Ready.isDirectory`).
-/

set_option autoImplicit false

namespace BundleLink.Glob

open BundleLink.Text FileSystem

/-! ### The current directory -/

theorem partComponent?_eq_none_iff (part : Bytes) :
    Path.partComponent? part = none ↔ (part ≠ [] → part = [Path.dot]) := by
  rw [Path.partComponent?]
  split_ifs with hnone hup
  · tauto
  · simp [hup, Path.dot]
  · simp_all

/-- A relative path begins with a name. -/
theorem part_ne_nil {p : Path} (hrelative : p.isAbsolute = false) (hne : p.bytes ≠ [])
    {part : Bytes} {parts : List Bytes} (hparts : partsBetween Path.slash p.bytes = part :: parts) :
    part ≠ [] := by
  obtain ⟨b, bs, hbytes⟩ := List.exists_cons_of_ne_nil hne
  have hb : b ≠ Path.slash := by
    rintro rfl
    simp [Path.isAbsolute, hbytes] at hrelative
  obtain ⟨first, rest, hrest⟩ := List.exists_cons_of_ne_nil
    (partsBetween_ne_nil bs : partsBetween Path.slash bs ≠ [])
  rw [hbytes, partsBetween_cons_of_ne hb hrest] at hparts
  rw [← (List.cons.inj hparts).1]
  exact List.cons_ne_nil b first

/-- A path is the current directory if it is relative and all its steps are in place. -/
theorem isHere_iff (p : Path) : isHere p = true ↔
    p.isAbsolute = false ∧ p.bytes ≠ [] ∧ ∀ name ∈ steps p, name = [Path.dot] := by
  obtain ⟨part, parts, hparts⟩ := List.exists_cons_of_ne_nil
    (partsBetween_ne_nil p.bytes : partsBetween Path.slash p.bytes ≠ [])
  have hsteps : (∀ name ∈ steps p, name = [Path.dot]) ↔
      ∀ name ∈ part :: parts, Path.partComponent? name = none := by
    simp only [steps, hparts, List.mem_filter, partComponent?_eq_none_iff, decide_eq_true_eq,
      and_imp]
  rw [hsteps, isHere, decide_eq_true_iff, Path.components, hparts, List.head?_cons]
  simp only [Option.some.injEq]
  by_cases habsolute : p.isAbsolute
  · simp [habsolute]
  rw [if_neg habsolute]
  by_cases hpart : part = [Path.dot]
  · have hne : p.bytes ≠ [] := by
      intro hnil
      rw [hnil, partsBetween, hpart] at hparts
      cases hparts
    simp [habsolute, hpart, hne, Path.partComponent?]
  · rw [if_neg hpart, List.nil_append]
    constructor
    · intro hhere
      have hmem : Path.Component.here ∈ (part :: parts).filterMap Path.partComponent? := by
        simp [hhere]
      obtain ⟨name, -, hname⟩ := List.mem_filterMap.mp hmem
      exact absurd hname (Path.partComponent?_ne_here name)
    · rintro ⟨-, hne, hnone⟩
      have hfirst := (partComponent?_eq_none_iff part).mp (hnone part List.mem_cons_self)
      exact absurd (hfirst (part_ne_nil (by simpa using habsolute) hne hparts)) hpart

/-- What paths a search meets: none is empty, and the current directory is met by one name only. -/
structure Met (p : Path) : Prop where
  bytes_ne_nil : p.bytes ≠ []
  here : isHere p = true → p.bytes = [Path.dot]

namespace Met

variable {p : Path} (hp : Met p) {part : Bytes} (hslash : Path.slash ∉ part)

include hp hslash

/-- What is joined to a path leads out of the current directory for good. -/
theorem not_isHere_child (hhere : isHere p = false) : isHere (child p ⟨part⟩) = false := by
  rw [child, hhere, if_neg Bool.false_ne_true, Bool.eq_false_iff]
  intro hjoin
  obtain ⟨habsolute, -, hdots⟩ := (isHere_iff _).mp hjoin
  rw [isAbsolute_join p hslash] at habsolute
  rw [steps_join p hslash, List.forall_mem_append] at hdots
  rw [(isHere_iff p).mpr ⟨habsolute, hp.bytes_ne_nil, hdots.1⟩] at hhere
  cases hhere

theorem child (hfirst : isHere p = true → part ≠ []) : Met (child p ⟨part⟩) := by
  by_cases hhere : isHere p = true
  · have hchild : Glob.child p ⟨part⟩ = ⟨part⟩ := if_pos hhere
    rw [hchild]
    refine ⟨hfirst hhere, fun hpart ↦ ?_⟩
    have hdots := ((isHere_iff _).mp hpart).2.2
    rw [steps, partsBetween_of_notMem hslash] at hdots
    exact hdots part (by simpa using hfirst hhere)
  · have hhere' : isHere p = false := by simpa using hhere
    refine ⟨?_, fun hchild ↦ ?_⟩
    · rw [Glob.child, if_neg hhere, Path.join, isAbsolute_of_notMem hslash]
      simp [hp.bytes_ne_nil]
    · rw [hp.not_isHere_child hslash hhere'] at hchild
      cases hchild

/-- A path that is taken is taken up to each of its parts. -/
theorem takes (htakes : Takes (Glob.child p ⟨part⟩)) : Takes p := by
  by_cases hhere : isHere p = true
  · obtain rfl : p = ⟨[Path.dot]⟩ := by rw [← hp.here hhere]
    decide
  · rw [Glob.child, if_neg hhere] at htakes
    obtain ⟨hnul, hlength, hnames⟩ := htakes
    rw [steps_join p hslash, List.forall_mem_append] at hnames
    rw [Path.join, isAbsolute_of_notMem hslash, if_neg Bool.false_ne_true] at hnul hlength
    simp only [List.mem_append, not_or, List.length_append] at hnul hlength
    exact ⟨hnul.1.1, by omega, hnames.1⟩

/-- A part leads on from where its path leads. -/
theorem leads_child_iff (fs : FileSystem) (hfirst : isHere p = true → part ≠ []) (loc : Address) :
    fs.LeadsTo (Glob.child p ⟨part⟩) loc ↔
      Leads fs (fs.start p) (steps p ++ steps ⟨part⟩) loc := by
  by_cases hhere : isHere p = true
  · obtain rfl : p = ⟨[Path.dot]⟩ := by rw [← hp.here hhere]
    have hchild : Glob.child ⟨[Path.dot]⟩ ⟨part⟩ = ⟨part⟩ := if_pos hhere
    have hdot : steps ⟨[Path.dot]⟩ = [[Path.dot]] := by decide
    have hstay : step (fs.start ⟨[Path.dot]⟩) [Path.dot] = fs.start ⟨part⟩ := by
      rw [step, if_pos rfl, start, start, isAbsolute_of_notMem hslash]
      rfl
    rw [LeadsTo, hchild, hdot, List.singleton_append, leads_cons_iff, hstay]
    have hstart : fs.start ⟨[Path.dot]⟩ = fs.start ⟨part⟩ := hstay
    rw [hstart]
    exact ⟨fun hleads ↦ ⟨hleads.directory, hleads⟩, fun hleads ↦ hleads.2⟩
  · rw [LeadsTo, Glob.child, if_neg hhere,
      steps_join_of_relative p (isAbsolute_of_notMem hslash), start, start,
      isAbsolute_join p hslash]

omit hslash in
/-- What stands in a directory is named from there. -/
theorem leads_dropLast_child {fs : FileSystem} {loc : Address} {name : Bytes} (hname : IsName name)
    (hleads : fs.LeadsTo p loc) :
    Leads fs (fs.start (Glob.child p ⟨name⟩)) (steps (Glob.child p ⟨name⟩)).dropLast loc := by
  by_cases hhere : isHere p = true
  · obtain rfl : p = ⟨[Path.dot]⟩ := by rw [← hp.here hhere]
    have hchild : Glob.child ⟨[Path.dot]⟩ ⟨name⟩ = ⟨name⟩ := if_pos hhere
    have hstart : fs.start ⟨name⟩ = loc := by
      rw [start, isAbsolute_of_notMem hname.2.1]
      exact hleads.eq_foldl.symm
    rw [hchild, steps_of_isName hname, List.dropLast_singleton, hstart]
    exact .here hleads.directory_right
  · rw [Glob.child, if_neg hhere, steps_join p hname.2.1, if_neg hname.1, List.dropLast_concat,
      start, isAbsolute_join p hname.2.1]
    exact hleads

omit hslash in
/-- An empty part makes no difference to what follows it. -/
theorem child_child_nil (hhere : isHere p = false) :
    Glob.child (Glob.child p ⟨[]⟩) ⟨part⟩ = Glob.child p ⟨part⟩ := by
  rw [Glob.child, hp.not_isHere_child List.not_mem_nil hhere, Glob.child, Glob.child, hhere]
  simp only [Bool.false_eq_true, if_false]
  rcases List.eq_nil_or_concat p.bytes with hnil | ⟨bs, b, hlast⟩
  · exact absurd hnil hp.bytes_ne_nil
  · rw [List.concat_eq_append] at hlast
    by_cases hb : b = Path.slash
    · simp [Path.join, Path.isAbsolute, hlast, hb]
    · simp [Path.join, Path.isAbsolute, hlast, hb]

end Met

/-! ### One part after the other -/

/-- The path that parts spell when they follow a path. -/
def spelled (p : Path) (parts : List Bytes) : Path :=
  parts.foldl (fun p part ↦ child p ⟨part⟩) p

theorem spelled_cons (p : Path) (part : Bytes) (parts : List Bytes) :
    spelled p (part :: parts) = spelled (child p ⟨part⟩) parts := rfl

theorem spelled_append (p : Path) (parts rest : List Bytes) :
    spelled p (parts ++ rest) = spelled (spelled p parts) rest :=
  List.foldl_append

/-- Out of the current directory a path grows by each of its parts. -/
theorem length_le_spelled {p : Path} (hp : Met p) (hhere : isHere p = false) {parts : List Bytes}
    (hslash : ∀ part ∈ parts, Path.slash ∉ part) :
    p.bytes.length + parts.flatten.length ≤ (spelled p parts).bytes.length := by
  induction parts generalizing p with
  | nil => exact Nat.le_refl _
  | cons part parts ih =>
    obtain ⟨hpart, hparts⟩ := List.forall_mem_cons.mp hslash
    have hnext := ih (hp.child hpart fun hhere' ↦ absurd hhere' (by simp [hhere]))
      (hp.not_isHere_child hpart hhere) hparts
    have hlength : p.bytes.length + part.length ≤ (child p ⟨part⟩).bytes.length := by
      rw [child, hhere, if_neg Bool.false_ne_true, Path.join, isAbsolute_of_notMem hpart,
        if_neg Bool.false_ne_true, List.length_append, List.length_append]
      exact Nat.add_le_add_right (Nat.le_add_right _ _) _
    rw [List.flatten_cons, List.length_append, spelled_cons]
    omega

/-- A path is not taken if its parts alone are too long. -/
theorem not_takes_spelled {p : Path} (hp : Met p) (hhere : isHere p = false) {parts : List Bytes}
    (hslash : ∀ part ∈ parts, Path.slash ∉ part)
    (hlong : maxPath < p.bytes.length + parts.flatten.length) :
    ¬Takes (spelled p parts) := by
  intro htakes
  have hlength := htakes.length_le
  have hspelled := length_le_spelled hp hhere hslash
  omega

/-- Parts that can follow a path: nothing follows the steps in place at the current directory. -/
structure Ready (p : Path) (parts : List Bytes) : Prop where
  met : Met p
  slash : ∀ part ∈ parts, Path.slash ∉ part
  first : isHere p = true → (parts.dropWhile (· = [Path.dot])).head? ≠ some []

namespace Ready

variable {p : Path} {part : Bytes} {parts : List Bytes}

theorem part_ne_nil (h : Ready p (part :: parts)) (hhere : isHere p = true) : part ≠ [] := by
  rintro rfl
  exact h.first hhere (by simp)

theorem tail (h : Ready p (part :: parts)) : Ready (child p ⟨part⟩) parts := by
  obtain ⟨hpart, hparts⟩ := List.forall_mem_cons.mp h.slash
  refine ⟨h.met.child hpart h.part_ne_nil, hparts, fun hchild ↦ ?_⟩
  -- Only a step in place leaves the search in the current directory.
  by_cases hhere : isHere p = true
  · have hfirst := h.first hhere
    rw [child, if_pos hhere] at hchild
    have hdots := ((isHere_iff _).mp hchild).2.2
    rw [steps, partsBetween_of_notMem hpart] at hdots
    have hdot : part = [Path.dot] := hdots part (by simpa using h.part_ne_nil hhere)
    rwa [List.dropWhile_cons_of_pos (by simpa using hdot)] at hfirst
  · rw [h.met.not_isHere_child hpart (by simpa using hhere)] at hchild
    cases hchild

/-- Names of entries can follow any path that is met. -/
theorem of_isName (hp : Met p) (hparts : ∀ part ∈ parts, IsName part) : Ready p parts := by
  refine ⟨hp, fun part hpart ↦ (hparts part hpart).2.1, fun _ hfirst ↦ ?_⟩
  have hmem := (List.dropWhile_sublist _).subset (List.mem_of_head? hfirst)
  exact (hparts [] hmem).1 rfl

theorem met_spelled (h : Ready p parts) : Met (spelled p parts) := by
  induction parts generalizing p with
  | nil => exact h.met
  | cons part parts ih => exact ih h.tail

/-- What can follow a path goes on behind any of its parts. -/
theorem behind {rest : List Bytes} (h : Ready p (parts ++ rest)) : Ready (spelled p parts) rest := by
  induction parts generalizing p with
  | nil => exact h
  | cons part parts ih => exact ih h.tail

theorem takes (h : Ready p parts) (htakes : Takes (spelled p parts)) : Takes p := by
  induction parts generalizing p with
  | nil => exact htakes
  | cons part parts ih => exact h.met.takes (h.slash part List.mem_cons_self) (ih h.tail htakes)

/-- A spelled path leads where the names of its parts lead. -/
theorem leads_spelled_iff (h : Ready p parts) (fs : FileSystem) (loc : Address) :
    fs.LeadsTo (spelled p parts) loc ↔
      Leads fs (fs.start p) (steps p ++ parts.filter (· ≠ [])) loc := by
  induction parts generalizing p with
  | nil => rw [spelled, List.foldl_nil, List.filter_nil, List.append_nil, LeadsTo]
  | cons part parts ih =>
    have hslash := h.slash part List.mem_cons_self
    have hsteps : steps ⟨part⟩ = [part].filter (· ≠ []) := by
      rw [steps, partsBetween_of_notMem hslash]
    rw [spelled_cons, ih h.tail, leads_steps_append_iff]
    simp only [h.met.leads_child_iff hslash fs h.part_ne_nil]
    rw [← leads_append_iff, List.append_assoc, hsteps, ← List.filter_append,
      List.singleton_append]

/-- If a spelled path leads to a directory, so do all the paths on the way to it. -/
theorem isDirectory (h : Ready p parts) {fs : FileSystem} (htree : fs.IsTree)
    (hspelled : fs.isDirectory (spelled p parts) = true) : fs.isDirectory p = true := by
  rw [isDirectory_iff_leads htree] at hspelled ⊢
  obtain ⟨htakes, -, loc, hleads⟩ := hspelled
  obtain ⟨between, hbetween, -⟩ := leads_steps_append_iff.mp ((h.leads_spelled_iff fs loc).mp hleads)
  exact ⟨h.takes htakes, h.met.bytes_ne_nil, between, hbetween⟩

/-- Empty parts spell nothing, but for one at the end. -/
theorem spelled_filter (h : Ready p parts) (hlast : parts.getLast? ≠ some []) :
    spelled p (parts.filter (· ≠ [])) = spelled p parts := by
  induction parts generalizing p with
  | nil => rfl
  | cons part parts ih =>
    by_cases hpart : part = []
    · subst hpart
      have hhere : isHere p = false := by
        rw [Bool.eq_false_iff]
        exact fun hhere ↦ h.part_ne_nil hhere rfl
      -- Another part follows, and the separator of the empty part is then its own.
      have hne : parts ≠ [] := by
        rintro rfl
        exact hlast rfl
      rw [List.getLast?_cons_of_ne_nil hne] at hlast
      rw [List.filter_cons_of_neg (by simp), spelled_cons, ← ih h.tail hlast]
      obtain ⟨last, hend⟩ := Option.isSome_iff_exists.mp (List.getLast?_isSome.mpr hne)
      have hmem : last ∈ parts.filter (· ≠ []) :=
        List.mem_filter.mpr ⟨List.mem_of_getLast? hend, by simpa [hend] using hlast⟩
      obtain ⟨name, names, hnames⟩ := List.exists_cons_of_ne_nil (List.ne_nil_of_mem hmem)
      rw [hnames, spelled_cons, spelled_cons, h.met.child_child_nil hhere]
    · rw [List.filter_cons_of_pos (by simpa using hpart), spelled_cons, spelled_cons]
      cases parts with
      | nil => rfl
      | cons next rest => exact ih h.tail (by rwa [List.getLast?_cons_cons] at hlast)

end Ready

end BundleLink.Glob
