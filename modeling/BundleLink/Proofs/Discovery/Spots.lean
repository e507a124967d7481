import BundleLink.Proofs.Discovery.Spelling
import BundleLink.Proofs.FileSystem.Links

/-!
What a search knows of the spots that it comes to. What it takes for a directory is no file
(`Arises.not_isFile`), so no bundle is asked to be a directory (`endsInSlash_linkedPath`). In a tree
it takes for a directory just what is one, though it may not be able to read it (`fits_ofPath`,
`fits_entry`).
-/

set_option autoImplicit false

namespace BundleLink.Glob

open BundleLink.Text FileSystem

/-! ### Directories and files -/

section

variable {fs : FileSystem}

theorem foldl_step_dots {names : List Bytes} (hdots : ∀ name ∈ names, name = [Path.dot])
    (loc : Address) : names.foldl step loc = loc := by
  induction names with
  | nil => rfl
  | cons name names ih =>
    obtain ⟨hname, hnames⟩ := List.forall_mem_cons.mp hdots
    rw [List.foldl_cons, hname, step, if_pos rfl, ih hnames]

/-- Steps in place lead nowhere else. -/
theorem eq_of_walk_dots {links : Nat} {loc loc' : Address} {names : List Bytes}
    (hdots : ∀ name ∈ names, name = [Path.dot])
    (hok : walk fs links loc names = .ok (.directory loc')) : loc' = loc := by
  obtain ⟨jump, hjump⟩ : ∃ jump, walk fs links = walkWith fs jump := by
    cases links <;> exact ⟨_, rfl⟩
  rw [hjump] at hok
  induction names with
  | nil =>
    rw [walkWith] at hok
    split at hok <;> cases hok
    rfl
  | cons name names ih =>
    obtain ⟨hname, hnames⟩ := List.forall_mem_cons.mp hdots
    simp only [walkWith, lookup?_of_walkWith_cons hok, if_pos hname] at hok
    exact ih hnames hok

/-- An entry is looked for in the directory that its path was joined to. -/
theorem around_child {p : Path} {loc : Address} (hplace : fs.resolve p = .ok (.directory loc))
    {name : Bytes} (hname : IsName name) {around : Address}
    (haround : Around fs (child p ⟨name⟩) around) : around = loc := by
  obtain ⟨links, hleads⟩ := haround.leads
  have hfront := hleads []
  have hwalk := (resolve_of_ok hplace).2.2.2
  rw [List.append_nil, walk_nil links, haround.directory] at hfront
  rw [child] at hfront
  split_ifs at hfront with hhere
  · obtain ⟨hrelative, -, hdots⟩ := (isHere_iff p).mp hhere
    have hstart : fs.start ⟨name⟩ = fs.start p := by
      rw [start, start, isAbsolute_of_notMem hname.2.1, hrelative]
    rw [steps_of_isName hname, List.dropLast_singleton, hstart] at hfront
    rw [eq_of_walk_dots (by simp) hfront, eq_of_walk_dots hdots hwalk]
  · have hstart : fs.start (p.join ⟨name⟩) = fs.start p := by
      rw [start, start, isAbsolute_join p hname.2.1]
    rw [steps_join p hname.2.1, if_neg hname.1, List.dropLast_concat, hstart, hwalk] at hfront
    cases hfront
    rfl

/-- An entry that is a directory is not read as a file. -/
theorem not_isFile_child (h : fs.IsSound) {p : Path} {loc : Address}
    (hplace : fs.resolve p = .ok (.directory loc)) {name : Bytes}
    (hentry : fs.lookup? (loc ++ [name]) = some .directory) :
    fs.isFile (child p ⟨name⟩) = false := by
  rw [Bool.eq_false_iff]
  intro hfile
  have hname : IsName name := h.is_name _ _ hentry name (by simp)
  obtain ⟨-, around, -, haround⟩ := around_of_isFile h hfile
  obtain rfl := around_child hplace hname haround
  obtain ⟨links, hleads⟩ := haround.leads
  obtain ⟨-, l, content, hok⟩ := (isFile_iff fs _).mp hfile
  obtain ⟨front, -, hsteps⟩ := (named_child p hname).steps_eq
  have hwalk := (resolve_of_ok hok).2.2.2
  rw [hsteps, List.dropLast_concat] at hleads
  rw [hsteps, hleads] at hwalk
  obtain ⟨jump, hjump⟩ : ∃ jump, walk fs links = walkWith fs jump := by
    cases links <;> exact ⟨_, rfl⟩
  obtain ⟨-, -, hdot, hup⟩ := hname
  rw [hjump, walkWith, haround.directory] at hwalk
  simp only [hdot, hup, if_false, hentry, walkWith] at hwalk
  split_ifs at hwalk
  cases hwalk

/-- What a search takes for a directory is no file. -/
theorem Arises.not_isFile (h : fs.IsSound) {s : Spot} (hs : Arises fs s)
    (hdirectory : s.isDirectory = true) : fs.isFile s.path = false := by
  have hlooked (p : Path) (hp : fs.isDirectory p = true) : fs.isFile p = false := by
    obtain ⟨loc, hplace⟩ := (isDirectory_iff fs p).mp hp
    simp [isFile, hplace]
  cases hs with
  | path p => exact hlooked p hdirectory
  | entry name hplace =>
    rw [path_ofEntry]
    rw [Spot.ofEntry] at hdirectory
    split at hdirectory
    · exact hlooked _ hdirectory
    · exact not_isFile_child h hplace (of_decide_eq_true hdirectory)

end

/-! ### Spots of a tree -/

/-- What is said of a spot is so: a directory stands there if it is said to, be its path one that a
system takes or not, and if its path leads to a directory then it is said to. -/
structure Fits (fs : FileSystem) (s : Spot) : Prop where
  leads : s.isDirectory = true → s.path.bytes ≠ [] ∧ ∃ loc, fs.LeadsTo s.path loc
  isDirectory : fs.isDirectory s.path = true → s.isDirectory = true

section

variable {fs : FileSystem} (h : fs.IsTree)

include h

theorem fits_ofPath (p : Path) : Fits fs (.ofPath fs p) :=
  ⟨fun hp ↦ ((isDirectory_iff_leads h).mp hp).2, id⟩

/-- An entry that is a directory is led to from the directory around it. -/
theorem leads_child {p : Path} {loc : Address} (hleads : fs.LeadsTo p loc) {name : Bytes}
    (hentry : fs.lookup? (loc ++ [name]) = some .directory) :
    fs.LeadsTo (child p ⟨name⟩) (loc ++ [name]) := by
  have hname : IsName name := h.is_name _ _ hentry name (by simp)
  have hlast : Leads fs loc [name] (loc ++ [name]) := leads_of_lookup? h hentry
  rw [LeadsTo, child]
  split_ifs with hhere
  · obtain ⟨hrelative, -, hdots⟩ := (isHere_iff p).mp hhere
    have hstay : loc = fs.start p := hleads.eq_foldl.trans (foldl_step_dots hdots _)
    rw [steps_of_isName hname, start, isAbsolute_of_notMem hname.2.1, ← hrelative, ← start, ← hstay]
    exact hlast
  · rw [steps_join p hname.2.1, if_neg hname.1, start, isAbsolute_join p hname.2.1, ← start]
    exact leads_steps_append_iff.mpr ⟨loc, hleads, hlast⟩

variable {closed : List Address} {s : Spot} {name : Bytes} (hname : name ∈ listing fs closed s)

include hname

theorem leads_of_mem_listing : fs.LeadsTo s.path (fs.address s.path) := by
  obtain ⟨loc, -, hplace, -⟩ := exists_entry_of_mem_listing hname
  obtain ⟨-, -, loc, hleads⟩ :=
    (isDirectory_iff_leads h).mp ((isDirectory_iff fs s.path).mpr ⟨loc, hplace⟩)
  rwa [hleads.address_eq]

/-- An entry is taken for a directory if it is one. -/
theorem isDirectory_entry_iff : (entry fs s name).isDirectory = true ↔
    fs.lookup? (fs.address s.path ++ [name]) = some .directory := by
  obtain ⟨loc, -, hplace, -⟩ := exists_entry_of_mem_listing hname
  have hlocated : located fs s.path = fs.address s.path := by
    rw [located, hplace]
    exact (resolve_ok h hplace).1
  rw [entry, Spot.ofEntry, hlocated]
  split
  · rename_i target hlink
    exact absurd hlink (h.no_link _ target)
  · simp

theorem fits_entry : Fits fs (entry fs s name) := by
  have hleads := leads_of_mem_listing h hname
  refine ⟨fun hdirectory ↦ ?_, fun hdirectory ↦ ?_⟩
  · rw [path_entry]
    have hisName := (mem_listing h hname).1
    refine ⟨(named_child s.path hisName).bytes_ne_nil, _, leads_child h hleads ?_⟩
    exact (isDirectory_entry_iff h hname).mp hdirectory
  · have hentry := lookup?_of_isDirectory h hdirectory
    rw [path_entry, address_child fs s.path (mem_listing h hname).1] at hentry
    exact (isDirectory_entry_iff h hname).mpr hentry

end

end BundleLink.Glob

namespace BundleLink

open BundleLink.Text FileSystem

section

variable {c : Config} {fs : FileSystem} (h : fs.IsSound) {bundles : List Path}
  (hbundles : (discover c fs).1 = .ok bundles) {b : Path} (hb : b ∈ bundles)

include h hbundles hb

/-- An extension that ends in a separator has no bundles: its pattern asks for directories. -/
theorem getLast?_extension_ne_slash : c.extension.toList.getLast? ≠ some '/' := by
  intro hslash
  obtain ⟨q, hq, -, hmem⟩ := mem_discover hbundles
  obtain ⟨hsearch, hfile, -⟩ := (hmem b).mp hb
  obtain ⟨pattern, hpattern, hchars⟩ := bundleQuery_ok hq
  obtain ⟨front, hfront⟩ := bundlePattern_ok hpattern
  have hdirectories : q.directoriesOnly = true := by
    have hlast : pattern.getLast? = some '/' := by
      rw [hfront, List.getLast?_append, List.getLast?_cons, hslash]
      rfl
    simpa [(ofChars_ok hchars).2.1] using hlast
  obtain ⟨s, hs, rfl, hdirectory⟩ := Glob.exists_spot_of_mem_search hdirectories hsearch
  rw [hs.not_isFile h hdirectory] at hfile
  cases hfile

/-- The artifact of a bundle is not asked to be a directory. -/
theorem endsInSlash_linkedPath : endsInSlash (c.linkedPath b) = false := by
  rw [Bool.eq_false_iff]
  exact fun hslash ↦ getLast?_extension_ne_slash h hbundles hb
    (getLast?_extension_of_endsInSlash hslash)

end

end BundleLink
