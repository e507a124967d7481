import BundleLink.Proofs.Discovery.Blocked
import BundleLink.Proofs.Discovery.Linked
import BundleLink.Proofs.Discovery.Region

/-!
Which bundles are discovered, in a file system without symbolic links. A file is a bundle by its name
(`IsBundleFile`). Discovery fails if there is a directory that it has to read and cannot (`Hinders`),
and for no other reason, whatever the base directory is called (`exists_hinders_of_discover`,
`exists_discover_eq_error`); there is none where all paths are short and nothing is closed
(`exists_discover_eq_ok`). Otherwise all files below the bundle directory that are bundles are
discovered, and nothing else, by the path that the search spells for them (`foundPath`,
`mem_discover_iff`), if a system takes that path; they come in strict order (`pairwise_discover`).
`discover_exhaustive` is the two together.

The name of the bundle directory may begin with steps in place. Where another separator follows them
the search ends at once (`discover_of_not_wellBegun`). Nothing is found of a bundle directory whose
path is too long for a system, however short the way to it is, nor where a directory below it is
closed (`misses_bundles`).
-/

set_option autoImplicit false

namespace BundleLink

open BundleLink.Text FileSystem

namespace Glob

/-! ### Where the search begins -/

/-- The name of a directory does not begin with steps in place that an empty name follows. -/
def WellBegun (whole : List Char) : Prop :=
  (dropDotSlashes whole).head? = some '/' → whole.head? = some '/'

/-- Where a search for what is below a directory begins. -/
def root (directory : Path) : Path :=
  .ofString (if directory.isAbsolute then "/" else ".")

theorem met_root (directory : Path) : Met (root directory) := by
  rw [root]
  split_ifs
  · exact ⟨by decide, by decide⟩
  · exact ⟨by decide, by decide⟩

/-- The parts of a relative name do not begin with steps in place that an empty part follows. -/
theorem head?_dropWhile_parts {whole : List Char} (hne : whole ≠ [])
    (hlast : whole.getLast? ≠ some '/') (hbegin : (dropDotSlashes whole).head? ≠ some '/') :
    ((partsBetween '/' whole).dropWhile (· = ['.'])).head? ≠ some [] := by
  fun_induction dropDotSlashes whole with
  | case1 cs ih =>
    have hparts : partsBetween '/' ('.' :: '/' :: cs) = ['.'] :: partsBetween '/' cs := by
      simp [partsBetween]
    rw [hparts, List.dropWhile_cons_of_pos (by simp)]
    have hcs : cs ≠ [] := by
      rintro rfl
      exact hlast rfl
    refine ih hcs ?_ hbegin
    rwa [List.getLast?_cons_cons, List.getLast?_cons_of_ne_nil hcs] at hlast
  | case2 cs hnot =>
    obtain ⟨c, cs, rfl⟩ := List.exists_cons_of_ne_nil hne
    have hc : c ≠ '/' := fun heq ↦ hbegin (by rw [heq]; rfl)
    obtain ⟨part, parts, hparts⟩ := List.exists_cons_of_ne_nil
      (partsBetween_ne_nil cs : partsBetween '/' cs ≠ [])
    rw [partsBetween_cons_of_ne hc hparts]
    by_cases hdot : c :: part = ['.']
    · obtain ⟨rfl, rfl⟩ := List.cons.inj hdot
      cases cs with
      | nil =>
        obtain ⟨-, rfl⟩ := List.cons.inj hparts
        simp
      | cons d ds =>
        have hd : d ≠ '/' := fun heq ↦ hnot ds (by rw [heq])
        obtain ⟨next, rest, hrest⟩ := List.exists_cons_of_ne_nil
          (partsBetween_ne_nil ds : partsBetween '/' ds ≠ [])
        rw [partsBetween_cons_of_ne hd hrest] at hparts
        cases hparts
    · rw [List.dropWhile_cons_of_neg (by simpa using hdot)]
      simp

/-- Where another separator follows the steps in place that a name begins with, so does an empty part.
-/
theorem head?_dropWhile_parts_of_slash {whole : List Char}
    (hbegin : (dropDotSlashes whole).head? = some '/') :
    ((partsBetween '/' whole).dropWhile (· = ['.'])).head? = some [] := by
  fun_induction dropDotSlashes whole with
  | case1 cs ih =>
    have hparts : partsBetween '/' ('.' :: '/' :: cs) = ['.'] :: partsBetween '/' cs := by
      simp [partsBetween]
    rw [hparts, List.dropWhile_cons_of_pos (by simp)]
    exact ih hbegin
  | case2 cs _ =>
    obtain ⟨rest, rfl⟩ := List.head?_eq_some_iff.mp hbegin
    simp [partsBetween]

/-- A search ends at once where an empty part follows steps in place in the current directory. -/
theorem below_eq_nil_of_head? {fs : FileSystem} {closed : List Address} {texts : List (List Char)}
    (ext : List Char) (depth : Nat) {s : Spot} (hs : isHere s.path = true)
    (hempty : (texts.dropWhile (· = ['.'])).head? = some []) :
    below fs closed false (visit fs closed false depth) (underDirectory texts ext) s = [] := by
  induction texts generalizing s with
  | nil => cases hempty
  | cons cs texts ih =>
    by_cases hdot : cs = ['.']
    · subst hdot
      rw [List.dropWhile_cons_of_pos (by simp)] at hempty
      rw [below_plain fs closed texts ext depth (by decide), ih _ hempty, ite_self]
      rw [Spot.ofPath, child, if_pos hs]
      exact (by decide : isHere ⟨encode ['.']⟩ = true)
    · rw [List.dropWhile_cons_of_neg (by simpa using hdot), List.head?_cons] at hempty
      obtain rfl := Option.some.inj hempty
      rw [below_plain fs closed texts ext depth (by decide), passes, child, if_pos hs]
      rfl

section

variable {whole : List Char} (hne : whole ≠ []) (hlast : whole.getLast? ≠ some '/')

include hne

/-- An absolute name is cut behind its first separator, any other is searched as it is. -/
theorem cutScope_eq :
    (∃ cs, whole = '/' :: cs ∧ (⟨encode whole⟩ : Path).isAbsolute = true ∧
      Query.cutScope whole = (root ⟨encode whole⟩, cs)) ∨
    (whole.head? ≠ some '/' ∧ (⟨encode whole⟩ : Path).isAbsolute = false ∧
      Query.cutScope whole = (root ⟨encode whole⟩, whole)) := by
  obtain ⟨c, cs, rfl⟩ := List.exists_cons_of_ne_nil hne
  by_cases hc : c = '/'
  · subst hc
    exact .inl ⟨cs, rfl, rfl, rfl⟩
  · have hrelative := isAbsolute_encode_cons hc cs
    refine .inr ⟨by simpa using hc, hrelative, ?_⟩
    rw [cutScope_of_ne hc, root, hrelative]
    rfl

theorem scope_eq : (Query.cutScope whole).1 = root ⟨encode whole⟩ := by
  rcases cutScope_eq hne with ⟨cs, -, -, hcut⟩ | ⟨-, -, hcut⟩
  · rw [hcut]
  · rw [hcut]

/-- The parts that are searched for are the steps of the name, but for empty ones. -/
theorem filter_parts : ((partsBetween '/' (Query.cutScope whole).2).map encode).filter (· ≠ []) =
    steps ⟨encode whole⟩ := by
  rw [← namesOf_eq fun part hpart ↦ separator_notMem_of_mem_partsBetween hpart]
  rcases cutScope_eq hne with ⟨cs, rfl, -, hcut⟩ | ⟨-, -, hcut⟩
  · rw [hcut, steps_encode ('/' :: cs), partsBetween, if_pos rfl]
    rfl
  · rw [hcut, steps_encode]

theorem leads_root_iff (fs : FileSystem) (loc : Address) :
    Leads fs (fs.start (root ⟨encode whole⟩))
        (steps (root ⟨encode whole⟩) ++ steps ⟨encode whole⟩) loc ↔
      fs.LeadsTo ⟨encode whole⟩ loc := by
  rw [LeadsTo]
  rcases cutScope_eq hne with ⟨cs, -, habsolute, -⟩ | ⟨-, hrelative, -⟩
  · have hroot : fs.start (.ofString "/") = [] := rfl
    have hsteps : steps (.ofString "/") = [] := by decide
    rw [root, if_pos habsolute, hroot, hsteps, start, if_pos habsolute, List.nil_append]
  · have hhere : fs.start (.ofString ".") = fs.current := rfl
    have hsteps : steps (.ofString ".") = [[Path.dot]] := by decide
    rw [root, hrelative, if_neg Bool.false_ne_true, hhere, hsteps, start, hrelative,
      if_neg Bool.false_ne_true, List.singleton_append, leads_cons_iff, step, if_pos rfl]
    exact ⟨fun hleads ↦ hleads.2, fun hleads ↦ ⟨hleads.directory, hleads⟩⟩

include hlast

theorem getLast?_parts :
    ((partsBetween '/' (Query.cutScope whole).2).map encode).getLast? ≠ some [] := by
  have hrest : (Query.cutScope whole).2 ≠ [] ∧ (Query.cutScope whole).2.getLast? ≠ some '/' := by
    rcases cutScope_eq hne with ⟨cs, rfl, -, hcut⟩ | ⟨-, -, hcut⟩
    · rw [hcut]
      have hcs : cs ≠ [] := by
        rintro rfl
        exact hlast rfl
      exact ⟨hcs, by rwa [List.getLast?_cons_of_ne_nil hcs] at hlast⟩
    · rw [hcut]
      exact ⟨hne, hlast⟩
  rw [List.getLast?_map]
  intro hnil
  obtain ⟨part, hpart, hempty⟩ := Option.map_eq_some_iff.mp hnil
  obtain rfl : part = [] := encode_injective (hempty.trans (by decide))
  obtain ⟨front, hfront⟩ := List.getLast?_eq_some_iff.mp hpart
  exact (getLast?_of_partsBetween hfront).elim hrest.1 hrest.2

theorem ready_root (hbegin : WellBegun whole) :
    Ready (root ⟨encode whole⟩) ((partsBetween '/' (Query.cutScope whole).2).map encode) := by
  refine ⟨met_root _, ?_, fun hhere ↦ ?_⟩
  · rintro part hpart
    obtain ⟨cs, hcs, rfl⟩ := List.mem_map.mp hpart
    exact slash_notMem_encode (separator_notMem_of_mem_partsBetween hcs)
  · rcases cutScope_eq hne with ⟨cs, -, habsolute, -⟩ | ⟨hhead, -, hcut⟩
    · have hroot : isHere (.ofString "/") = false := by decide
      rw [root, if_pos habsolute, hroot] at hhere
      cases hhere
    · rw [hcut, List.dropWhile_map, List.head?_map]
      intro hnil
      obtain ⟨part, hpart, hempty⟩ := Option.map_eq_some_iff.mp hnil
      obtain rfl : part = [] := encode_injective (hempty.trans (by decide))
      have hdot (cs : List Char) : encode cs = [Path.dot] ↔ cs = ['.'] :=
        ⟨fun heq ↦ encode_injective (heq.trans (by decide)), fun heq ↦ heq ▸ (by decide)⟩
      simp only [Function.comp_def, hdot] at hpart
      exact head?_dropWhile_parts hne hlast (fun hslash ↦ hhead (hbegin hslash)) hpart

omit hlast in
/-- Nothing is searched for below a name that begins with steps in place and an empty name. -/
theorem search_eq_nil (hbegin : ¬WellBegun whole) (fs : FileSystem) (closed : List Address)
    {q : Query} {ext : List Char} (hscope : q.scope = (Query.cutScope whole).1)
    (hparts : q.parts = underDirectory (partsBetween '/' (Query.cutScope whole).2) ext)
    (hfiles : q.directoriesOnly = false) : search fs closed q = [] := by
  obtain ⟨hslash, hrelative⟩ := Classical.not_imp.mp hbegin
  rcases cutScope_eq hne with ⟨cs, rfl, -⟩ | ⟨-, hrelative, hcut⟩
  · exact absurd rfl hrelative
  · rw [search, hscope, hparts, hfiles, hcut]
    refine below_eq_nil_of_head? ext _ ?_ (head?_dropWhile_parts_of_slash hslash)
    rw [Spot.ofPath, root, hrelative, if_neg Bool.false_ne_true]
    exact (by decide : isHere (.ofString ".") = true)

end

end Glob

/-! ### The bundles of a package -/

/-- A file that can be a bundle: its name is text that ends in a dot and the extension, and it
carries no suffix of artifacts. -/
structure IsBundleFile (c : Config) (fs : FileSystem) (loc : Address) : Prop where
  file : ∃ content, fs.lookup? loc = some (.file content)
  name : ∃ text, loc.getLast?.bind decode? = some text ∧
    '.' :: c.extension.toList <:+ text ∧ ¬c.suffix.toList <:+ text

/-- The path of the directory that bundles are looked for in. -/
def directoryPath (c : Config) (base : List Char) : Path :=
  ⟨encode (directoryChars c base)⟩

/-- The path by which what stands below a directory is found. -/
def foundPath (directory : Path) (names : List Bytes) : Path :=
  Glob.spelled (Glob.root directory) (steps directory ++ names)

theorem foundPath_eq (directory : Path) (names : List Bytes) :
    foundPath directory names = Glob.spelled (foundPath directory []) names := by
  rw [foundPath, foundPath, List.append_nil, Glob.spelled_append]

/-- The path of what stands below a directory ends in its name. -/
theorem exists_named_foundPath {fs : FileSystem} (h : fs.IsTree) (directory : Path)
    {loc names : Address} (hne : names ≠ []) {entry : Entry}
    (hentry : fs.lookup? (loc ++ names) = some entry) : ∃ name,
      (loc ++ names).getLast? = some name ∧ names.getLast? = some name ∧
        Named (foundPath directory names) name := by
  obtain ⟨front, last, rfl⟩ := (List.eq_nil_or_concat names).resolve_left hne
  rw [List.concat_eq_append, foundPath_eq] at *
  have hlast : IsName last := h.is_name _ _ hentry last (by simp)
  exact ⟨last, by simp, by simp, Glob.named_spelled _ front hlast⟩

theorem directoryChars_ne_nil (c : Config) (base : List Char) : directoryChars c base ≠ [] :=
  List.append_ne_nil_of_right_ne_nil _ (List.cons_ne_nil _ _)

theorem getLast?_directoryChars {c : Config} (hc : c.Accepted) (base : List Char) :
    (directoryChars c base).getLast? ≠ some '/' := by
  have hne := hc.bundleDir_ne_nil
  rw [directoryChars, List.getLast?_append_of_ne_nil _ (List.cons_ne_nil _ _),
    List.getLast?_cons_of_ne_nil hne, Config.bundleDirChars, dropTrailingSeparators,
    List.getLast?_reverse]
  intro hlast
  have hnot := List.head?_dropWhile_not isSeparator
    (dropDotSlashes c.bundleDir.toList).reverse
  rw [hlast] at hnot
  revert hnot
  decide

theorem isArtifact_eq_false_iff (c : Config) {p : Path} {name : Bytes} (hp : Named p name)
    {text : List Char} (htext : decode? name = some text) :
    isArtifact c p = false ↔ ¬c.suffix.toList <:+ text := by
  rw [isArtifact, hp.fileName?, Option.bind_some, htext]
  simp [endsWith, Bool.eq_false_iff, List.isSuffixOf_iff_suffix]

/-- A directory hinders discovery if the search for bundles comes to it, has to read it and cannot. The
way to it begins where the search does.
-/
def Hinders (c : Config) (base : List Char) (fs : FileSystem) (closed : List Address)
    (way : List Bytes) (unread : Unread) : Prop :=
  Glob.Blocks fs closed (Glob.root (directoryPath c base)) (directoryParts c base) way unread

/-- Bundles come in the strict order of their components. -/
theorem pairwise_discover {c : Config} {fs : FileSystem} {closed : List Address}
    {bundles : List Path} (hbundles : (discover c fs closed).1 = .ok bundles)
    (hnodup : (bundles.map fs.address).Nodup) :
    bundles.Pairwise fun p q ↦ Path.compareComponents p.components q.components = .lt := by
  have hsorted : bundles.Pairwise fun p q ↦ p.le q = true := by
    obtain ⟨q, found, -, rfl, -⟩ := discover_eq_ok hbundles
    exact List.pairwise_mergeSort Path.le_trans Path.le_total _
  -- Sorted in the weak order only; paths of equal components lead to one address.
  refine (hsorted.and (List.pairwise_map.mp hnodup)).imp fun {p q} ⟨hle, hne⟩ ↦ ?_
  cases hcompare : Path.compareComponents p.components q.components with
  | lt => rfl
  | gt => simp [Path.le, hcompare] at hle
  | eq =>
    rw [Path.compareComponents_eq] at hcompare
    exact absurd (address_eq_of_components_eq fs (Std.LawfulEqCmp.eq_of_compare hcompare)) hne

section

variable {c : Config} (hc : c.Accepted) {base : List Char}

section

variable (hbegin : Glob.WellBegun (directoryChars c base))

include hc hbegin

theorem ready_directory : Glob.Ready (Glob.root (directoryPath c base))
    ((directoryParts c base).map encode) :=
  Glob.ready_root (directoryChars_ne_nil c base) (getLast?_directoryChars hc base) hbegin

/-- The rigid parts of the query spell the path of the bundle directory. -/
theorem foundPath_nil : foundPath (directoryPath c base) [] =
    Glob.spelled (Glob.root (directoryPath c base)) ((directoryParts c base).map encode) := by
  have hne := directoryChars_ne_nil c base
  rw [foundPath, List.append_nil, directoryPath, ← Glob.filter_parts hne]
  exact (ready_directory hc hbegin).spelled_filter
    (Glob.getLast?_parts hne (getLast?_directoryChars hc base))

theorem met_foundPath_nil : Glob.Met (foundPath (directoryPath c base) []) :=
  foundPath_nil hc hbegin ▸ (ready_directory hc hbegin).met_spelled

theorem leads_foundPath_nil_iff (fs : FileSystem) (loc : Address) :
    fs.LeadsTo (foundPath (directoryPath c base) []) loc ↔
      fs.LeadsTo (directoryPath c base) loc := by
  have hne := directoryChars_ne_nil c base
  rw [foundPath_nil hc hbegin, (ready_directory hc hbegin).leads_spelled_iff, directoryParts,
    Glob.filter_parts hne]
  exact Glob.leads_root_iff hne fs loc

/-- A path by which something is found leads to it. -/
theorem address_foundPath {fs : FileSystem} {loc : Address}
    (hleads : fs.LeadsTo (directoryPath c base) loc)
    {names : List Bytes} (hnames : ∀ name ∈ names, IsName name) :
    fs.address (foundPath (directoryPath c base) names) = loc ++ names := by
  have hnil := (leads_foundPath_nil_iff hc hbegin fs loc).mpr hleads
  rw [foundPath_eq, Glob.address_spelled fs _ hnames, hnil.address_eq]

end

variable (hext : '/' ∉ c.extension.toList) (hbase : c.baseText? = some base)

include hc hext hbase

/-- Whatever the base directory is called, there is a query for what is below the bundle directory. -/
theorem exists_bundleQuery_eq : ∃ q, bundleQuery c = .ok q ∧
    q.scope = Glob.root (directoryPath c base) ∧
    q.parts = Glob.underDirectory (directoryParts c base) c.extension.toList ∧
    q.directoriesOnly = false := by
  obtain ⟨q, hq⟩ := exists_bundleQuery hc (fun hslash ↦ hext (List.mem_of_getLast? hslash)) hbase
  obtain ⟨base', hbase', hscope, hparts, hfiles⟩ := bundleQuery_of_notMem hc hext hq
  obtain rfl : base = base' := Option.some.inj (hbase.symm.trans hbase')
  rw [Glob.scope_eq (directoryChars_ne_nil c base)] at hscope
  exact ⟨q, hq, hscope, hparts, hfiles⟩

/-- Nothing is discovered where another separator follows the steps in place that the name of the
bundle directory begins with. -/
theorem discover_of_not_wellBegun (hbegin : ¬Glob.WellBegun (directoryChars c base))
    (fs : FileSystem) (closed : List Address) : (discover c fs closed).1 = .ok [] := by
  obtain ⟨q, hq, hscope, hparts, hfiles⟩ := exists_bundleQuery_eq hc hext hbase
  have hne := directoryChars_ne_nil c base
  rw [discover_of_bundleQuery hq, Glob.search_eq_nil hne hbegin fs closed
    (hscope.trans (Glob.scope_eq hne).symm) hparts hfiles]
  simp [settle, Except.map, Path.sort]

variable {fs : FileSystem} (h : fs.IsTree) {closed : List Address}

include h

/-- Discovery fails only with a directory that hinders it. -/
theorem exists_hinders_of_discover {e : Failure} (he : (discover c fs closed).1 = .error e) :
    ∃ way unread, Hinders c base fs closed way unread ∧ e = .discovery (.unread unread) := by
  obtain ⟨q, hq, hscope, hparts, hfiles⟩ := exists_bundleQuery_eq hc hext hbase
  obtain ⟨unread, hmem, rfl⟩ := exists_unread_of_discover hq he
  obtain ⟨way, hblocks⟩ := Glob.exists_blocks_of_error_mem h hparts hfiles hmem
  exact ⟨way, unread, by rwa [Hinders, ← hscope], rfl⟩

variable (hbegin : Glob.WellBegun (directoryChars c base))

include hbegin

/-- What hinders discovery lets it fail. -/
theorem exists_discover_eq_error {way : List Bytes} {unread : Unread}
    (hhinders : Hinders c base fs closed way unread) :
    ∃ e, (discover c fs closed).1 = .error e := by
  obtain ⟨q, hq, hscope, hparts, hfiles⟩ := exists_bundleQuery_eq hc hext hbase
  rw [Hinders, ← hscope] at hhinders
  obtain ⟨unread', hmem⟩ := Glob.exists_error_mem_of_blocks h hparts hfiles
    (hscope ▸ ready_directory hc hbegin) hhinders
  cases hdiscover : (discover c fs closed).1 with
  | error e => exact ⟨e, rfl⟩
  | ok bundles =>
    obtain ⟨q', hq', hread, -⟩ := mem_discover hdiscover
    obtain rfl : q = q' := Except.ok.inj (hq.symm.trans hq')
    exact absurd hmem (hread unread')

/-- Discovery succeeds where nothing is closed and neither the path of the bundle directory nor that of
a directory below it is too long. -/
theorem exists_discover_eq_ok (hshort : Takes (foundPath (directoryPath c base) []))
    (hbelow : ∀ loc names, fs.LeadsTo (directoryPath c base) loc →
      fs.lookup? (loc ++ names) = some .directory → Takes (foundPath (directoryPath c base) names)) :
    ∃ bundles, (discover c fs).1 = .ok bundles := by
  have hready := ready_directory hc hbegin
  cases hdiscover : (discover c fs).1 with
  | ok bundles => exact ⟨bundles, rfl⟩
  | error e =>
    obtain ⟨way, unread, hhinders, -⟩ := exists_hinders_of_discover hc hext hbase h hdiscover
    have hlong := (hhinders.closed_or_not_takes h hready).resolve_left List.not_mem_nil
    rw [hhinders.path_eq] at hlong
    refine absurd ?_ hlong
    rcases hhinders.reads.isPrefix_or with ⟨rest, hrest⟩ | ⟨names, rfl, hnames⟩
    · rw [foundPath_nil hc hbegin, ← hrest, Glob.spelled_append] at hshort
      rw [← hrest] at hready
      exact hready.behind.takes hshort
    · obtain ⟨loc, hleads⟩ := hhinders.leads
      rw [Glob.spelled_append, ← foundPath_nil hc hbegin] at hleads ⊢
      have hmet := met_foundPath_nil hc hbegin
      obtain ⟨around, haround, -⟩ := leads_steps_append_iff.mp
        (((Glob.Ready.of_isName hmet hnames).leads_spelled_iff fs loc).mp hleads)
      have hdirectory := hleads.directory_right
      rw [← hleads.address_eq, Glob.address_spelled fs _ hnames, LeadsTo.address_eq haround]
        at hdirectory
      rw [← foundPath_eq]
      exact hbelow around names ((leads_foundPath_nil_iff hc hbegin fs around).mp haround) hdirectory

/-- A path is a bundle if it is that of a file with the name of a bundle below the directory, and a
system takes it. -/
theorem mem_discover_iff {bundles : List Path} (hbundles : (discover c fs closed).1 = .ok bundles)
    (b : Path) :
    b ∈ bundles ↔ ∃ loc names, fs.LeadsTo (directoryPath c base) loc ∧ names ≠ [] ∧
      IsBundleFile c fs (loc ++ names) ∧ b = foundPath (directoryPath c base) names ∧ Takes b := by
  obtain ⟨q, hq, hscope, hparts, hfiles⟩ := exists_bundleQuery_eq hc hext hbase
  obtain ⟨q', hq', hread, hmem⟩ := mem_discover hbundles
  obtain rfl : q = q' := Except.ok.inj (hq.symm.trans hq')
  have hready := ready_directory hc hbegin
  rw [← hscope] at hready
  rw [hmem, ← and_assoc, Glob.ok_mem_search_isFile_iff h hparts hfiles hready hread, hscope,
    ← foundPath_nil hc hbegin]
  simp only [leads_foundPath_nil_iff hc hbegin, ← foundPath_eq]
  constructor
  · rintro ⟨⟨loc, names, hleads, hne, ⟨content, hfile⟩, ⟨text, htext, hend⟩, rfl, htakes⟩,
      hartifact⟩
    obtain ⟨name, hlast, hlast', hname⟩ := exists_named_foundPath h _ hne hfile
    rw [hlast', Option.bind_some] at htext
    rw [isArtifact_eq_false_iff c hname htext] at hartifact
    exact ⟨loc, names, hleads, hne, ⟨⟨content, hfile⟩, text, by rw [hlast]; exact htext, hend,
      hartifact⟩, rfl, htakes⟩
  · rintro ⟨loc, names, hleads, hne, ⟨⟨content, hfile⟩, text, htext, hend, hartifact⟩, rfl, htakes⟩
    obtain ⟨name, hlast, hlast', hname⟩ := exists_named_foundPath h _ hne hfile
    rw [hlast, Option.bind_some] at htext
    rw [← isArtifact_eq_false_iff c hname htext] at hartifact
    exact ⟨⟨loc, names, hleads, hne, ⟨content, hfile⟩, ⟨text, by rw [hlast']; exact htext, hend⟩,
      rfl, htakes⟩, hartifact⟩

end

/-- Discovery fails at a directory that hinders it, and says which, or it finds each of the files that
can be bundles, at any depth below the bundle directory, once and in order, and nothing else. -/
theorem discover_exhaustive {c : Config} (hproblem : c.problem? = none)
    (hext : '/' ∉ c.extension.toList) {base : List Char} (hbase : c.baseText? = some base)
    {fs : FileSystem} (h : fs.IsTree) (closed : List Address) :
    (∃ way unread, Hinders c base fs closed way unread ∧
      (fs.address unread.path ∈ closed ∨ ¬Takes unread.path) ∧
      (discover c fs closed).1 = .error (.discovery (.unread unread))) ∨
    ∃ bundles, (discover c fs closed).1 = .ok bundles ∧
      (bundles.map fs.address).Nodup ∧
      (bundles.Pairwise fun p q ↦ Path.compareComponents p.components q.components = .lt) ∧
      (Glob.WellBegun (directoryChars c base) →
        (∀ way unread, ¬Hinders c base fs closed way unread) ∧
        (∀ b, b ∈ bundles ↔ ∃ loc names, fs.LeadsTo (directoryPath c base) loc ∧ names ≠ [] ∧
          IsBundleFile c fs (loc ++ names) ∧ b = foundPath (directoryPath c base) names ∧
          Takes b) ∧
        (∀ loc names, fs.LeadsTo (directoryPath c base) loc → IsBundleFile c fs (loc ++ names) →
          fs.address (foundPath (directoryPath c base) names) = loc ++ names) ∧
        ((∀ loc, ¬fs.LeadsTo (directoryPath c base) loc) → bundles = [])) := by
  have hc := c.accepted_iff.mp hproblem
  cases hdiscover : (discover c fs closed).1 with
  | error e =>
    have hbegin : Glob.WellBegun (directoryChars c base) := by
      by_contra hbegin
      cases hdiscover.symm.trans (discover_of_not_wellBegun hc hext hbase hbegin fs closed)
    obtain ⟨way, unread, hhinders, rfl⟩ := exists_hinders_of_discover hc hext hbase h hdiscover
    exact .inl ⟨way, unread, hhinders,
      hhinders.closed_or_not_takes h (ready_directory hc hbegin), rfl⟩
  | ok bundles =>
    have hnodup := nodup_discover hc hext hdiscover h
    refine .inr ⟨bundles, rfl, hnodup, pairwise_discover hdiscover hnodup, fun hbegin ↦ ?_⟩
    have hmem := mem_discover_iff hc hext hbase h hbegin hdiscover
    refine ⟨fun way unread hhinders ↦ ?_, hmem, fun loc names hleads hfile ↦ ?_, fun hnowhere ↦ ?_⟩
    · obtain ⟨e, he⟩ := exists_discover_eq_error hc hext hbase h hbegin hhinders
      cases hdiscover.symm.trans he
    · obtain ⟨content, hcontent⟩ := hfile.file
      exact address_foundPath hc hbegin hleads fun name hname ↦
        h.is_name _ _ hcontent name (List.mem_append_right loc hname)
    · refine List.eq_nil_iff_forall_not_mem.mpr fun b hb ↦ ?_
      obtain ⟨loc, -, hleads, -⟩ := (hmem b).mp hb
      exact hnowhere loc hleads

/-! ### A hidden bundle, at the end of a name full of wildcards -/

def wildConfig : Config where
  baseDir := .ofString "p[?]*//"
  bundleDir := "./d/"
  extension := "x"

def wildChars : List Char :=
  "p[?]*".toList

/-- The bundle is hidden in a directory with the name of a bundle, which is in a hidden directory.
-/
def hidden : FileSystem where
  entries :=
    [([bytesOf "p[?]*"], .directory), ([bytesOf "p[?]*", bytesOf "d"], .directory),
      ([bytesOf "p[?]*", bytesOf "d", bytesOf ".h"], .directory),
      ([bytesOf "p[?]*", bytesOf "d", bytesOf ".h", bytesOf "m.x"], .directory),
      ([bytesOf "p[?]*", bytesOf "d", bytesOf ".h", bytesOf "m.x", bytesOf ".x"], .file []),
      ([bytesOf "p[?]*", bytesOf "d", bytesOf "a.linked.x"], .file [])]
  current := []

theorem baseText?_wildConfig : wildConfig.baseText? = some wildChars := by
  decide

theorem isTree_hidden : hidden.IsTree := by
  decide

theorem leadsTo_hidden :
    hidden.LeadsTo (directoryPath wildConfig wildChars) [bytesOf "p[?]*", bytesOf "d"] := by
  have hsteps : steps (directoryPath wildConfig wildChars) =
      [bytesOf "p[?]*", bytesOf "d"] := by decide
  have hlookup : hidden.lookup? ([] ++ [bytesOf "p[?]*", bytesOf "d"]) = some .directory := by
    decide
  rw [LeadsTo, hsteps]
  exact leads_of_lookup? isTree_hidden hlookup

theorem isBundleFile_hidden : IsBundleFile wildConfig hidden
    ([bytesOf "p[?]*", bytesOf "d"] ++ [bytesOf ".h", bytesOf "m.x", bytesOf ".x"]) :=
  ⟨⟨[], by decide⟩, ".x".toList, by decide, by decide, by decide⟩

theorem wellBegun_wildConfig : Glob.WellBegun (directoryChars wildConfig wildChars) := by
  unfold Glob.WellBegun
  decide

theorem accepted_wildConfig : wildConfig.Accepted :=
  wildConfig.accepted_iff.mp rfl

theorem discover_hidden : ∃ bundles, (discover wildConfig hidden).1 = .ok bundles := by
  have hshort : ∀ e ∈ hidden.entries,
      Takes (foundPath (directoryPath wildConfig wildChars) (e.1.drop 2)) := by decide
  refine exists_discover_eq_ok accepted_wildConfig (by decide) baseText?_wildConfig isTree_hidden
    wellBegun_wildConfig (by decide) fun loc names hleads hentry ↦ ?_
  have hloc : loc = [bytesOf "p[?]*", bytesOf "d"] :=
    hleads.address_eq.symm.trans leadsTo_hidden.address_eq
  rw [hloc] at hentry
  exact hshort _ (mem_entries_of_lookup? (by simp) hentry)

/-- The hidden directory, where it is closed. -/
def shut : List Address :=
  [[bytesOf "p[?]*", bytesOf "d", bytesOf ".h"]]

/-- A directory that is closed hinders discovery. -/
theorem hinders_shut : Hinders wildConfig wildChars hidden shut
    [bytesOf "p[?]*", bytesOf "d", bytesOf ".h"]
    ⟨.ofString "p[?]*/d/.h", .permissionDenied⟩ where
  reads := by
    have hparts : directoryParts wildConfig wildChars = ["p[?]*".toList, "d".toList] := by
      decide
    have hname : IsName (bytesOf ".h") := by decide
    rw [hparts]
    exact ⟨rfl, rfl, by simpa [Glob.Reads] using hname⟩
  leads := by
    have hlookup : hidden.lookup? ([] ++ [bytesOf "p[?]*", bytesOf "d", bytesOf ".h"]) =
        some .directory := by decide
    exact ⟨_, leads_of_lookup? isTree_hidden hlookup⟩
  met := .inl (by decide)
  path_eq := by decide
  problem_eq := by rfl

theorem discover_shut : ∃ e, (discover wildConfig hidden shut).1 = .error e :=
  exists_discover_eq_error accepted_wildConfig (by decide) baseText?_wildConfig isTree_hidden
    wellBegun_wildConfig hinders_shut

theorem discover_exhaustive_hidden :
    (∃ bundles, (discover wildConfig hidden).1 = .ok bundles ∧
      Path.ofString "p[?]*/d/.h/m.x/.x" ∈ bundles ∧ (bundles.map hidden.address).Nodup) ∧
    ∃ way unread, Hinders wildConfig wildChars hidden shut way unread ∧
      (discover wildConfig hidden shut).1 = .error (.discovery (.unread unread)) := by
  have hall (closed : List Address) :=
    discover_exhaustive rfl (by decide) baseText?_wildConfig isTree_hidden closed
  constructor
  · obtain ⟨found, hok⟩ := discover_hidden
    rcases hall [] with ⟨way, unread, -, -, herror⟩ | ⟨bundles, hbundles, hnodup, -, hfound⟩
    · cases hok.symm.trans herror
    · obtain ⟨-, hmem, -⟩ := hfound wellBegun_wildConfig
      refine ⟨bundles, hbundles, (hmem _).mpr ?_, hnodup⟩
      exact ⟨_, [bytesOf ".h", bytesOf "m.x", bytesOf ".x"], leadsTo_hidden, by simp,
        isBundleFile_hidden, by decide, by decide⟩
  · obtain ⟨e, he⟩ := discover_shut
    rcases hall shut with ⟨way, unread, hhinders, -, herror⟩ | ⟨bundles, hbundles, -⟩
    · exact ⟨way, unread, hhinders, herror⟩
    · cases he.symm.trans hbundles

/-! ### Bundles that are not found -/

/-- A file that can be a bundle stands below the bundle directory. -/
structure HasBundle (c : Config) (fs : FileSystem) : Prop where
  accepted : c.problem? = none
  extension : '/' ∉ c.extension.toList
  tree : fs.IsTree
  bundle : ∃ base loc names, c.baseText? = some base ∧
    fs.LeadsTo (directoryPath c base) loc ∧
      names ≠ [] ∧ IsBundleFile c fs (loc ++ names)

theorem hasBundle_hidden : HasBundle wildConfig hidden :=
  ⟨rfl, by decide, isTree_hidden, wildChars, _, _, baseText?_wildConfig, leadsTo_hidden, by simp,
    isBundleFile_hidden⟩

/-- A base directory that begins with a step in place and two separators. -/
def doubledConfig : Config where
  baseDir := .ofString ".//p"
  bundleDir := "d"
  extension := "x"

def doubled : FileSystem where
  entries := [([bytesOf "p"], .directory), ([bytesOf "p", bytesOf "d"], .directory),
    ([bytesOf "p", bytesOf "d", bytesOf "a.x"], .file [])]
  current := []

theorem baseText?_doubledConfig : doubledConfig.baseText? = some ".//p".toList := by
  decide

theorem discover_doubled : (discover doubledConfig doubled).1 = .ok [] := by
  refine discover_of_not_wellBegun (doubledConfig.accepted_iff.mp rfl) (by decide)
    baseText?_doubledConfig ?_ doubled []
  unfold Glob.WellBegun
  decide

theorem hasBundle_doubled : HasBundle doubledConfig doubled := by
  have htree : doubled.IsTree := by decide
  refine ⟨rfl, by decide, htree, ?_⟩
  have hsteps : steps (directoryPath doubledConfig ".//p".toList) =
      [Path.dot] :: [bytesOf "p", bytesOf "d"] := by decide
  refine ⟨".//p".toList, [bytesOf "p", bytesOf "d"], [bytesOf "a.x"], baseText?_doubledConfig, ?_,
    by simp, ⟨⟨[], by decide⟩, "a.x".toList, by decide, by decide, by decide⟩⟩
  rw [LeadsTo, hsteps]
  have hlookup : doubled.lookup? ([] ++ [bytesOf "p", bytesOf "d"]) = some .directory := by
    decide
  exact .onward rfl (leads_of_lookup? htree hlookup)

def longChars : List Char :=
  List.replicate 250 'a'

/-- The way into a directory and out again, so many times. -/
def windingChars : ℕ → List Char
  | 0 => ['.']
  | count + 1 => longChars ++ '/' :: ("..".toList ++ '/' :: windingChars count)

/-- A base directory that winds so often that its name is too long. -/
def windingConfig : Config where
  baseDir := ⟨encode (windingChars 17)⟩
  bundleDir := "d"
  extension := "x"

def winding : FileSystem where
  entries := [([encode longChars], .directory), ([bytesOf "d"], .directory),
    ([bytesOf "d", bytesOf "a.x"], .file [])]
  current := []

/-- The steps of a name that winds so often. -/
def windingSteps : ℕ → List Bytes
  | 0 => [[Path.dot]]
  | count + 1 => encode longChars :: [Path.dot, Path.dot] :: windingSteps count

theorem steps_windingChars (count : ℕ) : steps ⟨encode (windingChars count)⟩ = windingSteps count := by
  induction count with
  | zero => decide
  | succ count ih =>
    have hlong : '/' ∉ longChars := fun h ↦ absurd (List.eq_of_mem_replicate h) (by decide)
    have hname : steps ⟨encode longChars⟩ = [encode longChars] := by
      rw [steps_encode_of_notMem hlong, List.filter_cons_of_pos (by decide), List.filter_nil]
    have hback : steps ⟨encode "..".toList⟩ = [[Path.dot, Path.dot]] := by decide
    rw [windingChars, windingSteps, steps_encode_append_slash, steps_encode_append_slash, ih, hname,
      hback]
    rfl

theorem leads_winding {names loc : List Bytes} (hleads : Leads winding [] names loc) (count : ℕ) :
    Leads winding [] (windingSteps count ++ names) loc := by
  induction count with
  | zero => exact .onward rfl hleads
  | succ count ih =>
    have hback : step (step [] (encode longChars)) [Path.dot, Path.dot] = [] := by decide
    rw [windingSteps, List.cons_append, List.cons_append, leads_cons_iff, leads_cons_iff, hback]
    exact ⟨rfl, by decide +kernel, ih⟩

theorem baseText?_winding : windingConfig.baseText? = some (windingChars 17) := by
  have hends (count : ℕ) : ∃ front, windingChars count = front ++ ['.'] := by
    induction count with
    | zero => exact ⟨[], rfl⟩
    | succ count ih =>
      obtain ⟨front, hfront⟩ := ih
      exact ⟨longChars ++ '/' :: ("..".toList ++ '/' :: front), by simp [windingChars, hfront]⟩
  obtain ⟨front, hfront⟩ := hends 17
  have hlast : ¬isSeparator '.' = true := by decide
  rw [Config.baseText?, windingConfig, decode?_encode, Option.map_some, hfront,
    dropTrailingSeparators, List.reverse_concat, List.dropWhile_cons_of_neg hlast,
    List.reverse_cons, List.reverse_reverse]

theorem steps_winding :
    steps (directoryPath windingConfig (windingChars 17)) = windingSteps 17 ++ [bytesOf "d"] := by
  have hlast : steps ⟨encode windingConfig.bundleDirChars⟩ = [bytesOf "d"] := by decide
  rw [directoryPath, directoryChars, steps_encode_append_slash, steps_windingChars, hlast]

theorem isAbsolute_winding : (directoryPath windingConfig (windingChars 17)).isAbsolute = false :=
  isAbsolute_encode_cons (by decide : 'a' ≠ '/') _

theorem not_takes_winding :
    ¬Takes (foundPath (directoryPath windingConfig (windingChars 17)) []) := by
  have hname : IsName (encode longChars) := by decide
  have hhere : Glob.isHere ⟨encode longChars⟩ = false := Glob.not_isHere (named_of_isName hname)
  have hmet : Glob.Met ⟨encode longChars⟩ := ⟨hname.1, fun h ↦ absurd h (by simp [hhere])⟩
  have hroot : Glob.child (Glob.root (directoryPath windingConfig (windingChars 17)))
      ⟨encode longChars⟩ = ⟨encode longChars⟩ := by
    rw [Glob.root, isAbsolute_winding]
    exact if_pos (by decide)
  rw [foundPath, List.append_nil, steps_winding, windingSteps, List.cons_append, List.cons_append,
    Glob.spelled_cons, hroot]
  exact Glob.not_takes_spelled hmet hhere (by decide) (by decide +kernel)

theorem isTree_winding : winding.IsTree := by
  decide +kernel

theorem hasBundle_winding : HasBundle windingConfig winding := by
  refine ⟨by rfl, by decide, isTree_winding, windingChars 17, [bytesOf "d"], [bytesOf "a.x"],
    baseText?_winding, ?_, by simp, ⟨[], by decide⟩, "a.x".toList, by decide,
    by decide, by decide⟩
  rw [LeadsTo, steps_winding, start, isAbsolute_winding]
  exact leads_winding (.onward rfl (.here (by decide))) 17

theorem discover_winding : (discover windingConfig winding).1 = .ok [] := by
  have hext := hasBundle_winding.extension
  have hc := windingConfig.accepted_iff.mp hasBundle_winding.accepted
  have hbegin : Glob.WellBegun (directoryChars windingConfig (windingChars 17)) := by
    unfold Glob.WellBegun
    decide
  cases hdiscover : (discover windingConfig winding).1 with
  | error e =>
    obtain ⟨way, unread, hhinders, -⟩ :=
      exists_hinders_of_discover hc hext baseText?_winding isTree_winding hdiscover
    refine absurd ?_ not_takes_winding
    rw [foundPath_nil hc hbegin]
    exact hhinders.takes_spelled (ready_directory hc hbegin) (by decide +kernel)
  | ok bundles =>
    refine congrArg Except.ok (List.eq_nil_iff_forall_not_mem.mpr fun b hb ↦ not_takes_winding ?_)
    obtain ⟨loc, names, -, -, hfile, heq, htakes⟩ :=
      (mem_discover_iff hc hext baseText?_winding isTree_winding hbegin hdiscover b).mp hb
    obtain ⟨content, hcontent⟩ := hfile.file
    have hready := Glob.Ready.of_isName (met_foundPath_nil hc hbegin) fun name hname ↦
      isTree_winding.is_name _ _ hcontent name (List.mem_append_right loc hname)
    rw [heq, foundPath_eq] at htakes
    exact hready.takes htakes

/-- Nothing is found of a name that begins with a step in place and two separators, nor by a path that
is too long, and nothing at all where a directory cannot be read. -/
theorem misses_bundles :
    (HasBundle doubledConfig doubled ∧ (discover doubledConfig doubled).1 = .ok []) ∧
    (HasBundle windingConfig winding ∧ (discover windingConfig winding).1 = .ok []) ∧
    HasBundle wildConfig hidden ∧ ∃ e, (discover wildConfig hidden shut).1 = .error e :=
  ⟨⟨hasBundle_doubled, discover_doubled⟩, ⟨hasBundle_winding, discover_winding⟩, hasBundle_hidden,
    discover_shut⟩

end BundleLink
