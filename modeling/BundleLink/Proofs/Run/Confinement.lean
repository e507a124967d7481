import BundleLink.Proofs.Discovery.Linked
import BundleLink.Proofs.Discovery.Region
import BundleLink.Proofs.Path.Descent
import BundleLink.Proofs.Run.Footprint
import BundleLink.Proofs.Run.Outcome
import Mathlib

/-!
A run stays in its package. If the bundle directory, the suffix and the manifest, each read as a
path by itself, never lead out of where they begin (`Config.Confined`), every bundle stands strictly
below a directory that is itself strictly below the base directory, and whatever a run makes or
changes stands strictly below the base directory, however its tasks overlap and whether it succeeds
or not (`confined_of_runs`).

No field is checked for this, so an accepted configuration can lead out of the package
(`exists_escape`).
-/

set_option autoImplicit false

namespace BundleLink

open BundleLink.Link BundleLink.Text FileSystem

/-- A configuration the fields of which lead nowhere but into the package. The bundle directory
leads strictly below the base directory; the base directory is not empty and no backslash at its end
is taken for a separator. -/
structure Config.Confined (c : Config) : Prop where
  base_ne_nil : c.baseDir.bytes ≠ []
  base_end : ∀ text, decode? c.baseDir.bytes = some text →
    (text.reverse.dropWhile (· = '/')).head? ≠ some '\\'
  bundleDir : ∃ depth, depthAfter? 0 (steps (.ofString c.bundleDirName)) = some (depth + 1)
  suffix : depthAfter? 0 (steps (.ofString c.suffix)) ≠ none
  manifest_relative : (Path.ofString c.manifest).isAbsolute = false
  manifest : depthAfter? 0 (steps (.ofString c.manifest)) ≠ none

/-! ### Names with the suffix -/

section

variable {c : Config} {first : List Char} {rest : List (List Char)}
  (hcut : partsBetween '/' c.extension.toList = first :: rest)

include hcut

theorem isName_append_first {name : Bytes} (hname : Path.slash ∉ name) :
    IsName (name ++ encode (".linked.".toList ++ first)) :=
  isName_append_mark hname (separator_notMem_of_mem_partsBetween (hcut ▸ List.mem_cons_self))

/-- What the suffix is appended to becomes a name, and what follows separators in the extension is
left as it is. -/
theorem steps_append_suffix {name : Bytes} (hname : Path.slash ∉ name) :
    steps ⟨name ++ bytesOf c.suffix⟩ =
      (name ++ encode (".linked.".toList ++ first)) :: namesOf rest := by
  have hparts : partsBetween Path.slash (bytesOf c.suffix) =
      encode (".linked.".toList ++ first) :: rest.map encode := by
    rw [bytesOf, c.toList_suffix, Path.partsBetween_encode,
      partsBetween_append_left (by decide) hcut, List.map_cons]
  have hrest (cs : List Char) (hcs : cs ∈ rest) : '/' ∉ cs :=
    separator_notMem_of_mem_partsBetween (hcut ▸ List.mem_cons_of_mem first hcs)
  rw [steps, partsBetween_append_left hname hparts, namesOf_eq hrest, List.filter_cons_of_pos]
  exact decide_eq_true (isName_append_first hcut hname).1

/-- If the suffix does not lead out of where it begins, neither does its end after any name. -/
theorem Config.Confined.after_name (hc : c.Confined) {name : Bytes} (hname : IsName name) :
    depthAfter? 0 (name :: namesOf rest) ≠ none := by
  have hsuffix := hc.suffix
  have hsteps := steps_append_suffix hcut (List.not_mem_nil : Path.slash ∉ [])
  rw [List.nil_append, ← Path.ofString] at hsteps
  rw [hsteps, depthAfter?_cons_name (isName_append_first hcut List.not_mem_nil)] at hsuffix
  rwa [depthAfter?_cons_name hname]

end

/-! ### Bundles -/

theorem Below.of_append {around way loc : Address} (hloc : Below (around ++ way) loc) :
    Below around loc := by
  obtain ⟨names, hnames, rfl⟩ := hloc
  exact ⟨way ++ names, List.append_ne_nil_of_right_ne_nil way hnames, List.append_assoc ..⟩

namespace Package

section

variable {c : Config} {fs : FileSystem} (h : fs.IsTree) (haccepted : c.Accepted)
  (hc : c.Confined) {bundles : List Path} (hbundles : (discover c fs).1 = .ok bundles)

include h haccepted hc hbundles

/-- All bundles, and the places of their artifacts, lie below one directory of the package. -/
theorem exists_directory_of_discover : ∃ around, Below (fs.address c.baseDir) around ∧
    ∀ b ∈ bundles, fs.lookup? around = some .directory ∧ Below around (fs.address b) ∧
      ∀ loc, fs.writeTarget (c.linkedPath b) = .ok loc → Below around loc := by
  obtain ⟨base, hbase, hways⟩ := exists_way_of_mem_discover h.isSound haccepted hbundles
  have hdirectory := address_directoryChars fs hbase hc.base_ne_nil hc.base_end
  generalize fs.address ⟨encode (directoryChars c base)⟩ = around at hways hdirectory
  refine ⟨around, ?_, fun b hb ↦ ?_⟩
  · obtain ⟨depth, hdepth⟩ := hc.bundleDir
    obtain ⟨names, hlength, heq⟩ := exists_foldl_step (fs.address c.baseDir) [] hdepth
    rw [List.append_nil] at heq
    exact ⟨names, List.ne_nil_of_length_eq_add_one hlength, hdirectory.trans heq⟩
  · obtain ⟨first, rest, way, name, hcut, hname, haddress, hends⟩ := hways b hb
    have hfile := isFile_of_mem_discover hbundles hb
    obtain ⟨content, hcontent⟩ := lookup?_of_isFile h hfile
    obtain ⟨last, -, hlast, -⟩ := around_of_isFile h.isSound hfile
    obtain ⟨front, hfront⟩ := hends last hlast
    have hbelow : Below around (fs.address b) := by
      rw [haddress]
      exact Below.of_append (below_foldl_step _ (hc.after_name hcut hname) hfront hlast.isName)
    have ⟨names, hnames, heq⟩ := hbelow
    refine ⟨lookup?_of_below h hnames (heq ▸ hcontent), hbelow, fun loc hloc ↦ ?_⟩
    obtain ⟨last', hlast'⟩ := named_of_writeTarget h.isSound hloc
    obtain ⟨before, -, hsteps⟩ := hlast'.steps_eq
    rw [Config.linkedPath, hlast.steps_append, steps_append_suffix hcut hlast.isName.2.1] at hsteps
    obtain ⟨before', hbefore⟩ := exists_eq_concat_of_append hsteps (List.cons_ne_nil _ _)
    have hstay := hc.after_name hcut (isName_append_first hcut hlast.isName.2.1)
    rw [← address_of_writeTarget h hloc, Config.linkedPath, hlast.address_append_eq,
      steps_append_suffix hcut hlast.isName.2.1, heq, List.dropLast_append_of_ne_nil hnames]
    exact Below.of_append (below_foldl_step _ hstay hbefore hlast'.isName)

/-- Where a task writes. -/
theorem below_of_mem_tasks {t : Task} (ht : t ∈ tasks bundles) {loc : Address}
    (hloc : fs.writeTarget (t.target c) = .ok loc) : Below (fs.address c.baseDir) loc := by
  rcases List.mem_cons.mp ht with rfl | ht
  · obtain ⟨last, hlast⟩ := named_of_writeTarget h.isSound hloc
    have hmanifest := named_of_named_join c.baseDir hc.manifest_relative hlast
    obtain ⟨front, -, hsteps⟩ := hmanifest.steps_eq
    rw [← address_of_writeTarget h hloc]
    have haddress := address_join_of_relative c.baseDir fs hc.manifest_relative
    rw [Task.target, Config.manifestPath, haddress]
    exact below_foldl_step _ hc.manifest hsteps hmanifest.isName
  · obtain ⟨b, hb, rfl⟩ := List.mem_map.mp ht
    obtain ⟨around, haround, hall⟩ := exists_directory_of_discover h haccepted hc hbundles
    exact haround.trans ((hall b hb).2.2 loc hloc)

end

/-- Whatever a run makes or changes stands strictly below the base directory, and every bundle
strictly below a directory that is itself strictly below the base directory. -/
theorem confined_of_runs {c : Config} {o : Options} {fs : FileSystem} (h : fs.IsTree)
    (hconfig : c.problem? = none) (hc : c.Confined)
    {files : FileSystem} {ended : List (Task × Except Failure Product)}
    {result : Except Failure Report} (hrun : Runs c o fs files ended result) :
    (∀ loc, files.lookup? loc ≠ fs.lookup? loc → Below (fs.address c.baseDir) loc) ∧
      ∀ bundles, (discover c fs).1 = .ok bundles →
        ∃ around, Below (fs.address c.baseDir) around ∧
          ∀ b ∈ bundles, fs.lookup? around = some .directory ∧ Below around (fs.address b) := by
  have haccepted := c.accepted_iff.mp hconfig
  refine ⟨fun loc hne ↦ ?_, fun bundles hbundles ↦ ?_⟩
  · cases hplan : (plan c fs).1 with
    | error e =>
      obtain ⟨rfl, -, -⟩ := hrun.of_plan_eq_error hplan
      exact absurd rfl hne
    | ok bundles =>
      obtain ⟨t, ht, -, -, -, -, hloc, -⟩ := (snapshot_of_runs h.isSound hplan hrun).drafted loc hne
      exact below_of_mem_tasks h haccepted hc (plan_eq_ok_iff.mp hplan).2 ht hloc
  · obtain ⟨around, haround, hall⟩ := exists_directory_of_discover h haccepted hc hbundles
    exact ⟨around, haround, fun b hb ↦ ⟨(hall b hb).1, (hall b hb).2.1⟩⟩

/-! ### A package that is left alone, and ways out of one -/

def packageConfig : Config :=
  { sampleConfig with baseDir := .ofString "p" }

/-- A package, and what stands beside it. -/
def packageBeside (entries : List (Address × Entry)) : FileSystem where
  entries := ([bytesOf "p"], .directory) :: entries
  current := []

/-- The sample package in a directory of its own. -/
def enclosed : FileSystem :=
  packageBeside (sample.entries.map fun e ↦ (bytesOf "p" :: e.1, e.2))

theorem confined_packageConfig : packageConfig.Confined where
  base_ne_nil := by decide
  base_end := by
    intro text htext
    have hp : decode? packageConfig.baseDir.bytes = some ['p'] := by decide
    obtain rfl : ['p'] = text := Option.some.inj (hp.symm.trans htext)
    decide
  bundleDir := ⟨0, by decide⟩
  suffix := by decide
  manifest_relative := by rfl
  manifest := by decide

theorem below_enclosed : ∃ files ended result,
    Runs packageConfig packageConfig.options enclosed files ended result ∧
      (∀ loc, files.lookup? loc ≠ enclosed.lookup? loc → Below [bytesOf "p"] loc) ∧
      ∃ around, Below [bytesOf "p"] around ∧ enclosed.lookup? around = some .directory ∧
        Below around [bytesOf "p", bytesOf "d", bytesOf "a.x"] := by
  obtain ⟨ended, hrun⟩ := runs_link packageConfig packageConfig.options enclosed
  have htree : enclosed.IsTree := by decide
  have hdiscover : (discover packageConfig enclosed).1 = .ok [.ofString "p/d/a.x"] :=
    toOption_eq_some_iff.mp (by decide +kernel)
  obtain ⟨hchanged, hfound⟩ := confined_of_runs htree (by rfl) confined_packageConfig hrun
  obtain ⟨around, haround, hall⟩ := hfound _ hdiscover
  obtain ⟨hdirectory, hbelow⟩ := hall _ (List.mem_singleton_self _)
  exact ⟨_, ended, _, hrun, hchanged, around, haround, hdirectory, hbelow⟩

/-- An accepted configuration under which a run makes or changes a file outside of the package, or
links a bundle from outside. -/
def Escape (c : Config) (fs : FileSystem) : Prop :=
  fs.IsTree ∧ c.problem? = none ∧
    ((∃ files ended result loc, Runs c c.options fs files ended result ∧
      files.lookup? loc ≠ fs.lookup? loc ∧ ¬Below (fs.address c.baseDir) loc) ∨
    ∃ bundles, (discover c fs).1 = .ok bundles ∧
      ∃ b ∈ bundles, ¬Below (fs.address c.baseDir) (fs.address b))

theorem escape_of_link {c : Config} {fs : FileSystem} (h : fs.IsTree) (hconfig : c.problem? = none)
    {loc : Address} (hchanged : (link c c.options fs).files.lookup? loc ≠ fs.lookup? loc)
    (hout : ¬fs.address c.baseDir <+: loc) : Escape c fs := by
  obtain ⟨ended, hrun⟩ := runs_link c c.options fs
  exact ⟨h, hconfig, .inl ⟨_, ended, _, loc, hrun, hchanged, fun hloc ↦ hout hloc.isPrefix⟩⟩

theorem escape_of_discover {c : Config} {fs : FileSystem} (h : fs.IsTree)
    (hconfig : c.problem? = none) {b : Path} (hbundles : (discover c fs).1 = .ok [b])
    (hout : ¬fs.address c.baseDir <+: fs.address b) : Escape c fs :=
  ⟨h, hconfig, .inr ⟨[b], hbundles, b, List.mem_singleton_self b, fun hb ↦ hout hb.isPrefix⟩⟩

def manifestBeside : FileSystem :=
  packageBeside [([bytesOf "m"], .file (bytesOf "\x7b\"exports\":\x7b\x7d\x7d"))]

theorem escape_manifest : Escape { packageConfig with manifest := "../m" } manifestBeside ∧
    Escape { packageConfig with manifest := "/m" } manifestBeside := by
  constructor
  · have hchanged : (link { packageConfig with manifest := "../m" } packageConfig.options
        manifestBeside).files.lookup? [bytesOf "m"] ≠ manifestBeside.lookup? [bytesOf "m"] := by
      decide +kernel
    exact escape_of_link (by decide) (by rfl) hchanged (by decide)
  · have hchanged : (link { packageConfig with manifest := "/m" } packageConfig.options
        manifestBeside).files.lookup? [bytesOf "m"] ≠ manifestBeside.lookup? [bytesOf "m"] := by
      decide +kernel
    exact escape_of_link (by decide) (by rfl) hchanged (by decide)

/-- The bundle directory leads out of the package. -/
theorem escape_bundleDir : Escape { packageConfig with bundleDir := ".." }
    (packageBeside [([bytesOf "a.x"], .file [])]) := by
  -- The kernel cannot run merge sort, so a directory of several entries is evaluated with `cbv`.
  have hfound : (discover { packageConfig with bundleDir := ".." }
      (packageBeside [([bytesOf "a.x"], .file [])])).1 = .ok [.ofString "p/../a.x"] := by cbv
  exact escape_of_discover (by decide) (by rfl) hfound (by decide)

/-- The extension leads out of the package. -/
theorem escape_extension : Escape { packageConfig with extension := "x/../../../b" }
    (packageBeside [([bytesOf "p", bytesOf "d"], .directory),
      ([bytesOf "p", bytesOf "d", bytesOf "a.x"], .directory), ([bytesOf "b"], .file [])]) := by
  have hfound : (discover { packageConfig with extension := "x/../../../b" }
      (packageBeside [([bytesOf "p", bytesOf "d"], .directory),
        ([bytesOf "p", bytesOf "d", bytesOf "a.x"], .directory), ([bytesOf "b"], .file [])])).1 =
          .ok [.ofString "p/d/a.x/../../../b"] :=
    toOption_eq_some_iff.mp (by decide +kernel)
  exact escape_of_discover (by decide) (by rfl) hfound (by decide)

/-- An empty base directory is searched as the root, and a backslash at its end is taken for a
separator. -/
theorem escape_baseDir :
    Escape { sampleConfig with baseDir := ⟨[]⟩ }
      { sample with entries := ([bytesOf "p"], .directory) :: sample.entries
                    current := [bytesOf "p"] } ∧
    Escape { packageConfig with baseDir := .ofString "p\\" } enclosed := by
  constructor
  · have hfound : (discover { sampleConfig with baseDir := ⟨[]⟩ }
        { sample with entries := ([bytesOf "p"], .directory) :: sample.entries
                      current := [bytesOf "p"] }).1 = .ok [.ofString "/d/a.x"] :=
      toOption_eq_some_iff.mp (by decide +kernel)
    exact escape_of_discover (by decide) (by rfl) hfound (by decide)
  · have hfound : (discover { packageConfig with baseDir := .ofString "p\\" } enclosed).1 =
        .ok [.ofString "p/d/a.x"] :=
      toOption_eq_some_iff.mp (by decide +kernel)
    exact escape_of_discover (by decide) (by rfl) hfound (by decide)

/-- A manifest that leads up or is absolute, a bundle directory or an extension that leads up, and a
base directory that is empty or ends in a backslash each let a run leave its package. -/
theorem exists_escape :
    (∃ fs, Escape { packageConfig with manifest := "../m" } fs) ∧
    (∃ fs, Escape { packageConfig with manifest := "/m" } fs) ∧
    (∃ fs, Escape { packageConfig with bundleDir := ".." } fs) ∧
    (∃ fs, Escape { packageConfig with extension := "x/../../../b" } fs) ∧
    (∃ fs, Escape { packageConfig with baseDir := ⟨[]⟩ } fs) ∧
    ∃ fs, Escape { packageConfig with baseDir := .ofString "p\\" } fs :=
  ⟨⟨_, escape_manifest.1⟩, ⟨_, escape_manifest.2⟩, ⟨_, escape_bundleDir⟩,
    ⟨_, escape_extension⟩, ⟨_, escape_baseDir.1⟩, _, escape_baseDir.2⟩

end Package

end BundleLink
