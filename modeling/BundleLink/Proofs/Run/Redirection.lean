import BundleLink.Proofs.Link.Visits
import BundleLink.Proofs.Path.Resolution
import BundleLink.Proofs.Run.Footprint
import BundleLink.Proofs.Run.Rerun
import Mathlib

/-!
What artifacts load. An item of a bundle that loads a module by a relative specifier is printed with
the suffix after the specifier (`Relinker.item_of_relative`), and every other item is printed as it
is. So what an artifact loads in place of what its bundle loads is an artifact by its path, and if
the bundle loads a bundle then it is the artifact of that one, which the run has written
(`redirected`). This holds of every item of every bundle in every run that ends in a report
(`relinked_of_runs`).
-/

set_option autoImplicit false

namespace BundleLink

open BundleLink.Script BundleLink.Text BundleLink.Link FileSystem

namespace Link

/-- The module that is printed for a module. -/
def relinked (suffix : String) (m : Module) : Module :=
  (Relinker.run ⟨suffix, 0⟩ m).1

variable {text : List Char} {p : Path}

/-- A text that is linked without plugins is that of a module, and its relinked module is printed. -/
theorem linkSource_eq_ok {c : Config} {linked : Linked} {log : Log}
    (hlink : linkSource text p c.options = (.ok linked, log)) :
    ∃ m comments, parseModule (withoutMark text) p = .ok (m, comments) ∧
      linked.code = (relinked c.suffix m).print comments := by
  unfold linkSource at hlink
  cases hparse : parseModule (withoutMark text) p with
  | error e => simp [hparse] at hlink
  | ok parsed =>
    obtain ⟨m, comments⟩ := parsed
    rw [hparse] at hlink
    exact ⟨m, comments, rfl, (Except.ok.inj (Prod.ext_iff.mp hlink).1) ▸ rfl⟩

end Link

namespace Package

section

variable {c : Config} {fs : FileSystem} {bundles : List Path} {files : FileSystem} {report : Report}

/-- What the artifact of `a` loads by the specifier `new`, compared with what the bundle `a` loads
by `old`. -/
structure Redirected (c : Config) (fs : FileSystem) (bundles : List Path) (files : FileSystem)
    (report : Report) (a : Path) (old new : String) : Prop where
  suffix : bytesOf c.suffix <:+ (Path.resolved (c.linkedPath a) new).bytes
  resolved : Path.EndsInName old →
    Path.resolved (c.linkedPath a) new = c.linkedPath (Path.resolved a old)
  artifact : Path.EndsInName old ∨ fs.isFile ((parent a).join (.ofString old)) →
    ∀ b ∈ bundles, fs.address b = fs.address (Path.resolved a old) →
      c.linkedPath b ∈ report.artifacts ∧ files.isFile (c.linkedPath b) ∧
        files.address (Path.resolved (c.linkedPath a) new) = files.address (c.linkedPath b)

/-- An item of the bundle `a` and the item in its place in the artifact. -/
structure Relinked (c : Config) (fs : FileSystem) (bundles : List Path) (files : FileSystem)
    (report : Report) (a : Path) (i i' : ModuleItem) : Prop where
  relative : ∀ s, i.source? = some s → isRelative s.value.lossy →
    ∃ s', i' = i.withSource s' ∧ i'.source? = some s' ∧
      Redirected c fs bundles files report a s.value.lossy s'.value.lossy
  other : ∀ s, i.source? = some s → ¬isRelative s.value.lossy →
    i' = i ∧ Path.resolved (c.linkedPath a) s.value.lossy = Path.resolved a s.value.lossy
  without : i.source? = none → i' = i

variable (hext : '/' ∉ c.extension.toList) (h : fs.IsTree)
  (hbundles : (discover c fs).1 = .ok bundles)

include hext h hbundles

section

variable (hsnapshot : Snapshot c c.options fs (tasks bundles) files)
  (hreported : Reported c c.options fs bundles files report)

include hsnapshot hreported

/-- A relative specifier with the suffix leads from an artifact to an artifact. -/
theorem redirected {a : Path} (ha : a ∈ bundles) {old : String} (hold : isRelative old) :
    Redirected c fs bundles files report a old (old ++ c.suffix) := by
  obtain ⟨name, -, hnamed, -⟩ := around_of_isFile h.isSound (isFile_of_mem_discover hbundles ha)
  refine ⟨Path.suffix_resolved hext _ hold, Path.resolved_linkedPath hext hnamed hold,
    fun hplain b hb hsame ↦ ?_⟩
  have hend : Path.EndsInName old := hplain.elim id (Path.endsInName_of_isFile hold h.isSound)
  obtain ⟨name', -, hnamed', -⟩ := around_of_isFile h.isSound (isFile_of_mem_discover hbundles hb)
  have hresolved : Named (Path.resolved a old) (encode (Path.lastSegment old)) :=
    Path.named_tidy (Path.named_join_ofString hold _ ((Path.endsInName_iff old).mp hend))
  obtain rfl := hnamed'.eq_of_address_eq hresolved hsame
  obtain ⟨-, -, loc, content, -, -, -, hloc, hwritten⟩ := hreported.bundle b hb
  refine ⟨(hreported.artifacts _).mpr ⟨b, hb, rfl⟩,
    isFile_filled h.isSound hsnapshot.filled hloc hwritten, ?_⟩
  have haddress (p : Path) : files.address p = fs.address p := by
    rw [address, address, hsnapshot.filled.current]
  rw [haddress, haddress, Path.resolved_linkedPath hext hnamed hold hend, Config.linkedPath,
    Config.linkedPath, hresolved.address_append_eq, hnamed'.address_append_eq, hsame]

theorem relinked_item {a : Path} (ha : a ∈ bundles) (i : ModuleItem) :
    Relinked c fs bundles files report a i (Relinker.item c.suffix i).1 := by
  obtain ⟨name, -, hnamed, -⟩ := around_of_isFile h.isSound (isFile_of_mem_discover hbundles ha)
  constructor
  · intro s hi hs
    have hitem := Relinker.item_of_relative c.suffix hi hs
    refine ⟨Relinker.suffixed c.suffix s, hitem, ?_, ?_⟩
    · rw [hitem]
      exact ModuleItem.source?_withSource hi _
    · rw [Relinker.suffixed, Codes.lossy_ofString]
      exact redirected hext h hbundles hsnapshot hreported ha hs
  · intro s hi hs
    refine ⟨Relinker.item_of_not_relative c.suffix fun s' hi' ↦ ?_,
      Path.resolved_linkedPath_same hext hnamed _⟩
    rwa [← Option.some.inj (hi.symm.trans hi')]
  · intro hnone
    exact Relinker.item_of_not_relative c.suffix fun s hi ↦ by simp [hnone] at hi

theorem relinked_items {a : Path} (ha : a ∈ bundles) (m : Module) :
    List.Forall₂ (Relinked c fs bundles files report a) m.items
      (relinked c.suffix m).items := by
  rw [relinked, Relinker.run, List.map_map, List.forall₂_map_right_iff, List.forall₂_same]
  exact fun i _ ↦ relinked_item hext h hbundles hsnapshot hreported ha i

end

/-- The task of a bundle reads what was there before the run, unless the manifest is the bundle. -/
theorem readText_of_before (hc : c.Accepted) {a : Path} (ha : a ∈ bundles) {mid : FileSystem}
    (hmid : Before c c.options fs (tasks bundles) (.bundle a) mid) {text : List Char}
    (hread : mid.readText a = .ok text) (hmanifest : fs.address c.manifestPath ≠ fs.address a) :
    fs.readText a = .ok text := by
  obtain ⟨others, hperm, hsnapshot⟩ := hmid
  refine hsnapshot.readText h.isSound hread fun t ht loc hloc hloc' ↦ ?_
  have hsame : fs.address (t.target c) = fs.address a := by
    rw [address_of_writeTarget h hloc, address_of_writeTarget h hloc']
  rcases List.mem_cons.mp (hperm.subset (List.mem_cons_of_mem _ ht)) with rfl | ht
  · exact hmanifest hsame
  · obtain ⟨b, hb, rfl⟩ := List.mem_map.mp ht
    obtain ⟨name, hlinkable⟩ := linkable_of_mem_discover hc hext hbundles h.isSound ha
    obtain ⟨name', hlinkable'⟩ := linkable_of_mem_discover hc hext hbundles h.isSound hb
    exact hlinkable'.address_linkedPath_ne hext hlinkable fs hsame

end

/-- Artifacts load artifacts in place of bundles. In a run that ends in a report every bundle is read
and parsed, each of its items is relinked, and the relinked module is printed as the artifact. -/
theorem relinked_of_runs {c : Config} {fs : FileSystem} (h : fs.IsTree)
    (hext : '/' ∉ c.extension.toList) {files : FileSystem}
    {ended : List (Task × Except Failure Product)} {report : Report}
    (hrun : Runs c c.options fs files ended (.ok report)) :
    ∃ bundles, (discover c fs).1 = .ok bundles ∧ ∀ a ∈ bundles, ∃ text m comments linked log,
      (∃ mid, Before c c.options fs (tasks bundles) (.bundle a) mid ∧ mid.readText a = .ok text) ∧
      (fs.address c.manifestPath ≠ fs.address a → fs.readText a = .ok text) ∧
      parseModule (withoutMark text) a = .ok (m, comments) ∧
      linkSource text a c.options = (.ok linked, log) ∧
      linked.code = (relinked c.suffix m).print comments ∧
      (ManifestApart c fs bundles → files.readBytes (c.linkedPath a) = .ok (bytesOf linked.code)) ∧
      List.Forall₂ (Relinked c fs bundles files report a) m.items (relinked c.suffix m).items := by
  obtain ⟨bundles, hplan, hsnapshot, hreported⟩ := reported_of_runs h.isSound hrun
  obtain ⟨hc, hbundles⟩ := plan_eq_ok_iff.mp hplan
  refine ⟨bundles, hbundles, fun a ha ↦ ?_⟩
  obtain ⟨mid, d, loc, -, hmid, hd, -, hloc, -⟩ := hreported.bundle a ha
  obtain ⟨text, linked, log, hread, hlink, -⟩ := Task.prepare_bundle_eq_ok hd
  obtain ⟨m, comments, hparse, hcode⟩ := linkSource_eq_ok hlink
  have hbefore := readText_of_before hext h hbundles hc ha hmid hread
  refine ⟨text, m, comments, linked, log, ⟨mid, hmid, hread⟩, hbefore, hparse, hlink, hcode,
    fun hapart ↦ ?_, relinked_items hext h hbundles hsnapshot hreported ha m⟩
  have hcompleted := completed_of_runs h hplan (disjoint_tasks hc hext h hbundles hapart) hrun
  exact hcompleted.artifact a ha text linked log loc (hbefore (hapart a ha).1) hlink hloc

/-! ### A bundle that imports another -/

def importText : List Char :=
  "import './b.x'".toList

/-- A package with two bundles, the first of which imports the second. -/
def importing : FileSystem where
  entries :=
    [([bytesOf "m"], .file (bytesOf "\x7b\"exports\":\x7b\x7d\x7d")), ([bytesOf "d"], .directory),
      ([bytesOf "d", bytesOf "a.x"], .file (encode importText)),
      ([bytesOf "d", bytesOf "b.x"], .file [])]
  current := []

def importedBundle : Path :=
  .ofString "d/b.x"

theorem isTree_importing : importing.IsTree := by decide

-- The kernel cannot run merge sort, so directories of several entries are evaluated with `cbv`.
theorem discover_importing :
    (discover sampleConfig importing).1 = .ok [sampleBundle, importedBundle] := by cbv

theorem manifestApart_importing :
    ManifestApart sampleConfig importing [sampleBundle, importedBundle] := by
  unfold ManifestApart
  decide

theorem readManifest_importing : readManifest sampleConfig importing =
    .ok (.object [("exports", .object [])]) :=
  toOption_eq_some_iff.mp (by decide +kernel)

theorem readText_importing : importing.readText sampleBundle = .ok importText := by decide +kernel

theorem writeTarget_importing : importing.writeTarget sampleConfig.manifestPath =
    .ok [bytesOf "m"] ∧ importing.writeTarget (sampleConfig.linkedPath sampleBundle) =
      .ok [bytesOf "d", bytesOf "a.x.linked.x"] := by
  constructor <;> rfl

/-- What the items of a parsed text load. -/
def loads (parsed : Except Diagnostic (Module × Comments)) : Option (List (Option String)) :=
  parsed.toOption.map fun m ↦ m.1.items.map fun i ↦ i.source?.map (·.value.lossy)

theorem loads_importText :
    loads (parse (String.ofList (withoutMark importText))) = some [some "./b.x"] := by
  unfold parse
  rw [String.toList_ofList]
  decide +kernel

theorem parseModule_importText : ∃ m comments,
    parseModule (withoutMark importText) sampleBundle = .ok (m, comments) ∧
      m.items.map (fun i ↦ i.source?.map (·.value.lossy)) = [some "./b.x"] := by
  have hloads := loads_importText
  unfold parseModule
  generalize parse (String.ofList (withoutMark importText)) = parsed at hloads ⊢
  cases parsed with
  | error d => cases hloads
  | ok parsed => exact ⟨parsed.1, parsed.2, rfl, Option.some.inj hloads⟩

theorem alone_importing : ∀ t ∈ tasks [sampleBundle, importedBundle],
    Succeeded (t.alone sampleConfig sampleConfig.options importing) := by
  have hmanifest : Succeeded (Task.manifest.alone sampleConfig sampleConfig.options importing) := by
    obtain ⟨d, hd⟩ : ∃ d,
        (Task.manifest.prepare sampleConfig sampleConfig.options importing).1 = .ok d := by
      rw [Task.prepare, prepareManifest, readManifest_importing]
      exact ⟨_, rfl⟩
    exact ⟨d.output, (Task.alone_eq_ok_iff _ _).mpr ⟨d, _, hd, writeTarget_importing.1, rfl⟩⟩
  have hsample : Succeeded
      ((Task.bundle sampleBundle).alone sampleConfig sampleConfig.options importing) := by
    obtain ⟨m, comments, hparse, -⟩ := parseModule_importText
    obtain ⟨linked, log, hlink⟩ : ∃ linked log,
        linkSource importText sampleBundle sampleConfig.options = (.ok linked, log) := by
      unfold linkSource
      rw [hparse]
      exact ⟨_, _, rfl⟩
    exact ⟨_, (Task.alone_eq_ok_iff _ _).mpr ⟨_, _,
      Task.prepare_bundle_of_linkSource readText_importing hlink, writeTarget_importing.2, rfl⟩⟩
  have himported : Succeeded
      ((Task.bundle importedBundle).alone sampleConfig sampleConfig.options importing) :=
    ⟨.artifact (sampleConfig.linkedPath importedBundle), by rfl⟩
  simp only [tasks, List.map_cons, List.map_nil, List.forall_mem_cons, List.not_mem_nil,
    false_imp_iff, implies_true, and_true]
  exact ⟨hmanifest, hsample, himported⟩

theorem runs_importing : ∃ files ended report,
    Runs sampleConfig sampleConfig.options importing files ended (.ok report) := by
  have haccepted := sampleConfig.accepted_iff.mp problem?_sample
  refine report_of_alone isTree_importing (plan_eq_ok_iff.mpr ⟨haccepted, discover_importing⟩) ?_
    alone_importing
  exact disjoint_tasks haccepted (by decide) isTree_importing discover_importing
    manifestApart_importing

/-- The artifact of the bundle that imports another is printed from a module with one source, which
leads to the artifact of the other. -/
theorem relinked_importing : ∃ files ended report m comments s,
    Runs sampleConfig sampleConfig.options importing files ended (.ok report) ∧
      parseModule (withoutMark importText) sampleBundle = .ok (m, comments) ∧
      files.readBytes (sampleConfig.linkedPath sampleBundle) =
        .ok (bytesOf ((relinked sampleConfig.suffix m).print comments)) ∧
      (relinked sampleConfig.suffix m).items.map ModuleItem.source? = [some s] ∧
      files.address (Path.resolved (sampleConfig.linkedPath sampleBundle) s.value.lossy) =
        files.address (sampleConfig.linkedPath importedBundle) ∧
      files.isFile (sampleConfig.linkedPath importedBundle) := by
  obtain ⟨files, ended, report, hrun⟩ := runs_importing
  obtain ⟨bundles, hbundles, hall⟩ := relinked_of_runs isTree_importing (by decide) hrun
  obtain rfl : bundles = [sampleBundle, importedBundle] :=
    Except.ok.inj (hbundles.symm.trans discover_importing)
  obtain ⟨text, m, comments, linked, log, -, hbefore, hparse, -, hcode, hwritten, hitems⟩ :=
    hall sampleBundle (by simp)
  obtain rfl : text = importText := Except.ok.inj <|
    (hbefore (manifestApart_importing _ (by simp)).1).symm.trans readText_importing
  obtain ⟨m', comments', hparse', hsources⟩ := parseModule_importText
  obtain ⟨rfl, rfl⟩ : m' = m ∧ comments' = comments := by simpa [hparse] using hparse'.symm
  obtain ⟨i, hi, hsource⟩ := List.map_eq_singleton_iff.mp hsources
  obtain ⟨s, hs, hlossy⟩ := Option.map_eq_some_iff.mp hsource
  rw [hi] at hitems
  obtain ⟨i', rest, hrelinked, hrest, hitems'⟩ := List.forall₂_cons_left_iff.mp hitems
  obtain rfl := List.forall₂_nil_left_iff.mp hrest
  obtain ⟨s', -, hs', hredirected⟩ := hrelinked.relative s hs (by rw [hlossy]; decide)
  rw [hlossy] at hredirected
  obtain ⟨-, hfile, haddress⟩ := hredirected.artifact (.inl (by decide)) importedBundle
    (by simp) (by decide +kernel)
  refine ⟨files, ended, report, m', comments', s', hrun, hparse', ?_, ?_, haddress, hfile⟩
  · rw [hwritten manifestApart_importing, hcode]
  · rw [hitems', List.map_cons, hs', List.map_nil]

end Package

end BundleLink
