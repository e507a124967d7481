import BundleLink.Proofs.Discovery.Linked
import BundleLink.Proofs.Manifest.Stability
import BundleLink.Proofs.Path.Resolution
import BundleLink.Proofs.Run.Footprint
import BundleLink.Proofs.Run.Rerun

/-!
What the conditions of an updated manifest point at. Each is the default target of its export with
the suffix (`exported_of_mem_conditions`). If that default leads to a file, the condition points at
an artifact of the run exactly if the file was a bundle, and then the artifact is there
(`published_of_runs`). A default need only mention the bundle directory to gain a condition, so one
that leads to another file gains one that leads nowhere (`not_isFile_published`).
-/

set_option autoImplicit false

namespace BundleLink

open BundleLink.Json BundleLink.Text BundleLink.Link FileSystem

namespace Manifest

/-- An export of a manifest has a default target. -/
def Exported (m : Value) (subpath target : String) : Prop :=
  ∃ entries exports conditions, m = .object entries ∧
    Entries.get? entries "exports" = some (.object exports) ∧
    (subpath, Value.object conditions) ∈ exports ∧
    Entries.get? conditions "default" = some (.string target)

theorem conditions_updateEntries (c : Config) (entries exports : Entries) :
    (updateEntries c entries exports).changes.conditions =
      (exports.map (updateExport c)).filterMap (·.change) := by
  simp only [updateEntries]
  split <;> rfl

/-- The target of a condition is the default target of its export, with the suffix. -/
theorem exported_of_mem_conditions {c : Config} {m : Value} {u : ManifestUpdate}
    (hu : update c m = .ok u) {change : ConditionChange}
    (hchange : change ∈ u.changes.conditions) :
    ∃ d, Exported m change.subpath d ∧ change.target = c.linkedName d := by
  obtain ⟨entries, exports, rfl, hexports, rfl⟩ := update_eq_ok_iff.mp hu
  rw [conditions_updateEntries, List.filterMap_map, List.mem_filterMap] at hchange
  obtain ⟨e, he, hchange⟩ := hchange
  obtain ⟨conditions, d, hgains, rfl⟩ := change_eq_some_iff.mp hchange
  exact ⟨d, ⟨entries, exports, conditions, rfl, hexports, hgains.eq_object ▸ he, hgains.default⟩,
    rfl⟩

end Manifest

namespace Package

/-- The path of a target of an export. -/
def exportPath (c : Config) (target : String) : Path :=
  c.baseDir.join (.ofString target)

theorem head?_bytesOf_suffix (c : Config) : (bytesOf c.suffix).head? = some Path.dot := by
  rw [Config.suffix, bytesOf, String.toList_append, encode_append]
  rfl

theorem exportPath_linkedName (c : Config) (target : String) :
    exportPath c (c.linkedName target) = c.linkedPath (exportPath c target) := by
  rw [exportPath, exportPath, Config.linkedName, Path.ofString_append, join_append]
  · rfl
  · rw [Path.isAbsolute, Path.isAbsolute, Path.append]
    cases (Path.ofString target).bytes with
    | nil => simp [head?_bytesOf_suffix, Path.dot, Path.slash]
    | cons b bs => simp

/-- What is known of the default target of an export that has gained a condition, if it leads to a
file: the condition leads to an artifact of the run if and only if the file was a bundle. -/
structure Published (c : Config) (fs : FileSystem) (bundles : List Path) (files : FileSystem)
    (report : Report) (target : String) : Prop where
  artifact : ∀ b ∈ bundles, fs.address b = fs.address (exportPath c target) →
    (∃ a ∈ report.artifacts, files.address a = files.address (exportPath c (c.linkedName target))) ∧
    (∃ content, files.lookup? (files.address (exportPath c (c.linkedName target))) =
      some (.file content)) ∧
    ((exportPath c (c.linkedName target)).bytes.length ≤ maxPath →
      files.isFile (exportPath c (c.linkedName target)))
  bundle : '/' ∉ c.extension.toList → ∀ a ∈ report.artifacts,
    files.address a = files.address (exportPath c (c.linkedName target)) →
    ∃ b ∈ bundles, fs.address b = fs.address (exportPath c target)

section

variable {c : Config} {o : Options} {fs : FileSystem} (h : fs.IsTree) {bundles : List Path}
  (hbundles : (discover c fs).1 = .ok bundles) {files : FileSystem} {report : Report}
  (hsnapshot : Snapshot c o fs (tasks bundles) files)
  (hreported : Reported c o fs bundles files report)

include h hbundles hsnapshot hreported

theorem published {target : String} (hfile : fs.isFile (exportPath c target)) :
    Published c fs bundles files report target := by
  have haddress (p : Path) : files.address p = fs.address p := by
    rw [address, address, hsnapshot.filled.current]
  obtain ⟨name, -, hnamed, -⟩ := around_of_isFile h.isSound hfile
  constructor
  · intro b hb hsame
    have hb' := isFile_of_mem_discover hbundles hb
    obtain ⟨name', -, hnamed', -⟩ := around_of_isFile h.isSound hb'
    obtain rfl := hnamed'.eq_of_address_eq hnamed hsame
    obtain ⟨-, -, loc, content, -, -, -, hloc, hwritten⟩ := hreported.bundle b hb
    have hplace : fs.address (c.linkedPath b) = loc := address_of_writeTarget h hloc
    have hlinked : fs.address (exportPath c (c.linkedName target)) = loc := by
      rw [exportPath_linkedName, ← hplace, Config.linkedPath, Config.linkedPath,
        hnamed.address_append_eq, hnamed'.address_append_eq, hsame]
    simp only [haddress]
    refine ⟨⟨c.linkedPath b, (hreported.artifacts _).mpr ⟨b, hb, rfl⟩, hplace.trans hlinked.symm⟩,
      ⟨content, by rw [hlinked, hwritten]⟩, fun hlength ↦ ?_⟩
    rw [exportPath_linkedName] at hlength ⊢
    exact isFile_filled h.isSound hsnapshot.filled
      (writeTarget_append_congr h hb' hfile hsame hloc hlength) hwritten
  · intro hext a ha hsame
    obtain ⟨b, hb, rfl⟩ := (hreported.artifacts a).mp ha
    refine ⟨b, hb, ?_⟩
    obtain ⟨name', -, hnamed', -⟩ := around_of_isFile h.isSound (isFile_of_mem_discover hbundles hb)
    obtain ⟨_, -, hname⟩ := id hnamed
    obtain ⟨_, -, hname'⟩ := id hnamed'
    rw [haddress, haddress, exportPath_linkedName, Config.linkedPath, Config.linkedPath,
      hnamed.address_append (isName_append_suffix hext hname.2.1),
      hnamed'.address_append (isName_append_suffix hext hname'.2.1)] at hsame
    obtain ⟨hfront, hlast⟩ := List.append_inj' hsame rfl
    rw [hnamed.address_eq fs, hnamed'.address_eq fs, hfront,
      List.append_cancel_right (List.singleton_inj.mp hlast)]

omit hbundles hsnapshot in
/-- The manifest that a run has updated: the one from before, unless a bundle's task writes it. -/
theorem updated_of_reported : ∃ m u, Manifest.update c m = .ok u ∧ report.manifest = u.changes ∧
    (∃ mid, Before c o fs (tasks bundles) .manifest mid ∧ readManifest c mid = .ok m) ∧
    ((∀ b ∈ bundles, (Task.bundle b).Spares c fs .manifest) → readManifest c fs = .ok m) := by
  obtain ⟨mid, d, -, -, ⟨others, hperm, hmid⟩, hd, houtput, -⟩ := hreported.manifest
  obtain ⟨text, m, u, hread, hm, hu, -, -, hchanges⟩ := Task.prepare_manifest_eq_ok hd
  rw [hchanges, Product.manifest.injEq] at houtput
  have hmanifest {files : FileSystem} (htext : files.readText c.manifestPath = .ok text) :
      readManifest c files = .ok m := by
    simp [readManifest, readFile, htext, hm, Except.mapError, bind, Except.bind]
  refine ⟨m, u, hu, houtput.symm, ⟨mid, ⟨others, hperm, hmid⟩, hmanifest hread⟩,
    fun hspares ↦ hmanifest ?_⟩
  have hothers : others.Perm (bundles.map .bundle) := hperm.cons_inv
  refine hmid.readText h.isSound hread fun t ht loc hloc ↦ ?_
  obtain ⟨b, hb, rfl⟩ := List.mem_map.mp (hothers.subset ht)
  exact (hspares b hb loc hloc).1

end

/-- Every condition that a run reports is the default target of its export with the suffix. If that
default led to a file, the condition leads to an artifact of the run, and a file stands there,
exactly if the file was a bundle. -/
theorem published_of_runs {c : Config} {o : Options} {fs : FileSystem} (h : fs.IsTree)
    {files : FileSystem} {ended : List (Task × Except Failure Product)} {report : Report}
    (hrun : Runs c o fs files ended (.ok report)) :
    ∃ bundles m u, (discover c fs).1 = .ok bundles ∧ Manifest.update c m = .ok u ∧
      report.manifest = u.changes ∧
      (∃ mid, Before c o fs (tasks bundles) .manifest mid ∧ readManifest c mid = .ok m) ∧
      ((∀ b ∈ bundles, (Task.bundle b).Spares c fs .manifest) → readManifest c fs = .ok m) ∧
      ∀ change ∈ report.manifest.conditions, ∃ target,
        Manifest.Exported m change.subpath target ∧ change.target = c.linkedName target ∧
        (fs.isFile (exportPath c target) → Published c fs bundles files report target) := by
  obtain ⟨bundles, hplan, hsnapshot, hreported⟩ := reported_of_runs h.isSound hrun
  have hbundles := (plan_eq_ok_iff.mp hplan).2
  obtain ⟨m, u, hu, hchanges, hread, hbefore⟩ := updated_of_reported h hreported
  refine ⟨bundles, m, u, hbundles, hu, hchanges, hread, hbefore, fun change hchange ↦ ?_⟩
  rw [hchanges] at hchange
  obtain ⟨target, hexported, htarget⟩ := Manifest.exported_of_mem_conditions hu hchange
  exact ⟨target, hexported, htarget, published h hbundles hsnapshot hreported⟩

/-! ### A condition that leads to an artifact, and one that leads nowhere -/

theorem spares_sample :
    ∀ b ∈ [sampleBundle], (Task.bundle b).Spares sampleConfig sample .manifest := by
  decide

theorem isFile_published_sample : ∃ files ended report,
    Runs sampleConfig sampleConfig.options sample files ended (.ok report) ∧
      files.isFile (exportPath sampleConfig "./d/a.x.linked.x") := by
  obtain ⟨files, ended, report, hrun⟩ := runs_sample
  refine ⟨files, ended, report, hrun, ?_⟩
  obtain ⟨bundles, m, u, hbundles, hu, hchanges, -, hbefore, hpublished⟩ :=
    published_of_runs isTree_sample hrun
  obtain rfl : bundles = [sampleBundle] := Except.ok.inj (hbundles.symm.trans discover_sample)
  obtain rfl := Except.ok.inj (readManifest_sample.symm.trans (hbefore spares_sample))
  have hchange : ConditionChange.mk "." "./d/a.x.linked.x" ∈ report.manifest.conditions := by
    rw [hchanges]
    cases hu
    decide
  obtain ⟨target, hexported, htarget, hfile⟩ := hpublished _ hchange
  have htext : target.toList = "./d/a.x".toList := by
    have htexts := congrArg String.toList htarget
    rw [Config.linkedName, String.toList_append] at htexts
    have hsample : "./d/a.x".toList ++ sampleConfig.suffix.toList =
        target.toList ++ sampleConfig.suffix.toList := htexts
    exact (List.append_cancel_right hsample).symm
  obtain rfl := String.toList_injective htext
  exact ((hfile (by decide)).artifact sampleBundle (by simp) (by decide)).2.2
    (by decide)

/-- A package with one export, the default of which leads to a file that is no bundle. -/
def strayed : FileSystem where
  entries :=
    [([bytesOf "m"],
        .file (bytesOf "\x7b\"exports\":\x7b\".\":\x7b\"default\":\"./d/b.y\"\x7d\x7d\x7d")),
      ([bytesOf "d"], .directory), ([bytesOf "d", bytesOf "b.y"], .file [])]
  current := []

theorem link_strayed : (link sampleConfig sampleConfig.options strayed).result.toOption =
    some ⟨[], ⟨[⟨".", "./d/b.y.linked.x"⟩], []⟩⟩ := by
  decide +kernel

theorem exists_runs_strayed : ∃ files ended, Runs sampleConfig sampleConfig.options strayed files
    ended (.ok ⟨[], ⟨[⟨".", "./d/b.y.linked.x"⟩], []⟩⟩) ∧
      files.isFile (exportPath sampleConfig "./d/b.y.linked.x") = false := by
  obtain ⟨ended, hrun⟩ := runs_link sampleConfig sampleConfig.options strayed
  refine ⟨_, ended, ?_, (by decide +kernel : (link sampleConfig sampleConfig.options
    strayed).files.isFile (exportPath sampleConfig "./d/b.y.linked.x") = false)⟩
  have hreport := link_strayed
  generalize (link sampleConfig sampleConfig.options strayed).result = result at hrun hreport
  cases result with
  | error f => cases hreport
  | ok report => rwa [← Option.some.inj hreport]

/-- A condition whose export leads to a file need not lead to one itself. -/
theorem not_isFile_published : strayed.IsTree ∧ sampleConfig.problem? = none ∧
    ∃ files ended report change m target,
      Runs sampleConfig sampleConfig.options strayed files ended (.ok report) ∧
      change ∈ report.manifest.conditions ∧ readManifest sampleConfig strayed = .ok m ∧
      Manifest.Exported m change.subpath target ∧ strayed.isFile (exportPath sampleConfig target) ∧
      ¬files.isFile (exportPath sampleConfig change.target) := by
  obtain ⟨files, ended, hrun, hnot⟩ := exists_runs_strayed
  have hread : readManifest sampleConfig strayed = .ok
      (.object [("exports", .object [(".", .object [("default", .string "./d/b.y")])])]) :=
    toOption_eq_some_iff.mp (by decide +kernel)
  refine ⟨by decide, problem?_sample, files, ended, _, ⟨".", "./d/b.y.linked.x"⟩, _,
    "./d/b.y", hrun, by simp, hread, ⟨_, _, _, rfl, rfl, List.mem_singleton_self _, rfl⟩,
    by decide, ?_⟩
  simp [hnot]

end Package

end BundleLink
