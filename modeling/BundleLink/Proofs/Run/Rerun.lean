import BundleLink.Proofs.Discovery.Linked
import BundleLink.Proofs.Manifest.Reread
import BundleLink.Proofs.Run.Account

/-!
Running again. A run that succeeded has added nothing but artifacts and has changed no bundle, so
the next one discovers the same bundles (`onlyArtifacts_of_written`) and each of its tasks drafts
what is written already: the bundles are read unchanged, and the updated manifest needs no update.
Every second run succeeds, reports no change of the manifest and leaves all files as they are
(`fixpoint_of_runs`).
-/

set_option autoImplicit false

namespace BundleLink.Package

open BundleLink.Text BundleLink.Link FileSystem

/-! ### Tasks that spare one another -/

theorem spares_of_address_ne {c : Config} {fs : FileSystem} (h : fs.IsTree) {t t' : Task}
    (hsource : fs.address (t.target c) ≠ fs.address (t'.source c))
    (htarget : fs.address (t.target c) ≠ fs.address (t'.target c)) : t.Spares c fs t' := by
  intro loc hloc
  have haddress := address_of_writeTarget h hloc
  refine ⟨fun hloc' ↦ hsource ?_, fun hloc' ↦ htarget ?_⟩
  · rw [haddress, address_of_writeTarget h hloc']
  · rw [haddress, address_of_writeTarget h hloc']

/-- The manifest is neither one of the bundles nor one of their artifacts. -/
def ManifestApart (c : Config) (fs : FileSystem) (bundles : List Path) : Prop :=
  ∀ b ∈ bundles, fs.address c.manifestPath ≠ fs.address b ∧
    fs.address c.manifestPath ≠ fs.address (c.linkedPath b)

section

variable {c : Config} (hc : c.Accepted) (hext : '/' ∉ c.extension.toList) {fs : FileSystem}
  (h : fs.IsTree) {bundles : List Path} (hbundles : (discover c fs).1 = .ok bundles)
  (hapart : ManifestApart c fs bundles)

include hc hext h hbundles hapart

/-- No task writes a bundle. -/
theorem address_target_ne {t : Task} (ht : t ∈ tasks bundles) {b : Path} (hb : b ∈ bundles) :
    fs.address (t.target c) ≠ fs.address b := by
  rcases List.mem_cons.mp ht with rfl | ht
  · exact (hapart b hb).1
  · obtain ⟨b', hb', rfl⟩ := List.mem_map.mp ht
    obtain ⟨name, hlinkable⟩ := linkable_of_mem_discover hc hext hbundles h.isSound hb
    obtain ⟨name', hlinkable'⟩ := linkable_of_mem_discover hc hext hbundles h.isSound hb'
    exact hlinkable'.address_linkedPath_ne hext hlinkable fs

/-- The tasks of a package spare one another if its manifest stands apart. -/
theorem disjoint_tasks : Disjoint c fs (tasks bundles) := by
  rw [Disjoint, tasks, List.pairwise_cons, List.pairwise_map]
  constructor
  · intro t ht
    obtain ⟨b, hb, rfl⟩ := List.mem_map.mp ht
    have hmanifest := hapart b hb
    exact ⟨spares_of_address_ne h hmanifest.1 hmanifest.2,
      spares_of_address_ne h hmanifest.2.symm hmanifest.2.symm⟩
  · have hnodup := List.pairwise_map.mp (nodup_discover hc hext hbundles h)
    refine hnodup.imp_of_mem fun {b b'} hb hb' hne ↦ ?_
    obtain ⟨name, hlinkable⟩ := linkable_of_mem_discover hc hext hbundles h.isSound hb
    obtain ⟨name', hlinkable'⟩ := linkable_of_mem_discover hc hext hbundles h.isSound hb'
    have htargets : fs.address (c.linkedPath b) ≠ fs.address (c.linkedPath b') :=
      fun heq ↦ hne (hlinkable.address_eq_of_address_linkedPath_eq hext hlinkable' heq)
    exact ⟨spares_of_address_ne h (hlinkable.address_linkedPath_ne hext hlinkable' fs) htargets,
      spares_of_address_ne h (hlinkable'.address_linkedPath_ne hext hlinkable fs) htargets.symm⟩

/-! ### After a run that succeeded -/

variable {o : Options} {files : FileSystem} (hw : Written fs (writes c o fs (tasks bundles)) files)

include hw

omit hapart in
/-- A run adds nothing but artifacts. -/
theorem onlyArtifacts_of_written : OnlyArtifacts c fs files := by
  refine ⟨h, hw.isTree h, hw.grown h, fun loc name entry hnone hentry ↦ ?_, hw.leadsOn⟩
  have hmem : loc ++ [name] ∈ (writes c o fs (tasks bundles)).map Prod.fst := by
    by_contra hnot
    rw [hw.lookup?_notMem _ hnot, hnone] at hentry
    cases hentry
  obtain ⟨w, hwrite, haddress⟩ := List.mem_map.mp hmem
  obtain ⟨t, ht, d, hd, htarget, -⟩ := mem_writes_iff.mp hwrite
  have hplace := address_of_writeTarget h htarget
  rw [haddress] at hplace
  rcases List.mem_cons.mp ht with rfl | ht
  · obtain ⟨text, m, u, hread, -⟩ := Task.prepare_manifest_eq_ok hd
    obtain ⟨content, hcontent⟩ := lookup?_of_readText h hread
    have hmanifest : fs.address c.manifestPath = loc ++ [name] := hplace
    rw [hmanifest, hnone] at hcontent
    cases hcontent
  · obtain ⟨b, hb, rfl⟩ := List.mem_map.mp ht
    obtain ⟨name', hlinkable⟩ := linkable_of_mem_discover hc hext hbundles h.isSound hb
    have hlinked : fs.address (c.linkedPath b) = loc ++ [name] := hplace
    rw [hlinkable.address_linkedPath hext fs] at hlinked
    rw [← List.singleton_inj.mp (List.append_inj' hlinked rfl).2]
    exact hlinkable.suffixed

/-- The task of a bundle drafts the same again. -/
theorem prepare_bundle_again {b : Path} (hb : b ∈ bundles) {d : Draft Product}
    (hd : ((Task.bundle b).prepare c o fs).1 = .ok d) :
    ((Task.bundle b).prepare c o files).1 = .ok d := by
  obtain ⟨text, linked, log, hread, -⟩ := Task.prepare_bundle_eq_ok hd
  have hagain : files.readText b = .ok text := by
    refine hw.readText_ok h hread fun loc hloc hmem ↦ ?_
    obtain ⟨w, hwrite, rfl⟩ := List.mem_map.mp hmem
    obtain ⟨t, ht, -, -, htarget, -⟩ := mem_writes_iff.mp hwrite
    refine address_target_ne hc hext h hbundles hapart ht hb ?_
    rw [address_of_writeTarget h htarget, address_of_writeTarget h hloc]
  rw [Task.prepare_congr c o (t := .bundle b) (hagain.trans hread.symm), hd]

omit hc hext hbundles hapart in
/-- The manifest's task drafts the same again, and no change. -/
theorem prepare_manifest_again (hintegral : ∀ m, readManifest c fs = .ok m → m.Integral)
    {d : Draft Product} {loc : Address} (hd : (Task.manifest.prepare c o fs).1 = .ok d)
    (hloc : fs.writeTarget c.manifestPath = .ok loc) :
    ∃ d', (Task.manifest.prepare c o files).1 = .ok d' ∧ d'.content = d.content ∧
      d'.output = .manifest {} := by
  obtain ⟨text, m, u, hread, hm, hu, -, hcontent, -⟩ := Task.prepare_manifest_eq_ok hd
  have hmanifest : readManifest c fs = .ok m := by
    simp [readManifest, readFile, hread, hm, Except.mapError, bind, Except.bind]
  obtain ⟨hreread, log, hrepeat⟩ := Manifest.reread_update hm (hintegral m hmanifest) hu
  have hwritten : (loc, d.content) ∈ writes c o fs (tasks bundles) :=
    mem_writes_iff.mpr ⟨.manifest, List.mem_cons_self, d, hd, hloc, rfl⟩
  have hagain : files.readText c.manifestPath = .ok u.manifest.print.toList := by
    rw [readText, hw.readBytes_written h hwritten hloc, hcontent]
    simp
  obtain ⟨d', hd', hcontent', houtput⟩ :=
    Task.prepare_manifest_of_update (o := o) hagain (by rw [String.ofList_toList, hreread]) hrepeat
  exact ⟨d', hd', hcontent'.trans hcontent.symm, houtput⟩

variable (hintegral : ∀ m, readManifest c fs = .ok m → m.Integral)
  (hall : ∀ t ∈ tasks bundles, ∃ product, t.alone c o fs = .ok product)

include hintegral hall

/-- Every task writes what it wrote. -/
theorem writes_again : writes c o files (tasks bundles) = writes c o fs (tasks bundles) := by
  refine List.filterMap_congr fun t ht ↦ ?_
  obtain ⟨product, hproduct⟩ := hall t ht
  obtain ⟨d, loc, hd, hloc, -⟩ := (Task.alone_eq_ok_iff c o).mp hproduct
  rw [(Task.written?_eq_some_iff c o (w := (loc, d.content))).mpr ⟨d, hd, hloc, rfl⟩,
    Task.written?_eq_some_iff]
  rcases List.mem_cons.mp ht with rfl | ht
  · obtain ⟨d', hd', hcontent, -⟩ := prepare_manifest_again h hw hintegral hd hloc
    exact ⟨d', hd', hw.writeTarget_ok h hloc, hcontent⟩
  · obtain ⟨b, hb, rfl⟩ := List.mem_map.mp ht
    have hagain := prepare_bundle_again hc hext h hbundles hapart hw hb hd
    exact ⟨d, hagain, hw.writeTarget_ok h hloc, rfl⟩

/-- Every task succeeds again, and the manifest's has changed nothing. -/
theorem results_again : results c o files bundles =
    .ok (.manifest {}) :: (bundles.map c.linkedPath).map fun p ↦ .ok (.artifact p) := by
  rw [results, tasks, List.map_cons, List.map_map, List.map_map]
  congr 1
  · obtain ⟨product, hproduct⟩ := hall .manifest List.mem_cons_self
    obtain ⟨d, loc, hd, hloc, -⟩ := (Task.alone_eq_ok_iff c o).mp hproduct
    obtain ⟨d', hd', -, houtput⟩ := prepare_manifest_again h hw hintegral hd hloc
    exact (Task.alone_eq_ok_iff c o).mpr ⟨d', loc, hd', hw.writeTarget_ok h hloc, houtput⟩
  · refine List.map_congr_left fun b hb ↦ ?_
    obtain ⟨product, hproduct⟩ := hall (.bundle b)
      (List.mem_cons_of_mem _ (List.mem_map_of_mem hb))
    obtain ⟨d, loc, hd, hloc, -⟩ := (Task.alone_eq_ok_iff c o).mp hproduct
    obtain ⟨_, _, _, _, _, _, _, houtput⟩ := Task.prepare_bundle_eq_ok hd
    have hagain := prepare_bundle_again hc hext h hbundles hapart hw hb hd
    exact (Task.alone_eq_ok_iff c o).mpr ⟨d, loc, hagain, hw.writeTarget_ok h hloc, houtput⟩

end

/-! ### Whole runs -/

theorem conclude_ok (changes : ManifestChanges) (paths : List Path) :
    (conclude (.ok (.manifest changes) :: paths.map fun p ↦ .ok (.artifact p))).1 =
      .ok ⟨Path.sort paths, changes⟩ := by
  have hfailures : (paths.map fun p ↦ Except.ok (Product.artifact p)).filterMap failure? = [] :=
    List.filterMap_eq_nil_iff.mpr fun r hr ↦ by
      obtain ⟨p, -, rfl⟩ := List.mem_map.mp hr
      rfl
  have hartifacts : (paths.map fun p ↦ Except.ok (Product.artifact p)).filterMap artifact? =
      paths := by
    rw [List.filterMap_map]
    exact List.filterMap_some
  simp [conclude, List.filterMap_cons, List.findSome?_cons, failure?, artifact?, changes?,
    hfailures, hartifacts]

/-- A run that reports has only tasks that succeed by themselves. -/
theorem alone_of_report {c : Config} {o : Options} {fs files : FileSystem} {bundles : List Path}
    {report : Report} (hcompleted : Completed c o fs bundles files (.ok report)) :
    ∀ t ∈ tasks bundles, ∃ product, t.alone c o fs = .ok product := by
  have hreference : ∃ report, (conclude (results c o fs bundles)).1 = .ok report := by
    have houtcome := hcompleted.outcome
    generalize (conclude (results c o fs bundles)).1 = reference at houtcome ⊢
    cases houtcome with
    | report => exact ⟨report, rfl⟩
  exact fun t ht ↦ (ok_of_conclude _).mp hreference _ (List.mem_map_of_mem ht)

/-- If all tasks succeed by themselves, there is a run that ends in a report. -/
theorem report_of_alone {c : Config} {o : Options} {fs : FileSystem} (h : fs.IsTree)
    {bundles : List Path} (hplan : (plan c fs).1 = .ok bundles)
    (hdisjoint : Disjoint c fs (tasks bundles))
    (hall : ∀ t ∈ tasks bundles, Succeeded (t.alone c o fs)) :
    ∃ files ended report, Runs c o fs files ended (.ok report) := by
  obtain ⟨ended, hrun⟩ := runs_link c o fs
  have houtcome := (completed_of_runs h hplan hdisjoint hrun).outcome
  obtain ⟨report, hreport⟩ :=
    (ok_of_conclude (results c o fs bundles)).mpr (List.forall_mem_map.mpr hall)
  rw [hreport] at houtcome
  generalize (link c o fs).result = result at hrun houtcome
  cases houtcome with
  | report => exact ⟨_, ended, report, hrun⟩

/-- A second run is a fixpoint: it discovers the same bundles, succeeds in whatever order its tasks
take their steps, reports the same artifacts and no change of the manifest, and leaves every file
as the first run left it. -/
theorem fixpoint_of_runs {c : Config} {o : Options} {fs : FileSystem} (h : fs.IsTree)
    (hc : c.problem? = none) (hext : '/' ∉ c.extension.toList)
    (hapart : ∀ bundles, (discover c fs).1 = .ok bundles → ManifestApart c fs bundles)
    (hintegral : ∀ m, readManifest c fs = .ok m → m.Integral)
    {files : FileSystem} {ended : List (Task × Except Failure Product)} {report : Report}
    (hrun : Runs c o fs files ended (.ok report)) :
    (discover c files).1 = (discover c fs).1 ∧
      (∃ files' ended' result', Runs c o files files' ended' result') ∧
      ∀ files' ended' result', Runs c o files files' ended' result' →
        result' = .ok ⟨report.artifacts, {}⟩ ∧ Same files files' := by
  have haccepted := c.accepted_iff.mp hc
  obtain ⟨bundles, hplan⟩ := hrun.exists_plan
  have hbundles := (plan_eq_ok_iff.mp hplan).2
  have hmanifest := hapart bundles hbundles
  have hfirst := completed_of_runs h hplan
    (disjoint_tasks haccepted hext h hbundles hmanifest) hrun
  have hw := hfirst.written
  have hsame := discover_onlyArtifacts haccepted hext
    (onlyArtifacts_of_written haccepted hext h hbundles hw)
  have hbundles' : (discover c files).1 = .ok bundles := hsame.trans hbundles
  have hmanifest' : ManifestApart c files bundles := by
    intro b hb
    simp only [hw.address_eq]
    exact hmanifest b hb
  have htree := hw.isTree h
  have hdisjoint' := disjoint_tasks haccepted hext htree hbundles' hmanifest'
  obtain ⟨ended', hlink⟩ := runs_link c o files
  refine ⟨hsame, ⟨_, _, _, hlink⟩, fun files' ended' result' hrun' ↦ ?_⟩
  have hplan' := plan_eq_ok_iff.mpr ⟨haccepted, hbundles'⟩
  have hsecond := completed_of_runs htree hplan' hdisjoint' hrun'
  have hall := alone_of_report hfirst
  have hwrites := writes_again haccepted hext h hbundles hmanifest hw hintegral hall
  have houtcome := hsecond.outcome
  rw [results_again haccepted hext h hbundles hmanifest hw hintegral hall, conclude_ok,
    ← hfirst.artifacts report rfl] at houtcome
  refine ⟨?_, hw.same_again (hwrites ▸ hsecond.written)⟩
  cases houtcome with
  | report r => rfl

theorem readManifest_sample : readManifest sampleConfig sample =
    .ok (.object [("exports", .object [(".", .object [("default", .string "./d/a.x")])])]) :=
  toOption_eq_some_iff.mp (by decide +kernel)

theorem manifestApart_sample (bundles : List Path)
    (hbundles : (discover sampleConfig sample).1 = .ok bundles) :
    ManifestApart sampleConfig sample bundles := by
  have heq : [sampleBundle] = bundles := Except.ok.inj (discover_sample.symm.trans hbundles)
  rw [← heq]
  intro b hb
  obtain rfl := List.mem_singleton.mp hb
  decide

theorem integral_sample (m : Json.Value) (hm : readManifest sampleConfig sample = .ok m) :
    m.Integral := by
  rw [readManifest_sample, Except.ok.injEq] at hm
  subst hm
  refine .object _ fun e he ↦ ?_
  obtain rfl := List.mem_singleton.mp he
  refine .object _ fun e he ↦ ?_
  obtain rfl := List.mem_singleton.mp he
  refine .object _ fun e he ↦ ?_
  obtain rfl := List.mem_singleton.mp he
  exact .string _

theorem alone_sample : ∀ t ∈ tasks [sampleBundle],
    Succeeded (t.alone sampleConfig sampleConfig.options sample) := by
  intro t ht
  rcases List.mem_cons.mp ht with rfl | ht
  · obtain ⟨d, hd⟩ : ∃ d,
        (Task.manifest.prepare sampleConfig sampleConfig.options sample).1 = .ok d := by
      rw [Task.prepare, prepareManifest, readManifest_sample]
      exact ⟨_, rfl⟩
    exact ⟨d.output, (Task.alone_eq_ok_iff _ _).mpr ⟨d, _, hd, writeTarget_sampleManifest, rfl⟩⟩
  · obtain rfl := List.mem_singleton.mp ht
    exact ⟨.artifact (sampleConfig.linkedPath sampleBundle), by rfl⟩

theorem runs_sample : ∃ files ended report,
    Runs sampleConfig sampleConfig.options sample files ended (.ok report) :=
  report_of_alone isTree_sample
    (plan_eq_ok_iff.mpr ⟨sampleConfig.accepted_iff.mp problem?_sample, discover_sample⟩)
    (disjoint_sample _ discover_sample) alone_sample

theorem fixpoint_sample : ∃ files ended report,
    Runs sampleConfig sampleConfig.options sample files ended (.ok report) ∧
      (discover sampleConfig files).1 = .ok [sampleBundle] ∧
      ∀ files' ended' result', Runs sampleConfig sampleConfig.options files files' ended' result' →
        result' = .ok ⟨report.artifacts, {}⟩ ∧ Same files files' := by
  obtain ⟨files, ended, report, hrun⟩ := runs_sample
  obtain ⟨hdiscover, -, hsecond⟩ := fixpoint_of_runs isTree_sample problem?_sample (by decide)
    manifestApart_sample integral_sample hrun
  exact ⟨files, ended, report, hrun, hdiscover.trans discover_sample, hsecond⟩

end BundleLink.Package
