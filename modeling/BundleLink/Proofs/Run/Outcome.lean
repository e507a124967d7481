import BundleLink.Proofs.Path.Order
import BundleLink.Proofs.Run.Interleaving

/-!
What a run comes to does not depend on how its tasks overlap. It is what the tasks come to when each
runs by itself (`completed_of_runs`): their drafts are written, their failures are listed and their
artifacts are reported in the order of their paths. One thing only is left to the order of the
steps: a path that misses a directory where another task makes a file meets nothing or that file,
and the failure says which.
-/

set_option autoImplicit false

namespace BundleLink.Package

open BundleLink.Text BundleLink.Link FileSystem

/-- The same report, or as many tasks with failures that are alike, in any order. -/
inductive SameOutcome (barred : Path → Prop) :
    Except Failure Report → Except Failure Report → Prop
  | report (r : Report) : SameOutcome barred (.ok r) (.ok r)
  | tasks (total : Nat) (failures order failures' : List Failure) : failures.Perm order →
      List.Forall₂ (Failure.Alike barred) order failures' →
      SameOutcome barred (.error (.tasks total failures)) (.error (.tasks total failures'))

/-- Without barred paths the failures are the same in another order. -/
theorem SameOutcome.perm {total total' : Nat} {failures failures' : List Failure}
    (hsame : SameOutcome (fun _ ↦ False) (.error (.tasks total failures))
      (.error (.tasks total' failures'))) : total = total' ∧ failures.Perm failures' := by
  cases hsame with
  | tasks _ _ order _ hperm halike =>
    have horder : order = failures' := by
      refine List.forall₂_eq_eq_eq ▸ halike.imp fun f f' hf ↦ ?_
      cases hf with
      | same f => rfl
      | barred p hp => exact hp.elim
    exact ⟨rfl, horder ▸ hperm⟩

/-! ### Results that are alike -/

section

variable {barred : Path → Prop} {results results' : List (Except Failure Product)}
  (halike : List.Forall₂ (ResultAlike barred) results results')

include halike

theorem failures_alike : List.Forall₂ (Failure.Alike barred) (results.filterMap failure?)
    (results'.filterMap failure?) := by
  induction halike with
  | nil => exact .nil
  | cons hfirst _ ih =>
    cases hfirst with
    | ok product => exact ih
    | error f f' hf => exact .cons hf ih

theorem artifacts_alike : results'.filterMap artifact? = results.filterMap artifact? := by
  induction halike with
  | nil => rfl
  | cons hfirst _ ih =>
    cases hfirst with
    | ok product => rw [List.filterMap_cons, List.filterMap_cons, ih]
    | error f f' hf => exact ih

theorem changes_alike : results'.filterMap changes? = results.filterMap changes? := by
  induction halike with
  | nil => rfl
  | cons hfirst _ ih =>
    cases hfirst with
    | ok product => rw [List.filterMap_cons, List.filterMap_cons, ih]
    | error f f' hf => exact ih

end

/-- Runs whose tasks come to the same in another order come to the same. -/
theorem conclude_alike {barred : Path → Prop}
    {results order results' : List (Except Failure Product)} (hperm : results.Perm order)
    (halike : List.Forall₂ (ResultAlike barred) order results')
    (hties : results.filterMap failure? = [] → ∀ p ∈ results.filterMap artifact?,
      ∀ q ∈ results.filterMap artifact?, p.components = q.components → p = q)
    (hchanges : (results.filterMap changes?).length ≤ 1) :
    SameOutcome barred (conclude results).1 (conclude results').1 := by
  have hfailures := hperm.filterMap failure?
  have hfailures' := failures_alike halike
  have hlength : results.length = results'.length := hperm.length_eq.trans halike.length_eq
  unfold conclude
  cases hnone : results.filterMap failure? with
  | cons f fs =>
    have hnone' : results'.filterMap failure? ≠ [] := by
      intro hnil
      rw [hnil] at hfailures'
      rw [List.forall₂_nil_right_iff.mp hfailures', hnone] at hfailures
      exact absurd hfailures.symm (List.nil_perm.not.mpr (List.cons_ne_nil f fs))
    rw [hnone] at hfailures
    simpa [hnone', hlength] using SameOutcome.tasks results.length _ _ _ hfailures hfailures'
  | nil =>
    rw [hnone, List.nil_perm] at hfailures
    rw [hfailures] at hfailures'
    have hnone' := List.forall₂_nil_left_iff.mp hfailures'
    have hartifacts : Path.sort (results'.filterMap artifact?) =
        Path.sort (results.filterMap artifact?) := by
      rw [artifacts_alike halike]
      exact (Path.sort_eq_of_perm (hperm.filterMap artifact?) (hties hnone)).symm
    have hsame : results'.filterMap changes? = results.filterMap changes? := by
      rw [changes_alike halike]
      have hperm' := hperm.filterMap changes?
      rcases hlist : results.filterMap changes? with _ | ⟨m, rest⟩
      · rwa [hlist, List.nil_perm] at hperm'
      · have hrest : rest = [] := by simpa [hlist] using hchanges
        rw [hlist, hrest, List.singleton_perm] at hperm'
        rw [← hperm', hrest]
    simpa [hnone', hartifacts, ← List.head?_filterMap, hsame] using SameOutcome.report _

/-! ### What the tasks of a run come to -/

section

variable {c : Config} {o : Options} {fs : FileSystem}

theorem changes?_alone_bundle (b : Path) : changes? ((Task.bundle b).alone c o fs) = none := by
  cases halone : (Task.bundle b).alone c o fs with
  | error f => rfl
  | ok product =>
    obtain ⟨d, loc, hd, -, rfl⟩ := (Task.alone_eq_ok_iff c o).mp halone
    obtain ⟨_, _, _, _, _, _, _, houtput⟩ := Task.prepare_bundle_eq_ok hd
    rw [houtput]
    rfl

theorem artifact?_alone_manifest : artifact? (Task.manifest.alone c o fs) = none := by
  cases halone : Task.manifest.alone c o fs with
  | error f => rfl
  | ok product =>
    obtain ⟨d, loc, hd, -, rfl⟩ := (Task.alone_eq_ok_iff c o).mp halone
    obtain ⟨_, _, _, _, _, _, _, _, houtput⟩ := Task.prepare_manifest_eq_ok hd
    rw [houtput]
    rfl

theorem artifact?_alone_bundle {b p : Path}
    (hp : artifact? ((Task.bundle b).alone c o fs) = some p) :
    p = c.linkedPath b ∧ ∃ loc, fs.writeTarget p = .ok loc := by
  cases halone : (Task.bundle b).alone c o fs with
  | error f => simp [halone, artifact?] at hp
  | ok product =>
    obtain ⟨d, loc, hd, htarget, rfl⟩ := (Task.alone_eq_ok_iff c o).mp halone
    obtain ⟨_, _, _, _, _, _, _, houtput⟩ := Task.prepare_bundle_eq_ok hd
    rw [halone, houtput, artifact?, Option.some.injEq] at hp
    exact ⟨hp.symm, loc, hp ▸ htarget⟩

variable (c o fs) in
/-- What the tasks of a run come to by themselves. -/
def results (bundles : List Path) : List (Except Failure Product) :=
  (tasks bundles).map (Task.alone c o fs)

theorem filterMap_changes?_results (bundles : List Path) :
    (results c o fs bundles).filterMap changes? =
      (changes? (Task.manifest.alone c o fs)).toList := by
  have hnone : (bundles.map fun b ↦ (Task.bundle b).alone c o fs).filterMap changes? = [] := by
    rw [List.filterMap_eq_nil_iff]
    intro r hr
    obtain ⟨b, -, rfl⟩ := List.mem_map.mp hr
    exact changes?_alone_bundle b
  rw [results, tasks, List.map_cons, List.filterMap_cons, List.map_map]
  cases changes? (Task.manifest.alone c o fs) <;> simpa using hnone

theorem filterMap_artifact?_results (bundles : List Path) :
    (results c o fs bundles).filterMap artifact? =
      bundles.filterMap fun b ↦ artifact? ((Task.bundle b).alone c o fs) := by
  rw [results, tasks, List.map_cons, List.filterMap_cons, artifact?_alone_manifest, List.map_map,
    List.filterMap_map]
  rfl

/-- If no task fails, every bundle has its artifact. -/
theorem artifacts_of_no_failure {bundles : List Path}
    (hnone : (results c o fs bundles).filterMap failure? = []) :
    (results c o fs bundles).filterMap artifact? = bundles.map c.linkedPath := by
  rw [filterMap_artifact?_results, ← List.filterMap_eq_map]
  refine List.filterMap_congr fun b hb ↦ ?_
  cases halone : (Task.bundle b).alone c o fs with
  | error f =>
    have hmem : (Task.bundle b).alone c o fs ∈ results c o fs bundles :=
      List.mem_map_of_mem (List.mem_cons_of_mem _ (List.mem_map_of_mem hb))
    have hfailure := List.filterMap_eq_nil_iff.mp hnone _ hmem
    simp [halone, failure?] at hfailure
  | ok product =>
    obtain ⟨d, loc, hd, -, rfl⟩ := (Task.alone_eq_ok_iff c o).mp halone
    obtain ⟨_, _, _, _, _, _, _, houtput⟩ := Task.prepare_bundle_eq_ok hd
    rw [houtput, artifact?, Function.comp_apply]

/-- Tasks that spare one another make artifacts with different names. -/
theorem artifacts_no_ties (h : fs.IsTree) {bundles : List Path}
    (hdisjoint : Disjoint c fs (tasks bundles)) {p q : Path}
    (hp : p ∈ (results c o fs bundles).filterMap artifact?)
    (hq : q ∈ (results c o fs bundles).filterMap artifact?)
    (hcomponents : p.components = q.components) : p = q := by
  rw [filterMap_artifact?_results] at hp hq
  obtain ⟨b, hb, hpb⟩ := List.mem_filterMap.mp hp
  obtain ⟨b', hb', hqb'⟩ := List.mem_filterMap.mp hq
  obtain ⟨rfl, loc, hloc⟩ := artifact?_alone_bundle hpb
  obtain ⟨rfl, loc', hloc'⟩ := artifact?_alone_bundle hqb'
  by_contra hne
  have hspares := hdisjoint.spares (List.mem_cons_of_mem _ (List.mem_map_of_mem hb))
    (List.mem_cons_of_mem _ (List.mem_map_of_mem hb'))
    (fun heq : Task.bundle b = Task.bundle b' ↦ hne (by rw [Task.bundle.inj heq]))
  have hsame : loc' = loc := by
    rw [← address_of_writeTarget h hloc, ← address_of_writeTarget h hloc',
      address_eq_of_components_eq fs hcomponents]
  exact (hspares.1 loc hloc).2 (hsame ▸ hloc')

end

/-! ### Whole runs -/

/-- What a run that found these bundles comes to, told from what each of its tasks comes to by
itself. -/
structure Completed (c : Config) (o : Options) (fs : FileSystem) (bundles : List Path)
    (files : FileSystem) (result : Except Failure Report) : Prop where
  written : Written fs (writes c o fs (tasks bundles)) files
  outcome :
    SameOutcome (Blocked c o fs (tasks bundles)) (conclude (results c o fs bundles)).1 result
  /-- Without barred paths the failures are the same too. -/
  exact_outcome : (∀ p, ¬Blocked c o fs (tasks bundles) p) →
    SameOutcome (fun _ ↦ False) (conclude (results c o fs bundles)).1 result
  artifact : ∀ b ∈ bundles, ∀ text linked log loc, fs.readText b = .ok text →
    linkSource text b o = (.ok linked, log) → fs.writeTarget (c.linkedPath b) = .ok loc →
    files.readBytes (c.linkedPath b) = .ok (bytesOf linked.code)
  artifacts : ∀ report, result = .ok report →
    report.artifacts = Path.sort (bundles.map c.linkedPath)

section

variable {c : Config} {o : Options} {fs : FileSystem}

/-- What a run comes to, once it is known what its tasks come to. -/
theorem sameOutcome_of_ended (h : fs.IsTree) {bundles : List Path} {barred : Path → Prop}
    (hdisjoint : Disjoint c fs (tasks bundles)) {ended : List (Task × Except Failure Product)}
    (hperm : (ended.map Prod.fst).Perm (tasks bundles))
    (hended : ∀ x ∈ ended, ResultAlike barred (x.1.alone c o fs) x.2) :
    SameOutcome barred (conclude (results c o fs bundles)).1
      (conclude (ended.map Prod.snd)).1 := by
  have horder : (results c o fs bundles).Perm (ended.map fun x ↦ x.1.alone c o fs) := by
    simpa [results, Function.comp_def] using (hperm.map (Task.alone c o fs)).symm
  refine conclude_alike horder ?_ (fun _ p hp q hq ↦ artifacts_no_ties h hdisjoint hp hq) ?_
  · rw [List.forall₂_map_left_iff, List.forall₂_map_right_iff, List.forall₂_same]
    exact hended
  · rw [filterMap_changes?_results]
    cases changes? (Task.manifest.alone c o fs) <;> simp

/-- Every way to run the tasks of a plan comes to what they come to by themselves. -/
theorem completed_of_runs (h : fs.IsTree) {bundles : List Path}
    (hplan : (plan c fs).1 = .ok bundles) (hdisjoint : Disjoint c fs (tasks bundles))
    {files : FileSystem} {ended : List (Task × Except Failure Product)}
    {result : Except Failure Report} (hrun : Runs c o fs files ended result) :
    Completed c o fs bundles files result := by
  obtain ⟨hconsistent, rfl⟩ := consistent_of_runs h hplan hdisjoint hrun
  have hperm : (ended.map Prod.fst).Perm (tasks bundles) := by simpa using hconsistent.perm
  have hwritten : Written fs (writes c o fs (tasks bundles)) files :=
    hconsistent.written.perm (hperm.filterMap _)
  have houtcome := sameOutcome_of_ended h hdisjoint hperm hconsistent.ended
  refine ⟨hwritten, houtcome, fun hfree ↦ ?_, ?_, fun report hreport ↦ ?_⟩
  · exact sameOutcome_of_ended h hdisjoint hperm
      fun x hx ↦ (hconsistent.ended x hx).mono fun p hp ↦ hfree p hp
  · intro b hb text linked log loc hread hlink htarget
    refine hwritten.readBytes_written h (w := (loc, bytesOf linked.code)) ?_ htarget
    refine List.mem_filterMap.mpr
      ⟨.bundle b, List.mem_cons_of_mem _ (List.mem_map_of_mem hb), ?_⟩
    exact (Task.written?_eq_some_iff c o).mpr
      ⟨_, Task.prepare_bundle_of_linkSource hread hlink, htarget, rfl⟩
  · rw [hreport] at houtcome
    generalize hreference : (conclude (results c o fs bundles)).1 = reference at houtcome
    cases houtcome with
    | report r =>
      rw [conclude] at hreference
      split_ifs at hreference with hnone
      rw [← artifacts_of_no_failure (List.isEmpty_iff.mp hnone), ← Except.ok.inj hreference]

/-! ### The number of tasks in flight -/

theorem prepare_withJobs (c : Config) (jobs : Nat) (t : Task) :
    t.prepare { c with jobs := jobs } o fs = t.prepare c o fs := by
  cases t with
  | manifest =>
    have hread : readManifest { c with jobs := jobs } fs = readManifest c fs := rfl
    have hupdate : Manifest.update { c with jobs := jobs } = Manifest.update c := rfl
    have hdraft : manifestDraft { c with jobs := jobs } = manifestDraft c := by
      funext r
      cases r <;> rfl
    simp only [Task.prepare, prepareManifest, hread, hupdate, hdraft]
  | bundle b =>
    have hlinked : Config.linkedPath { c with jobs := jobs } = c.linkedPath := rfl
    simp only [Task.prepare, prepareBundle, hlinked]

/-- What the tasks come to by themselves does not depend on how many may be in flight. -/
theorem completed_withJobs {bundles : List Path} {jobs : Nat} {files : FileSystem}
    {result : Except Failure Report}
    (hcompleted : Completed { c with jobs := jobs } o fs bundles files result) :
    Completed c o fs bundles files result := by
  have hwritten : Task.written? { c with jobs := jobs } o fs = Task.written? c o fs := by
    funext t
    cases t <;> simp only [Task.written?, prepare_withJobs] <;> rfl
  have halone : Task.alone { c with jobs := jobs } o fs = Task.alone c o fs := by
    funext t
    simp only [Task.alone, Task.run, prepare_withJobs]
  have hwrites : writes { c with jobs := jobs } o fs = writes c o fs := by
    funext ts
    rw [writes, writes, hwritten]
  have hresults : results { c with jobs := jobs } o fs = results c o fs := by
    funext ts
    rw [results, results, halone]
  have hblocked : Blocked { c with jobs := jobs } o fs = Blocked c o fs := by
    funext ts p
    rw [Blocked, Blocked, hwrites]
    rfl
  obtain ⟨hfiles, houtcome, hexact, hartifact, hartifacts⟩ := hcompleted
  rw [hwrites] at hfiles
  rw [hblocked, hresults] at houtcome hexact
  exact ⟨hfiles, houtcome, hexact, hartifact, hartifacts⟩

end

/-- What a run comes to, told from what its tasks come to by themselves. -/
inductive Determined (c : Config) (o : Options) (fs : FileSystem) :
    FileSystem → Except Failure Report → Prop
  | refused (e : Failure) : (discover c fs).1 = .error e → Determined c o fs fs (.error e)
  | completed (bundles : List Path) (files : FileSystem) (result : Except Failure Report) :
      (discover c fs).1 = .ok bundles → Completed c o fs bundles files result →
      Determined c o fs files result

theorem Determined.same {c : Config} {o : Options} {fs files files' : FileSystem}
    {result result' : Except Failure Report} (hdetermined : Determined c o fs files result)
    (hdetermined' : Determined c o fs files' result') : Same files files' := by
  cases hdetermined with
  | refused e hdiscover =>
    cases hdetermined' with
    | refused e' hdiscover' => exact ⟨rfl, fun _ ↦ rfl⟩
    | completed bundles' _ _ hdiscover' hcompleted' => simp [hdiscover] at hdiscover'
  | completed bundles _ _ hdiscover hcompleted =>
    cases hdetermined' with
    | refused e' hdiscover' => simp [hdiscover] at hdiscover'
    | completed bundles' _ _ hdiscover' hcompleted' =>
      rw [hdiscover, Except.ok.injEq] at hdiscover'
      subst hdiscover'
      exact hcompleted.written.same hcompleted'.written

theorem determined_of_runs {c : Config} {o : Options} {fs : FileSystem} (h : fs.IsTree)
    (hc : c.Accepted)
    (hdisjoint : ∀ bundles, (discover c fs).1 = .ok bundles → Disjoint c fs (tasks bundles))
    {files : FileSystem} {ended : List (Task × Except Failure Product)}
    {result : Except Failure Report} (hrun : Runs c o fs files ended result) :
    Determined c o fs files result := by
  cases hdiscover : (discover c fs).1 with
  | error e =>
    have hplan := plan_eq_error_of_discover hc hdiscover
    obtain ⟨rfl, -, rfl⟩ := hrun.of_plan_eq_error hplan
    exact .refused e hdiscover
  | ok bundles =>
    have hplan := plan_eq_ok_iff.mpr ⟨hc, hdiscover⟩
    exact .completed bundles _ _ hdiscover
      (completed_of_runs h hplan (hdisjoint bundles hdiscover) hrun)

/-- However many tasks may be in flight and however their steps interleave, a run comes to an end,
and to the same one as the run without overlaps: to what its tasks come to by themselves. -/
theorem determined_of_interleaving {c : Config} {o : Options} {fs : FileSystem} (h : fs.IsTree)
    (hc : c.problem? = none)
    (hdisjoint : ∀ bundles, (discover c fs).1 = .ok bundles → Disjoint c fs (tasks bundles))
    {jobs : Nat} (hjobs : 0 < jobs) :
    (∀ s : Progress, ∃ files ended, Steps { c with jobs := jobs } o s ⟨files, [], [], ended⟩) ∧
    ∀ files ended result, Runs { c with jobs := jobs } o fs files ended result →
      Determined c o fs files result ∧ Same (link c o fs).files files := by
  have haccepted := c.accepted_iff.mp hc
  refine ⟨exists_end hjobs, fun files ended result hrun ↦ ?_⟩
  have hdetermined : Determined c o fs files result := by
    have hothers := determined_of_runs h (haccepted.withJobs hjobs) hdisjoint hrun
    cases hothers with
    | refused e hdiscover => exact .refused e hdiscover
    | completed bundles _ _ hdiscover hcompleted =>
      exact .completed bundles _ _ hdiscover (completed_withJobs hcompleted)
  obtain ⟨_, hlink⟩ := runs_link c o fs
  exact ⟨hdetermined, (determined_of_runs h haccepted hdisjoint hlink).same hdetermined⟩

/-- A package with one bundle, which is empty. -/
def sample : FileSystem where
  entries :=
    [([bytesOf "m"],
        .file (bytesOf "\x7b\"exports\":\x7b\".\":\x7b\"default\":\"./d/a.x\"\x7d\x7d\x7d")),
      ([bytesOf "d"], .directory), ([bytesOf "d", bytesOf "a.x"], .file [])]
  current := []

def sampleConfig : Config where
  bundleDir := "d"
  extension := "x"
  manifest := "m"

def sampleBundle : Path :=
  .ofString "d/a.x"

theorem problem?_sample : sampleConfig.problem? = none := by rfl

theorem isTree_sample : sample.IsTree := by decide

theorem discover_sample : (discover sampleConfig sample).1 = .ok [sampleBundle] :=
  toOption_eq_some_iff.mp (by decide +kernel)

theorem writeTarget_sampleBundle :
    sample.writeTarget sampleBundle = .ok [bytesOf "d", bytesOf "a.x"] := by rfl

theorem writeTarget_sampleArtifact :
    sample.writeTarget (sampleConfig.linkedPath sampleBundle) =
      .ok [bytesOf "d", bytesOf "a.x.linked.x"] := by rfl

theorem writeTarget_sampleManifest :
    sample.writeTarget sampleConfig.manifestPath = .ok [bytesOf "m"] := by rfl

theorem disjoint_sample (bundles : List Path)
    (hbundles : (discover sampleConfig sample).1 = .ok bundles) :
    Disjoint sampleConfig sample (tasks bundles) := by
  have heq : [sampleBundle] = bundles := Except.ok.inj (discover_sample.symm.trans hbundles)
  rw [← heq]
  simp [Disjoint, tasks, Task.Spares, Task.source, Task.target, writeTarget_sampleBundle,
    writeTarget_sampleArtifact, writeTarget_sampleManifest]

theorem determined_link_sample :
    Determined sampleConfig sampleConfig.options sample
      (link { sampleConfig with jobs := 2 } sampleConfig.options sample).files
      (link { sampleConfig with jobs := 2 } sampleConfig.options sample).result :=
  (runs_link { sampleConfig with jobs := 2 } sampleConfig.options sample).elim fun _ hrun ↦
    ((determined_of_interleaving isTree_sample problem?_sample disjoint_sample
      (by decide)).2 _ _ _ hrun).1

/-- The same package with its manifest below the artifact of the bundle. -/
def nestedConfig : Config :=
  { sampleConfig with manifest := "d/a.x.linked.x/m" }

theorem problem?_nested : nestedConfig.problem? = none := by rfl

theorem discover_withManifest (c : Config) (manifest : String) (fs : FileSystem) :
    discover { c with manifest := manifest } fs = discover c fs := rfl

theorem discover_nested : (discover nestedConfig sample).1 = .ok [sampleBundle] := by
  rw [nestedConfig, discover_withManifest]
  exact discover_sample

theorem disjoint_nested (bundles : List Path)
    (hbundles : (discover nestedConfig sample).1 = .ok bundles) :
    Disjoint nestedConfig sample (tasks bundles) := by
  have heq : [sampleBundle] = bundles := Except.ok.inj (discover_nested.symm.trans hbundles)
  have hmanifest : sample.writeTarget nestedConfig.manifestPath = .error .notFound := by rfl
  have hartifact : sample.writeTarget (nestedConfig.linkedPath sampleBundle) =
      .ok [bytesOf "d", bytesOf "a.x.linked.x"] := by rfl
  rw [← heq]
  simp [Disjoint, tasks, Task.Spares, Task.source, Task.target, hmanifest, hartifact]

/-- When the bundle is linked first, its artifact bars the path of the manifest. -/
theorem runs_nested : ∃ files ended, Runs nestedConfig nestedConfig.options sample files ended
    (.error (.tasks 2 [.file nestedConfig.manifestPath .notADirectory])) := by
  have haccepted : nestedConfig.Accepted := nestedConfig.accepted_iff.mp problem?_nested
  have hplan := plan_eq_ok_iff.mpr ⟨haccepted, discover_nested⟩
  let linked := (Task.bundle sampleBundle).run nestedConfig nestedConfig.options sample
  let updated := Task.manifest.run nestedConfig nestedConfig.options linked.files
  have hsteps : Steps nestedConfig nestedConfig.options ⟨sample, tasks [sampleBundle], [], []⟩
      ⟨updated.files, [], [],
        [(.bundle sampleBundle, linked.result), (.manifest, updated.result)]⟩ :=
    .head (.read sample [.manifest] [] (.bundle sampleBundle) [] [] (by decide)) <|
      .head (.write sample [.manifest] [] [] (.bundle sampleBundle) _ []) <|
      .head (.read linked.files [] [] .manifest [] _ (by decide)) <|
      .single (.write linked.files [] [] [] .manifest _ _)
  have hlinked : linked.result = .ok (.artifact (nestedConfig.linkedPath sampleBundle)) := by rfl
  have hupdated : updated.result = .error (.file nestedConfig.manifestPath .notADirectory) := by rfl
  have hrun := Runs.ended _ _ _ hplan hsteps
  rw [hlinked, hupdated] at hrun
  exact ⟨_, _, hrun⟩

/-- Which problem a barred path meets depends on the order of the steps. -/
theorem not_sameOutcome_nested :
    sample.IsTree ∧ nestedConfig.problem? = none ∧
      (discover nestedConfig sample).1 = .ok [sampleBundle] ∧
      Disjoint nestedConfig sample (tasks [sampleBundle]) ∧
      ∃ files ended result, Runs nestedConfig nestedConfig.options sample files ended result ∧
        ¬SameOutcome (fun _ ↦ False)
          (conclude (results nestedConfig nestedConfig.options sample [sampleBundle])).1
          result := by
  obtain ⟨files, ended, hrun⟩ := runs_nested
  have halone : (conclude (results nestedConfig nestedConfig.options sample [sampleBundle])).1 =
      .error (.tasks 2 [.file nestedConfig.manifestPath .notFound]) := by rfl
  refine ⟨isTree_sample, problem?_nested, discover_nested, disjoint_nested _ discover_nested,
    files, ended, _, hrun, fun hsame ↦ ?_⟩
  rw [halone] at hsame
  have hfailures := hsame.perm.2
  rw [List.singleton_perm_singleton] at hfailures
  cases hfailures

end BundleLink.Package
