import BundleLink.Proofs.FileSystem.Links
import BundleLink.Proofs.Run.Account

/-!
What a run leaves behind, whatever its tasks do to one another. At every moment the files are those
from before the run but for files that tasks have drafted, each at the place that the target of its
task names (`Snapshot`). Every step keeps this (`Footprint.step`), so it holds of all runs, over
symbolic links too (`footprint_of_runs`). A report tells that every task has written its target
(`reported_of_footprint`).
-/

set_option autoImplicit false

namespace BundleLink.Package

open BundleLink.Text BundleLink.Link FileSystem

variable {c : Config} {o : Options} {fs : FileSystem} {ts : List Task}

/-- The files in the middle of a run: all that is new was drafted by one of the tasks, from files of
that run, and stands where its target leads. -/
structure Snapshot (c : Config) (o : Options) (fs : FileSystem) (ts : List Task)
    (mid : FileSystem) : Prop where
  filled : Filled fs mid
  drafted : ∀ loc, mid.lookup? loc ≠ fs.lookup? loc → ∃ t ∈ ts, ∃ before d, Filled fs before ∧
    (t.prepare c o before).1 = .ok d ∧ fs.writeTarget (t.target c) = .ok loc ∧
    mid.lookup? loc = some (.file d.content)

/-- The files that a task has read, which it has not written yet itself. -/
def Before (c : Config) (o : Options) (fs : FileSystem) (ts : List Task) (t : Task)
    (mid : FileSystem) : Prop :=
  ∃ others, (t :: others).Perm ts ∧ Snapshot c o fs others mid

/-- A task has read in the middle of a run and then written. -/
def Done (c : Config) (o : Options) (fs : FileSystem) (ts : List Task) (files : FileSystem)
    (t : Task) (product : Product) : Prop :=
  ∃ mid d loc content, Before c o fs ts t mid ∧ (t.prepare c o mid).1 = .ok d ∧
    d.output = product ∧ fs.writeTarget (t.target c) = .ok loc ∧
    files.lookup? loc = some (.file content)

/-- What every step of a run keeps. -/
structure Footprint (c : Config) (o : Options) (fs : FileSystem) (ts : List Task) (s : Progress) :
    Prop where
  perm : (s.waiting ++ s.inFlight.map Prod.fst ++ s.ended.map Prod.fst).Perm ts
  snapshot : Snapshot c o fs (s.ended.map Prod.fst) s.files
  prepared : ∀ x ∈ s.inFlight, ∃ mid, Before c o fs ts x.1 mid ∧ x.2 = x.1.prepare c o mid
  ended : ∀ x ∈ s.ended, ∀ product, x.2 = .ok product → Done c o fs ts s.files x.1 product

theorem Snapshot.mono {ts' : List Task} {mid : FileSystem} (hs : Snapshot c o fs ts mid)
    (hsub : ts ⊆ ts') : Snapshot c o fs ts' mid := by
  refine ⟨hs.filled, fun loc hne ↦ ?_⟩
  obtain ⟨t, ht, hdrafted⟩ := hs.drafted loc hne
  exact ⟨t, hsub ht, hdrafted⟩

theorem Before.filled {t : Task} {mid : FileSystem} (hmid : Before c o fs ts t mid) :
    Filled fs mid := by
  obtain ⟨_, -, hsnapshot⟩ := hmid
  exact hsnapshot.filled

theorem Footprint.start (fs : FileSystem) (ts : List Task) :
    Footprint c o fs ts ⟨fs, ts, [], []⟩ :=
  ⟨by simp, ⟨.refl fs, fun _ hne ↦ absurd rfl hne⟩, by simp, by simp⟩

section

variable (h : fs.IsSound)

include h

/-- What no task writes is read as before. -/
theorem Snapshot.readText {mid : FileSystem} (hs : Snapshot c o fs ts mid) {p : Path}
    {text : List Char} (hread : mid.readText p = .ok text)
    (hclear : ∀ t ∈ ts, ∀ loc, fs.writeTarget (t.target c) = .ok loc →
      fs.writeTarget p ≠ .ok loc) : fs.readText p = .ok text := by
  refine readText_filled h hs.filled hread fun loc hloc ↦ ?_
  by_contra hne
  obtain ⟨t, ht, -, -, -, -, htarget, -⟩ := hs.drafted loc hne
  exact hclear t ht loc htarget hloc

/-- A task writes its draft where its target led at first. -/
theorem Snapshot.put {files mid : FileSystem} (hs : Snapshot c o fs ts files)
    (hmid : Filled fs mid) {t : Task} (ht : t ∈ ts) {d : Draft Product}
    (hd : (t.prepare c o mid).1 = .ok d) {loc : Address}
    (hloc : fs.writeTarget (t.target c) = .ok loc) :
    Snapshot c o fs ts (files.put loc (.file d.content)) := by
  refine ⟨hs.filled.put h hloc d.content, fun l hne ↦ ?_⟩
  rw [lookup?_put files (ne_nil_of_writeTarget h hloc)] at hne ⊢
  by_cases hl : l = loc
  · rw [if_pos hl]
    exact ⟨t, ht, mid, d, hmid, hd, hl ▸ hloc, rfl⟩
  · rw [if_neg hl] at hne ⊢
    exact hs.drafted l hne

/-- A task that ends leaves the files as they are, or its draft where its target led at first. -/
theorem finish_cases {files : FileSystem} (hs : Snapshot c o fs ts files) {t : Task}
    (mid : FileSystem) :
    (((t.prepare c o mid).finish files).files = files ∧
        ∃ f, ((t.prepare c o mid).finish files).result = .error f) ∨
      ∃ (d : Draft Product) (loc : Address), (t.prepare c o mid).1 = .ok d ∧
        fs.writeTarget (t.target c) = .ok loc ∧
        ((t.prepare c o mid).finish files).files = files.put loc (.file d.content) ∧
        ((t.prepare c o mid).finish files).result = .ok d.output := by
  rw [Prepared.finish]
  cases hd : (t.prepare c o mid).1 with
  | error f => exact .inl ⟨rfl, f, rfl⟩
  | ok d =>
    simp only [Draft.commit, FileSystem.write, Task.target_of_prepare hd]
    cases htarget : files.writeTarget (t.target c) with
    | error problem => exact .inl ⟨rfl, _, rfl⟩
    | ok loc => exact .inr ⟨d, loc, rfl, (writeTarget_filled h hs.filled).mp htarget, rfl, rfl⟩

omit h in
/-- A file stays a file when another one is written. -/
theorem Done.put {files : FileSystem} {t : Task} {product : Product}
    (hdone : Done c o fs ts files t product) {loc : Address} (hloc : loc ≠ []) (content : Bytes) :
    Done c o fs ts (files.put loc (.file content)) t product := by
  obtain ⟨mid, d, loc', content', hmid, hd, houtput, hloc', hfile⟩ := hdone
  by_cases hsame : loc' = loc
  · refine ⟨mid, d, loc', content, hmid, hd, houtput, hloc', ?_⟩
    rw [lookup?_put files hloc, if_pos hsame]
  · refine ⟨mid, d, loc', content', hmid, hd, houtput, hloc', ?_⟩
    rw [lookup?_put files hloc, if_neg hsame, hfile]

/-- Reading and writing keep the footprint of a run. -/
theorem Footprint.step {s s' : Progress} (hs : Footprint c o fs ts s) (hstep : Step c o s s') :
    Footprint c o fs ts s' := by
  have hperm' := (perm_of_step hstep).trans hs.perm
  obtain ⟨hperm, hsnapshot, hprepared, hended⟩ := hs
  cases hstep with
  | read files before after t inFlight ended hjobs =>
    refine ⟨hperm', hsnapshot, fun x hx ↦ ?_, hended⟩
    rcases List.mem_cons.mp hx with rfl | hx
    · refine ⟨files, ⟨before ++ after ++ inFlight.map Prod.fst ++ ended.map Prod.fst, ?_,
        hsnapshot.mono (List.subset_append_right _ _)⟩, rfl⟩
      refine List.Perm.trans ?_ hperm
      simpa using List.perm_middle.symm
    · exact hprepared x hx
  | write files waiting before after t p ended =>
    obtain ⟨mid, hmid, hp⟩ := hprepared (t, p) (by simp)
    have hothers : ∀ x ∈ before ++ after, ∃ mid, Before c o fs ts x.1 mid ∧
        x.2 = x.1.prepare c o mid := by
      intro x hx
      apply hprepared x
      rcases List.mem_append.mp hx with hx | hx
      · exact List.mem_append_left _ hx
      · exact List.mem_append_right _ (List.mem_cons_of_mem _ hx)
    simp only at hp
    subst hp
    have hlonger : Snapshot c o fs
        ((ended ++ [(t, ((t.prepare c o mid).finish files).result)]).map Prod.fst) files :=
      hsnapshot.mono (by simp)
    rcases finish_cases h hsnapshot mid with
      ⟨hfiles, f, hresult⟩ | ⟨d, loc, hd, hloc, hfiles, hresult⟩
    · refine ⟨hperm', hfiles ▸ hlonger, hothers, fun x hx product hproduct ↦ ?_⟩
      rw [hfiles]
      rcases List.mem_append.mp hx with hx | hx
      · exact hended x hx product hproduct
      · rw [List.mem_singleton.mp hx, hresult] at hproduct
        cases hproduct
    · have hne := ne_nil_of_writeTarget h hloc
      refine ⟨hperm', hfiles ▸ hlonger.put h hmid.filled (by simp) hd hloc, hothers,
        fun x hx product hproduct ↦ ?_⟩
      rw [hfiles]
      rcases List.mem_append.mp hx with hx | hx
      · exact (hended x hx product hproduct).put hne d.content
      · obtain rfl := List.mem_singleton.mp hx
        rw [hresult, Except.ok.injEq] at hproduct
        refine ⟨mid, d, loc, d.content, hmid, hd, hproduct, hloc, ?_⟩
        rw [lookup?_put files hne, if_pos rfl]

theorem Footprint.steps {s s' : Progress} (hs : Footprint c o fs ts s) (hsteps : Steps c o s s') :
    Footprint c o fs ts s' := by
  induction hsteps with
  | refl => exact hs
  | tail _ hstep ih => exact ih.step h hstep

/-- What is known of every run that got as far as its tasks. -/
theorem footprint_of_runs {bundles : List Path} (hplan : (plan c fs).1 = .ok bundles)
    {files : FileSystem} {ended : List (Task × Except Failure Product)}
    {result : Except Failure Report} (hrun : Runs c o fs files ended result) :
    Footprint c o fs (tasks bundles) ⟨files, [], [], ended⟩ ∧
      result = (conclude (ended.map Prod.snd)).1 := by
  obtain ⟨hsteps, hresult⟩ := hrun.steps hplan
  exact ⟨(Footprint.start fs _).steps h hsteps, hresult⟩

theorem snapshot_of_runs {bundles : List Path} (hplan : (plan c fs).1 = .ok bundles)
    {files : FileSystem} {ended : List (Task × Except Failure Product)}
    {result : Except Failure Report} (hrun : Runs c o fs files ended result) :
    Snapshot c o fs (tasks bundles) files := by
  have hfootprint := (footprint_of_runs h hplan hrun).1
  have hperm : (ended.map Prod.fst).Perm (tasks bundles) := by simpa using hfootprint.perm
  exact hfootprint.snapshot.mono hperm.subset

end

/-! ### Reports -/

/-- What a report tells of the tasks of its run. -/
structure Reported (c : Config) (o : Options) (fs : FileSystem) (bundles : List Path)
    (files : FileSystem) (report : Report) : Prop where
  artifacts : ∀ a, a ∈ report.artifacts ↔ ∃ b ∈ bundles, a = c.linkedPath b
  bundle : ∀ b ∈ bundles,
    Done c o fs (tasks bundles) files (.bundle b) (.artifact (c.linkedPath b))
  manifest : Done c o fs (tasks bundles) files .manifest (.manifest report.manifest)

/-- The task of a bundle yields its artifact and nothing else. -/
theorem product_of_done_bundle {files : FileSystem} {b : Path} {product : Product}
    (hdone : Done c o fs ts files (.bundle b) product) : product = .artifact (c.linkedPath b) := by
  obtain ⟨mid, d, -, -, -, hd, rfl, -⟩ := hdone
  obtain ⟨_, _, _, _, _, _, _, houtput⟩ := Task.prepare_bundle_eq_ok hd
  exact houtput

/-- The task of the manifest yields changes and nothing else. -/
theorem product_of_done_manifest {files : FileSystem} {product : Product}
    (hdone : Done c o fs ts files .manifest product) :
    ∃ changes, product = .manifest changes := by
  obtain ⟨mid, d, -, -, -, hd, rfl, -⟩ := hdone
  obtain ⟨_, _, u, _, _, _, _, _, houtput⟩ := Task.prepare_manifest_eq_ok hd
  exact ⟨u.changes, houtput⟩

section

variable {bundles : List Path} {files : FileSystem}
  {ended : List (Task × Except Failure Product)}
  (hfootprint : Footprint c o fs (tasks bundles) ⟨files, [], [], ended⟩)
  (hsucceeded : ∀ r ∈ ended.map Prod.snd, Succeeded r)

include hfootprint hsucceeded

/-- If no task fails, what has ended is the task of the manifest or that of a bundle. -/
theorem ended_cases {x : Task × Except Failure Product} (hx : x ∈ ended) :
    (∃ changes, x = (.manifest, .ok (.manifest changes)) ∧
        Done c o fs (tasks bundles) files .manifest (.manifest changes)) ∨
      ∃ b ∈ bundles, x = (.bundle b, .ok (.artifact (c.linkedPath b))) ∧
        Done c o fs (tasks bundles) files (.bundle b) (.artifact (c.linkedPath b)) := by
  have hperm : (ended.map Prod.fst).Perm (tasks bundles) := by simpa using hfootprint.perm
  obtain ⟨product, hproduct⟩ := hsucceeded x.2 (List.mem_map_of_mem hx)
  have hdone := hfootprint.ended x hx product hproduct
  obtain ⟨t, r⟩ := x
  subst hproduct
  rcases List.mem_cons.mp (hperm.subset (List.mem_map_of_mem hx)) with rfl | ht
  · obtain ⟨changes, rfl⟩ := product_of_done_manifest hdone
    exact .inl ⟨changes, rfl, hdone⟩
  · obtain ⟨b, hb, rfl⟩ := List.mem_map.mp ht
    obtain rfl := product_of_done_bundle hdone
    exact .inr ⟨b, hb, rfl, hdone⟩

theorem artifact_of_mem {b : Path} (hb : b ∈ bundles) :
    (.bundle b, .ok (.artifact (c.linkedPath b))) ∈ ended ∧
      Done c o fs (tasks bundles) files (.bundle b) (.artifact (c.linkedPath b)) := by
  have hperm : (ended.map Prod.fst).Perm (tasks bundles) := by simpa using hfootprint.perm
  have htask : Task.bundle b ∈ tasks bundles := List.mem_cons_of_mem _ (List.mem_map_of_mem hb)
  obtain ⟨x, hx, hfirst⟩ := List.mem_map.mp (hperm.symm.subset htask)
  rcases ended_cases hfootprint hsucceeded hx with ⟨_, rfl, -⟩ | ⟨b', -, rfl, hdone⟩
  · cases hfirst
  · cases hfirst
    exact ⟨hx, hdone⟩

theorem exists_changes : ∃ changes, (.manifest, .ok (.manifest changes)) ∈ ended := by
  have hperm : (ended.map Prod.fst).Perm (tasks bundles) := by simpa using hfootprint.perm
  obtain ⟨x, hx, hfirst⟩ := List.mem_map.mp (hperm.symm.subset List.mem_cons_self)
  rcases ended_cases hfootprint hsucceeded hx with ⟨changes, rfl, -⟩ | ⟨b, -, rfl, -⟩
  · exact ⟨changes, hx⟩
  · cases hfirst

theorem mem_artifacts_iff (a : Path) :
    a ∈ (ended.map Prod.snd).filterMap artifact? ↔ ∃ b ∈ bundles, a = c.linkedPath b := by
  rw [List.mem_filterMap]
  constructor
  · rintro ⟨r, hr, ha⟩
    obtain ⟨x, hx, rfl⟩ := List.mem_map.mp hr
    rcases ended_cases hfootprint hsucceeded hx with ⟨_, rfl, -⟩ | ⟨b, hb, rfl, -⟩
    · cases ha
    · exact ⟨b, hb, (Option.some.inj ha).symm⟩
  · rintro ⟨b, hb, rfl⟩
    have hmem := (artifact_of_mem hfootprint hsucceeded hb).1
    exact ⟨_, List.mem_map_of_mem hmem, rfl⟩

/-- The changes in the report are those of the task of the manifest. -/
theorem done_manifest : Done c o fs (tasks bundles) files .manifest
    (.manifest (((ended.map Prod.snd).findSome? changes?).getD {})) := by
  cases hfound : (ended.map Prod.snd).findSome? changes? with
  | none =>
    obtain ⟨changes, hmem⟩ := exists_changes hfootprint hsucceeded
    have hnone := List.findSome?_eq_none_iff.mp hfound _ (List.mem_map_of_mem hmem)
    cases hnone
  | some changes =>
    obtain ⟨r, hr, hchanges⟩ := List.exists_of_findSome?_eq_some hfound
    obtain ⟨x, hx, rfl⟩ := List.mem_map.mp hr
    rcases ended_cases hfootprint hsucceeded hx with ⟨changes', rfl, hdone⟩ | ⟨b, -, rfl, -⟩
    · obtain rfl := Option.some.inj hchanges
      exact hdone
    · cases hchanges

end

theorem reported_of_footprint {bundles : List Path} {files : FileSystem}
    {ended : List (Task × Except Failure Product)}
    (hfootprint : Footprint c o fs (tasks bundles) ⟨files, [], [], ended⟩) {report : Report}
    (hreport : (conclude (ended.map Prod.snd)).1 = .ok report) :
    Reported c o fs bundles files report := by
  have hsucceeded := (ok_of_conclude _).mp ⟨report, hreport⟩
  rw [conclude] at hreport
  split_ifs at hreport
  obtain rfl := Except.ok.inj hreport
  refine ⟨fun a ↦ ?_, fun b hb ↦ (artifact_of_mem hfootprint hsucceeded hb).2,
    done_manifest hfootprint hsucceeded⟩
  rw [Path.sort, List.mem_mergeSort]
  exact mem_artifacts_iff hfootprint hsucceeded a

/-- What is known of every run that ends in a report. -/
theorem reported_of_runs (h : fs.IsSound) {files : FileSystem}
    {ended : List (Task × Except Failure Product)} {report : Report}
    (hrun : Runs c o fs files ended (.ok report)) :
    ∃ bundles, (plan c fs).1 = .ok bundles ∧ Snapshot c o fs (tasks bundles) files ∧
      Reported c o fs bundles files report := by
  obtain ⟨bundles, hplan⟩ := hrun.exists_plan
  obtain ⟨hfootprint, hreport⟩ := footprint_of_runs h hplan hrun
  exact ⟨bundles, hplan, snapshot_of_runs h hplan hrun,
    reported_of_footprint hfootprint hreport.symm⟩

end BundleLink.Package
