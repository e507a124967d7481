import BundleLink.Proofs.Run.Outcome

/-!
What is left of a run that fails. A configuration that is refused and a search that fails leave
every file as it was. Once tasks run none stops another: each failure is listed, and listed once,
and the files differ at the targets of the tasks that succeeded and nowhere else
(`accounted_of_runs`).
-/

set_option autoImplicit false

namespace BundleLink.Package

open BundleLink.Text BundleLink.Link FileSystem

/-- A task has come to a product. -/
def Succeeded (result : Except Failure Product) : Prop :=
  ∃ product, result = .ok product

theorem succeeded_iff (result : Except Failure Product) :
    Succeeded result ↔ failure? result = none := by
  cases result <;> simp [Succeeded, failure?]

/-- How a run went that found these bundles: what each of its tasks came to and left. -/
structure Accounted (c : Config) (o : Options) (fs : FileSystem) (bundles : List Path)
    (files : FileSystem) (ended : List (Task × Except Failure Product))
    (result : Except Failure Report) : Prop where
  /-- The tasks are the manifest's and one for each bundle. -/
  tasks : (ended.map Prod.fst).Perm (tasks bundles)
  /-- No task fails that succeeds by itself, and none succeeds that fails by itself. -/
  alone : ∀ x ∈ ended, Succeeded x.2 ↔ Succeeded (x.1.alone c o fs)
  ok_iff : (∃ report, result = .ok report) ↔ ∀ x ∈ ended, Succeeded x.2
  error_eq : ∀ f, result = .error f →
    f = .tasks (bundles.length + 1) (ended.filterMap fun x ↦ failure? x.2)
  current : files.current = fs.current
  frame : ∀ loc, files.lookup? loc ≠ fs.lookup? loc →
    ∃ x ∈ ended, Succeeded x.2 ∧ fs.writeTarget (x.1.target c) = .ok loc
  failed : ∀ x ∈ ended, ¬Succeeded x.2 → ∀ loc, fs.writeTarget (x.1.target c) = .ok loc →
    files.lookup? loc = fs.lookup? loc
  written : ∀ x ∈ ended, Succeeded x.2 → ∃ d loc, (x.1.prepare c o fs).1 = .ok d ∧
    fs.writeTarget (x.1.target c) = .ok loc ∧ files.lookup? loc = some (.file d.content)

variable {c : Config} {o : Options} {fs : FileSystem}

theorem mem_writes_iff {ts : List Task} {w : Address × Bytes} :
    w ∈ writes c o fs ts ↔ ∃ t ∈ ts, ∃ d, (t.prepare c o fs).1 = .ok d ∧
      fs.writeTarget (t.target c) = .ok w.1 ∧ d.content = w.2 := by
  simp only [writes, List.mem_filterMap, Task.written?_eq_some_iff]

/-- What is written stands where the target of a task leads that succeeds by itself. -/
theorem exists_succeeded_of_mem_writes {ts : List Task} {loc : Address}
    (hloc : loc ∈ (writes c o fs ts).map Prod.fst) :
    ∃ t ∈ ts, Succeeded (t.alone c o fs) ∧ fs.writeTarget (t.target c) = .ok loc := by
  obtain ⟨w, hw, rfl⟩ := List.mem_map.mp hloc
  obtain ⟨t, ht, d, hd, htarget, -⟩ := mem_writes_iff.mp hw
  exact ⟨t, ht, ⟨d.output, (Task.alone_eq_ok_iff c o).mpr ⟨d, w.1, hd, htarget, rfl⟩⟩, htarget⟩

theorem ok_of_conclude (results : List (Except Failure Product)) :
    (∃ report, (conclude results).1 = .ok report) ↔ ∀ r ∈ results, Succeeded r := by
  simp only [succeeded_iff, ← List.filterMap_eq_nil_iff, conclude]
  cases results.filterMap failure? <;> simp

theorem error_of_conclude {results : List (Except Failure Product)} {f : Failure}
    (hf : (conclude results).1 = .error f) :
    f = .tasks results.length (results.filterMap failure?) := by
  rw [conclude] at hf
  split_ifs at hf
  exact (Except.error.inj hf).symm

theorem accounted_of_consistent {bundles : List Path} {files : FileSystem}
    {ended : List (Task × Except Failure Product)}
    (hdisjoint : Disjoint c fs (tasks bundles))
    (hconsistent : Consistent c o fs (tasks bundles) ⟨files, [], [], ended⟩) :
    Accounted c o fs bundles files ended (conclude (ended.map Prod.snd)).1 := by
  have hperm : (ended.map Prod.fst).Perm (tasks bundles) := by simpa using hconsistent.perm
  have halone : ∀ x ∈ ended, Succeeded x.2 ↔ Succeeded (x.1.alone c o fs) := by
    intro x hx
    have halike := hconsistent.ended x hx
    generalize x.1.alone c o fs = reference at halike ⊢
    generalize x.2 = result at halike ⊢
    cases halike with
    | ok product => rfl
    | error f f' hf => simp [Succeeded]
  have hwritten := hconsistent.written
  refine ⟨hperm, halone, ?_, fun f hf ↦ ?_, hwritten.current, fun loc hloc ↦ ?_,
    fun x hx hfailed loc hloc ↦ ?_, fun x hx hsucceeded ↦ ?_⟩
  · rw [ok_of_conclude, List.forall_mem_map]
  · rw [error_of_conclude hf, List.length_map, List.filterMap_map]
    have hlength : ended.length = bundles.length + 1 := by
      simpa [tasks] using hperm.length_eq
    rw [hlength]
    rfl
  · have hmem : loc ∈ (writes c o fs (ended.map Prod.fst)).map Prod.fst := by
      by_contra hnot
      exact hloc (hwritten.lookup?_notMem loc hnot)
    obtain ⟨t, ht, hsucceeded, htarget⟩ := exists_succeeded_of_mem_writes hmem
    obtain ⟨x, hx, rfl⟩ := List.mem_map.mp ht
    exact ⟨x, hx, (halone x hx).mpr hsucceeded, htarget⟩
  · refine hwritten.lookup?_notMem loc fun hmem ↦ ?_
    obtain ⟨t, ht, hsucceeded, htarget⟩ := exists_succeeded_of_mem_writes hmem
    by_cases hsame : t = x.1
    · exact hfailed ((halone x hx).mpr (hsame ▸ hsucceeded))
    · have hspares := hdisjoint.spares (hperm.subset ht)
        (hperm.subset (List.mem_map_of_mem hx)) hsame
      exact (hspares.1 loc htarget).2 hloc
  · obtain ⟨product, hproduct⟩ := (halone x hx).mp hsucceeded
    obtain ⟨d, loc, hd, htarget, -⟩ := (Task.alone_eq_ok_iff c o).mp hproduct
    refine ⟨d, loc, hd, htarget, hwritten.lookup?_mem (loc, d.content) ?_⟩
    exact mem_writes_iff.mpr ⟨x.1, List.mem_map_of_mem hx, d, hd, htarget, rfl⟩

/-- Every run is accounted for: what stops it before its tasks touches nothing, and of its tasks
each fails or succeeds for itself. -/
theorem accounted_of_runs (h : fs.IsTree)
    (hdisjoint : ∀ bundles, (plan c fs).1 = .ok bundles → Disjoint c fs (tasks bundles)) :
    (∃ files ended result, Runs c o fs files ended result) ∧
    ∀ files ended result, Runs c o fs files ended result →
      (∀ p, c.problem? = some p → result = .error (.config p) ∧ files = fs) ∧
      (∀ e, c.problem? = none → (discover c fs).1 = .error e → result = .error e ∧ files = fs) ∧
      (∀ bundles, c.problem? = none → (discover c fs).1 = .ok bundles →
        Accounted c o fs bundles files ended result) := by
  refine ⟨⟨_, (runs_link c o fs).choose, _, (runs_link c o fs).choose_spec⟩, ?_⟩
  intro files ended result hrun
  have hstopped (e : Failure) (hplan : (plan c fs).1 = .error e) :
      result = .error e ∧ files = fs := by
    obtain ⟨hfiles, -, hresult⟩ := hrun.of_plan_eq_error hplan
    exact ⟨hresult, hfiles⟩
  refine ⟨fun p hp ↦ hstopped _ ?_, fun e hc hdiscover ↦ hstopped e ?_,
    fun bundles hc hdiscover ↦ ?_⟩
  · rw [plan, hp]
  · exact plan_eq_error_of_discover (c.accepted_iff.mp hc) hdiscover
  · have hplan := plan_eq_ok_iff.mpr ⟨c.accepted_iff.mp hc, hdiscover⟩
    obtain ⟨hconsistent, rfl⟩ := consistent_of_runs h hplan (hdisjoint bundles hplan) hrun
    exact accounted_of_consistent (hdisjoint bundles hplan) hconsistent

/-- A run in which the manifest's task fails and the bundle's succeeds. -/
theorem accounted_nested : ∃ files ended result,
    Runs nestedConfig nestedConfig.options sample files ended result ∧
      Accounted nestedConfig nestedConfig.options sample [sampleBundle] files ended result := by
  obtain ⟨⟨files, ended, result, hrun⟩, haccounted⟩ :=
    accounted_of_runs (o := nestedConfig.options) isTree_sample fun bundles hplan ↦
      disjoint_nested bundles (plan_eq_ok_iff.mp hplan).2
  exact ⟨files, ended, result, hrun,
    (haccounted files ended result hrun).2.2 _ problem?_nested discover_nested⟩

end BundleLink.Package
