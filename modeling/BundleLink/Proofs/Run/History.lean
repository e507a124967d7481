import BundleLink.Proofs.Discovery.Siblings
import BundleLink.Proofs.Run.Footprint
import BundleLink.Proofs.Run.Rerun
import Mathlib

/-!
Many runs of one configuration, between which the files are edited in any way (`Happens`). Whatever
has happened so far, no task of any run was made for a path that is the path of an artifact
(`Told.steps`), so artifacts are never linked again (`siblings_of_discover`). This rests on the names
of artifacts, of which an extension with a separator in it takes no notice: its artifacts are found
as bundles (`relinks_separated`).
-/

set_option autoImplicit false

namespace BundleLink.Package

open BundleLink.Text BundleLink.Link FileSystem

/-- The files at some moment, and what the tasks of all runs so far have come to. -/
structure History where
  files : FileSystem
  ended : List (Task × Except Failure Product)

/-- What can happen next: an edit of any kind, or a run to its end. -/
inductive Happens (c : Config) : History → History → Prop
  | edit (s : History) (files : FileSystem) : Happens c s ⟨files, s.ended⟩
  | run (o : Options) (s : History) (files : FileSystem)
      (ended : List (Task × Except Failure Product)) (result : Except Failure Report) :
      s.files.IsSound → Runs c o s.files files ended result →
      Happens c s ⟨files, s.ended ++ ended⟩

variable {c : Config} {o : Options}

/-- The paths of all tasks so far are those of bundles and, where a task has made an artifact, of the
artifact of its bundle. -/
structure Told (c : Config) (ended : List (Task × Except Failure Product)) : Prop where
  bundle : ∀ x ∈ ended, ∀ b, x.1 = .bundle b → ∃ name, Linkable c b name
  artifact : ∀ x ∈ ended, ∀ a, x.2 = .ok (.artifact a) →
    ∃ b, x.1 = .bundle b ∧ a = c.linkedPath b

theorem Told.append {ended ended' : List (Task × Except Failure Product)} (h : Told c ended)
    (h' : Told c ended') : Told c (ended ++ ended') where
  bundle x hx := (List.mem_append.mp hx).elim (h.bundle x) (h'.bundle x)
  artifact x hx := (List.mem_append.mp hx).elim (h.artifact x) (h'.artifact x)

section

variable (hc : c.Accepted) (hext : '/' ∉ c.extension.toList)

include hc hext

/-- What one run tells of its tasks. -/
theorem told_of_runs {fs : FileSystem} (h : fs.IsSound) {files : FileSystem}
    {ended : List (Task × Except Failure Product)} {result : Except Failure Report}
    (hrun : Runs c o fs files ended result) : Told c ended := by
  cases hplan : (plan c fs).1 with
  | error e =>
    obtain ⟨-, rfl, -⟩ := hrun.of_plan_eq_error hplan
    exact ⟨by simp, by simp⟩
  | ok bundles =>
    have hfootprint := (footprint_of_runs h hplan hrun).1
    have hperm : (ended.map Prod.fst).Perm (tasks bundles) := by simpa using hfootprint.perm
    have hbundles := (plan_eq_ok_iff.mp hplan).2
    refine ⟨fun x hx b hb ↦ ?_, fun x hx a ha ↦ ?_⟩
    · have htask : Task.bundle b ∈ tasks bundles :=
        hb ▸ hperm.subset (List.mem_map_of_mem hx)
      have hmem : b ∈ bundles := by simpa [tasks] using htask
      exact linkable_of_mem_discover hc hext hbundles h hmem
    · obtain ⟨t, r⟩ := x
      have hdone := hfootprint.ended _ hx _ ha
      cases t with
      | manifest =>
        obtain ⟨changes, hchanges⟩ := product_of_done_manifest hdone
        cases hchanges
      | bundle b =>
        have hproduct := product_of_done_bundle hdone
        exact ⟨b, rfl, Product.artifact.inj hproduct⟩

theorem Told.step {s s' : History} (hs : Told c s.ended) (hstep : Happens c s s') :
    Told c s'.ended := by
  cases hstep with
  | edit _ _ => exact hs
  | run o _ files ended result h hrun => exact hs.append (told_of_runs hc hext h hrun)

theorem Told.steps {s s' : History} (hs : Told c s.ended)
    (hsteps : Relation.ReflTransGen (Happens c) s s') : Told c s'.ended := by
  induction hsteps with
  | refl => exact hs
  | tail _ hstep ih => exact ih.step hc hext hstep

end

/-- Artifacts stand beside their bundles and are never taken for bundles: not by the search of any
other file system, nor in any history of runs and edits. -/
theorem siblings_of_discover (hconfig : c.problem? = none) (hext : '/' ∉ c.extension.toList) :
    (∀ fs bundles, fs.IsSound → (discover c fs).1 = .ok bundles →
      (∀ b ∈ bundles, Sibling c b (c.linkedPath b)) ∧
      (∀ b ∈ bundles, ∀ b' ∈ bundles, b.components ≠ b'.components →
        (c.linkedPath b).components ≠ (c.linkedPath b').components) ∧
      ∀ b ∈ bundles, ∀ fs' bundles', fs'.IsSound → (discover c fs').1 = .ok bundles' →
        ∀ b' ∈ bundles', (c.linkedPath b).components ≠ b'.components) ∧
    ∀ fs s, Relation.ReflTransGen (Happens c) ⟨fs, []⟩ s →
      ∀ x ∈ s.ended, ∀ a, x.2 = .ok (.artifact a) → ∀ y ∈ s.ended, ∀ b, y.1 = .bundle b →
        a.components ≠ b.components ∧ ∀ fs' : FileSystem, fs'.address a ≠ fs'.address b := by
  have hc := c.accepted_iff.mp hconfig
  refine ⟨fun fs bundles h hbundles ↦ ⟨fun b hb ↦ ?_, fun b hb b' hb' hne heq ↦ ?_,
    fun b hb fs' bundles' h' hbundles' b' hb' ↦ ?_⟩, fun fs s hsteps x hx a ha y hy b hb ↦ ?_⟩
  · obtain ⟨name, hlinkable⟩ := linkable_of_mem_discover hc hext hbundles h hb
    exact hlinkable.sibling hext
  · obtain ⟨name, hlinkable⟩ := linkable_of_mem_discover hc hext hbundles h hb
    obtain ⟨name', hlinkable'⟩ := linkable_of_mem_discover hc hext hbundles h hb'
    exact hne (hlinkable.components_eq hext hlinkable' heq)
  · obtain ⟨name, hlinkable⟩ := linkable_of_mem_discover hc hext hbundles h hb
    obtain ⟨name', hlinkable'⟩ := linkable_of_mem_discover hc hext hbundles' h' hb'
    exact hlinkable.components_linkedPath_ne hext hlinkable'
  · have htold : Told c s.ended := Told.steps hc hext ⟨by simp, by simp⟩ hsteps
    obtain ⟨b₀, hb₀, rfl⟩ := htold.artifact x hx a ha
    obtain ⟨name, hlinkable⟩ := htold.bundle x hx b₀ hb₀
    obtain ⟨name', hlinkable'⟩ := htold.bundle y hy b hb
    exact ⟨hlinkable.components_linkedPath_ne hext hlinkable',
      hlinkable.address_linkedPath_ne hext hlinkable'⟩

/-- An artifact that is reported has been made by a task. -/
theorem mem_of_mem_artifacts {results : List (Except Failure Product)} {report : Report}
    (hreport : (conclude results).1 = .ok report) {a : Path} (ha : a ∈ report.artifacts) :
    .ok (.artifact a) ∈ results := by
  rw [conclude] at hreport
  split_ifs at hreport
  obtain rfl := Except.ok.inj hreport
  rw [Path.sort, List.mem_mergeSort, List.mem_filterMap] at ha
  obtain ⟨r, hr, hartifact⟩ := ha
  rcases r with f | ⟨changes | p⟩
  · cases hartifact
  · cases hartifact
  · obtain rfl := Option.some.inj hartifact
    exact hr

/-- The sample package with its artifact in place. -/
def linkedOnce : FileSystem :=
  { sample with entries := sample.entries ++ [([bytesOf "d", bytesOf "a.x.linked.x"], .file [])] }

/-- A run, an edit and a run again. -/
theorem siblings_sample : Sibling sampleConfig sampleBundle (.ofString "d/a.x.linked.x") ∧
    ∃ s, Relation.ReflTransGen (Happens sampleConfig) ⟨sample, []⟩ s ∧
      (∃ x ∈ s.ended, x.2 = .ok (.artifact (.ofString "d/a.x.linked.x"))) ∧
      ∀ y ∈ s.ended, y.1 ≠ .bundle (.ofString "d/a.x.linked.x") := by
  obtain ⟨hstatic, hhistory⟩ := siblings_of_discover problem?_sample (by decide)
  have hsound := isTree_sample.isSound
  have hlinked : linkedOnce.IsTree := by decide
  obtain ⟨files, ended, report, hrun⟩ := runs_sample
  obtain ⟨ended', hagain⟩ := runs_link sampleConfig sampleConfig.options linkedOnce
  have hfirst := Happens.run _ ⟨sample, []⟩ _ _ _ hsound hrun
  have hedit := Happens.edit (c := sampleConfig) ⟨files, ended⟩ linkedOnce
  have hsecond := Happens.run _ ⟨linkedOnce, ended⟩ _ _ _ hlinked.isSound hagain
  have hsteps := ((Relation.ReflTransGen.single hfirst).tail hedit).tail hsecond
  have hmade : .ok (.artifact (.ofString "d/a.x.linked.x")) ∈ ended.map Prod.snd := by
    obtain ⟨bundles, hplan, -, hreported⟩ := reported_of_runs hsound hrun
    obtain rfl := Except.ok.inj ((plan_eq_ok_iff.mp hplan).2.symm.trans discover_sample)
    refine mem_of_mem_artifacts (footprint_of_runs hsound hplan hrun).2.symm ?_
    exact (hreported.artifacts _).mpr ⟨sampleBundle, List.mem_singleton_self _, rfl⟩
  obtain ⟨x, hx, hartifact⟩ := List.mem_map.mp hmade
  have hmem := List.mem_append_left ended' hx
  refine ⟨(hstatic sample _ hsound discover_sample).1 _ (List.mem_singleton_self _), _, hsteps,
    ⟨x, hmem, hartifact⟩, fun y hy hbundle ↦ ?_⟩
  exact (hhistory _ _ hsteps x hmem _ hartifact y hy _ hbundle).1 rfl

/-- A separator in the extension is accepted. -/
def separatedConfig : Config :=
  { sampleConfig with extension := "x/y" }

/-- A bundle and its artifact, as a run leaves them. -/
def separated : FileSystem where
  entries :=
    [([bytesOf "d"], .directory), ([bytesOf "d", bytesOf "a.x"], .directory),
      ([bytesOf "d", bytesOf "a.x", bytesOf "y"], .file []),
      ([bytesOf "d", bytesOf "a.x", bytesOf "y.linked.x"], .directory),
      ([bytesOf "d", bytesOf "a.x", bytesOf "y.linked.x", bytesOf "y"], .file [])]
  current := []

/-- The artifact stands in another directory and is found as a bundle. -/
theorem relinks_separated : separated.IsTree ∧ separatedConfig.problem? = none ∧
    ∃ bundles b, (discover separatedConfig separated).1 = .ok bundles ∧ b ∈ bundles ∧
      ¬Sibling separatedConfig b (separatedConfig.linkedPath b) ∧
      separatedConfig.linkedPath b ∈ bundles := by
  -- The kernel cannot run merge sort, so directories of several entries are evaluated with `cbv`.
  have hfound : (discover separatedConfig separated).1 =
      .ok [.ofString "d/a.x/y", .ofString "d/a.x/y.linked.x/y"] := by cbv
  refine ⟨by decide, by rfl, _, _, hfound, List.mem_cons_self, fun hsibling ↦ ?_,
    List.mem_cons_of_mem _ (List.mem_singleton_self _)⟩
  exact absurd hsibling.directory (by decide)

end BundleLink.Package
