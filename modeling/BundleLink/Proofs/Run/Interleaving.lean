import BundleLink.Proofs.Config.Accepted
import BundleLink.Proofs.Discovery.Spots
import BundleLink.Proofs.Run.Task
import Mathlib.Data.List.Pairwise
import Mathlib.Logic.Relation

/-!
Runs in which tasks overlap. A task first reads and later writes, any number of other reads and
writes may lie between the two, and never are more tasks in flight than the configuration allows
(`Step`). Such a run can always go on until every task has ended (`exists_step`, `remaining_lt`),
and running the tasks one after the other is one of them (`runs_link`). What every step keeps is
`Consistent`: the files are those that the ended tasks write when each runs by itself.
-/

set_option autoImplicit false

namespace BundleLink.Package

open BundleLink.Text BundleLink.Link FileSystem

/-- How far the tasks of a run have come. -/
structure Progress where
  files : FileSystem
  waiting : List Task
  /-- The tasks that have read, with what they are going to write. -/
  inFlight : List (Task × Prepared Product)
  /-- The tasks that have ended, in the order of their ends. -/
  ended : List (Task × Except Failure Product)

inductive Step (c : Config) (o : Options) : Progress → Progress → Prop
  | read (files : FileSystem) (before after : List Task) (t : Task)
      (inFlight : List (Task × Prepared Product)) (ended : List (Task × Except Failure Product)) :
      inFlight.length < c.jobs →
      Step c o ⟨files, before ++ t :: after, inFlight, ended⟩
        ⟨files, before ++ after, (t, t.prepare c o files) :: inFlight, ended⟩
  | write (files : FileSystem) (waiting : List Task) (before after : List (Task × Prepared Product))
      (t : Task) (p : Prepared Product) (ended : List (Task × Except Failure Product)) :
      Step c o ⟨files, waiting, before ++ (t, p) :: after, ended⟩
        ⟨(p.finish files).files, waiting, before ++ after, ended ++ [(t, (p.finish files).result)]⟩

abbrev Steps (c : Config) (o : Options) : Progress → Progress → Prop :=
  Relation.ReflTransGen (Step c o)

/-- The ways a run can go: the files it leaves, what its tasks came to, and what it came to itself.
-/
inductive Runs (c : Config) (o : Options) (fs : FileSystem) :
    FileSystem → List (Task × Except Failure Product) → Except Failure Report → Prop
  | refused (e : Failure) : (plan c fs).1 = .error e → Runs c o fs fs [] (.error e)
  | ended (bundles : List Path) (files : FileSystem)
      (ended : List (Task × Except Failure Product)) : (plan c fs).1 = .ok bundles →
      Steps c o ⟨fs, tasks bundles, [], []⟩ ⟨files, [], [], ended⟩ →
      Runs c o fs files ended (conclude (ended.map Prod.snd)).1

variable {c : Config} {o : Options}

section

variable {fs files : FileSystem} {ended : List (Task × Except Failure Product)}
  {result : Except Failure Report}

/-- A run that is stopped before its tasks does nothing. -/
theorem Runs.of_plan_eq_error (hrun : Runs c o fs files ended result) {e : Failure}
    (hplan : (plan c fs).1 = .error e) : files = fs ∧ ended = [] ∧ result = .error e := by
  cases hrun with
  | refused e' hrefused =>
    rw [hplan, Except.error.injEq] at hrefused
    exact ⟨rfl, rfl, by rw [hrefused]⟩
  | ended bundles files ended hbundles hsteps => simp [hplan] at hbundles

/-- Any other run goes on until all tasks have ended. -/
theorem Runs.steps (hrun : Runs c o fs files ended result) {bundles : List Path}
    (hplan : (plan c fs).1 = .ok bundles) :
    Steps c o ⟨fs, tasks bundles, [], []⟩ ⟨files, [], [], ended⟩ ∧
      result = (conclude (ended.map Prod.snd)).1 := by
  cases hrun with
  | refused e hrefused => simp [hrefused] at hplan
  | ended bundles' files ended hplan' hsteps =>
    rw [hplan, Except.ok.injEq] at hplan'
    exact ⟨hplan' ▸ hsteps, rfl⟩

theorem Runs.exists_plan {report : Report} (hrun : Runs c o fs files ended (.ok report)) :
    ∃ bundles, (plan c fs).1 = .ok bundles := by
  cases hplan : (plan c fs).1 with
  | error e => cases (hrun.of_plan_eq_error hplan).2.2
  | ok bundles => exact ⟨bundles, rfl⟩

end

/-! ### Runs end -/

/-- The steps that are still to be done. -/
def Progress.remaining (s : Progress) : Nat :=
  2 * s.waiting.length + s.inFlight.length

theorem remaining_lt {s s' : Progress} (hstep : Step c o s s') : s'.remaining < s.remaining := by
  cases hstep with
  | read => simp only [Progress.remaining, List.length_append, List.length_cons]; omega
  | write => simp only [Progress.remaining, List.length_append, List.length_cons]; omega

/-- As long as something is to be done, something can be done. -/
theorem exists_step (hjobs : 0 < c.jobs) {s : Progress} (hs : 0 < s.remaining) :
    ∃ s', Step c o s s' := by
  obtain ⟨files, waiting, inFlight, ended⟩ := s
  cases inFlight with
  | cons x rest => exact ⟨_, .write files waiting [] rest x.1 x.2 ended⟩
  | nil =>
    cases waiting with
    | nil => simp [Progress.remaining] at hs
    | cons t rest => exact ⟨_, .read files [] rest t [] ended hjobs⟩

/-- However far a run has come, it can be brought to its end. -/
theorem exists_end (hjobs : 0 < c.jobs) (s : Progress) :
    ∃ files ended, Steps c o s ⟨files, [], [], ended⟩ := by
  induction hremaining : s.remaining using Nat.strongRecOn generalizing s with
  | _ n ih =>
    by_cases hn : 0 < n
    · obtain ⟨s', hstep⟩ := exists_step (o := o) hjobs (hremaining ▸ hn)
      obtain ⟨files, ended, hsteps⟩ := ih s'.remaining (hremaining ▸ remaining_lt hstep) s' rfl
      exact ⟨files, ended, .head hstep hsteps⟩
    · obtain ⟨files, waiting, inFlight, ended⟩ := s
      have hnone : waiting.length = 0 ∧ inFlight.length = 0 := by
        simp only [Progress.remaining] at hremaining
        omega
      obtain rfl := List.length_eq_zero_iff.mp hnone.1
      obtain rfl := List.length_eq_zero_iff.mp hnone.2
      exact ⟨files, ended, .refl⟩

theorem plan_eq_ok_iff {fs : FileSystem} {bundles : List Path} :
    (plan c fs).1 = .ok bundles ↔ c.Accepted ∧ (discover c fs).1 = .ok bundles := by
  rw [plan, ← Config.accepted_iff]
  cases c.problem? with
  | some p => simp
  | none => rcases discover c fs with ⟨e | found, log⟩ <;> simp

theorem plan_eq_error_of_discover {fs : FileSystem} {e : Failure} (hc : c.Accepted)
    (hdiscover : (discover c fs).1 = .error e) : (plan c fs).1 = .error e := by
  rw [plan, c.accepted_iff.mpr hc]
  rcases hfound : discover c fs with ⟨e' | found, log⟩
  · rw [hfound] at hdiscover
    exact hdiscover
  · rw [hfound] at hdiscover
    cases hdiscover

/-- One task after the other. -/
theorem steps_runTasks (hjobs : 0 < c.jobs) (ts : List Task) (fs : FileSystem)
    (ended : List (Task × Except Failure Product)) :
    Steps c o ⟨fs, ts, [], ended⟩
      ⟨(runTasks c o fs ts).1, [], [], ended ++ ts.zip (runTasks c o fs ts).2.1⟩ := by
  induction ts generalizing fs ended with
  | nil => simpa [runTasks] using Relation.ReflTransGen.refl
  | cons t ts ih =>
    have hread := Step.read (c := c) (o := o) fs [] ts t [] ended hjobs
    have hwrite := Step.write (c := c) (o := o) fs ts [] [] t (t.prepare c o fs) ended
    have hrest := ih (t.run c o fs).files (ended ++ [(t, (t.run c o fs).result)])
    refine (Relation.ReflTransGen.head hread (Relation.ReflTransGen.head hwrite ?_))
    simpa [runTasks, Task.run, List.append_assoc] using hrest

theorem length_runTasks (ts : List Task) (fs : FileSystem) :
    (runTasks c o fs ts).2.1.length = ts.length := by
  induction ts generalizing fs with
  | nil => rfl
  | cons t ts ih => simp [runTasks, ih]

/-- The run without overlaps is one of the ways. -/
theorem runs_link (c : Config) (o : Options) (fs : FileSystem) :
    ∃ ended, Runs c o fs (link c o fs).files ended (link c o fs).result := by
  rw [link]
  rcases hplan : plan c fs with ⟨e | bundles, log⟩
  · exact ⟨[], .refused e (congrArg Prod.fst hplan)⟩
  · have haccepted := (plan_eq_ok_iff.mp (congrArg Prod.fst hplan)).1
    have hsteps := steps_runTasks (o := o) haccepted.jobs_pos (tasks bundles) fs []
    rw [List.nil_append] at hsteps
    have hrun := Runs.ended bundles _ _ (congrArg Prod.fst hplan) hsteps
    rw [List.map_snd_zip (Nat.le_of_eq (length_runTasks _ _))] at hrun
    exact ⟨_, hrun⟩

/-! ### What every step keeps -/

/-- No step loses a task. -/
theorem perm_of_step {s s' : Progress} (hstep : Step c o s s') :
    (s'.waiting ++ s'.inFlight.map Prod.fst ++ s'.ended.map Prod.fst).Perm
      (s.waiting ++ s.inFlight.map Prod.fst ++ s.ended.map Prod.fst) := by
  cases hstep with
  | read files before after t inFlight ended hjobs =>
    have hmoved (rest : List Task) :
        (before ++ (after ++ t :: rest)).Perm (before ++ t :: (after ++ rest)) :=
      List.perm_middle.append_left before
    simpa using hmoved (inFlight.map Prod.fst ++ ended.map Prod.fst)
  | write files waiting before after t p ended =>
    have hmoved : (after.map Prod.fst ++ (ended.map Prod.fst ++ [t])).Perm
        (t :: (after.map Prod.fst ++ ended.map Prod.fst)) := by
      rw [← List.append_assoc]
      exact List.perm_append_singleton t _
    simpa using (hmoved.append_left (before.map Prod.fst)).append_left waiting

/-- What tasks write when each runs by itself. -/
def writes (c : Config) (o : Options) (fs : FileSystem) (ts : List Task) : List (Address × Bytes) :=
  ts.filterMap (Task.written? c o fs)

/-- No task writes a file that another one reads or writes. -/
def Disjoint (c : Config) (fs : FileSystem) (ts : List Task) : Prop :=
  ts.Pairwise fun t t' ↦ t.Spares c fs t' ∧ t'.Spares c fs t

instance (c : Config) (fs : FileSystem) (ts : List Task) : Decidable (Disjoint c fs ts) :=
  inferInstanceAs (Decidable (ts.Pairwise fun t t' ↦ t.Spares c fs t' ∧ t'.Spares c fs t))

theorem Disjoint.spares {fs : FileSystem} {ts : List Task} (hdisjoint : Disjoint c fs ts)
    {t t' : Task} (ht : t ∈ ts) (ht' : t' ∈ ts) (hne : t ≠ t') :
    t.Spares c fs t' ∧ t'.Spares c fs t := by
  have hsymm : Std.Symm fun t t' : Task ↦ t.Spares c fs t' ∧ t'.Spares c fs t :=
    ⟨fun _ _ hboth ↦ ⟨hboth.2, hboth.1⟩⟩
  exact List.Pairwise.forall hdisjoint ht ht' hne

/-- A path of a task leads through a place where another task makes a file. -/
def Blocked (c : Config) (o : Options) (fs : FileSystem) (ts : List Task) (p : Path) : Prop :=
  (∃ t ∈ ts, p = t.source c ∨ p = t.target c) ∧ Barred fs (writes c o fs ts) p

structure Consistent (c : Config) (o : Options) (fs : FileSystem) (ts : List Task) (s : Progress) :
    Prop where
  perm : (s.waiting ++ s.inFlight.map Prod.fst ++ s.ended.map Prod.fst).Perm ts
  written : Written fs (writes c o fs (s.ended.map Prod.fst)) s.files
  prepared : ∀ x ∈ s.inFlight, Task.PreparedAs c o (Blocked c o fs ts) fs x.1 x.2
  ended : ∀ x ∈ s.ended, ResultAlike (Blocked c o fs ts) (x.1.alone c o fs) x.2

section

variable {fs : FileSystem} {ts : List Task}

/-- A task that is about to read or to write finds its files untouched by all that have ended. -/
theorem clear_of_disjoint (hdisjoint : Disjoint c fs ts) {t : Task} {others ended : List Task}
    (hperm : (t :: others).Perm ts) (hended : ended ⊆ others) {loc : Address}
    (hloc : fs.writeTarget (t.source c) = .ok loc ∨ fs.writeTarget (t.target c) = .ok loc) :
    loc ∉ (writes c o fs ended).map Prod.fst := by
  intro hmem
  obtain ⟨w, hw, rfl⟩ := List.mem_map.mp hmem
  obtain ⟨t', ht', hwritten⟩ := List.mem_filterMap.mp hw
  obtain ⟨d, -, htarget, -⟩ := (Task.written?_eq_some_iff c o).mp hwritten
  have hpairwise : (t :: others).Pairwise fun t t' ↦ t.Spares c fs t' ∧ t'.Spares c fs t :=
    (hperm.pairwise_iff fun hboth ↦ ⟨hboth.2, hboth.1⟩).mpr hdisjoint
  have hspares := ((List.pairwise_cons.mp hpairwise).1 t' (hended ht')).2 w.1 htarget
  rcases hloc with hsource | hsame
  · exact hspares.1 hsource
  · exact hspares.2 hsame

theorem barred_of_subset {ws ws' : List (Address × Bytes)} (hsub : ws ⊆ ws') {p : Path}
    (hbarred : Barred fs ws p) : Barred fs ws' p := by
  obtain ⟨w, hw, hway⟩ := hbarred
  exact ⟨w, hsub hw, hway⟩

theorem writes_subset {ended : List Task} (hended : ended ⊆ ts) :
    writes c o fs ended ⊆ writes c o fs ts := by
  intro w hw
  obtain ⟨t, ht, hwritten⟩ := List.mem_filterMap.mp hw
  exact List.mem_filterMap.mpr ⟨t, hended ht, hwritten⟩

/-- The last task of all adds what it writes by itself. -/
theorem perm_writes_concat (t : Task) :
    ((t.written? c o fs).toList ++ writes c o fs ts).Perm (writes c o fs (ts ++ [t])) := by
  rw [writes, writes, List.filterMap_append, List.filterMap_cons, List.filterMap_nil]
  cases t.written? c o fs with
  | none => simp
  | some w => exact (List.perm_append_singleton w _).symm

variable (h : fs.IsTree) (hdisjoint : Disjoint c fs ts)
  (hslash : ∀ t ∈ ts, ∀ d, (t.prepare c o fs).1 = .ok d → endsInSlash (t.target c) = false)

include h hdisjoint hslash in
/-- Reading and writing keep a run consistent. -/
theorem Consistent.step {s s' : Progress} (hs : Consistent c o fs ts s) (hstep : Step c o s s') :
    Consistent c o fs ts s' := by
  have hperm' := (perm_of_step hstep).trans hs.perm
  obtain ⟨hperm, hwritten, hprepared, hended⟩ := hs
  cases hstep with
  | read files before after t inFlight ended hjobs =>
    have hfirst : (t :: (before ++ after ++ inFlight.map Prod.fst ++
        ended.map Prod.fst)).Perm ts := by
      refine List.Perm.trans ?_ hperm
      simpa using List.perm_middle.symm
    have hsub : ended.map Prod.fst ⊆ before ++ after ++ inFlight.map Prod.fst ++
        ended.map Prod.fst := List.subset_append_right _ _
    have hall : writes c o fs (ended.map Prod.fst) ⊆ writes c o fs ts :=
      writes_subset fun t' ht' ↦ hfirst.subset (List.mem_cons_of_mem _ (hsub ht'))
    refine ⟨hperm', hwritten, fun x hx ↦ ?_, hended⟩
    rcases List.mem_cons.mp hx with rfl | hx
    · rcases Task.prepare_written (o := o) h hwritten (t := t) fun loc hloc ↦
          clear_of_disjoint hdisjoint hfirst hsub (Or.inl hloc) with hsame | ⟨hbarred, hproblem⟩
      · exact Or.inl hsame
      · exact Or.inr ⟨⟨⟨t, hfirst.subset List.mem_cons_self, Or.inl rfl⟩,
          barred_of_subset hall hbarred⟩, hproblem⟩
    · exact hprepared x hx
  | write files waiting before after t p ended =>
    have hfirst : (t :: (waiting ++ before.map Prod.fst ++ after.map Prod.fst ++
        ended.map Prod.fst)).Perm ts := by
      refine List.Perm.trans ?_ hperm
      have hmiddle : ((waiting ++ before.map Prod.fst) ++ t :: (after.map Prod.fst ++
          ended.map Prod.fst)).Perm _ := List.perm_middle
      simpa using hmiddle.symm
    have hsub : ended.map Prod.fst ⊆ waiting ++ before.map Prod.fst ++ after.map Prod.fst ++
        ended.map Prod.fst := List.subset_append_right _ _
    have hmem : t ∈ ts := hfirst.subset List.mem_cons_self
    have hall : writes c o fs (ended.map Prod.fst) ⊆ writes c o fs ts :=
      writes_subset fun t' ht' ↦ hfirst.subset (List.mem_cons_of_mem _ (hsub ht'))
    obtain ⟨hresult, hfiles⟩ := Task.finish_written h hwritten (hprepared (t, p) (by simp))
      (fun hbarred ↦ ⟨⟨t, hmem, Or.inr rfl⟩, barred_of_subset hall hbarred⟩)
      (fun loc hloc ↦ clear_of_disjoint hdisjoint hfirst hsub (Or.inr hloc)) (hslash t hmem)
    have hlonger : Written fs
        (writes c o fs ((ended ++ [(t, (p.finish files).result)]).map Prod.fst))
        (p.finish files).files := by
      rw [List.map_append]
      exact hfiles.perm (perm_writes_concat t)
    refine ⟨hperm', hlonger, fun x hx ↦ hprepared x ?_, fun x hx ↦ ?_⟩
    · rcases List.mem_append.mp hx with hx | hx
      · exact List.mem_append_left _ hx
      · exact List.mem_append_right _ (List.mem_cons_of_mem _ hx)
    · rcases List.mem_append.mp hx with hx | hx
      · exact hended x hx
      · rw [List.mem_singleton.mp hx]
        exact hresult

include h hdisjoint hslash in
theorem Consistent.steps {s s' : Progress} (hs : Consistent c o fs ts s) (hsteps : Steps c o s s') :
    Consistent c o fs ts s' := by
  induction hsteps with
  | refl => exact hs
  | tail _ hstep ih => exact ih.step h hdisjoint hslash hstep

end

theorem consistent_start (fs : FileSystem) (ts : List Task) :
    Consistent c o fs ts ⟨fs, ts, [], []⟩ :=
  ⟨by simp, .refl fs, by simp, by simp⟩

/-- No task of a plan ever writes through a path that asks for a directory. -/
theorem endsInSlash_target {fs : FileSystem} (h : fs.IsSound) {bundles : List Path}
    (hplan : (plan c fs).1 = .ok bundles) :
    ∀ t ∈ tasks bundles, ∀ d, (t.prepare c o fs).1 = .ok d → endsInSlash (t.target c) = false := by
  intro t ht d hd
  rcases List.mem_cons.mp ht with rfl | ht
  · rw [Bool.eq_false_iff]
    intro hslash
    have hsource : endsInSlash (Task.manifest.source c) = true := hslash
    cases hread : fs.readText (Task.manifest.source c) with
    | error problem => simp [Task.prepare_of_readText_error c o hread] at hd
    | ok text =>
      rw [readText, readBytes] at hread
      cases hplace : fs.resolve (Task.manifest.source c) with
      | error problem => simp [hplace] at hread
      | ok place => cases place <;> simp [hplace, hsource] at hread
  · obtain ⟨b, hb, rfl⟩ := List.mem_map.mp ht
    exact endsInSlash_linkedPath h (plan_eq_ok_iff.mp hplan).2 hb

/-- What is known of a run when all its tasks have ended. -/
theorem consistent_of_runs {fs : FileSystem} (h : fs.IsTree) {bundles : List Path}
    (hplan : (plan c fs).1 = .ok bundles) (hdisjoint : Disjoint c fs (tasks bundles))
    {files : FileSystem} {ended : List (Task × Except Failure Product)}
    {result : Except Failure Report} (hrun : Runs c o fs files ended result) :
    Consistent c o fs (tasks bundles) ⟨files, [], [], ended⟩ ∧
      result = (conclude (ended.map Prod.snd)).1 := by
  obtain ⟨hsteps, hresult⟩ := hrun.steps hplan
  exact ⟨(consistent_start fs _).steps h hdisjoint (endsInSlash_target h.isSound hplan) hsteps, hresult⟩

end BundleLink.Package
