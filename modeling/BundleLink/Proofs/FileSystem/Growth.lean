import BundleLink.Proofs.FileSystem.Tree

/-!
What writing files does to paths. When nothing but files is made or changed (`Grown`), every path
still leads where it led (`resolve_grown`); the one that led to nothing may lead to a new file. A
path that failed fails still, but one that missed a directory may now find a file in its place.
-/

set_option autoImplicit false

namespace BundleLink.FileSystem

open BundleLink.Text

/-- Nothing but files differs, and none of them stands where a directory stood. -/
structure Grown (fs fs' : FileSystem) : Prop where
  current : fs'.current = fs.current
  entry : ∀ loc, fs'.lookup? loc = fs.lookup? loc ∨
    (fs.lookup? loc ≠ some .directory ∧ ∃ content, fs'.lookup? loc = some (.file content))

namespace Grown

theorem refl (fs : FileSystem) : Grown fs fs :=
  ⟨rfl, fun _ ↦ Or.inl rfl⟩

variable {fs fs' : FileSystem} (g : Grown fs fs') {loc : Address}

include g

theorem lookup?_directory (hloc : fs.lookup? loc = some .directory) :
    fs'.lookup? loc = some .directory := by
  rcases g.entry loc with hsame | ⟨hnot, _⟩
  · rw [hsame, hloc]
  · exact absurd hloc hnot

theorem lookup?_file {content : Bytes} (hloc : fs.lookup? loc = some (.file content)) :
    ∃ content', fs'.lookup? loc = some (.file content') := by
  rcases g.entry loc with hsame | ⟨_, hfile⟩
  · exact ⟨content, by rw [hsame, hloc]⟩
  · exact hfile

theorem lookup?_none (hloc : fs.lookup? loc = none) :
    fs'.lookup? loc = none ∨ ∃ content, fs'.lookup? loc = some (.file content) := by
  rcases g.entry loc with hsame | ⟨_, hfile⟩
  · exact Or.inl (by rw [hsame, hloc])
  · exact Or.inr hfile

end Grown

/-- Where the same path leads in two file systems, the second of which has more files. Of the path
it is known which addresses it passes. -/
inductive Resolved (fs fs' : FileSystem) (passed : List Address) :
    Except FileProblem Place → Except FileProblem Place → Prop
  | directory (loc : Address) : fs.lookup? loc = some .directory →
      Resolved fs fs' passed (.ok (.directory loc)) (.ok (.directory loc))
  | file (loc : Address) (content content' : Bytes) : fs.lookup? loc = some (.file content) →
      fs'.lookup? loc = some (.file content') →
      Resolved fs fs' passed (.ok (.file loc content)) (.ok (.file loc content'))
  | vacant (loc : Address) : fs.lookup? loc = none → fs'.lookup? loc = none →
      Resolved fs fs' passed (.ok (.vacant loc)) (.ok (.vacant loc))
  | made (loc : Address) (content : Bytes) : fs.lookup? loc = none →
      fs'.lookup? loc = some (.file content) →
      Resolved fs fs' passed (.ok (.vacant loc)) (.ok (.file loc content))
  | failed (problem : FileProblem) : Resolved fs fs' passed (.error problem) (.error problem)
  | barred (loc : Address) (content : Bytes) : loc ∈ passed → fs.lookup? loc = none →
      fs'.lookup? loc = some (.file content) →
      Resolved fs fs' passed (.error .notFound) (.error .notADirectory)

theorem Resolved.mono {fs fs' : FileSystem} {passed passed' : List Address}
    {before after : Except FileProblem Place} (hr : Resolved fs fs' passed before after)
    (hsub : passed ⊆ passed') : Resolved fs fs' passed' before after := by
  cases hr with
  | directory loc hloc => exact .directory loc hloc
  | file loc content content' hloc hloc' => exact .file loc content content' hloc hloc'
  | vacant loc hloc hloc' => exact .vacant loc hloc hloc'
  | made loc content hloc hloc' => exact .made loc content hloc hloc'
  | failed problem => exact .failed problem
  | barred loc content hmem hloc hloc' => exact .barred loc content (hsub hmem) hloc hloc'

section

variable {fs fs' : FileSystem} (h : fs.IsTree) (h' : fs'.IsTree) (g : Grown fs fs')

include h g in
/-- At the end of a path. -/
theorem walkWith_nil_grown (jump : Address → List Bytes → Except FileProblem Place) {loc : Address}
    (hloc : (fs.lookup? loc).isSome) :
    Resolved fs fs' [] (walkWith fs jump loc []) (walkWith fs' jump loc []) := by
  rw [walkWith, walkWith]
  cases hl : fs.lookup? loc with
  | none => simp [hl] at hloc
  | some entry =>
    cases entry with
    | link target => exact absurd hl (h.no_link loc target)
    | directory =>
      rw [g.lookup?_directory hl]
      exact .directory loc hl
    | file content =>
      obtain ⟨content', hl'⟩ := g.lookup?_file hl
      rw [hl']
      exact .file loc content content' hl hl'

include h h' g in
/-- Along a path. The induction is on its names; only at the first address can there be nothing. -/
theorem walkWith_grown (jump : Address → List Bytes → Except FileProblem Place)
    (names : List Bytes) {loc : Address} (hloc : names = [] → (fs.lookup? loc).isSome) :
    Resolved fs fs' (wayFrom loc names) (walkWith fs jump loc names)
      (walkWith fs' jump loc names) := by
  induction names generalizing loc with
  | nil => exact walkWith_nil_grown h g jump (hloc rfl)
  | cons name names ih =>
    have hhere : loc ∈ wayFrom loc (name :: names) := by simp [wayFrom]
    cases hl : fs.lookup? loc with
    | none =>
      rcases g.lookup?_none hl with hl' | ⟨content, hl'⟩
      · simpa [walkWith, hl, hl'] using Resolved.failed _
      · simpa [walkWith, hl, hl'] using Resolved.barred loc content hhere hl hl'
    | some entry =>
      cases entry with
      | link target => exact absurd hl (h.no_link loc target)
      | file content =>
        obtain ⟨content', hl'⟩ := g.lookup?_file hl
        simpa [walkWith, hl, hl'] using Resolved.failed _
      | directory =>
        rw [walkWith_cons h jump hl, walkWith_cons h' jump (g.lookup?_directory hl)]
        by_cases hlong : maxName < name.length
        · simpa only [if_pos hlong] using Resolved.failed _
        simp only [if_neg hlong]
        have hway : wayFrom (step loc name) names ⊆ wayFrom loc (name :: names) :=
          List.subset_cons_self _ _
        cases hnext : fs.lookup? (step loc name) with
        | some entry =>
          have hsome : (fs'.lookup? (step loc name)).isSome := by
            rcases g.entry (step loc name) with hsame | ⟨_, content, hfile⟩
            · simp [hsame, hnext]
            · simp [hfile]
          obtain ⟨entry', hnext'⟩ := Option.isSome_iff_exists.mp hsome
          simp only [hnext']
          exact (ih fun _ ↦ by simp [hnext]).mono hway
        | none =>
          rcases g.lookup?_none hnext with hnext' | ⟨content, hnext'⟩
          · by_cases hlast : names.isEmpty
            · simpa [hnext', hlast] using Resolved.vacant _ hnext hnext'
            · simpa [hnext', hlast] using Resolved.failed _
          · cases names with
            | nil => simpa [hnext', walkWith] using Resolved.made _ content hnext hnext'
            | cons second rest =>
              have hmem : step loc name ∈ wayFrom loc (name :: second :: rest) := by
                simp [wayFrom]
              simpa [hnext', walkWith] using Resolved.barred _ content hmem hnext hnext'

include h h' g in
/-- A path leads where it led, unless it led to nothing. -/
theorem resolve_grown (p : Path) :
    Resolved fs fs' (wayFrom (fs.start p) (steps p)) (fs.resolve p) (fs'.resolve p) := by
  rw [resolve_eq h, resolve_eq h']
  split_ifs with hnul hempty hlong
  · exact .failed _
  · exact .failed _
  · exact .failed _
  · have hstart : fs'.start p = fs.start p := by simp only [start, g.current]
    rw [walkTree, walkTree, hstart]
    refine walkWith_grown h h' g _ (steps p) fun hsteps ↦ ?_
    simp [start_eq_nil_of_steps_eq_nil fs hempty hsteps]

end

end BundleLink.FileSystem
