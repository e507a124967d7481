import BundleLink.Package
import BundleLink.Proofs.FileSystem.Writing

/-!
What a task does. It reads the file that its source names and writes the one that its target names,
so it can be judged by itself: `alone` is what it comes to when no other task runs, `written?` what
it then writes. If other tasks write none of its files, it comes to the same in the middle of a run
(`prepare_written`, `finish_written`), up to the problem that a barred path meets.
-/

set_option autoImplicit false

namespace BundleLink

open BundleLink.Text BundleLink.Link FileSystem

/-- The same failure, or one that met a file in the way of a path in place of nothing. -/
inductive Failure.Alike (barred : Path → Prop) : Failure → Failure → Prop
  | same (f : Failure) : Alike barred f f
  | barred (p : Path) : barred p → Alike barred (.file p .notFound) (.file p .notADirectory)

/-- The same result, or two failures that are alike. -/
inductive ResultAlike {α : Type} (barred : Path → Prop) : Except Failure α → Except Failure α → Prop
  | ok (a : α) : ResultAlike barred (.ok a) (.ok a)
  | error (f f' : Failure) : f.Alike barred f' → ResultAlike barred (.error f) (.error f')

theorem ResultAlike.refl {α : Type} (barred : Path → Prop) (r : Except Failure α) :
    ResultAlike barred r r := by
  cases r with
  | ok a => exact .ok a
  | error f => exact .error f f (.same f)

theorem ResultAlike.mono {α : Type} {barred barred' : Path → Prop}
    (himp : ∀ p, barred p → barred' p) {r r' : Except Failure α} (hr : ResultAlike barred r r') :
    ResultAlike barred' r r' := by
  cases hr with
  | ok a => exact .ok a
  | error f f' hf =>
    cases hf with
    | same f => exact .error f f (.same f)
    | barred p hp => exact .error _ _ (.barred p (himp p hp))

namespace Task

/-- The file that a task reads. -/
def source (c : Config) : Task → Path
  | manifest => c.manifestPath
  | bundle p => p

/-- The file that a task writes. -/
def target (c : Config) : Task → Path
  | manifest => c.manifestPath
  | bundle p => c.linkedPath p

/-- What a task comes to by itself. -/
def alone (c : Config) (o : Options) (fs : FileSystem) (t : Task) : Except Failure Product :=
  (t.run c o fs).result

/-- What a task writes by itself, if it succeeds. -/
def written? (c : Config) (o : Options) (fs : FileSystem) (t : Task) : Option (Address × Bytes) :=
  match (t.prepare c o fs).1, fs.writeTarget (t.target c) with
  | .ok d, .ok loc => some (loc, d.content)
  | _, _ => none

/-- The first task writes no file that the second reads or writes. -/
def Spares (c : Config) (fs : FileSystem) (t t' : Task) : Prop :=
  ∀ loc, fs.writeTarget (t.target c) = .ok loc →
    fs.writeTarget (t'.source c) ≠ .ok loc ∧ fs.writeTarget (t'.target c) ≠ .ok loc

instance (c : Config) (fs : FileSystem) (t t' : Task) : Decidable (t.Spares c fs t') :=
  match htarget : fs.writeTarget (t.target c) with
  | .error problem => isTrue fun loc hloc ↦ by simp [htarget] at hloc
  | .ok loc => decidable_of_iff
      (fs.writeTarget (t'.source c) ≠ .ok loc ∧ fs.writeTarget (t'.target c) ≠ .ok loc) <| by
        simp [Spares, htarget]

variable (c : Config) (o : Options)

/-! ### Reading -/

theorem prepare_of_readText_error {fs : FileSystem} {t : Task} {problem : FileProblem}
    (hread : fs.readText (t.source c) = .error problem) :
    t.prepare c o fs = (.error (.file (t.source c) problem), []) := by
  cases t with
  | manifest =>
    have hmanifest : fs.readText c.manifestPath = .error problem := hread
    simp [prepare, prepareManifest, manifestDraft, readManifest, readFile, hmanifest,
      Except.mapError, source, bind, Except.bind, Prepared.map, Except.map]
  | bundle p =>
    have hbundle : fs.readText p = .error problem := hread
    simp [prepare, prepareBundle, readFile, hbundle, Except.mapError, source, Prepared.map,
      Except.map]

/-- A task knows of a file system only the text of its source. -/
theorem prepare_congr {fs fs' : FileSystem} {t : Task}
    (hread : fs'.readText (t.source c) = fs.readText (t.source c)) :
    t.prepare c o fs' = t.prepare c o fs := by
  cases t with
  | manifest =>
    have hmanifest : fs'.readText c.manifestPath = fs.readText c.manifestPath := hread
    simp only [prepare, prepareManifest, readManifest, readFile, hmanifest]
  | bundle p =>
    have hbundle : fs'.readText p = fs.readText p := hread
    simp only [prepare, prepareBundle, readFile, hbundle]

variable {c o} {fs : FileSystem}

/-- What the manifest's task drafts when it has read a manifest that can be updated. -/
theorem prepare_manifest_eq_ok {d : Draft Product} (hd : (manifest.prepare c o fs).1 = .ok d) :
    ∃ text m u, fs.readText c.manifestPath = .ok text ∧
      Json.Value.read (String.ofList text) = .ok m ∧ Manifest.update c m = .ok u ∧
      d.target = c.manifestPath ∧ d.content = bytesOf u.manifest.print ∧
      d.output = .manifest u.changes := by
  simp only [prepare, prepareManifest, Prepared.map, readManifest, readFile] at hd
  cases hread : fs.readText c.manifestPath with
  | error problem =>
    simp [hread, manifestDraft, Except.mapError, bind, Except.bind, Except.map] at hd
  | ok text =>
    cases hm : Json.Value.read (String.ofList text) with
    | error flaw =>
      simp [hread, hm, manifestDraft, Except.mapError, bind, Except.bind, Except.map] at hd
    | ok m =>
      cases hu : Manifest.update c m with
      | error f =>
        simp [hread, hm, hu, manifestDraft, Except.mapError, bind, Except.bind, Except.map] at hd
      | ok u =>
        simp only [hread, hm, hu, manifestDraft, Except.mapError, bind, Except.bind, Except.map,
          Except.ok.injEq] at hd
        exact ⟨text, m, u, rfl, hm, hu, hd ▸ rfl, hd ▸ rfl, hd ▸ rfl⟩

/-- What the task of a bundle drafts when it has read a bundle that can be linked. -/
theorem prepare_bundle_eq_ok {b : Path} {d : Draft Product}
    (hd : ((bundle b).prepare c o fs).1 = .ok d) :
    ∃ text linked log, fs.readText b = .ok text ∧ linkSource text b o = (.ok linked, log) ∧
      d.target = c.linkedPath b ∧ d.content = bytesOf linked.code ∧
      d.output = .artifact (c.linkedPath b) := by
  simp only [prepare, prepareBundle, Prepared.map, readFile] at hd
  cases hread : fs.readText b with
  | error f => simp [hread, Except.mapError, Except.map] at hd
  | ok text =>
    rcases hlink : linkSource text b o with ⟨_ | linked, log⟩
    · simp [hread, hlink, Except.mapError, Except.map] at hd
    · simp only [hread, hlink, Except.mapError, Except.map, Except.ok.injEq] at hd
      exact ⟨text, linked, log, rfl, hlink, hd ▸ rfl, hd ▸ rfl, hd ▸ rfl⟩

theorem prepare_bundle_of_linkSource {b : Path} {text : List Char} {linked : Linked} {log : Log}
    (hread : fs.readText b = .ok text) (hlink : linkSource text b o = (.ok linked, log)) :
    ((bundle b).prepare c o fs).1 = .ok ⟨c.linkedPath b, bytesOf linked.code,
      .artifact (c.linkedPath b), .bundleLinked (c.linkedPath b) linked.rewritten⟩ := by
  simp [prepare, prepareBundle, readFile, hread, hlink, Except.mapError, Prepared.map, Except.map,
    Draft.map]

theorem prepare_manifest_of_update {text : List Char} {m : Json.Value} {u : ManifestUpdate}
    (hread : fs.readText c.manifestPath = .ok text)
    (hm : Json.Value.read (String.ofList text) = .ok m) (hu : Manifest.update c m = .ok u) :
    ∃ d, (manifest.prepare c o fs).1 = .ok d ∧ d.content = bytesOf u.manifest.print ∧
      d.output = .manifest u.changes := by
  let event : Event := .manifestUpdated c.manifestPath u.changes.conditions.length
    u.changes.sideEffects.length
  refine ⟨⟨c.manifestPath, bytesOf u.manifest.print, .manifest u.changes, event⟩, ?_, rfl, rfl⟩
  simp only [prepare, prepareManifest, Prepared.map, readManifest, readFile, hread, hm, hu,
    manifestDraft, Except.mapError, bind, Except.bind, Except.map]
  rfl

theorem target_of_prepare {t : Task} {d : Draft Product} (hd : (t.prepare c o fs).1 = .ok d) :
    d.target = t.target c := by
  cases t with
  | manifest =>
    obtain ⟨_, _, _, _, _, _, htarget, _⟩ := prepare_manifest_eq_ok hd
    exact htarget
  | bundle b =>
    obtain ⟨_, _, _, _, _, htarget, _⟩ := prepare_bundle_eq_ok hd
    exact htarget

variable (c o)

/-! ### A task by itself -/

theorem alone_eq (t : Task) :
    t.alone c o fs =
      match (t.prepare c o fs).1 with
      | .error f => .error f
      | .ok d =>
        match fs.writeTarget (t.target c) with
        | .error problem => .error (.file (t.target c) problem)
        | .ok _ => .ok d.output := by
  rw [alone, run, Prepared.finish]
  cases hd : (t.prepare c o fs).1 with
  | error f => rfl
  | ok d =>
    simp only [Draft.commit, FileSystem.write, target_of_prepare hd]
    cases fs.writeTarget (t.target c) <;> rfl

theorem alone_eq_ok_iff {t : Task} {product : Product} :
    t.alone c o fs = .ok product ↔ ∃ d loc, (t.prepare c o fs).1 = .ok d ∧
      fs.writeTarget (t.target c) = .ok loc ∧ d.output = product := by
  rw [alone_eq]
  cases (t.prepare c o fs).1 with
  | error f => simp
  | ok d => cases fs.writeTarget (t.target c) <;> simp

theorem written?_eq_some_iff {t : Task} {w : Address × Bytes} :
    t.written? c o fs = some w ↔
      ∃ d, (t.prepare c o fs).1 = .ok d ∧ fs.writeTarget (t.target c) = .ok w.1 ∧
        d.content = w.2 := by
  rw [written?]
  cases hd : (t.prepare c o fs).1 with
  | error f => simp
  | ok d =>
    cases htarget : fs.writeTarget (t.target c) with
    | error problem => simp
    | ok loc =>
      simp only [Option.some.injEq, Except.ok.injEq]
      constructor
      · rintro rfl
        exact ⟨d, rfl, rfl, rfl⟩
      · rintro ⟨_, rfl, rfl, hcontent⟩
        exact Prod.ext rfl hcontent

/-! ### A task among others -/

/-- What a task has come to halfway, compared with what it comes to by itself. -/
def PreparedAs (barred : Path → Prop) (fs : FileSystem) (t : Task) (p : Prepared Product) : Prop :=
  p = t.prepare c o fs ∨
    barred (t.source c) ∧ (t.prepare c o fs).1 = .error (.file (t.source c) .notFound) ∧
      p.1 = .error (.file (t.source c) .notADirectory)

variable {c o} {fs' : FileSystem} {ws : List (Address × Bytes)} (h : fs.IsTree)
  (hw : Written fs ws fs') {t : Task}

include h hw

/-- A task reads the same whenever it reads, if no other has written its source. -/
theorem prepare_written
    (hclear : ∀ loc, fs.writeTarget (t.source c) = .ok loc → loc ∉ ws.map Prod.fst) :
    PreparedAs c o (Barred fs ws) fs t (t.prepare c o fs') := by
  rcases hw.readText h hclear with hsame | ⟨hbarred, hbefore, hafter⟩
  · exact Or.inl (prepare_congr c o hsame)
  · refine Or.inr ⟨hbarred, ?_, ?_⟩
    · rw [prepare_of_readText_error c o hbefore]
    · rw [prepare_of_readText_error c o hafter]

/-- A task ends the same whenever it ends, if no other has written its target. -/
theorem finish_written {barred : Path → Prop} {p : Prepared Product}
    (hp : PreparedAs c o barred fs t p) (hbarred : Barred fs ws (t.target c) → barred (t.target c))
    (hclear : ∀ loc, fs.writeTarget (t.target c) = .ok loc → loc ∉ ws.map Prod.fst)
    (hslash : ∀ d, (t.prepare c o fs).1 = .ok d → endsInSlash (t.target c) = false) :
    ResultAlike barred (t.alone c o fs) (p.finish fs').result ∧
      Written fs ((t.written? c o fs).toList ++ ws) (p.finish fs').files := by
  rw [alone_eq, written?, Prepared.finish]
  rcases hp with rfl | ⟨hblocked, hbefore, hafter⟩
  · cases hd : (t.prepare c o fs).1 with
    | error f => exact ⟨.refl barred _, hw⟩
    | ok d =>
      simp only [Draft.commit, FileSystem.write, target_of_prepare hd]
      rcases hw.writeTarget h (hslash d hd) with hsame | ⟨hblocked, hbefore, hafter⟩
      · cases htarget : fs.writeTarget (t.target c) with
        | error problem =>
          rw [hsame, htarget]
          exact ⟨.refl barred _, hw⟩
        | ok loc =>
          have hput : fs'.write (t.target c) d.content = .ok (fs'.put loc (.file d.content)) := by
            rw [FileSystem.write, hsame, htarget]
            rfl
          rw [hsame, htarget]
          exact ⟨.ok d.output, hw.write h htarget (hclear loc htarget) hput⟩
      · rw [hbefore, hafter]
        exact ⟨.error _ _ (.barred _ (hbarred hblocked)), hw⟩
  · rw [hbefore, hafter]
    exact ⟨.error _ _ (.barred _ hblocked), hw⟩

end Task

end BundleLink
