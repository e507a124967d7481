import BundleLink.Link.Source
import Mathlib.Data.List.Forall2
import Mathlib.Data.List.Induction
import Mathlib.Logic.Function.Basic

/-!
What a relinker does to the modules it visits, in any order and any number of times. A module that
it has visited `k` times has `k` copies of the suffix after each of its relative specifiers and is
otherwise as it was (`VisitedModule`). Each visit does this once more (`VisitedModule.succ`), and
the specifiers that it finds are those of the module as it was, with the copies they have got
(`VisitedModule.relatives_eq`). So the modules, the count and the log of a relinker are told by the
list of its visits alone (`recounts_foldl_visit`). Linking a text is one such visit, of the module
that the last plugin left.
-/

set_option autoImplicit false

namespace BundleLink

open BundleLink.Script BundleLink.Link

namespace Script.ModuleItem

theorem source?_withSource {i : ModuleItem} {s : StringLit} (hi : i.source? = some s)
    (s' : StringLit) : (i.withSource s').source? = some s' := by
  cases i with
  | importDecl d => rfl
  | exportNamed d =>
    have hsource : d.source = some s := hi
    simp [withSource, source?, hsource]
  | exportAll d => rfl
  | _ => cases hi

theorem withSource_self {i : ModuleItem} {s : StringLit} (hi : i.source? = some s) :
    i.withSource s = i := by
  cases i with
  | exportNamed d =>
    obtain ⟨span, comma, specifiers, source, attributes⟩ := d
    have hsource : source = some s := hi
    rw [hsource, withSource, Option.map_some]
  | importDecl d | exportAll d => cases hi; rfl
  | _ => cases hi

end Script.ModuleItem

namespace Link

namespace Relinker

variable (suffix : String) {i : ModuleItem}

theorem item_of_relative {s : StringLit} (hi : i.source? = some s)
    (hs : isRelative s.value.lossy) : (item suffix i).1 = i.withSource (suffixed suffix s) := by
  simp [item, hi, hs]

theorem item_of_not_relative (hi : ∀ s, i.source? = some s → ¬isRelative s.value.lossy) :
    (item suffix i).1 = i := by
  cases hsource : i.source? with
  | none => simp [item, hsource]
  | some s => simp [item, hsource, hi s hsource]

end Relinker

/-- `k` copies of a suffix, one after the other. -/
def copies (suffix : String) (k : ℕ) : String :=
  String.join (List.replicate k suffix)

@[simp] theorem copies_zero (suffix : String) : copies suffix 0 = "" := rfl

theorem copies_succ (suffix : String) (k : ℕ) :
    copies suffix (k + 1) = copies suffix k ++ suffix := by
  simp [copies, String.join, List.replicate_succ']

@[simp] theorem copies_one (suffix : String) : copies suffix 1 = suffix := by
  simp [copies_succ]

/-- A source after `k` visits. -/
structure VisitedSource (suffix : String) (k : ℕ) (s s' : StringLit) : Prop where
  span : s'.span = s.span
  relative : isRelative s.value.lossy → 0 < k →
    s'.value = .ofString (s.value.lossy ++ copies suffix k) ∧ s'.raw = none
  other : k = 0 ∨ ¬isRelative s.value.lossy → s' = s

/-- An item after `k` visits. -/
inductive VisitedItem (suffix : String) (k : ℕ) : ModuleItem → ModuleItem → Prop
  | importDecl (d : ImportDecl) {s : StringLit} (hs : VisitedSource suffix k d.source s) :
    VisitedItem suffix k (.importDecl d) (.importDecl { d with source := s })
  | exportFrom (d : ExportNamed) {s s' : StringLit} (hd : d.source = some s)
    (hs : VisitedSource suffix k s s') :
    VisitedItem suffix k (.exportNamed d) (.exportNamed { d with source := some s' })
  | exportLocal (d : ExportNamed) (hd : d.source = none) :
    VisitedItem suffix k (.exportNamed d) (.exportNamed d)
  | exportAll (d : ExportAll) {s : StringLit} (hs : VisitedSource suffix k d.source s) :
    VisitedItem suffix k (.exportAll d) (.exportAll { d with source := s })
  | exportDecl (span : Span) (d : Stmt) :
    VisitedItem suffix k (.exportDecl span d) (.exportDecl span d)
  | exportDefaultDecl (span : Span) (d : DefaultDecl) :
    VisitedItem suffix k (.exportDefaultDecl span d) (.exportDefaultDecl span d)
  | exportDefaultExpr (span : Span) (e : Expr) :
    VisitedItem suffix k (.exportDefaultExpr span e) (.exportDefaultExpr span e)
  | stmt (s : Stmt) : VisitedItem suffix k (.stmt s) (.stmt s)

/-- A module after `k` visits. -/
structure VisitedModule (suffix : String) (k : ℕ) (m m' : Module) : Prop where
  span : m'.span = m.span
  shebang : m'.shebang = m.shebang
  items : List.Forall₂ (VisitedItem suffix k) m.items m'.items

/-- The specifier by which an item loads a module, if it is relative. -/
def relative? (i : ModuleItem) : Option String :=
  (i.source?.map (·.value.lossy)).filter isRelative

/-- The relative specifiers of a module, in the order of its items. -/
def relatives (m : Module) : List String :=
  m.items.filterMap relative?

/-- The events of a visit to a module that has been visited `k` times and began with the relative
specifiers `olds`. -/
def rewritings (suffix : String) (k : ℕ) (olds : List String) : Log :=
  olds.map fun old ↦ .specifierRewritten (old ++ copies suffix k) (old ++ copies suffix (k + 1))

section

variable {suffix : String} {k : ℕ}

theorem VisitedSource.refl (s : StringLit) : VisitedSource suffix 0 s s :=
  ⟨rfl, fun _ hk ↦ absurd hk (Nat.lt_irrefl 0), fun _ ↦ rfl⟩

/-- The specifier of a source after `k` visits, also of one that stays as it is. -/
theorem VisitedSource.lossy_eq {s s' : StringLit} (h : VisitedSource suffix k s s') :
    s'.value.lossy =
      if isRelative s.value.lossy then s.value.lossy ++ copies suffix k else s.value.lossy := by
  split_ifs with hs
  · rcases Nat.eq_zero_or_pos k with rfl | hk
    · simp [h.other (.inl rfl)]
    · rw [(h.relative hs hk).1, Codes.lossy_ofString]
  · rw [h.other (.inr hs)]

/-- A source that has been visited `k` times is visited once more. -/
theorem VisitedSource.succ {s s' s'' : StringLit} (h : VisitedSource suffix k s s')
    (hnext : VisitedSource suffix 1 s' s'') : VisitedSource suffix (k + 1) s s'' := by
  refine ⟨hnext.span.trans h.span, fun hs _ ↦ ?_, fun hother ↦ ?_⟩
  · have hlossy := h.lossy_eq
    rw [if_pos hs] at hlossy
    obtain ⟨hvalue, hraw⟩ := hnext.relative (hlossy ▸ isRelative_append hs _) Nat.one_pos
    rw [hvalue, hlossy, copies_one, String.append_assoc, ← copies_succ]
    exact ⟨rfl, hraw⟩
  · have hs := hother.resolve_left (Nat.succ_ne_zero k)
    obtain rfl := h.other (.inr hs)
    exact hnext.other (.inr hs)

/-- A visit changes the source of an item and nothing else of it. -/
theorem exists_item_eq (suffix : String) {i : ModuleItem} {s : StringLit}
    (hi : i.source? = some s) :
    ∃ s', (Relinker.item suffix i).1 = i.withSource s' ∧ VisitedSource suffix 1 s s' := by
  by_cases hs : isRelative s.value.lossy
  · exact ⟨_, Relinker.item_of_relative suffix hi hs, rfl, fun _ _ ↦ by simp [Relinker.suffixed],
      fun hother ↦ absurd hs (hother.resolve_left Nat.one_ne_zero)⟩
  · refine ⟨s, ?_, rfl, fun hs' ↦ absurd hs' hs, fun _ ↦ rfl⟩
    rw [ModuleItem.withSource_self hi]
    exact Relinker.item_of_not_relative suffix fun s' hi' ↦ by
      rwa [← Option.some.inj (hi.symm.trans hi')]

theorem VisitedItem.refl (i : ModuleItem) : VisitedItem suffix 0 i i := by
  cases i with
  | importDecl d => exact .importDecl d (.refl _)
  | exportNamed d =>
    cases hd : d.source with
    | none => exact .exportLocal d hd
    | some s => simpa [← hd] using VisitedItem.exportFrom d hd (.refl s)
  | exportAll d => exact .exportAll d (.refl _)
  | exportDecl span d => exact .exportDecl span d
  | exportDefaultDecl span d => exact .exportDefaultDecl span d
  | exportDefaultExpr span e => exact .exportDefaultExpr span e
  | stmt s => exact .stmt s

theorem VisitedItem.succ {i i' : ModuleItem} (h : VisitedItem suffix k i i') :
    VisitedItem suffix (k + 1) i (Relinker.item suffix i').1 := by
  cases h with
  | importDecl d hs =>
    obtain ⟨s', hitem, hnext⟩ := exists_item_eq suffix (i := .importDecl _) rfl
    exact hitem ▸ .importDecl d (hs.succ hnext)
  | @exportFrom d s s' hd hs =>
    obtain ⟨s'', hitem, hnext⟩ :=
      exists_item_eq suffix (i := .exportNamed { d with source := some s' }) rfl
    exact hitem ▸ .exportFrom d hd (hs.succ hnext)
  | exportAll d hs =>
    obtain ⟨s', hitem, hnext⟩ := exists_item_eq suffix (i := .exportAll _) rfl
    exact hitem ▸ .exportAll d (hs.succ hnext)
  | exportLocal d hd =>
    rw [Relinker.item_of_not_relative suffix fun s hi ↦ by simp [ModuleItem.source?, hd] at hi]
    exact .exportLocal d hd
  | exportDecl span d => exact .exportDecl span d
  | exportDefaultDecl span d => exact .exportDefaultDecl span d
  | exportDefaultExpr span e => exact .exportDefaultExpr span e
  | stmt s => exact .stmt s

theorem VisitedItem.relative?_eq {i i' : ModuleItem} (h : VisitedItem suffix k i i') :
    relative? i' = (relative? i).map (· ++ copies suffix k) := by
  have hsource {s s' : StringLit} (hs : VisitedSource suffix k s s') :
      (some s'.value.lossy).filter isRelative =
        ((some s.value.lossy).filter isRelative).map (· ++ copies suffix k) := by
    rw [hs.lossy_eq]
    by_cases hr : isRelative s.value.lossy
    · simp [Option.filter, hr, isRelative_append hr]
    · simp [Option.filter, hr]
  cases h with
  | importDecl d hs => exact hsource hs
  | exportFrom d hd hs => simpa [relative?, ModuleItem.source?, hd] using hsource hs
  | exportAll d hs => exact hsource hs
  | exportLocal d hd => simp [relative?, ModuleItem.source?, hd]
  | _ => rfl

theorem VisitedModule.refl (m : Module) : VisitedModule suffix 0 m m :=
  ⟨rfl, rfl, List.forall₂_same.mpr fun i _ ↦ .refl i⟩

theorem VisitedModule.succ {m m' : Module} (h : VisitedModule suffix k m m') (n : ℕ) :
    VisitedModule suffix (k + 1) m (Relinker.run ⟨suffix, n⟩ m').1 := by
  refine ⟨h.span, h.shebang, ?_⟩
  rw [Relinker.run, List.map_map, List.forall₂_map_right_iff]
  exact h.items.imp fun _ _ hi ↦ hi.succ

theorem VisitedModule.relatives_eq {m m' : Module} (h : VisitedModule suffix k m m') :
    relatives m' = (relatives m).map (· ++ copies suffix k) := by
  have hitems := h.items
  rw [relatives, relatives, List.map_filterMap]
  generalize m.items = items, m'.items = items' at hitems ⊢
  induction hitems with
  | nil => rfl
  | cons hi _ ih => rw [List.filterMap_cons, List.filterMap_cons, hi.relative?_eq, ih]

theorem item_snd_eq (suffix : String) (i : ModuleItem) : (Relinker.item suffix i).2 =
    (relative? i).map fun old ↦ .specifierRewritten old (old ++ suffix) := by
  cases hi : i.source? with
  | none => simp [Relinker.item, relative?, hi]
  | some s =>
    by_cases hs : isRelative s.value.lossy <;>
      simp [Relinker.item, relative?, hi, hs, Option.filter]

/-- What a visit counts and tells, of a module that has been visited `k` times. -/
theorem VisitedModule.run_eq {m m' : Module} (h : VisitedModule suffix k m m') (n : ℕ) :
    (Relinker.run ⟨suffix, n⟩ m').2 =
      (⟨suffix, n + (relatives m).length⟩, rewritings suffix k (relatives m)) := by
  have hlog : (m'.items.map (Relinker.item suffix)).filterMap (·.2) =
      rewritings suffix k (relatives m) := by
    rw [List.filterMap_map]
    calc m'.items.filterMap ((·.2) ∘ Relinker.item suffix)
        = (relatives m').map fun old ↦ .specifierRewritten old (old ++ suffix) := by
          rw [relatives, List.map_filterMap]
          exact List.filterMap_congr fun i _ ↦ item_snd_eq suffix i
      _ = rewritings suffix k (relatives m) := by
          rw [h.relatives_eq, List.map_map, rewritings]
          simp only [Function.comp_def, String.append_assoc, copies_succ]
  rw [Relinker.run]
  simp only [hlog, rewritings, List.length_map]

end

/-! ### Any number of visits -/

/-- Modules that one relinker visits, and what it has told of its visits. -/
structure History (ι : Type) where
  modules : ι → Module
  relinker : Relinker
  log : Log

namespace History

variable {ι : Type} [DecidableEq ι]

/-- A new relinker and the modules that it will visit. -/
def start (suffix : String) (modules : ι → Module) : History ι :=
  ⟨modules, ⟨suffix, 0⟩, []⟩

def visit (h : History ι) (i : ι) : History ι :=
  let (m, relinker, log) := Relinker.run h.relinker (h.modules i)
  ⟨Function.update h.modules i m, relinker, h.log ++ log⟩

/-- What a relinker has done when its visits are `visits` and the modules were `modules`. -/
structure Recounts (suffix : String) (modules : ι → Module) (visits : List ι) (h : History ι) :
    Prop where
  visited : ∀ i, VisitedModule suffix (visits.count i) (modules i) (h.modules i)
  relinker : h.relinker = ⟨suffix, (visits.flatMap fun i ↦ relatives (modules i)).length⟩
  log : h.log = visits.zipIdx.flatMap fun (i, n) ↦
    rewritings suffix ((visits.take n).count i) (relatives (modules i))

variable {suffix : String} {modules : ι → Module} {visits : List ι} {h : History ι}

/-- There is one event for each specifier that was suffixed. -/
theorem Recounts.length_log (hrecounts : Recounts suffix modules visits h) :
    h.log.length = h.relinker.rewritten := by
  have hlength (k : ℕ) (olds : List String) : (rewritings suffix k olds).length = olds.length :=
    List.length_map ..
  have hfirst : visits.zipIdx.map (fun x ↦ (relatives (modules x.1)).length) =
      visits.map fun i ↦ (relatives (modules i)).length := by
    conv_rhs => rw [← List.zipIdx_map_fst 0 visits]
    rw [List.map_map]
    rfl
  rw [hrecounts.log, hrecounts.relinker, List.length_flatMap, List.length_flatMap]
  simp only [hlength, hfirst]

/-- Each visit is recounted from those before it. -/
theorem Recounts.visit (hrecounts : Recounts suffix modules visits h) (i : ι) :
    Recounts suffix modules (visits ++ [i]) (h.visit i) := by
  have hvisited := hrecounts.visited i
  have hrun := hvisited.run_eq (visits.flatMap fun i ↦ relatives (modules i)).length
  refine ⟨fun j ↦ ?_, ?_, ?_⟩
  · rw [History.visit, hrecounts.relinker]
    by_cases hj : j = i
    · subst hj
      simpa using hvisited.succ _
    · simpa [hj, Ne.symm hj] using hrecounts.visited j
  · have hrelinker : (h.visit i).relinker = (h.relinker.run (h.modules i)).2.1 := rfl
    rw [hrelinker, hrecounts.relinker, hrun, List.flatMap_append, List.length_append,
      List.flatMap_singleton]
  · have hbefore : ∀ x ∈ visits.zipIdx,
        rewritings suffix (((visits ++ [i]).take x.2).count x.1) (relatives (modules x.1)) =
          rewritings suffix ((visits.take x.2).count x.1) (relatives (modules x.1)) := by
      intro x hx
      rw [List.take_append_of_le_length (Nat.le_of_lt (List.mem_zipIdx' hx).1)]
    have hlog : (h.visit i).log = h.log ++ (h.relinker.run (h.modules i)).2.2 := rfl
    rw [List.zipIdx_append, List.flatMap_append, List.flatMap_congr hbefore, ← hrecounts.log,
      hlog, hrecounts.relinker, hrun]
    simp

/-- The modules, the count and the log of a relinker are told by the list of its visits. -/
theorem recounts_foldl_visit (suffix : String) (modules : ι → Module) (visits : List ι) :
    Recounts suffix modules visits (visits.foldl visit (start suffix modules)) := by
  -- From the end of the list, where a visit is added to those that are recounted.
  induction visits using List.reverseRecOn with
  | nil => exact ⟨fun i ↦ .refl _, rfl, rfl⟩
  | append_singleton visits i ih =>
    rw [List.foldl_append, List.foldl_cons, List.foldl_nil]
    exact ih.visit i

example : (([0, 1, 0] : List (Fin 2)).foldl visit <| start ".x" fun i ↦
    ⟨⟨0, 0⟩, none, [.exportAll ⟨⟨0, 0⟩, ⟨⟨0, 0⟩, .ofString (if i = 0 then "./a" else "b"), none⟩,
      none⟩]⟩).log.map Event.text =
    ["Rewriting specifier ./a -> ./a.x", "Rewriting specifier ./a.x -> ./a.x.x"] := by
  decide

end History

/-! ### The one visit of a linked text -/

/-- A text that can be parsed is linked from the module that the last plugin left, visited once. -/
theorem linkSource_of_parsed {source : List Char} {path : Path} {m : Module} {comments : Comments}
    (hparse : parseModule (withoutMark source) path = .ok (m, comments)) (o : Options) :
    ∃ last m', last = o.plugins.foldl (fun m p ↦ p.pass path m) m ∧
      VisitedModule o.suffix 1 last m' ∧
      linkSource source path o =
        (.ok ⟨m'.print (if o.preserveComments then comments else []), (relatives last).length⟩,
          (o.plugins.map fun p ↦ .pluginRun p.name path) ++
            rewritings o.suffix 0 (relatives last)) := by
  generalize hlast : o.plugins.foldl (fun m p ↦ p.pass path m) m = last
  have hvisited : VisitedModule o.suffix 0 last last := .refl last
  have hnext := hvisited.succ 0
  have hrun := hvisited.run_eq 0
  unfold linkSource
  rw [hparse]
  dsimp only [runPlugins]
  rw [hlast]
  generalize Relinker.run ⟨o.suffix, 0⟩ last = result at hnext hrun ⊢
  obtain ⟨m', relinker, log⟩ := result
  obtain ⟨rfl, rfl⟩ := Prod.mk.inj hrun
  exact ⟨last, m', rfl, hnext, by rw [Nat.zero_add]⟩

open History in
/-- Specifiers are suffixed once a visit, however the modules are visited, and once when a text is
linked, whatever its plugins do. -/
theorem suffixed_once_a_visit {ι : Type} [DecidableEq ι] (suffix : String) (modules : ι → Module)
    (visits : List ι) (source : List Char) (path : Path) (o : Options) :
    (∃ h, visits.foldl visit (start suffix modules) = h ∧ Recounts suffix modules visits h ∧
      h.log.length = h.relinker.rewritten) ∧
    match parseModule (withoutMark source) path with
    | .error e => linkSource source path o = (.error e, [])
    | .ok (m, comments) => ∃ last m', last = o.plugins.foldl (fun m p ↦ p.pass path m) m ∧
        VisitedModule o.suffix 1 last m' ∧
        linkSource source path o =
          (.ok ⟨m'.print (if o.preserveComments then comments else []), (relatives last).length⟩,
            (o.plugins.map fun p ↦ .pluginRun p.name path) ++
              rewritings o.suffix 0 (relatives last)) := by
  have hrecounts := recounts_foldl_visit suffix modules visits
  refine ⟨⟨_, rfl, hrecounts, hrecounts.length_log⟩, ?_⟩
  cases hparse : parseModule (withoutMark source) path with
  | error e =>
    unfold linkSource
    rw [hparse]
  | ok parsed => exact linkSource_of_parsed hparse o

end Link

end BundleLink
