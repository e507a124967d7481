import BundleLink.Proofs.FileSystem.Growth
import Mathlib.Data.List.Perm.Basic

/-!
File systems after some files were written. `Written fs ws fs'` says all that `fs'` is: the contents
in `ws` stand at their addresses and everything else is as in `fs`, so the order of the writes
leaves no trace (`Written.perm`, `Written.same`). Reading through a path that names none of the
written files is as before (`Written.readText`), and so is finding the place to write to
(`Written.writeTarget`), but for one thing: a path that missed a directory where now a file stands
fails with another problem.
-/

set_option autoImplicit false

namespace BundleLink.FileSystem

open BundleLink.Text

/-- The same things stand at the same addresses. -/
def Same (fs fs' : FileSystem) : Prop :=
  fs.current = fs'.current ∧ ∀ loc, fs.lookup? loc = fs'.lookup? loc

/-- The contents `ws` have been written to their addresses, and nothing else has. -/
structure Written (fs : FileSystem) (ws : List (Address × Bytes)) (fs' : FileSystem) : Prop where
  current : fs'.current = fs.current
  writable : ∀ w ∈ ws, fs.Writable w.1
  lookup?_mem : ∀ w ∈ ws, fs'.lookup? w.1 = some (.file w.2)
  lookup?_notMem : ∀ loc, loc ∉ ws.map Prod.fst → fs'.lookup? loc = fs.lookup? loc
  /-- No directory has been made. -/
  leadsOn : (fs'.entries.countP fun e ↦ e.2.leadsOn) = fs.entries.countP fun e ↦ e.2.leadsOn

/-- Putting a file where no directory is makes and removes no directory. -/
theorem countP_putEntry {loc : Address} {content : Bytes} {es : List (Address × Entry)}
    (hplace : ∀ e, (es.find? fun e ↦ e.1 = loc) = some e → e.2.leadsOn = false) :
    ((putEntry loc (.file content) es).countP fun e ↦ e.2.leadsOn) =
      es.countP fun e ↦ e.2.leadsOn := by
  induction es with
  | nil => simp [putEntry, Entry.leadsOn]
  | cons e es ih =>
    by_cases he : e.1 = loc
    · have hleads := hplace e (by simp [he])
      rw [putEntry, if_pos he, List.countP_cons, List.countP_cons, hleads]
      rfl
    · have hrest := ih fun e' he' ↦ hplace e' (by simpa [he] using he')
      rw [putEntry, if_neg he, List.countP_cons, List.countP_cons, hrest]

theorem leadsOn_eq_false {fs : FileSystem} (h : fs.IsTree) {loc : Address} (hloc : loc ≠ [])
    (hplace : fs.lookup? loc ≠ some .directory) {e : Address × Entry}
    (he : (fs.entries.find? fun e ↦ e.1 = loc) = some e) : e.2.leadsOn = false := by
  have hlookup : fs.lookup? loc = some e.2 := by rw [lookup?, if_neg hloc, he, Option.map_some]
  cases hentry : e.2 with
  | file content => rfl
  | link target => exact absurd (hentry ▸ hlookup) (h.no_link loc target)
  | directory => exact absurd (hentry ▸ hlookup) hplace

/-- A write stands in the way of a path where there was nothing before. -/
def Barred (fs : FileSystem) (ws : List (Address × Bytes)) (p : Path) : Prop :=
  ∃ w ∈ ws, w.1 ∈ fs.way p ∧ fs.lookup? w.1 = none

/-- The outcome of a use of a path before and after writes: the same, unless one of them stands in
its way. -/
def Kept {α : Type} (barred : Prop) (before after : Except FileProblem α) : Prop :=
  after = before ∨ barred ∧ before = .error .notFound ∧ after = .error .notADirectory

namespace Written

variable {fs fs' : FileSystem} {ws : List (Address × Bytes)}

theorem refl (fs : FileSystem) : Written fs [] fs :=
  ⟨rfl, by simp, by simp, fun _ _ ↦ rfl, rfl⟩

theorem perm {ws' : List (Address × Bytes)} (hw : Written fs ws fs') (hp : ws.Perm ws') :
    Written fs ws' fs' := by
  refine ⟨hw.current, fun w hmem ↦ hw.writable w (hp.mem_iff.mpr hmem),
    fun w hmem ↦ hw.lookup?_mem w (hp.mem_iff.mpr hmem), fun loc hloc ↦ ?_, hw.leadsOn⟩
  exact hw.lookup?_notMem loc fun hmem ↦ hloc ((hp.map Prod.fst).mem_iff.mp hmem)

/-- What was written fixes what stands where. -/
theorem same {fs'' : FileSystem} (hw : Written fs ws fs') (hw' : Written fs ws fs'') :
    Same fs' fs'' := by
  refine ⟨hw.current.trans hw'.current.symm, fun loc ↦ ?_⟩
  by_cases hloc : loc ∈ ws.map Prod.fst
  · obtain ⟨w, hmem, rfl⟩ := List.mem_map.mp hloc
    rw [hw.lookup?_mem w hmem, hw'.lookup?_mem w hmem]
  · rw [hw.lookup?_notMem loc hloc, hw'.lookup?_notMem loc hloc]

theorem address_eq (hw : Written fs ws fs') (p : Path) : fs'.address p = fs.address p := by
  rw [address, address, hw.current]

/-- A new file in the way of a path is one of those written. -/
theorem barred (hw : Written fs ws fs') {p : Path} {loc : Address} {content : Bytes}
    (hway : loc ∈ fs.way p) (hnone : fs.lookup? loc = none)
    (hfile : fs'.lookup? loc = some (.file content)) : Barred fs ws p := by
  by_cases hloc : loc ∈ ws.map Prod.fst
  · obtain ⟨w, hmem, rfl⟩ := List.mem_map.mp hloc
    exact ⟨w, hmem, hway, hnone⟩
  · rw [hw.lookup?_notMem loc hloc, hnone] at hfile
    cases hfile

variable (h : fs.IsTree) (hw : Written fs ws fs')

include h hw

theorem grown : Grown fs fs' := by
  refine ⟨hw.current, fun loc ↦ ?_⟩
  by_cases hloc : loc ∈ ws.map Prod.fst
  · obtain ⟨w, hmem, rfl⟩ := List.mem_map.mp hloc
    exact Or.inr ⟨(hw.writable w hmem).lookup?_ne_directory h, w.2, hw.lookup?_mem w hmem⟩
  · exact Or.inl (hw.lookup?_notMem loc hloc)

/-- Writing keeps a tree a tree. -/
theorem isTree : fs'.IsTree := by
  have hentry (loc : Address) (entry : Entry) (hloc : fs'.lookup? loc = some entry) :
      (∀ target, entry ≠ .link target) ∧ fs.lookup? loc.dropLast = some .directory ∧
        ∀ name ∈ loc, IsName name := by
    by_cases hwritten : loc ∈ ws.map Prod.fst
    · obtain ⟨w, hmem, rfl⟩ := List.mem_map.mp hwritten
      rw [hw.lookup?_mem w hmem] at hloc
      cases hloc
      exact ⟨by simp, (hw.writable w hmem).parent h, (hw.writable w hmem).is_name h⟩
    · rw [hw.lookup?_notMem loc hwritten] at hloc
      refine ⟨fun target heq ↦ ?_, h.parent loc entry hloc, h.is_name loc entry hloc⟩
      exact h.no_link loc target (heq ▸ hloc)
  refine ⟨fun loc target hloc ↦ ?_, fun loc entry hloc ↦ ?_, fun loc entry hloc ↦ ?_⟩
  · exact (hentry loc _ hloc).1 target rfl
  · exact (hw.grown h).lookup?_directory (hentry loc _ hloc).2.1
  · exact (hentry loc _ hloc).2.2

/-- One more write. -/
theorem write {p : Path} {loc : Address} {content : Bytes} {fs'' : FileSystem}
    (hloc : fs.writeTarget p = .ok loc) (hnew : loc ∉ ws.map Prod.fst)
    (hwrite : fs'.write p content = .ok fs'') : Written fs ((loc, content) :: ws) fs'' := by
  have hne : loc ≠ [] := Writable.ne_nil h ⟨p, hloc⟩
  have htarget : fs'.writeTarget p = .ok loc := by
    rw [FileSystem.write] at hwrite
    cases hp : fs'.writeTarget p with
    | error problem => simp [hp, Except.map] at hwrite
    | ok l =>
      rw [← address_of_writeTarget (hw.isTree h) hp, hw.address_eq p,
        address_of_writeTarget h hloc]
  have hfs : fs'' = fs'.put loc (.file content) := by
    rw [FileSystem.write, htarget] at hwrite
    exact (Except.ok.inj hwrite).symm
  have hleads : ((fs'.put loc (.file content)).entries.countP fun e ↦ e.2.leadsOn) =
      fs'.entries.countP fun e ↦ e.2.leadsOn :=
    countP_putEntry fun e he ↦ leadsOn_eq_false (hw.isTree h) hne
      (Writable.lookup?_ne_directory (hw.isTree h) ⟨p, htarget⟩) he
  subst hfs
  refine ⟨hw.current, fun w hmem ↦ ?_, fun w hmem ↦ ?_, fun l hl ↦ ?_, hleads.trans hw.leadsOn⟩
  · rcases List.mem_cons.mp hmem with rfl | hmem
    · exact ⟨p, hloc⟩
    · exact hw.writable w hmem
  · rcases List.mem_cons.mp hmem with rfl | hmem
    · rw [lookup?_put fs' hne, if_pos rfl]
    · have hold : w.1 ≠ loc := fun heq ↦ hnew (heq ▸ List.mem_map_of_mem hmem)
      rw [lookup?_put fs' hne, if_neg hold, hw.lookup?_mem w hmem]
  · rw [List.map_cons, List.mem_cons, not_or] at hl
    rw [lookup?_put fs' hne, if_neg hl.1, hw.lookup?_notMem l hl.2]

/-- Writing through a path that does not ask for a directory. -/
theorem writeTarget {p : Path} (hslash : endsInSlash p = false) :
    Kept (Barred fs ws p) (fs.writeTarget p) (fs'.writeTarget p) := by
  have hr := resolve_grown h (hw.isTree h) (hw.grown h) p
  unfold FileSystem.writeTarget
  generalize hbefore : fs.resolve p = before at hr ⊢
  generalize fs'.resolve p = after at hr ⊢
  cases hr with
  | directory loc hloc => exact Or.inl rfl
  | failed problem => exact Or.inl rfl
  | vacant loc hloc hloc' => exact Or.inl rfl
  | file loc content content' hloc hloc' => exact Or.inl rfl
  | barred loc content hmem hloc hloc' =>
    exact Or.inr ⟨hw.barred (List.mem_append_left _ hmem) hloc hloc', rfl, rfl⟩
  | made loc content hloc hloc' => exact Or.inl (by simp [hslash])

/-- Reading through a path that names a written file. -/
theorem readBytes_written {p : Path} {w : Address × Bytes} (hmem : w ∈ ws)
    (hp : fs.writeTarget p = .ok w.1) : fs'.readBytes p = .ok w.2 := by
  have hr := resolve_grown h (hw.isTree h) (hw.grown h) p
  obtain ⟨hslash, hplace⟩ := resolve_of_writeTarget hp
  have hread (content : Bytes) (hcontent : fs'.lookup? w.1 = some (.file content))
      (hafter : fs'.resolve p = .ok (.file w.1 content)) : fs'.readBytes p = .ok w.2 := by
    rw [hw.lookup?_mem w hmem, Option.some.injEq, Entry.file.injEq] at hcontent
    simp [FileSystem.readBytes, hafter, hslash, hcontent]
  generalize hafter : fs'.resolve p = after at hr
  rcases hplace with ⟨content, hbefore⟩ | hbefore
  · rw [hbefore] at hr
    cases hr with
    | file _ _ content' _ hloc' => exact hread content' hloc' hafter
  · rw [hbefore] at hr
    cases hr with
    | made _ content' _ hloc' => exact hread content' hloc' hafter
    | vacant _ _ hloc' =>
      rw [hw.lookup?_mem w hmem] at hloc'
      cases hloc'

variable {p : Path} (hclear : ∀ loc, fs.writeTarget p = .ok loc → loc ∉ ws.map Prod.fst)

include hclear

/-- Reading through a path that names no written file. -/
theorem readBytes : Kept (Barred fs ws p) (fs.readBytes p) (fs'.readBytes p) := by
  have hr := resolve_grown h (hw.isTree h) (hw.grown h) p
  unfold FileSystem.readBytes
  generalize hbefore : fs.resolve p = before at hr ⊢
  generalize fs'.resolve p = after at hr ⊢
  have hsame (loc : Address) (hslash : endsInSlash p = false)
      (hplace : (∃ content, before = .ok (.file loc content)) ∨ before = .ok (.vacant loc)) :
      fs'.lookup? loc = fs.lookup? loc := by
    refine hw.lookup?_notMem loc (hclear loc ?_)
    rw [FileSystem.writeTarget, hbefore]
    rcases hplace with ⟨content, rfl⟩ | rfl <;> simp [hslash]
  cases hr with
  | directory loc hloc => exact Or.inl rfl
  | failed problem => exact Or.inl rfl
  | vacant loc hloc hloc' => exact Or.inl rfl
  | barred loc content hmem hloc hloc' =>
    exact Or.inr ⟨hw.barred (List.mem_append_left _ hmem) hloc hloc', rfl, rfl⟩
  | file loc content content' hloc hloc' =>
    by_cases hslash : endsInSlash p
    · exact Or.inl (by simp [hslash])
    · have heq := hsame loc (by simpa using hslash) (Or.inl ⟨content, rfl⟩)
      rw [hloc, hloc'] at heq
      cases heq
      exact Or.inl rfl
  | made loc content hloc hloc' =>
    by_cases hslash : endsInSlash p
    · have haddress : fs.address p = loc := (resolve_ok h hbefore).1.symm
      have hway : loc ∈ fs.way p := by simp [way, hslash, haddress]
      exact Or.inr ⟨hw.barred hway hloc hloc', rfl, by simp [hslash]⟩
    · have heq := hsame loc (by simpa using hslash) (Or.inr rfl)
      rw [hloc, hloc'] at heq
      cases heq

theorem readText : Kept (Barred fs ws p) (fs.readText p) (fs'.readText p) := by
  unfold FileSystem.readText
  rcases hw.readBytes h hclear with hsame | ⟨hbarred, hbefore, hafter⟩
  · rw [hsame]
    exact Or.inl rfl
  · rw [hbefore, hafter]
    exact Or.inr ⟨hbarred, rfl, rfl⟩

end Written

/-! ### After the writes -/

section

variable {fs fs' : FileSystem} {ws : List (Address × Bytes)} (h : fs.IsTree)
  (hw : Written fs ws fs')

include h hw

theorem Written.writeTarget_ok {p : Path} {loc : Address} (hloc : fs.writeTarget p = .ok loc) :
    fs'.writeTarget p = .ok loc := by
  rcases hw.writeTarget h (resolve_of_writeTarget hloc).1 with hsame | ⟨-, hbefore, -⟩
  · rw [hsame, hloc]
  · rw [hloc] at hbefore
    cases hbefore

theorem Written.readText_ok {p : Path} {text : List Char} (hread : fs.readText p = .ok text)
    (hclear : ∀ loc, fs.writeTarget p = .ok loc → loc ∉ ws.map Prod.fst) :
    fs'.readText p = .ok text := by
  rcases hw.readText h hclear with hsame | ⟨-, hbefore, -⟩
  · rw [hsame, hread]
  · rw [hread] at hbefore
    cases hbefore

omit h in
/-- Writing the same again leaves everything as it is. -/
theorem Written.same_again {fs'' : FileSystem} (hw' : Written fs' ws fs'') : Same fs' fs'' := by
  refine ⟨hw'.current.symm, fun loc ↦ ?_⟩
  by_cases hloc : loc ∈ ws.map Prod.fst
  · obtain ⟨w, hmem, rfl⟩ := List.mem_map.mp hloc
    rw [hw.lookup?_mem w hmem, hw'.lookup?_mem w hmem]
  · rw [hw'.lookup?_notMem loc hloc]

end

end BundleLink.FileSystem
