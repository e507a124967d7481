import BundleLink.FileSystem
import BundleLink.Proofs.Text.Parts
import Mathlib.Data.List.Basic
import Mathlib.Data.List.Induction

/-!
File systems without symbolic links. In such a tree a path leads to the address that its names spell
(`resolve_ok`), however deep it goes and however often it steps up, and a file can be written there
where a file stands or, in a directory, nothing (`Writable.lookup?`). Writing a file changes what
stands at that one address (`lookup?_put`).
-/

set_option autoImplicit false

namespace BundleLink

/-- Whether an entry stands for another one. -/
def Entry.isLink : Entry → Bool
  | link _ => true
  | _ => false

namespace FileSystem

open BundleLink.Text

/-! ### What stands at an address -/

@[simp] theorem lookup?_nil (fs : FileSystem) : fs.lookup? [] = some .directory := by
  simp [lookup?]

theorem find?_putEntry (loc l : Address) (entry : Entry) (es : List (Address × Entry)) :
    ((putEntry loc entry es).find? fun e ↦ e.1 = l) =
      if l = loc then some (loc, entry) else es.find? fun e ↦ e.1 = l := by
  induction es with
  | nil =>
    by_cases h : l = loc
    · simp [putEntry, h]
    · simp [putEntry, h, Ne.symm h]
  | cons e es ih =>
    by_cases he : e.1 = loc
    · by_cases h : l = loc
      · simp [putEntry, he, h]
      · simp [putEntry, he, h, Ne.symm h]
    · by_cases h : l = loc
      · simp [putEntry, he, h] at ih ⊢
        exact ih
      · simp [putEntry, he, h, List.find?_cons] at ih ⊢
        rw [ih]

theorem lookup?_put (fs : FileSystem) {loc : Address} (hloc : loc ≠ []) (entry : Entry)
    (l : Address) :
    (fs.put loc entry).lookup? l = if l = loc then some entry else fs.lookup? l := by
  by_cases hl : l = []
  · simp [hl, Ne.symm hloc]
  · simp only [lookup?, put, hl, if_false, find?_putEntry]
    split_ifs <;> rfl

@[simp] theorem current_put (fs : FileSystem) (loc : Address) (entry : Entry) :
    (fs.put loc entry).current = fs.current := rfl

/-! ### Trees -/

/-- What the name of an entry can be. -/
def IsName (name : Bytes) : Prop :=
  name ≠ [] ∧ Path.slash ∉ name ∧ name ≠ [Path.dot] ∧ name ≠ [Path.dot, Path.dot]

/-- A file system without symbolic links: whatever stands in it is a file or a directory, stands in
a directory and has a name. -/
structure IsTree (fs : FileSystem) : Prop where
  no_link : ∀ loc target, fs.lookup? loc ≠ some (.link target)
  parent : ∀ loc entry, fs.lookup? loc = some entry → fs.lookup? loc.dropLast = some .directory
  is_name : ∀ loc entry, fs.lookup? loc = some entry → ∀ name ∈ loc, IsName name

/-- What every file system is, symbolic links or not: whatever stands in it stands in a directory
and has a name. -/
structure IsSound (fs : FileSystem) : Prop where
  parent : ∀ loc entry, fs.lookup? loc = some entry → fs.lookup? loc.dropLast = some .directory
  is_name : ∀ loc entry, fs.lookup? loc = some entry → ∀ name ∈ loc, IsName name

theorem IsTree.isSound {fs : FileSystem} (h : fs.IsTree) : fs.IsSound :=
  ⟨h.parent, h.is_name⟩

/-- What stands below an address stands in a directory there. -/
theorem lookup?_of_below {fs : FileSystem} (h : fs.IsTree) {loc rest : Address} (hrest : rest ≠ [])
    {entry : Entry} (hentry : fs.lookup? (loc ++ rest) = some entry) :
    fs.lookup? loc = some .directory := by
  induction rest using List.reverseRecOn generalizing entry with
  | nil => exact absurd rfl hrest
  | append_singleton front name ih =>
    have hparent := h.parent _ _ hentry
    rw [← List.append_assoc, List.dropLast_concat] at hparent
    by_cases hfront : front = []
    · rwa [hfront, List.append_nil] at hparent
    · exact ih hfront hparent

theorem mem_entries_of_lookup? {fs : FileSystem} {loc : Address} {entry : Entry} (hloc : loc ≠ [])
    (hentry : fs.lookup? loc = some entry) : (loc, entry) ∈ fs.entries := by
  rw [lookup?, if_neg hloc, Option.map_eq_some_iff] at hentry
  obtain ⟨e, hfind, rfl⟩ := hentry
  have haddress : e.1 = loc := by simpa using List.find?_some hfind
  exact haddress ▸ List.mem_of_find?_eq_some hfind

theorem isSound_of_entries {fs : FileSystem} (hentries : ∀ e ∈ fs.entries,
    fs.lookup? e.1.dropLast = some .directory ∧ ∀ name ∈ e.1, IsName name) : fs.IsSound := by
  refine ⟨fun loc entry hentry ↦ ?_, fun loc entry hentry ↦ ?_⟩
  · by_cases hloc : loc = []
    · simp [hloc]
    · exact (hentries _ (mem_entries_of_lookup? hloc hentry)).1
  · by_cases hloc : loc = []
    · simp [hloc]
    · exact (hentries _ (mem_entries_of_lookup? hloc hentry)).2

/-- Whether a file system is a tree can be told from its entries. -/
theorem isTree_iff (fs : FileSystem) : fs.IsTree ↔
    ∀ e ∈ fs.entries, e.1 = [] ∨ fs.lookup? e.1 ≠ some e.2 ∨
      e.2.isLink = false ∧ fs.lookup? e.1.dropLast = some .directory ∧
        ∀ name ∈ e.1, IsName name := by
  constructor
  · intro h e he
    by_cases hentry : fs.lookup? e.1 = some e.2
    · refine Or.inr (Or.inr ⟨?_, h.parent _ _ hentry, h.is_name _ _ hentry⟩)
      obtain ⟨loc, entry⟩ := e
      cases entry with
      | link target => exact absurd hentry (h.no_link loc target)
      | file content => rfl
      | directory => rfl
    · exact Or.inr (Or.inl hentry)
  · intro hentries
    have hentry (loc : Address) (entry : Entry) (hloc : loc ≠ [])
        (hlookup : fs.lookup? loc = some entry) : entry.isLink = false ∧
          fs.lookup? loc.dropLast = some .directory ∧ ∀ name ∈ loc, IsName name := by
      rcases hentries _ (mem_entries_of_lookup? hloc hlookup) with hnil | hne | hsound
      · exact absurd hnil hloc
      · exact absurd hlookup hne
      · exact hsound
    refine ⟨fun loc target hlookup ↦ ?_, fun loc entry hlookup ↦ ?_, fun loc entry hlookup ↦ ?_⟩
    · by_cases hloc : loc = []
      · simp [hloc] at hlookup
      · exact absurd (hentry loc _ hloc hlookup).1 (by simp [Entry.isLink])
    · by_cases hloc : loc = []
      · simp [hloc]
      · exact (hentry loc _ hloc hlookup).2.1
    · by_cases hloc : loc = []
      · simp [hloc]
      · exact (hentry loc _ hloc hlookup).2.2

instance (name : Bytes) : Decidable (IsName name) :=
  inferInstanceAs (Decidable (_ ∧ _ ∧ _ ∧ _))

instance (fs : FileSystem) : Decidable fs.IsTree :=
  decidable_of_iff _ (isTree_iff fs).symm

/-! ### Following names -/

/-- The addresses that names lead through, from a given one, before they reach the last. -/
def wayFrom : Address → List Bytes → List Address
  | _, [] => []
  | loc, name :: names => loc :: wayFrom (step loc name) names

/-- Where a path begins. -/
def start (fs : FileSystem) (p : Path) : Address :=
  if p.isAbsolute then [] else fs.current

/-- Where a path leads, if it leads anywhere in a tree. -/
def address (fs : FileSystem) (p : Path) : Address :=
  addressFrom fs.current p

/-- The addresses that a path leads through before it reaches its own; with a separator at its end
it leads through that one too. -/
def way (fs : FileSystem) (p : Path) : List Address :=
  wayFrom (fs.start p) (steps p) ++ if endsInSlash p then [fs.address p] else []

theorem address_eq (fs : FileSystem) (p : Path) :
    fs.address p = (steps p).foldl step (fs.start p) := rfl

/-- What stands at a new place for an entry, in terms of the names that lead to it. -/
structure NewPlace (fs : FileSystem) (names : List Bytes) (loc : Address) : Prop where
  lookup?_eq_none : fs.lookup? loc = none
  exists_parent : ∃ around name, loc = around ++ [name] ∧ fs.lookup? around = some .directory ∧
    name ∈ names ∧ name ≠ [Path.dot] ∧ name ≠ [Path.dot, Path.dot]

/-- What it means that names which spell an address lead to a place. -/
def Stands (fs : FileSystem) (names : List Bytes) (loc : Address) : Place → Prop
  | .file l content => l = loc ∧ fs.lookup? loc = some (.file content)
  | .directory l => l = loc ∧ fs.lookup? loc = some .directory
  | .vacant l => l = loc ∧ NewPlace fs names loc

theorem Stands.cons {fs : FileSystem} {names : List Bytes} {loc : Address} {place : Place}
    (hs : Stands fs names loc place) (name : Bytes) : Stands fs (name :: names) loc place := by
  cases place with
  | file l content => exact hs
  | directory l => exact hs
  | vacant l =>
    obtain ⟨around, last, heq, hdir, hmem, hnames⟩ := hs.2.exists_parent
    exact ⟨hs.1, hs.2.lookup?_eq_none, around, last, heq, hdir, List.mem_cons_of_mem _ hmem, hnames⟩

/-- A step from a directory of a tree to where nothing stands is a step down. -/
theorem newPlace_step {fs : FileSystem} (h : fs.IsTree) {loc : Address}
    (hloc : fs.lookup? loc = some .directory) {name : Bytes}
    (hnext : fs.lookup? (step loc name) = none) : NewPlace fs [name] (step loc name) := by
  refine ⟨hnext, loc, name, ?_⟩
  unfold step at hnext ⊢
  split_ifs at hnext ⊢ with hdot hup
  · rw [hloc] at hnext
    cases hnext
  · rw [h.parent loc _ hloc] at hnext
    cases hnext
  · exact ⟨rfl, hloc, List.mem_singleton_self name, hdot, hup⟩

section

variable {fs : FileSystem} (h : fs.IsTree)
  (jump : Address → List Bytes → Except FileProblem Place)

include h in
/-- In a tree all names are followed in one way: steps in place and up lead to directories too. -/
theorem walkWith_cons {loc : Address} (hloc : fs.lookup? loc = some .directory) (name : Bytes)
    (names : List Bytes) :
    walkWith fs jump loc (name :: names) =
      if maxName < name.length then .error .nameTooLong
      else
        match fs.lookup? (step loc name) with
        | none => if names.isEmpty then .ok (.vacant (step loc name)) else .error .notFound
        | some _ => walkWith fs jump (step loc name) names := by
  rw [walkWith, hloc]
  by_cases hdot : name = [Path.dot]
  · simp [hdot, step, hloc, maxName]
  by_cases hup : name = [Path.dot, Path.dot]
  · simp [hup, step, h.parent loc _ hloc, maxName, Path.dot]
  by_cases hlong : maxName < name.length
  · simp [hdot, hup, hlong]
  · simp only [hdot, hup, hlong, if_false, step]
    cases hnext : fs.lookup? (loc ++ [name]) with
    | none => rfl
    | some entry =>
      cases entry with
      | link target => exact absurd hnext (h.no_link _ target)
      | file content => rfl
      | directory => rfl

include h in
/-- Where names have been followed, each of them was followed from a directory, and only the last
can be new. -/
theorem walkWith_cons_ok {loc : Address} {name : Bytes} {names : List Bytes} {place : Place}
    (hok : walkWith fs jump loc (name :: names) = .ok place) :
    fs.lookup? loc = some .directory ∧ name.length ≤ maxName ∧
      (walkWith fs jump (step loc name) names = .ok place ∨
        names = [] ∧ place = .vacant (step loc name) ∧ fs.lookup? (step loc name) = none) := by
  cases hl : fs.lookup? loc with
  | none => simp [walkWith, hl] at hok
  | some entry =>
    cases entry with
    | file content => simp [walkWith, hl] at hok
    | link target => exact absurd hl (h.no_link loc target)
    | directory =>
      rw [walkWith_cons h jump hl] at hok
      by_cases hlong : maxName < name.length
      · simp [hlong] at hok
      rw [if_neg hlong] at hok
      refine ⟨rfl, Nat.le_of_not_lt hlong, ?_⟩
      cases hnext : fs.lookup? (step loc name) with
      | some entry => exact .inl (by simpa only [hnext] using hok)
      | none =>
        by_cases hlast : names.isEmpty
        · simp only [hnext, hlast, if_true, Except.ok.injEq] at hok
          exact .inr ⟨List.isEmpty_iff.mp hlast, hok.symm, rfl⟩
        · simp [hnext, hlast] at hok

include h in
/-- Names lead to the address that they spell. -/
theorem walkWith_ok {names : List Bytes} {loc : Address} {place : Place}
    (hok : walkWith fs jump loc names = .ok place) :
    fs.Stands names (names.foldl step loc) place := by
  induction names generalizing loc with
  | nil =>
    rw [walkWith] at hok
    cases hl : fs.lookup? loc with
    | none => simp [hl] at hok
    | some entry =>
      cases entry with
      | link target => exact absurd hl (h.no_link loc target)
      | file content =>
        simp only [hl, Except.ok.injEq] at hok
        subst hok
        exact ⟨rfl, hl⟩
      | directory =>
        simp only [hl, Except.ok.injEq] at hok
        subst hok
        exact ⟨rfl, hl⟩
  | cons name names ih =>
    rw [List.foldl_cons]
    obtain ⟨hloc, -, hnext | ⟨rfl, rfl, hnone⟩⟩ := walkWith_cons_ok h jump hok
    · exact (ih hnext).cons name
    · exact ⟨rfl, newPlace_step h hloc hnone⟩

include h in
/-- Without symbolic links it does not matter what would be done after one. -/
theorem walkWith_eq (other : Address → List Bytes → Except FileProblem Place)
    (names : List Bytes) (loc : Address) :
    walkWith fs jump loc names = walkWith fs other loc names := by
  induction names generalizing loc with
  | nil => rw [walkWith, walkWith]
  | cons name names ih =>
    cases hl : fs.lookup? loc with
    | none => simp [walkWith, hl]
    | some entry =>
      cases entry with
      | file content => simp [walkWith, hl]
      | link target => exact absurd hl (h.no_link loc target)
      | directory =>
        rw [walkWith_cons h jump hl, walkWith_cons h other hl]
        simp only [ih]

end

/-! ### Paths -/

theorem slash_notMem_of_mem_steps {p : Path} {name : Bytes} (hname : name ∈ steps p) :
    name ≠ [] ∧ Path.slash ∉ name := by
  obtain ⟨hmem, hne⟩ := List.mem_filter.mp hname
  exact ⟨by simpa using hne, separator_notMem_of_mem_partsBetween hmem⟩

/-- A path without names begins at the root. -/
theorem start_eq_nil_of_steps_eq_nil (fs : FileSystem) {p : Path} (hp : p.bytes ≠ [])
    (hsteps : steps p = []) : fs.start p = [] := by
  obtain ⟨bytes⟩ := p
  cases bytes with
  | nil => exact absurd rfl hp
  | cons b bs =>
    by_cases hb : b = Path.slash
    · simp [start, Path.isAbsolute, hb]
    · exfalso
      cases hparts : partsBetween Path.slash bs with
      | nil => exact partsBetween_ne_nil bs hparts
      | cons first rest => simp [steps, partsBetween, hb, hparts] at hsteps

/-- How a path is followed in a tree, once it is known to be one that a system takes. -/
def walkTree (fs : FileSystem) (p : Path) : Except FileProblem Place :=
  walkWith fs (fun _ _ ↦ .error .tooManyLinks) (fs.start p) (steps p)

theorem resolve_eq {fs : FileSystem} (h : fs.IsTree) (p : Path) :
    fs.resolve p =
      if p.bytes.contains 0 then .error .nulByte
      else if p.bytes = [] then .error .notFound
      else if maxPath < p.bytes.length then .error .nameTooLong
      else fs.walkTree p := by
  have hwalk : walk fs maxLinks (fs.start p) (steps p) = fs.walkTree p :=
    walkWith_eq h _ _ (steps p) (fs.start p)
  rw [resolve, ← hwalk]
  rfl

/-- A path leads to the address that its names spell. -/
theorem resolve_ok {fs : FileSystem} (h : fs.IsTree) {p : Path} {place : Place}
    (hok : fs.resolve p = .ok place) : Stands fs (steps p) (fs.address p) place := by
  rw [resolve_eq h] at hok
  split_ifs at hok
  exact walkWith_ok h _ hok

theorem isDirectory_iff (fs : FileSystem) (p : Path) :
    fs.isDirectory p = true ↔ ∃ loc, fs.resolve p = .ok (.directory loc) := by
  rw [isDirectory]
  cases fs.resolve p with
  | error problem => simp
  | ok place => cases place <;> simp

theorem isFile_iff (fs : FileSystem) (p : Path) :
    fs.isFile p = true ↔
      endsInSlash p = false ∧ ∃ loc content, fs.resolve p = .ok (.file loc content) := by
  rw [isFile]
  cases fs.resolve p with
  | error problem => simp
  | ok place => cases place <;> simp

theorem lookup?_of_isDirectory {fs : FileSystem} (h : fs.IsTree) {p : Path}
    (hp : fs.isDirectory p = true) : fs.lookup? (fs.address p) = some .directory := by
  obtain ⟨loc, hplace⟩ := (isDirectory_iff fs p).mp hp
  exact (resolve_ok h hplace).2

theorem lookup?_of_isFile {fs : FileSystem} (h : fs.IsTree) {p : Path} (hp : fs.isFile p = true) :
    ∃ content, fs.lookup? (fs.address p) = some (.file content) := by
  obtain ⟨-, loc, content, hplace⟩ := (isFile_iff fs p).mp hp
  exact ⟨content, (resolve_ok h hplace).2⟩

theorem lookup?_of_readText {fs : FileSystem} (h : fs.IsTree) {p : Path} {text : List Char}
    (hread : fs.readText p = .ok text) :
    ∃ content, fs.lookup? (fs.address p) = some (.file content) := by
  rw [readText, readBytes] at hread
  cases hplace : fs.resolve p with
  | error problem => simp [hplace] at hread
  | ok place =>
    cases place with
    | directory loc => simp [hplace] at hread
    | vacant loc => simp [hplace] at hread
    | file loc content => exact ⟨content, (resolve_ok h hplace).2⟩

/-! ### Components -/

/-- Where one component of a path leads. -/
def stepComponent : Address → Path.Component → Address
  | loc, .parent => loc.dropLast
  | loc, .name name => loc ++ [name]
  | loc, _ => loc

theorem foldl_step_eq (parts : List Bytes) (loc : Address) :
    (parts.filter (· ≠ [])).foldl step loc =
      (parts.filterMap Path.partComponent?).foldl stepComponent loc := by
  induction parts generalizing loc with
  | nil => rfl
  | cons part parts ih =>
    rw [List.filter_cons, List.filterMap_cons, Path.partComponent?]
    by_cases hempty : part = []
    · simpa [hempty] using ih loc
    by_cases hdot : part = [Path.dot]
    · simpa [hdot, step] using ih loc
    by_cases hup : part = [Path.dot, Path.dot]
    · simpa [hup, step, stepComponent, Path.dot] using ih loc.dropLast
    · simpa [hempty, hdot, hup, step, stepComponent] using ih (loc ++ [part])

theorem isAbsolute_iff (p : Path) : p.isAbsolute ↔ p.components.head? = some .root := by
  rw [Path.components]
  by_cases habsolute : p.isAbsolute
  · simp [habsolute]
  · have hroot : ∀ parts : List Bytes,
        (parts.filterMap Path.partComponent?).head? ≠ some .root := by
      intro parts hhead
      obtain ⟨part, -, hpart⟩ := List.mem_filterMap.mp (List.mem_of_head? hhead)
      rw [Path.partComponent?] at hpart
      split_ifs at hpart
      · cases hpart
      · cases hpart
    simp only [habsolute, Bool.false_eq_true, if_false, false_iff]
    split_ifs
    · simp
    · simpa using hroot _

/-- A path leads where its components say. -/
theorem address_eq_foldl (fs : FileSystem) (p : Path) :
    fs.address p = p.components.foldl stepComponent (fs.start p) := by
  rw [address_eq, steps, foldl_step_eq, Path.components, List.foldl_append]
  split_ifs <;> rfl

theorem address_eq_of_components_eq (fs : FileSystem) {p q : Path}
    (hcomponents : p.components = q.components) : fs.address p = fs.address q := by
  have habsolute : p.isAbsolute = q.isAbsolute := by
    rw [Bool.eq_iff_iff, isAbsolute_iff, isAbsolute_iff, hcomponents]
  rw [address_eq_foldl, address_eq_foldl, hcomponents, start, start, habsolute]

/-! ### Places for files -/

/-- Where a file stands or can be made. -/
def Writable (fs : FileSystem) (loc : Address) : Prop :=
  ∃ p, fs.writeTarget p = .ok loc

/-- What a path that can be written to leads to. -/
theorem resolve_of_writeTarget {fs : FileSystem} {p : Path} {loc : Address}
    (hloc : fs.writeTarget p = .ok loc) : endsInSlash p = false ∧
      ((∃ content, fs.resolve p = .ok (.file loc content)) ∨
        fs.resolve p = .ok (.vacant loc)) := by
  rw [writeTarget] at hloc
  cases hres : fs.resolve p with
  | error problem => simp [hres] at hloc
  | ok place =>
    rw [hres] at hloc
    cases place with
    | directory l => simp at hloc
    | file l content =>
      by_cases hslash : endsInSlash p
      · simp [hslash] at hloc
      · simp only [hslash] at hloc
        cases hloc
        exact ⟨by simpa using hslash, Or.inl ⟨content, rfl⟩⟩
    | vacant l =>
      by_cases hslash : endsInSlash p
      · simp [hslash] at hloc
      · simp only [hslash] at hloc
        cases hloc
        exact ⟨by simpa using hslash, Or.inr rfl⟩

theorem address_of_writeTarget {fs : FileSystem} (h : fs.IsTree) {p : Path} {loc : Address}
    (hloc : fs.writeTarget p = .ok loc) : fs.address p = loc := by
  rcases (resolve_of_writeTarget hloc).2 with ⟨content, hres⟩ | hres
  · exact (resolve_ok h hres).1.symm
  · exact (resolve_ok h hres).1.symm

section

variable {fs : FileSystem} (h : fs.IsTree) {loc : Address} (hloc : fs.Writable loc)

include h hloc

/-- Where a file can be written stands a file or, in a directory, nothing. -/
theorem Writable.lookup? :
    (∃ content, fs.lookup? loc = some (.file content)) ∨
      ∃ around name, loc = around ++ [name] ∧ fs.lookup? loc = none ∧
        fs.lookup? around = some .directory ∧ IsName name := by
  obtain ⟨p, hp⟩ := hloc
  have haddress := address_of_writeTarget h hp
  rcases (resolve_of_writeTarget hp).2 with ⟨content, hres⟩ | hres
  · exact Or.inl ⟨content, haddress ▸ (resolve_ok h hres).2⟩
  · have hplace := haddress ▸ (resolve_ok h hres).2
    obtain ⟨around, name, heq, hdir, hmem, hdot, hup⟩ := hplace.exists_parent
    obtain ⟨hne, hslash⟩ := slash_notMem_of_mem_steps hmem
    exact Or.inr ⟨around, name, heq, hplace.lookup?_eq_none, hdir, hne, hslash, hdot, hup⟩

theorem Writable.lookup?_ne_directory : fs.lookup? loc ≠ some .directory := by
  rcases Writable.lookup? h hloc with ⟨content, hfile⟩ | ⟨_, _, _, hnone, _⟩
  · simp [hfile]
  · simp [hnone]

theorem Writable.ne_nil : loc ≠ [] := by
  rintro rfl
  exact Writable.lookup?_ne_directory h hloc (lookup?_nil fs)

theorem Writable.parent : fs.lookup? loc.dropLast = some .directory := by
  rcases Writable.lookup? h hloc with ⟨content, hfile⟩ | ⟨around, name, rfl, _, hdir, _⟩
  · exact h.parent _ _ hfile
  · simpa using hdir

theorem Writable.is_name : ∀ name ∈ loc, IsName name := by
  rcases Writable.lookup? h hloc with ⟨content, hfile⟩ | ⟨around, name, rfl, _, hdir, hname⟩
  · exact h.is_name _ _ hfile
  · intro other hother
    rcases List.mem_append.mp hother with hother | hother
    · exact h.is_name _ _ hdir other hother
    · rwa [List.mem_singleton.mp hother]

end

end FileSystem

end BundleLink
