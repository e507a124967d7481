import BundleLink.Proofs.FileSystem.Naming
import Mathlib.Data.List.Induction
import Mathlib.Data.List.Nodup
import Mathlib.Data.List.Perm.Subperm

/-!
Which paths lead anywhere in a tree. Names lead from directory to directory (`Leads`), and a path
leads to a directory if its names do and it is one that a system takes (`Takes`,
`isDirectory_iff_leads`); such a directory can be read unless it is closed
(`openDirectory_of_leads`). A file is there for a path if it stands where the last name leads from a
directory (`isFile_of_leads`).
-/

set_option autoImplicit false

namespace BundleLink.FileSystem

open BundleLink.Text

/-- Names lead from one address to another, each of them from a directory, and to a directory. -/
inductive Leads (fs : FileSystem) : Address → List Bytes → Address → Prop
  | here {loc : Address} (hloc : fs.lookup? loc = some .directory) : Leads fs loc [] loc
  | onward {loc loc' : Address} {name : Bytes} {names : List Bytes}
    (hloc : fs.lookup? loc = some .directory) (hnext : Leads fs (step loc name) names loc') :
    Leads fs loc (name :: names) loc'

/-- The names of a path lead to a directory. -/
def LeadsTo (fs : FileSystem) (p : Path) (loc : Address) : Prop :=
  Leads fs (fs.start p) (steps p) loc

/-- A path that a system takes, wherever it leads. -/
structure Takes (p : Path) : Prop where
  no_nul : 0 ∉ p.bytes
  length_le : p.bytes.length ≤ maxPath
  names_le : ∀ name ∈ steps p, name.length ≤ maxName

instance (p : Path) : Decidable (Takes p) :=
  decidable_of_iff (0 ∉ p.bytes ∧ p.bytes.length ≤ maxPath ∧
    ∀ name ∈ steps p, name.length ≤ maxName)
    ⟨fun ⟨hnul, hlength, hnames⟩ ↦ ⟨hnul, hlength, hnames⟩,
      fun h ↦ ⟨h.no_nul, h.length_le, h.names_le⟩⟩

variable {fs : FileSystem}

/-! ### Names that lead to directories -/

namespace Leads

variable {loc loc' : Address} {names : List Bytes}

theorem eq_foldl (hleads : Leads fs loc names loc') : loc' = names.foldl step loc := by
  induction hleads with
  | here hloc => rfl
  | onward hloc hnext ih => exact ih

theorem directory (hleads : Leads fs loc names loc') : fs.lookup? loc = some .directory := by
  cases hleads with
  | here hloc => exact hloc
  | onward hloc hnext => exact hloc

theorem directory_right (hleads : Leads fs loc names loc') :
    fs.lookup? loc' = some .directory := by
  induction hleads with
  | here hloc => exact hloc
  | onward hloc hnext ih => exact ih

end Leads

theorem LeadsTo.address_eq {p : Path} {loc : Address} (hleads : fs.LeadsTo p loc) :
    fs.address p = loc :=
  hleads.eq_foldl.symm

theorem leads_cons_iff {loc loc' : Address} {name : Bytes} {names : List Bytes} :
    Leads fs loc (name :: names) loc' ↔
      fs.lookup? loc = some .directory ∧ Leads fs (step loc name) names loc' := by
  constructor
  · rintro (_ | ⟨hloc, hnext⟩)
    exact ⟨hloc, hnext⟩
  · exact fun ⟨hloc, hnext⟩ ↦ .onward hloc hnext

theorem leads_append_iff {loc loc' : Address} {names rest : List Bytes} :
    Leads fs loc (names ++ rest) loc' ↔
      ∃ between, Leads fs loc names between ∧ Leads fs between rest loc' := by
  induction names generalizing loc with
  | nil =>
    constructor
    · exact fun hleads ↦ ⟨loc, .here hleads.directory, hleads⟩
    · rintro ⟨between, hfirst, hrest⟩
      cases hfirst
      exact hrest
  | cons name names ih =>
    rw [List.cons_append, leads_cons_iff, ih]
    constructor
    · rintro ⟨hloc, between, hfirst, hrest⟩
      exact ⟨between, .onward hloc hfirst, hrest⟩
    · rintro ⟨between, hfirst, hrest⟩
      obtain ⟨hloc, hnext⟩ := leads_cons_iff.mp hfirst
      exact ⟨hloc, between, hnext, hrest⟩

/-- More names lead on from where a path leads. -/
theorem leads_steps_append_iff {p : Path} {rest : List Bytes} {loc : Address} :
    Leads fs (fs.start p) (steps p ++ rest) loc ↔
      ∃ between, fs.LeadsTo p between ∧ Leads fs between rest loc :=
  leads_append_iff

/-- In a tree directories lead to what stands below them. -/
theorem leads_of_lookup? (h : fs.IsTree) {loc : Address} {names : List Bytes}
    (hnames : fs.lookup? (loc ++ names) = some .directory) : Leads fs loc names (loc ++ names) := by
  induction names using List.reverseRecOn with
  | nil =>
    rw [List.append_nil] at hnames ⊢
    exact .here hnames
  | append_singleton names name ih =>
    have hname := h.is_name _ _ hnames name (by simp)
    rw [← List.append_assoc] at hnames ⊢
    have hparent := h.parent _ _ hnames
    rw [List.dropLast_concat] at hparent
    refine leads_append_iff.mpr ⟨_, ih hparent, .onward hparent ?_⟩
    rw [Named.step_eq hname]
    exact .here hnames

/-! ### Following names -/

section

variable (h : fs.IsTree) (jump : Address → List Bytes → Except FileProblem Place)

include h

theorem walkWith_of_leads {loc loc' : Address} {names : List Bytes}
    (hleads : Leads fs loc names loc') (hnames : ∀ name ∈ names, name.length ≤ maxName)
    (rest : List Bytes) :
    walkWith fs jump loc (names ++ rest) = walkWith fs jump loc' rest := by
  induction hleads with
  | here hloc => rfl
  | onward hloc hnext ih =>
    rw [List.forall_mem_cons] at hnames
    rw [List.cons_append, walkWith_cons h jump hloc, if_neg (Nat.not_lt.mpr hnames.1),
      hnext.directory]
    exact ih hnames.2

theorem walkWith_of_long {loc loc' : Address} {names : List Bytes}
    (hleads : Leads fs loc names loc') (hlong : ¬∀ name ∈ names, name.length ≤ maxName) :
    walkWith fs jump loc names = .error .nameTooLong := by
  induction hleads with
  | here hloc => simp at hlong
  | @onward loc loc' name names hloc hnext ih =>
    rw [walkWith_cons h jump hloc, hnext.directory]
    by_cases hname : maxName < name.length
    · rw [if_pos hname]
    · rw [if_neg hname]
      exact ih fun hnames ↦ hlong (List.forall_mem_cons.mpr ⟨Nat.not_lt.mp hname, hnames⟩)

theorem names_le_of_walkWith {loc : Address} {names : List Bytes} {place : Place}
    (hok : walkWith fs jump loc names = .ok place) : ∀ name ∈ names, name.length ≤ maxName := by
  induction names generalizing loc with
  | nil => simp
  | cons name names ih =>
    obtain ⟨-, hname, hnext | ⟨rfl, -⟩⟩ := walkWith_cons_ok h jump hok
    · exact List.forall_mem_cons.mpr ⟨hname, ih hnext⟩
    · simpa using hname

theorem leads_of_walkWith {loc loc' : Address} {names : List Bytes}
    (hok : walkWith fs jump loc names = .ok (.directory loc')) : Leads fs loc names loc' := by
  induction names generalizing loc with
  | nil =>
    obtain ⟨rfl, hloc⟩ := walkWith_ok h jump hok
    exact .here hloc
  | cons name names ih =>
    obtain ⟨hloc, -, hnext | ⟨-, hvacant, -⟩⟩ := walkWith_cons_ok h jump hok
    · exact .onward hloc (ih hnext)
    · cases hvacant

end

/-! ### Paths -/

section

variable (h : fs.IsTree) {p : Path}

include h

/-- What is known of a path that leads somewhere, before anything is followed. -/
theorem takes_of_resolve {place : Place} (hok : fs.resolve p = .ok place) :
    Takes p ∧ p.bytes ≠ [] ∧ fs.walkTree p = .ok place := by
  rw [resolve_eq h] at hok
  split_ifs at hok with hnul hempty hlong
  exact ⟨⟨by simpa using hnul, Nat.le_of_not_lt hlong, names_le_of_walkWith h _ hok⟩, hempty, hok⟩

theorem resolve_of_takes (hp : Takes p) (hne : p.bytes ≠ []) : fs.resolve p = fs.walkTree p := by
  rw [resolve_eq h, if_neg (by simpa using hp.no_nul), if_neg hne,
    if_neg (Nat.not_lt.mpr hp.length_le)]

/-- Where names lead to a directory, so does their path, unless a system does not take it. -/
theorem resolve_of_leads (hne : p.bytes ≠ []) {loc : Address} (hleads : fs.LeadsTo p loc) :
    fs.resolve p =
      if Takes p then .ok (.directory loc)
      else if 0 ∈ p.bytes then .error .nulByte
      else .error .nameTooLong := by
  by_cases htakes : Takes p
  · have hwalk := walkWith_of_leads h (fun _ _ ↦ .error .tooManyLinks) hleads htakes.names_le []
    rw [List.append_nil, walkWith, hleads.directory_right] at hwalk
    rw [if_pos htakes, resolve_of_takes h htakes hne]
    exact hwalk
  · rw [if_neg htakes, resolve_eq h, if_neg hne]
    by_cases hnul : 0 ∈ p.bytes
    · simp [hnul]
    · by_cases hlong : maxPath < p.bytes.length
      · simp [hnul, hlong]
      · have hnames : ¬∀ name ∈ steps p, name.length ≤ maxName :=
          fun hnames ↦ htakes ⟨hnul, Nat.not_lt.mp hlong, hnames⟩
        simp only [List.contains_eq_mem, hnul, decide_false, Bool.false_eq_true, if_false, hlong]
        exact walkWith_of_long h _ hleads hnames

/-- A directory can be read if a system takes its path, and it is not closed. -/
theorem openDirectory_of_leads (closed : List Address) (hne : p.bytes ≠ []) {loc : Address}
    (hleads : fs.LeadsTo p loc) :
    fs.openDirectory closed p =
      if Takes p then (if loc ∈ closed then .error .permissionDenied else .ok loc)
      else if 0 ∈ p.bytes then .error .nulByte
      else .error .nameTooLong := by
  rw [openDirectory, resolve_of_leads h hne hleads]
  by_cases htakes : Takes p
  · rw [if_pos htakes, if_pos htakes]
  · rw [if_neg htakes, if_neg htakes]
    split_ifs <;> rfl

/-- A path leads to a directory if its names do. -/
theorem isDirectory_iff_leads : fs.isDirectory p = true ↔
    Takes p ∧ p.bytes ≠ [] ∧ ∃ loc, fs.LeadsTo p loc := by
  rw [isDirectory_iff]
  constructor
  · rintro ⟨loc, hplace⟩
    obtain ⟨htakes, hne, hwalk⟩ := takes_of_resolve h hplace
    exact ⟨htakes, hne, loc, leads_of_walkWith h _ hwalk⟩
  · rintro ⟨htakes, hne, loc, hleads⟩
    exact ⟨loc, by rw [resolve_of_leads h hne hleads, if_pos htakes]⟩

/-- A path leads to a file that stands where its last name leads from a directory. -/
theorem isFile_of_leads {name : Bytes} (hnamed : Named p name) (hp : Takes p) {around : Address}
    (hleads : Leads fs (fs.start p) (steps p).dropLast around) {content : Bytes}
    (hfile : fs.lookup? (around ++ [name]) = some (.file content)) : fs.isFile p = true := by
  refine (isFile_iff fs p).mpr ⟨hnamed.endsInSlash, around ++ [name], content, ?_⟩
  obtain ⟨front, -, hsteps⟩ := hnamed.steps_eq
  have hlengths := hp.names_le
  rw [hsteps, List.dropLast_concat] at hleads
  rw [hsteps, List.forall_mem_append] at hlengths
  rw [resolve_of_takes h hp hnamed.bytes_ne_nil, walkTree, hsteps,
    walkWith_of_leads h _ hleads hlengths.1, walkWith_cons h _ hleads.directory_right,
    if_neg (Nat.not_lt.mpr (hlengths.2 name (by simp))), Named.step_eq hnamed.isName, hfile,
    walkWith, hfile]

end

/-! ### Below an address -/

section

variable (h : fs.IsTree)

include h

/-- A tree is no deeper than it has directories, counted from any address. -/
theorem length_le_countP {loc names : Address} {entry : Entry}
    (hentry : fs.lookup? (loc ++ names) = some entry) :
    names.length ≤ (fs.entries.countP fun e ↦ e.2.leadsOn) + 1 := by
  -- The addresses on the way are different, and each is that of an entry that leads on.
  have hway (n : ℕ) (hn : n ∈ List.range (names.length - 1)) :
      loc ++ names.take (n + 1) ∈ (fs.entries.filter fun e ↦ e.2.leadsOn).map (·.1) := by
    have hlt : n + 1 < names.length := by
      have := List.mem_range.mp hn
      omega
    have hdirectory : fs.lookup? (loc ++ names.take (n + 1)) = some .directory := by
      rw [← List.take_append_drop (n + 1) names, ← List.append_assoc] at hentry
      exact lookup?_of_below h (by simpa using hlt) hentry
    have hne : loc ++ names.take (n + 1) ≠ [] := by
      refine List.append_ne_nil_of_right_ne_nil _ (List.ne_nil_of_length_pos ?_)
      rw [List.length_take]
      omega
    exact List.mem_map.mpr ⟨_, List.mem_filter.mpr ⟨mem_entries_of_lookup? hne hdirectory, rfl⟩, rfl⟩
  have hnodup : ((List.range (names.length - 1)).map fun n ↦ loc ++ names.take (n + 1)).Nodup := by
    refine List.Nodup.map_on (fun n hn m hm heq ↦ ?_) List.nodup_range
    have hlength := congrArg List.length (List.append_cancel_left heq)
    rw [List.mem_range] at hn hm
    rw [List.length_take, List.length_take] at hlength
    omega
  have hsubset : ((List.range (names.length - 1)).map fun n ↦ loc ++ names.take (n + 1)) ⊆
      (fs.entries.filter fun e ↦ e.2.leadsOn).map (·.1) := by
    intro l hl
    obtain ⟨n, hn, rfl⟩ := List.mem_map.mp hl
    exact hway n hn
  have hlength := (hnodup.subperm hsubset).length_le
  rw [List.length_map, List.length_map, List.length_range, ← List.countP_eq_length_filter]
    at hlength
  omega

end

end BundleLink.FileSystem
