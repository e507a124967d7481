import BundleLink.Proofs.Manifest.Stability

/-!
What an update does to the exports of a manifest, and to the rest of it. `Extends` follows the exports
one by one: what becomes of each, which change is recorded for it, and the one event that reports it.
Apart from its exports and its side effects the manifest stays as it was (`framed_of_update`).
-/

set_option autoImplicit false

namespace BundleLink.Manifest

open BundleLink.Json BundleLink.Text

/-! ### The exports of a manifest -/

/-- The exports of a manifest before and after an update, with the changes and the events in the
order of the exports. An export that gains a condition has it before all that it had. -/
inductive Extends (c : Config) : Entries → Entries → List ConditionChange → Log → Prop
  | nil : Extends c [] [] [] []
  | gains {subpath target : String} {value : Value} {conditions exports exports' : Entries}
      {changes : List ConditionChange} {log : Log} : Gains c value conditions target →
      Extends c exports exports' changes log →
      Extends c ((subpath, value) :: exports)
        ((subpath, .object ((c.condition, .string (target ++ c.suffix)) :: conditions)) :: exports')
        (⟨subpath, target ++ c.suffix⟩ :: changes)
        (.exportLinked subpath c.condition (target ++ c.suffix) :: log)
  | keeps {e : String × Value} {event : Event} {exports exports' : Entries}
      {changes : List ConditionChange} {log : Log} : Passed c e event →
      Extends c exports exports' changes log →
      Extends c (e :: exports) (e :: exports') changes (event :: log)

section

variable {c : Config}

/-- An update follows the exports one by one. -/
theorem extends_updatedExports (c : Config) (exports : Entries) :
    Extends c exports (updatedExports c exports)
      (exports.filterMap fun e ↦ (updateExport c e).change)
      (exports.map fun e ↦ (updateExport c e).event) := by
  rw [updatedExports]
  induction exports with
  | nil => exact .nil
  | cons e exports ih =>
    obtain ⟨event, hpassed, hupdate⟩ | ⟨conditions, target, hgains, hupdate⟩ :=
      updateExport_cases c e
    · rw [List.filterMap_cons_none (by rw [hupdate]), List.map_cons, List.map_cons, hupdate]
      exact .keeps hpassed ih
    · rw [List.filterMap_cons_some (by rw [hupdate]), List.map_cons, List.map_cons, hupdate]
      exact .gains hgains ih

namespace Extends

variable {exports exports' : Entries} {changes : List ConditionChange} {log : Log}
  (hexports : Extends c exports exports' changes log)

include hexports

theorem keys_eq : exports'.map Prod.fst = exports.map Prod.fst := by
  induction hexports with
  | nil => rfl
  | gains _ _ ih => rw [List.map_cons, List.map_cons, ih]
  | keeps _ _ ih => rw [List.map_cons, List.map_cons, ih]

/-- An export changes exactly if it can gain the condition. -/
theorem ne_iff {pair : (String × Value) × (String × Value)} (hpair : pair ∈ exports.zip exports') :
    pair.2 ≠ pair.1 ↔ ∃ conditions target, Gains c pair.1.2 conditions target := by
  induction hexports with
  | nil => exact absurd hpair List.not_mem_nil
  | gains hgains _ ih =>
    rcases List.mem_cons.mp hpair with rfl | hpair
    · exact iff_of_true (fun heq ↦ hgains.ne _ (Prod.ext_iff.mp heq).2) ⟨_, _, hgains⟩
    · exact ih hpair
  | keeps hpassed _ ih =>
    rcases List.mem_cons.mp hpair with rfl | hpair
    · exact iff_of_false (fun hne ↦ hne rfl) hpassed.not_gains.1
    · exact ih hpair

/-- There is one event for each export, and it tells whether the export changed. -/
theorem forall₂_log : List.Forall₂ (fun pair event ↦ event.level = .info ↔ pair.2 ≠ pair.1)
    (exports.zip exports') log := by
  induction hexports with
  | nil => exact .nil
  | gains hgains _ ih =>
    exact .cons (iff_of_true rfl fun heq ↦ hgains.ne _ (Prod.ext_iff.mp heq).2) ih
  | keeps hpassed _ ih =>
    exact .cons (iff_of_false (by simp [hpassed.not_gains.2]) fun hne ↦ hne rfl) ih

end Extends

/-! ### Whole manifests -/

theorem log_updateEntries (c : Config) (entries exports : Entries) :
    ∃ rest, (updateEntries c entries exports).log =
        (exports.map fun e ↦ (updateExport c e).event) ++ rest ∧
      ∀ event ∈ rest, ∃ pattern, event = .sideEffectOutside pattern (scope c) := by
  simp only [updateEntries, List.map_map]
  split
  · exact ⟨[], (List.append_nil _).symm, fun event hevent ↦ absurd hevent List.not_mem_nil⟩
  · rename_i patterns _
    refine ⟨sideEffectLog c patterns, rfl, fun event hevent ↦ ?_⟩
    obtain ⟨pattern, -, rfl⟩ := List.mem_map.mp hevent
    exact ⟨pattern, rfl⟩

/-- What an update leaves, field by field. -/
theorem sameBut_updateEntries (c : Config) {entries exports : Entries}
    (hget : entries.get? "exports" = some (.object exports)) :
    ∃ entries' : Entries, (updateEntries c entries exports).manifest = .object entries' ∧
      Entries.SameBut ["exports", "sideEffects"] entries entries' ∧
      entries'.get? "exports" = some (.object (updatedExports c exports)) ∧
      (updateEntries c entries exports).changes.conditions =
        exports.filterMap fun e ↦ (updateExport c e).change := by
  have hkey : "exports" ∈ ["exports", "sideEffects"] := List.mem_cons_self
  have hput := (Entries.SameBut.refl ["exports", "sideEffects"] entries).put hkey
    (Entries.mem_keys_of_get? hget) (.object (updatedExports c exports))
  cases hside : sideEffects? entries with
  | none =>
    obtain ⟨log, hu⟩ := updateEntries_of_none c exports hside
    rw [hu]
    exact ⟨_, rfl, hput, by simp [Entries.get?_put], rfl⟩
  | some patterns =>
    obtain ⟨log, hu⟩ := updateEntries_of_some c exports hside
    rw [hu]
    refine ⟨_, rfl, hput.put (by simp) (Entries.mem_keys_of_get? (get?_of_sideEffects? hside)) _,
      by simp [Entries.get?_put], rfl⟩

/-- A manifest before and after an update, and the events of its exports. -/
structure Framed (c : Config) (u : ManifestUpdate) (entries entries' exports exports' : Entries)
    (log : Log) : Prop where
  fields : Entries.SameBut ["exports", "sideEffects"] entries entries'
  keys : entries'.map Prod.fst = entries.map Prod.fst
  get?_exports : entries.get? "exports" = some (.object exports)
  get?_exports' : entries'.get? "exports" = some (.object exports')
  subpaths : exports'.map Prod.fst = exports.map Prod.fst
  changed : ∀ pair ∈ exports.zip exports',
    pair.2 ≠ pair.1 ↔ ∃ conditions target, Gains c pair.1.2 conditions target
  extended : Extends c exports exports' u.changes.conditions log
  events : List.Forall₂ (fun pair event ↦ event.level = .info ↔ pair.2 ≠ pair.1)
    (exports.zip exports') log
  rest : ∃ rest, u.log = log ++ rest ∧
    ∀ event ∈ rest, ∃ pattern, event = .sideEffectOutside pattern (scope c)

/-- An update touches the exports and the side effects of a manifest only, and of the exports those
that gain a condition: each of them gains it in front of all that it had, each is recorded with its
target, and each export is reported by one event. -/
theorem framed_of_update {m : Value} {u : ManifestUpdate} (hu : update c m = .ok u) :
    ∃ entries entries' exports exports' log, m = .object entries ∧ u.manifest = .object entries' ∧
      Framed c u entries entries' exports exports' log := by
  obtain ⟨entries, exports, rfl, hget, rfl⟩ := update_eq_ok_iff.mp hu
  obtain ⟨entries', hmanifest, hfields, hget', hconditions⟩ := sameBut_updateEntries c hget
  have hextends := extends_updatedExports c exports
  rw [← hconditions] at hextends
  exact ⟨entries, entries', exports, _, _, rfl, hmanifest, hfields, hfields.keys_eq, hget, hget',
    hextends.keys_eq, fun _ hpair ↦ hextends.ne_iff hpair, hextends, hextends.forall₂_log,
    log_updateEntries c entries exports⟩

end

/-! ### A manifest with an export of each kind -/

def mixedConfig : Config where
  bundleDir := "d"
  extension := "x"
  condition := "k"

/-- The third export gains the condition. -/
def mixedExports : Entries :=
  [("./p", .string "./d/p.x"), ("./o", .object [("default", .string "./e/o.x")]),
    (".", .object [("types", .string "./i.ts"), ("default", .string "./d/a.x")]),
    ("./b", .object [("default", .string "./d/b.x"), ("k", .null)])]

def mixedEntries : Entries :=
  [("name", .string "n"), ("exports", .object mixedExports), ("version", .int 1)]

theorem framed_mixedEntries : ∃ u entries' exports' log,
    update mixedConfig (.object mixedEntries) = .ok u ∧ u.manifest = .object entries' ∧
      Framed mixedConfig u mixedEntries entries' mixedExports exports' log ∧
      u.changes.conditions = [⟨".", "./d/a.x.linked.x"⟩] := by
  have hget : Entries.get? mixedEntries "exports" = some (.object mixedExports) := by rfl
  have hu : update mixedConfig (.object mixedEntries) =
      .ok (updateEntries mixedConfig mixedEntries mixedExports) :=
    update_eq_ok_iff.mpr ⟨_, _, rfl, hget, rfl⟩
  have hchanges : (updateEntries mixedConfig mixedEntries mixedExports).changes.conditions =
      [⟨".", "./d/a.x.linked.x"⟩] := by decide +kernel
  obtain ⟨entries, entries', exports, exports', log, hentries, hmanifest, hframed⟩ :=
    framed_of_update hu
  obtain rfl := Value.object.inj hentries
  obtain rfl : mixedExports = exports := by simpa [hget] using hframed.get?_exports
  exact ⟨_, entries', exports', log, hu, hmanifest, hframed, hchanges⟩

end BundleLink.Manifest
