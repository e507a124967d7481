import BundleLink.Proofs.Manifest.Conditions

/-!
Manifests that have been updated stay updated. An update leaves a manifest in which its
configuration finds nothing to add and later updates keep it so as long as they name artifacts alike
(`settled_updateEntries`): a condition is never put in the place of `default`,
and an artifact in the list of side effects is never taken for a bundle. So after any history of
updates each of them can be repeated and changes nothing (`repeat_of_updateAll`).
-/

set_option autoImplicit false

namespace BundleLink.Manifest

open BundleLink.Json BundleLink.Text

/-! ### Side effects -/

/-- Every literal pattern in the bundle directory has its linked form beside it. -/
def Listed (c : Config) (patterns : List Value) : Prop :=
  ∀ p ∈ literals c patterns, inScope c p → c.linkedName p ∈ patterns.filterMap Value.string?

theorem eraseDups_eq_nil_iff {l : List String} : l.eraseDups = [] ↔ l = [] := by
  cases l <;> simp [List.eraseDups_cons]

theorem missingSideEffects_eq_nil_iff (c : Config) (patterns : List Value) :
    missingSideEffects c patterns = [] ↔ Listed c patterns := by
  rw [missingSideEffects, eraseDups_eq_nil_iff, List.filter_eq_nil_iff, Listed]
  simp only [List.mem_map, List.mem_filter, Bool.not_eq_true', Bool.not_eq_false,
    List.contains_iff_mem]
  constructor
  · exact fun hall p hp hscope ↦ hall _ ⟨p, ⟨hp, hscope⟩, rfl⟩
  · rintro hall _ ⟨p, ⟨hp, hscope⟩, rfl⟩
    exact hall p hp hscope

theorem endsWith_linkedName (c : Config) (name : String) :
    endsWith c.suffix (c.linkedName name) := by
  rw [endsWith, Config.linkedName, List.isSuffixOf_iff_suffix, String.toList_append]
  exact List.suffix_append _ _

theorem suffix_of_mem_missingSideEffects {c : Config} {patterns : List Value} {p : String}
    (hp : p ∈ missingSideEffects c patterns) : endsWith c.suffix p := by
  rw [missingSideEffects, List.mem_eraseDups] at hp
  obtain ⟨q, -, rfl⟩ := List.mem_map.mp (List.mem_filter.mp hp).1
  exact endsWith_linkedName c q

theorem string?_map_string (ps : List String) :
    (ps.map Value.string).filterMap Value.string? = ps := by
  rw [List.filterMap_map]
  exact List.filterMap_some

theorem listed_append_missingSideEffects (c : Config) (patterns : List Value) :
    Listed c (patterns ++ (missingSideEffects c patterns).map .string) := by
  intro p hp hscope
  rw [List.filterMap_append, string?_map_string, List.mem_append]
  by_cases hlisted : c.linkedName p ∈ patterns.filterMap Value.string?
  · exact Or.inl hlisted
  · refine Or.inr ?_
    rw [literals, List.filterMap_append, string?_map_string, List.filter_append,
      List.mem_append] at hp
    rcases hp with hp | hp
    · rw [missingSideEffects, List.mem_eraseDups, List.mem_filter]
      refine ⟨List.mem_map_of_mem (List.mem_filter.mpr ⟨hp, hscope⟩), by simpa using hlisted⟩
    · obtain ⟨hmissing, hliteral⟩ := List.mem_filter.mp hp
      simp [isLiteral, suffix_of_mem_missingSideEffects hmissing] at hliteral

/-- New linked forms ask for no further ones, in whichever directory. -/
theorem Listed.append {c d : Config} (hextension : d.extension = c.extension)
    {patterns : List Value} (hlisted : Listed d patterns) :
    Listed d (patterns ++ (missingSideEffects c patterns).map .string) := by
  intro p hp hscope
  rw [List.filterMap_append, List.mem_append]
  rw [literals, List.filterMap_append, string?_map_string, List.filter_append,
    List.mem_append] at hp
  rcases hp with hp | hp
  · exact Or.inl (hlisted p hp hscope)
  · obtain ⟨hmissing, hliteral⟩ := List.mem_filter.mp hp
    have hsuffix : d.suffix = c.suffix := by rw [Config.suffix, Config.suffix, hextension]
    simp [isLiteral, hsuffix, suffix_of_mem_missingSideEffects hmissing] at hliteral

/-! ### Manifests -/

/-- A manifest in which a configuration finds nothing to add. -/
structure Settled (c : Config) (entries exports : Entries) : Prop where
  get?_exports : entries.get? "exports" = some (.object exports)
  conditions : ∀ e ∈ exports, (updateExport c e).change = none
  sideEffects : ∀ patterns, sideEffects? entries = some patterns → Listed c patterns

theorem update_eq_ok_iff {c : Config} {m : Value} {u : ManifestUpdate} :
    update c m = .ok u ↔ ∃ entries exports, m = .object entries ∧
      Entries.get? entries "exports" = some (.object exports) ∧
      u = updateEntries c entries exports := by
  constructor
  · intro hu
    cases m with
    | object entries =>
      simp only [update] at hu
      split at hu
      · cases hu
      · cases hu
      · rename_i exports hexports
        exact ⟨entries, exports, rfl, hexports, (Except.ok.inj hu).symm⟩
      · cases hu
    | _ => simp [update] at hu
  · rintro ⟨entries, exports, rfl, hexports, rfl⟩
    simp [update, hexports]

/-- The exports of a manifest after an update. -/
def updatedExports (c : Config) (exports : Entries) : Entries :=
  exports.map fun e ↦ (updateExport c e).entry

theorem sideEffects?_put_exports (entries : Entries) (value : Value) :
    sideEffects? (entries.put "exports" value) = sideEffects? entries := by
  simp [sideEffects?, Entries.get?_put]

theorem get?_of_sideEffects? {entries : Entries} {patterns : List Value}
    (hpatterns : sideEffects? entries = some patterns) :
    entries.get? "sideEffects" = some (.array patterns) := by
  rw [sideEffects?] at hpatterns
  split at hpatterns
  · rename_i found hfound
    rw [hfound, Option.some.inj hpatterns]
  · cases hpatterns

theorem updateEntries_of_none (c : Config) {entries : Entries} (exports : Entries)
    (hnone : sideEffects? entries = none) : ∃ log, updateEntries c entries exports =
      ⟨.object (entries.put "exports" (.object (updatedExports c exports))),
        ⟨exports.filterMap fun e ↦ (updateExport c e).change, []⟩, log⟩ := by
  simp only [updateEntries, List.map_map, List.filterMap_map, sideEffects?_put_exports, hnone]
  exact ⟨_, rfl⟩

theorem updateEntries_of_some (c : Config) {entries : Entries} (exports : Entries)
    {patterns : List Value} (hsome : sideEffects? entries = some patterns) :
    ∃ log, updateEntries c entries exports =
      ⟨.object ((entries.put "exports" (.object (updatedExports c exports))).put "sideEffects"
          (.array (patterns ++ (missingSideEffects c patterns).map .string))),
        ⟨exports.filterMap fun e ↦ (updateExport c e).change, missingSideEffects c patterns⟩,
        log⟩ := by
  simp only [updateEntries, List.map_map, List.filterMap_map, sideEffects?_put_exports, hsome]
  exact ⟨_, rfl⟩

/-- A settled manifest is updated to itself, without changes. -/
theorem Settled.updateEntries_eq {c : Config} {entries exports : Entries}
    (hs : Settled c entries exports) :
    ∃ log, updateEntries c entries exports = ⟨.object entries, {}, log⟩ := by
  have hexports : updatedExports c exports = exports := by
    have hsame := List.map_congr_left fun e he ↦ entry_of_change_eq_none (hs.conditions e he)
    rw [updatedExports, hsame, List.map_id']
  have hchanges : (exports.filterMap fun e ↦ (updateExport c e).change) = [] :=
    List.filterMap_eq_nil_iff.mpr hs.conditions
  cases hside : sideEffects? entries with
  | none =>
    obtain ⟨log, hu⟩ := updateEntries_of_none c exports hside
    rw [hu, hexports, hchanges, Entries.put_eq_self hs.get?_exports]
    exact ⟨log, rfl⟩
  | some patterns =>
    obtain ⟨log, hu⟩ := updateEntries_of_some c exports hside
    have hmissing := (missingSideEffects_eq_nil_iff c patterns).mpr (hs.sideEffects patterns hside)
    rw [hu, hexports, hchanges, hmissing, Entries.put_eq_self hs.get?_exports, List.map_nil,
      List.append_nil, Entries.put_eq_self (get?_of_sideEffects? hside)]
    exact ⟨log, rfl⟩

/-- After an update its own configuration is settled, and every other one that was. -/
theorem settled_updateEntries {c d : Config} (hextension : d.extension = c.extension)
    {entries exports : Entries} (hd : d = c ∨ Settled d entries exports) :
    ∃ entries', (updateEntries c entries exports).manifest = .object entries' ∧
      Settled d entries' (updatedExports c exports) := by
  have hconditions : ∀ e ∈ updatedExports c exports, (updateExport d e).change = none := by
    intro e he
    obtain ⟨e₀, he₀, rfl⟩ := List.mem_map.mp he
    exact change_updateExport_eq_none c d e₀ (hd.imp_right fun hs ↦ hs.conditions e₀ he₀)
  cases hside : sideEffects? entries with
  | none =>
    obtain ⟨log, hu⟩ := updateEntries_of_none c exports hside
    refine ⟨_, by rw [hu], by simp [Entries.get?_put], hconditions, fun patterns hpatterns ↦ ?_⟩
    rw [sideEffects?_put_exports, hside] at hpatterns
    cases hpatterns
  | some patterns =>
    obtain ⟨log, hu⟩ := updateEntries_of_some c exports hside
    refine ⟨_, by rw [hu], by simp [Entries.get?_put], hconditions, fun patterns' hpatterns ↦ ?_⟩
    have hadded : patterns ++ (missingSideEffects c patterns).map .string = patterns' := by
      simpa [sideEffects?, Entries.get?_put] using hpatterns
    rw [← hadded]
    rcases hd with rfl | hs
    · exact listed_append_missingSideEffects d patterns
    · exact (hs.sideEffects patterns hside).append hextension

/-! ### Histories -/

/-- One update after the other. -/
def updateAll : List Config → Value → Except Failure Value
  | [], m => .ok m
  | c :: cs, m =>
    match update c m with
    | .error f => .error f
    | .ok u => updateAll cs u.manifest

/-- A manifest with exports can be updated again and again, by configurations that name artifacts
alike, and is then settled for all of them and for those it was settled for. -/
theorem settled_updateAll (ext : String) (cs done : List Config)
    (hextension : ∀ d ∈ done ++ cs, d.extension = ext) {entries exports : Entries}
    (hget : entries.get? "exports" = some (.object exports))
    (hdone : ∀ d ∈ done, Settled d entries exports) :
    ∃ entries' exports', updateAll cs (.object entries) = .ok (.object entries') ∧
      ∀ d ∈ done ++ cs, Settled d entries' exports' := by
  induction cs generalizing done entries exports with
  | nil => exact ⟨entries, exports, rfl, by simpa using hdone⟩
  | cons c cs ih =>
    have hc : c.extension = ext := hextension c (by simp)
    have hupdate : update c (.object entries) = .ok (updateEntries c entries exports) :=
      update_eq_ok_iff.mpr ⟨entries, exports, rfl, hget, rfl⟩
    obtain ⟨entries₁, hmanifest, hself⟩ :=
      settled_updateEntries rfl (Or.inl rfl : c = c ∨ Settled c entries exports)
    have hdone₁ : ∀ d ∈ done ++ [c], Settled d entries₁ (updatedExports c exports) := by
      intro d hd
      rcases List.mem_append.mp hd with hd | hd
      · have hext : d.extension = c.extension := (hextension d (by simp [hd])).trans hc.symm
        obtain ⟨entries₂, hmanifest₂, hsettled⟩ :=
          settled_updateEntries hext (Or.inr (hdone d hd))
        rw [hmanifest, Value.object.injEq] at hmanifest₂
        exact hmanifest₂ ▸ hsettled
      · exact List.mem_singleton.mp hd ▸ hself
    obtain ⟨entries', exports', hrest, hsettled⟩ :=
      ih (done ++ [c]) (by simpa using hextension) hself.get?_exports hdone₁
    refine ⟨entries', exports', ?_, by simpa using hsettled⟩
    rw [updateAll, hupdate, ← hrest, ← hmanifest]

/-- Once a manifest could be updated, every history of updates goes through, and afterwards each of
its updates changes nothing any more. -/
theorem repeat_of_updateAll {c : Config} {cs : List Config} {m : Value} {u : ManifestUpdate}
    (hextension : ∀ d ∈ cs, d.extension = c.extension) (hfirst : update c m = .ok u) :
    ∃ last, updateAll (c :: cs) m = .ok last ∧
      ∀ d ∈ c :: cs, ∃ log, update d last = .ok ⟨last, {}, log⟩ := by
  obtain ⟨entries, exports, rfl, hget, -⟩ := update_eq_ok_iff.mp hfirst
  obtain ⟨entries', exports', hall, hsettled⟩ :=
    settled_updateAll c.extension (c :: cs) [] (by simpa using hextension) hget (by simp)
  refine ⟨.object entries', hall, fun d hd ↦ ?_⟩
  have hs := hsettled d (by simpa using hd)
  obtain ⟨log, hu⟩ := hs.updateEntries_eq
  exact ⟨log, update_eq_ok_iff.mpr ⟨entries', exports', rfl, hs.get?_exports, hu.symm⟩⟩

/-- A manifest with an export in each of two directories. -/
def sampleManifest : Value :=
  .object
    [("exports", .object
      [(".", .object [("default", .string "./d/a.x")]),
        ("./b", .object [("default", .string "./e/b.x")])]),
      ("sideEffects", .array [.string "./d/a.x"])]

/-- Two directories in turn, with a condition for each. -/
theorem repeat_sampleManifest : ∃ last,
    updateAll [{ bundleDir := "d", extension := "x" },
      { bundleDir := "e", extension := "x", condition := "linked" }] sampleManifest = .ok last ∧
    ∀ d ∈ ([{ bundleDir := "d", extension := "x" },
        { bundleDir := "e", extension := "x", condition := "linked" }] : List Config),
      ∃ log, update d last = .ok ⟨last, {}, log⟩ :=
  repeat_of_updateAll (by simp)
    (update_eq_ok_iff.mpr ⟨_, _, rfl, by simp [Entries.get?]; rfl, rfl⟩)

end BundleLink.Manifest
