import BundleLink.Proofs.Json.RoundTrip
import BundleLink.Proofs.Manifest.Stability

/-!
Manifests that are written and read again. An update nests nothing deeper and repeats no key, so
what it made of a manifest with whole numbers is read as it was written, and needs no further update
(`reread_update`).
-/

set_option autoImplicit false

namespace BundleLink

open BundleLink.Json

theorem Json.Value.Fits.put {depth : Nat} {es : Entries} {key : String} {value : Value}
    (hes : Value.Fits (depth + 1) (.object es)) (hvalue : value.Fits depth) :
    Value.Fits (depth + 1) (.object (es.put key value)) := by
  cases hes with
  | object _ _ hnodup hall =>
    refine .object depth _ (Entries.nodup_put hnodup key value) fun e he ↦ ?_
    rcases Entries.mem_of_mem_put he with rfl | he
    · exact hvalue
    · exact hall e he

namespace Manifest

theorem key_updateExport (c : Config) (e : String × Value) : (updateExport c e).entry.1 = e.1 := by
  obtain ⟨event, -, hupdate⟩ | ⟨conditions, target, -, hupdate⟩ := updateExport_cases c e
  · rw [hupdate]
  · rw [hupdate]

/-- An export that gains a condition is nested no deeper than before. -/
theorem fits_updateExport (c : Config) {e : String × Value} {depth : Nat} (he : e.2.Fits depth) :
    (updateExport c e).entry.2.Fits depth := by
  obtain ⟨event, -, hupdate⟩ | ⟨conditions, target, hgains, hupdate⟩ := updateExport_cases c e
  · rwa [hupdate]
  · rw [hgains.eq_object] at he
    rw [hupdate]
    cases he with
    | object depth _ hnodup hall =>
      refine .object depth _ (List.nodup_cons.mpr ⟨hgains.missing, hnodup⟩) fun entry hmem ↦ ?_
      rcases List.mem_cons.mp hmem with rfl | hmem
      · exact .string depth _
      · exact hall entry hmem

theorem fits_updatedExports (c : Config) {exports : Entries} {depth : Nat}
    (hexports : Value.Fits depth (.object exports)) :
    Value.Fits depth (.object (updatedExports c exports)) := by
  cases hexports with
  | object depth _ hnodup hall =>
    refine .object depth _ ?_ fun entry hmem ↦ ?_
    · have hkeys : (updatedExports c exports).map Prod.fst = exports.map Prod.fst := by
        rw [updatedExports, List.map_map]
        exact List.map_congr_left fun e _ ↦ key_updateExport c e
      rwa [hkeys]
    · obtain ⟨e, he, rfl⟩ := List.mem_map.mp hmem
      exact fits_updateExport c (hall e he)

theorem fits_sideEffects {entries : Entries} {patterns : List Value} {depth : Nat}
    (hentries : ∀ e ∈ entries, e.2.Fits depth) (hside : sideEffects? entries = some patterns)
    (added : List String) : Value.Fits depth (.array (patterns ++ added.map .string)) := by
  have hfits : Value.Fits depth (.array patterns) :=
    hentries _ (Entries.mem_of_get? (get?_of_sideEffects? hside))
  cases hfits with
  | array depth _ hall =>
    refine .array depth _ fun v hv ↦ ?_
    rcases List.mem_append.mp hv with hv | hv
    · exact hall v hv
    · obtain ⟨s, -, rfl⟩ := List.mem_map.mp hv
      exact .string depth s

/-- A manifest that fits into a document does so after an update. -/
theorem fits_update {c : Config} {m : Value} {u : ManifestUpdate} {depth : Nat}
    (hm : m.Fits depth) (hu : update c m = .ok u) : u.manifest.Fits depth := by
  obtain ⟨entries, exports, rfl, hget, rfl⟩ := update_eq_ok_iff.mp hu
  cases hm with
  | object depth _ hnodup hall =>
    have hexports := fits_updatedExports c (hall _ (Entries.mem_of_get? hget))
    have hput : Value.Fits (depth + 1)
        (.object (Entries.put entries "exports" (.object (updatedExports c exports)))) :=
      (Value.Fits.object depth entries hnodup hall).put hexports
    cases hside : sideEffects? entries with
    | none =>
      obtain ⟨log, hmanifest⟩ := updateEntries_of_none c exports hside
      rwa [hmanifest]
    | some patterns =>
      obtain ⟨log, hmanifest⟩ := updateEntries_of_some c exports hside
      rw [hmanifest]
      exact hput.put (fits_sideEffects hall hside _)

/-- What an update made of a manifest is read as it was written and needs no further update. -/
theorem reread_update {c : Config} {text : String} {m : Value} {u : ManifestUpdate}
    (hread : Value.read text = .ok m) (hm : m.Integral) (hu : update c m = .ok u) :
    Value.read u.manifest.print = .ok u.manifest ∧
      ∃ log, update c u.manifest = .ok ⟨u.manifest, {}, log⟩ := by
  refine ⟨read_print (fits_update (fits_of_read hread hm) hu), ?_⟩
  obtain ⟨entries, exports, rfl, -, rfl⟩ := update_eq_ok_iff.mp hu
  obtain ⟨entries', hmanifest, hs⟩ :=
    settled_updateEntries rfl (Or.inl rfl : c = c ∨ Settled c entries exports)
  obtain ⟨log, hsame⟩ := hs.updateEntries_eq
  rw [hmanifest]
  exact ⟨log, update_eq_ok_iff.mpr ⟨entries', _, rfl, hs.get?_exports, hsame.symm⟩⟩

end Manifest

end BundleLink
