import BundleLink.Manifest
import BundleLink.Proofs.Json.Entries

/-!
Updating a manifest in place. A manifest that is held in memory is changed export by export, then
its side effects are extended, and each event is reported as it happens (`edit`). Step by step this
comes to what an update makes of the whole manifest at once (`edit_eq`), and since every check comes
before the first change, an edit that fails has changed and reported nothing (`edit_eq_error`).
-/

set_option autoImplicit false

namespace BundleLink

open BundleLink.Json

namespace Json

theorem Entries.put_put (es : Entries) (key : String) (value value' : Value) :
    (es.put key value).put key value' = es.put key value' := by
  induction es with
  | nil => simp [put]
  | cons e es ih =>
    by_cases he : e.1 = key
    · simp [put, he]
    · simp [put, he, ih]

end Json

namespace Manifest

namespace Edit

theorem bind_of_ok {α β : Type} {step : Edit α} {next : α → Edit β} {s s' : Held} {a : α}
    (h : step s = .ok a s') : (step >>= next) s = next a s' := by
  simp [bind, EStateM.bind, h]

variable (c : Config) (entries : Entries) (log : Log)

theorem get_eq (s : Held) : (get : Edit Held) s = .ok s s :=
  rfl

theorem put_eq (key : String) (value : Value) : put key value ⟨.object entries, log⟩ =
    .ok () ⟨.object (entries.put key value), log⟩ :=
  rfl

theorem report_eq (e : Event) (m : Value) : report e ⟨m, log⟩ = .ok () ⟨m, log ++ [e]⟩ :=
  rfl

/-- One export after the other comes to all of them at once. -/
theorem exports_eq (done es : Entries) :
    exports c done es ⟨.object (entries.put "exports" (.object (done ++ es))), log⟩ =
      .ok ((es.map (updateExport c)).filterMap (·.change))
        ⟨.object (entries.put "exports" (.object (done ++ (es.map (updateExport c)).map (·.entry)))),
          log ++ (es.map (updateExport c)).map (·.event)⟩ := by
  induction es generalizing done log with
  | nil => simp [exports, pure, EStateM.pure]
  | cons e es ih =>
    have hrest := ih (log ++ [(updateExport c e).event]) (done ++ [(updateExport c e).entry])
    simp only [List.append_assoc, List.singleton_append] at hrest
    rw [exports, bind_of_ok (put_eq ..), Entries.put_put, bind_of_ok (report_eq ..),
      bind_of_ok hrest]
    cases h : (updateExport c e).change <;> simp [h, pure, EStateM.pure]

theorem reportAll_eq (events : Log) (m : Value) :
    reportAll events ⟨m, log⟩ = .ok () ⟨m, log ++ events⟩ := by
  induction events generalizing log with
  | nil => simp [reportAll, pure, EStateM.pure]
  | cons e events ih =>
    rw [reportAll, bind_of_ok (report_eq ..), ih]
    simp

theorem sideEffects_of_none (h : sideEffects? entries = none) :
    sideEffects c ⟨.object entries, log⟩ = .ok [] ⟨.object entries, log⟩ := by
  have hentries : ((Value.object entries).entries?.bind sideEffects?) = none := h
  rw [sideEffects, bind_of_ok (get_eq _)]
  simp only [hentries]
  rfl

theorem sideEffects_of_some {patterns : List Value} (h : sideEffects? entries = some patterns) :
    sideEffects c ⟨.object entries, log⟩ = .ok (missingSideEffects c patterns)
      ⟨.object (entries.put "sideEffects"
        (.array (patterns ++ (missingSideEffects c patterns).map .string))),
          log ++ sideEffectLog c patterns⟩ := by
  have hentries : ((Value.object entries).entries?.bind sideEffects?) = some patterns := h
  rw [sideEffects, bind_of_ok (get_eq _)]
  simp only [hentries]
  rw [bind_of_ok (reportAll_eq ..), bind_of_ok (put_eq ..)]
  rfl

end Edit

/-- What an edit comes to. -/
def edited (log : Log) (m : Value) : Except Failure ManifestUpdate → EStateM.Result Failure Held
    ManifestChanges
  | .ok u => .ok u.changes ⟨u.manifest, log ++ u.log⟩
  | .error e => .error e ⟨m, log⟩

/-- An edit in place makes of a manifest what an update makes of it. -/
theorem edit_eq (c : Config) (m : Value) (log : Log) :
    edit c ⟨m, log⟩ = edited log m (update c m) := by
  rw [edit, Edit.bind_of_ok (Edit.get_eq _)]
  cases m with
  | object entries =>
    simp only [update]
    cases hexports : Entries.get? entries "exports" with
    | none => rfl
    | some v =>
      cases v with
      | object exports =>
        have hrun := Edit.exports_eq c entries log [] exports
        simp only [List.nil_append, Entries.put_eq_self hexports] at hrun
        simp only
        rw [Edit.bind_of_ok hrun]
        cases hpatterns : sideEffects? (Entries.put entries "exports"
            (.object ((exports.map (updateExport c)).map (·.entry)))) with
        | none =>
          rw [Edit.bind_of_ok (Edit.sideEffects_of_none c _ _ hpatterns)]
          simp only [updateEntries, hpatterns]
          rfl
        | some patterns =>
          rw [Edit.bind_of_ok (Edit.sideEffects_of_some c _ _ hpatterns)]
          simp only [updateEntries, hpatterns, edited, List.append_assoc]
          rfl
      | _ => rfl
  | _ => rfl

/-- An edit that fails has changed nothing and reported nothing. -/
theorem edit_eq_error {c : Config} {m : Value} {log : Log} {e : Failure} {s : Held}
    (h : edit c ⟨m, log⟩ = .error e s) : s = ⟨m, log⟩ ∧ update c m = .error e := by
  rw [edit_eq] at h
  cases hu : update c m with
  | ok u =>
    rw [hu] at h
    cases h
  | error f =>
    rw [hu] at h
    cases h
    exact ⟨rfl, rfl⟩

end Manifest

end BundleLink
