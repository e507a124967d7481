import BundleLink.Proofs.Manifest.Exports
import BundleLink.Proofs.Manifest.Outcomes
import BundleLink.Proofs.Manifest.SideEffects

/-!
Exports whose default is itself a side effect. An export is chosen if its default holds the name of
the bundle directory anywhere, a side effect if it lies in that directory and is not an artifact. So
whatever the second test chooses the first does too (`Asks.mentions`), and not the other way round:
the target of a condition is listed exactly if it was listed before, or the default is a side effect
that asks for it (`entryPoints_of_update`). A default that only mentions the bundle directory gains a
condition and no side effect, and so does one that is an artifact (`not_listed_besides`).
-/

set_option autoImplicit false

namespace BundleLink.Manifest

open BundleLink.Json BundleLink.Text

variable {c : Config}

/-! ### The two tests -/

/-- A side effect that asks for a linked form would, as a default, gain its export a condition. -/
theorem Asks.mentions {entry : String} (hasks : Asks c entry) :
    c.bundleDirName.toList <:+: entry.toList := by
  obtain ⟨count, path, hentry, -, hprefix⟩ := hasks.inside
  have hdir : c.bundleDirName.toList <+: path := (List.prefix_append _ _).trans hprefix
  rw [hentry]
  exact hdir.isInfix.trans (List.suffix_append _ _).isInfix

/-- A linked form is listed after an update if it was before, or if an entry asks for it. -/
theorem Amended.mem_updated_iff {patterns updated : List Value} {added : List String}
    (hamended : Amended c patterns updated added) {entry : String} :
    .string (entry ++ c.suffix) ∈ updated ↔
      .string (entry ++ c.suffix) ∈ patterns ∨ .string entry ∈ patterns ∧ Asks c entry := by
  constructor
  · intro hmem
    rw [hamended.updated_eq, List.mem_append] at hmem
    refine hmem.imp_right fun hadded ↦ ?_
    obtain ⟨s, hs, heq⟩ := List.mem_map.mp hadded
    rw [Value.string.inj heq, hamended.firsts.mem_iff, wantedForms, List.mem_filter] at hs
    obtain ⟨other, hother, hsame⟩ := List.mem_map.mp hs.1
    -- The suffix is the same, so it is this entry that asked.
    obtain rfl : other = entry := by
      have hchars := congrArg String.toList hsame
      rw [String.toList_append, String.toList_append] at hchars
      exact String.toList_injective (List.append_cancel_right hchars)
    obtain ⟨hlisted, hasks⟩ := List.mem_filter.mp hother
    exact ⟨mem_texts_iff.mp hlisted, of_decide_eq_true hasks⟩
  · rintro (hbefore | ⟨hentry, hasks⟩)
    · rw [hamended.updated_eq]
      exact List.mem_append_left _ hbefore
    · exact hamended.complete entry hentry hasks

/-! ### Exports -/

/-- An export before and after an update, beside the side effects before and after it. -/
structure EntryPoint (c : Config) (patterns updated : List Value) (e e' : String × Value) :
    Prop where
  /-- What changes gains a condition. Its target is listed exactly if it was, or the default is a
  side effect that asks for it. -/
  listed_iff : e' ≠ e → ∃ conditions target, Gains c e.2 conditions target ∧
    e' = (e.1, .object ((c.condition, .string (target ++ c.suffix)) :: conditions)) ∧
    (.string (target ++ c.suffix) ∈ updated ↔
      .string (target ++ c.suffix) ∈ patterns ∨ .string target ∈ patterns ∧ Asks c target)
  /-- A default that would ask for a linked form has the condition beside it after the update. -/
  conditioned : ∀ conditions target, e.2 = .object conditions →
    Entries.get? conditions "default" = some (.string target) → Asks c target →
    ∃ conditions', e'.2 = .object conditions' ∧ c.condition ∈ conditions'.map Prod.fst

theorem entryPoint_updateExport {patterns updated : List Value} {added : List String}
    (hamended : Amended c patterns updated added) (e : String × Value) :
    EntryPoint c patterns updated e (updateExport c e).entry := by
  obtain ⟨event, hpassed, hupdate⟩ | ⟨conditions, target, hgains, hupdate⟩ :=
    updateExport_cases c e
  · rw [hupdate]
    refine ⟨fun hne ↦ absurd rfl hne, fun conditions target hobject hdefault hasks ↦ ?_⟩
    by_cases hpresent : c.condition ∈ conditions.map Prod.fst
    · exact ⟨conditions, hobject, hpresent⟩
    · exact absurd ⟨conditions, target, hobject, hdefault, hasks.mentions, hpresent⟩
        hpassed.not_gains.1
  · rw [hupdate]
    exact ⟨fun _ ↦ ⟨conditions, target, hgains, rfl, hamended.mem_updated_iff⟩,
      fun _ _ _ _ _ ↦ ⟨_, rfl, List.mem_cons_self⟩⟩

/-- An update lists the target of a condition among the side effects exactly if it was there before,
or the default is a side effect that lies in the bundle directory and is no artifact. -/
theorem entryPoints_of_update {m : Value} {u : ManifestUpdate} (hu : update c m = .ok u)
    {patterns : List Value} (hpatterns : listed? m = some patterns) :
    ∃ exports exports' updated, exports? m = some (.object exports) ∧
      exports? u.manifest = some (.object exports') ∧ listed? u.manifest = some updated ∧
      List.Forall₂ (EntryPoint c patterns updated) exports exports' := by
  have hupdated := listed?_update hu hpatterns
  obtain ⟨entries, exports, rfl, hget, rfl⟩ := update_eq_ok_iff.mp hu
  obtain ⟨entries', hmanifest, -, hget', -⟩ := sameBut_updateEntries c hget
  refine ⟨exports, updatedExports c exports, _, hget, by rw [hmanifest]; exact hget', hupdated, ?_⟩
  rw [updatedExports, List.forall₂_map_right_iff, List.forall₂_same]
  exact fun e _ ↦ entryPoint_updateExport (amended_missingSideEffects c patterns) e

theorem entryPoints_sampleManifest : ∃ u, update sideEffectConfig sampleManifest = .ok u ∧
    listed? u.manifest = some [.string "./d/a.x", .string "./d/a.x.linked.x"] ∧
    EntryPoint sideEffectConfig [.string "./d/a.x"] [.string "./d/a.x", .string "./d/a.x.linked.x"]
      (".", .object [("default", .string "./d/a.x")])
      (".", .object [("ng-linked", .string "./d/a.x.linked.x"),
        ("default", .string "./d/a.x")]) := by
  have hu := (update_eq_ok_iff (c := sideEffectConfig)).mpr
    ⟨_, _, (rfl : sampleManifest = _), rfl, rfl⟩
  obtain ⟨exports, exports', updated, hexports, hexports', hupdated, hpoints⟩ :=
    entryPoints_of_update hu rfl
  refine ⟨_, hu, rfl, ?_⟩
  obtain rfl := Value.object.inj (Option.some.inj hexports)
  obtain rfl := Value.object.inj (Option.some.inj hexports')
  obtain rfl := Option.some.inj hupdated
  exact (List.forall₂_cons.mp hpoints).1

/-! ### Defaults that are no side effects of the bundle directory -/

/-- The first one lies in a directory of the same name elsewhere, the second one is an artifact. -/
def besidesEntries : List String :=
  ["./lib/fesm2022/a.mjs", "./fesm2022/b.mjs.linked.mjs"]

/-- The default of each export is a side effect. -/
def besides : Value :=
  .object
    [("exports", .object
      [(".", .object [("default", .string "./lib/fesm2022/a.mjs")]),
        ("./b", .object [("default", .string "./fesm2022/b.mjs.linked.mjs")])]),
      ("sideEffects", .array (besidesEntries.map .string))]

/-- An export can gain a condition without a side effect for it, though its default is one. -/
theorem not_listed_besides : ({} : Config).problem? = none ∧ ∃ u, update {} besides = .ok u ∧
    exports? u.manifest = some (.object
      [(".", .object [("ng-linked", .string "./lib/fesm2022/a.mjs.linked.mjs"),
          ("default", .string "./lib/fesm2022/a.mjs")]),
        ("./b", .object [("ng-linked", .string "./fesm2022/b.mjs.linked.mjs.linked.mjs"),
          ("default", .string "./fesm2022/b.mjs.linked.mjs")])]) ∧
    listed? besides = some (besidesEntries.map .string) ∧
    listed? u.manifest = some (besidesEntries.map .string) ∧
    ∀ entry ∈ besidesEntries, Plain entry.toList ∧
      .string (({} : Config).linkedName entry) ∉ besidesEntries.map Value.string := by
  have hu := (update_eq_ok_iff (c := {})).mpr ⟨_, _, (rfl : besides = _), rfl, rfl⟩
  have hunlisted : ∀ entry ∈ besidesEntries, ('*' ∉ entry.toList ∧ '?' ∉ entry.toList) ∧
      ({} : Config).linkedName entry ∉ besidesEntries := by
    decide
  refine ⟨rfl, _, hu, rfl, rfl, rfl, fun entry hentry ↦ ?_⟩
  rw [List.mem_map_of_injective fun _ _ ↦ Value.string.inj]
  exact hunlisted entry hentry

end BundleLink.Manifest
