import BundleLink.Proofs.Manifest.Coverage
import Mathlib.Data.List.Induction

/-!
What an update adds to the side effects of a manifest. A text in the list asks for its linked form
if it holds no wildcard, does not carry the suffix, and lies in the bundle directory once the `./`
that it begins with are left out (`Asks`). The forms that the list lacks are added at its end, each
once, in the order in which they are asked for first (`Firsts`). Nothing else about the list changes,
and a manifest without such a list keeps what it has in its place (`amended_of_update`).
-/

set_option autoImplicit false

namespace BundleLink.Manifest

open BundleLink.Json BundleLink.Text

/-! ### First places -/

/-- The elements of a list in the order of their first places, each once. -/
inductive Firsts {α : Type} : List α → List α → Prop
  | nil : Firsts [] []
  | first {l firsts : List α} {a : α} : a ∉ l → Firsts l firsts → Firsts (l ++ [a]) (firsts ++ [a])
  | again {l firsts : List α} {a : α} : a ∈ l → Firsts l firsts → Firsts (l ++ [a]) firsts

theorem firsts_eraseDups (l : List String) : Firsts l l.eraseDups := by
  induction l using List.reverseRecOn with
  | nil => exact .nil
  | append_singleton l a ih =>
    rw [List.eraseDups_append]
    by_cases ha : a ∈ l
    · have hnone : ([a].removeAll l).eraseDups = [] := by simp [List.removeAll, ha]
      rw [hnone, List.append_nil]
      exact .again ha ih
    · have hone : ([a].removeAll l).eraseDups = [a] := by
        simp [List.removeAll, ha, List.eraseDups_cons]
      rw [hone]
      exact .first ha ih

namespace Firsts

variable {α : Type} {l firsts : List α} (hfirsts : Firsts l firsts)

include hfirsts

theorem mem_iff {a : α} : a ∈ firsts ↔ a ∈ l := by
  induction hfirsts with
  | nil => rfl
  | first _ _ ih => rw [List.mem_append, List.mem_append, ih]
  | again hmem _ ih =>
    rw [ih, List.mem_append, List.mem_singleton]
    exact ⟨Or.inl, fun ha ↦ ha.elim id fun heq ↦ heq ▸ hmem⟩

theorem nodup : firsts.Nodup := by
  induction hfirsts with
  | nil => exact List.nodup_nil
  | @first l firsts a hnew hrest ih =>
    rw [List.nodup_append', List.disjoint_singleton]
    exact ⟨ih, List.nodup_singleton a, fun hmem ↦ hnew (hrest.mem_iff.mp hmem)⟩
  | again _ _ ih => exact ih

end Firsts

/-! ### Entries that ask for a linked form -/

/-- What is left of a text without the `./` that it begins with. -/
theorem dropDotSlashes_eq_iff (cs rest : List Char) : dropDotSlashes cs = rest ↔
    (∃ count, cs = (List.replicate count ['.', '/']).flatten ++ rest) ∧ ¬['.', '/'] <+: rest := by
  induction cs using dropDotSlashes.induct with
  | case1 cs ih =>
    rw [dropDotSlashes, ih, and_congr_left_iff]
    intro hrest
    constructor
    · rintro ⟨count, rfl⟩
      exact ⟨count + 1, by simp [List.replicate_succ]⟩
    · rintro ⟨count, hcount⟩
      cases count with
      | zero => exact absurd ⟨cs, hcount⟩ hrest
      | succ count => exact ⟨count, by simpa [List.replicate_succ] using hcount⟩
  | case2 cs hcs =>
    have hnone : ¬['.', '/'] <+: cs := by
      rintro ⟨rest, hrest⟩
      exact hcs rest hrest.symm
    rw [dropDotSlashes_eq_self hcs]
    constructor
    · rintro rfl
      exact ⟨⟨0, rfl⟩, hnone⟩
    · rintro ⟨⟨count, hcount⟩, -⟩
      cases count with
      | zero => exact hcount
      | succ count =>
        exact absurd ⟨_, by rw [hcount, List.replicate_succ, List.flatten_cons,
          List.append_assoc]⟩ hnone

/-- A side effect that is to be listed for the artifact too. -/
structure Asks (c : Config) (entry : String) : Prop where
  plain : Plain entry.toList
  not_suffixed : ¬c.suffix.toList <:+ entry.toList
  inside : ∃ count path, entry.toList = (List.replicate count ['.', '/']).flatten ++ path ∧
    ¬['.', '/'] <+: path ∧ c.bundleDirName.toList ++ ['/'] <+: path

theorem isLiteral_iff (c : Config) (entry : String) : isLiteral c entry = true ↔
    Plain entry.toList ∧ ¬c.suffix.toList <:+ entry.toList := by
  rw [isLiteral, Bool.and_eq_true, Bool.not_eq_true', Bool.not_eq_true', List.any_eq_false,
    endsWith, ← Bool.not_eq_true, List.isSuffixOf_iff_suffix, Plain]
  refine and_congr_left fun _ ↦ ⟨fun hall ↦ ?_, fun hplain x hx ↦ ?_⟩
  · exact ⟨fun hmem ↦ hall '*' hmem (by decide), fun hmem ↦ hall '?' hmem (by decide)⟩
  · simp only [Bool.or_eq_true, decide_eq_true_eq, not_or]
    exact ⟨ne_of_mem_of_not_mem hx hplain.1, ne_of_mem_of_not_mem hx hplain.2⟩

theorem inScope_iff (c : Config) (entry : String) : inScope c entry = true ↔
    ∃ count path, entry.toList = (List.replicate count ['.', '/']).flatten ++ path ∧
      ¬['.', '/'] <+: path ∧ c.bundleDirName.toList ++ ['/'] <+: path := by
  rw [inScope, List.isPrefixOf_iff_prefix, scope, String.toList_append]
  constructor
  · intro hprefix
    obtain ⟨⟨count, heq⟩, hrest⟩ := (dropDotSlashes_eq_iff entry.toList _).mp rfl
    exact ⟨count, _, heq, hrest, hprefix⟩
  · rintro ⟨count, path, heq, hrest, hprefix⟩
    rwa [(dropDotSlashes_eq_iff _ _).mpr ⟨⟨count, heq⟩, hrest⟩]

theorem asks_iff (c : Config) (entry : String) :
    Asks c entry ↔ (isLiteral c entry && inScope c entry) = true := by
  rw [Bool.and_eq_true, isLiteral_iff, inScope_iff]
  exact ⟨fun h ↦ ⟨⟨h.plain, h.not_suffixed⟩, h.inside⟩, fun h ↦ ⟨h.1.1, h.1.2, h.2⟩⟩

instance (c : Config) : DecidablePred (Asks c) :=
  fun entry ↦ decidable_of_iff _ (asks_iff c entry).symm

/-- The texts in a list of side effects. -/
def texts (patterns : List Value) : List String :=
  patterns.filterMap Value.string?

theorem mem_texts_iff {patterns : List Value} {s : String} :
    s ∈ texts patterns ↔ .string s ∈ patterns := by
  rw [texts, List.mem_filterMap]
  constructor
  · rintro ⟨v, hv, hs⟩
    cases v with
    | string s' => rwa [← Option.some.inj hs]
    | _ => cases hs
  · exact fun hs ↦ ⟨_, hs, rfl⟩

/-- The linked forms that are asked for and not there, as often as they are asked for. -/
def wantedForms (c : Config) (patterns : List Value) : List String :=
  (((texts patterns).filter fun e ↦ Asks c e).map fun e ↦ e ++ c.suffix).filter
    fun s ↦ s ∉ texts patterns

theorem missingSideEffects_eq (c : Config) (patterns : List Value) :
    missingSideEffects c patterns = (wantedForms c patterns).eraseDups := by
  have hasks : ((texts patterns).filter (isLiteral c)).filter (inScope c) =
      (texts patterns).filter fun e ↦ Asks c e := by
    rw [List.filter_filter]
    refine List.filter_congr fun e _ ↦ ?_
    rw [Bool.eq_iff_iff, decide_eq_true_iff, asks_iff, Bool.and_comm]
  have hnew : (fun s ↦ !(texts patterns).contains s) = fun s ↦ decide (s ∉ texts patterns) := by
    funext s
    rw [Bool.eq_iff_iff]
    simp
  rw [missingSideEffects, literals, ← texts, hasks, hnew]
  rfl

/-! ### Lists of side effects -/

/-- A list of side effects, what an update has added to it, and the list after that. -/
structure Amended (c : Config) (patterns updated : List Value) (added : List String) : Prop where
  updated_eq : updated = patterns ++ added.map .string
  firsts : Firsts (wantedForms c patterns) added
  nodup : added.Nodup
  new : ∀ s ∈ added, .string s ∉ patterns
  complete : ∀ e, .string e ∈ patterns → Asks c e → .string (e ++ c.suffix) ∈ updated

theorem amended_missingSideEffects (c : Config) (patterns : List Value) :
    Amended c patterns (patterns ++ (missingSideEffects c patterns).map .string)
      (missingSideEffects c patterns) := by
  have hfirsts : Firsts (wantedForms c patterns) (missingSideEffects c patterns) :=
    missingSideEffects_eq c patterns ▸ firsts_eraseDups _
  refine ⟨rfl, hfirsts, hfirsts.nodup, fun s hs ↦ ?_, fun e he hasks ↦ ?_⟩
  · have hwanted := hfirsts.mem_iff.mp hs
    rw [← mem_texts_iff]
    simpa using (List.mem_filter.mp hwanted).2
  · rw [List.mem_append]
    by_cases hpresent : .string (e ++ c.suffix) ∈ patterns
    · exact .inl hpresent
    · refine .inr (List.mem_map_of_mem (hfirsts.mem_iff.mpr ?_))
      rw [wantedForms, List.mem_filter]
      refine ⟨List.mem_map_of_mem (List.mem_filter.mpr ⟨mem_texts_iff.mpr he, ?_⟩), ?_⟩
      · exact decide_eq_true hasks
      · exact decide_eq_true fun hmem ↦ hpresent (mem_texts_iff.mp hmem)

/-- An update adds to a list of side effects the linked forms that it lacks, and leaves whatever
stands in the place of such a list. -/
theorem amended_of_update {c : Config} {m : Value} {u : ManifestUpdate}
    (hu : update c m = .ok u) : ∃ entries entries' : Entries, m = .object entries ∧
    u.manifest = .object entries' ∧
    (∀ patterns, entries.get? "sideEffects" = some (.array patterns) →
      ∃ updated, entries'.get? "sideEffects" = some (.array updated) ∧
        Amended c patterns updated u.changes.sideEffects) ∧
    ((∀ patterns, entries.get? "sideEffects" ≠ some (.array patterns)) →
      entries'.get? "sideEffects" = entries.get? "sideEffects" ∧ u.changes.sideEffects = []) := by
  obtain ⟨entries, exports, rfl, -, rfl⟩ := update_eq_ok_iff.mp hu
  cases hside : sideEffects? entries with
  | none =>
    obtain ⟨log, heq⟩ := updateEntries_of_none c exports hside
    refine ⟨entries, _, rfl, by rw [heq], fun patterns hpatterns ↦ ?_, fun _ ↦ ⟨?_, by rw [heq]⟩⟩
    · simp [sideEffects?, hpatterns] at hside
    · simp [Entries.get?_put]
  | some patterns =>
    obtain ⟨log, heq⟩ := updateEntries_of_some c exports hside
    have hget := get?_of_sideEffects? hside
    refine ⟨entries, _, rfl, by rw [heq], fun patterns' hpatterns ↦ ?_,
      fun hnone ↦ absurd hget (hnone patterns)⟩
    obtain rfl : patterns = patterns' := by simpa [hget] using hpatterns
    refine ⟨_, by rw [Entries.get?_put, if_pos rfl], ?_⟩
    rw [heq]
    exact amended_missingSideEffects c patterns

/-! ### A list with entries of each kind -/

/-- Two entries ask for new forms, one of them twice; the form that the last one asks for is there.
-/
def mixedPatterns : List Value :=
  [.bool true, .string "./d/b.x.linked.x", .string "./d/a.x", .string "e/c.x", .string "./d/*.x",
    .string "././d/a.x", .string "./d/a.x", .string "./d/b.x"]

def mixedSideEffects : Entries :=
  [("sideEffects", .array mixedPatterns), ("exports", .object [])]

theorem amended_mixedPatterns : ∃ u updated,
    update sideEffectConfig (.object mixedSideEffects) = .ok u ∧
      Amended sideEffectConfig mixedPatterns updated u.changes.sideEffects ∧
      u.changes.sideEffects = ["./d/a.x.linked.x", "././d/a.x.linked.x"] := by
  have hget : Entries.get? mixedSideEffects "sideEffects" = some (.array mixedPatterns) := by rfl
  have hu : update sideEffectConfig (.object mixedSideEffects) =
      .ok (updateEntries sideEffectConfig mixedSideEffects []) :=
    update_eq_ok_iff.mpr ⟨_, _, rfl, by rfl, rfl⟩
  have hadded : (updateEntries sideEffectConfig mixedSideEffects []).changes.sideEffects =
      ["./d/a.x.linked.x", "././d/a.x.linked.x"] := by decide +kernel
  obtain ⟨entries, entries', hentries, -, hlisted, -⟩ := amended_of_update hu
  obtain rfl := Value.object.inj hentries
  obtain ⟨updated, -, hamended⟩ := hlisted mixedPatterns hget
  exact ⟨_, updated, hu, hamended, hadded⟩

end BundleLink.Manifest
