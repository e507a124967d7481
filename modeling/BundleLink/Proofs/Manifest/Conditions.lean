import BundleLink.Manifest
import BundleLink.Proofs.Json.Entries

/-!
What an update makes of one export. An export gains a condition exactly if it is an object whose
default lies in the bundle directory and which has no such condition yet (`Gains`); else it stays as
it is, for one of three reasons (`Passed`). All that is said of updated exports comes from these cases
(`updateExport_cases`).
-/

set_option autoImplicit false

namespace BundleLink.Manifest

open BundleLink.Json BundleLink.Text

/-- An export that gains a condition: an object whose default is a text that holds the name of the
bundle directory, and in which the condition is missing. -/
structure Gains (c : Config) (value : Value) (conditions : Entries) (target : String) : Prop where
  eq_object : value = .object conditions
  default : conditions.get? "default" = some (.string target)
  inside : c.bundleDirName.toList <:+: target.toList
  missing : c.condition ∉ conditions.map Prod.fst

/-- An export that stays as it is, with the event that tells why. -/
inductive Passed (c : Config) : String × Value → Event → Prop
  | notObject {subpath : String} {value : Value} : (∀ conditions, value ≠ .object conditions) →
      Passed c (subpath, value) (.exportNotObject subpath)
  | outside {subpath : String} {conditions : Entries} :
      (∀ target, conditions.get? "default" = some (.string target) →
        ¬c.bundleDirName.toList <:+: target.toList) →
      Passed c (subpath, .object conditions) (.exportOutside subpath c.bundleDirName)
  | present {subpath : String} {conditions : Entries} {target : String} :
      conditions.get? "default" = some (.string target) →
      c.bundleDirName.toList <:+: target.toList → c.condition ∈ conditions.map Prod.fst →
      Passed c (subpath, .object conditions) (.exportPresent subpath c.condition)

theorem entries?_eq_some {v : Value} {es : Entries} (hes : v.entries? = some es) :
    v = .object es := by
  cases v with
  | object _ => rw [Option.some.inj hes]
  | _ => cases hes

variable {c : Config}

theorem linkedTarget?_eq_some_iff {conditions : Entries} {linked : String} :
    linkedTarget? c conditions = some linked ↔ ∃ target,
      conditions.get? "default" = some (.string target) ∧
      c.bundleDirName.toList <:+: target.toList ∧ linked = target ++ c.suffix := by
  rw [linkedTarget?]
  constructor
  · intro hlinked
    split at hlinked
    · rename_i target hdefault
      split_ifs at hlinked with hinside
      exact ⟨target, hdefault, (occursAt_iff _ _).mp hinside, (Option.some.inj hlinked).symm⟩
    · cases hlinked
  · rintro ⟨target, hdefault, hinside, rfl⟩
    have hoccurs : occursIn c.bundleDirName target = true := (occursAt_iff _ _).mpr hinside
    simp only [hdefault]
    rw [if_pos hoccurs, Config.linkedName]

/-- All that can become of an export. -/
theorem updateExport_cases (c : Config) (e : String × Value) :
    (∃ event, Passed c e event ∧ updateExport c e = ⟨e, none, event⟩) ∨
      ∃ conditions target, Gains c e.2 conditions target ∧ updateExport c e =
        ⟨(e.1, .object ((c.condition, .string (target ++ c.suffix)) :: conditions)),
          some ⟨e.1, target ++ c.suffix⟩, .exportLinked e.1 c.condition (target ++ c.suffix)⟩ := by
  obtain ⟨subpath, value⟩ := e
  cases hentries : value.entries? with
  | none =>
    refine .inl ⟨_, .notObject fun conditions hvalue ↦ ?_, by simp only [updateExport, hentries]⟩
    rw [hvalue] at hentries
    cases hentries
  | some conditions =>
    obtain rfl := entries?_eq_some hentries
    cases hlinked : linkedTarget? c conditions with
    | none =>
      refine .inl ⟨_, .outside fun target hdefault hinside ↦ ?_,
        by simp only [updateExport, hentries, hlinked]⟩
      rw [linkedTarget?_eq_some_iff.mpr ⟨target, hdefault, hinside, rfl⟩] at hlinked
      cases hlinked
    | some linked =>
      obtain ⟨target, hdefault, hinside, rfl⟩ := linkedTarget?_eq_some_iff.mp hlinked
      by_cases hpresent : conditions.contains c.condition
      · exact .inl ⟨_, .present hdefault hinside (Entries.contains_iff.mp hpresent),
          by simp only [updateExport, hentries, hlinked, hpresent, if_true]⟩
      · refine .inr ⟨conditions, target, ⟨rfl, hdefault, hinside, fun hmem ↦ ?_⟩,
          by simp only [updateExport, hentries, hlinked, hpresent]; rfl⟩
        exact hpresent (Entries.contains_iff.mpr hmem)

/-- An export that stays does not gain a condition, and is reported in detail only. -/
theorem Passed.not_gains {e : String × Value} {event : Event} (he : Passed c e event) :
    (¬∃ conditions target, Gains c e.2 conditions target) ∧ event.level = .debug := by
  refine ⟨?_, by cases he <;> rfl⟩
  rintro ⟨conditions', target', hgains⟩
  cases he with
  | notObject hnot => exact hnot _ hgains.eq_object
  | outside hnot =>
    obtain rfl := Value.object.inj hgains.eq_object
    exact hnot _ hgains.default hgains.inside
  | present _ _ hmem =>
    obtain rfl := Value.object.inj hgains.eq_object
    exact hgains.missing hmem

/-- What gains a condition is no longer what it was. -/
theorem Gains.ne {value : Value} {conditions : Entries} {target : String}
    (hgains : Gains c value conditions target) (added : String × Value) :
    Value.object (added :: conditions) ≠ value := by
  rw [hgains.eq_object]
  intro heq
  exact List.cons_ne_self _ _ (Value.object.inj heq)

/-- The default was there when the condition was missing. -/
theorem Gains.condition_ne_default {value : Value} {conditions : Entries} {target : String}
    (hgains : Gains c value conditions target) : c.condition ≠ "default" := by
  intro heq
  exact hgains.missing (heq ▸ Entries.mem_keys_of_get? hgains.default)

/-- A condition that is gained hides no default, so that an export gains after it what it could have
gained before, but not that condition again. -/
theorem Gains.gained_iff {d : Config} {value added : Value} {conditions : Entries}
    {target target' : String} (hc : Gains c value conditions target) :
    (∃ conditions', Gains d (.object ((c.condition, added) :: conditions)) conditions' target') ↔
      Gains d value conditions target' ∧ d.condition ≠ c.condition := by
  have hdefault : Entries.get? ((c.condition, added) :: conditions) "default" =
      conditions.get? "default" := by
    simp [Entries.get?, hc.condition_ne_default]
  constructor
  · rintro ⟨conditions', hd⟩
    obtain rfl := Value.object.inj hd.eq_object
    have hmissing := hd.missing
    rw [List.map_cons, List.mem_cons, not_or] at hmissing
    exact ⟨⟨hc.eq_object, hdefault ▸ hd.default, hd.inside, hmissing.2⟩, hmissing.1⟩
  · rintro ⟨hd, hne⟩
    refine ⟨_, rfl, hdefault ▸ hd.default, hd.inside, ?_⟩
    rw [List.map_cons, List.mem_cons, not_or]
    exact ⟨hne, hd.missing⟩

theorem change_eq_none_iff {e : String × Value} :
    (updateExport c e).change = none ↔ ¬∃ conditions target, Gains c e.2 conditions target := by
  obtain ⟨event, hpassed, hupdate⟩ | ⟨conditions, target, hgains, hupdate⟩ :=
    updateExport_cases c e
  · exact iff_of_true (by rw [hupdate]) hpassed.not_gains.1
  · refine iff_of_false ?_ (not_not_intro ⟨conditions, target, hgains⟩)
    rw [hupdate]
    exact Option.some_ne_none _

/-- An export that gains a condition is recorded with its target. -/
theorem change_eq_some_iff {e : String × Value} {change : ConditionChange} :
    (updateExport c e).change = some change ↔
      ∃ conditions target, Gains c e.2 conditions target ∧ change = ⟨e.1, target ++ c.suffix⟩ := by
  obtain ⟨event, hpassed, hupdate⟩ | ⟨conditions, target, hgains, hupdate⟩ :=
    updateExport_cases c e
  · rw [hupdate]
    refine iff_of_false (Option.some_ne_none _).symm ?_
    rintro ⟨conditions, target, hgains, -⟩
    exact hpassed.not_gains.1 ⟨conditions, target, hgains⟩
  · rw [hupdate, Option.some.injEq]
    constructor
    · exact fun heq ↦ ⟨conditions, target, hgains, heq.symm⟩
    · rintro ⟨conditions', target', hgains', rfl⟩
      obtain rfl := Value.object.inj (hgains.eq_object.symm.trans hgains'.eq_object)
      have htarget := hgains.default.symm.trans hgains'.default
      rw [Value.string.inj (Option.some.inj htarget)]

theorem entry_of_change_eq_none {e : String × Value}
    (hchange : (updateExport c e).change = none) : (updateExport c e).entry = e := by
  obtain ⟨event, -, hupdate⟩ | ⟨conditions, target, hgains, -⟩ := updateExport_cases c e
  · rw [hupdate]
  · exact absurd ⟨conditions, target, hgains⟩ (change_eq_none_iff.mp hchange)

/-- What an update does to an export takes nothing from another configuration, or from its own. -/
theorem change_updateExport_eq_none (c d : Config) (e : String × Value)
    (hd : d = c ∨ (updateExport d e).change = none) :
    (updateExport d (updateExport c e).entry).change = none := by
  obtain ⟨event, hpassed, hupdate⟩ | ⟨conditions, target, hgains, hupdate⟩ :=
    updateExport_cases c e
  · rw [hupdate]
    rcases hd with rfl | hd
    · rw [hupdate]
    · exact hd
  · rw [hupdate, change_eq_none_iff]
    rintro ⟨conditions', target', hgains'⟩
    obtain ⟨hgained, hne⟩ := hgains.gained_iff.mp ⟨conditions', hgains'⟩
    rcases hd with rfl | hd
    · exact hne rfl
    · exact change_eq_none_iff.mp hd ⟨conditions, target', hgained⟩

/-- What an export gains from a configuration is the same before and after it gains another
condition. -/
theorem change_updateExport_of_ne {c d : Config} (hne : d.condition ≠ c.condition)
    (e : String × Value) :
    (updateExport d (updateExport c e).entry).change = (updateExport d e).change := by
  obtain ⟨event, -, hupdate⟩ | ⟨conditions, target, hgains, hupdate⟩ := updateExport_cases c e
  · rw [hupdate]
  · refine Option.ext fun change ↦ ?_
    rw [change_eq_some_iff, change_eq_some_iff, hupdate]
    constructor
    · rintro ⟨conditions', target', hgains', hchange⟩
      exact ⟨conditions, target', (hgains.gained_iff.mp ⟨conditions', hgains'⟩).1, hchange⟩
    · rintro ⟨conditions', target', hgains', hchange⟩
      obtain rfl := Value.object.inj (hgains.eq_object.symm.trans hgains'.eq_object)
      obtain ⟨conditions'', hgained⟩ := hgains.gained_iff.mpr ⟨hgains', hne⟩
      exact ⟨conditions'', target', hgained, hchange⟩

end BundleLink.Manifest
