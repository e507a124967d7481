import BundleLink.Proofs.Manifest.Exports
import BundleLink.Proofs.Manifest.Outcomes
import Mathlib.Data.List.Perm.Basic

/-!
A manifest that is updated under several conditions. Configurations that find the same bundles and
name their artifacts alike (`Alongside`) do not see each other: a condition that an export has
gained is neither its default nor the condition that another configuration looks for
(`change_updateExport_of_ne`). So an export gains from each of them what it would gain from that one
alone, and ends with these conditions before all that it had, the last one first (`publish_eq`).
The side effects are extended by the first update, and no later one finds any to add
(`editAll_cons`). Whatever the order, the manifests differ at most in the order of keys within
exports, and the reports agree (`confluent_of_perm`).
-/

set_option autoImplicit false

namespace BundleLink.Manifest

open BundleLink.Json BundleLink.Text

/-- Configurations that publish the same artifacts under different conditions. -/
structure Alongside (c d : Config) : Prop where
  bundleDirName_eq : d.bundleDirName = c.bundleDirName
  extension_eq : d.extension = c.extension
  condition_ne : d.condition ≠ c.condition

namespace Alongside

variable {c d : Config} (h : Alongside c d)

include h

theorem symm : Alongside d c :=
  ⟨h.bundleDirName_eq.symm, h.extension_eq.symm, h.condition_ne.symm⟩

theorem suffix_eq : d.suffix = c.suffix := by
  rw [Config.suffix, Config.suffix, h.extension_eq]

/-- The linked forms that a list of side effects lacks have nothing to do with conditions. -/
theorem missingSideEffects_eq (patterns : List Value) :
    missingSideEffects d patterns = missingSideEffects c patterns := by
  have hliteral : isLiteral d = isLiteral c := by
    funext p
    rw [isLiteral, isLiteral, h.suffix_eq]
  have hscope : inScope d = inScope c := by
    funext p
    rw [inScope, inScope, scope, scope, h.bundleDirName_eq]
  have hlinked : d.linkedName = c.linkedName := by
    funext p
    rw [Config.linkedName, Config.linkedName, h.suffix_eq]
  rw [missingSideEffects, missingSideEffects, literals, literals, hliteral, hscope, hlinked]

end Alongside

/-! ### One export -/

/-- An export after updates under one configuration after the other. -/
def publish (cs : List Config) (e : String × Value) : String × Value :=
  cs.foldl (fun e c ↦ (updateExport c e).entry) e

/-- The conditions that an export gains from the configurations, the last one first. -/
def gained (cs : List Config) (e : String × Value) : Entries :=
  cs.reverse.flatMap fun c ↦
    (updateExport c e).change.toList.map fun change ↦ (c.condition, .string change.target)

/-- A value with more entries before its own, if it is an object. -/
def prepend (front : Entries) : Value → Value
  | .object es => .object (front ++ es)
  | v => v

theorem prepend_nil (v : Value) : prepend [] v = v := by
  cases v <;> rfl

theorem prepend_append (front front' : Entries) (v : Value) :
    prepend (front ++ front') v = prepend front (prepend front' v) := by
  cases v with
  | object es => rw [prepend, prepend, prepend, List.append_assoc]
  | _ => rfl

theorem gained_concat (cs : List Config) (c : Config) (e : String × Value) :
    gained (cs ++ [c]) e = gained [c] e ++ gained cs e := by
  simp [gained]

theorem entry_updateExport_eq (c : Config) (e : String × Value) :
    (updateExport c e).entry = (e.1, prepend (gained [c] e) e.2) := by
  obtain ⟨event, -, hupdate⟩ | ⟨conditions, target, hgains, hupdate⟩ := updateExport_cases c e
  · simp [gained, hupdate, prepend_nil]
  · simp [gained, hupdate, hgains.eq_object, prepend]

theorem publish_concat (cs : List Config) (c : Config) (e : String × Value) :
    publish (cs ++ [c]) e = (updateExport c (publish cs e)).entry := by
  rw [publish, List.foldl_concat, ← publish]

/-- What an export gains from a configuration is the same after any others alongside it. -/
theorem change_publish {cs : List Config} {d : Config} (hcs : ∀ c ∈ cs, Alongside c d)
    (e : String × Value) : (updateExport d (publish cs e)).change = (updateExport d e).change := by
  induction cs generalizing e with
  | nil => rfl
  | cons c cs ih =>
    rw [publish, List.foldl_cons, ← publish, ih fun c' hc' ↦ hcs c' (List.mem_cons_of_mem c hc'),
      change_updateExport_of_ne (hcs c List.mem_cons_self).condition_ne]

/-- An export ends with all that it gains before all that it had. -/
theorem publish_eq {cs : List Config} (hcs : cs.Pairwise Alongside) (e : String × Value) :
    publish cs e = (e.1, prepend (gained cs e) e.2) := by
  induction cs using List.reverseRecOn with
  | nil => rw [gained, List.reverse_nil, List.flatMap_nil, prepend_nil]; rfl
  | append_singleton cs c ih =>
    rw [List.pairwise_append] at hcs
    have hc : gained [c] (publish cs e) = gained [c] e := by
      simp only [gained, List.reverse_singleton, List.flatMap_singleton]
      rw [change_publish fun d hd ↦ hcs.2.2 d hd c (List.mem_singleton_self c)]
    rw [publish_concat, entry_updateExport_eq, hc, ih hcs.1, gained_concat, prepend_append]

/-- The same export up to the order of its keys, if it is an object. -/
inductive SameExport : String × Value → String × Value → Prop
  | refl (e : String × Value) : SameExport e e
  | object {subpath : String} {es es' : Entries} : es.Perm es' →
      SameExport (subpath, .object es) (subpath, .object es')

theorem sameExport_publish {cs cs' : List Config} (hcs : cs.Pairwise Alongside)
    (hperm : cs.Perm cs') (e : String × Value) : SameExport (publish cs e) (publish cs' e) := by
  have hcs' : cs'.Pairwise Alongside := (hperm.pairwise_iff Alongside.symm).mp hcs
  have hgained : (gained cs e).Perm (gained cs' e) := by
    refine List.Perm.flatMap_right _ ?_
    exact (List.reverse_perm cs).trans (hperm.trans (List.reverse_perm cs').symm)
  rw [publish_eq hcs, publish_eq hcs']
  obtain ⟨subpath, value⟩ := e
  cases value with
  | object es => exact .object (hgained.append_right es)
  | _ => exact .refl _

/-! ### Whole manifests -/

/-- The conditions that exports gain from a configuration. -/
def conditionChanges (c : Config) (exports : Entries) : List ConditionChange :=
  exports.filterMap fun e ↦ (updateExport c e).change

/-- The linked forms that a configuration finds missing in the side effects of a manifest. -/
def unlisted (c : Config) (entries : Entries) : List String :=
  ((sideEffects? entries).map (missingSideEffects c)).getD []

/-- The entries of a manifest with its side effects extended. -/
def extendSideEffects (c : Config) (entries : Entries) : Entries :=
  match sideEffects? entries with
  | none => entries
  | some patterns =>
    entries.put "sideEffects" (.array (patterns ++ (missingSideEffects c patterns).map .string))

theorem updateEntries_eq (c : Config) {entries exports : Entries}
    (hget : entries.get? "exports" = some (.object exports)) :
    ∃ log, updateEntries c entries exports =
      ⟨.object ((extendSideEffects c entries).put "exports" (.object (updatedExports c exports))),
        ⟨conditionChanges c exports, unlisted c entries⟩, log⟩ := by
  cases hside : sideEffects? entries with
  | none =>
    obtain ⟨log, hu⟩ := updateEntries_of_none c exports hside
    exact ⟨log, by rw [hu, extendSideEffects, unlisted, hside]; rfl⟩
  | some patterns =>
    obtain ⟨log, hu⟩ := updateEntries_of_some c exports hside
    refine ⟨log, ?_⟩
    rw [hu, Entries.put_comm (Entries.mem_keys_of_get? hget) (by decide), extendSideEffects,
      unlisted, hside]
    rfl

theorem unlisted_put_exports (c : Config) (entries : Entries) (value : Value) :
    unlisted c (entries.put "exports" value) = unlisted c entries := by
  rw [unlisted, sideEffects?_put_exports, unlisted]

/-- After the side effects have been extended none is missing. -/
theorem unlisted_extendSideEffects (c : Config) (entries : Entries) :
    unlisted c (extendSideEffects c entries) = [] := by
  rw [extendSideEffects]
  cases hside : sideEffects? entries with
  | none => simp [unlisted, hside]
  | some patterns =>
    have hlisted := (missingSideEffects_eq_nil_iff c _).mpr
      (listed_append_missingSideEffects c patterns)
    simp [unlisted, sideEffects?, Entries.get?_put, hlisted]

theorem extendSideEffects_eq_self {c : Config} {entries : Entries}
    (hlisted : unlisted c entries = []) : extendSideEffects c entries = entries := by
  rw [extendSideEffects]
  cases hside : sideEffects? entries with
  | none => rfl
  | some patterns =>
    have hmissing : missingSideEffects c patterns = [] := by simpa [unlisted, hside] using hlisted
    simp only
    rw [hmissing, List.map_nil, List.append_nil,
      Entries.put_eq_self (get?_of_sideEffects? hside)]

namespace Alongside

variable {c d : Config} (h : Alongside c d)

include h

theorem unlisted_eq (entries : Entries) : unlisted d entries = unlisted c entries := by
  rw [unlisted, unlisted, funext h.missingSideEffects_eq]

theorem extendSideEffects_eq (entries : Entries) :
    extendSideEffects d entries = extendSideEffects c entries := by
  rw [extendSideEffects, extendSideEffects, funext h.missingSideEffects_eq]

end Alongside

/-! ### One update after the other -/

/-- Updates a manifest in place under one configuration after the other, up to the first update that
fails. -/
def editAll : List Config → Edit (List ManifestChanges)
  | [] => return []
  | c :: cs => do
    let changes ← edit c
    let rest ← editAll cs
    return changes :: rest

theorem edit_object (c : Config) {entries exports : Entries}
    (hget : entries.get? "exports" = some (.object exports)) (log : Log) :
    ∃ log', edit c ⟨.object entries, log⟩ = .ok ⟨conditionChanges c exports, unlisted c entries⟩
      ⟨.object ((extendSideEffects c entries).put "exports" (.object (updatedExports c exports))),
        log'⟩ := by
  have hu : update c (.object entries) = .ok (updateEntries c entries exports) :=
    update_eq_ok_iff.mpr ⟨entries, exports, rfl, hget, rfl⟩
  obtain ⟨log', heq⟩ := updateEntries_eq c hget
  rw [edit_eq, hu, heq]
  exact ⟨_, rfl⟩

theorem editAll_of_error {c : Config} {m : Value} {e : Failure} (he : update c m = .error e)
    (cs : List Config) (log : Log) : editAll (c :: cs) ⟨m, log⟩ = .error e ⟨m, log⟩ := by
  have hedit : edit c ⟨m, log⟩ = .error e ⟨m, log⟩ := by
    rw [edit_eq, he]
    rfl
  simp [editAll, bind, EStateM.bind, hedit]

section

variable {cs : List Config} {exports : Entries}

theorem updatedExports_publish (c : Config) :
    updatedExports c (exports.map (publish cs)) = exports.map (publish (cs ++ [c])) := by
  rw [updatedExports, List.map_map]
  exact List.map_congr_left fun e _ ↦ (publish_concat cs c e).symm

theorem conditionChanges_publish {d : Config} (hcs : ∀ c ∈ cs, Alongside c d) :
    conditionChanges d (exports.map (publish cs)) = conditionChanges d exports := by
  rw [conditionChanges, List.filterMap_map, conditionChanges]
  exact List.filterMap_congr fun e _ ↦ change_publish hcs e

/-- Updates of a manifest in which no linked form is missing. Each adds the conditions that it would
have added before those in `done`, and nothing else. -/
theorem editAll_of_listed {done : List Config} (hcs : (done ++ cs).Pairwise Alongside)
    {entries : Entries}
    (hget : entries.get? "exports" = some (.object (exports.map (publish done))))
    (hlisted : ∀ c ∈ cs, unlisted c entries = []) (log : Log) :
    ∃ log', editAll cs ⟨.object entries, log⟩ =
      .ok (cs.map fun c ↦ ⟨conditionChanges c exports, []⟩)
        ⟨.object (entries.put "exports" (.object (exports.map (publish (done ++ cs))))), log'⟩ := by
  induction cs generalizing done entries log with
  | nil =>
    rw [List.append_nil, Entries.put_eq_self hget]
    exact ⟨log, rfl⟩
  | cons c cs ih =>
    have hdone : ∀ d ∈ done, Alongside d c := fun d hd ↦
      (List.pairwise_append.mp hcs).2.2 d hd c List.mem_cons_self
    have hc : unlisted c entries = [] := hlisted c List.mem_cons_self
    obtain ⟨log₁, hedit⟩ := edit_object c hget log
    rw [hc, extendSideEffects_eq_self hc, updatedExports_publish,
      conditionChanges_publish hdone] at hedit
    -- The invariant is the same with `c` among those in `done`.
    have hcs₁ : ((done ++ [c]) ++ cs).Pairwise Alongside := by simpa using hcs
    have hget₁ : (entries.put "exports" (.object (exports.map (publish (done ++ [c]))))).get?
        "exports" = some (.object (exports.map (publish (done ++ [c])))) := by
      rw [Entries.get?_put, if_pos rfl]
    obtain ⟨log₂, hrest⟩ := ih hcs₁ hget₁
      (fun d hd ↦ by rw [unlisted_put_exports, hlisted d (List.mem_cons_of_mem c hd)]) log₁
    refine ⟨log₂, ?_⟩
    rw [editAll, Edit.bind_of_ok hedit, Edit.bind_of_ok hrest, Entries.put_put, List.append_assoc]
    rfl

/-- The first update extends the side effects, and each one adds the conditions that it would add
alone. -/
theorem editAll_cons {c : Config} (hcs : (c :: cs).Pairwise Alongside) {entries : Entries}
    (hget : entries.get? "exports" = some (.object exports)) (log : Log) :
    ∃ log', editAll (c :: cs) ⟨.object entries, log⟩ =
      .ok (⟨conditionChanges c exports, unlisted c entries⟩ ::
          cs.map fun d ↦ ⟨conditionChanges d exports, []⟩)
        ⟨.object ((extendSideEffects c entries).put "exports"
          (.object (exports.map (publish (c :: cs))))), log'⟩ := by
  obtain ⟨log₁, hedit⟩ := edit_object c hget log
  have hlisted : ∀ d ∈ cs, unlisted d ((extendSideEffects c entries).put "exports"
      (.object (updatedExports c exports))) = [] := by
    intro d hd
    rw [unlisted_put_exports, ((List.pairwise_cons.mp hcs).1 d hd).unlisted_eq,
      unlisted_extendSideEffects]
  have hcs₁ : ([c] ++ cs).Pairwise Alongside := hcs
  have hget₁ : ((extendSideEffects c entries).put "exports"
      (.object (updatedExports c exports))).get? "exports" =
        some (.object (exports.map (publish [c]))) := by
    rw [Entries.get?_put, if_pos rfl]
    rfl
  obtain ⟨log₂, hrest⟩ := editAll_of_listed hcs₁ hget₁ hlisted log₁
  refine ⟨log₂, ?_⟩
  rw [editAll, Edit.bind_of_ok hedit, Edit.bind_of_ok hrest, Entries.put_put]
  rfl

end

/-! ### Two orders -/

/-- The same manifest up to the order of keys inside the exports that are objects. -/
inductive Reordered : Value → Value → Prop
  | refl (m : Value) : Reordered m m
  | exports {entries exports exports' : Entries} :
      entries.get? "exports" = some (.object exports) → List.Forall₂ SameExport exports exports' →
      Reordered (.object entries) (.object (entries.put "exports" (.object exports')))

/-- The reports of updates of a manifest in two orders. Each configuration contributes to both the
conditions that it would add alone. The side effects are the same, and the first update reports them
all. -/
structure SameReports (m : Value) (cs cs' : List Config) (steps steps' : List ManifestChanges) :
    Prop where
  conditions : ∃ contributed : Config → List ConditionChange,
    steps.map (·.conditions) = cs.map contributed ∧
    steps'.map (·.conditions) = cs'.map contributed ∧
    ∀ c ∈ cs, ∃ u, update c m = .ok u ∧ u.changes.conditions = contributed c
  sideEffects : steps.flatMap (·.sideEffects) = steps'.flatMap (·.sideEffects)
  first : ∀ step ∈ steps.tail ++ steps'.tail, step.sideEffects = []

/-- How updates of a manifest in two orders end: both fail alike and leave the manifest as it was,
or both succeed with the same manifest up to the order of keys, and the same reports. -/
inductive Confluent (m : Value) (log : Log) (cs cs' : List Config) :
    EStateM.Result Failure Held (List ManifestChanges) →
    EStateM.Result Failure Held (List ManifestChanges) → Prop
  | missingExports (path path' : Path) : Confluent m log cs cs'
      (.error (.missingExports path) ⟨m, log⟩) (.error (.missingExports path') ⟨m, log⟩)
  | unsupportedExports (path path' : Path) : Confluent m log cs cs'
      (.error (.unsupportedExports path) ⟨m, log⟩) (.error (.unsupportedExports path') ⟨m, log⟩)
  | updated {steps steps' : List ManifestChanges} {s s' : Held} :
      Reordered s.manifest s'.manifest → SameReports m cs cs' steps steps' →
      Confluent m log cs cs' (.ok steps s) (.ok steps' s')

section

variable {cs cs' : List Config}

theorem reordered_publish (hcs : cs.Pairwise Alongside) (hperm : cs.Perm cs') (entries : Entries)
    (exports : Entries) : Reordered
      (.object (entries.put "exports" (.object (exports.map (publish cs)))))
      (.object (entries.put "exports" (.object (exports.map (publish cs'))))) := by
  have hget : (entries.put "exports" (.object (exports.map (publish cs)))).get? "exports" =
      some (.object (exports.map (publish cs))) := by
    rw [Entries.get?_put, if_pos rfl]
  rw [← Entries.put_put entries "exports" (.object (exports.map (publish cs)))
    (.object (exports.map (publish cs')))]
  refine .exports hget ?_
  rw [List.forall₂_map_left_iff, List.forall₂_map_right_iff, List.forall₂_same]
  exact fun e _ ↦ sameExport_publish hcs hperm e

theorem sameReports_conditionChanges (cs cs' : List Config) {entries exports : Entries}
    (hget : entries.get? "exports" = some (.object exports)) (c c' : Config)
    (added : List String) : SameReports (.object entries) (c :: cs) (c' :: cs')
      (⟨conditionChanges c exports, added⟩ :: cs.map fun d ↦ ⟨conditionChanges d exports, []⟩)
      (⟨conditionChanges c' exports, added⟩ :: cs'.map fun d ↦ ⟨conditionChanges d exports, []⟩)
      where
  conditions := by
    refine ⟨fun d ↦ conditionChanges d exports, by simp, by simp, fun d _ ↦ ?_⟩
    obtain ⟨log, heq⟩ := updateEntries_eq d hget
    exact ⟨_, update_eq_ok_iff.mpr ⟨entries, exports, rfl, hget, rfl⟩, by rw [heq]⟩
  sideEffects := by
    have hnone (ds : List Config) : (ds.map fun d ↦ ManifestChanges.mk (conditionChanges d exports)
        []).flatMap (·.sideEffects) = [] := by
      simp [List.flatMap_eq_nil_iff]
    rw [List.flatMap_cons, List.flatMap_cons, hnone, hnone]
  first := by
    intro step hstep
    simp only [List.tail_cons, List.mem_append, List.mem_map] at hstep
    obtain ⟨d, -, rfl⟩ | ⟨d, -, rfl⟩ := hstep <;> rfl

/-- Whichever configuration comes first, it extends the side effects alike. -/
theorem sideEffects_eq_of_mem {c d : Config} (hcs : (c :: cs).Pairwise Alongside)
    (hd : d ∈ c :: cs) (entries : Entries) :
    unlisted d entries = unlisted c entries ∧
      extendSideEffects d entries = extendSideEffects c entries := by
  rcases List.mem_cons.mp hd with rfl | hd
  · exact ⟨rfl, rfl⟩
  · have halongside := (List.pairwise_cons.mp hcs).1 d hd
    exact ⟨halongside.unlisted_eq entries, halongside.extendSideEffects_eq entries⟩

theorem confluent_object {c c' : Config} (hcs : (c :: cs).Pairwise Alongside)
    (hperm : (c :: cs).Perm (c' :: cs')) {entries exports : Entries}
    (hget : entries.get? "exports" = some (.object exports)) (log : Log) :
    Confluent (.object entries) log (c :: cs) (c' :: cs') (editAll (c :: cs) ⟨.object entries, log⟩)
      (editAll (c' :: cs') ⟨.object entries, log⟩) := by
  have hcs' : (c' :: cs').Pairwise Alongside := (hperm.pairwise_iff Alongside.symm).mp hcs
  have hfirst : c' ∈ c :: cs := hperm.mem_iff.mpr List.mem_cons_self
  obtain ⟨hunlisted, hextend⟩ := sideEffects_eq_of_mem hcs hfirst entries
  obtain ⟨log₁, hrun⟩ := editAll_cons hcs hget log
  obtain ⟨log₂, hrun'⟩ := editAll_cons hcs' hget log
  rw [hrun, hrun', hunlisted, hextend]
  exact .updated (reordered_publish hcs hperm _ exports)
    (sameReports_conditionChanges cs cs' hget c c' _)

/-- Updates under several conditions can be made in any order: either all orders fail alike, or all
succeed with the same manifest up to the order of keys within exports, and with the same reports. -/
theorem confluent_of_perm (hcs : cs.Pairwise Alongside) (hperm : cs.Perm cs') (m : Value)
    (log : Log) : Confluent m log cs cs' (editAll cs ⟨m, log⟩) (editAll cs' ⟨m, log⟩) := by
  cases cs with
  | nil =>
    obtain rfl := hperm.nil_eq
    exact .updated (.refl m) ⟨⟨fun _ ↦ [], rfl, rfl, by simp⟩, rfl, by simp⟩
  | cons c cs =>
    cases cs' with
    | nil => exact absurd hperm.length_eq (by simp)
    | cons c' cs' =>
      obtain hlacks | hother | ⟨exports, hexports⟩ := exports_cases m
      · rw [editAll_of_error (update_of_lacks c hlacks),
          editAll_of_error (update_of_lacks c' hlacks)]
        exact .missingExports _ _
      · rw [editAll_of_error (update_of_other c hother),
          editAll_of_error (update_of_other c' hother)]
        exact .unsupportedExports _ _
      · cases m with
        | object entries => exact confluent_object hcs hperm hexports log
        | _ => cases hexports

end

/-! ### A manifest under three conditions -/

/-- One configuration with several conditions. -/
def withConditions (c : Config) (conditions : List String) : List Config :=
  conditions.map fun condition ↦ { c with condition := condition }

theorem pairwise_withConditions (c : Config) {conditions : List String}
    (hconditions : conditions.Nodup) : (withConditions c conditions).Pairwise Alongside :=
  List.pairwise_map.mpr (hconditions.imp fun hne ↦ ⟨rfl, rfl, hne.symm⟩)

def mixedSides : Entries :=
  [("exports", .object mixedExports), ("sideEffects", .array [.string "./d/a.x"])]

/-- One of the exports has the condition `k` already, and none can gain `default`. -/
theorem confluent_mixedSides : ∃ steps steps' s s',
    editAll (withConditions mixedConfig ["k", "l", "default"]) ⟨.object mixedSides, []⟩ =
        .ok steps s ∧
      editAll (withConditions mixedConfig ["default", "l", "k"]) ⟨.object mixedSides, []⟩ =
        .ok steps' s' ∧
      Reordered s.manifest s'.manifest ∧
      SameReports (.object mixedSides) (withConditions mixedConfig ["k", "l", "default"])
        (withConditions mixedConfig ["default", "l", "k"]) steps steps' ∧
      steps = [⟨[⟨".", "./d/a.x.linked.x"⟩], ["./d/a.x.linked.x"]⟩,
        ⟨[⟨".", "./d/a.x.linked.x"⟩, ⟨"./b", "./d/b.x.linked.x"⟩], []⟩, ⟨[], []⟩] := by
  have hcs : (withConditions mixedConfig ["k", "l", "default"]).Pairwise Alongside :=
    pairwise_withConditions mixedConfig (by decide)
  have hperm : (withConditions mixedConfig ["k", "l", "default"]).Perm
      (withConditions mixedConfig ["default", "l", "k"]) :=
    (List.reverse_perm ["default", "l", "k"]).map _
  have hget : mixedSides.get? "exports" = some (.object mixedExports) := rfl
  obtain ⟨log, hrun⟩ := editAll_cons hcs hget []
  have hconfluent := confluent_of_perm hcs hperm (.object mixedSides) []
  generalize hleft : editAll (withConditions mixedConfig ["k", "l", "default"]) _ = left
    at hconfluent
  generalize editAll (withConditions mixedConfig ["default", "l", "k"]) _ = right at hconfluent
  have hok := hrun.symm.trans hleft
  cases hconfluent with
  | missingExports => cases hok
  | unsupportedExports => cases hok
  | updated hsame hreports =>
    refine ⟨_, _, _, _, rfl, rfl, hsame, hreports, ?_⟩
    rw [← (EStateM.Result.ok.inj hok).1]
    decide +kernel

end BundleLink.Manifest
