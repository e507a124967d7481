import BundleLink.Json.Value
import Mathlib.Data.List.Forall2
import Mathlib.Data.List.Induction
import Mathlib.Data.List.Nodup

/-!
The entries of an object as a map: what is set is found (`get?_put`), setting what is there already
changes nothing (`put_eq_self`), and setting adds a key at most at the end (`keys_put`). Setting a
key that is there leaves every other entry as it is and where it is (`SameBut.put`). In entries that
were made from a list every key stands once (`nodup_ofList`), where it stood first (`keys_ofList`),
with the value that it had last (`get?_ofList`).
-/

set_option autoImplicit false

namespace BundleLink.Json.Entries

theorem get?_put (es : Entries) (key key' : String) (value : Value) :
    (es.put key value).get? key' = if key' = key then some value else es.get? key' := by
  induction es with
  | nil =>
    by_cases h : key' = key
    · simp [put, get?, h]
    · simp [put, get?, h, Ne.symm h]
  | cons e es ih =>
    by_cases he : e.1 = key
    · by_cases h : key' = key
      · simp [put, get?, he, h]
      · simp [put, get?, he, h, Ne.symm h]
    · by_cases h : e.1 = key'
      · have hne : key' ≠ key := h ▸ he
        simp [put, get?, h, hne]
      · simpa [put, get?, he, h] using ih

/-- Setting what is there already changes nothing. -/
theorem put_eq_self {es : Entries} {key : String} {value : Value}
    (hget : es.get? key = some value) : es.put key value = es := by
  induction es with
  | nil => simp [get?] at hget
  | cons e es ih =>
    by_cases he : e.1 = key
    · have hvalue : e.2 = value := by simpa [get?, he] using hget
      rw [put, if_pos he, ← hvalue, ← he]
    · have hrest : Entries.get? es key = some value := by simpa [get?, he] using hget
      simp [put, he, ih hrest]

theorem keys_put (es : Entries) (key : String) (value : Value) :
    (es.put key value).map Prod.fst =
      if key ∈ es.map Prod.fst then es.map Prod.fst else es.map Prod.fst ++ [key] := by
  induction es with
  | nil => simp [put]
  | cons e es ih =>
    by_cases he : e.1 = key
    · simp [put, he]
    · by_cases hmem : key ∈ es.map Prod.fst
      · simp only [put, he, if_false, List.map_cons, ih, hmem, if_true, List.mem_cons, or_true]
      · have hne : key ≠ e.1 := Ne.symm he
        simp only [put, he, if_false, List.map_cons, ih, hmem, List.mem_cons, hne, or_self,
          List.cons_append]

/-- It does not matter which of two keys is set first, if one of them is there. -/
theorem put_comm {es : Entries} {key key' : String} (hmem : key ∈ es.map Prod.fst)
    (hne : key ≠ key') (value value' : Value) :
    (es.put key value).put key' value' = (es.put key' value').put key value := by
  induction es with
  | nil => exact absurd hmem List.not_mem_nil
  | cons e es ih =>
    by_cases he : e.1 = key
    · simp [put, he, hne]
    · have hrest : key ∈ es.map Prod.fst := (List.mem_cons.mp hmem).resolve_left (Ne.symm he)
      by_cases he' : e.1 = key'
      · simp [put, he', Ne.symm hne]
      · simp [put, he, he', ih hrest]

theorem contains_iff {es : Entries} {key : String} :
    es.contains key ↔ key ∈ es.map Prod.fst := by
  simp [contains]

theorem mem_of_get? {es : Entries} {key : String} {value : Value}
    (hget : es.get? key = some value) : (key, value) ∈ es := by
  rw [get?, Option.map_eq_some_iff] at hget
  obtain ⟨e, hfind, rfl⟩ := hget
  have hkey : e.1 = key := by simpa using List.find?_some hfind
  exact hkey ▸ List.mem_of_find?_eq_some hfind

/-! ### Entries that stay -/

/-- The same keys in the same order, with the same values but at some of the keys. -/
def SameBut (keys : List String) : Entries → Entries → Prop :=
  List.Forall₂ fun e e' ↦ e'.1 = e.1 ∧ (e.1 ∉ keys → e'.2 = e.2)

theorem SameBut.refl (keys : List String) (es : Entries) : SameBut keys es es :=
  List.forall₂_same.mpr fun _ _ ↦ ⟨rfl, fun _ ↦ rfl⟩

/-- Setting one of the keys that are there touches no other. -/
theorem SameBut.put {keys : List String} {es es' : Entries} (hes : SameBut keys es es')
    {key : String} (hkey : key ∈ keys) (hmem : key ∈ es.map Prod.fst) (value : Value) :
    SameBut keys es (es'.put key value) := by
  induction hes with
  | nil => exact absurd hmem List.not_mem_nil
  | @cons e e' es es' he hes ih =>
    rw [Entries.put]
    split_ifs with hfirst
    · rw [he.1] at hfirst
      exact .cons ⟨hfirst.symm, fun hother ↦ absurd (hfirst ▸ hkey) hother⟩ hes
    · refine .cons he (ih ?_)
      rw [he.1] at hfirst
      exact (List.mem_cons.mp hmem).resolve_left (Ne.symm hfirst)

theorem SameBut.keys_eq {keys : List String} {es es' : Entries} (hes : SameBut keys es es') :
    es'.map Prod.fst = es.map Prod.fst := by
  induction hes with
  | nil => rfl
  | cons he _ ih => rw [List.map_cons, List.map_cons, he.1, ih]

theorem mem_keys_of_get? {es : Entries} {key : String} {value : Value}
    (hget : es.get? key = some value) : key ∈ es.map Prod.fst :=
  List.mem_map_of_mem (mem_of_get? hget)

/-! ### Keys -/

theorem nodup_put {es : Entries} (hes : (es.map Prod.fst).Nodup) (key : String) (value : Value) :
    ((es.put key value).map Prod.fst).Nodup := by
  rw [keys_put]
  split_ifs with hkey
  · exact hes
  · rw [List.nodup_append']
    exact ⟨hes, List.nodup_singleton key, by simpa using hkey⟩

theorem mem_of_mem_put {es : Entries} {key : String} {value : Value} {e : String × Value}
    (he : e ∈ es.put key value) : e = (key, value) ∨ e ∈ es := by
  induction es with
  | nil => exact Or.inl (List.mem_singleton.mp he)
  | cons first es ih =>
    rw [put] at he
    split_ifs at he
    · rcases List.mem_cons.mp he with rfl | he
      · exact Or.inl rfl
      · exact Or.inr (List.mem_cons_of_mem _ he)
    · rcases List.mem_cons.mp he with rfl | he
      · exact Or.inr List.mem_cons_self
      · exact (ih he).imp_right (List.mem_cons_of_mem _)

/-- A repeated key keeps its first place. -/
theorem keys_ofList (es : List (String × Value)) :
    (ofList es).map Prod.fst = (es.map Prod.fst).eraseDups := by
  induction es using List.reverseRecOn with
  | nil => rfl
  | append_singleton es e ih =>
    rw [ofList, List.foldl_concat, ← ofList, keys_put, ih, List.map_append, List.eraseDups_append]
    by_cases hkey : e.1 ∈ es.map Prod.fst
    · simp [hkey, List.removeAll]
    · simp [hkey, List.removeAll, List.eraseDups_cons]

/-- A repeated key takes its last value. -/
theorem get?_ofList (es : List (String × Value)) (key : String) :
    (ofList es).get? key = get? es.reverse key := by
  induction es using List.reverseRecOn with
  | nil => rfl
  | append_singleton es e ih =>
    rw [ofList, List.foldl_concat, ← ofList, get?_put, ih, List.reverse_concat]
    by_cases hkey : key = e.1
    · simp [get?, hkey]
    · simp [get?, hkey, Ne.symm hkey]

theorem nodup_ofList (es : List (String × Value)) : ((ofList es).map Prod.fst).Nodup := by
  rw [ofList]
  exact List.foldlRecOn (motive := fun acc : Entries ↦ (acc.map Prod.fst).Nodup) es _ List.nodup_nil
    fun acc hacc e _ ↦ nodup_put hacc e.1 e.2

theorem mem_of_mem_ofList {es : List (String × Value)} {e : String × Value}
    (he : e ∈ ofList es) : e ∈ es := by
  have hall : ∀ e ∈ ofList es, e ∈ es := by
    rw [ofList]
    refine List.foldlRecOn (motive := fun acc : Entries ↦ ∀ e ∈ acc, e ∈ es) es _
      (fun e he ↦ absurd he List.not_mem_nil) fun acc hacc first hfirst e he ↦ ?_
    rcases mem_of_mem_put he with rfl | he
    · exact hfirst
    · exact hacc e he
  exact hall e he

theorem put_of_notMem {es : Entries} {key : String} (hkey : key ∉ es.map Prod.fst)
    (value : Value) : es.put key value = es ++ [(key, value)] := by
  induction es with
  | nil => rfl
  | cons e es ih =>
    rw [List.map_cons, List.mem_cons, not_or] at hkey
    rw [put, if_neg (Ne.symm hkey.1), ih hkey.2, List.cons_append]

/-- Entries without repeated keys stay as they are. -/
theorem ofList_eq_self {es : List (String × Value)} (hes : (es.map Prod.fst).Nodup) :
    ofList es = es := by
  have hfold (acc es : Entries) (hnodup : ((acc ++ es).map Prod.fst).Nodup) :
      es.foldl (fun acc e ↦ acc.put e.1 e.2) acc = acc ++ es := by
    induction es generalizing acc with
    | nil => simp
    | cons e es ih =>
      have hkey : e.1 ∉ acc.map Prod.fst := by
        rw [List.map_append, List.map_cons, List.nodup_middle, List.nodup_cons,
          List.mem_append, not_or] at hnodup
        exact hnodup.1.1
      rw [List.foldl_cons, put_of_notMem hkey, ih _ (by simpa using hnodup)]
      simp
  exact hfold [] es (by simpa using hes)

end BundleLink.Json.Entries
