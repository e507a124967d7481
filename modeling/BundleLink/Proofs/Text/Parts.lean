import BundleLink.Text.Basic
import Mathlib.Data.List.Basic

/-!
Cutting texts at a separator. There is always a part, no part holds a separator, and a text is cut
where the texts it is put together from are: what follows changes only the last part
(`partsBetween_append`), and a separator ends it (`partsBetween_append_separator`).
-/

set_option autoImplicit false

namespace BundleLink.Text

variable {α : Type} [DecidableEq α] {separator : α}

theorem partsBetween_ne_nil (as : List α) : partsBetween separator as ≠ [] := by
  cases as with
  | nil => simp [partsBetween]
  | cons a as =>
    rw [partsBetween]
    split_ifs
    · simp
    · cases partsBetween separator as <;> simp

theorem partsBetween_cons_of_ne {a : α} (ha : a ≠ separator) {as part : List α}
    {parts : List (List α)} (hparts : partsBetween separator as = part :: parts) :
    partsBetween separator (a :: as) = (a :: part) :: parts := by
  rw [partsBetween, if_neg ha, hparts]

theorem separator_notMem_of_mem_partsBetween {as part : List α}
    (hpart : part ∈ partsBetween separator as) : separator ∉ part := by
  induction as generalizing part with
  | nil => simp_all [partsBetween]
  | cons a as ih =>
    by_cases ha : a = separator
    · rw [partsBetween, if_pos ha] at hpart
      rcases List.mem_cons.mp hpart with rfl | hpart
      · exact List.not_mem_nil
      · exact ih hpart
    · cases hparts : partsBetween separator as with
      | nil => exact absurd hparts (partsBetween_ne_nil as)
      | cons first rest =>
        rw [partsBetween_cons_of_ne ha hparts] at hpart
        rcases List.mem_cons.mp hpart with rfl | hpart
        · rw [List.mem_cons, not_or]
          exact ⟨Ne.symm ha, ih (hparts ▸ List.mem_cons_self)⟩
        · exact ih (hparts ▸ List.mem_cons_of_mem _ hpart)

theorem mem_of_mem_partsBetween {as part : List α} (hpart : part ∈ partsBetween separator as) {a : α}
    (ha : a ∈ part) : a ∈ as := by
  induction as generalizing part with
  | nil =>
    obtain rfl := List.mem_singleton.mp hpart
    exact absurd ha List.not_mem_nil
  | cons b as ih =>
    by_cases hb : b = separator
    · rw [partsBetween, if_pos hb] at hpart
      rcases List.mem_cons.mp hpart with rfl | hpart
      · exact absurd ha List.not_mem_nil
      · exact List.mem_cons_of_mem b (ih hpart ha)
    · cases hparts : partsBetween separator as with
      | nil => exact absurd hparts (partsBetween_ne_nil as)
      | cons first rest =>
        rw [partsBetween_cons_of_ne hb hparts] at hpart
        rw [hparts] at ih
        rcases List.mem_cons.mp hpart with rfl | hpart
        · rcases List.mem_cons.mp ha with rfl | ha
          · exact List.mem_cons_self
          · exact List.mem_cons_of_mem b (ih List.mem_cons_self ha)
        · exact List.mem_cons_of_mem b (ih (List.mem_cons_of_mem _ hpart) ha)

theorem partsBetween_of_notMem {as : List α} (has : separator ∉ as) :
    partsBetween separator as = [as] := by
  induction as with
  | nil => rfl
  | cons a as ih =>
    rw [List.mem_cons, not_or] at has
    exact partsBetween_cons_of_ne (Ne.symm has.1) (ih has.2)

/-- A text without separators lengthens the first part of what follows it. -/
theorem partsBetween_append_left {front as part : List α} {parts : List (List α)}
    (hfront : separator ∉ front) (hparts : partsBetween separator as = part :: parts) :
    partsBetween separator (front ++ as) = (front ++ part) :: parts := by
  induction front with
  | nil => exact hparts
  | cons a front ih =>
    rw [List.mem_cons, not_or] at hfront
    exact partsBetween_cons_of_ne (Ne.symm hfront.1) (ih hfront.2)

/-- What follows a text changes only its last part. -/
theorem partsBetween_append {as : List α} {front : List (List α)} {last : List α}
    (hparts : partsBetween separator as = front ++ [last]) (bs : List α) :
    partsBetween separator (as ++ bs) = front ++ partsBetween separator (last ++ bs) := by
  induction as generalizing front last with
  | nil =>
    rw [partsBetween, List.singleton_eq_append_iff] at hparts
    rcases hparts with ⟨rfl, hlast⟩ | ⟨-, hlast⟩
    · rw [← List.singleton_inj.mp hlast]
      rfl
    · cases hlast
  | cons a as ih =>
    rw [List.cons_append]
    by_cases ha : a = separator
    · rw [partsBetween, if_pos ha] at hparts
      rw [partsBetween, if_pos ha]
      cases front with
      | nil =>
        rw [List.nil_append, List.cons.injEq] at hparts
        exact absurd hparts.2 (partsBetween_ne_nil as)
      | cons first rest =>
        obtain ⟨rfl, hrest⟩ := List.cons.inj hparts
        rw [ih hrest, List.cons_append]
    · cases has : partsBetween separator as with
      | nil => exact absurd has (partsBetween_ne_nil as)
      | cons part parts =>
        rw [partsBetween_cons_of_ne ha has] at hparts
        cases front with
        | nil =>
          obtain ⟨rfl, rfl⟩ := List.cons.inj hparts
          have hrest := ih (has.trans (List.nil_append [part]).symm)
          rw [List.nil_append, partsBetween, hrest, List.nil_append, List.cons_append, partsBetween]
        | cons first rest =>
          obtain ⟨rfl, rfl⟩ := List.cons.inj hparts
          exact partsBetween_cons_of_ne ha (ih (has.trans (List.cons_append).symm))

theorem exists_partsBetween (separator : α) (as : List α) : ∃ front last,
    partsBetween separator as = front ++ [last] ∧ separator ∉ last := by
  rcases List.eq_nil_or_concat (partsBetween separator as) with hnil | ⟨front, last, heq⟩
  · exact absurd hnil (partsBetween_ne_nil as)
  · rw [List.concat_eq_append] at heq
    have hlast : last ∈ partsBetween separator as := by
      rw [heq]
      simp
    exact ⟨front, last, heq, separator_notMem_of_mem_partsBetween hlast⟩

/-- A separator ends the last part and begins a new one. -/
theorem partsBetween_append_separator (as bs : List α) :
    partsBetween separator (as ++ separator :: bs) =
      partsBetween separator as ++ partsBetween separator bs := by
  obtain ⟨front, last, heq, hlast⟩ := exists_partsBetween separator as
  have hpart : partsBetween separator (separator :: bs) = [] :: partsBetween separator bs := by
    rw [partsBetween, if_pos rfl]
  rw [partsBetween_append heq, partsBetween_append_left hlast hpart, heq, List.append_nil,
    List.append_assoc, List.singleton_append]

/-- Only a text that ends in a separator, or is empty, has an empty last part. -/
theorem getLast?_of_partsBetween {as : List α} {front : List (List α)}
    (hparts : partsBetween separator as = front ++ [[]]) :
    as = [] ∨ as.getLast? = some separator := by
  rcases List.eq_nil_or_concat as with rfl | ⟨bs, b, rfl⟩
  · exact Or.inl rfl
  · rw [List.concat_eq_append] at hparts ⊢
    refine Or.inr ?_
    by_contra hne
    obtain ⟨front', last, heq, hlast⟩ := exists_partsBetween separator bs
    have hb : separator ∉ last ++ [b] := by
      have hne' : separator ≠ b := by
        rintro rfl
        simp at hne
      simp [hlast, hne']
    rw [partsBetween_append heq, partsBetween_of_notMem hb] at hparts
    have hnil := List.singleton_inj.mp (List.append_inj' hparts rfl).2
    simp at hnil

end BundleLink.Text
