import Mathlib.Data.List.Nodup

/-!
Steps that may fail and steps that come to lists. What has succeeded has succeeded in each of its
steps (`bind_eq_ok`, `mapM_cons_eq_some`), and what comes to nothing adds nothing
(`flatMap_filter`, `flatMap_ite_eq`).
-/

set_option autoImplicit false

namespace BundleLink

/-! ### Steps that may fail -/

section

variable {ε α β : Type} {x : Except ε α}

theorem bind_eq_ok {f : α → Except ε β} {b : β} :
    (x >>= f) = .ok b ↔ ∃ a, x = .ok a ∧ f a = .ok b := by
  cases x with
  | ok a =>
    constructor
    · exact fun h ↦ ⟨a, rfl, h⟩
    · rintro ⟨_, ⟨⟩, h⟩
      exact h
  | error e =>
    constructor
    · intro h
      cases h
    · rintro ⟨_, ⟨⟩, _⟩

theorem bind_eq_error {f : α → Except ε β} {e : ε} :
    (x >>= f) = .error e ↔ x = .error e ∨ ∃ a, x = .ok a ∧ f a = .error e := by
  cases x with
  | ok a =>
    constructor
    · exact fun h ↦ Or.inr ⟨a, rfl, h⟩
    · rintro (⟨⟨⟩⟩ | ⟨_, ⟨⟩, h⟩)
      exact h
  | error e' =>
    constructor
    · intro h
      cases h
      exact Or.inl rfl
    · rintro (⟨⟨⟩⟩ | ⟨_, ⟨⟩, _⟩)
      rfl

theorem toOption_eq_some_iff {a : α} : x.toOption = some a ↔ x = .ok a := by
  cases x <;> simp [Except.toOption]

theorem map_eq_ok {f : α → β} {b : β} : x.map f = .ok b ↔ ∃ a, x = .ok a ∧ f a = b := by
  cases x <;> simp [Except.map]

end

theorem mapM_cons_eq_some {α β : Type} {f : α → Option β} {a : α} {as : List α} {bs : List β} :
    (a :: as).mapM f = some bs ↔
      ∃ b bs', f a = some b ∧ as.mapM f = some bs' ∧ bs = b :: bs' := by
  simp only [List.mapM_cons, Option.bind_eq_bind, Option.bind_eq_some_iff, Option.pure_def,
    Option.some.injEq]
  constructor
  · rintro ⟨b, hb, bs', hbs', rfl⟩
    exact ⟨b, bs', hb, hbs', rfl⟩
  · rintro ⟨b, bs', hb, hbs', rfl⟩
    exact ⟨b, hb, bs', hbs', rfl⟩

theorem eq_map_some_of_mapM {α : Type} {l : List (Option α)} {as : List α}
    (hall : l.mapM id = some as) : l = as.map some := by
  induction l generalizing as with
  | nil =>
    obtain rfl : [] = as := by simpa using hall
    rfl
  | cons a l ih =>
    rw [List.mapM_cons] at hall
    cases a with
    | none => cases hall
    | some a =>
      cases hl : l.mapM id with
      | none => simp [hl] at hall
      | some as' =>
        obtain rfl : a :: as' = as := by simpa [hl] using hall
        rw [ih hl, List.map_cons]

/-! ### Steps that come to lists -/

theorem flatMap_filter {α β : Type} {l : List α} (keep : α → Bool) {f : α → List β}
    (hf : ∀ a ∈ l, keep a = false → f a = []) : (l.filter keep).flatMap f = l.flatMap f := by
  induction l with
  | nil => rfl
  | cons a l ih =>
    have hrest := ih fun b hb ↦ hf b (List.mem_cons_of_mem a hb)
    rw [List.filter_cons, List.flatMap_cons, ← hrest]
    split_ifs with ha
    · rw [List.flatMap_cons]
    · rw [hf a List.mem_cons_self (by simpa using ha), List.nil_append]

theorem flatMap_ite_eq {α β : Type} [DecidableEq α] {l : List α} (hl : l.Nodup) (a : α)
    [Decidable (a ∈ l)] (f : α → List β) :
    (l.flatMap fun x ↦ if x = a then f x else []) = if a ∈ l then f a else [] := by
  by_cases ha : a ∈ l
  · obtain ⟨front, rear, rfl⟩ := List.append_of_mem ha
    rw [List.nodup_middle, List.nodup_cons, List.mem_append, not_or] at hl
    have hother (xs : List α) (hxs : a ∉ xs) :
        (xs.flatMap fun x ↦ if x = a then f x else []) = [] :=
      List.flatMap_eq_nil_iff.mpr fun x hx ↦ if_neg (ne_of_mem_of_not_mem hx hxs)
    rw [if_pos ha, List.flatMap_append, List.flatMap_cons, if_pos rfl, hother front hl.1.1,
      hother rear hl.1.2, List.nil_append, List.append_nil]
  · rw [if_neg ha, List.flatMap_eq_nil_iff]
    exact fun x hx ↦ if_neg (ne_of_mem_of_not_mem hx ha)

end BundleLink
