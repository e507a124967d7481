import BundleLink.Path.Basic
import Mathlib.Data.List.Basic

/-!
The order of paths is a total one on what paths name: it is transitive and total (`le_trans`,
`le_total`), and only paths with the same components tie (`components_eq_of_le_of_le`). Sorting
hence does not depend on the order of the input where no two of its paths tie (`sort_eq_of_perm`).
-/

set_option autoImplicit false

namespace BundleLink.Path

open BundleLink.Text

theorem compareBytes_eq : compareBytes = List.compareLex (compare : UInt8 → UInt8 → Ordering) := by
  funext as bs
  induction as generalizing bs with
  | nil => cases bs <;> rfl
  | cons a as ih =>
    cases bs with
    | nil => rfl
    | cons b bs =>
      have hcompare : compare a b = compareOfLessAndEq a b := rfl
      rw [compareBytes, List.compareLex_cons_cons, ih, hcompare, compareOfLessAndEq]
      rcases Std.lt_trichotomy a b with hlt | rfl | hgt
      · simp [hlt]
      · simp
      · have hne : a ≠ b := fun heq ↦ UInt8.lt_irrefl _ (heq ▸ hgt)
        simp [hgt, hne, UInt8.lt_asymm hgt]

theorem compareBytes_ne_gt_iff (as bs : Bytes) :
    compareBytes as bs ≠ .gt ↔
      (List.compareLex (compare : UInt8 → UInt8 → Ordering) as bs).isLE := by
  rw [compareBytes_eq]
  cases List.compareLex (compare : UInt8 → UInt8 → Ordering) as bs <;> simp

theorem bytes_le_total (as bs : Bytes) :
    decide (compareBytes as bs ≠ .gt) || decide (compareBytes bs as ≠ .gt) := by
  have hswap : List.compareLex (compare : UInt8 → UInt8 → Ordering) bs as = _ :=
    Std.OrientedCmp.eq_swap
  rw [Bool.or_eq_true, decide_eq_true_iff, decide_eq_true_iff, compareBytes_ne_gt_iff,
    compareBytes_ne_gt_iff, hswap]
  cases List.compareLex (compare : UInt8 → UInt8 → Ordering) as bs <;> simp

theorem bytes_le_trans (as bs cs : Bytes) (hab : decide (compareBytes as bs ≠ .gt) = true)
    (hbc : decide (compareBytes bs cs ≠ .gt) = true) :
    decide (compareBytes as cs ≠ .gt) = true := by
  rw [decide_eq_true_iff, compareBytes_ne_gt_iff] at *
  exact Std.TransCmp.isLE_trans hab hbc

theorem eq_of_bytes_le {as bs : Bytes} (hab : decide (compareBytes as bs ≠ .gt) = true)
    (hba : decide (compareBytes bs as ≠ .gt) = true) : as = bs := by
  rw [decide_eq_true_iff, compareBytes_ne_gt_iff] at *
  exact Std.LawfulEqCmp.eq_of_compare (Std.OrientedCmp.isLE_antisymm hab hba)

/-- The bytes by which components of one kind are told apart. -/
def Component.text : Component → Bytes
  | .name bytes => bytes
  | _ => []

theorem Component.compare_eq : Component.compare =
    compareLex (compareOn Component.rank) (compareOn Component.text) := by
  funext c d
  cases c <;> cases d <;> try rfl
  simp only [Component.compare, compareBytes_eq]
  rfl

instance : Std.TransCmp Component.compare :=
  Component.compare_eq ▸ inferInstance

instance : Std.LawfulEqCmp Component.compare where
  eq_of_compare {c d} heq := by
    cases c with
    | name bs =>
      cases d with
      | name bs' =>
        rw [Component.compare, compareBytes_eq] at heq
        rw [Std.LawfulEqCmp.eq_of_compare heq]
      | _ => simp [Component.compare, Component.rank] at heq
    | _ => cases d <;> simp [Component.compare, Component.rank] at heq ⊢

theorem compareComponents_eq : compareComponents = List.compareLex Component.compare := by
  funext cs ds
  induction cs generalizing ds with
  | nil => cases ds <;> rfl
  | cons c cs ih =>
    cases ds with
    | nil => rfl
    | cons d ds =>
      rw [compareComponents, List.compareLex_cons_cons, ih]

/-! ### Sorting -/

theorem le_iff (p q : Path) :
    p.le q ↔ (List.compareLex Component.compare p.components q.components).isLE := by
  rw [le, compareComponents_eq]
  cases List.compareLex Component.compare p.components q.components <;> simp

theorem le_total (p q : Path) : p.le q || q.le p := by
  have hswap : List.compareLex Component.compare q.components p.components = _ :=
    Std.OrientedCmp.eq_swap
  rw [Bool.or_eq_true, le_iff, le_iff, hswap]
  cases List.compareLex Component.compare p.components q.components <;> simp

theorem le_trans (p q r : Path) (hpq : p.le q) (hqr : q.le r) : p.le r := by
  rw [le_iff] at *
  exact Std.TransCmp.isLE_trans hpq hqr

/-- Only paths with the same components tie. -/
theorem components_eq_of_le_of_le {p q : Path} (hpq : p.le q) (hqp : q.le p) :
    p.components = q.components := by
  rw [le_iff] at *
  exact Std.LawfulEqCmp.eq_of_compare (Std.OrientedCmp.isLE_antisymm hpq hqp)

/-- Paths without ties are sorted in one way, whatever order they come in. -/
theorem sort_eq_of_perm {ps qs : List Path} (hperm : ps.Perm qs)
    (hties : ∀ p ∈ ps, ∀ q ∈ ps, p.components = q.components → p = q) : sort ps = sort qs := by
  have hps := List.mergeSort_perm ps le
  have hqs := List.mergeSort_perm qs le
  refine List.Perm.eq_of_pairwise (fun p q hp hq hpq hqp ↦ ?_)
    (List.pairwise_mergeSort le_trans le_total ps) (List.pairwise_mergeSort le_trans le_total qs)
    (hps.trans (hperm.trans hqs.symm))
  exact hties p (hps.mem_iff.mp hp) q (hperm.mem_iff.mpr (hqs.mem_iff.mp hq))
    (components_eq_of_le_of_le hpq hqp)

end BundleLink.Path
