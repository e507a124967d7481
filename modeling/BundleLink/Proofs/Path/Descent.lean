import BundleLink.Proofs.FileSystem.Naming

/-!
Names that stay below where they begin. How deep names lead is counted (`depthAfter?`): a name leads
down, a step up leads back, and none may lead out. Names of which this can be told lead from any
address to one that deep below it (`exists_foldl_step`), so it does not depend on what stands there.
-/

set_option autoImplicit false

namespace BundleLink.FileSystem

open BundleLink.Text

/-- How deep names lead from a depth, if they never lead out of where they began. -/
def depthAfter? : Nat → List Bytes → Option Nat
  | depth, [] => some depth
  | depth, name :: names =>
    if name = [Path.dot] then depthAfter? depth names
    else if name = [Path.dot, Path.dot] then
      if depth = 0 then none else depthAfter? (depth - 1) names
    else depthAfter? (depth + 1) names

/-- Strictly below an address. -/
def Below (around loc : Address) : Prop :=
  ∃ names, names ≠ [] ∧ loc = around ++ names

theorem Below.isPrefix {around loc : Address} (hloc : Below around loc) : around <+: loc := by
  obtain ⟨names, -, rfl⟩ := hloc
  exact List.prefix_append around names

theorem Below.append {around loc : Address} (hloc : Below around loc) (names : List Bytes) :
    Below around (loc ++ names) := by
  obtain ⟨first, hfirst, rfl⟩ := hloc
  exact ⟨first ++ names, List.append_ne_nil_of_left_ne_nil hfirst names, List.append_assoc ..⟩

theorem Below.trans {around between loc : Address} (hbetween : Below around between)
    (hloc : Below between loc) : Below around loc := by
  obtain ⟨names, -, rfl⟩ := hloc
  exact hbetween.append names

theorem depthAfter?_append (depth : Nat) (names names' : List Bytes) :
    depthAfter? depth (names ++ names') =
      (depthAfter? depth names).bind fun depth' ↦ depthAfter? depth' names' := by
  induction names generalizing depth with
  | nil => rfl
  | cons name names ih =>
    rw [List.cons_append, depthAfter?, depthAfter?]
    split_ifs
    · exact ih depth
    · rfl
    · exact ih (depth - 1)
    · exact ih (depth + 1)

theorem depthAfter?_cons_name {name : Bytes} (hname : IsName name) (depth : Nat)
    (names : List Bytes) : depthAfter? depth (name :: names) = depthAfter? (depth + 1) names := by
  rw [depthAfter?, if_neg hname.2.2.1, if_neg hname.2.2.2]

/-- Names that end in one of an entry lead down. -/
theorem depthAfter?_concat_ne_zero {name : Bytes} (hname : IsName name) (depth : Nat)
    (names : List Bytes) : depthAfter? depth (names ++ [name]) ≠ some 0 := by
  rw [depthAfter?_append]
  cases depthAfter? depth names with
  | none => simp
  | some depth' =>
    rw [Option.bind_some, depthAfter?_cons_name hname, depthAfter?]
    simp

/-- Names lead as deep below any address. The induction is on the names; `stack` are those that lead
from the address to where they begin. -/
theorem exists_foldl_step (loc : Address) (stack : List Bytes) {names : List Bytes} {depth : Nat}
    (hdepth : depthAfter? stack.length names = some depth) :
    ∃ rest, rest.length = depth ∧ names.foldl step (loc ++ stack) = loc ++ rest := by
  induction names generalizing stack with
  | nil => exact ⟨stack, Option.some.inj hdepth, rfl⟩
  | cons name names ih =>
    rw [depthAfter?] at hdepth
    rw [List.foldl_cons, step]
    split_ifs at hdepth ⊢ with hdot hup hout
    · exact ih _ hdepth
    · rcases List.eq_nil_or_concat stack with rfl | ⟨front, last, rfl⟩
      · exact absurd rfl hout
      · rw [List.concat_eq_append, List.length_append] at hdepth
        rw [List.concat_eq_append, ← List.append_assoc, List.dropLast_concat]
        exact ih _ hdepth
    · rw [List.append_assoc]
      exact ih _ (by rwa [List.length_append])

/-- Names that never lead out and end in one of an entry lead strictly below. -/
theorem below_foldl_step (loc : Address) {names : List Bytes} (hstay : depthAfter? 0 names ≠ none)
    {front : List Bytes} {name : Bytes} (hnames : names = front ++ [name]) (hname : IsName name) :
    Below loc (names.foldl step loc) := by
  obtain ⟨depth, hdepth⟩ := Option.ne_none_iff_exists'.mp hstay
  obtain ⟨rest, hlength, heq⟩ := exists_foldl_step loc [] hdepth
  rw [List.append_nil] at heq
  refine ⟨rest, ?_, heq⟩
  rintro rfl
  rw [hnames, ← hlength] at hdepth
  exact depthAfter?_concat_ne_zero hname 0 front hdepth

end BundleLink.FileSystem
