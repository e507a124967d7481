/-!
How alike two words are, as Jaro's measure: the share of characters that both have at nearby places,
less half of those that stand in another order.
-/

set_option autoImplicit false

namespace BundleLink.Text

/-- The first position from `lo` to before `hi` that is free and holds `c`. -/
def freeMatch? (c : Char) (lo hi : Nat) (word : List (Char × Bool)) : Option Nat :=
  (List.range hi).find? fun j ↦ lo ≤ j && word[j]? = some (c, false)

/-- The characters of `word` that find a partner in `other`, each in its range, and `other` with the
partners marked. -/
def pairOff (range : Nat) : Nat → List Char → List (Char × Bool) → List Char × List (Char × Bool)
  | _, [], other => ([], other)
  | i, c :: cs, other =>
    match freeMatch? c (i - range) (min other.length (i + range + 1)) other with
    | some j =>
      let (paired, other) := pairOff range (i + 1) cs (other.set j (c, true))
      (c :: paired, other)
    | none => pairOff range (i + 1) cs other

/-- Between zero for words that share nothing and one for equal words. -/
def similarity (a b : String) : Float :=
  let (xs, ys) := (a.toList, b.toList)
  if xs.isEmpty || ys.isEmpty then if xs.isEmpty && ys.isEmpty then 1.0 else 0.0
  else
    let range := max xs.length ys.length / 2 - 1
    let (paired, marked) := pairOff range 0 xs (ys.map (·, false))
    let partners := (marked.filter (·.2)).map (·.1)
    let swapped := ((paired.zip partners).filter fun p ↦ p.1 ≠ p.2).length / 2
    let m := paired.length
    if m = 0 then 0.0
    else
      (m.toFloat / xs.length.toFloat + m.toFloat / ys.length.toFloat +
        (m - swapped).toFloat / m.toFloat) / 3.0

end BundleLink.Text
