import BundleLink.Decimal.Binary64

/-!
The fewest decimal digits that read back as a given binary64 number. A decimal reads back when it
lies between the halfway points to the two neighbours, ends included for an even significand; of
two decimals of the least length the nearer one is taken.
-/

set_option autoImplicit false

namespace BundleLink.Decimal

/-- A decimal `digits · 10 ^ exp`. -/
structure Digits where
  digits : Nat
  exp : Int
deriving DecidableEq, Repr, Inhabited

/-- The exponent of the leading decimal digit of a positive ratio. -/
def leadingExponent (num den : Nat) : Int :=
  if den ≤ num then ((Nat.toDigits 10 (num / den)).length : Int) - 1
  else
    let rec go (fuel : Nat) (n : Nat) (e : Int) : Int :=
      match fuel with
      | 0 => e
      | fuel + 1 => if den ≤ n then e else go fuel (n * 10) (e - 1)
    go 400 num 0

/-- Whether `d · 10 ^ e` reads back as `x`; all quantities are compared after scaling by four. -/
def readsBack (x : Binary64) (d : Nat) (e : Int) : Bool :=
  let below := if x.mant = Nat.pow 2 52 ∧ x.exp ≠ -1074 then 1 else 2
  let (ln, ld) := (Binary64.mk (4 * x.mant - below) (x.exp - 2)).ratio
  let (hn, hd) := (Binary64.mk (4 * x.mant + 2) (x.exp - 2)).ratio
  let (dn, dd) := scaleTen d 1 (-e)
  let low := ln * dd
  let mid := dn * ld
  let mid' := dn * hd
  let high := hn * dd
  if x.mant % 2 = 0 then low ≤ mid && mid' ≤ high else low < mid && mid' < high

/-- Of the two neighbours of `x` among the multiples of `10 ^ e`, the nearest that reads back. -/
def onGrid? (x : Binary64) (e : Int) : Option Nat :=
  let (n, d) := x.ratio
  let (n, d) := scaleTen n d e
  let lo := n / d
  let twice := 2 * (n % d)
  let lowFits := readsBack x lo e
  let highFits := readsBack x (lo + 1) e
  if lowFits && highFits then
    some (if twice < d ∨ (twice = d ∧ lo % 2 = 0) then lo else lo + 1)
  else if lowFits then some lo
  else if highFits then some (lo + 1)
  else none

/-- Removes trailing zeros; the fuel bounds the number of digits. -/
def stripZeros : Nat → Nat → Int → Digits
  | 0, d, e => ⟨d, e⟩
  | fuel + 1, d, e => if d ≠ 0 ∧ d % 10 = 0 then stripZeros fuel (d / 10) (e + 1) else ⟨d, e⟩

def shortest (x : Binary64) : Digits :=
  if x.mant = 0 then ⟨0, 0⟩
  else
    let (n, d) := x.ratio
    let lead := leadingExponent n d
    let rec go (fuel : Nat) (p : Int) : Digits :=
      match fuel with
      | 0 => ⟨0, 0⟩
      | fuel + 1 =>
        match onGrid? x (lead - p) with
        | some k => stripZeros 20 k (lead - p)
        | none => go fuel (p + 1)
    go 18 0

private def zeros (n : Nat) : String :=
  String.ofList (List.replicate n '0')

/-- The digits with a point after the first `point` of them; zeros fill what is missing on either
side. -/
def positional (text : String) (point : Int) (tail : String) : String :=
  let len : Int := text.length
  if point ≤ 0 then "0." ++ zeros (-point).toNat ++ text
  else if len ≤ point then text ++ zeros (point - len).toNat ++ tail
  else String.ofList (text.toList.take point.toNat) ++ "." ++
    String.ofList (text.toList.drop point.toNat)

/-- A number of a data file: it always shows a point or an exponent, positional while the leading
digit stands at 10⁻⁵ to 10¹⁵. -/
def dataText (x : Binary64) : String :=
  if x.mant = 0 then "0.0"
  else
    let s := shortest x
    let text := toString s.digits
    let lead : Int := s.exp + text.length - 1
    if -5 ≤ lead ∧ lead < 16 then positional text (lead + 1) ".0"
    else
      let mantissa :=
        match text.toList with
        | c :: r@(_ :: _) => String.ofList (c :: '.' :: r)
        | _ => text
      mantissa ++ "e" ++ (if lead < 0 then "-" else "+") ++ toString lead.natAbs

/-- A number in running text: digits only, without exponent or superfluous point. -/
def plainText (x : Binary64) : String :=
  if x.mant = 0 then "0"
  else
    let s := shortest x
    let text := toString s.digits
    positional text (s.exp + text.length) ""

end BundleLink.Decimal
