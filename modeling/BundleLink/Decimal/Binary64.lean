/-!
Nonnegative binary64 numbers as exact values `mant · 2 ^ exp`, and rounding of a ratio of natural
numbers to the nearest of them. Multiplication and division are the exact result, rounded.
-/

set_option autoImplicit false

namespace BundleLink.Decimal

/-- A finite nonnegative binary64 number. -/
structure Binary64 where
  mant : Nat
  exp : Int
deriving DecidableEq, Repr, Inhabited

/-- The quotient rounded to the nearest integer, a half to the even neighbour. -/
def roundHalfEven (num den : Nat) : Nat :=
  let q := num / den
  let twice := 2 * (num % den)
  if twice < den then q
  else if den < twice then q + 1
  else if q % 2 = 0 then q else q + 1

/-- `num / den / 2 ^ e` as a ratio. -/
def scaleTwo (num den : Nat) (e : Int) : Nat × Nat :=
  match e with
  | .ofNat k => (num, den * Nat.pow 2 k)
  | .negSucc k => (num * Nat.pow 2 (k + 1), den)

/-- `num / den / 10 ^ e` as a ratio. -/
def scaleTen (num den : Nat) (e : Int) : Nat × Nat :=
  match e with
  | .ofNat k => (num, den * Nat.pow 10 k)
  | .negSucc k => (num * Nat.pow 10 (k + 1), den)

namespace Binary64

def zero : Binary64 := ⟨0, 0⟩

/-- The value as a ratio. -/
def ratio (x : Binary64) : Nat × Nat :=
  match x.exp with
  | .ofNat k => (x.mant * Nat.pow 2 k, 1)
  | .negSucc k => (x.mant, Nat.pow 2 (k + 1))

/-- The nearest binary64 number, or nothing when that is beyond the largest finite one. -/
def ofRatio? (num den : Nat) : Option Binary64 :=
  if num = 0 ∨ den = 0 then some zero
  else
    let guess : Int := max (-1074) ((num.log2 : Int) - (den.log2 : Int) - 53)
    let (n, d) := scaleTwo num den guess
    let e := if Nat.pow 2 53 ≤ n / d then guess + 1 else guess
    let (n, d) := scaleTwo num den e
    let m := roundHalfEven n d
    let (m, e) := if m = Nat.pow 2 53 then (Nat.pow 2 52, e + 1) else (m, e)
    if 971 < e then none else some ⟨m, e⟩

def ofNat? (n : Nat) : Option Binary64 :=
  ofRatio? n 1

def mul? (x y : Binary64) : Option Binary64 :=
  let (a, b) := x.ratio
  let (c, d) := y.ratio
  ofRatio? (a * c) (b * d)

def div? (x y : Binary64) : Option Binary64 :=
  let (a, b) := x.ratio
  let (c, d) := y.ratio
  ofRatio? (a * d) (b * c)

end Binary64

end BundleLink.Decimal
