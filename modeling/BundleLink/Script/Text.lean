/-!
Text of a script as code points. A string literal may name half of a surrogate pair, so its value
is a list of code points in which such halves stand alone; `Codes.lossy` reads every half as the
replacement character, and a value without halves is kept by it.
-/

set_option autoImplicit false

namespace BundleLink.Script

/-- One element of a string value: a scalar value, or half of a surrogate pair on its own. -/
inductive Code where
  | scalar (c : Char)
  | half (unit : Nat)
deriving DecidableEq, Repr, Inhabited

/-- The value of a string literal. -/
abbrev Codes := List Code

/-- The character a reader of plain text sees: half a pair is unreadable. -/
def Code.lossy : Code → Char
  | .scalar c => c
  | .half _ => '\uFFFD'

namespace Codes

def ofString (s : String) : Codes :=
  s.toList.map .scalar

/-- The value with every lone half read as U+FFFD. -/
def lossy (v : Codes) : String :=
  String.ofList (v.map Code.lossy)

@[simp] theorem lossy_ofString (s : String) : (ofString s).lossy = s := by
  simp [lossy, ofString, Function.comp_def, Code.lossy]

/-- The character that two halves of a pair encode. -/
def pair? (high : Nat) : Code → Option Char
  | .half low =>
    if 0xD800 ≤ high ∧ high < 0xDC00 ∧ 0xDC00 ≤ low ∧ low < 0xE000 then
      some (Char.ofNat (0x10000 + (high - 0xD800) * 0x400 + (low - 0xDC00)))
    else none
  | .scalar _ => none

/-- Appends one element to a value in reverse order; a low half that follows a high half completes
the pair they encode. -/
def pushRev (rev : Codes) (x : Code) : Codes :=
  match rev with
  | .half high :: rest =>
    match pair? high x with
    | some c => .scalar c :: rest
    | none => x :: rev
  | _ => x :: rev

/-- The element with number `n`, when there is one. -/
def ofNumber? (n : Nat) : Option Code :=
  if h : n.isValidChar then some (.scalar (Char.ofNatAux n h))
  else if 0xD800 ≤ n ∧ n < 0xE000 then some (.half n)
  else none

end Codes

end BundleLink.Script
