/-!
Characters and texts: sets of characters, white space, texts at the ends and inside of other texts,
and texts cut at a separator.
-/

set_option autoImplicit false

namespace BundleLink.Text

/-! ### Sets of characters -/

/-- Inclusive ranges of code points. -/
abbrev Ranges := List (Nat × Nat)

/-- Whether some range holds `n`. -/
def Ranges.has (r : Ranges) (n : Nat) : Bool :=
  r.any fun (lo, hi) ↦ lo ≤ n && n ≤ hi

/-- The Unicode property `White_Space`, by which settings and snippets are trimmed. -/
def isBlank (c : Char) : Bool :=
  let n := c.toNat
  (9 ≤ n && n ≤ 13) || n = 0x20 || n = 0x85 || n = 0xA0 || n = 0x1680 ||
    (0x2000 ≤ n && n ≤ 0x200A) || n = 0x2028 || n = 0x2029 || n = 0x202F || n = 0x205F ||
    n = 0x3000

/-- What separates the tokens of a script, line ends apart. -/
def isScriptBlank (c : Char) : Bool :=
  let n := c.toNat
  n = 9 || n = 11 || n = 12 || n = 0x20 || n = 0x85 || n = 0xA0 || n = 0x1680 ||
    (0x2000 ≤ n && n ≤ 0x200B) || n = 0x202F || n = 0x205F || n = 0x3000 || n = 0xFEFF

/-- Line ends of a script. -/
def isLineEnd (c : Char) : Bool :=
  c = '\n' || c = '\r' || c = '\u2028' || c = '\u2029'

/-- Characters without blanks at either end. -/
def trim (cs : List Char) : List Char :=
  ((cs.dropWhile isBlank).reverse.dropWhile isBlank).reverse

/-! ### Texts inside of others -/

def startsWith (affix text : String) : Bool :=
  affix.toList.isPrefixOf text.toList

def endsWith (affix text : String) : Bool :=
  affix.toList.isSuffixOf text.toList

def occursAt (inner : List Char) : List Char → Bool
  | [] => inner.isEmpty
  | c :: cs => inner.isPrefixOf (c :: cs) || occursAt inner cs

theorem occursAt_iff (inner cs : List Char) : occursAt inner cs = true ↔ inner <:+: cs := by
  induction cs with
  | nil => simp [occursAt]
  | cons c cs ih =>
    rw [occursAt, Bool.or_eq_true, ih, List.isPrefixOf_iff_prefix, List.infix_cons_iff]

/-- Whether a text holds another; every text holds the empty one. -/
def occursIn (inner text : String) : Bool :=
  occursAt inner.toList text.toList

/-- The parts between separators, empty ones included. -/
def partsBetween {α : Type} [DecidableEq α] (separator : α) : List α → List (List α)
  | [] => [[]]
  | a :: as =>
    if a = separator then [] :: partsBetween separator as
    else
      match partsBetween separator as with
      | part :: parts => (a :: part) :: parts
      | [] => [[a]]

end BundleLink.Text
