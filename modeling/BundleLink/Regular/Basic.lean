import BundleLink.Text.Basic
import BundleLink.Text.Identifier

/-!
Regular expressions, and whether one matches somewhere in a text. An expression takes a place of the
text to the places where a match that begins there can end; a repetition collects the places it
reaches, so it ends although its inner expression may match nothing.
-/

set_option autoImplicit false

namespace BundleLink.Regular

open BundleLink.Text

/-- A set of characters. -/
inductive CharSet where
  | none
  | range (low high : Char)
  | digit
  | blank
  /-- Characters of words: letters, marks, digits and connectors. -/
  | word
  | not (s : CharSet)
  | union (s t : CharSet)
  | inter (s t : CharSet)
  /-- Holds a character with both its cases. -/
  | caseless (s : CharSet)
deriving DecidableEq, Repr, Inhabited

def isWordChar (c : Char) : Bool :=
  c.isAlphanum || c = '_' || identifierPart.has c.toNat

namespace CharSet

def has (c : Char) : CharSet → Bool
  | none => false
  | range low high => low ≤ c && c ≤ high
  | digit => c.isDigit
  | blank => isBlank c
  | word => isWordChar c
  | not s => !s.has c
  | union s t => s.has c || t.has c
  | inter s t => s.has c && t.has c
  | caseless s => s.has c || s.has c.toLower || s.has c.toUpper

def single (c : Char) : CharSet :=
  range c c

def any : CharSet :=
  not none

end CharSet

/-- A condition on a place that takes no character. -/
inductive Edge where
  | textStart
  | textEnd
  | lineStart
  | lineEnd
  | word
  | noWord
deriving DecidableEq, Repr, Inhabited

inductive Expr where
  | empty
  | char (s : CharSet)
  | edge (e : Edge)
  | seq (a b : Expr)
  | alt (a b : Expr)
  /-- At least `least` and at most `most` matches in a row. -/
  | repeated (least : Nat) (most : Option Nat) (inner : Expr)
deriving DecidableEq, Repr, Inhabited

/-- Between two characters of a text. -/
structure Place where
  before : Option Char
  after : List Char
deriving DecidableEq, Repr, Inhabited

namespace Place

def isWordEdge (p : Place) : Bool :=
  p.before.any isWordChar != p.after.head?.any isWordChar

def meets (p : Place) : Edge → Bool
  | .textStart => p.before.isNone
  | .textEnd => p.after.isEmpty
  | .lineStart => p.before.isNone || p.before = some '\n'
  | .lineEnd => p.after.isEmpty || p.after.head? = some '\n'
  | .word => p.isWordEdge
  | .noWord => !p.isWordEdge

/-- The places of a text that are not among others of it; they are told apart by what follows. -/
def fresh (seen ps : List Place) : List Place :=
  ps.foldl (fun found p ↦
    if (seen ++ found).any fun q ↦ q.after.length = p.after.length then found
    else found ++ [p]) []

/-- The places that at most `count` steps lead to. -/
def reach (step : Place → List Place) : Nat → List Place → List Place → List Place
  | 0, seen, _ => seen
  | count + 1, seen, last =>
    match fresh seen (last.flatMap step) with
    | [] => seen
    | more => reach step count (seen ++ more) more

/-- The places that exactly `count` steps lead to. -/
def steps (step : Place → List Place) : Nat → List Place → List Place
  | 0, ps => ps
  | count + 1, ps => steps step count (fresh [] (ps.flatMap step))

end Place

namespace Expr

/-- Where a match that begins at a place can end. -/
def ends : Expr → Place → List Place
  | empty, p => [p]
  | char s, p =>
    match p.after with
    | c :: cs => if s.has c then [⟨some c, cs⟩] else []
    | [] => []
  | edge e, p => if p.meets e then [p] else []
  | seq a b, p => Place.fresh [] ((a.ends p).flatMap b.ends)
  | alt a b, p => Place.fresh [] (a.ends p ++ b.ends p)
  | repeated least most inner, p =>
    let first := Place.steps inner.ends least [p]
    let more :=
      match most with
      | some n => n - least
      | none => p.after.length + 1
    Place.reach inner.ends more first first

private def matchesAfter (e : Expr) (before : Option Char) : List Char → Bool
  | [] => !(e.ends ⟨before, []⟩).isEmpty
  | c :: cs => !(e.ends ⟨before, c :: cs⟩).isEmpty || matchesAfter e (some c) cs

/-- Whether an expression matches a part of a text. -/
def matchesIn (e : Expr) (text : String) : Bool :=
  matchesAfter e none text.toList

end Expr

end BundleLink.Regular
