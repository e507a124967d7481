import BundleLink.Script.Comment

/-!
Laying out a script. The printer of the tree yields `Piece`s; `layOut` turns them into text. A
comment is written where a piece first asks for the side and position it is attached to, and is then
used up; a comment that no piece asks for is left out.
-/

set_option autoImplicit false

namespace BundleLink.Script

inductive Piece where
  | text (s : String)
  /-- Ends the line, unless nothing has been written on it. -/
  | line
  | indent
  | dedent
  /-- The comments that lead what begins at `pos`. -/
  | leading (pos : Nat)
  /-- The comments that trail what ends at `pos`, each after a blank if `spaced`. -/
  | trailing (pos : Nat) (spaced : Bool)
  /-- Ends the line if comments that lead `pos` are still to be written. -/
  | lineIfLed (pos : Nat)
  /-- One text if a comment that leads `pos` ends in a line end or holds one, and the other if not.
  -/
  | ifBroken (pos : Nat) (yes no : String)
deriving DecidableEq, Repr, Inhabited

/-- The text so far, and what the next piece depends on. -/
structure Layout where
  out : String
  atLineStart : Bool
  depth : Nat
  /-- The comments still to be written. -/
  comments : Comments
  /-- All comments. -/
  source : Comments
deriving Inhabited

namespace Layout

/-- A layout with nothing on it. -/
def empty (comments : Comments) : Layout :=
  ⟨"", true, 0, comments, comments⟩

/-- Writes text, after the indentation if it begins a line. -/
def write (l : Layout) (s : String) : Layout :=
  if s.isEmpty then l
  else if l.atLineStart then
    { l with out := l.out.pushn ' ' (4 * l.depth) ++ s, atLineStart := false }
  else { l with out := l.out ++ s }

def endLine (l : Layout) : Layout :=
  if l.atLineStart then l else { l with out := l.out.push '\n', atLineStart := true }

/-- A block comment is followed by a blank, a line comment by a line end. -/
def writeComment (spaced : Bool) (l : Layout) (c : Comment) : Layout :=
  let l := if spaced then l.write " " else l
  match c.kind with
  | .line => (l.write ("//" ++ c.text)).endLine
  | .block => (l.write ("/*" ++ c.text ++ "*/")).write " "

/-- Writes and uses up the comments on one side of a position. -/
def writeComments (l : Layout) (side : CommentSide) (pos : Nat) (spaced : Bool) : Layout :=
  match l.comments.at? side pos with
  | [] => l
  | cs => cs.foldl (writeComment spaced) { l with comments := l.comments.without side pos }

def add (l : Layout) : Piece → Layout
  | .text s => l.write s
  | .line => l.endLine
  | .indent => { l with depth := l.depth + 1 }
  | .dedent => { l with depth := l.depth - 1 }
  | .leading pos => l.writeComments .leading pos false
  | .trailing pos spaced => l.writeComments .trailing pos spaced
  | .lineIfLed pos => if (l.comments.at? .leading pos).isEmpty then l else l.endLine
  | .ifBroken pos yes no =>
    l.write (if (l.source.at? .leading pos).any Comment.breaksLine then yes else no)

end Layout

/-- The text of the pieces, with the comments they ask for. -/
def layOut (comments : Comments) (pieces : List Piece) : String :=
  (pieces.foldl Layout.add (.empty comments)).out

end BundleLink.Script
