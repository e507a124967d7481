import BundleLink.Text.Basic

/-!
Comments of a script. A comment belongs to a byte position: it leads what begins there or trails
what ends there.
-/

set_option autoImplicit false

namespace BundleLink.Script

open BundleLink.Text

inductive CommentKind where
  | line
  | block
deriving DecidableEq, Repr, Inhabited

structure Comment where
  kind : CommentKind
  text : String
deriving DecidableEq, Repr, Inhabited

/-- Whether a line ends in a comment or right after it. -/
def Comment.breaksLine (c : Comment) : Bool :=
  c.kind = .line || c.text.toList.any isLineEnd

inductive CommentSide where
  | leading
  | trailing
deriving DecidableEq, Repr, Inhabited

/-- A comment with the position it belongs to. -/
structure PlacedComment where
  side : CommentSide
  pos : Nat
  comment : Comment
deriving DecidableEq, Repr, Inhabited

/-- The comments of a module in source order. -/
abbrev Comments := List PlacedComment

namespace Comments

/-- The comments on one side of a position. -/
def at? (cs : Comments) (side : CommentSide) (pos : Nat) : List Comment :=
  cs.filterMap fun c ↦ if c.side = side ∧ c.pos = pos then some c.comment else none

/-- The other comments. -/
def without (cs : Comments) (side : CommentSide) (pos : Nat) : Comments :=
  cs.filter fun c ↦ ¬(c.side = side ∧ c.pos = pos)

end Comments

end BundleLink.Script
