import BundleLink.Text.Columns
import BundleLink.Script.Scan

/-!
Where a byte offset lies for a reader of the text: the line, and the column on a display. A
character takes its display columns, and one more if it needs a second UTF-16 unit. A line end that
ends the text begins no line of its own.
-/

set_option autoImplicit false

namespace BundleLink.Script

open BundleLink.Text

structure Location where
  line : Nat
  column : Nat
deriving DecidableEq, Repr, Inhabited

namespace Location

/-- The columns one character takes. -/
def width (c : Char) : Nat :=
  columns c + (if c.toNat < 0x10000 then 0 else 1)

/-- The location after the given text, counting from `start`; `whole` tells whether nothing follows
the text. -/
def after (whole : Bool) (start : Location) : List Char → Location
  | [] => start
  | '\r' :: '\n' :: cs =>
    if cs.isEmpty && whole then ⟨start.line, start.column + 2⟩
    else after whole ⟨start.line + 1, 1⟩ cs
  | c :: cs =>
    if c = '\n' ∨ c = '\r' then
      if cs.isEmpty && whole then ⟨start.line, start.column + 1⟩
      else after whole ⟨start.line + 1, 1⟩ cs
    else after whole ⟨start.line, start.column + width c⟩ cs

/-- The location of a byte offset, counting lines and columns from one. -/
def ofOffset (source : List Char) (offset : Nat) : Location :=
  after (byteLength source ≤ offset) ⟨1, 1⟩ (takeBytes source offset)

end Location

end BundleLink.Script
