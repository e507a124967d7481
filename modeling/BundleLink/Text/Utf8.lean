/-!
Characters as bytes. `encode` writes a text in UTF-8; `pieces` reads any sequence of bytes as
characters and ill-formed stretches, each as long as some well-formed sequence begins like it.
`decode?` refuses ill-formed stretches, `decodeLossy` reads each as the replacement character.
-/

set_option autoImplicit false

namespace BundleLink.Text

abbrev Bytes := List UInt8

def encode (cs : List Char) : Bytes :=
  cs.flatMap String.utf8EncodeChar

/-- The bytes that a character still owes, the bounds of the next of them, and the value so far. -/
structure Owed where
  more : Nat
  low : UInt8
  high : UInt8
  value : Nat
deriving DecidableEq, Repr

/-- What the first byte of a longer character owes. -/
def owedBy? (b : UInt8) : Option Owed :=
  if 0xC2 ≤ b ∧ b ≤ 0xDF then some ⟨0, 0x80, 0xBF, b.toNat - 0xC0⟩
  else if b = 0xE0 then some ⟨1, 0xA0, 0xBF, 0⟩
  else if b = 0xED then some ⟨1, 0x80, 0x9F, 0xD⟩
  else if 0xE1 ≤ b ∧ b ≤ 0xEF then some ⟨1, 0x80, 0xBF, b.toNat - 0xE0⟩
  else if b = 0xF0 then some ⟨2, 0x90, 0xBF, 0⟩
  else if 0xF1 ≤ b ∧ b ≤ 0xF3 then some ⟨2, 0x80, 0xBF, b.toNat - 0xF0⟩
  else if b = 0xF4 then some ⟨2, 0x80, 0x8F, 4⟩
  else none

/-- The characters of a sequence of bytes, with `none` for an ill-formed stretch; `owed` is what a
character that has begun still needs. -/
def piecesAfter : Option Owed → Bytes → List (Option Char)
  | none, [] => []
  | some _, [] => [none]
  | none, b :: bs =>
    if b < 0x80 then some (Char.ofNat b.toNat) :: piecesAfter none bs
    else
      match owedBy? b with
      | some o => piecesAfter (some o) bs
      | none => none :: piecesAfter none bs
  | some o, b :: bs =>
    if o.low ≤ b ∧ b ≤ o.high then
      let value := o.value * 64 + (b.toNat - 0x80)
      match o.more with
      | 0 => some (Char.ofNat value) :: piecesAfter none bs
      | more + 1 => piecesAfter (some ⟨more, 0x80, 0xBF, value⟩) bs
    else if b < 0x80 then none :: some (Char.ofNat b.toNat) :: piecesAfter none bs
    else
      match owedBy? b with
      | some o => none :: piecesAfter (some o) bs
      | none => none :: none :: piecesAfter none bs

def pieces (bs : Bytes) : List (Option Char) :=
  piecesAfter none bs

/-- The text in a sequence of bytes, if all of it is well formed. -/
def decode? (bs : Bytes) : Option (List Char) :=
  (pieces bs).mapM id

def decodeLossy (bs : Bytes) : List Char :=
  (pieces bs).map (·.getD '\uFFFD')

/-- The bytes of a string. -/
def bytesOf (s : String) : Bytes :=
  encode s.toList

end BundleLink.Text
