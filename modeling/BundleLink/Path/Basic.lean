import BundleLink.Text.Basic
import BundleLink.Text.Utf8

/-!
Paths of files: sequences of bytes in which `/` separates components. Repeated separators and inner
`.` components name nothing, so paths are ordered by their components and not by their bytes.
-/

set_option autoImplicit false

namespace BundleLink

open BundleLink.Text

structure Path where
  bytes : Bytes
deriving DecidableEq, Repr, Inhabited

namespace Path

def slash : UInt8 := 0x2F

def dot : UInt8 := 0x2E

def ofString (s : String) : Path :=
  ⟨bytesOf s⟩

/-- The path as shown: bytes that are no text are replaced. -/
def shown (p : Path) : String :=
  String.ofList (decodeLossy p.bytes)

/-- The path as text, if it is text. -/
def text? (p : Path) : Option String :=
  (decode? p.bytes).map String.ofList

inductive Component where
  | root
  | here
  | parent
  | name (bytes : Bytes)
deriving DecidableEq, Repr, Inhabited

def isAbsolute (p : Path) : Bool :=
  p.bytes.head? = some slash

/-- What a part between separators names. -/
def partComponent? (part : Bytes) : Option Component :=
  if part = [] ∨ part = [dot] then none
  else if part = [dot, dot] then some .parent
  else some (.name part)

/-- The components of a path; `here` only begins a relative path. -/
def components (p : Path) : List Component :=
  let parts := partsBetween slash p.bytes
  let first : List Component :=
    if p.isAbsolute then [.root]
    else if parts.head? = some [dot] then [.here]
    else []
  first ++ parts.filterMap partComponent?

/-- The name of the file a path ends in. -/
def fileName? (p : Path) : Option Bytes :=
  match p.components.getLast? with
  | some (.name n) => some n
  | _ => none

/-- A file name without its last extension; a leading dot begins no extension. -/
def fileStem? (p : Path) : Option Bytes :=
  p.fileName?.map fun n ↦
    match n.reverse.dropWhile (· ≠ dot) with
    | _ :: rest@(_ :: _) => rest.reverse
    | _ => n

/-- The path `q` seen from `p`: an absolute path stands for itself. -/
def join (p q : Path) : Path :=
  if q.isAbsolute then q
  else
    let gap : Bytes :=
      match p.bytes.getLast? with
      | some b => if b = slash then [] else [slash]
      | none => []
    ⟨p.bytes ++ gap ++ q.bytes⟩

/-- The path with text appended to its last component. -/
def append (p : Path) (s : String) : Path :=
  ⟨p.bytes ++ bytesOf s⟩

/-! ### Order -/

def compareBytes : Bytes → Bytes → Ordering
  | [], [] => .eq
  | [], _ :: _ => .lt
  | _ :: _, [] => .gt
  | a :: as, b :: bs => if a < b then .lt else if b < a then .gt else compareBytes as bs

def Component.rank : Component → Nat
  | root => 0
  | here => 1
  | parent => 2
  | name _ => 3

def Component.compare : Component → Component → Ordering
  | name a, name b => compareBytes a b
  | c, d => if c.rank < d.rank then .lt else if d.rank < c.rank then .gt else .eq

def compareComponents : List Component → List Component → Ordering
  | [], [] => .eq
  | [], _ :: _ => .lt
  | _ :: _, [] => .gt
  | c :: cs, d :: ds => (c.compare d).then (compareComponents cs ds)

/-- Component by component; a shorter path comes before its extensions. -/
def le (p q : Path) : Bool :=
  compareComponents p.components q.components ≠ .gt

def sort (ps : List Path) : List Path :=
  ps.mergeSort le

end Path

end BundleLink
