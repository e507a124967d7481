import BundleLink.Path.Basic
import BundleLink.Script.Visit
import BundleLink.Text.Quoted

/-!
Plugins change each bundle before its specifiers are pointed at artifacts. A plugin knows the path
of the file and its module and nothing else, so it treats every file alike whatever came before.
-/

set_option autoImplicit false

namespace BundleLink.Link

open BundleLink.Script BundleLink.Text

structure Plugin where
  name : String
  pass : Path → Module → Module

instance : Inhabited Plugin := ⟨⟨"", fun _ m ↦ m⟩⟩

/-- A text in which every occurrence of `hole`, read from the left, is filled with `value`. `skip`
characters are yet to be passed over. -/
def fillAfter (hole value : List Char) : Nat → List Char → List Char
  | _, [] => []
  | skip + 1, _ :: cs => fillAfter hole value skip cs
  | 0, c :: cs =>
    if hole.isPrefixOf (c :: cs) then value ++ fillAfter hole value (hole.length - 1) cs
    else c :: fillAfter hole value 0 cs

def fill (hole value text : String) : String :=
  String.ofList (fillAfter hole.toList value.toList 0 text.toList)

namespace Plugin

/-- Replaces names equal to `old` and counts them; `n` stands in `new` for the number of names
replaced before. -/
def renamer (old new : String) : Visitor Nat where
  ident id := do
    if id.name = old then
      let n ← getModify (· + 1)
      return { id with name := fill "\x7bn\x7d" (toString n) new }
    else return id

/-- Gives every name `old` the name `new`, in which `file` stands for the stem of the file's name.
-/
def rename (old new : String) : Plugin where
  name := old
  pass file m :=
    let stem := String.ofList (decodeLossy (file.fileStem?.getD []))
    m.visited (renamer old (fill "\x7bfile\x7d" stem new)) 0

/-- Gives every string literal with the value `old` the value `new`. -/
def replaceString (old new : String) : Plugin where
  name := "source"
  pass _ m :=
    let v : Visitor Unit := {
      string s := return if s.value = .ofString old then ⟨s.span, .ofString new, none⟩ else s }
    m.visited v ()

end Plugin

/-- How bundles are linked. -/
structure Options where
  /-- Applied in order. -/
  plugins : List Plugin := []
  suffix : String
  preserveComments : Bool := true
deriving Inhabited

/-- The options as shown to a programmer. -/
def Options.shown (o : Options) : String :=
  "TransformOptions \x7b plugins: [" ++
    String.intercalate ", " (o.plugins.map fun p ↦ quoted p.name) ++
    "], suffix: " ++ quoted o.suffix ++ ", preserve_comments: " ++
    (if o.preserveComments then "true" else "false") ++ " \x7d"

end BundleLink.Link
