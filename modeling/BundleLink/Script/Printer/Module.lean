import BundleLink.Script.Printer.Tree

/-!
The pieces of imports, exports and whole modules. The specifiers of an import or export stay on one
line, with a last comma if the declaration ends in one before its last character.
-/

set_option autoImplicit false

namespace BundleLink.Script

def ExternalName.pieces : ExternalName → List Piece
  | .ident id => id.pieces
  | .string s => s.pieces

def Attributes.pieces : Option Attributes → List Piece
  | none => []
  | some a => .text " with " :: objectPieces a.span (propertyItems a.props)

/-- A list of specifiers in braces. -/
def bracedSpecifiers (comma : Bool) (items : List (List Piece)) : List Piece :=
  if items.isEmpty then [.text "\x7b \x7d"]
  else [.text "\x7b "] ++ inlineListComma comma items ++ [.text " \x7d"]

def ImportSpecifier.pieces : ImportSpecifier → List Piece
  | .default _ binding => binding.pieces
  | .namespace _ binding => .text "* as " :: binding.pieces
  | .named span binding imported =>
    [.leading span.lo] ++
      (match imported with
        | none => []
        | some name => name.pieces ++ [.text " as "]) ++
      binding.pieces

def ImportSpecifier.isNamed : ImportSpecifier → Bool
  | .named .. => true
  | _ => false

/-- The bindings of an import and the word after them. -/
def importClause (comma : Bool) (specifiers : List ImportSpecifier) : List Piece :=
  let named := specifiers.filter (·.isNamed)
  let parts := (specifiers.filter (!·.isNamed)).map (·.pieces) ++
    (if named.isEmpty then []
    else [bracedSpecifiers comma (named.map fun s ↦ item s.span.hi s.pieces)])
  if parts.isEmpty then []
  else List.flatten (parts.intersperse [.text ", "]) ++ [.text " from "]

def ImportDecl.pieces (d : ImportDecl) : List Piece :=
  [.leading d.span.lo, .text "import "] ++
    (if d.phase = .evaluation then [] else [.text (d.phase.text ++ " ")]) ++
    importClause d.comma d.specifiers ++ d.source.pieces ++ Attributes.pieces d.attributes ++
    [.text ";"]

def ExportSpecifier.pieces : ExportSpecifier → List Piece
  | .namespace span name => [.leading span.lo, .text "* as "] ++ name.pieces
  | .named span orig exported =>
    [.leading span.lo] ++ orig.pieces ++
      match exported with
      | none => []
      | some name => .text " as " :: name.pieces

/-- The names of an export. -/
def exportClause (comma : Bool) (specifiers : List ExportSpecifier) : List Piece :=
  match specifiers with
  | [.namespace span name] => ExportSpecifier.pieces (.namespace span name)
  | _ => bracedSpecifiers comma (specifiers.map fun s ↦ item s.span.hi s.pieces)

def ExportNamed.pieces (d : ExportNamed) : List Piece :=
  [.leading d.span.lo, .text "export "] ++ exportClause d.comma d.specifiers ++
    (match d.source with
      | none => []
      | some s => .text " from " :: s.pieces) ++
    Attributes.pieces d.attributes ++ [.text ";"]

def ExportAll.pieces (d : ExportAll) : List Piece :=
  [.leading d.span.lo, .text "export * from "] ++ d.source.pieces ++
    Attributes.pieces d.attributes ++ [.text ";"]

def DefaultDecl.pieces : DefaultDecl → List Piece
  | .function span name fn => Expr.pieces (.function span name fn)
  | .classDecl span name cls => Expr.pieces (.classExpr span name cls)

/-- An item without the line it stands on. -/
def ModuleItem.bare : ModuleItem → List Piece
  | importDecl d => d.pieces
  | exportNamed d => d.pieces
  | exportAll d => d.pieces
  | exportDecl span d => [.leading span.lo, .text "export "] ++ d.pieces
  | exportDefaultDecl span d => [.leading span.lo, .text "export default "] ++ d.pieces
  | exportDefaultExpr span e =>
    [.leading span.lo, .text "export default "] ++ ended e.span e.pieces ++ [.text ";"]
  | stmt s => s.pieces

def ModuleItem.pieces (item : ModuleItem) : List Piece :=
  match item with
  | stmt s => settled s s.pieces ++ [.trailing s.span.hi true]
  | _ => item.bare ++ [.trailing item.span.hi true, .line]

def Module.pieces (m : Module) : List Piece :=
  [.leading m.span.lo] ++
    (match m.shebang with
      | none => []
      | some text => [.text ("#!" ++ text), .line]) ++
    m.items.flatMap (·.pieces) ++ [.trailing m.span.hi true]

/-- The text of a module with the given comments. -/
def Module.print (m : Module) (comments : Comments) : String :=
  layOut comments m.pieces

end BundleLink.Script
