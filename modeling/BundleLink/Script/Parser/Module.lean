import BundleLink.Script.Parser.Statement

/-!
Imports, exports and whole modules. `parse` reads a source text: the first fatal diagnostic wins
over the recorded ones, and a module comes out only if there is none of either kind.
-/

set_option autoImplicit false

namespace BundleLink.Script

namespace Parser

/-- The attributes after a source, on the same line. -/
private def attributes? (r : Rules) : Parser (Option Attributes) := do
  if (← afterLineEnd) || !((← isWord "with") || (← isWord "assert")) then
    return none
  bump
  let (span, props) ← objectLiteral r
  return some ⟨span, props⟩

/-- The source a declaration names, with its attributes. -/
private def fromClause (r : Rules) : Parser (StringLit × Option Attributes) := do
  expectWord "from"
  match ← curString? with
  | some s =>
    bump
    return (s, ← attributes? r)
  | none => failUnexpected "a string literal"

private def importSpecifier : Parser ImportSpecifier := do
  let lo ← curPos
  match ← externalName with
  | .string s =>
    if ← eatWord "as" then
      let binding ← bindingIdent false
      return .named (← spanFrom lo) binding (some (.string s))
    failAt s.span (.importedString s.value.lossy)
  | .ident id =>
    if ← eatWord "as" then
      let binding ← bindingIdent false
      return .named (← spanFrom lo) binding (some (.ident id))
    return .named (← spanFrom lo) id none

/-- Items in braces, separated by commas. -/
private def specifiers {α : Type} (item : Parser α) : Parser (List α) := do
  expectPunct .lbrace
  let items ← whileDo
    (do
      return !(← isPunct .rbrace))
    (do
      let x ← item
      if !(← isPunct .rbrace) then
        expectPunct .comma
      return x)
  expectPunct .rbrace
  return items

/-- The bindings of an import that has any. -/
private def importBindings : Parser (ImportPhase × List ImportSpecifier) := do
  let mut phase : ImportPhase := .evaluation
  let mut first : List ImportSpecifier := []
  if ← isReference then
    let mut id ← bindingIdent false
    if id.name = "source" || id.name = "defer" then
      let isPhase ← do
        if ← isReference then
          not <$> isWord "from" <||> peekIs (.word "from")
        else
          pure (id.name = "defer" && (← isPunct (.operator .mul)))
      if isPhase then
        phase := if id.name = "source" then .source else .defer
        if ← isReference then
          id ← bindingIdent false
          first := [.default id.span id]
      else
        first := [.default id.span id]
    else
      first := [.default id.span id]
    if !first.isEmpty then
      if ← isWord "from" then
        return (phase, first)
      expectPunct .comma
  let lo ← curPos
  if ← eatPunct (.operator .mul) then
    expectWord "as"
    let binding ← bindingIdent false
    return (phase, first ++ [.namespace (← spanFrom lo) binding])
  if ← isPunct .lbrace then
    return (phase, first ++ (← specifiers importSpecifier))
  return (phase, first)

private def importDecl (r : Rules) (lo : Nat) : Parser ModuleItem := do
  bump
  if let some source ← curString? then
    bump
    let attributes ← attributes? r
    let _ ← eatSemi
    let span ← spanFrom lo
    return .importDecl ⟨span, .evaluation, ← endsInComma span, [], source, attributes⟩
  let (phase, specifiers) ← importBindings
  let (source, attributes) ← fromClause r
  expectSemi
  let span ← spanFrom lo
  return .importDecl ⟨span, phase, ← endsInComma span, specifiers, source, attributes⟩

private def exportSpecifier : Parser ExportSpecifier := do
  let lo ← curPos
  let orig ← externalName
  let exported : Option ExternalName ← do
    if ← eatWord "as" then some <$> externalName else pure none
  return .named (← spanFrom lo) orig exported

private def checkLocalExport : ExportSpecifier → Parser Unit
  | .named _ (.ident id) _ => do
    if isReservedExport id.name then
      reportAt id.span (.exportNeedsSource id.name)
  | .named _ (.string s) _ => reportAt s.span .exportedString
  | .namespace .. => return

private def exportDefault (r : Rules) (lo : Nat) : Parser ModuleItem := do
  let start ← curPos
  if ← isWord "class" then
    let (id, cls) ← classParts r start (bindingIdent? true)
    return .exportDefaultDecl (← spanFrom lo) (.classDecl (← spanFrom start) id cls)
  let isAsync ← do
    if ← atAsyncFunction then
      bump
      pure true
    else
      pure false
  if isAsync || (← isWord "function") then
    let (id, fn) ← functionDefault r (if isAsync then some start else none)
    return .exportDefaultDecl (← spanFrom lo) (.function (← spanFrom start) id fn)
  let e ← withIn r.assign
  expectSemi
  return .exportDefaultExpr (← spanFrom lo) e

private def exportNamed (r : Rules) (lo : Nat) (items : List ExportSpecifier) :
    Parser ModuleItem := do
  let (source, attributes) ← fromClause r
  expectSemi
  let span ← spanFrom lo
  return .exportNamed ⟨span, ← endsInComma span, items, some source, attributes⟩

/-- What follows the star of an export. -/
private def exportStar (r : Rules) (lo : Nat) : Parser ModuleItem := do
  let start ← curPos
  bump
  if ← eatWord "as" then
    let name ← externalName
    let spec : ExportSpecifier := .namespace (← spanFrom start) name
    if !(← isWord "from") then
      failExpected "from"
    return ← exportNamed r lo [spec]
  let (source, attributes) ← fromClause r
  expectSemi
  return .exportAll ⟨← spanFrom lo, source, attributes⟩

private def exportList (r : Rules) (lo : Nat) : Parser ModuleItem := do
  let items ← specifiers exportSpecifier
  if ← isWord "from" then
    return ← exportNamed r lo items
  items.forM checkLocalExport
  let _ ← eatSemi
  let span ← spanFrom lo
  return .exportNamed ⟨span, ← endsInComma span, items, none, none⟩

private def exportItem (r : Rules) (lo : Nat) : Parser ModuleItem := do
  bump
  if ← isEof then
    fail .endOfInput
  if ← eatWord "default" then
    return ← exportDefault r lo
  if let some d ← hoistedDecl? r then
    return .exportDecl (← spanFrom lo) d
  if ← atVarDeclaration then
    let d ← varStmt r
    return .exportDecl (← spanFrom lo) d
  if ← isPunct (.operator .mul) then
    exportStar r lo
  else
    exportList r lo

/-- An item of a module body. -/
def moduleItem (r : Rules) : Parser ModuleItem := do
  let lo ← curPos
  if ← isWord "import" then
    if ← atImportExpr then
      return .stmt (← importExprStmt r lo)
    return ← importDecl r lo
  if ← isWord "export" then
    return ← exportItem r lo
  return .stmt (← stmt r true)

/-- The grammar, nested at most as deep as the given number. -/
def rules : Nat → Rules
  | 0 => ⟨fail .expressionExpected, fail .expressionExpected, fail .expressionExpected,
      fail .expressionExpected, fun _ ↦ fail .expressionExpected, fun _ ↦ fail .expressionExpected⟩
  | n + 1 => {
      assign := fun c s ↦ assign (rules n) c s
      unary := fun c s ↦ unary (rules n) c s
      leftHand := fun c s ↦ leftHand (rules n) c s
      callee := fun c s ↦ callee (rules n) c s
      binding := fun refuseLet c s ↦ binding (rules n) refuseLet c s
      stmt := fun mayDeclare c s ↦ stmt (rules n) mayDeclare c s }

def moduleBody (shebang : Option String) : Parser Module := do
  let lo ← curPos
  let r := rules (2 * (← bound) + 4)
  let items ← whileDo
    (do
      return !(← isEof))
    (moduleItem r)
  let span ← spanFrom (if shebang.isSome then 0 else lo)
  return ⟨span, shebang, items⟩

end Parser

/-- Reads a module and its comments. -/
def parse (source : String) : Except Diagnostic (Module × Comments) :=
  let chars := source.toList
  let (start, shebang) :=
    match (Lexer.ofSource chars).shebang? with
    | some (x, text) => (x, some text)
    | none => (Lexer.ofSource chars, none)
  let (lexer, first) := start.next
  let state : ParseState :=
    { source := chars
      bound := chars.length
      lexer := lexer
      cur := first
      ahead := none
      prev := ⟨0, start.prevHi⟩
      labels := []
      arrowStart := none
      commas := [] }
  match Parser.moduleBody shebang {} state with
  | .error d _ => .error d
  | .ok m s =>
    match s.lexer.input.problems.getLast? with
    | some d => .error d
    | none => .ok (m, s.lexer.placed.reverse)

end BundleLink.Script
