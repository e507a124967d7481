import BundleLink.Script.Parser.Expression

/-!
Statements. The test and the branches of nested alternatives are read one after the other, so an
alternative ends where its branch ends, whatever follows `else`.
-/

set_option autoImplicit false

namespace BundleLink.Script.Parser

private def fullExpr (r : Rules) : Parser Expr :=
  withIn (expression r)

private def inParens {α : Type} (p : Parser α) : Parser α := do
  expectPunct .lparen
  let x ← p
  expectPunct .rparen
  return x

/-- Runs the body of a loop. -/
private def asLoopBody {α : Type} (p : Parser α) : Parser α :=
  within (fun c ↦ { c with allowBreak := true, allowContinue := true }) p

/-- The part of a declaration that a loop head may hold. -/
private def declarator (r : Rules) (inHead : Bool) (kind : VarKind) : Parser Declarator := do
  let lo ← curPos
  let name ← r.binding (kind != .var)
  let endsHead := inHead && ((← isWord "in") || (← isWord "of"))
  if ← eatPunct (.assign .assign) then
    let value ← r.assign
    return ⟨← spanFrom lo, name, some value⟩
  let span ← spanFrom lo
  if !endsHead then
    if kind = .const && !inHead then
      reportAt span .constWithoutInit
    else
      match name with
      | .ident _ => pure ()
      | _ => reportAt span .patternWithoutInit
  return ⟨span, name, none⟩

private def declarators (r : Rules) (inHead : Bool) (kind : VarKind) :
    Nat → Bool → Parser (List Declarator)
  | 0, _ => return []
  | fuel + 1, first => do
    if ← isPunct .semi then
      let before ← prevSpan
      reportAt (if first then ⟨before.hi, before.hi⟩ else before) .trailingComma
      return []
    let d ← declarator r inHead kind
    if ← eatPunct .comma then
      return d :: (← declarators r inHead kind fuel false)
    return [d]

/-- Passes tokens up to the end of a statement. -/
private def skipStatement : Nat → Parser Unit
  | 0 => return
  | fuel + 1 => do
    if !(← eatSemi) then
      if ← isMalformed then
        return
      bump
      skipStatement fuel

/-- The keyword and the bindings of a declaration. -/
private def declaration (r : Rules) (inHead : Bool) : Parser (VarKind × List Declarator) := do
  let kind : VarKind ← do
    if ← isWord "const" then pure .const
    else if ← isWord "let" then pure .let
    else pure .var
  bump
  let decls ← within (fun c ↦ { c with includeIn := !inHead || kind != .var })
    (declarators r inHead kind ((← bound) + 1) true)
  return (kind, decls)

/-- A declaration that is a statement. -/
def varStmt (r : Rules) : Parser Stmt := do
  let lo ← curPos
  let (kind, decls) ← declaration r false
  if !(← eatSemi) then
    reportAt (← curSpan) .semicolonExpected
    tryCatch
      (do
        let _ ← fullExpr r)
      fun _ ↦ pure ()
    skipStatement ((← bound) + 1)
  return .var (← spanFrom lo) kind decls

/-- Whether `let` opens a declaration here. -/
def atLetDeclaration : Parser Bool := do
  if !(← isWord "let") then
    return false
  match ← peekToken with
  | .punct .lbrace | .punct .lbracket => return true
  | .word w => return !isPlainKeyword w
  | .escaped _ => return true
  | _ => return false

/-- Whether a declaration of variables begins here. -/
def atVarDeclaration : Parser Bool := do
  return (← isWord "var") || (← isWord "const") || (← atLetDeclaration)

private def functionStmt (r : Rules) (lo : Nat) (asyncLo : Option Nat) : Parser Stmt := do
  let (id, fn) ← functionDecl r asyncLo
  return .function (← spanFrom lo) id fn

private def classStmt (r : Rules) (lo : Nat) : Parser Stmt := do
  let (id, cls) ← classParts r lo (some <$> bindingIdent true)
  return .classDecl (← spanFrom lo) (id.getD ⟨⟨lo, lo⟩, ""⟩) cls

/-- Whether `async` and `function` stand here on one line. -/
def atAsyncFunction : Parser Bool :=
  isWord "async" <&&> peekIs (.word "function") <&&> not <$> lineEndAhead

/-- A function or class, if one begins here; `none` before anything else. -/
def hoistedDecl? (r : Rules) : Parser (Option Stmt) := do
  let lo ← curPos
  if ← isWord "class" then
    return some (← classStmt r lo)
  if ← isWord "function" then
    return some (← functionStmt r lo none)
  if ← atAsyncFunction then
    bump
    return some (← functionStmt r lo (some lo))
  return none

/-- Declarations of resources are read and refused. -/
private def usingStmt (r : Rules) (lo : Nat) : Parser Stmt := do
  bump
  let decls ← declarators r false .var ((← bound) + 1) false
  reportAt (← spanFrom lo) .usingDisabled
  let _ ← eatSemi
  return .var (← spanFrom lo) .const decls

/-- Whether `using` is followed by a name on its line. -/
private def atUsing : Parser Bool :=
  isWord "using" <&&> Token.isReference <$> peekToken <&&> not <$> lineEndAhead

/-- Passes `await` if a declaration of resources follows. -/
private def eatAwaitUsing : Parser Bool := do
  if !(← isWord "await" <&&> peekIs (.word "using") <&&> not <$> lineEndAhead) then
    return false
  let s ← get
  bump
  if ← atUsing then
    return true
  set s
  return false

private def jumpStmt (lo : Nat) (isBreak : Bool) : Parser Stmt := do
  bump
  let label : Option Ident ← do
    if ← eatSemi then
      pure none
    else
      let id ← identifier
      expectSemi
      pure (some id)
  let span ← spanFrom lo
  let c ← context
  let labels := (← get).labels
  let unknown :=
    match label with
    | some id => !labels.contains id.name
    | none => false
  if isBreak then
    if unknown then
      reportAt span .breakWithoutLabel
    else if !c.allowBreak then
      reportAt span .breakOutside
    return .break span label
  if !c.allowContinue then
    reportAt span .continueOutside
  else if unknown then
    reportAt span .continueWithoutLabel
  return .continue span label

/-- The keyword, test and first branch of an alternative. -/
private def ifHead (r : Rules) : Parser (Expr × Stmt) := do
  bump
  expectPunct .lparen
  let test ← fullExpr r
  if !(← eatPunct .rparen) then
    reportAt (← curSpan) .semicolonExpected
  let yes ← r.stmt false
  return (test, yes)

private def elseBranch (r : Rules) : Nat → Parser (Option Stmt)
  | 0 => return none
  | fuel + 1 => do
    if !(← eatWord "else") then
      return none
    if !(← isWord "if") then
      return some (← r.stmt false)
    let lo ← curPos
    let (test, yes) ← ifHead r
    let span ← spanFrom lo
    match ← elseBranch r fuel with
    | some no => return some (.ifElse span test yes no)
    | none => return some (.ifThen span test yes)

private def ifStmt (r : Rules) (lo : Nat) : Parser Stmt := do
  let (test, yes) ← ifHead r
  match ← elseBranch r ((← bound) + 1) with
  | some no => return .ifElse (← spanFrom lo) test yes no
  | none => return .ifThen (← spanFrom lo) test yes

private def returnStmt (r : Rules) (lo : Nat) : Parser Stmt := do
  bump
  let arg : Option Expr ← do
    if ← atSemi then pure none else some <$> fullExpr r
  expectSemi
  let span ← spanFrom lo
  if !(← context).inFunction then
    reportAt span .returnOutside
  return .return span arg

private def throwStmt (r : Rules) (lo : Nat) : Parser Stmt := do
  bump
  if ← afterLineEnd then
    fail .lineBreakAfterThrow
  let arg ← fullExpr r
  expectSemi
  return .throw (← spanFrom lo) arg

private def atCase : Parser Bool := do
  return (← isWord "case") || (← isWord "default")

private def caseBody (r : Rules) : Parser (List Stmt) :=
  whileDo
    (do
      return !((← atCase) || (← isPunct .rbrace) || (← isEof)))
    (r.stmt true)

private def switchCases (r : Rules) : Nat → Bool → Parser (List SwitchCase)
  | 0, _ => return []
  | fuel + 1, hasDefault => do
    if !(← atCase) then
      return []
    let lo ← curPos
    let isDefault ← isWord "default"
    bump
    let test : Option Expr ← do
      if !isDefault then
        some <$> fullExpr r
      else if hasDefault then
        fail .multipleDefaults
      else
        pure none
    expectPunct .colon
    let body ← caseBody r
    let c : SwitchCase := ⟨← spanFrom lo, test, body⟩
    return c :: (← switchCases r fuel (hasDefault || isDefault))

private def switchStmt (r : Rules) (lo : Nat) : Parser Stmt := do
  bump
  let subject ← inParens (fullExpr r)
  expectPunct .lbrace
  let cases ← within (fun c ↦ { c with allowBreak := true })
    (switchCases r ((← bound) + 1) false)
  expectPunct .rbrace
  return .switch (← spanFrom lo) subject cases

/-- A `catch` clause: its range, parameter and block. -/
private def catchClause (r : Rules) : Parser (Span × Option Pat × Block) := do
  let lo ← curPos
  bump
  let param : Option Pat ← do
    if ← isPunct .lparen then some <$> inParens (r.binding false) else pure none
  let b ← block r
  return (← spanFrom lo, param, b)

private def finallyBlock (r : Rules) : Parser (Option Block) := do
  if ← eatWord "finally" then some <$> block r else return none

private def tryStmt (r : Rules) (lo : Nat) : Parser Stmt := do
  bump
  let body ← block r
  let at? ← curPos
  let caught : Option (Span × Option Pat × Block) ← do
    if ← isWord "catch" then some <$> catchClause r else pure none
  let finalizer ← finallyBlock r
  if caught.isNone && finalizer.isNone then
    reportAt ⟨at?, at?⟩ .semicolonExpected
  match caught with
  | some (span, param, handler) =>
    return .tryCatch (← spanFrom lo) body span param (some handler) finalizer
  | none => return .tryCatch (← spanFrom lo) body ⟨at?, at?⟩ none none finalizer

/-- A `catch` or `finally` without `try` is recorded and passed over. -/
private def strayHandler (r : Rules) : Parser Stmt := do
  let span ← curSpan
  reportAt span .semicolonExpected
  tryCatch
    (do
      if ← isWord "catch" then
        let _ ← catchClause r)
    fun _ ↦ pure ()
  tryCatch
    (do
      let _ ← finallyBlock r)
    fun _ ↦ pure ()
  return .expr span (.missing span)

/-- The head of a loop over the members or items of a value. -/
private inductive Each where
  | ofItems (left : LoopStart) (right : Expr)
  | inKeys (left : LoopStart) (right : Expr)
  | counted (start : LoopStart) (test step : Option Expr)

private def eachHead (r : Rules) (left : LoopStart) : Parser Each := do
  if ← eatWord "of" then
    return .ofItems left (← withIn r.assign)
  bump
  return .inKeys left (← fullExpr r)

private def countedHead (r : Rules) (start : LoopStart) : Parser Each := do
  let test : Option Expr ← do
    if ← eatPunct .semi then
      pure none
    else
      let e ← fullExpr r
      let _ ← eatPunct .semi
      pure (some e)
  let step : Option Expr ← do
    if ← isPunct .rparen then pure none else some <$> fullExpr r
  return .counted start test step

private def atEach : Parser Bool := do
  return (← isWord "of") || (← isWord "in")

private def forHead (r : Rules) (isAwait : Bool) : Parser Each := do
  let lo ← curPos
  if ← atVarDeclaration then
    let (kind, decls) ← declaration r true
    let start : LoopStart := .decl (← spanFrom lo) kind decls
    if ← atEach then
      (decls.drop 1).forM fun d ↦ reportAt d.name.span .manyLoopBindings
      if let d :: _ := decls then
        if d.init.isSome then
          reportAt d.name.span .loopInitializer
      return ← eachHead r start
    expectPunct .semi
    return ← countedHead r start
  if ← eatPunct .semi then
    return ← countedHead r .none
  let e ← within (fun c ↦ { c with includeIn := false, loopHead? := some isAwait }) (expression r)
  if ← atEach then
    let p ← patternOf .target e
    return ← eachHead r (.pat p)
  expectPunct .semi
  countedHead r (.expr e)

private def forStmt (r : Rules) (lo : Nat) : Parser Stmt := do
  bump
  let await? : Option Span ← do
    if ← eatWord "await" then some <$> prevSpan else pure none
  let head ← inParens (forHead r await?.isSome)
  let body ← asLoopBody (r.stmt false)
  if let some span := await? then
    match head with
    | .ofItems .. => pure ()
    | _ => failAt span .awaitLoop
  let span ← spanFrom lo
  match head with
  | .ofItems left right => return .forOf span await?.isSome left right body
  | .inKeys left right => return .forIn span left right body
  | .counted start test step => return .forLoop span start test step body

private def doStmt (r : Rules) (lo : Nat) : Parser Stmt := do
  bump
  let body ← asLoopBody (r.stmt false)
  expectWord "while"
  let test ← inParens (fullExpr r)
  let _ ← eatSemi
  return .doWhile (← spanFrom lo) test body

private def whileStmt (r : Rules) (lo : Nat) : Parser Stmt := do
  bump
  let test ← inParens (fullExpr r)
  let body ← asLoopBody (r.stmt false)
  return .whileLoop (← spanFrom lo) test body

private def withStmt (r : Rules) (lo : Nat) : Parser Stmt := do
  reportAt (← curSpan) .withInStrict
  bump
  let obj ← inParens (fullExpr r)
  let body ← r.stmt false
  return .with (← spanFrom lo) obj body

private def labeledStmt (r : Rules) (label : Ident) : Parser Stmt :=
  within (fun c ↦ { c with allowBreak := true }) do
    let outer := (← get).labels
    modify fun s ↦ { s with labels := label.name :: s.labels }
    let body : Stmt ← do
      if ← isWord "function" then
        let lo ← curPos
        let f ← functionStmt r lo none
        reportAt f.span .labelledFunction
        pure f
      else r.stmt false
    if outer.contains label.name then
      reportAt label.span (.duplicateLabel label.name)
    modify fun s ↦ { s with labels := outer }
    return .labeled (← spanFrom label.span.lo) label body

private def exprStmt (r : Rules) (lo : Nat) : Parser Stmt := do
  let e ← fullExpr r
  if let .ident id := e then
    if ← eatPunct .colon then
      return ← labeledStmt r id
  if !(← eatSemi) then
    if ← isOperator then
      reportAt (← curSpan) .semicolonExpected
      let e ← binaryTail r ((← bound) + 1) e 0
      return .expr (← spanFrom lo) e
    fail .statementEndExpected
  return .expr (← spanFrom lo) e

/-- Inside statements only calls and members of `import` may stand. -/
def importExprStmt (r : Rules) (lo : Nat) : Parser Stmt := do
  let e ← fullExpr r
  let _ ← eatSemi
  return .expr (← spanFrom lo) e

/-- Whether an expression that begins with `import` stands here. -/
def atImportExpr : Parser Bool := do
  if !(← isWord "import") then
    return false
  let next ← peekToken
  return next = .punct .lparen || next = .punct .dot

private def keywordStmt? (r : Rules) (mayDeclare : Bool) (lo : Nat) (w : String) :
    Parser (Option Stmt) := do
  match w with
  | "break" => some <$> jumpStmt lo true
  | "continue" => some <$> jumpStmt lo false
  | "debugger" =>
    bump
    expectSemi
    return some (.debugger (← spanFrom lo))
  | "do" => some <$> doStmt r lo
  | "for" => some <$> forStmt r lo
  | "if" => some <$> ifStmt r lo
  | "return" => some <$> returnStmt r lo
  | "switch" => some <$> switchStmt r lo
  | "throw" => some <$> throwStmt r lo
  | "try" => some <$> tryStmt r lo
  | "catch" | "finally" => some <$> strayHandler r
  | "with" => some <$> withStmt r lo
  | "while" => some <$> whileStmt r lo
  | "var" => some <$> varStmt r
  | "function" | "class" =>
    if !mayDeclare then
      reportAt (← curSpan) .declarationNotAllowed
    hoistedDecl? r
  | "async" => hoistedDecl? r
  | "const" => if mayDeclare then some <$> varStmt r else return none
  | "let" =>
    if mayDeclare && (← atLetDeclaration) then some <$> varStmt r else return none
  | "using" => if mayDeclare && (← atUsing) then some <$> usingStmt r lo else return none
  | "await" => if ← eatAwaitUsing then some <$> usingStmt r lo else return none
  | _ => return none

/-- A statement, or if `mayDeclare` a declaration. -/
def stmt (r : Rules) (mayDeclare : Bool) : Parser Stmt := do
  let l ← curLexeme
  let lo := l.span.lo
  match l.token with
  | .word w =>
    if w = "import" || w = "export" then
      if ← atImportExpr then
        return ← importExprStmt r lo
      fail .importInScript
    match ← keywordStmt? r mayDeclare lo w with
    | some s => return s
    | none => exprStmt r lo
  | .punct .lbrace => return .block (← block r)
  | .punct .semi =>
    bump
    return .empty l.span
  | _ => exprStmt r lo

end BundleLink.Script.Parser
