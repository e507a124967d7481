import BundleLink.Script.Parser.Pattern

/-!
Blocks, functions, object literals and classes.
-/

set_option autoImplicit false

namespace BundleLink.Script.Parser

/-- Statements up to a closing brace, which is passed. -/
def blockStmts (r : Rules) : Parser (List Stmt) := do
  let stmts ← go ((← bound) + 1)
  if !(← isEof) then
    bump
  return stmts
where
  go : Nat → Parser (List Stmt)
    | 0 => return []
    | fuel + 1 => do
      if ← isEof then
        reportAt (← curSpan) (.expected Punct.rbrace.text (← curToken).shown)
        return []
      if ← isPunct .rbrace then
        return []
      let s ← r.stmt true
      return s :: (← go fuel)

def block (r : Rules) : Parser Block := do
  let lo ← curPos
  expectPunct .lbrace
  let stmts ← blockStmts r
  return ⟨← spanFrom lo, stmts⟩

private def isUseStrict : Stmt → Bool
  | .expr _ (.literal (.string s)) =>
    s.raw = some "\"use strict\"" || s.raw = some "'use strict'"
  | _ => false

private def isDirective : Stmt → Bool
  | .expr _ (.literal (.string _)) => true
  | _ => false

/-- Runs the body of a function in its context. -/
def inFunctionBody {α : Type} (isAsync isGenerator isArrow : Bool) (p : Parser α) : Parser α :=
  within (fun c ↦
    { c with
      inAsync := isAsync
      inGenerator := isGenerator
      inFunction := true
      inOwnFunction := c.inOwnFunction || !isArrow
      inParams := false
      inStaticBlock := c.inStaticBlock && isArrow
      allowBreak := false
      allowContinue := false })
    (freshScope p)

/-- A block with directives; strictness may not be declared after patterns were bound. -/
def directiveBlock (r : Rules) (simple : Bool) : Parser Block := do
  let b ← block r
  if !simple then
    if let some s := (b.stmts.takeWhile isDirective).find? isUseStrict then
      reportAt s.span .useStrictWithPatterns
  return b

/-- One parameter that is not a rest parameter. -/
private def plainParam (r : Rules) : Parser Pat := do
  let lo ← curPos
  let left ← r.binding false
  if ← eatPunct (.assign .assign) then
    let value ← r.assign
    return .default (← spanFrom lo) left value
  return left

private def restParam (r : Rules) (lo : Nat) : Parser Pat := do
  let arg ← r.binding false
  let arg : Pat ←
    if ← eatPunct (.assign .assign) then do
      let value ← r.assign
      reportAt arg.span .restWithInitializer
      pure (.default (← spanFrom lo) arg value)
    else pure arg
  return .rest (← spanFrom lo) arg

private def paramItems (r : Rules) : Nat → Option Span → Parser (List Pat)
  | 0, _ => return []
  | fuel + 1, rest => do
    if ← isPunct .rparen then
      return []
    let lo ← curPos
    if let some span := rest then
      reportAt span .restNotLast
    let isRest ← eatPunct .ellipsis
    let p ← if isRest then restParam r lo else plainParam r
    let rest := if isRest then some p.span else rest
    if !(← isPunct .rparen) then
      expectPunct .comma
      if isRest && (← isPunct .rparen) then
        reportAt (← prevSpan) .commaAfterRest
    return p :: (← paramItems r fuel rest)

/-- Parameters up to a closing parenthesis. -/
def formalParams (r : Rules) : Parser (List Pat) := do
  paramItems r ((← bound) + 1) none

/-- The parameters and body of a function that began at `lo`. -/
def functionRest (r : Rules) (lo : Nat) (params : Parser (List Pat))
    (isAsync isGenerator : Bool) : Parser Function := do
  within (fun c ↦ { c with inOwnFunction := true }) do
    expectPunct .lparen
    let ps ← within (fun c ↦
      { c with
        inParams := true
        inFunction := false
        inAsync := isAsync
        inGenerator := isGenerator
        includeIn := true }) params
    expectPunct .rparen
    let body ← inFunctionBody isAsync isGenerator false (directiveBlock r (areSimpleParams ps))
    return ⟨← spanFrom lo, isAsync, isGenerator, ps, body⟩

/-- A function keyword and what follows it; `asyncLo` is where `async` stood before it. -/
private def functionParts (r : Rules) (asyncLo : Option Nat) (name : Bool → Parser (Option Ident)) :
    Parser (Option Ident × Function) := do
  let lo := asyncLo.getD (← curPos)
  bump
  let isGenerator ← eatPunct (.operator .mul)
  let id ← name isGenerator
  let fn ← within (fun c ↦ { c with allowSuper := false, inField := false })
    (functionRest r lo (formalParams r) asyncLo.isSome isGenerator)
  return (id, fn)

/-- A function declaration; it is bound outside its own context. -/
def functionDecl (r : Rules) (asyncLo : Option Nat) : Parser (Ident × Function) := do
  let lo := asyncLo.getD (← curPos)
  let (id, fn) ← functionParts r asyncLo fun _ ↦ some <$> bindingIdent false
  return (id.getD ⟨⟨lo, lo⟩, ""⟩, fn)

def functionExpr (r : Rules) (asyncLo : Option Nat) : Parser (Option Ident × Function) :=
  functionParts r asyncLo fun isGenerator ↦
    within (fun c ↦ { c with inAsync := asyncLo.isSome, inGenerator := isGenerator })
      (bindingIdent? false)

/-- A default export may leave out the name of its function. -/
def functionDefault (r : Rules) (asyncLo : Option Nat) : Parser (Option Ident × Function) :=
  functionParts r asyncLo fun _ ↦ bindingIdent? false

/-- Parameters of a getter: none. -/
private def getterParams (r : Rules) (key : Span) : Parser (List Pat) := do
  let ps ← formalParams r
  if !ps.isEmpty then
    reportAt key .getterParams
  return ps

/-- Parameters of a setter: one, and not a rest parameter. -/
private def setterParams (r : Rules) (key : Span) : Parser (List Pat) := do
  let ps ← formalParams r
  if ps.length ≠ 1 then
    reportAt key .setterParams
  if let .rest span _ :: _ := ps then
    reportAt span .restInSetter
  return ps

/-- Runs a method in its context. -/
private def asMethod {α : Type} (p : Parser α) : Parser α :=
  within (fun c ↦ { c with allowSuper := true, inField := false }) p

/-- What follows `get`, `set` or `async` in an object literal. -/
private def accessor (r : Rules) (lo : Nat) (word : String) : Parser Property := do
  let isGenerator ← if word = "async" then eatPunct (.operator .mul) else pure false
  let key ← propertyKey r
  asMethod do
    if word = "get" then
      let fn ← functionRest r lo (getterParams r key.span) false false
      return .getter (← spanFrom lo) key fn.body
    else if word = "set" then
      let fn ← functionRest r lo (setterParams r key.span) false false
      let ps := if 2 ≤ fn.params.length then fn.params.drop 1 else fn.params
      match ps with
      | p :: _ => return .setter (← spanFrom lo) key p fn.body
      | [] =>
        reportAt key.span .setterParams
        return .setter (← spanFrom lo) key (.missing ⟨lo, lo⟩) fn.body
    else
      let fn ← functionRest r lo (formalParams r) true isGenerator
      return .method (← spanFrom lo) key fn

private def property (r : Rules) : Parser Property := do
  let lo ← curPos
  if ← eatPunct .ellipsis then
    let dots ← spanFrom lo
    return .spread dots (← withIn r.assign)
  if ← eatPunct (.operator .mul) then
    let key ← propertyKey r
    let fn ← asMethod (functionRest r lo (formalParams r) false true)
    return .method (← spanFrom lo) key fn
  let key ← propertyKey r
  if ← eatPunct .colon then
    return .keyValue key (← withIn r.assign)
  if ← isPunct .lparen then
    let fn ← asMethod (functionRest r lo (formalParams r) false false)
    return .method (← spanFrom lo) key fn
  match key with
  | .ident span name =>
    if ← eatPunct .question then
      reportAt (← prevSpan) .optionalProperty
    let t ← curToken
    if t = .punct (.assign .assign) || t = .punct .comma || t = .punct .rbrace then
      if ← eatPunct (.assign .assign) then
        let value ← withIn r.assign
        return .initialized (← spanFrom lo) ⟨span, name⟩ value
      return .shorthand ⟨span, name⟩
    if name = "get" || name = "set" || name = "async" then
      accessor r lo name
    else
      failUnexpected "... , *,  (, [, :, , ?, = or an identifier"
  | _ => failUnexpected "identifier"

/-- An object literal: its range and entries. -/
def objectLiteral (r : Rules) : Parser (Span × List Property) := do
  let lo ← curPos
  let (props, comma) ← braced (property r)
  if let some c := comma then
    modify fun s ↦ { s with commas := (lo, c) :: s.commas }
  return (← spanFrom lo, props)

private def isConstructorKey : Key → Bool
  | .ident _ name => name = "constructor"
  | .string s => s.value = Codes.ofString "constructor"
  | _ => false

private def memberKey (r : Rules) : Parser Key := do
  if ← isPunct .hash then
    let id ← privateName
    if id.name = "constructor" then
      reportAt id.span .privateConstructor
    return .privateName id.span id.name
  propertyKey r

private def atField (mayEndByLine : Bool) : Parser Bool := do
  let t ← curToken
  if t = .punct (.assign .assign) || t = .punct .rbrace then
    return true
  if mayEndByLine then atSemi else return t = .punct .semi

private def fieldRest (r : Rules) (lo : Nat) (isStatic : Bool) (key : Key) : Parser Member := do
  if isConstructorKey key then
    failAt key.span .fieldNamedConstructor
  let value ← within (fun c ↦ { c with includeIn := true, inField := true }) do
    if ← eatPunct (.assign .assign) then
      some <$> r.assign
    else
      pure none
  if !(← eatSemi) then
    reportAt (← curSpan) .semicolonExpected
  return .field (← spanFrom lo) isStatic key value

private def methodRest (r : Rules) (lo : Nat) (isStatic : Bool) (kind : MethodKind) (key : Key)
    (params : Parser (List Pat)) (isAsync isGenerator : Bool) : Parser Member := do
  let fn ← asMethod (functionRest r lo params isAsync isGenerator)
  return .method (← spanFrom lo) isStatic kind key fn

private def constructorRest (r : Rules) (lo : Nat) (static? : Option Span) : Parser Member := do
  expectPunct .lparen
  let ps ← within (fun c ↦ { c with inParams := true, inFunction := false, includeIn := true })
    (formalParams r)
  expectPunct .rparen
  let body ← inFunctionBody false false false (directiveBlock r (areSimpleParams ps))
  if let some span := static? then
    reportAt span (.modifierOnConstructor "static")
  return .constructor (← spanFrom lo) ps body

/-- What follows the key of a member that is neither a method nor a generator. -/
private def memberTail (r : Rules) (lo : Nat) (isStatic : Bool) (key : Key) : Parser Member := do
  let generatorNext := (← afterLineEnd) && (← isPunct (.operator .mul))
  let word? : Option String :=
    match key with
    | .ident _ name => some name
    | _ => none
  let isAccessor := (word? = some "get" || word? = some "set") && !(← atField false)
    && !generatorNext
  if !isAccessor && (← atField true) then
    fieldRest r lo isStatic key
  else if word? = some "async" && !(← afterLineEnd) then
    let isGenerator ← eatPunct (.operator .mul)
    let key ← memberKey r
    if isConstructorKey key then
      failAt key.span .asyncConstructor
    methodRest r lo isStatic .method key (formalParams r) true isGenerator
  else if isAccessor then
    let at? := key.span
    let inner ← memberKey r
    if isConstructorKey inner then
      reportAt at? .accessorConstructor
    if word? = some "get" then
      methodRest r lo isStatic .getter inner (getterParams r at?) false false
    else
      methodRest r lo isStatic .setter inner (setterParams r at?) false false
  else
    failUnexpected "* for generator, private key, identifier or async"

private def staticBlock (r : Rules) (lo : Nat) : Parser Member := do
  let b ← within (fun c ↦
    { c with
      inStaticBlock := true
      inField := true
      allowBreak := false
      allowContinue := false }) (freshScope (block r))
  return .staticBlock (← spanFrom lo) b

private def member (r : Rules) : Parser Member := do
  let lo ← curPos
  let static? : Option Span ← do
    if ← eatWord "static" then
      pure (some (← spanFrom lo))
    else
      pure none
  if let some span := static? then
    if ← isPunct .lparen then
      return ← methodRest r lo false .method (.ident span "static") (formalParams r) false false
    if (← atField false) && !(← isPunct .lbrace) then
      return ← fieldRest r lo false (.ident span "static")
  let isStatic := static?.isSome
  if isStatic && (← isPunct .lbrace) then
    return ← staticBlock r lo
  if ← (isWord "static" <&&> peekIs (.punct .lbrace)) then
    bump
    return ← staticBlock r lo
  if ← eatPunct (.operator .mul) then
    let key ← memberKey r
    if isConstructorKey key then
      reportAt (← spanFrom lo) .generatorConstructor
    return ← methodRest r lo isStatic .method key (formalParams r) false true
  let key ← memberKey r
  if ← isPunct .lparen then
    if isConstructorKey key then
      return ← constructorRest r lo static?
    return ← methodRest r lo isStatic .method key (formalParams r) false false
  memberTail r lo isStatic key

private def members (r : Rules) : Nat → Bool → Parser (List Member)
  | 0, _ => return []
  | fuel + 1, hasConstructor => do
    if (← isEof) || (← isPunct .rbrace) then
      return []
    if ← eatPunct .semi then
      return .empty (← prevSpan) :: (← members r fuel hasConstructor)
    let m ← within (fun c ↦ { c with allowSuper := true }) (member r)
    let isConstructor :=
      match m with
      | .constructor .. => true
      | _ => false
    if isConstructor && hasConstructor then
      reportAt m.span .duplicateConstructor
    return m :: (← members r fuel (hasConstructor || isConstructor))

/-- A class from its keyword on. -/
def classParts (r : Rules) (lo : Nat) (name : Parser (Option Ident)) :
    Parser (Option Ident × Class) :=
  within (fun c ↦ { c with inClass := true }) do
    expectWord "class"
    let id ← name
    let parent ← do
      if ← eatWord "extends" then
        pure (some (← r.leftHand))
      else
        pure none
    if ← eatWord "extends" then
      reportAt (← prevSpan) .duplicateExtends
      let _ ← r.leftHand
    expectPunct .lbrace
    let ms ← members r ((← bound) + 1) false
    if ← isEof then
      reportAt (← curSpan) (.expected Punct.rbrace.text (← curToken).shown)
    else
      expectPunct .rbrace
    return (id, ⟨← spanFrom lo, parent, ms⟩)

end BundleLink.Script.Parser
