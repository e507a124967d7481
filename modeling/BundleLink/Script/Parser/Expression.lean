import BundleLink.Script.Parser.Function

/-!
Expressions. A parenthesised list is read as expressions first; an arrow after it turns them into
parameters. An operand that is missing before a binary operator is recorded and passed over, so that
the diagnostic names the operator.
-/

set_option autoImplicit false

namespace BundleLink.Script.Parser

/-- Nothing may be applied to an arrow function, and no operator may follow it. -/
private def isArrow : Expr → Bool
  | .arrow .. | .arrowExpr .. => true
  | _ => false

def expression (r : Rules) : Parser Expr := do
  let first ← r.assign
  if ← isPunct .comma then
    let more ← whileDo (eatPunct .comma) r.assign
    return .seq (← spanFrom first.span.lo) (first :: more)
  return first

/-- An expression or spread item of a list. -/
private def element (r : Rules) : Parser Expr := do
  let lo ← curPos
  if ← eatPunct .ellipsis then
    let dots ← spanFrom lo
    return .spread dots (← r.assign)
  r.assign

private def argumentItems (r : Rules) : Nat → Bool → Parser (List Expr)
  | 0, _ => return []
  | fuel + 1, first => do
    if ← isPunct .rparen then
      return []
    if !first then
      expectPunct .comma
      if ← isPunct .rparen then
        return []
    let e ← withIn (element r)
    return e :: (← argumentItems r fuel false)

/-- An argument list in parentheses. -/
def arguments (r : Rules) : Parser (List Expr) := do
  expectPunct .lparen
  let es ← argumentItems r ((← bound) + 1) true
  expectPunct .rparen
  return es

private def arrayItems (r : Rules) (lo : Nat) : Nat → Parser (List Expr)
  | 0 => return []
  | fuel + 1 => do
    if ← isPunct .rbracket then
      return []
    if ← eatPunct .comma then
      return .hole :: (← arrayItems r lo fuel)
    let e ← withIn (element r)
    if !(← isPunct .rbracket) then
      expectPunct .comma
      if ← isPunct .rbracket then
        let c ← prevSpan
        modify fun s ↦ { s with commas := (lo, c) :: s.commas }
    return e :: (← arrayItems r lo fuel)

private def arrayLiteral (r : Rules) : Parser Expr := do
  let lo ← curPos
  bump
  let items ← arrayItems r lo ((← bound) + 1)
  expectPunct .rbracket
  return .array (← spanFrom lo) items

private def templateTail (r : Rules) (tagged : Bool) :
    Nat → Parser (List Quasi × List Expr)
  | 0 => return ([], [])
  | fuel + 1 => do
    let l ← curLexeme
    match l.token with
    | .template raw closed flaw =>
      if !tagged then
        if let some d := flaw then
          throw d
      bump
      let quasi : Quasi := ⟨⟨l.span.lo + 1, l.span.hi - (if closed then 1 else 2)⟩, raw⟩
      if closed then
        return ([quasi], [])
      let e ← withIn (expression r)
      if !(← isPunct .rbrace) then
        failExpected Punct.rbrace.text
      rereadCur Scan.templatePart
      rejectMalformed
      let (quasis, es) ← templateTail r tagged fuel
      return (quasi :: quasis, e :: es)
    | _ => failUnexpected "template"

/-- A template: its range, stretches of text and substitutions. -/
private def template (r : Rules) (tagged : Bool) : Parser (Span × List Quasi × List Expr) := do
  let lo ← curPos
  let (quasis, es) ← templateTail r tagged ((← bound) + 1)
  return (← spanFrom lo, quasis, es)

/-- The body of an arrow function that began at `lo`. -/
private def arrowRest (r : Rules) (lo : Nat) (isAsync : Bool) (params : List Pat) :
    Parser Expr := do
  inFunctionBody isAsync false true do
    if ← isPunct .lbrace then
      let b ← directiveBlock r (areSimpleParams params)
      return .arrow (← spanFrom lo) isAsync params b
    else
      let e ← r.assign
      return .arrowExpr (← spanFrom lo) isAsync params e

/-- Applies binary operators that bind tighter than `least` to a left operand. -/
def binaryTail (r : Rules) : Nat → Expr → Nat → Parser Expr
  | 0, left, _ => return left
  | fuel + 1, left, least => do
    let c ← context
    let op? : Option BinaryOp :=
      match ← curToken with
      | .word "in" => if c.includeIn then some .isIn else none
      | .word "instanceof" => some .instanceOf
      | .punct (.operator op) => some op
      | _ => none
    match op? with
    | none => return left
    | some op =>
      if op.precedence ≤ least then
        return left
      bump
      if op = .exp then
        match left with
        | .unary .. | .await .. => fail .unaryBeforeExp
        | _ => pure ()
      let first ← r.unary
      let right ← binaryTail r fuel first (if op = .exp then op.precedence - 1 else op.precedence)
      if op = .nullish then
        reportLogical left
        reportLogical right
      let e : Expr := .binary ⟨left.span.lo, ← lastPos⟩ op left right
      if op = .and || op = .or then
        if let .binary _ .nullish _ _ := left then
          reportAt e.span .mixedNullish
      binaryTail r fuel e least
where
  reportLogical : Expr → Parser Unit
    | .binary span .and _ _ | .binary span .or _ _ => reportAt span .mixedNullish
    | _ => return

private def restItemsEarly : List Expr → Parser Unit
  | [] => return
  | [_] => return
  | .spread dots e :: es => do
    reportAt ⟨dots.lo, e.span.hi⟩ .restNotLast
    restItemsEarly es
  | _ :: es => restItemsEarly es

/-- One parameter of an arrow function, made from a list item. -/
private def itemParam (last : Bool) (comma : Option Span) : Expr → Parser Pat
  | .spread dots e => do
    if last then
      if let .assign .. := e then
        reportAt ⟨dots.lo, e.span.hi⟩ .restWithInitializer
      if let some c := comma then
        reportAt c .commaAfterRest
    else
      reportAt ⟨dots.lo, e.span.hi⟩ .restNotLast
    let p ← patternOf .param e
    return .rest ⟨dots.lo, p.span.hi⟩ p
  | e => patternOf .param e

private def itemParams (comma : Option Span) : List Expr → Parser (List Pat)
  | [] => return []
  | [e] => return [← itemParam true comma e]
  | e :: es => do
    let p ← itemParam false comma e
    return p :: (← itemParams comma es)

/-- Items in parentheses, and the comma that ends them. -/
private def parenItems (r : Rules) : Nat → Option Span → Parser (List Expr × Option Span)
  | 0, comma => return ([], comma)
  | fuel + 1, comma => do
    if ← isPunct .rparen then
      return ([], comma)
    let lo ← curPos
    modify fun s ↦ { s with arrowStart := some lo }
    let e ← withIn (element r)
    let mut comma : Option Span := none
    if !(← isPunct .rparen) then
      expectPunct .comma
      if ← isPunct .rparen then
        comma := some (← prevSpan)
    let (es, last) ← parenItems r fuel comma
    return (e :: es, last)

private def reportInitialized : Expr → Parser Unit
  | .object _ props => props.forM fun
    | .initialized span _ _ => reportAt span .assignmentProperty
    | _ => return
  | _ => return

private def firstSpread? (es : List Expr) : Option Expr :=
  es.findSome? fun
    | .spread _ e => some e
    | _ => none

/-- A parenthesised expression, an arrow function, or after `async` a call. -/
private def parenOrArrow (r : Rules) (mayBeArrow : Bool) (async? : Option Span) :
    Parser Expr := do
  let lo ← match async? with
    | some s => pure s.lo
    | none => curPos
  expectPunct .lparen
  let (items, comma) ← parenItems r ((← bound) + 1) none
  expectPunct .rparen
  if ← isPunct .arrow then
    if ← afterLineEnd then
      failAt (← spanFrom lo) .lineBreakBeforeArrow
    if !mayBeArrow then
      failAt (← spanFrom lo) .arrowNotAllowed
    bump
    let params ← itemParams comma items
    params.forM checkStrictNames
    let e ← arrowRest r lo async?.isSome params
    if let .arrow .. := e then
      if ← isOperator then
        reportAt (← curSpan) .semicolonExpected
        let e ← binaryTail r ((← bound) + 1) e 0
        if !(← atSemi) then
          reportAt (← curSpan) .semicolonExpected
        return e
    return e
  items.forM reportInitialized
  if let some s := async? then
    return .call (← spanFrom lo) (.ident ⟨s, "async"⟩) items
  if items.isEmpty then
    failAt (← spanFrom lo) .emptyParens
  if let some e := firstSpread? items then
    failAt e.span .spreadInParens
  match items with
  | [e] => return .paren (← spanFrom lo) e
  | es =>
    let inner : Span := ⟨(es.head?.map (·.span.lo)).getD lo, (es.getLast?.map (·.span.hi)).getD lo⟩
    return .paren (← spanFrom lo) (.seq inner es)

private def knownFlag (c : Char) : Bool :=
  "dgimsuvy".toList.contains c

private def firstRepeated? : List Char → Option Char
  | [] => none
  | c :: cs => if cs.contains c then some c else firstRepeated? cs

private def regExpLiteral : Parser Expr := do
  rereadCur Scan.regExp
  let l ← curLexeme
  match l.token with
  | .regExp pattern flags =>
    bump
    if flags.toList.any fun c ↦ !knownFlag c then
      reportAt l.span .unknownRegExpFlags
    if let some c := firstRepeated? flags.toList then
      reportAt l.span (.duplicateRegExpFlag c)
    return .literal (.regExp l.span pattern flags)
  | .malformed d => throw d
  | _ => fail .expressionExpected

/-- A name, which may be the whole head of an arrow function. -/
private def nameOrArrow (r : Rules) (lo : Nat) (mayBeArrow : Bool) : Parser Expr := do
  let id ← identifier
  if mayBeArrow && id.name = "async" && !(← afterLineEnd) && (← isReference) then
    if let some isAwait := (← context).loopHead? then
      if (← isWord "of") && !(← peekIs (.punct .arrow)) then
        if !isAwait then
          reportAt id.span .asyncOfLoop
        return .ident id
    let param ← bindingIdent false
    expectPunct .arrow
    return ← arrowRest r lo true [.ident param]
  if ← (pure mayBeArrow <&&> not <$> afterLineEnd <&&> eatPunct .arrow) then
    if id.name = "eval" || id.name = "arguments" then
      reportAt id.span .evalOrArguments
    return ← arrowRest r lo false [.ident id]
  return .ident id

private def functionLiteral (r : Rules) (lo : Nat) (asyncLo : Option Nat) : Parser Expr := do
  let (id, fn) ← functionExpr r asyncLo
  return .function (← spanFrom lo) id fn

private def wordExpr (r : Rules) (l : Lexeme) (w : String) (mayBeArrow : Bool) : Parser Expr := do
  let lo := l.span.lo
  match w with
  | "this" =>
    bump
    return .this l.span
  | "null" =>
    bump
    return .literal (.null l.span)
  | "true" =>
    bump
    return .literal (.boolean l.span true)
  | "false" =>
    bump
    return .literal (.boolean l.span false)
  | "function" => functionLiteral r lo none
  | "class" =>
    let (id, cls) ← classParts r lo (bindingIdent? true)
    return .classExpr (← spanFrom lo) id cls
  | _ =>
    if w = "async" then
      let next ← peekToken
      let sameLine := !(← lineEndAhead)
      if next = .word "function" && sameLine then
        bump
        return ← functionLiteral r lo (some lo)
      if mayBeArrow && next = .punct .lparen && sameLine then
        bump
        return ← parenOrArrow r mayBeArrow (some l.span)
    if w = "let" || !isReservedWord w then
      nameOrArrow r lo mayBeArrow
    else
      fail .expressionExpected

private def primary (r : Rules) : Parser Expr := do
  rejectMalformed
  let l ← curLexeme
  let mayBeArrow := (← get).arrowStart = some l.span.lo
  match l.token with
  | .word w => wordExpr r l w mayBeArrow
  | .escaped _ => nameOrArrow r l.span.lo mayBeArrow
  | .string value raw =>
    bump
    return .literal (.string ⟨l.span, value, some raw⟩)
  | .number raw =>
    bump
    return .literal (.number l.span raw)
  | .bigInt raw =>
    bump
    return .literal (.bigInt l.span raw)
  | .template .. =>
    let (span, quasis, es) ← template r false
    return .template span quasis es
  | .punct .lbracket => arrayLiteral r
  | .punct .lbrace =>
    let (span, props) ← objectLiteral r
    return .object span props
  | .punct .lparen => parenOrArrow r mayBeArrow none
  | .punct (.operator .div) | .punct (.assign .div) => regExpLiteral
  | .punct .hash =>
    bump
    let id ← identName
    return .privateName (← spanFrom l.span.lo) id.name
  | _ => fail .expressionExpected

/-- What a selector or call is applied to. -/
private inductive Base where
  | expr (e : Expr)
  | super (span : Span)
  | import (span : Span) (phase : ImportPhase)

private def Base.lo : Base → Nat
  | .expr e => e.span.lo
  | .super span => span.lo
  | .import span _ => span.lo

private def isOptional : Base → Bool
  | .expr (.optMember ..) | .expr (.optCall ..) => true
  | _ => false

/-- A selector applied to a base. -/
private def select (base : Base) (optional noCall : Bool) (prop : Key) : Parser Expr := do
  let span ← spanFrom base.lo
  let c ← context
  match base with
  | .expr e =>
    if optional || isOptional base then
      return .optMember span optional e prop
    return .member span e prop
  | .super s =>
    if !c.allowSuper then
      failAt s .invalidSuper
    if optional then
      failAt s (if noCall then .invalidSuperCall else .invalidSuper)
    if let .privateName .. := prop then
      fail .invalidSuperCall
    return .superMember span s prop
  | .import .. => failUnexpected "meta"

/-- A call of a base. -/
private def invoke (r : Rules) (base : Base) (optional : Bool) : Parser Expr := do
  let args ← arguments r
  let span ← spanFrom base.lo
  match base with
  | .expr e =>
    if optional || isOptional base then
      return .optCall span optional e args
    return .call span e args
  | .super s =>
    if optional then
      fail .optionalSuperCall
    return .superCall span s args
  | .import s phase =>
    if optional then
      fail .optionalSuperCall
    return .importCall span s phase args

/-- Selectors and calls after a base; calls only if `noCall` is unset or they follow `?.`. -/
private def selectors (r : Rules) (noCall : Bool) : Nat → Base → Parser Expr
  | 0, _ => fail .expressionExpected
  | fuel + 1, base => do
    let optional ← eatPunct .optionalChain
    let lo ← curPos
    if ← eatPunct .lbracket then
      let e ← withIn (expression r)
      expectPunct .rbracket
      let e ← select base optional noCall (.computed (← spanFrom lo) e)
      return ← selectors r noCall fuel (.expr e)
    if (← isPunct .lparen) && (optional || !noCall) then
      let e ← invoke r base optional
      return ← selectors r noCall fuel (.expr e)
    if ← (pure optional <||> eatPunct .dot) then
      let key : Key ←
        if ← isPunct .hash then do
          let id ← privateName
          pure (.privateName id.span id.name)
        else do
          let id ← identName
          pure (.ident id.span id.name)
      let e ← select base optional noCall key
      return ← selectors r noCall fuel (.expr e)
    match base with
    | .expr e =>
      if let .template .. := ← curToken then
        let (quoted, quasis, es) ← template r true
        let span ← spanFrom e.span.lo
        if isOptional base then
          reportAt span .taggedInOptional
        let tagged : Expr := .tagged span e quoted quasis es
        return ← selectors r noCall fuel (.expr tagged)
      return e
    | .super _ => fail (if noCall then .invalidSuperCall else .invalidSuper)
    | .import .. => fail .invalidImport

private def selectFrom (r : Rules) (noCall : Bool) (base : Base) : Parser Expr := do
  selectors r noCall ((← bound) + 1) base

/-- What follows the keyword of an import call or of `import.meta`. -/
private def importExpr (r : Rules) (lo : Nat) (noCall : Bool) : Parser Expr := do
  if ← eatPunct .dot then
    let id ← identName
    match id.name with
    | "meta" => selectFrom r noCall (.expr (.importMeta (← spanFrom lo)))
    | "defer" => selectFrom r noCall (.import (← spanFrom lo) .defer)
    | "source" => selectFrom r noCall (.import (← spanFrom lo) .source)
    | _ => failUnexpected "meta"
  else
    selectFrom r noCall (.import (← spanFrom lo) .evaluation)

private def checkConstructed : Expr → Parser Unit
  | .optMember span .. | .optCall span .. => failAt span .optionalAfterNew
  | .member _ (.optMember span ..) _ | .member _ (.optCall span ..) _ =>
    failAt span .optionalAfterNew
  | _ => return

/-- A primary expression with selectors, or a construction. -/
def callee (r : Rules) : Parser Expr := do
  let lo ← curPos
  if ← eatWord "new" then
    if ← eatPunct .dot then
      if ← eatWord "target" then
        let span ← spanFrom lo
        let c ← context
        if !c.inOwnFunction && !c.inParams && !c.inClass then
          reportAt span .invalidNewTarget
        return ← selectFrom r true (.expr (.newTarget span))
      failUnexpected "target"
    let e ← r.callee
    if isArrow e then
      return e
    checkConstructed e
    if ← isPunct .lparen then
      let args ← arguments r
      return ← selectFrom r true (.expr (.new (← spanFrom lo) e args))
    return .newBare (← spanFrom lo) e
  if ← eatWord "super" then
    return ← selectFrom r true (.super (← spanFrom lo))
  if ← eatWord "import" then
    return ← importExpr r lo true
  let e ← primary r
  if isArrow e then
    return e
  selectFrom r true (.expr e)

/-- An operand with selectors and calls. -/
def leftHand (r : Rules) : Parser Expr := do
  let lo ← curPos
  if ← eatWord "super" then
    return ← selectFrom r false (.super (← spanFrom lo))
  if ← eatWord "import" then
    return ← importExpr r lo false
  let e ← callee r
  if isArrow e then
    return e
  if let .newBare .. := e then
    return e
  if ← isPunct .lparen then
    let args ← arguments r
    let span ← spanFrom lo
    let call : Expr :=
      if isOptional (.expr e) then .optCall span false e args else .call span e args
    return ← selectFrom r false (.expr call)
  return e

private def awaitExpr (r : Rules) : Parser Expr := do
  let lo ← curPos
  bump
  let span ← spanFrom lo
  if ← isPunct (.operator .mul) then
    fail .awaitStar
  let c ← context
  if !c.inAsync && ((← atSemi) || (← isPunct .rparen) || (← isPunct .rbracket)
      || (← isPunct .comma)) then
    reportAt span .awaitIdent
    return .ident ⟨span, "await"⟩
  if c.inFunction && !c.inAsync then
    reportAt span .awaitInFunction
  if c.inParams && !c.inFunction then
    reportAt span .awaitInParams
  let arg ← r.unary
  return .await (← spanFrom lo) arg

private def checkTarget (e : Expr) : Parser Unit := do
  if !e.isSimpleTarget then
    reportAt e.span .notSimpleTarget

private def unaryOp? : Token → Option UnaryOp
  | .word "delete" => some .delete
  | .word "void" => some .void
  | .word "typeof" => some .typeOf
  | .punct (.operator .add) => some .plus
  | .punct (.operator .sub) => some .minus
  | .punct .tilde => some .tilde
  | .punct .bang => some .not
  | _ => none

private def updateOp? : Token → Option UpdateOp
  | .punct .plusPlus => some .increment
  | .punct .minusMinus => some .decrement
  | _ => none

/-- An operand of a binary operator. The missing argument of a unary operator is recorded and passed
over. -/
def unary (r : Rules) : Parser Expr := do
  let l ← curLexeme
  if let some op := updateOp? l.token then
    bump
    let arg ← r.unary
    checkTarget arg
    return .update ⟨l.span.lo, arg.span.hi⟩ op true arg
  if let some op := unaryOp? l.token then
    bump
    let at? := (← curPos) - 1
    let arg : Expr ←
      tryCatch r.unary fun d ↦ do
        reportAt d.span d.problem
        pure (.missing ⟨at?, at?⟩)
    if op = .delete then
      if let .ident id := arg then
        reportAt id.span .deleteIdent
    return .unary ⟨l.span.lo, arg.span.hi⟩ op arg
  if l.token = .word "await" then
    return ← awaitExpr r
  let e ← leftHand r
  if isArrow e || (← afterLineEnd) then
    return e
  if let some op := updateOp? (← curToken) then
    bump
    checkTarget e
    return .update (← spanFrom e.span.lo) op false e
  return e

private def binary (r : Rules) : Parser Expr := do
  let left : Expr ←
    tryCatch (unary r) fun d ↦ do
      let c ← context
      let t ← curToken
      if (t = .word "in" && c.includeIn) || t = .word "instanceof" || (← isOperator) then
        let span ← curSpan
        reportAt span .expressionExpected
        pure (.missing span)
      else
        throw d
  if isArrow left then
    return left
  binaryTail r ((← bound) + 1) left 0

private def conditional (r : Rules) : Parser Expr := do
  let lo ← curPos
  let test ← binary r
  if isArrow test then
    return test
  if ← eatPunct .question then
    let yes ← withIn r.assign
    expectPunct .colon
    let no ← r.assign
    return .cond (← spanFrom lo) test yes no
  return test

private def startsExpr : Token → Bool
  | .escaped _ => true
  | .word w => !isReservedWord w || ["this", "null", "true", "false", "function", "class", "new",
      "super", "import", "typeof", "void", "delete", "await", "yield", "let"].contains w
  | .number _ | .bigInt _ | .string _ _ | .template .. | .regExp .. => true
  | .punct p => p = .lparen || p = .lbracket || p = .lbrace || p = .plusPlus || p = .minusMinus
      || p = .bang || p = .tilde || p = .operator .add || p = .operator .sub || p = .hash
      || p = .operator .div || p = .assign .div || p = .operator .mul || p = .operator .lt
      || p = .atSign
  | _ => false

private def yieldExpr (r : Rules) : Parser Expr := do
  let lo ← curPos
  bump
  let c ← context
  if c.inParams && !c.inFunction then
    failAt (← prevSpan) .yieldInParams
  if (← atSemi) || !startsExpr (← curToken) then
    return .yield (← spanFrom lo) false none
  let delegate ← eatPunct (.operator .mul)
  let arg ← r.assign
  return .yield (← spanFrom lo) delegate (some arg)

/-- The target of a plain assignment. -/
private def plainTarget (e : Expr) : Parser Pat := do
  let p ← patternOf .target e
  match p with
  | .expr (.ident _) | .expr (.member ..) | .expr (.superMember ..) | .expr (.optMember ..)
  | .expr (.optCall ..) | .expr (.paren ..) | .expr (.missing _) => return p
  | .expr inner => failAt inner.span .invalidTarget
  | _ => return p

/-- The target of an assignment that combines it with an operation. -/
private def compoundTarget (e : Expr) : Parser Pat := do
  if !e.isSimpleTarget then
    reportAt e.span .notAssignable
  match e with
  | .ident id => return .ident id
  | .member .. | .superMember .. | .optMember .. | .optCall .. | .paren .. | .missing _ =>
    return .expr e
  | _ => failAt e.span .invalidTarget

private def finishAssign (r : Rules) (lo : Nat) (e : Expr) : Parser Expr := do
  match ← curToken with
  | .punct (.assign op) =>
    let target ← if op = .assign then plainTarget e else compoundTarget e
    bump
    let value ← r.assign
    return .assign (← spanFrom lo) op target value
  | _ => return e

/-- An expression without commas. -/
def assign (r : Rules) : Parser Expr := do
  let c ← context
  if c.inGenerator && (← isWord "yield") then
    return ← yieldExpr r
  rejectMalformed
  let l ← curLexeme
  let mayBeArrow :=
    match l.token with
    | .punct .lparen | .word "yield" => true
    | t => t.isReference
  modify fun s ↦ { s with arrowStart := if mayBeArrow then some l.span.lo else none }
  let e ← conditional r
  if isArrow e then
    return e
  match e with
  | .cond .. | .binary .. | .unary .. | .update .. => return e
  | _ => finishAssign r l.span.lo e

end BundleLink.Script.Parser
