import BundleLink.Script.Parser.Rules

/-!
Patterns: read directly where a binding stands, or made from an expression that turns out to be the
target of an assignment or the head of an arrow function.
-/

set_option autoImplicit false

namespace BundleLink.Script

/-- Whether an expression may stand on the left of an assignment operator. -/
def Expr.isSimpleTarget : Expr → Bool
  | .ident id => id.name ≠ "eval" && id.name ≠ "arguments"
  | .paren _ inner => inner.isSimpleTarget
  | .member _ (.member s obj prop) _ => (Expr.member s obj prop).isSimpleTarget
  | .member _ (.optMember ..) _ | .member _ (.optCall ..) _ => false
  | .member .. => true
  | .superMember .. => true
  | _ => false

namespace Parser

/-- A binding with an optional value to fall back on. -/
def bindingElement (r : Rules) : Parser Pat := do
  let lo ← curPos
  let left ← r.binding false
  if ← eatPunct (.assign .assign) then
    let value ← withIn r.assign
    return .default (← spanFrom lo) left value
  return left

/-- Items of an array pattern up to its bracket. -/
private def arrayBindingItems (r : Rules) : Nat → Option Span → Parser (List Pat)
  | 0, _ => return []
  | fuel + 1, rest => do
    if ← isPunct .rbracket then
      return []
    if ← eatPunct .comma then
      return .hole :: (← arrayBindingItems r fuel rest)
    if let some span := rest then
      reportAt span .nonLastRest
    let lo ← curPos
    let isRest ← eatPunct .ellipsis
    let item ←
      if isRest then do
        let arg ← r.binding false
        pure (.rest (← spanFrom lo) arg)
      else bindingElement r
    let rest := if isRest then some item.span else rest
    if !(← isPunct .rbracket) then
      expectPunct .comma
      if isRest && (← isPunct .rbracket) then
        reportAt (← prevSpan) .commaAfterRest
    return item :: (← arrayBindingItems r fuel rest)

private def arrayBinding (r : Rules) : Parser Pat := do
  let lo ← curPos
  bump
  let items ← arrayBindingItems r ((← bound) + 1) none
  expectPunct .rbracket
  return .array (← spanFrom lo) items

/-- Entries between braces, separated by commas; also the last comma if one ends the list. -/
def braced {α : Type} (entry : Parser α) : Parser (List α × Option Span) := do
  expectPunct .lbrace
  go ((← bound) + 1) none
where
  go : Nat → Option Span → Parser (List α × Option Span)
    | 0, comma => return ([], comma)
    | fuel + 1, comma => do
      if ← eatPunct .rbrace then
        return ([], comma)
      let x ← entry
      let mut comma : Option Span := none
      if !(← isPunct .rbrace) then
        expectPunct .comma
        if ← isPunct .rbrace then
          comma := some (← prevSpan)
      let (xs, last) ← go fuel comma
      return (x :: xs, last)

private def bindingProperty (r : Rules) : Parser PatProperty := do
  let lo ← curPos
  if ← eatPunct .ellipsis then
    let arg ← r.binding false
    return .rest (← spanFrom lo) arg
  let key ← propertyKey r
  if ← eatPunct .colon then
    return .keyValue key (← bindingElement r)
  match key with
  | .ident span name =>
    if ← eatPunct (.assign .assign) then
      let value ← withIn r.assign
      return .shorthand (← spanFrom lo) ⟨span, name⟩ (some value)
    return .shorthand (← spanFrom lo) ⟨span, name⟩ none
  | _ => failUnexpected "an identifier"

/-- A rest entry comes last, binds a name, and no comma follows it. -/
private def checkRestEntries (comma : Option Span) : List PatProperty → Parser Unit
  | [] => return
  | [.rest span arg] =>
    match arg with
    | .ident _ => do
      if let some c := comma then
        reportAt c .commaAfterRest
    | _ => failAt span .dotsWithoutIdent
  | [_] => return
  | p :: ps => do
    if let .rest span _ := p then
      reportAt span .nonLastRest
    checkRestEntries comma ps

private def objectBinding (r : Rules) : Parser Pat := do
  let lo ← curPos
  let (props, comma) ← braced (bindingProperty r)
  checkRestEntries comma props
  return .object (← spanFrom lo) props

/-- A name, array pattern or object pattern. -/
def binding (r : Rules) (refuseLet : Bool) : Parser Pat := do
  rejectMalformed
  match ← curToken with
  | .word _ | .escaped _ => return .ident (← bindingIdent refuseLet)
  | .punct .lbracket => arrayBinding r
  | .punct .lbrace => objectBinding r
  | _ => failUnexpected "yield, an identifier, [ or \x7b"

/-- What a pattern made from an expression is for. -/
inductive PatternRole where
  | param
  | paramElement
  | target
  | targetElement
deriving DecidableEq

def PatternRole.element : PatternRole → PatternRole
  | param | paramElement => paramElement
  | target | targetElement => targetElement

private def isElementTarget : Expr → Bool
  | .member .. | .superMember .. | .call .. | .superCall .. | .importCall .. | .new ..
  | .newBare .. | .literal _ | .ident _ | .function .. | .classExpr .. | .paren ..
  | .template .. => true
  | _ => false

private def lastCommaOf (lo : Nat) : Parser (Option Span) := do
  return ((← get).commas.find? fun p ↦ p.1 = lo).map (·.2)

private def isHole : Expr → Bool
  | .hole => true
  | _ => false

private def isAssign : Expr → Bool
  | .assign .. => true
  | _ => false

/-- An operand that is an item of an assignment pattern: `some` if it needs no taking apart. -/
private def elementTarget? (role : PatternRole) (e : Expr) : Parser (Option Pat) := do
  if role = .target then
    match e with
    | .object .. | .array .. => return none
    | _ =>
      if !e.isSimpleTarget then
        reportAt e.span .notSimpleTarget
      match e with
      | .ident id => return some (.ident id)
      | _ => return some (.expr e)
  else if role = .targetElement then
    match e with
    | .object .. | .array .. | .assign .. => return none
    | _ =>
      if isElementTarget e then
        if !e.isSimpleTarget then
          reportAt e.span .notAssignable
        match e with
        | .ident id => return some (.ident id)
        | _ => return some (.expr e)
      else
        reportAt e.span .notAPattern
        return none
  else
    return none

/-- A rest entry of a parameter binds a name. -/
private def restName (span : Span) : Expr → Parser Pat
  | .ident id => return .ident id
  | _ => do
    reportAt span .dotsWithoutIdent
    return .missing span

private def identPattern (role : PatternRole) (id : Ident) : Parser Pat := do
  let _ ← elementTarget? role (.ident id)
  return .ident id

mutual

/-- The pattern an expression spells. -/
def patternOf (role : PatternRole) (e : Expr) : Parser Pat := do
  if let some p ← elementTarget? role e then
    return p
  match e with
  | .assign span .assign target value => return .default span (← retarget role target) value
  | .object span props =>
    let props ← patternProperties role span.lo props
    return .object span props
  | .ident id => return .ident id
  | .array span items =>
    let holes := (items.reverse.takeWhile isHole).length
    let items ← patternItems role span.lo (holes = 0) (items.length - holes) items
    return .array span items
  | e =>
    reportAt e.span .notAPattern
    return .missing e.span

/-- A target that was already made for an assignment, in its new role. -/
def retarget (role : PatternRole) : Pat → Parser Pat
  | .ident id => identPattern role id
  | .expr e => patternOf role e
  | p => return p

/-- The first `count` items, and no others; the last of them may be a rest item if `mayRest`. -/
def patternItems (role : PatternRole) (lo : Nat) (mayRest : Bool) (count : Nat) :
    List Expr → Parser (List Pat)
  | [] => return []
  | .hole :: es => do
    if count = 0 then
      return []
    return .hole :: (← patternItems role lo mayRest (count - 1) es)
  | .spread dots arg :: es => do
    if count = 0 then
      return []
    if mayRest && count = 1 then
      if isAssign arg then
        reportAt ⟨dots.lo, arg.span.hi⟩ .restWithInitializer
      if let some c ← lastCommaOf lo then
        reportAt c .commaAfterRest
      let p ← patternOf role.element arg
      return [.rest arg.span p]
    reportAt ⟨dots.lo, arg.span.hi⟩ .nonLastRest
    patternItems role lo mayRest (count - 1) es
  | e :: es => do
    if count = 0 then
      return []
    let p ← patternOf role.element e
    return p :: (← patternItems role lo mayRest (count - 1) es)

def patternProperties (role : PatternRole) (lo : Nat) : List Property → Parser (List PatProperty)
  | [] => return []
  | .shorthand id :: props =>
    return .shorthand id.span id none :: (← patternProperties role lo props)
  | .keyValue key value :: props => do
    let p ← patternOf role.element value
    return .keyValue key p :: (← patternProperties role lo props)
  | .initialized span id value :: props =>
    return .shorthand span id (some value) :: (← patternProperties role lo props)
  | .spread dots arg :: props => do
    let span : Span := ⟨dots.lo, arg.span.hi⟩
    if !props.isEmpty then
      reportAt span .nonLastRest
    else if let some c ← lastCommaOf lo then
      reportAt c .commaAfterRest
    let p : Pat ←
      if role.element = .paramElement then
        restName span arg
      else patternOf role.element arg
    if let .default .. := p then
      reportAt span .restWithInitializer
    return .rest span p :: (← patternProperties role lo props)
  | .getter span .. :: _ => failAt span .notAPattern
  | .setter span .. :: _ => failAt span .notAPattern
  | .method span .. :: _ => failAt span .notAPattern

end

/-- Whether a parameter list binds plain names only. -/
def areSimpleParams (params : List Pat) : Bool :=
  params.all fun
    | .ident _ => true
    | _ => false

def checkStrictName (id : Ident) : Parser Unit := do
  if id.name = "eval" || id.name = "arguments" then
    reportAt id.span .evalOrArguments

mutual

/-- Names that strict code may not bind. -/
def checkStrictNames : Pat → Parser Unit
  | .ident id => checkStrictName id
  | .array _ items => checkStrictItems items
  | .rest _ arg => checkStrictNames arg
  | .object _ props => checkStrictProperties props
  | .default _ left _ => checkStrictNames left
  | _ => return

def checkStrictItems : List Pat → Parser Unit
  | [] => return
  | p :: ps => do
    checkStrictNames p
    checkStrictItems ps

def checkStrictProperties : List PatProperty → Parser Unit
  | [] => return
  | .keyValue _ value :: ps => do
    checkStrictNames value
    checkStrictProperties ps
  | .rest _ arg :: ps => do
    checkStrictNames arg
    checkStrictProperties ps
  | .shorthand _ id _ :: ps => do
    checkStrictName id
    checkStrictProperties ps

end

end Parser

end BundleLink.Script
