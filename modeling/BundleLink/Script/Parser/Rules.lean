import BundleLink.Script.Extent
import BundleLink.Script.Parser.Basic

/-!
Nested forms of the grammar, and the rules that read a name. Every function of the grammar takes the
readers of the forms nested in it as `Rules`. Between two uses of a rule at least one token is
passed, except that a statement may begin with an expression; so rules nested twice as deep as the
source is long are enough.
-/

set_option autoImplicit false

namespace BundleLink.Script.Parser

structure Rules where
  /-- An expression without commas. -/
  assign : Parser Expr
  /-- An operand of a binary operator. -/
  unary : Parser Expr
  /-- An operand that may be called. -/
  leftHand : Parser Expr
  /-- What follows `new`, or a primary expression with its selectors. -/
  callee : Parser Expr
  /-- A binding; the flag refuses the name `let`. -/
  binding : Bool → Parser Pat
  /-- A statement; the flag admits declarations. -/
  stmt : Bool → Parser Stmt

/-- A name that stands for a value. -/
def identifier : Parser Ident := do
  let l ← curLexeme
  match l.token with
  | .word w =>
    let c ← context
    if w = "enum" || isStrictReserved w then
      bump
      reportAt l.span (.strictIdent w)
      return ⟨l.span, w⟩
    if w = "await" then
      bump
      reportAt l.span (if c.inStaticBlock then .identExpected else .awaitIdent)
      return ⟨l.span, w⟩
    if isReservedWord w then
      fail .identExpected
    bump
    if w = "arguments" && c.inField then
      reportAt l.span .argumentsInField
    return ⟨l.span, w⟩
  | .escaped w =>
    bump
    if w = "arguments" && (← context).inField then
      reportAt l.span .argumentsInField
    return ⟨l.span, w⟩
  | _ => fail .identExpected

/-- A name that is being bound. -/
def bindingIdent (refuseLet : Bool) : Parser Ident := do
  let l ← curLexeme
  match l.token.name? with
  | some w =>
    if refuseLet && l.token = .word "let" then
      failUnexpected "let is reserved in const, let, class declaration"
    if w = "arguments" || w = "eval" then
      bump
      reportAt l.span .evalOrArguments
      return ⟨l.span, w⟩
    let id ← identifier
    let c ← context
    if ((c.inAsync || c.inStaticBlock) && w = "await") || (c.inGenerator && w = "yield") then
      reportAt l.span .identExpected
    return id
  | none => identifier

/-- A name being bound, if there is one here. -/
def bindingIdent? (refuseLet : Bool) : Parser (Option Ident) := do
  if ← isReference then
    return some (← bindingIdent refuseLet)
  return none

/-- Any name or keyword. -/
def identName : Parser Ident := do
  let l ← curLexeme
  match l.token.name? with
  | some w =>
    bump
    return ⟨l.span, w⟩
  | none => fail .identExpected

/-- A private name after its mark. -/
def privateName : Parser Ident := do
  let lo ← curPos
  bump
  let hashEnd ← lastPos
  if (← curPos) ≠ hashEnd then
    failAt (← spanFrom lo) .spaceAfterHash
  let id ← identName
  return ⟨← spanFrom lo, id.name⟩

/-- The name under which a binding crosses a module boundary. -/
def externalName : Parser ExternalName := do
  if let some s ← curString? then
    bump
    return .string s
  match ← curWord? with
  | some _ => return .ident (← identName)
  | none => failUnexpected "identifier or string"

/-- The name of a property, or an expression in brackets. -/
def propertyKey (r : Rules) : Parser Key := do
  let l ← curLexeme
  match l.token with
  | .string value raw =>
    bump
    return .string ⟨l.span, value, some raw⟩
  | .number raw =>
    bump
    return .number l.span raw
  | .bigInt raw =>
    bump
    return .bigInt l.span raw
  | .word w | .escaped w =>
    bump
    return .ident l.span w
  | .punct .lbracket =>
    bump
    let e ← withIn r.assign
    expectPunct .rbracket
    return .computed (← spanFrom l.span.lo) e
  | _ =>
    failUnexpected "identifier, string literal, numeric literal or [ for the computed key"

end BundleLink.Script.Parser
