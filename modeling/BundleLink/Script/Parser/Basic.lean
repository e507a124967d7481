import BundleLink.Script.Lexer

/-!
The state and vocabulary of the parser. It holds one token and may look at the next; a diagnostic
that ends the parse is an exception, one that does not is recorded in the order it was found. What
the surroundings allow is a `Context`, changed for the extent of a nested form only.
-/

set_option autoImplicit false

namespace BundleLink.Script

/-- What the forms around the current position allow. -/
structure Context where
  /-- `in` is an operator here, and not the end of a loop head. -/
  includeIn : Bool := false
  inAsync : Bool := false
  inGenerator : Bool := false
  inFunction : Bool := false
  /-- Inside a function that has its own `this`. -/
  inOwnFunction : Bool := false
  inParams : Bool := false
  inClass : Bool := false
  inField : Bool := false
  inStaticBlock : Bool := false
  /-- The expression that begins a loop head; `some true` in one of `for await`. -/
  loopHead? : Option Bool := none
  allowSuper : Bool := false
  allowBreak : Bool := false
  allowContinue : Bool := false
deriving Inhabited

structure ParseState where
  /-- The whole source text and its number of characters. -/
  source : List Char
  bound : Nat
  lexer : Lexer
  cur : Lexeme
  ahead : Option Lexeme
  /-- The range of the token before the current one. -/
  prev : Span
  labels : List String
  /-- Where an expression began that may turn out to be the head of an arrow function. -/
  arrowStart : Option Nat
  /-- The last comma of each object or array that ends in one, by the beginning of the literal. -/
  commas : List (Nat × Span)
deriving Inhabited

abbrev Parser := ReaderT Context (EStateM Diagnostic ParseState)

namespace Parser

/-- Runs a parser in a changed context. -/
def within {α : Type} (change : Context → Context) (p : Parser α) : Parser α :=
  fun c ↦ p (change c)

def withIn {α : Type} (p : Parser α) : Parser α :=
  within (fun c ↦ { c with includeIn := true }) p

def context : Parser Context :=
  fun c ↦ pure c

def curLexeme : Parser Lexeme := do
  return (← get).cur

def curToken : Parser Token := do
  return (← get).cur.token

def curSpan : Parser Span := do
  return (← get).cur.span

def curPos : Parser Nat := do
  return (← get).cur.span.lo

def prevSpan : Parser Span := do
  return (← get).prev

/-- The end of the last token that was passed. -/
def lastPos : Parser Nat := do
  return (← get).prev.hi

/-- The range from `lo` to the end of the last token. -/
def spanFrom (lo : Nat) : Parser Span := do
  return ⟨lo, ← lastPos⟩

/-- The largest number of steps any repetition can take. -/
def bound : Parser Nat := do
  return (← get).bound

/-- Moves past the current token. -/
def bump : Parser Unit :=
  modify fun s ↦
    match s.ahead with
    | some l => { s with prev := s.cur.span, cur := l, ahead := none }
    | none =>
      let (x, l) := s.lexer.next
      { s with prev := s.cur.span, cur := l, lexer := x }

/-- The token after the current one. -/
def peekLexeme : Parser Lexeme := do
  let s ← get
  match s.ahead with
  | some l => return l
  | none =>
    let (x, l) := s.lexer.next
    set { s with lexer := x, ahead := some l }
    return l

def peekToken : Parser Token := do
  return (← peekLexeme).token

/-- Whether the token after the current one is `t`. -/
def peekIs (t : Token) : Parser Bool := do
  return (← peekToken) = t

/-- Reads the current token again with another reader. -/
def rereadCur (read : Scan Token) : Parser Unit :=
  modify fun s ↦
    let (x, l) := s.lexer.reread s.cur read
    { s with lexer := x, cur := l, ahead := none }

/-- Ends the parse. -/
def failAt {α : Type} (span : Span) (p : Problem) : Parser α :=
  throw ⟨span, p⟩

def fail {α : Type} (p : Problem) : Parser α := do
  failAt (← curSpan) p

/-- Records a diagnostic and goes on. -/
def record (d : Diagnostic) : Parser Unit :=
  modify fun s ↦
    { s with lexer :=
        { s.lexer with input :=
            { s.lexer.input with problems := d :: s.lexer.input.problems } } }

def isMalformed : Parser Bool := do
  match ← curToken with
  | .malformed _ => return true
  | _ => return false

/-- Records a problem; a malformed current token is recorded first and passed over. -/
def reportAt (span : Span) (p : Problem) : Parser Unit := do
  match ← curToken with
  | .malformed d =>
    bump
    record d
  | _ => pure ()
  record ⟨span, p⟩

/-- Ends the parse with the flaw of a malformed current token. -/
def rejectMalformed : Parser Unit := do
  match ← curToken with
  | .malformed d =>
    bump
    throw d
  | _ => pure ()

def isPunct (p : Punct) : Parser Bool := do
  return (← curToken) = .punct p

def isWord (w : String) : Parser Bool := do
  return (← curToken) = .word w

def isEof : Parser Bool := do
  return (← curToken) = .eof

/-- Whether the current token is a name or keyword. -/
def curWord? : Parser (Option String) := do
  return (← curToken).name?

def curString? : Parser (Option StringLit) := do
  let l ← curLexeme
  match l.token with
  | .string value raw => return some ⟨l.span, value, some raw⟩
  | _ => return none

def eatPunct (p : Punct) : Parser Bool := do
  if ← isPunct p then
    bump
    return true
  return false

def eatWord (w : String) : Parser Bool := do
  if ← isWord w then
    bump
    return true
  return false

def failExpected {α : Type} (what : String) : Parser α := do
  fail (.expected what (← curToken).shown)

def failUnexpected {α : Type} (wanted : String) : Parser α := do
  fail (.unexpectedToken (← curToken).shown wanted)

def expectPunct (p : Punct) : Parser Unit := do
  if !(← eatPunct p) then
    failExpected p.text

def expectWord (w : String) : Parser Unit := do
  if !(← eatWord w) then
    failExpected w

def afterLineEnd : Parser Bool := do
  return (← curLexeme).afterLineEnd

def lineEndAhead : Parser Bool := do
  return (← peekLexeme).afterLineEnd

/-- Whether a statement may end before the current token. -/
def atSemi : Parser Bool := do
  let l ← curLexeme
  return l.afterLineEnd || l.token = .punct .semi || l.token = .punct .rbrace || l.token = .eof

/-- Ends a statement, passing a semicolon if there is one. -/
def eatSemi : Parser Bool := do
  if ← eatPunct .semi then
    return true
  atSemi

def expectSemi : Parser Unit := do
  if !(← eatSemi) then
    failExpected ";"

def isReference : Parser Bool := do
  return (← curToken).isReference

def isOperator : Parser Bool := do
  match ← curToken with
  | .punct (.operator _) => return true
  | _ => return false

/-- Repeats `item` while `more` holds. -/
def whileDo {α : Type} (more : Parser Bool) (item : Parser α) : Parser (List α) := do
  go ((← bound) + 1)
where
  go : Nat → Parser (List α)
    | 0 => return []
    | fuel + 1 => do
      if ← more then
        let x ← item
        let xs ← go fuel
        return x :: xs
      return []

/-- Runs `p` with no labels and no half-read arrow head, and restores them after it. -/
def freshScope {α : Type} (p : Parser α) : Parser α := do
  let s ← get
  set { s with labels := [], arrowStart := none, commas := [] }
  let restore : ParseState → ParseState := fun t ↦
    { t with labels := s.labels, arrowStart := s.arrowStart, commas := s.commas }
  tryCatch
    (do
      let x ← p
      modify restore
      return x)
    fun d ↦ do
      modify restore
      throw d

/-- Whether the source of a list ends in a comma before its last character. -/
def endsInComma (span : Span) : Parser Bool := do
  let s ← get
  let text := takeBytes (dropBytes s.source span.lo) (span.hi - span.lo)
  if byteLength text < 3 then
    return false
  return (Text.trim text.dropLast).getLast? = some ','

end Parser

end BundleLink.Script
