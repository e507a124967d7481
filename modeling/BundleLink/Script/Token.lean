import BundleLink.Decimal.Shortest
import BundleLink.Script.Diagnostic

/-!
Tokens of a module. Names and keywords are one kind of token; which of them are reserved is decided
by `isReservedWord`. `Token.shown` is the text by which a message names a token.
-/

set_option autoImplicit false

namespace BundleLink.Script

open BundleLink.Decimal

inductive Punct where
  | lparen | rparen | lbrace | rbrace | lbracket | rbracket
  | semi | comma | colon | dot | ellipsis | question | optionalChain | arrow | hash | atSign
  | bang | tilde | plusPlus | minusMinus
  | assign (op : AssignOp)
  | operator (op : BinaryOp)
deriving DecidableEq, Repr, Inhabited

def BinaryOp.text : BinaryOp → String
  | eq => "==" | notEq => "!=" | strictEq => "===" | strictNotEq => "!=="
  | lt => "<" | le => "<=" | gt => ">" | ge => ">="
  | shiftLeft => "<<" | shiftRight => ">>" | shiftRightZero => ">>>"
  | add => "+" | sub => "-" | mul => "*" | div => "/" | mod => "%" | exp => "**"
  | bitOr => "|" | bitXor => "^" | bitAnd => "&"
  | or => "||" | and => "&&" | nullish => "??"
  | isIn => "in" | instanceOf => "instanceof"

/-- Operators of a higher number bind tighter. -/
def BinaryOp.precedence : BinaryOp → Nat
  | or | nullish => 1
  | and => 2
  | bitOr => 3
  | bitXor => 4
  | bitAnd => 5
  | eq | notEq | strictEq | strictNotEq => 6
  | lt | le | gt | ge | isIn | instanceOf => 7
  | shiftLeft | shiftRight | shiftRightZero => 8
  | add | sub => 9
  | mul | div | mod => 10
  | exp => 11

def AssignOp.text : AssignOp → String
  | assign => "=" | add => "+=" | sub => "-=" | mul => "*=" | div => "/=" | mod => "%="
  | shiftLeft => "<<=" | shiftRight => ">>=" | shiftRightZero => ">>>="
  | bitOr => "|=" | bitXor => "^=" | bitAnd => "&=" | exp => "**="
  | and => "&&=" | or => "||=" | nullish => "??="

def UnaryOp.text : UnaryOp → String
  | minus => "-" | plus => "+" | not => "!" | tilde => "~"
  | typeOf => "typeof" | void => "void" | delete => "delete"

def UpdateOp.text : UpdateOp → String
  | increment => "++"
  | decrement => "--"

def Punct.text : Punct → String
  | lparen => "(" | rparen => ")" | lbrace => "\x7b" | rbrace => "\x7d"
  | lbracket => "[" | rbracket => "]"
  | semi => ";" | comma => "," | colon => ":" | dot => "." | ellipsis => "..."
  | question => "?" | optionalChain => "?." | arrow => "=>" | hash => "#" | atSign => "@"
  | bang => "!" | tilde => "~" | plusPlus => "++" | minusMinus => "--"
  | assign op => op.text
  | operator op => op.text

inductive Token where
  | word (name : String)
  /-- A name that begins with an escape; it is never a keyword. -/
  | escaped (name : String)
  | punct (p : Punct)
  | number (raw : String)
  | bigInt (raw : String)
  | string (value : Codes) (raw : String)
  /-- The opening stretch of a template; it is the whole template when `closed`. A bad escape in it
  is an error only if the template has no tag. -/
  | template (raw : String) (closed : Bool) (flaw : Option Diagnostic)
  | regExp (pattern flags : String)
  | eof
  | malformed (d : Diagnostic)
deriving DecidableEq, Repr, Inhabited

/-- Keywords in every code. -/
def isPlainKeyword (w : String) : Bool :=
  ["null", "true", "false", "break", "case", "catch", "continue", "debugger", "default", "do",
   "export", "else", "finally", "for", "function", "if", "return", "switch", "throw", "try",
   "var", "const", "while", "with", "new", "this", "super", "class", "extends", "import", "in",
   "instanceof", "typeof", "void", "delete"].contains w

/-- Words with a role in the grammar of module code. -/
def isKeyword (w : String) : Bool :=
  isPlainKeyword w || ["let", "await", "yield"].contains w

/-- Words that no code may use as references. -/
def isAlwaysReserved (w : String) : Bool :=
  isPlainKeyword w || w = "enum"

/-- Words that module code, which is strict, may not use as references. -/
def isReservedWord (w : String) : Bool :=
  isKeyword w ||
    ["enum", "implements", "package", "protected", "interface", "private", "public"].contains w

/-- The name that a token spells. -/
def Token.name? : Token → Option String
  | word name | escaped name => some name
  | _ => none

/-- Whether a token can be a reference: module code reserves `let`, `await` and `yield`. -/
def Token.isReference : Token → Bool
  | word name => !isReservedWord name
  | escaped _ => true
  | _ => false

/-- Words that a message about exported names treats as needing a source. -/
def isReservedExport (w : String) : Bool :=
  ["break", "case", "catch", "class", "const", "continue", "debugger", "default", "delete", "do",
   "else", "enum", "export", "extends", "false", "finally", "for", "function", "if", "import",
   "in", "instanceof", "new", "null", "package", "return", "super", "switch", "this", "throw",
   "true", "try", "typeof", "var", "void", "while", "with"].contains w

/-- Names that strict code keeps for later use. -/
def isStrictReserved (w : String) : Bool :=
  ["yield", "let", "static", "implements", "interface", "package", "private", "protected",
   "public"].contains w

/-- The value of a digit, when it has one in base `radix`. -/
def digitValue? (radix : Nat) (c : Char) : Option Nat :=
  let v :=
    if c.isDigit then c.toNat - '0'.toNat
    else if 'a' ≤ c ∧ c ≤ 'f' then c.toNat - 'a'.toNat + 10
    else if 'A' ≤ c ∧ c ≤ 'F' then c.toNat - 'A'.toNat + 10
    else 99
  if v < radix then some v else none

/-- The natural number written by `cs` in base `radix`; other characters are passed over. -/
def digitsValue (radix : Nat) (cs : List Char) : Nat :=
  cs.foldl (fun n c ↦ match digitValue? radix c with | some v => n * radix + v | none => n) 0

private def legacyOctalDigits (cs : List Char) : Bool :=
  match cs with
  | '0' :: r@(_ :: _) => r.all fun c ↦ '0' ≤ c && c ≤ '7'
  | _ => false

/-- The value of a numeric literal, rounded to binary64; `none` when it is too large. -/
def numberValue? (raw : String) : Option Binary64 :=
  let cs := raw.toList.filter (· ≠ '_')
  match cs with
  | '0' :: 'x' :: r | '0' :: 'X' :: r => Binary64.ofNat? (digitsValue 16 r)
  | '0' :: 'o' :: r | '0' :: 'O' :: r => Binary64.ofNat? (digitsValue 8 r)
  | '0' :: 'b' :: r | '0' :: 'B' :: r => Binary64.ofNat? (digitsValue 2 r)
  | _ =>
    if legacyOctalDigits cs then Binary64.ofNat? (digitsValue 8 cs)
    else
      let mant := cs.takeWhile fun c ↦ c ≠ 'e' && c ≠ 'E'
      let tail := (cs.drop mant.length).drop 1
      let frac := (mant.dropWhile (· ≠ '.')).drop 1
      let exp : Int :=
        match tail with
        | '-' :: r => -(digitsValue 10 r : Int)
        | r => digitsValue 10 r
      let d := digitsValue 10 mant
      let e := exp - frac.length
      if d = 0 ∨ e < -400 - mant.length then some Binary64.zero
      else if 400 < e then none
      else
        let (n, m) := scaleTen d 1 (-e)
        Binary64.ofRatio? n m

/-- The value of a numeric literal in plain digits. -/
def numberShown (raw : String) : String :=
  match numberValue? raw with
  | some x => plainText x
  | none => "inf"

/-- The value of a big integer literal in plain digits. -/
def bigIntShown (raw : String) : String :=
  let cs := raw.toList.filter fun c ↦ c ≠ '_' && c ≠ 'n'
  match cs with
  | '0' :: 'x' :: r | '0' :: 'X' :: r => toString (digitsValue 16 r)
  | '0' :: 'o' :: r | '0' :: 'O' :: r => toString (digitsValue 8 r)
  | '0' :: 'b' :: r | '0' :: 'B' :: r => toString (digitsValue 2 r)
  | _ => toString (digitsValue 10 cs)

private def codesShown (v : Codes) : String :=
  String.join (v.map fun
    | .scalar c => c.toString
    | .half u => "\\u\x7b" ++ String.ofList ((Nat.toDigits 16 u).map Char.toUpper) ++ "\x7d")

def Token.shown : Token → String
  | word name | escaped name => name
  | punct p => p.text
  | number raw => "numeric literal (" ++ numberShown raw ++ ", " ++ raw ++ ")"
  | bigInt raw => "bigint literal (" ++ bigIntShown raw ++ ", " ++ raw ++ ")"
  | string value raw => "string literal (\"" ++ codesShown value ++ "\", " ++ raw ++ ")"
  | template raw _ _ => raw
  | regExp pattern flags => "regexp literal (" ++ pattern ++ ", " ++ flags ++ ")"
  | eof => "<eof>"
  | malformed d => d.asToken

end BundleLink.Script
