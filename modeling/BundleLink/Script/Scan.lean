import BundleLink.Script.Token
import BundleLink.Text.Basic
import BundleLink.Text.Identifier

/-!
Reading one token at the head of the remaining text. A reader either returns its token or fails with
a diagnostic, and in both cases leaves the input after the characters it has looked through; lesser
problems are recorded on the way. Repetition is bounded by the number of remaining characters.
-/

set_option autoImplicit false

namespace BundleLink.Script

open BundleLink.Text

/-- The unread text, its byte offset, and the problems met so far, latest first. -/
structure Input where
  rest : List Char
  pos : Nat
  problems : List Diagnostic
  /-- No fewer than the characters of `rest`. -/
  bound : Nat
deriving Inhabited

abbrev Scan := EStateM Diagnostic Input

def isIdentStart (c : Char) : Bool :=
  if c.toNat < 0x80 then c.isAlpha || c = '$' || c = '_'
  else identifierStart.has c.toNat

def isIdentPart (c : Char) : Bool :=
  if c.toNat < 0x80 then c.isAlphanum || c = '$' || c = '_'
  else identifierPart.has c.toNat || c = '\u200C' || c = '\u200D'

/-- The number of bytes of a text. -/
def byteLength (cs : List Char) : Nat :=
  cs.foldl (fun n c ↦ n + c.utf8Size) 0

/-- The characters that lie in the first `n` bytes. -/
def takeBytes : List Char → Nat → List Char
  | [], _ => []
  | c :: cs, n => if n = 0 then [] else c :: takeBytes cs (n - c.utf8Size)

/-- The characters after the first `n` bytes. -/
def dropBytes : List Char → Nat → List Char
  | [], _ => []
  | c :: cs, n => if n = 0 then c :: cs else dropBytes cs (n - c.utf8Size)

namespace Scan

def remaining : Scan (List Char) := do
  return (← get).rest

def position : Scan Nat := do
  return (← get).pos

/-- Drops the first `n` characters. -/
def skip (n : Nat) : Scan Unit :=
  modify fun s ↦ { s with rest := s.rest.drop n, pos := s.pos + byteLength (s.rest.take n) }

def peek? : Scan (Option Char) := do
  return (← remaining).head?

def eat (c : Char) : Scan Bool := do
  if (← peek?) = some c then
    skip 1
    return true
  return false

def failAt {α : Type} (span : Span) (p : Problem) : Scan α :=
  throw ⟨span, p⟩

/-- Fails with a range that begins at `lo` and ends here. -/
def failFrom {α : Type} (lo : Nat) (p : Problem) : Scan α := do
  failAt ⟨lo, ← position⟩ p

def reportFrom (lo : Nat) (p : Problem) : Scan Unit :=
  modify fun s ↦ { s with problems := ⟨⟨lo, s.pos⟩, p⟩ :: s.problems }

/-- The source text from `start` to here. -/
def textFrom (start : Input) : Scan String := do
  return String.ofList (takeBytes start.rest ((← position) - start.pos))

/-- What a run of digits consists of. -/
structure DigitRun where
  digits : List Char
  length : Nat
  badSeparator : Bool
deriving Inhabited

/-- At most `limit` digits at the head of a text. A separator is passed over; a digit has to follow
it. -/
def digitRun (radix : Nat) : Nat → List Char → DigitRun
  | _, [] => ⟨[], 0, false⟩
  | limit, c :: cs =>
    if limit = 0 then ⟨[], 0, false⟩
    else if c = '_' then
      let isDigit := (cs.head?.bind (digitValue? radix)).isSome
      let r := digitRun radix limit cs
      ⟨r.digits, r.length + 1, r.badSeparator || !isDigit⟩
    else if (digitValue? radix c).isSome then
      let r := digitRun radix (limit - 1) cs
      ⟨c :: r.digits, r.length + 1, r.badSeparator⟩
    else ⟨[], 0, false⟩

def digitsUpTo (limit radix : Nat) : Scan (List Char) := do
  let lo ← position
  let r := digitRun radix limit (← remaining)
  if r.badSeparator then
    reportFrom lo .numericSeparator
  skip r.length
  return r.digits

def digits (radix : Nat) : Scan (List Char) := do
  digitsUpTo (← get).bound radix

/-- A run of digits that may not be empty. -/
def digitsNonempty (radix : Nat) : Scan (List Char) := do
  let lo ← position
  let ds ← digits radix
  if ds.isEmpty then
    failFrom lo (.expectedDigit radix)
  return ds

/-- Exactly `n` hexadecimal digits, or nothing; what was looked through is consumed. -/
def hexExactly? (n : Nat) : Scan (Option Nat) := do
  let ds ← digitsUpTo n 16
  return if ds.length = n then some (digitsValue 16 ds) else none

/-- The code point in the braces of a Unicode escape. A value that does not fit into 32 bits is none
at all, and half a pair takes four digits. -/
private def bracedEscape (lo : Nat) : Scan Code := do
  let ds ← digits 16
  let value := digitsValue 16 ds
  if ds.isEmpty || UInt32.size ≤ value then
    failFrom lo (.badEscape "1-6 hex characters")
  match Codes.ofNumber? value with
  | none => failFrom lo (.badEscape "1-6 hex characters in the range 0 to 10FFFF.")
  | some code =>
    let isLongHalf :=
      match code with
      | .half _ => ds.length ≠ 4
      | .scalar _ => false
    if isLongHalf || !(← eat '\x7d') then
      failFrom lo .invalidUnicodeEscape
    return code

/-- Four digits. After the first half of a pair the next escape has to have four digits too; if it
is the second half, the two are one. -/
private def fourDigitEscape (lo : Nat) : Scan Code := do
  match (← hexExactly? 4).bind Codes.ofNumber? with
  | none => failFrom lo (.badEscape "4 hex characters")
  | some (.scalar c) => return .scalar c
  | some (.half unit) =>
    let start ← get
    if ← (pure (decide (unit < 0xDC00)) <&&> eat '\\' <&&> eat 'u') then
      match (← hexExactly? 4).bind Codes.ofNumber? with
      | none => failFrom lo (.badEscape "4 hex characters")
      | some low =>
        if let some c := Codes.pair? unit low then
          return .scalar c
    modify fun s ↦ { start with problems := s.problems }
    return .half unit

/-- The part of a Unicode escape after the `u`. -/
def unicodeEscape : Scan Code := do
  let braced ← eat '\x7b'
  let lo ← position
  if braced then bracedEscape lo else fourDigitEscape lo

private def octalDigit? (c : Option Char) : Option Nat :=
  c.bind (digitValue? 8)

/-- An octal escape whose first digit is `first`. -/
def octalEscape (first : Nat) : Scan Code := do
  match octalDigit? (← peek?) with
  | none => return .scalar (Char.ofNat first)
  | some second =>
    skip 1
    let value := first * 8 + second
    match octalDigit? (← peek?) with
    | none => return .scalar (Char.ofNat value)
    | some third =>
      if value * 8 + third < 256 then
        skip 1
        return .scalar (Char.ofNat (value * 8 + third))
      else
        return .scalar (Char.ofNat value)

/-- An escape in a string or template, from its backslash on; a line continuation has no value. -/
def escape (inTemplate : Bool) : Scan (Option Code) := do
  let lo ← position
  skip 1
  match ← peek? with
  | none => failAt ⟨lo, lo⟩ .invalidStringEscape
  | some c =>
    let simple (x : Char) : Scan (Option Code) := do
      skip 1
      return some (.scalar x)
    match c with
    | 'n' => simple '\n'
    | 'r' => simple '\r'
    | 't' => simple '\t'
    | 'b' => simple '\x08'
    | 'v' => simple '\x0b'
    | 'f' => simple '\x0c'
    | '\r' =>
      skip 1
      let _ ← eat '\n'
      return none
    | '\n' | '\u2028' | '\u2029' =>
      skip 1
      return none
    | 'x' =>
      skip 1
      match (← hexExactly? 2).bind Codes.ofNumber? with
      | some code => return some code
      | none => failFrom lo (.badEscape "2 hex characters")
    | 'u' =>
      skip 1
      tryCatch (some <$> unicodeEscape) fun d ↦ failFrom lo d.problem
    | _ =>
      match digitValue? 8 c with
      | some first =>
        skip 1
        if first = 0 ∧ (octalDigit? (← peek?)).isNone then
          return some (.scalar '\x00')
        if inTemplate then
          failFrom lo .legacyOctal
        reportFrom lo .legacyOctal
        some <$> octalEscape first
      | none => simple c

/-- The body of a string literal up to its closing quote. The value is built in reverse: `rev` up to
the last escape, `plain` after it. A line end or the end of the text closes the literal too, with a
problem; then only what follows the last escape is kept. -/
def stringBody (quote : Char) (lo : Nat) : Nat → Codes → Codes → Scan Codes
  | 0, rev, plain => return (plain ++ rev).reverse
  | fuel + 1, rev, plain => do
    match ← peek? with
    | none =>
      reportFrom lo .unterminatedString
      return plain.reverse
    | some c =>
      if c = quote then
        skip 1
        return (plain ++ rev).reverse
      else if c = '\\' then
        match ← escape false with
        | some code => stringBody quote lo fuel (Codes.pushRev (plain ++ rev) code) []
        | none => stringBody quote lo fuel (plain ++ rev) []
      else if c = '\n' ∨ c = '\r' then
        reportFrom lo .unterminatedString
        return plain.reverse
      else
        skip 1
        stringBody quote lo fuel rev (.scalar c :: plain)

def stringLiteral (quote : Char) : Scan Token := do
  let start ← get
  skip 1
  let value ← stringBody quote start.pos (start.bound + 1) [] []
  return .string value (← textFrom start)

/-- A stretch of template text up to the closing quote or the next substitution; the latest bad
escape is kept. -/
def templateBody (lo : Nat) : Nat → Option Diagnostic → Scan (Bool × Option Diagnostic)
  | 0, flaw => return (true, flaw)
  | fuel + 1, flaw => do
    match ← remaining with
    | [] => failFrom lo .unterminatedTemplate
    | '`' :: _ => return (true, flaw)
    | '$' :: '\x7b' :: _ => return (false, flaw)
    | '\\' :: _ =>
      let problem : Option Diagnostic ←
        tryCatch (do let _ ← escape true; pure none) fun d ↦ pure (some d)
      templateBody lo fuel (problem.or flaw)
    | _ :: _ =>
      skip 1
      templateBody lo fuel flaw

/-- A stretch of a template from its opening quote, or from the brace that ends a substitution. -/
def templatePart : Scan Token := do
  let lo ← position
  skip 1
  let start ← get
  let (closed, flaw) ← templateBody lo (start.bound + 1) none
  let raw ← textFrom start
  skip (if closed then 1 else 2)
  return .template raw closed flaw

/-- The characters of a name; each may be written as an escape. -/
def nameBody : Nat → Scan (List Char)
  | 0 => return []
  | fuel + 1 => do
    match ← peek? with
    | none => return []
    | some c =>
      if c = '\\' then
        let lo ← position
        skip 1
        if !(← eat 'u') then
          failAt ⟨lo, lo⟩ .expectedUnicodeEscape
        let code ← unicodeEscape
        if !isIdentPart code.lossy then
          reportFrom lo .invalidIdentChar
        return code.lossy :: (← nameBody fuel)
      else if isIdentPart c then
        skip 1
        return c :: (← nameBody fuel)
      else
        return []

def name : Scan String := do
  return String.ofList (← nameBody ((← get).bound + 1))

/-- A name or keyword. A word that is reserved, in strict code or in any, may not be written with
escapes after its first character. -/
def word (strict : Bool) : Scan Token := do
  let start ← get
  let text ← name
  if start.rest.head? = some '\\' then
    return .escaped text
  let isReserved := if strict then isReservedWord text else isAlwaysReserved text
  if isReserved && (← textFrom start) ≠ text then
    failFrom start.pos (.escapeInReservedWord text)
  return .word text

private def notBeforeIdent : Scan Unit := do
  match ← peek? with
  | some c =>
    if isIdentStart c then
      let p ← position
      failAt ⟨p, p⟩ .identAfterNumber
  | none => return

/-- A literal that begins with `0x`, `0o` or `0b`. -/
def radixNumber (radix : Nat) : Scan Token := do
  let start ← get
  skip 2
  let _ ← digitsNonempty radix
  if ← eat 'n' then
    return .bigInt (← textFrom start)
  notBeforeIdent
  return .number (← textFrom start)

/-- The fraction and exponent of a decimal literal. -/
private def decimalTail (start : Input) : Scan Token := do
  if ← eat '.' then
    let _ ← digits 10
  if (← peek?) = some 'e' ∨ (← peek?) = some 'E' then
    skip 1
    match ← peek? with
    | none =>
      let p ← position
      failAt ⟨p, p⟩ .exponentWithoutDigits
    | some c =>
      if c = '+' ∨ c = '-' then
        skip 1
      let _ ← digitsNonempty 10
  notBeforeIdent
  return .number (← textFrom start)

def decimalNumber : Scan Token := do
  let start ← get
  if start.rest.head? = some '.' then
    decimalTail start
  else
    let ds ← digitsNonempty 10
    let leadingZero := start.rest.head? = some '0'
    if ← (pure (!leadingZero || ds.length = 1) <&&> eat 'n') then
      return .bigInt (← textFrom start)
    if leadingZero ∧ 1 < ds.length then
      if ds.any fun c ↦ c = '8' || c = '9' then
        reportFrom start.pos .legacyDecimal
        decimalTail start
      else
        notBeforeIdent
        reportFrom start.pos .legacyOctal
        return .number (← textFrom start)
    else
      decimalTail start

/-- The pattern of a regular expression up to its closing slash. -/
def regExpBody (lo : Nat) : Nat → Bool → Bool → Scan Unit
  | 0, _, _ => return
  | fuel + 1, escaped, inClass => do
    match ← peek? with
    | none => failFrom lo .unterminatedRegExp
    | some c =>
      if isLineEnd c then
        failFrom lo .unterminatedRegExp
      else if escaped then
        skip 1
        regExpBody lo fuel false inClass
      else if c = '/' ∧ !inClass then
        return
      else
        skip 1
        regExpBody lo fuel (c = '\\') (if c = '[' then true else if c = ']' then false else inClass)

def regExp : Scan Token := do
  let lo ← position
  skip 1
  let start ← get
  regExpBody lo (start.bound + 1) false false
  let pattern ← textFrom start
  skip 1
  match ← peek? with
  | some c =>
    if isIdentStart c then
      let flags ← name
      return .regExp pattern flags
    return .regExp pattern ""
  | none => return .regExp pattern ""

/-- The punctuator at the head of a text and its length; the longest one wins. -/
def punctAt? : List Char → Option (Punct × Nat)
  | '>' :: '>' :: '>' :: '=' :: _ => some (.assign .shiftRightZero, 4)
  | '.' :: '.' :: '.' :: _ => some (.ellipsis, 3)
  | '=' :: '=' :: '=' :: _ => some (.operator .strictEq, 3)
  | '!' :: '=' :: '=' :: _ => some (.operator .strictNotEq, 3)
  | '*' :: '*' :: '=' :: _ => some (.assign .exp, 3)
  | '<' :: '<' :: '=' :: _ => some (.assign .shiftLeft, 3)
  | '>' :: '>' :: '=' :: _ => some (.assign .shiftRight, 3)
  | '>' :: '>' :: '>' :: _ => some (.operator .shiftRightZero, 3)
  | '&' :: '&' :: '=' :: _ => some (.assign .and, 3)
  | '|' :: '|' :: '=' :: _ => some (.assign .or, 3)
  | '?' :: '?' :: '=' :: _ => some (.assign .nullish, 3)
  | '=' :: '>' :: _ => some (.arrow, 2)
  | '=' :: '=' :: _ => some (.operator .eq, 2)
  | '!' :: '=' :: _ => some (.operator .notEq, 2)
  | '+' :: '+' :: _ => some (.plusPlus, 2)
  | '-' :: '-' :: _ => some (.minusMinus, 2)
  | '+' :: '=' :: _ => some (.assign .add, 2)
  | '-' :: '=' :: _ => some (.assign .sub, 2)
  | '*' :: '=' :: _ => some (.assign .mul, 2)
  | '/' :: '=' :: _ => some (.assign .div, 2)
  | '%' :: '=' :: _ => some (.assign .mod, 2)
  | '&' :: '=' :: _ => some (.assign .bitAnd, 2)
  | '|' :: '=' :: _ => some (.assign .bitOr, 2)
  | '^' :: '=' :: _ => some (.assign .bitXor, 2)
  | '*' :: '*' :: _ => some (.operator .exp, 2)
  | '<' :: '<' :: _ => some (.operator .shiftLeft, 2)
  | '>' :: '>' :: _ => some (.operator .shiftRight, 2)
  | '<' :: '=' :: _ => some (.operator .le, 2)
  | '>' :: '=' :: _ => some (.operator .ge, 2)
  | '&' :: '&' :: _ => some (.operator .and, 2)
  | '|' :: '|' :: _ => some (.operator .or, 2)
  | '?' :: '?' :: _ => some (.operator .nullish, 2)
  | '?' :: '.' :: r =>
    if (r.head?.map Char.isDigit).getD false then some (.question, 1) else some (.optionalChain, 2)
  | '(' :: _ => some (.lparen, 1)
  | ')' :: _ => some (.rparen, 1)
  | '\x7b' :: _ => some (.lbrace, 1)
  | '\x7d' :: _ => some (.rbrace, 1)
  | '[' :: _ => some (.lbracket, 1)
  | ']' :: _ => some (.rbracket, 1)
  | ';' :: _ => some (.semi, 1)
  | ',' :: _ => some (.comma, 1)
  | ':' :: _ => some (.colon, 1)
  | '.' :: _ => some (.dot, 1)
  | '?' :: _ => some (.question, 1)
  | '#' :: _ => some (.hash, 1)
  | '@' :: _ => some (.atSign, 1)
  | '!' :: _ => some (.bang, 1)
  | '~' :: _ => some (.tilde, 1)
  | '=' :: _ => some (.assign .assign, 1)
  | '+' :: _ => some (.operator .add, 1)
  | '-' :: _ => some (.operator .sub, 1)
  | '*' :: _ => some (.operator .mul, 1)
  | '/' :: _ => some (.operator .div, 1)
  | '%' :: _ => some (.operator .mod, 1)
  | '<' :: _ => some (.operator .lt, 1)
  | '>' :: _ => some (.operator .gt, 1)
  | '|' :: _ => some (.operator .bitOr, 1)
  | '&' :: _ => some (.operator .bitAnd, 1)
  | '^' :: _ => some (.operator .bitXor, 1)
  | _ => none

/-- The token at the head of a text that begins with neither a blank nor a comment. A slash is an
operator here; the parser asks for `regExp` where an expression begins. -/
def token (strict : Bool) : Scan Token := do
  match ← remaining with
  | [] => return .eof
  | '"' :: _ => stringLiteral '"'
  | '\'' :: _ => stringLiteral '\''
  | '`' :: _ => templatePart
  | '0' :: 'x' :: _ | '0' :: 'X' :: _ => radixNumber 16
  | '0' :: 'o' :: _ | '0' :: 'O' :: _ => radixNumber 8
  | '0' :: 'b' :: _ | '0' :: 'B' :: _ => radixNumber 2
  | c :: cs =>
    if c.isDigit || (c = '.' && (cs.head?.map Char.isDigit).getD false) then
      decimalNumber
    else if c = '\\' || isIdentStart c then
      word strict
    else
      match punctAt? (c :: cs) with
      | some (p, n) =>
        skip n
        return .punct p
      | none =>
        let lo ← position
        skip 1
        failAt ⟨lo, lo⟩ (.unexpectedChar c)

end Scan

end BundleLink.Script
