import BundleLink.Json.Value

/-!
Reading JSON. A reader takes the characters that remain and returns its result with those after it,
or a fault. Containers nest at most 127 deep. `Value.read` reads a whole document and locates a
fault by line and by byte.
-/

set_option autoImplicit false

namespace BundleLink.Json

open BundleLink.Decimal

inductive Problem where
  | eofList
  | eofObject
  | eofString
  | eofValue
  | expectedColon
  | expectedListEnd
  | expectedObjectEnd
  | expectedIdent
  | expectedValue
  | invalidEscape
  | invalidNumber
  | numberOutOfRange
  | controlCharacter
  | keyNotString
  | loneSurrogate
  | trailingComma
  | trailingCharacters
  | endOfEscape
  | tooDeep
deriving DecidableEq, Repr, Inhabited

def Problem.message : Problem → String
  | eofList => "EOF while parsing a list"
  | eofObject => "EOF while parsing an object"
  | eofString => "EOF while parsing a string"
  | eofValue => "EOF while parsing a value"
  | expectedColon => "expected `:`"
  | expectedListEnd => "expected `,` or `]`"
  | expectedObjectEnd => "expected `,` or `\x7d`"
  | expectedIdent => "expected ident"
  | expectedValue => "expected value"
  | invalidEscape => "invalid escape"
  | invalidNumber => "invalid number"
  | numberOutOfRange => "number out of range"
  | controlCharacter => "control character (\\u0000-\\u001F) found while parsing a string"
  | keyNotString => "key must be a string"
  | loneSurrogate => "lone leading surrogate in hex escape"
  | trailingComma => "trailing comma"
  | trailingCharacters => "trailing characters"
  | endOfEscape => "unexpected end of hex escape"
  | tooDeep => "recursion limit exceeded"

/-- A problem `beyond` bytes after the point where `rest` begins, or at the end of the text. -/
structure Fault where
  problem : Problem
  rest : List Char
  beyond : Nat
deriving Repr, Inhabited

/-- A result and the characters after it. -/
abbrev Reading (α : Type) := α × List Char

def fault {α : Type} (p : Problem) (rest : List Char) (beyond : Nat) : Except Fault α :=
  .error ⟨p, rest, beyond⟩

def isBlank (c : Char) : Bool :=
  c = ' ' || c = '\n' || c = '\t' || c = '\r'

def skipBlanks (cs : List Char) : List Char :=
  cs.dropWhile isBlank

/-! ### Strings -/

def hexValue? (c : Char) : Option Nat :=
  if c.isDigit then some (c.toNat - '0'.toNat)
  else if 'a' ≤ c ∧ c ≤ 'f' then some (c.toNat - 'a'.toNat + 10)
  else if 'A' ≤ c ∧ c ≤ 'F' then some (c.toNat - 'A'.toNat + 10)
  else none

private def byteCount (cs : List Char) : Nat :=
  cs.foldl (fun n c ↦ n + c.utf8Size) 0

/-- Four hexadecimal digits. -/
def hexUnit (cs : List Char) : Except Fault (Reading Nat) :=
  match cs with
  | a :: b :: c :: d :: rest =>
    match hexValue? a, hexValue? b, hexValue? c, hexValue? d with
    | some a, some b, some c, some d => .ok (((a * 16 + b) * 16 + c) * 16 + d, rest)
    | _, _, _, _ => fault .invalidEscape cs 4
  | _ => if 4 ≤ byteCount cs then fault .invalidEscape cs 4 else fault .eofString [] 0

/-- What follows `\u`: one unit, or two that encode a character together. -/
def unicodeEscape (cs : List Char) : Except Fault (Reading Char) := do
  let (high, rest) ← hexUnit cs
  if 0xDC00 ≤ high ∧ high < 0xE000 then
    fault .loneSurrogate rest 0
  else if high < 0xD800 ∨ 0xE000 ≤ high then
    return (Char.ofNat high, rest)
  else
    match rest with
    | [] => fault .eofString rest 0
    | '\\' :: [] => fault .eofString [] 0
    | '\\' :: 'u' :: rest =>
      let (low, rest) ← hexUnit rest
      if 0xDC00 ≤ low ∧ low < 0xE000 then
        return (Char.ofNat (0x10000 + (high - 0xD800) * 0x400 + (low - 0xDC00)), rest)
      else
        fault .loneSurrogate rest 0
    | '\\' :: rest => fault .endOfEscape rest 1
    | _ => fault .endOfEscape rest 1

/-- What follows a backslash. -/
def escape (cs : List Char) : Except Fault (Reading Char) :=
  match cs with
  | [] => fault .eofString cs 0
  | '"' :: rest => .ok ('"', rest)
  | '\\' :: rest => .ok ('\\', rest)
  | '/' :: rest => .ok ('/', rest)
  | 'b' :: rest => .ok ('\x08', rest)
  | 'f' :: rest => .ok ('\x0c', rest)
  | 'n' :: rest => .ok ('\n', rest)
  | 'r' :: rest => .ok ('\r', rest)
  | 't' :: rest => .ok ('\t', rest)
  | 'u' :: rest => unicodeEscape rest
  | _ => fault .invalidEscape cs 1

/-- The characters up to the closing quotation mark, which is passed. -/
def stringBody : Nat → List Char → Except Fault (Reading (List Char))
  | 0, cs => fault .eofString cs 0
  | fuel + 1, cs =>
    match cs with
    | [] => fault .eofString [] 0
    | '"' :: rest => .ok ([], rest)
    | '\\' :: rest => do
      let (c, rest) ← escape rest
      let (s, rest) ← stringBody fuel rest
      return (c :: s, rest)
    | c :: rest =>
      if c.toNat < 0x20 then fault .controlCharacter cs 1
      else do
        let (s, rest) ← stringBody fuel rest
        return (c :: s, rest)

/-- What follows an opening quotation mark. -/
def stringRest (cs : List Char) : Except Fault (Reading String) := do
  let (s, rest) ← stringBody (cs.length + 1) cs
  return (String.ofList s, rest)

/-! ### Numbers -/

def maxUnsigned : Nat := UInt64.size - 1

def digit (c : Char) : Nat :=
  c.toNat - '0'.toNat

/-- Appends digits to a significand while it fits into 64 bits; the digits that no longer do are
returned. -/
def intake (significand : Nat) : List Char → Nat × List Char
  | [] => (significand, [])
  | c :: cs =>
    let next := significand * 10 + digit c
    if maxUnsigned < next then (significand, c :: cs) else intake next cs

private def tenTo (n : Nat) : Binary64 :=
  (Binary64.ofNat? (Nat.pow 10 n)).getD .zero

/-- Divides by a power of ten, in steps no power of which is out of range. -/
private def shrink : Nat → Binary64 → Nat → Binary64
  | 0, x, _ => x
  | fuel + 1, x, n =>
    if n ≤ 308 then (x.div? (tenTo n)).getD .zero
    else if x.mant = 0 then x
    else shrink fuel ((x.div? (tenTo 308)).getD .zero) (n - 308)

/-- `significand · 10 ^ exp`: the significand is rounded first, then the product. -/
def scaled? (significand : Nat) (exp : Int) : Option Binary64 :=
  match Binary64.ofNat? significand with
  | none => none
  | some x =>
    match exp with
    | .ofNat n =>
      if n ≤ 308 then x.mul? (tenTo n)
      else if x.mant = 0 then some x
      else none
    | .negSucc n => some (shrink 5 x (n + 1))

private def maxExponent : Nat := 0x7FFFFFFF

/-- Reads digits of an exponent; `none` if it is too large, with the rest after the digit that made
it so. -/
def exponentDigits (e : Nat) : List Char → Option Nat × List Char
  | [] => (some e, [])
  | c :: cs =>
    if c.isDigit then
      if maxExponent < e * 10 + digit c then (none, cs)
      else exponentDigits (e * 10 + digit c) cs
    else (some e, c :: cs)

def realResult (negative : Bool) (significand : Nat) (exp : Int) (rest : List Char) :
    Except Fault (Reading Value) :=
  match scaled? significand exp with
  | some x => .ok (.real negative x, rest)
  | none => fault .numberOutOfRange rest 0

/-- What follows the letter of an exponent. -/
def exponentPart (negative : Bool) (significand : Nat) (exp : Int) (cs : List Char) :
    Except Fault (Reading Value) :=
  let (down, cs) : Bool × List Char :=
    match cs with
    | '+' :: rest => (false, rest)
    | '-' :: rest => (true, rest)
    | _ => (false, cs)
  match cs with
  | [] => fault .eofValue cs 0
  | c :: _ =>
    if !c.isDigit then fault .invalidNumber cs 1
    else
      match exponentDigits 0 cs with
      | (some e, rest) =>
        realResult negative significand (if down then exp - e else exp + e) rest
      | (none, rest) =>
        if significand ≠ 0 ∧ ¬down then fault .numberOutOfRange rest 0
        else .ok (.real negative .zero, rest.dropWhile Char.isDigit)

def isExponentMark (c : Char) : Bool :=
  c = 'e' || c = 'E'

/-- What follows a decimal point. -/
def fractionPart (negative : Bool) (significand : Nat) (exp : Int) (cs : List Char) :
    Except Fault (Reading Value) :=
  let ds := cs.takeWhile Char.isDigit
  let rest := cs.dropWhile Char.isDigit
  if ds.isEmpty then
    if cs.isEmpty then fault .eofValue cs 1 else fault .invalidNumber cs 1
  else
    let (significand, excess) := intake significand ds
    let exp := exp - (ds.length - excess.length : Nat)
    match rest with
    | c :: after =>
      if isExponentMark c then exponentPart negative significand exp after
      else realResult negative significand exp rest
    | [] => realResult negative significand exp rest

/-- A whole number that keeps its digits, or a real one: a negative zero, or one out of range. -/
def wholeResult (negative : Bool) (significand : Nat) (rest : List Char) :
    Except Fault (Reading Value) :=
  if !negative then .ok (.int significand, rest)
  else if significand = 0 ∨ UInt64.size / 2 < significand then realResult true significand 0 rest
  else .ok (.int (-significand), rest)

/-- The digits of a number after its sign. -/
def number (negative : Bool) (cs : List Char) : Except Fault (Reading Value) :=
  match cs with
  | [] => fault .eofValue cs 0
  | c :: after =>
    if !c.isDigit then fault .invalidNumber cs 1
    else if c = '0' ∧ (after.head?.any Char.isDigit) then fault .invalidNumber after 1
    else
      let (significand, excess) := intake 0 (cs.takeWhile Char.isDigit)
      let exp : Int := excess.length
      match cs.dropWhile Char.isDigit with
      | '.' :: rest => fractionPart negative significand exp rest
      | rest =>
        match rest with
        | e :: tail =>
          if isExponentMark e then exponentPart negative significand exp tail
          else if excess.isEmpty then wholeResult negative significand rest
          else realResult negative significand exp rest
        | [] =>
          if excess.isEmpty then wholeResult negative significand rest
          else realResult negative significand exp rest

/-! ### Values -/

/-- The rest of a literal name. -/
def ident (word : List Char) (v : Value) (cs : List Char) : Except Fault (Reading Value) :=
  match word, cs with
  | [], _ => .ok (v, cs)
  | _ :: _, [] => fault .eofValue [] 0
  | w :: ws, c :: rest => if c = w then ident ws v rest else fault .expectedIdent cs 1

/-- The colon after a key. -/
def colon (cs : List Char) : Except Fault (Reading Unit) :=
  match skipBlanks cs with
  | [] => fault .eofObject [] 0
  | ':' :: rest => .ok ((), rest)
  | rest => fault .expectedColon rest 1

/-- The beginning of an item after the first. -/
def nextItem : List Char → Except Fault (List Char)
  | ',' :: rest =>
    match skipBlanks rest with
    | [] => fault .eofValue [] 0
    | ']' :: rest => fault .trailingComma (']' :: rest) 1
    | rest => .ok rest
  | rest => fault .expectedListEnd rest 1

/-- Passes the quotation mark of the first key. -/
def firstKey : List Char → Except Fault (List Char)
  | '"' :: rest => .ok rest
  | rest => fault .keyNotString rest 1

/-- Passes the comma and the quotation mark before another key. -/
def nextKey : List Char → Except Fault (List Char)
  | ',' :: rest =>
    match skipBlanks rest with
    | [] => fault .eofValue [] 0
    | '"' :: rest => .ok rest
    | '\x7d' :: rest => fault .trailingComma ('\x7d' :: rest) 1
    | rest => fault .keyNotString rest 1
  | rest => fault .expectedObjectEnd rest 1

mutual

/-- A value inside containers; `depth` counts how many more may be opened. -/
def value : Nat → Nat → List Char → Except Fault (Reading Value)
  | 0, _, cs => fault .eofValue cs 0
  | fuel + 1, depth, cs =>
    match skipBlanks cs with
    | [] => fault .eofValue [] 0
    | 'n' :: rest => ident "ull".toList .null rest
    | 't' :: rest => ident "rue".toList (.bool true) rest
    | 'f' :: rest => ident "alse".toList (.bool false) rest
    | '-' :: rest => number true rest
    | '"' :: rest => do
      let (s, rest) ← stringRest rest
      return (.string s, rest)
    | '[' :: rest =>
      if depth = 0 then fault .tooDeep ('[' :: rest) 1
      else do
        let (vs, rest) ← items fuel (depth - 1) true rest
        return (.array vs, rest)
    | '\x7b' :: rest =>
      if depth = 0 then fault .tooDeep ('\x7b' :: rest) 1
      else do
        let (es, rest) ← members fuel (depth - 1) true rest
        return (.object (Entries.ofList es), rest)
    | c :: rest =>
      if c.isDigit then number false (c :: rest) else fault .expectedValue (c :: rest) 1

/-- Items up to a closing bracket, which is passed. -/
def items : Nat → Nat → Bool → List Char → Except Fault (Reading (List Value))
  | 0, _, _, cs => fault .eofList cs 0
  | fuel + 1, depth, first, cs => do
    match skipBlanks cs with
    | [] => fault .eofList [] 0
    | ']' :: rest => return ([], rest)
    | rest =>
      let start ← if first then .ok rest else nextItem rest
      let (v, rest) ← value fuel depth start
      let (vs, rest) ← items fuel depth false rest
      return (v :: vs, rest)

/-- Entries up to a closing brace, which is passed. -/
def members : Nat → Nat → Bool → List Char → Except Fault (Reading (List (String × Value)))
  | 0, _, _, cs => fault .eofObject cs 0
  | fuel + 1, depth, first, cs => do
    match skipBlanks cs with
    | [] => fault .eofObject [] 0
    | '\x7d' :: rest => return ([], rest)
    | rest =>
      let start ← if first then firstKey rest else nextKey rest
      let (key, rest) ← stringRest start
      let ((), rest) ← colon rest
      let (v, rest) ← value fuel depth rest
      let (es, rest) ← members fuel depth false rest
      return ((key, v) :: es, rest)

end

/-- The line of a position, counted from one, and the number of bytes before it on that line. -/
structure Location where
  line : Nat
  column : Nat
deriving DecidableEq, Repr, Inhabited

private def locate (text : List Char) (offset : Nat) : Location :=
  go text offset ⟨1, 0⟩
where
  go : List Char → Nat → Location → Location
    | [], _, l => l
    | c :: cs, n, l =>
      if n < c.utf8Size then ⟨l.line, l.column + n⟩
      else if c = '\n' then go cs (n - 1) ⟨l.line + 1, 0⟩
      else go cs (n - c.utf8Size) ⟨l.line, l.column + c.utf8Size⟩

/-- What is wrong with a document, and where. -/
structure Flaw where
  problem : Problem
  location : Location
deriving DecidableEq, Repr, Inhabited

def Flaw.message (f : Flaw) : String :=
  f.problem.message ++ " at line " ++ toString f.location.line ++ " column " ++
    toString f.location.column

private def Fault.flaw (f : Fault) (text : List Char) : Flaw :=
  let total := byteCount text
  ⟨f.problem, locate text (min total (total - byteCount f.rest + f.beyond))⟩

/-- A document: one value with blanks around it. -/
def document (cs : List Char) : Except Fault Value :=
  match value (2 * cs.length + 2) 127 cs with
  | .error f => .error f
  | .ok (v, rest) =>
    match skipBlanks rest with
    | [] => .ok v
    | rest => fault .trailingCharacters rest 1

/-- Reads a document. -/
def Value.read (text : String) : Except Flaw Value :=
  (document text.toList).mapError (·.flaw text.toList)

end BundleLink.Json
