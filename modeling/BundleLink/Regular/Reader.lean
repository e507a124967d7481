import BundleLink.Regular.Basic

/-!
How regular expressions are written: alternatives between bars, groups in parentheses, sets in
brackets, the repetitions `*`, `+`, `?` and counts in braces, and escapes for sets and edges. The
message of a flaw shows the text with the faulty part marked under it.
-/

set_option autoImplicit false

namespace BundleLink.Regular

inductive Problem where
  | unclosedGroup
  | unopenedGroup
  | nothingToRepeat
  | unclosedCount
  | missingCount
  | invalidCount
  | unclosedSet
  | invalidRange
  | incompleteEscape
  | unknownEscape
  | backreference
  | lookAround
  | unknownFlag
deriving DecidableEq, Repr, Inhabited

def Problem.message : Problem → String
  | unclosedGroup => "unclosed group"
  | unopenedGroup => "unopened group"
  | nothingToRepeat => "repetition operator missing expression"
  | unclosedCount => "unclosed counted repetition"
  | missingCount => "repetition quantifier expects a valid decimal"
  | invalidCount => "invalid repetition count range, the start must be <= the end"
  | unclosedSet => "unclosed character class"
  | invalidRange => "invalid character class range, the start must be <= the end"
  | incompleteEscape => "incomplete escape sequence, reached end of pattern prematurely"
  | unknownEscape => "unrecognized escape sequence"
  | backreference => "backreferences are not supported"
  | lookAround => "look-around, including look-ahead and look-behind, is not supported"
  | unknownFlag => "unrecognized flag"

/-- A problem at the head of the remaining text, and how many of its characters are at fault. -/
structure Flaw where
  problem : Problem
  rest : List Char
  length : Nat
deriving DecidableEq, Repr, Inhabited

/-- What is wrong with a text. -/
def Flaw.message (f : Flaw) (text : String) : String :=
  "regex parse error:\n    " ++ text ++ "\n    " ++
    String.ofList (List.replicate (text.length - f.rest.length) ' ') ++
    String.ofList (List.replicate (max 1 f.length) '^') ++ "\nerror: " ++ f.problem.message

/-- What the letters after `(?` turn on. -/
structure Flags where
  caseless : Bool := false
  /-- `^` and `$` stand for the ends of lines. -/
  byLine : Bool := false
  /-- A dot stands for line ends too. -/
  dotAll : Bool := false
deriving DecidableEq, Repr, Inhabited

/-- A value and the text after it. -/
abbrev Reading (α : Type) := α × List Char

private def fault {α : Type} (p : Problem) (rest : List Char) (length : Nat) : Except Flaw α :=
  .error ⟨p, rest, length⟩

/-- The set named by the letter of an escape; the capital stands for the other characters. -/
def namedSet? : Char → Option CharSet
  | 'd' => some .digit
  | 's' => some .blank
  | 'w' => some .word
  | 'D' => some (.not .digit)
  | 'S' => some (.not .blank)
  | 'W' => some (.not .word)
  | _ => none

def namedEdge? : Char → Option Edge
  | 'A' => some .textStart
  | 'z' => some .textEnd
  | 'b' => some .word
  | 'B' => some .noWord
  | _ => none

def namedChar? : Char → Option Char
  | 'n' => some '\n'
  | 't' => some '\t'
  | 'r' => some '\r'
  | 'f' => some '\x0c'
  | 'v' => some '\x0b'
  | 'a' => some '\x07'
  | c => if c.isAlphanum || 0x80 ≤ c.toNat || c = '<' || c = '>' then none else some c

private def letters : CharSet :=
  .union (.range 'a' 'z') (.range 'A' 'Z')

private def digits : CharSet :=
  .range '0' '9'

/-- The sets of ASCII characters that are named between colons. -/
private def asciiSets : List (String × CharSet) :=
  [("alpha", letters), ("digit", digits), ("alnum", .union letters digits),
    ("lower", .range 'a' 'z'), ("upper", .range 'A' 'Z'),
    ("word", .union (.single '_') (.union letters digits)),
    ("xdigit", .union digits (.union (.range 'a' 'f') (.range 'A' 'F'))),
    ("space", .union (.range '\t' '\r') (.single ' ')),
    ("blank", .union (.single '\t') (.single ' ')),
    ("punct", .inter (.range '!' '~') (.not (.union letters digits))),
    ("print", .range ' ' '~'), ("graph", .range '!' '~'), ("ascii", .range '\x00' '\x7f'),
    ("cntrl", .union (.range '\x00' '\x1f') (.single '\x7f'))]

/-- A set named between colons, from its opening bracket on. -/
private def colonSet? (cs : List Char) : Option (Reading CharSet) :=
  asciiSets.findSome? fun (name, s) ↦
    let plain := ("[:" ++ name ++ ":]").toList
    let negated := ("[:^" ++ name ++ ":]").toList
    if plain.isPrefixOf cs then some (s, cs.drop plain.length)
    else if negated.isPrefixOf cs then some (.not s, cs.drop negated.length)
    else none

/-- A member of a set after its backslash. -/
private def escapedMember (start : List Char) :
    List Char → Except Flaw (Reading (CharSet ⊕ Char))
  | [] => fault .incompleteEscape start 1
  | c :: cs =>
    match namedSet? c, namedChar? c with
    | some s, _ => .ok (.inl s, cs)
    | none, some d => .ok (.inr d, cs)
    | none, none => fault .unknownEscape start 2

private def member (cs : List Char) : Except Flaw (Reading (CharSet ⊕ Char)) :=
  match cs with
  | [] => fault .unclosedSet [] 1
  | '\\' :: rest => escapedMember cs rest
  | c :: rest => .ok (.inr c, rest)

/-- How a set begins: whether it is negated, and the bracket that is its first member. -/
private def setHead : List Char → Bool × CharSet × List Char
  | '^' :: ']' :: cs => (true, .single ']', cs)
  | '^' :: cs => (true, .none, cs)
  | ']' :: cs => (false, .single ']', cs)
  | cs => (false, .none, cs)

/-- The members of a set up to its closing bracket; `start` is the text from the opening one on. -/
private def members (start : List Char) :
    Nat → CharSet → List Char → Except Flaw (Reading CharSet)
  | 0, _, _ => fault .unclosedSet start 1
  | fuel + 1, found, cs =>
    match cs with
    | [] => fault .unclosedSet start 1
    | ']' :: rest => .ok (found, rest)
    | '&' :: '&' :: rest => do
      let (other, rest) ← members start fuel .none rest
      return (.inter found other, rest)
    | '[' :: rest =>
      match colonSet? cs with
      | some (s, rest) => members start fuel (.union found s) rest
      | none => do
        let (negated, first, rest) := setHead rest
        let (s, rest) ← members cs fuel first rest
        members start fuel (.union found (if negated then .not s else s)) rest
    | _ => do
      let (low, rest) ← member cs
      match low, rest with
      | .inr a, '-' :: c :: after =>
        if c = ']' then members start fuel (.union found (.single a)) rest
        else
          match ← member (c :: after) with
          | (.inr b, rest) =>
            if b < a then fault .invalidRange cs (cs.length - rest.length)
            else members start fuel (.union found (.range a b)) rest
          | (.inl s, rest) => members start fuel (.union found s) rest
      | .inr a, _ => members start fuel (.union found (.single a)) rest
      | .inl s, _ => members start fuel (.union found s) rest

/-- A set from its opening bracket on. -/
private def bracketed (start : List Char) : Except Flaw (Reading CharSet) := do
  let (negated, first, rest) := setHead (start.drop 1)
  let (s, rest) ← members start (rest.length + 1) first rest
  return (if negated then .not s else s, rest)

private def number (cs : List Char) : Option Nat × List Char :=
  let ds := cs.takeWhile Char.isDigit
  (if ds.isEmpty then none else (String.ofList ds).toNat?, cs.dropWhile Char.isDigit)

/-- The bounds of a count from its opening brace on. -/
private def counts (start : List Char) : Except Flaw (Reading (Nat × Option Nat)) := do
  let (least?, rest) := number (start.drop 1)
  let (most, rest) ← (match rest with
    | ',' :: rest =>
      let (most, rest) := number rest
      .ok (most, rest)
    | _ =>
      match least? with
      | some n => .ok (some n, rest)
      | none => fault (if rest.isEmpty then .unclosedCount else .missingCount) start 1
    : Except Flaw (Reading (Option Nat)))
  let least := least?.getD 0
  match rest with
  | '\x7d' :: after =>
    if most.any (· < least) then fault .invalidCount start (start.length - after.length)
    else return ((least, most), after)
  | _ => fault .unclosedCount start (start.length - rest.length)

/-- The repetitions that follow an expression; a question mark after one has no bearing on whether
there is a match. -/
private def repetitions : Nat → Expr → List Char → Except Flaw (Reading Expr)
  | 0, e, cs => .ok (e, cs)
  | fuel + 1, e, cs =>
    let lazily : List Char → List Char := fun rest ↦
      match rest with
      | '?' :: rest => rest
      | _ => rest
    match cs with
    | '*' :: rest => repetitions fuel (.repeated 0 none e) (lazily rest)
    | '+' :: rest => repetitions fuel (.repeated 1 none e) (lazily rest)
    | '?' :: rest => repetitions fuel (.repeated 0 (some 1) e) (lazily rest)
    | '\x7b' :: _ => do
      let ((least, most), rest) ← counts cs
      repetitions fuel (.repeated least most e) (lazily rest)
    | _ => .ok (e, cs)

/-- Flags from after `(?` on. -/
private def flagLetters : Flags → List Char → Except Flaw (Reading Flags)
  | flags, 'i' :: cs => flagLetters { flags with caseless := true } cs
  | flags, 'm' :: cs => flagLetters { flags with byLine := true } cs
  | flags, 's' :: cs => flagLetters { flags with dotAll := true } cs
  | flags, ')' :: cs => .ok (flags, ')' :: cs)
  | flags, ':' :: cs => .ok (flags, ':' :: cs)
  | _, cs => fault .unknownFlag cs 1

/-- What a group begins with: its flags, or that it only sets flags for what follows. -/
private def groupHead (flags : Flags) (start : List Char) :
    Except Flaw (Reading (Flags × Bool)) :=
  match start.drop 1 with
  | '?' :: '=' :: _ | '?' :: '!' :: _ => fault .lookAround start 3
  | '?' :: '<' :: '=' :: _ | '?' :: '<' :: '!' :: _ => fault .lookAround start 4
  | '?' :: '<' :: cs | '?' :: 'P' :: '<' :: cs =>
    .ok ((flags, false), (cs.dropWhile (· ≠ '>')).drop 1)
  | '?' :: cs => do
    let (inner, rest) ← flagLetters flags cs
    return ((inner, rest.head? = some ')'), rest.drop 1)
  | cs => .ok ((flags, false), cs)

private def escapedExpr (start : List Char) : Except Flaw (Reading Expr) :=
  match start.drop 1 with
  | [] => fault .incompleteEscape start 1
  | c :: cs =>
    match namedEdge? c, namedSet? c, namedChar? c with
    | some e, _, _ => .ok (.edge e, cs)
    | none, some s, _ => .ok (.char s, cs)
    | none, none, some d => .ok (.char (.single d), cs)
    | none, none, none => fault (if c.isDigit then .backreference else .unknownEscape) start 2

private def cased (flags : Flags) : Expr → Expr
  | .char s => .char (if flags.caseless then .caseless s else s)
  | e => e

/-- One character, set or edge. -/
private def atom (flags : Flags) (start : List Char) : Except Flaw (Reading Expr) :=
  match start with
  | '[' :: _ => do
    let (s, rest) ← bracketed start
    return (.char s, rest)
  | '\\' :: _ => escapedExpr start
  | '.' :: cs => .ok (.char (if flags.dotAll then .any else .not (.single '\n')), cs)
  | '^' :: cs => .ok (.edge (if flags.byLine then .lineStart else .textStart), cs)
  | '$' :: cs => .ok (.edge (if flags.byLine then .lineEnd else .textEnd), cs)
  | '*' :: _ | '+' :: _ | '?' :: _ | '\x7b' :: _ => fault .nothingToRepeat start 1
  | c :: cs => .ok (.char (.single c), cs)
  | [] => .ok (.empty, [])

/-- The rest of a group, after the part `left` of its current alternative. -/
private def alternatives : Nat → Flags → Expr → List Char → Except Flaw (Reading Expr)
  | 0, _, left, cs => .ok (left, cs)
  | fuel + 1, flags, left, cs =>
    match cs with
    | [] | ')' :: _ => .ok (left, cs)
    | '|' :: rest => do
      let (right, rest) ← alternatives fuel flags .empty rest
      return (.alt left right, rest)
    | '(' :: _ => do
      let ((inner, bare), rest) ← groupHead flags cs
      if bare then alternatives fuel inner left rest
      else
        let (e, rest) ← alternatives fuel inner .empty rest
        match rest with
        | ')' :: rest =>
          let (e, rest) ← repetitions (rest.length + 1) e rest
          alternatives fuel flags (.seq left e) rest
        | _ => fault .unclosedGroup cs 1
    | _ => do
      let (e, rest) ← atom flags cs
      let (e, rest) ← repetitions (rest.length + 1) (cased flags e) rest
      alternatives fuel flags (.seq left e) rest

/-- The expression that a text describes. -/
def Expr.ofText (text : String) : Except Flaw Expr := do
  let cs := text.toList
  match ← alternatives (cs.length + 1) {} .empty cs with
  | (e, []) => return e
  | (_, rest) => fault .unopenedGroup rest 1

end BundleLink.Regular
