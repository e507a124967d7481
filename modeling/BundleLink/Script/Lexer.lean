import BundleLink.Script.Comment
import BundleLink.Script.Scan

/-!
The sequence of tokens of a module, one at a time, with the comments between them. A comment trails
the token before it when it stands on the same line and that token is of a kind that takes trailing
comments; otherwise it leads the next token. Comments at the end of a module trail its last token.
-/

set_option autoImplicit false

namespace BundleLink.Script

open BundleLink.Text

/-- A token with its range, whether a line end precedes it, and the text from its beginning on. -/
structure Lexeme where
  token : Token
  span : Span
  afterLineEnd : Bool
  rest : List Char
deriving Inhabited

/-- The state between two tokens. -/
structure Lexer where
  input : Input
  /-- Whether no token has been read; the first one is read before its text is known to be strict.
  -/
  first : Bool
  /-- The end of the last token. -/
  prevHi : Nat
  /-- Whether a block comment may trail the last token. -/
  takesBlock : Bool
  /-- Whether a line comment may trail the last token. -/
  takesLine : Bool
  /-- Comments that lead the next token, latest first. -/
  pending : List Comment
  /-- Comments with their positions, latest first. -/
  placed : List PlacedComment
deriving Inhabited

namespace Lexer

def ofSource (source : List Char) : Lexer :=
  ⟨⟨source, 0, [], source.length⟩, true, 0, false, true, [], []⟩

/-- The text up to a line end and the rest from there. -/
def splitLine (cs : List Char) : List Char × List Char :=
  cs.span fun c ↦ !isLineEnd c

/-- The text of a block comment up to its end mark, and the rest after it. -/
def splitBlock : List Char → Option (List Char × List Char)
  | [] => none
  | '*' :: '/' :: cs => some ([], cs)
  | c :: cs => (splitBlock cs).map fun (text, rest) ↦ (c :: text, rest)

/-- The number of blank characters at the head of a text, and whether a line end is among them. -/
def blanks : List Char → Nat × Bool
  | [] => (0, false)
  | c :: cs =>
    if isLineEnd c then ((blanks cs).1 + 1, true)
    else if isScriptBlank c then ((blanks cs).1 + 1, (blanks cs).2)
    else (0, false)

private def advance (x : Lexer) (n : Nat) : Lexer :=
  { x with input :=
      { x.input with
        rest := x.input.rest.drop n
        pos := x.input.pos + byteLength (x.input.rest.take n) } }

private def place (x : Lexer) (forNext : Bool) (c : Comment) : Lexer :=
  if forNext then { x with pending := c :: x.pending }
  else { x with placed := ⟨.trailing, x.prevHi, c⟩ :: x.placed }

private def report (x : Lexer) (lo : Nat) (p : Problem) : Lexer :=
  { x with input :=
      { x.input with problems := ⟨⟨lo, x.input.pos⟩, p⟩ :: x.input.problems } }

/-- A line comment after an opening mark of `mark` characters. -/
private def lineComment (x : Lexer) (mark : Nat) (afterLineEnd : Bool) : Lexer :=
  let x := x.advance mark
  let (text, _) := splitLine x.input.rest
  (x.place (afterLineEnd || !x.takesLine) ⟨.line, String.ofList text⟩).advance text.length

/-- Skips blanks and comments; the flag tells whether a line end was among them. -/
def trivia : Nat → Lexer → Bool → Lexer × Bool
  | 0, x, broken => (x, broken)
  | fuel + 1, x, broken =>
    let (n, lineEnd) := blanks x.input.rest
    let x := x.advance n
    let broken := broken || lineEnd
    match x.input.rest with
    | '/' :: '/' :: _ => trivia fuel (x.lineComment 2 broken) broken
    | '/' :: '*' :: cs =>
      match splitBlock cs with
      | none =>
        let x := x.advance (cs.length + 2)
        (x.report x.input.pos .unterminatedBlockComment, broken)
      | some (text, _) =>
        let x := x.advance (text.length + 4)
        let beforeSemi := !broken && x.input.rest.head? = some ';'
        let forNext := (broken || !x.takesBlock) && !beforeSemi
        trivia fuel (x.place forNext ⟨.block, String.ofList text⟩) (broken || text.any isLineEnd)
    | _ => (x, broken)

private def isConflictMarker (cs : List Char) : Bool :=
  cs.take 8 = "<<<<<<< ".toList || cs.take 8 = ">>>>>>> ".toList || cs.take 8 = "||||||| ".toList

private def isConflictDivider (cs : List Char) : Bool :=
  cs.take 7 = "=======".toList

/-- Reads a token here. The comments of markup in old scripts are skipped with a problem, and so is
a line that divides the sides of an unresolved merge. -/
private def tokenHere (strict : Bool) : Nat → Nat → Lexer → Bool → Lexer × Token
  | 0, _, x, _ => (x, .eof)
  | fuel + 1, lo, x, broken =>
    if broken && isConflictDivider x.input.rest then
      let here := x.input.pos
      let x := (x.advance 7).report here .conflictMarker
      let (x, broken) := trivia (fuel + 1) (x.lineComment 0 broken) broken
      tokenHere strict fuel lo x broken
    else if broken && isConflictMarker x.input.rest then
      let here := x.input.pos
      let x := (x.advance 7).report here .conflictMarker
      let (x, _) := trivia (fuel + 1) (x.lineComment 0 broken) broken
      (x, .malformed ⟨⟨here, here + 7⟩, .conflictMarker⟩)
    else
    match x.input.rest with
    | '<' :: '!' :: '-' :: '-' :: _ =>
      let (x, broken) := trivia (fuel + 1) (x.lineComment 4 broken) broken
      tokenHere strict fuel lo (x.report lo .legacyComment) broken
    | '-' :: '-' :: '>' :: _ =>
      if broken then
        let x := (x.advance 3).report lo .legacyComment
        let (x, broken) := trivia (fuel + 1) (x.lineComment 0 broken) broken
        tokenHere strict fuel lo x broken
      else
        match Scan.token strict x.input with
        | .ok t input => ({ x with input := input }, t)
        | .error d input => ({ x with input := input }, .malformed d)
    | _ =>
      match Scan.token strict x.input with
      | .ok t input => ({ x with input := input }, t)
      | .error d input => ({ x with input := input }, .malformed d)

private def takesBlockComment : Token → Bool
  | .word w => !isKeyword w
  | .escaped _ => true
  | .punct p => p = .semi || p = .lbrace || p = .rbrace
  | .number _ | .bigInt _ | .string _ _ | .regExp _ _ => true
  | _ => false

private def takesLineComment : Token → Bool
  | .punct (.operator _) => false
  | _ => true

/-- Records the token that ends here: comments before it lead it. -/
private def finish (x : Lexer) (lo : Nat) (rest : List Char) (t : Token) (broken : Bool) :
    Lexer × Lexeme :=
  let led := x.pending.map fun c ↦ (⟨.leading, lo, c⟩ : PlacedComment)
  ({ x with
      prevHi := x.input.pos
      takesBlock := takesBlockComment t
      takesLine := takesLineComment t
      pending := []
      placed := led ++ x.placed },
    ⟨t, ⟨lo, x.input.pos⟩, broken, rest⟩)

/-- Problems that only strict code has come after those met with them. -/
private def strictLast (x : Lexer) : Lexer :=
  let (late, early) := x.input.problems.partition (·.problem.isOfStrictCode)
  { x with input := { x.input with problems := late ++ early } }

/-- The next token. -/
def next (x : Lexer) : Lexer × Lexeme :=
  let fuel := x.input.bound + 1
  let isFirst := x.first
  let (x, broken) := trivia fuel { x with first := false } isFirst
  let lo := x.input.pos
  let rest := x.input.rest
  let (x, t) := tokenHere (!isFirst) fuel lo x broken
  let x := if isFirst then x.strictLast else x
  match t with
  | .eof =>
    let side : CommentSide := if x.prevHi = 0 then .leading else .trailing
    let kept := x.pending.map fun c ↦ (⟨side, x.prevHi, c⟩ : PlacedComment)
    ({ x with pending := [], placed := kept ++ x.placed }, ⟨.eof, ⟨x.prevHi, x.prevHi⟩, true, []⟩)
  | _ => finish x lo rest t broken

/-- Reads the text of a lexeme again, with another reader. -/
def reread (x : Lexer) (old : Lexeme) (read : Scan Token) : Lexer × Lexeme :=
  let (input, t) : Input × Token :=
    match read { x.input with rest := old.rest, pos := old.span.lo } with
    | .ok t input => (input, t)
    | .error d input => (input, .malformed d)
  finish { x with input := input } old.span.lo old.rest t old.afterLineEnd

/-- The first line of a script that names its interpreter. -/
def shebang? (x : Lexer) : Option (Lexer × String) :=
  match x.input.rest with
  | '#' :: '!' :: cs =>
    let (text, _) := splitLine cs
    let x := x.advance (text.length + 2)
    some ({ x with prevHi := x.input.pos, first := false }, String.ofList text)
  | _ => none

private theorem blanks_spaces {q : Char} (hq : q = '"' ∨ q = '\'') (n : Nat) (cs : List Char) :
    blanks (List.replicate n ' ' ++ q :: cs) = (n, false) := by
  induction n with
  | zero => rcases hq with rfl | rfl <;> rfl
  | succ n ih =>
    have hnext : blanks (' ' :: (List.replicate n ' ' ++ q :: cs)) =
        ((blanks (List.replicate n ' ' ++ q :: cs)).1 + 1,
          (blanks (List.replicate n ' ' ++ q :: cs)).2) := rfl
    rw [List.replicate_succ, List.cons_append, hnext, ih]

/-- The lexer after `n` blanks, when `rest` is what follows them. -/
private def past (x : Lexer) (n : Nat) (rest : List Char) : Lexer :=
  { x with input :=
      { x.input with rest := rest, pos := x.input.pos + byteLength (List.replicate n ' ') } }

/-- No comment begins with a quotation mark. -/
private theorem trivia_of_quote {x : Lexer} {n : Nat} {q : Char} {cs : List Char}
    (hq : q = '"' ∨ q = '\'') (hrest : x.input.rest = List.replicate n ' ' ++ q :: cs)
    (fuel : Nat) : trivia (fuel + 1) x false = (x.past n (q :: cs), false) := by
  have hdrop : (List.replicate n ' ' ++ q :: cs).drop n = q :: cs :=
    List.drop_left' List.length_replicate
  have htake : (List.replicate n ' ' ++ q :: cs).take n = List.replicate n ' ' :=
    List.take_left' List.length_replicate
  have hadvance : x.advance n = x.past n (q :: cs) := by
    rw [advance, hrest, hdrop, htake, past]
  unfold trivia
  rw [hrest, blanks_spaces hq]
  simp only [hadvance, Bool.or_false]
  rcases hq with rfl | rfl <;> rfl

private theorem tokenHere_of_quote {x : Lexer} {q : Char} {cs : List Char} {t : Token}
    {input : Input} (hq : q = '"' ∨ q = '\'') (hrest : x.input.rest = q :: cs)
    (ht : Scan.token true x.input = .ok t input) (fuel lo : Nat) :
    tokenHere true (fuel + 1) lo x false = ({ x with input := input }, t) := by
  unfold tokenHere
  rcases hq with rfl | rfl <;>
  · simp only [hrest, ht, Bool.false_and, Bool.false_eq_true, if_false]
    rfl

/-- Before a quotation mark, after blanks, the next token is the one that is read there, unless it is
the first one. -/
theorem next_of_quote {x : Lexer} {n : Nat} {q : Char} {cs : List Char} {t : Token} {input : Input}
    (hfirst : x.first = false) (hq : q = '"' ∨ q = '\'')
    (hrest : x.input.rest = List.replicate n ' ' ++ q :: cs)
    (ht : Scan.token true { x.input with
      rest := q :: cs, pos := x.input.pos + byteLength (List.replicate n ' ') } = .ok t input)
    (hend : t ≠ .eof) :
    x.next.1.input = input ∧ x.next.2 =
      ⟨t, ⟨x.input.pos + byteLength (List.replicate n ' '), input.pos⟩, false, q :: cs⟩ := by
  have hsame : { x with first := false } = x := by rw [← hfirst]
  have htoken : Scan.token true (x.past n (q :: cs)).input = .ok t input := ht
  unfold next
  simp only [hfirst, hsame, trivia_of_quote hq hrest, Bool.not_false,
    tokenHere_of_quote hq rfl htoken, Bool.false_eq_true, if_false]
  cases t <;> first | exact absurd rfl hend | exact ⟨rfl, rfl⟩

end Lexer

end BundleLink.Script
