/-!
Patterns for names of files. `*` stands for any run of characters, `?` for one character and
brackets for one character of a class. `**` stands alone between separators and matches any number
of directories.
-/

set_option autoImplicit false

namespace BundleLink.Glob

/-- One member of a bracketed class. -/
inductive ClassItem where
  | single (c : Char)
  | range (low high : Char)
deriving DecidableEq, Repr, Inhabited

inductive Token where
  | char (c : Char)
  | any
  | anySequence
  | recursive
  | within (items : List ClassItem)
  | except (items : List ClassItem)
deriving DecidableEq, Repr, Inhabited

inductive Problem where
  | wildcards
  | recursiveWildcards
  | range
deriving DecidableEq, Repr, Inhabited

def Problem.message : Problem → String
  | wildcards => "wildcards are either regular `*` or recursive `**`"
  | recursiveWildcards => "recursive wildcards must form a single path component"
  | range => "invalid range pattern"

/-- What is wrong with a pattern, and before which of its characters. -/
structure Flaw where
  position : Nat
  problem : Problem
deriving DecidableEq, Repr, Inhabited

def Flaw.message (f : Flaw) : String :=
  "Pattern syntax error near position " ++ toString f.position ++ ": " ++ f.problem.message

abbrev Pattern := List Token

/-- The items of a class; `a-z` is a range. -/
def classItems : List Char → List ClassItem
  | a :: '-' :: b :: cs => .range a b :: classItems cs
  | c :: cs => .single c :: classItems cs
  | [] => []

/-- The text before the first `]`, which stands after at least one character, and the text after it.
-/
def splitClass : List Char → Option (List Char × List Char)
  | [] => none
  | c :: cs =>
    if cs.contains ']' then
      some (c :: cs.takeWhile (· ≠ ']'), (cs.dropWhile (· ≠ ']')).drop 1)
    else none

/-- A bracketed class from after its opening bracket. -/
def bracketed? : List Char → Option (Token × List Char)
  | '!' :: cs => (splitClass cs).map fun (items, rest) ↦ (.except (classItems items), rest)
  | cs => (splitClass cs).map fun (items, rest) ↦ (.within (classItems items), rest)

/-- The tokens from position `pos` on; `prev` is the character before it. -/
def tokens : Nat → Nat → Option Char → List Token → List Char → Except Flaw (List Token)
  | 0, _, _, done, _ => .ok done.reverse
  | _, _, _, done, [] => .ok done.reverse
  | fuel + 1, pos, prev, done, c :: cs =>
    if c = '?' then tokens fuel (pos + 1) (some c) (.any :: done) cs
    else if c = '*' then
      let count := (cs.takeWhile (· = '*')).length + 1
      let rest := cs.drop (count - 1)
      let after := pos + count
      if 2 < count then .error ⟨pos + 2, .wildcards⟩
      else if count = 1 then tokens fuel after (some c) (.anySequence :: done) rest
      else if prev ≠ none ∧ prev ≠ some '/' then .error ⟨pos - 1, .recursiveWildcards⟩
      else
        let done :=
          match done with
          | .recursive :: _ :: _ => done
          | _ => .recursive :: done
        match rest with
        | [] => .ok done.reverse
        | '/' :: rest => tokens fuel (after + 1) (some '/') done rest
        | _ => .error ⟨after, .recursiveWildcards⟩
    else if c = '[' then
      match bracketed? cs with
      | some (t, rest) =>
        let used := cs.length - rest.length
        tokens fuel (pos + 1 + used) (some ']') (t :: done) rest
      | none => .error ⟨pos, .range⟩
    else tokens fuel (pos + 1) (some c) (.char c :: done) cs

namespace Pattern

def ofChars (cs : List Char) : Except Flaw Pattern :=
  tokens (cs.length + 1) 0 none [] cs

def isRecursive (p : Pattern) : Bool :=
  p.contains .recursive

/-- The one name that a pattern without wildcards matches. -/
def literal? : Pattern → Option (List Char)
  | [] => some []
  | .char c :: ts => (literal? ts).map (c :: ·)
  | _ => none

def ClassItem.has (c : Char) : ClassItem → Bool
  | .single x => c = x
  | .range low high => low ≤ c && c ≤ high

/-- Whether some suffix passes. -/
def anySuffix (test : List Char → Bool) : List Char → Bool
  | [] => test []
  | c :: cs => test (c :: cs) || anySuffix test cs

/-- Whether a name matches. -/
def matchesName : Pattern → List Char → Bool
  | [], cs => cs.isEmpty
  | .anySequence :: ts, cs => anySuffix (matchesName ts) cs
  | .recursive :: ts, cs => anySuffix (matchesName ts) cs
  | _ :: _, [] => false
  | .char x :: ts, c :: cs => c = x && matchesName ts cs
  | .any :: ts, _ :: cs => matchesName ts cs
  | .within items :: ts, c :: cs => items.any (ClassItem.has c) && matchesName ts cs
  | .except items :: ts, c :: cs => !items.any (ClassItem.has c) && matchesName ts cs

/-- A pattern that matches a text and nothing else. -/
def escape (cs : List Char) : List Char :=
  cs.flatMap fun c ↦
    if c = '?' ∨ c = '*' ∨ c = '[' ∨ c = ']' then ['[', c, ']'] else [c]

end Pattern

end BundleLink.Glob
