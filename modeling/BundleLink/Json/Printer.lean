import BundleLink.Json.Value

/-!
The text of a JSON value: one entry or item a line, indented by two blanks a level.
-/

set_option autoImplicit false

namespace BundleLink.Json

open BundleLink.Decimal

def hexDigit (n : Nat) : Char :=
  (Nat.toDigits 16 n).headD '0'

/-- One character between quotation marks. -/
def escapeChar (c : Char) : List Char :=
  if c = '"' then ['\\', '"']
  else if c = '\\' then ['\\', '\\']
  else if c = '\x08' then ['\\', 'b']
  else if c = '\x0c' then ['\\', 'f']
  else if c = '\n' then ['\\', 'n']
  else if c = '\r' then ['\\', 'r']
  else if c = '\t' then ['\\', 't']
  else if c.toNat < 0x20 then
    ['\\', 'u', '0', '0', hexDigit (c.toNat / 16), hexDigit (c.toNat % 16)]
  else [c]

def quotedText (s : String) : List Char :=
  '"' :: s.toList.flatMap escapeChar ++ ['"']

/-- A line end and the indentation of a level. -/
def newline (level : Nat) : List Char :=
  '\n' :: List.replicate (2 * level) ' '

mutual

def Value.chars (level : Nat) : Value → List Char
  | .null => "null".toList
  | .bool b => (if b then "true" else "false").toList
  | .int n => (toString n).toList
  | .real negative x => (if negative then ['-'] else []) ++ (dataText x).toList
  | .string s => quotedText s
  | .array [] => "[]".toList
  | .array (v :: vs) =>
    '[' :: newline (level + 1) ++ v.chars (level + 1) ++ itemChars (level + 1) vs ++
      newline level ++ [']']
  | .object [] => ['\x7b', '\x7d']
  | .object ((key, v) :: es) =>
    '\x7b' :: newline (level + 1) ++ quotedText key ++ [':', ' '] ++ v.chars (level + 1) ++
      entryChars (level + 1) es ++ newline level ++ ['\x7d']

/-- The items after the first. -/
def itemChars (level : Nat) : List Value → List Char
  | [] => []
  | v :: vs => ',' :: newline level ++ v.chars level ++ itemChars level vs

/-- The entries after the first. -/
def entryChars (level : Nat) : List (String × Value) → List Char
  | [] => []
  | (key, v) :: es =>
    ',' :: newline level ++ quotedText key ++ [':', ' '] ++ v.chars level ++ entryChars level es

end

/-- The text of a document. -/
def Value.print (v : Value) : String :=
  String.ofList (v.chars 0)

end BundleLink.Json
