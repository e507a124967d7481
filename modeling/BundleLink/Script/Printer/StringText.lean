import BundleLink.Text.Quoted
import BundleLink.Script.Tree

/-!
The text of a string literal made from its value alone. The quotation mark is `"` unless the value
holds more of these than of `'`. Control characters other than the tab, line separators and the byte
order mark are escaped; `\0` is spelled `\x00` before a digit, where it would read as an octal
escape.
-/

set_option autoImplicit false

namespace BundleLink.Script

open BundleLink.Text

/-- The lower-case hexadecimal digits of `n`, padded with zeros to a width. -/
def paddedHex (width n : Nat) : List Char :=
  let ds := Nat.toDigits 16 n
  List.replicate (width - ds.length) '0' ++ ds

/-- One character between two marks `quote`, before the element `next`. -/
def escapeChar (quote : Char) (next : Option Code) (c : Char) : List Char :=
  if c = '\x00' then
    match next with
    | some (.scalar d) => if d.isDigit then "\\x00".toList else "\\0".toList
    | _ => "\\0".toList
  else if c = '\x08' then "\\b".toList
  else if c = '\x0c' then "\\f".toList
  else if c = '\n' then "\\n".toList
  else if c = '\r' then "\\r".toList
  else if c = '\x0b' then "\\v".toList
  else if c = '\t' then [c]
  else if c = '\\' then "\\\\".toList
  else if c = quote then ['\\', c]
  else if c.toNat < 0x20 then "\\x".toList ++ paddedHex 2 c.toNat
  else if c = '\u2028' then "\\u2028".toList
  else if c = '\u2029' then "\\u2029".toList
  else if c = '\uFEFF' then "\\uFEFF".toList
  else [c]

/-- The characters of a value between two marks. -/
def escapeCodes (quote : Char) : Codes → List Char
  | [] => []
  | .scalar c :: v => escapeChar quote v.head? c ++ escapeCodes quote v
  | .half u :: v => "\\u".toList ++ paddedHex 4 u ++ escapeCodes quote v

/-- The mark that needs fewer escapes; `"` if both need as many. -/
def chosenQuote (v : Codes) : Char :=
  if v.count (.scalar '\'') < v.count (.scalar '"') then '\'' else '"'

/-- A literal with the given value. -/
def stringText (v : Codes) : String :=
  let q := chosenQuote v
  String.ofList (q :: escapeCodes q v ++ [q])

/-- The text of a literal: as it was written, if that is known. -/
def StringLit.text (s : StringLit) : String :=
  s.raw.getD (stringText s.value)

end BundleLink.Script
