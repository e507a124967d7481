import BundleLink.Json.Reader
import Mathlib.Data.List.Basic

/-!
The grammar of JSON, apart from how a document is read. A `Doc` is what a text spells (`Spells`):
numerals and strings are kept as they are written, so a `Doc` need not have a value. It has one
(`Doc.value?`) if its containers nest no deeper than is allowed, none of its numerals is out of
range, and no string spells half of a surrogate pair alone.
-/

set_option autoImplicit false

namespace BundleLink.Json

/-- The blanks that may stand around a value. -/
def Blank (cs : List Char) : Prop :=
  ∀ c ∈ cs, isBlank c = true

/-- A run of at least one digit. -/
def Digits (ds : List Char) : Prop :=
  ds ≠ [] ∧ ∀ d ∈ ds, d.isDigit = true

/-! ### Strings -/

/-- The letters that stand for a character after a backslash. -/
def shortEscapes : List (Char × Char) :=
  [('"', '"'), ('\\', '\\'), ('/', '/'), ('b', '\x08'), ('f', '\x0c'), ('n', '\n'), ('r', '\r'),
    ('t', '\t')]

/-- Four hexadecimal digits. -/
structure HexUnit where
  digits : List Char
  length_eq : digits.length = 4
  hex : ∀ d ∈ digits, (hexValue? d).isSome

def HexUnit.value (u : HexUnit) : Nat :=
  u.digits.foldl (fun n d ↦ n * 16 + (hexValue? d).getD 0) 0

/-- One element of a string as it is written. -/
inductive Element where
  | plain (c : Char) (h : c ≠ '"' ∧ c ≠ '\\' ∧ 0x20 ≤ c.toNat)
  | short (letter c : Char) (h : (letter, c) ∈ shortEscapes)
  | unit (u : HexUnit)

namespace Element

def chars : Element → List Char
  | plain c _ => [c]
  | short letter _ _ => ['\\', letter]
  | unit u => '\\' :: 'u' :: u.digits

/-- The characters that the elements of a string spell. A unit that is half of a pair needs its
other half. -/
def text? : List Element → Option (List Char)
  | [] => some []
  | plain c _ :: es => (text? es).map (c :: ·)
  | short _ c _ :: es => (text? es).map (c :: ·)
  | unit u :: es =>
    if u.value < 0xD800 ∨ 0xE000 ≤ u.value then (text? es).map (Char.ofNat u.value :: ·)
    else if 0xDC00 ≤ u.value then none
    else
      match es with
      | unit low :: es =>
        if 0xDC00 ≤ low.value ∧ low.value < 0xE000 then
          (text? es).map
            (Char.ofNat (0x10000 + (u.value - 0xD800) * 0x400 + (low.value - 0xDC00)) :: ·)
        else none
      | _ => none

end Element

/-- The elements of a string between quotation marks. -/
def quotedElements (es : List Element) : List Char :=
  '"' :: es.flatMap Element.chars ++ ['"']

/-! ### Numbers -/

/-- A run of digits in front of which no idle zero stands. -/
structure Whole (ds : List Char) : Prop where
  digits : Digits ds
  lead : ds.head? = some '0' → ds = ['0']

structure Exponent where
  mark : Char
  sign : List Char
  digits : List Char
  mark_eq : isExponentMark mark = true
  sign_mem : sign ∈ [[], ['+'], ['-']]
  digits_digits : Digits digits

/-- A number as it is written. -/
structure Numeral where
  negative : Bool
  whole : List Char
  fraction : Option (List Char)
  exponent : Option Exponent
  whole_whole : Whole whole
  fraction_digits : ∀ ds ∈ fraction, Digits ds

namespace Exponent

def chars (e : Exponent) : List Char :=
  e.mark :: e.sign ++ e.digits

end Exponent

namespace Numeral

/-- A number without its sign. -/
def unsignedChars (n : Numeral) : List Char :=
  n.whole ++ (n.fraction.map ('.' :: ·)).getD [] ++ (n.exponent.map Exponent.chars).getD []

def chars (n : Numeral) : List Char :=
  (if n.negative then ['-'] else []) ++ n.unsignedChars

end Numeral

/-- A product of a whole number and a power of ten, if it is in range. -/
def realValue? (negative : Bool) (significand : Nat) (exp : Int) : Option Value :=
  (scaled? significand exp).map (.real negative)

/-- A whole number that fits into 64 bits. -/
def wholeValue? (negative : Bool) (significand : Nat) : Option Value :=
  if !negative then some (.int significand)
  else if significand = 0 ∨ UInt64.size / 2 < significand then realValue? true significand 0
  else some (.int (-significand))

/-- The number with an exponent after a significand. Zero may have any exponent, and any number a
negative one. -/
def Exponent.value? (e : Exponent) (negative : Bool) (significand : Nat) (exp : Int) :
    Option Value :=
  match (exponentDigits 0 e.digits).1 with
  | some k => realValue? negative significand (if e.sign = ['-'] then exp - k else exp + k)
  | none => if significand ≠ 0 ∧ e.sign ≠ ['-'] then none else some (.real negative .zero)

/-- The number with an exponent, or `plain` if there is none. -/
def exponentValue? (e : Option Exponent) (negative : Bool) (significand : Nat) (exp : Int)
    (plain : Option Value) : Option Value :=
  match e with
  | some e => e.value? negative significand exp
  | none => plain

/-- The number that a numeral stands for, if it is in range. Digits count for the significand as
long as it fits into 64 bits. -/
def Numeral.value? (n : Numeral) : Option Value :=
  let (whole, excess) := intake 0 n.whole
  match n.fraction with
  | none =>
    exponentValue? n.exponent n.negative whole excess.length
      (if excess = [] then wholeValue? n.negative whole
      else realValue? n.negative whole excess.length)
  | some ds =>
    let (significand, rest) := intake whole ds
    let exp : Int := excess.length - (ds.length - rest.length : Nat)
    exponentValue? n.exponent n.negative significand exp (realValue? n.negative significand exp)

/-! ### Documents -/

/-- What a text spells. -/
inductive Doc where
  | null
  | bool (b : Bool)
  | number (n : Numeral)
  | string (es : List Element)
  | array (items : List Doc)
  | object (members : List (List Element × Doc))

/-- The value of a document inside containers of which `depth` more may be opened. -/
def Doc.value? : Nat → Doc → Option Value
  | _, null => some .null
  | _, bool b => some (.bool b)
  | _, number n => n.value?
  | _, string es => (Element.text? es).map fun s ↦ .string (String.ofList s)
  | 0, array _ => none
  | depth + 1, array items => (items.mapM (value? depth)).map .array
  | 0, object _ => none
  | depth + 1, object members =>
    (members.mapM fun (m : List Element × Doc) ↦ do
      let s ← Element.text? m.1
      let v ← value? depth m.2
      return (String.ofList s, v)).map fun es ↦ .object (Entries.ofList es)

/-- The text of a value with blanks around it. -/
structure Item where
  before : List Char
  text : List Char
  after : List Char
  doc : Doc
  before_blank : Blank before
  after_blank : Blank after

def Item.chars (i : Item) : List Char :=
  i.before ++ i.text ++ i.after

/-- A key, a colon and a value, with blanks around each. -/
structure Member extends Item where
  lead : List Char
  key : List Element
  gap : List Char
  lead_blank : Blank lead
  gap_blank : Blank gap

def Member.chars (m : Member) : List Char :=
  m.lead ++ quotedElements m.key ++ m.gap ++ ':' :: m.toItem.chars

/-- A text spells a document by the grammar of JSON. -/
inductive Spells : List Char → Doc → Prop
  | null : Spells "null".toList .null
  | bool (b : Bool) : Spells (if b then "true" else "false").toList (.bool b)
  | number (n : Numeral) : Spells n.chars (.number n)
  | string (es : List Element) : Spells (quotedElements es) (.string es)
  | emptyArray (blank : List Char) : Blank blank → Spells ('[' :: blank ++ [']']) (.array [])
  | array (items : List Item) : items ≠ [] → (∀ i ∈ items, Spells i.text i.doc) →
      Spells ('[' :: [','].intercalate (items.map Item.chars) ++ [']']) (.array (items.map Item.doc))
  | emptyObject (blank : List Char) : Blank blank →
      Spells ('\x7b' :: blank ++ ['\x7d']) (.object [])
  | object (members : List Member) : members ≠ [] → (∀ m ∈ members, Spells m.text m.doc) →
      Spells ('\x7b' :: [','].intercalate (members.map Member.chars) ++ ['\x7d'])
        (.object (members.map fun m ↦ (m.key, m.doc)))

/-- A whole text spells a document with blanks around it. -/
def IsDocument (text : List Char) (d : Doc) : Prop :=
  ∃ i : Item, text = i.chars ∧ i.doc = d ∧ Spells i.text d

end BundleLink.Json
