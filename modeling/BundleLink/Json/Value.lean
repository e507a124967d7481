import BundleLink.Decimal.Shortest

/-!
JSON values. An object is the list of its entries in the order in which their keys first appeared.
-/

set_option autoImplicit false

namespace BundleLink.Json

open BundleLink.Decimal

inductive Value where
  | null
  | bool (b : Bool)
  /-- A whole number that fits into 64 bits, with or without a sign. -/
  | int (n : Int)
  /-- Any other number; zero may be negative. -/
  | real (negative : Bool) (magnitude : Binary64)
  | string (s : String)
  | array (items : List Value)
  | object (entries : List (String × Value))
deriving Repr, Inhabited

namespace Value

mutual

/-- Whether two values are the same, the order of entries included. -/
def same : Value → Value → Bool
  | .null, .null => true
  | .bool b, .bool b' => b = b'
  | .int n, .int n' => n = n'
  | .real negative magnitude, .real negative' magnitude' =>
    negative = negative' && magnitude = magnitude'
  | .string s, .string s' => s = s'
  | .array items, .array items' => sameItems items items'
  | .object es, .object es' => sameEntries es es'
  | _, _ => false

def sameItems : List Value → List Value → Bool
  | [], [] => true
  | v :: vs, v' :: vs' => v.same v' && sameItems vs vs'
  | _, _ => false

def sameEntries : List (String × Value) → List (String × Value) → Bool
  | [], [] => true
  | (key, v) :: es, (key', v') :: es' => key = key' && v.same v' && sameEntries es es'
  | _, _ => false

end

mutual

theorem same_iff (v v' : Value) : v.same v' = true ↔ v = v' := by
  cases v <;> cases v' <;> simp [same, sameItems_iff, sameEntries_iff]

theorem sameItems_iff (vs vs' : List Value) : sameItems vs vs' = true ↔ vs = vs' := by
  cases vs <;> cases vs' <;> simp [sameItems, same_iff, sameItems_iff]

theorem sameEntries_iff (es es' : List (String × Value)) :
    sameEntries es es' = true ↔ es = es' := by
  cases es <;> cases es' <;>
    simp [sameEntries, same_iff, sameEntries_iff, Prod.ext_iff, and_assoc]

end

instance : DecidableEq Value :=
  fun v v' ↦ decidable_of_iff _ (same_iff v v')

end Value

/-- The entries of an object, in order. -/
abbrev Entries := List (String × Value)

namespace Entries

/-- The value of a key. -/
def get? (es : Entries) (key : String) : Option Value :=
  (es.find? fun e ↦ e.1 = key).map (·.2)

def contains (es : Entries) (key : String) : Bool :=
  es.any fun e ↦ e.1 = key

/-- Sets the value of a key, in its place if it has one and at the end otherwise. -/
def put : Entries → String → Value → Entries
  | [], key, value => [(key, value)]
  | e :: es, key, value => if e.1 = key then (key, value) :: es else e :: put es key value

/-- A repeated key keeps its first place and takes its last value. -/
def ofList (es : List (String × Value)) : Entries :=
  es.foldl (fun acc e ↦ put acc e.1 e.2) []

end Entries

namespace Value

def string? : Value → Option String
  | string s => some s
  | _ => none

def entries? : Value → Option Entries
  | object es => some es
  | _ => none

end Value

end BundleLink.Json
