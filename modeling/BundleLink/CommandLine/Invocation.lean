import BundleLink.CommandLine.Argument
import BundleLink.Config
import BundleLink.Text.Similarity

/-!
Reading the arguments of a call. An option keeps waiting for its value until the next argument is
read; only then is it looked at whether the value is there and good, so a fault of an earlier option
may give way to one of a later argument that is not known at all.
-/

set_option autoImplicit false

namespace BundleLink.CommandLine

open BundleLink.Text

/-! ### Faults -/

inductive NumberProblem where
  | empty
  | invalidDigit
  | tooLarge
deriving DecidableEq, Repr, Inhabited

def NumberProblem.message : NumberProblem → String
  | empty => "cannot parse integer from empty string"
  | invalidDigit => "invalid digit found in string"
  | tooLarge => "number too large to fit in target type"

/-- Why a call is refused. -/
inductive Fault where
  /-- With a known argument that is spelled alike, or a hint to pass it as a value. -/
  | unknown (arg : String) (similar : Option Argument) (asValue : Bool)
  | repeated (a : Argument)
  | conflict (a b : Argument)
  | noValue (a : Argument)
  | unexpectedValue (value : String) (a : Argument)
  | badNumber (value : String) (a : Argument) (problem : NumberProblem)
  | notText
deriving DecidableEq, Repr, Inhabited

namespace Fault

def summary : Fault → String
  | unknown arg _ _ => "unexpected argument '" ++ arg ++ "' found"
  | repeated a => "the argument '" ++ a.shown ++ "' cannot be used multiple times"
  | conflict a b => "the argument '" ++ a.shown ++ "' cannot be used with '" ++ b.shown ++ "'"
  | noValue a => "a value is required for '" ++ a.shown ++ "' but none was supplied"
  | unexpectedValue value a =>
    "unexpected value '" ++ value ++ "' for '" ++ a.shown ++ "' found; no more were expected"
  | badNumber value a problem =>
    "invalid value '" ++ value ++ "' for '" ++ a.shown ++ "': " ++ problem.message
  | notText => "invalid UTF-8 was detected in one or more arguments"

/-- What might have been meant. -/
def tip : Fault → String
  | unknown _ (some a) _ =>
    "\n\n  tip: a similar argument exists: '--" ++ a.long?.getD "" ++ "'"
  | unknown arg none true =>
    "\n\n  tip: to pass '" ++ arg ++ "' as a value, use '-- " ++ arg ++ "'"
  | _ => ""

/-- Whether the usage is shown with the message. -/
def showsUsage : Fault → Bool
  | noValue _ | badNumber .. => false
  | _ => true

end Fault

/-- A fault, and the arguments that its message shows as used. -/
structure Refusal where
  fault : Fault
  used : List Argument
deriving DecidableEq, Repr, Inhabited

def Refusal.message (r : Refusal) : String :=
  "error: " ++ r.fault.summary ++ r.fault.tip ++
    (if r.fault.showsUsage then "\n\n" ++ usage r.used else "") ++
    "\n\nFor more information, try '--help'.\n"

/-- Why reading stops early. -/
inductive Halt where
  | refused (r : Refusal)
  | help
  | version
deriving DecidableEq, Repr, Inhabited

/-! ### Numbers -/

def maxJobs : Nat :=
  UInt64.size - 1

/-- The number that digits write after `n`; the first that is no digit or too many is a problem. -/
def digits (n : Nat) : List Char → Except NumberProblem Nat
  | [] => .ok n
  | c :: cs =>
    if !c.isDigit then .error .invalidDigit
    else
      let n := n * 10 + (c.toNat - '0'.toNat)
      if maxJobs < n then .error .tooLarge else digits n cs

/-- A number, with or without a plus sign. -/
def number : List Char → Except NumberProblem Nat
  | [] => .error .empty
  | ['+'] => .error .invalidDigit
  | '+' :: cs => digits 0 cs
  | cs => digits 0 cs

/-! ### Reading -/

/-- What has been read of a call. -/
structure Reading where
  /-- The arguments given and their values, in the order in which they were accepted. -/
  given : List (Argument × Bytes) := []
  /-- The last argument that takes a value, and its value once it is read. -/
  pending : Option (Argument × Option Bytes) := none
  /-- Whether the package directory has been read. -/
  placed : Bool := false
  /-- Whether two dashes have ended the options. -/
  ended : Bool := false
deriving DecidableEq, Repr, Inhabited

namespace Reading

def has (r : Reading) (a : Argument) : Bool :=
  r.given.any fun g ↦ g.1 = a

def without (r : Reading) (a : Argument) : Reading :=
  { r with given := r.given.filter fun g ↦ g.1 ≠ a }

/-- The arguments given, in order. -/
def used (r : Reading) : List Argument :=
  r.given.map (·.1)

/-- What is wrong with the value of an argument. -/
def valueFault? (a : Argument) (value : Bytes) : Option Fault :=
  match a with
  | .packageDir => if value.isEmpty then some (.noValue a) else none
  | .jobs =>
    match decode? value with
    | none => some .notText
    | some cs =>
      match number cs with
      | .error p => some (.badNumber (String.ofList cs) a p)
      | .ok _ => none
  | _ => if (decode? value).isNone then some .notText else none

/-- Accepts an argument. A faulty one leaves its mark on the reading too. -/
def accept (r : Reading) (a : Argument) (value : Option Bytes) : Reading × Option Fault :=
  match a.takesValue, value with
  | true, none => (r, some (.noValue a))
  | _, value =>
    if r.has a then (r.without a, some (.repeated a))
    else
      let value := value.getD []
      ({ r with given := r.given ++ [(a, value)] },
        if a.takesValue then valueFault? a value else none)

/-- Accepts the pending argument, if there is one. -/
def settle (r : Reading) : Reading × Option Fault :=
  match r.pending with
  | none => (r, none)
  | some (a, value) => { r with pending := none }.accept a value

def orHalt (p : Reading × Option Fault) : Except Halt Reading :=
  match p with
  | (r, none) => .ok r
  | (_, some f) => .error (.refused ⟨f, []⟩)

/-- Settles what is pending, then takes an argument with the value it has, if any. -/
def take (r : Reading) (a : Argument) (value : Option Bytes) : Except Halt Reading := do
  let r ← orHalt r.settle
  match a with
  | .help => .error .help
  | .version => .error .version
  | _ => orHalt (r.accept a value)

/-- Takes an option: with the value attached to it, or to wait for one. -/
def option (r : Reading) (a : Argument) (attached : Option Bytes) : Except Halt Reading :=
  match attached with
  | some value => r.take a (some value)
  | none => do
    let r ← orHalt r.settle
    return { r with pending := some (a, none) }

/-- The known argument most like a word, if one is alike enough; of equals the last. -/
def similar? (word : String) : Option Argument :=
  let alike := Argument.all.filterMap fun a ↦
    match a.long? with
    | some long =>
      let s := similarity word long
      if 0.7 < s then some (a, s) else none
    | none => none
  (alike.foldl (fun best x ↦
    match best with
    | some (b, s) => if s ≤ x.2 then some x else some (b, s)
    | none => some x) none).map (·.1)

/-- A word that names no argument. -/
def unknownLong (r : Reading) (word : String) : Halt :=
  let r := r.settle.1
  let similar := similar? word
  let used :=
    match similar with
    | some a => if r.has a then r.used else r.used ++ [a]
    | none => r.used
  .refused ⟨.unknown ("--" ++ word) similar true, used⟩

/-- An argument of two dashes, a word, and a value after `=`. -/
def long (r : Reading) (word : Bytes) (value : Option Bytes) : Except Halt Reading :=
  match (decode? word).bind fun cs ↦ Argument.ofLong? (String.ofList cs) with
  | none => .error (r.unknownLong (String.ofList (decodeLossy word)))
  | some a =>
    if a.takesValue then r.option a value
    else
      match value with
      | none => r.take a none
      | some v =>
        let shown := String.ofList (decodeLossy v)
        .error (.refused ⟨.unexpectedValue shown a, r.used ++ [a]⟩)

/-- An argument of one dash and letters, before bytes that are no text. -/
def shorts (r : Reading) : List Char → Bytes → Except Halt Reading
  | [], [] => .ok r
  | [], rest =>
    .error (.refused ⟨.unknown ("-" ++ String.ofList (decodeLossy rest)) none true, []⟩)
  | c :: cs, rest =>
    match Argument.ofShort? c with
    | none => .error (.refused ⟨.unknown ("-" ++ c.toString) none true, []⟩)
    | some a =>
      if a.takesValue then
        let value :=
          match cs with
          | '=' :: cs => some (encode cs ++ rest)
          | cs => if cs.isEmpty && rest.isEmpty then none else some (encode cs ++ rest)
        r.option a value
      else do
        let r ← r.take a none
        r.shorts cs rest

/-- An argument without dashes, or after all options. -/
def place (r : Reading) (arg : Bytes) : Except Halt Reading :=
  if r.placed then
    .error (.refused ⟨.unknown (String.ofList (decodeLossy arg)) none false, []⟩)
  else do
    let r ← orHalt r.settle
    return { r with pending := some (.packageDir, some arg), placed := true }

def dash : UInt8 := 0x2D

def equalsSign : UInt8 := 0x3D

/-- The text that bytes begin with, and the bytes after it. -/
def splitText (bs : Bytes) : List Char × Bytes :=
  let cs := ((pieces bs).takeWhile (·.isSome)).filterMap id
  (cs, bs.drop (encode cs).length)

/-- Reads one more argument. -/
def next (r : Reading) (arg : Bytes) : Except Halt Reading :=
  if r.ended then r.place arg
  else if arg = [dash, dash] then .ok { r with ended := true }
  else
    match arg with
    | 0x2D :: 0x2D :: rest =>
      let word := rest.takeWhile (· ≠ equalsSign)
      let value := if rest.contains equalsSign then some (rest.drop (word.length + 1)) else none
      r.long word value
    | 0x2D :: b :: rest =>
      let (cs, suffix) := splitText (b :: rest)
      r.shorts cs suffix
    | _ =>
      match r.pending with
      | some (a, none) => .ok { r with pending := some (a, some arg) }
      | _ => r.place arg

end Reading

/-! ### Calls -/

/-- What a call asks for. -/
structure Request where
  config : Config
  verbose : Bool
  quiet : Bool
deriving DecidableEq, Repr, Inhabited

namespace Reading

def text (r : Reading) (a : Argument) (default : String) : String :=
  match r.given.find? fun g ↦ g.1 = a with
  | some (_, value) => String.ofList (decodeLossy value)
  | none => default

def count (r : Reading) (a : Argument) (default : Nat) : Nat :=
  match r.given.find? fun g ↦ g.1 = a with
  | some (_, value) => (number (decodeLossy value)).toOption.getD default
  | none => default

def directory (r : Reading) (default : Path) : Path :=
  match r.given.find? fun g ↦ g.1 = .packageDir with
  | some (_, value) => ⟨value⟩
  | none => default

/-- What has been asked for, where nothing is pending. -/
def request (r : Reading) : Request :=
  let d : Config := {}
  { config := {
      baseDir := r.directory d.baseDir
      bundleDir := r.text .bundleDir d.bundleDir
      extension := r.text .extension d.extension
      condition := r.text .condition d.condition
      manifest := r.text .manifest d.manifest
      jobs := r.count .jobs d.jobs }
    verbose := r.has .verbose
    quiet := r.has .quiet }

/-- The fault of giving both the verbose and the quiet flag; the first of them is named first. -/
def conflict? (r : Reading) : Option Refusal :=
  if r.has .verbose && r.has .quiet then
    let both := r.used.filter fun a ↦ a = .verbose || a = .quiet
    match both with
    | [a, b] => some ⟨.conflict a b, r.used.filter (· ≠ b)⟩
    | _ => none
  else none

end Reading

/-- Reads the arguments of a call. -/
def Request.ofArguments (args : List Bytes) : Except Halt Request := do
  let r ← args.foldlM Reading.next {}
  let r ← Reading.orHalt r.settle
  match r.conflict? with
  | some refusal => .error (.refused refusal)
  | none => return r.request

end BundleLink.CommandLine
