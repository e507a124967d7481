import BundleLink.CommandLine.Invocation
import BundleLink.Proofs.Text.Utf8
import Mathlib.Data.List.Nodup

/-!
What can be written on a command line, told without its reader. The words of a call spell arguments
with their values (`Spells`), each argument may be given once and with a value that fits it
(`Valid`), and what is given says what the configuration is, field by field (`Configured`).
-/

set_option autoImplicit false

namespace BundleLink.CommandLine

open BundleLink.Text

open Reading (dash equalsSign)

/-! ### Arguments -/

namespace Argument

/-- The flags choose what is logged and nothing else. -/
def IsFlag (a : Argument) : Prop :=
  a = verbose ∨ a = quiet

instance : DecidablePred IsFlag := fun _ ↦ inferInstanceAs (Decidable (_ ∨ _))

theorem IsFlag.takesValue_eq {a : Argument} (ha : a.IsFlag) : a.takesValue = false := by
  rcases ha with rfl | rfl <;> rfl

/-- The text that an argument asks for in place of a run. -/
def asks? : Argument → Option Halt
  | help => some .help
  | version => some .version
  | _ => none

/-- What takes no value is a flag or asks for a text. -/
theorem isFlag_or_asks {a : Argument} (ha : a.takesValue = false) :
    a.IsFlag ∨ ∃ h, a.asks? = some h := by
  cases a <;> simp_all [takesValue, value?, IsFlag, asks?]

theorem IsFlag.asks?_eq {a : Argument} (ha : a.IsFlag) : a.asks? = none := by
  rcases ha with rfl | rfl <;> rfl

theorem asks?_of_takesValue {a : Argument} (ha : a.takesValue) : a.asks? = none := by
  cases a <;> first | rfl | cases ha

theorem ofLong?_eq_some {word : String} {a : Argument} :
    ofLong? word = some a ↔ a.long? = some word := by
  constructor
  · intro hfind
    simpa using List.find?_some hfind
  · intro hword
    cases a <;> cases hword <;> rfl

theorem ofShort?_eq_some {letter : Char} {a : Argument} :
    ofShort? letter = some a ↔ a.short? = some letter := by
  constructor
  · intro hfind
    simpa using List.find?_some hfind
  · intro hletter
    cases a <;> cases hletter <;> rfl

theorem ne_packageDir_of_long {word : String} {a : Argument} (hword : a.long? = some word) :
    a ≠ packageDir := by
  rintro rfl
  cases hword

theorem ne_packageDir_of_short {letter : Char} {a : Argument} (hletter : a.short? = some letter) :
    a ≠ packageDir := by
  rintro rfl
  cases hletter

theorem long_ne_nil {word : String} {a : Argument} (hword : a.long? = some word) :
    bytesOf word ≠ [] := by
  cases a <;> cases hword <;> decide

theorem equalsSign_notMem_long {word : String} {a : Argument} (hword : a.long? = some word) :
    equalsSign ∉ bytesOf word := by
  cases a <;> cases hword <;> decide

/-- The letter of an argument is one byte, and no dash. -/
theorem exists_encode_letter {letter : Char} {a : Argument} (hletter : a.short? = some letter) :
    ∃ b, encode [letter] = [b] ∧ b ≠ dash := by
  cases a <;> cases hletter <;> exact ⟨_, rfl, by decide⟩

theorem IsFlag.exists_short {a : Argument} (ha : a.IsFlag) : ∃ letter, a.short? = some letter := by
  rcases ha with rfl | rfl <;> exact ⟨_, rfl⟩

end Argument

/-! ### Words -/

/-- The letters of arguments. -/
def letters (fs : List Argument) : Bytes :=
  encode (fs.filterMap Argument.short?)

/-- Flags as given arguments. -/
def flagged (fs : List Argument) : List (Argument × Bytes) :=
  fs.map (·, [])

/-- A word that does not look like an option. -/
def Standing (word : Bytes) : Prop :=
  word = [dash] ∨ word.head? ≠ some dash

/-- What names an argument before its value: its word after two dashes, or its letter after one and
after the letters of flags, which are given with it. -/
inductive Lead : Bytes → List Argument → Argument → Prop
  | long {a : Argument} {word : String} : a.takesValue → a.long? = some word →
      Lead (dash :: dash :: bytesOf word) [] a
  | short {fs : List Argument} {a : Argument} {letter : Char} : (∀ f ∈ fs, f.IsFlag) →
      a.takesValue → a.short? = some letter → Lead (dash :: (letters fs ++ encode [letter])) fs a

/-- The words that belong together, and the arguments they give. -/
inductive Word : List Bytes → List (Argument × Bytes) → Prop
  | place {word : Bytes} : Standing word → Word [word] [(.packageDir, word)]
  | flag {f : Argument} {word : String} : f.IsFlag → f.long? = some word →
      Word [dash :: dash :: bytesOf word] [(f, [])]
  | flags {fs : List Argument} : fs ≠ [] → (∀ f ∈ fs, f.IsFlag) →
      Word [dash :: letters fs] (flagged fs)
  | equals {lead : Bytes} {fs : List Argument} {a : Argument} (value : Bytes) : Lead lead fs a →
      Word [lead ++ equalsSign :: value] (flagged fs ++ [(a, value)])
  | attached {fs : List Argument} {a : Argument} {letter : Char} {value : Bytes} :
      (∀ f ∈ fs, f.IsFlag) → a.takesValue → a.short? = some letter → value ≠ [] →
      value.head? ≠ some equalsSign →
      Word [dash :: (letters fs ++ encode [letter] ++ value)] (flagged fs ++ [(a, value)])
  | apart {lead : Bytes} {fs : List Argument} {a : Argument} {value : Bytes} : Lead lead fs a →
      Standing value → Word [lead, value] (flagged fs ++ [(a, value)])

/-- The arguments that the words of a call give. After two dashes every word is a directory. -/
inductive Spells : List Bytes → List (Argument × Bytes) → Prop
  | nil : Spells [] []
  | ended (words : List Bytes) : Spells ([dash, dash] :: words) (words.map (.packageDir, ·))
  | word {tokens words : List Bytes} {ps g : List (Argument × Bytes)} : Word tokens ps →
      Spells words g → Spells (tokens ++ words) (ps ++ g)

/-- A word that asks for a text; the flags before a letter that asks for one are given. -/
inductive Inquiry : Bytes → List (Argument × Bytes) → Halt → Prop
  | long {a : Argument} {h : Halt} {word : String} : a.asks? = some h → a.long? = some word →
      Inquiry (dash :: dash :: bytesOf word) [] h
  | letter {fs : List Argument} {a : Argument} {h : Halt} {letter : Char} (rest : Bytes) :
      (∀ f ∈ fs, f.IsFlag) → a.asks? = some h → a.short? = some letter →
      Inquiry (dash :: (letters fs ++ encode [letter] ++ rest)) (flagged fs) h

/-- The words of a call ask for a text, after they have given some arguments. -/
inductive Asks : List Bytes → List (Argument × Bytes) → Halt → Prop
  | here {word : Bytes} {g : List (Argument × Bytes)} {h : Halt} (words : List Bytes) :
      Inquiry word g h → Asks (word :: words) g h
  | later {tokens words : List Bytes} {ps g : List (Argument × Bytes)} {h : Halt} :
      Word tokens ps → Asks words g h → Asks (tokens ++ words) (ps ++ g) h

/-! ### Values -/

/-- A numeral that a number of jobs can be read from. -/
def Numeral (value : Bytes) (n : Nat) : Prop :=
  ∃ sign ds, (sign = [] ∨ sign = ['+']) ∧ ds ≠ [] ∧ (∀ d ∈ ds, d.isDigit) ∧
    value = encode (sign ++ ds) ∧ n = Nat.ofDigitChars 10 ds 0 ∧ n ≤ maxJobs

/-- The values that fit an argument. -/
def Argument.Fits : Argument → Bytes → Prop
  | packageDir, value => value ≠ []
  | jobs, value => ∃ n, Numeral value n
  | bundleDir, value | extension, value | condition, value | manifest, value =>
    ∃ s, value = bytesOf s
  | verbose, value | quiet, value | help, value | version, value => value = []

/-- Every argument is given at most once, and with a value that fits it. -/
structure Valid (g : List (Argument × Bytes)) : Prop where
  nodup : (g.map Prod.fst).Nodup
  fits : ∀ x ∈ g, x.1.Fits x.2

theorem Valid.nil : Valid [] :=
  ⟨List.nodup_nil, fun _ hx ↦ absurd hx List.not_mem_nil⟩

theorem Valid.sublist {g g' : List (Argument × Bytes)} (hg : Valid g) (hsub : g'.Sublist g) :
    Valid g' :=
  ⟨hg.nodup.sublist (hsub.map Prod.fst), fun x hx ↦ hg.fits x (hsub.subset hx)⟩

theorem Valid.left {g g' : List (Argument × Bytes)} (hg : Valid (g ++ g')) : Valid g :=
  hg.sublist (List.sublist_append_left g g')

theorem valid_concat {g : List (Argument × Bytes)} {a : Argument} {value : Bytes} :
    Valid (g ++ [(a, value)]) ↔ Valid g ∧ a ∉ g.map Prod.fst ∧ a.Fits value := by
  constructor
  · intro hg
    have hnodup := hg.nodup
    rw [List.map_append, List.map_singleton, ← List.concat_eq_append,
      List.nodup_concat] at hnodup
    exact ⟨hg.left, hnodup.1, hg.fits (a, value) (by simp)⟩
  · rintro ⟨hg, hnew, hvalue⟩
    refine ⟨?_, fun x hx ↦ ?_⟩
    · rw [List.map_append, List.map_singleton, ← List.concat_eq_append]
      exact hg.nodup.concat hnew
    · rcases List.mem_append.mp hx with hx | hx
      · exact hg.fits x hx
      · rwa [List.mem_singleton.mp hx]

/-! ### The configuration asked for -/

/-- A field of the configuration: read from the value that its argument is given, or else the
default. -/
def Field {α : Type} (g : List (Argument × Bytes)) (a : Argument) (read : Bytes → α → Prop)
    (default x : α) : Prop :=
  (∃ value, (a, value) ∈ g ∧ read value x) ∨ (a ∉ g.map Prod.fst ∧ x = default)

structure Configured (g : List (Argument × Bytes)) (c : Config) : Prop where
  baseDir : Field g .packageDir (fun value path ↦ path = ⟨value⟩) (Path.ofString ".") c.baseDir
  bundleDir : Field g .bundleDir (fun value s ↦ value = bytesOf s) "fesm2022" c.bundleDir
  extension : Field g .extension (fun value s ↦ value = bytesOf s) "mjs" c.extension
  condition : Field g .condition (fun value s ↦ value = bytesOf s) "ng-linked" c.condition
  manifest : Field g .manifest (fun value s ↦ value = bytesOf s) "package.json" c.manifest
  jobs : Field g .jobs Numeral 64 c.jobs

end BundleLink.CommandLine
