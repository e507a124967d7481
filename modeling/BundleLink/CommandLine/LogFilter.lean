import BundleLink.Event
import BundleLink.Regular.Reader
import BundleLink.Text.Basic

/-!
Which events are logged. A filter is a list of directives such as `info` or `ng_link=warn`,
separated by commas; the longest name that an event's target begins with decides on its level. After
a slash stands a regular expression that has to match in a message.
-/

set_option autoImplicit false

namespace BundleLink.CommandLine

open BundleLink.Text

/-- The most detailed level logged, for targets that begin with `name`. -/
structure Directive where
  name : Option String
  /-- Nothing is logged without a level. -/
  level : Option Level
deriving DecidableEq, Repr, Inhabited

structure LogFilter where
  directives : List Directive
  /-- What has to match in a message. -/
  within : Option Regular.Expr
deriving DecidableEq, Repr, Inhabited

/-- A specification that is passed over. -/
inductive FilterProblem where
  | malformed (spec : String)
  | manySlashes (spec : String)
  | badExpression (text : String) (flaw : Regular.Flaw)
deriving DecidableEq, Repr, Inhabited

def FilterProblem.message : FilterProblem → String
  | malformed spec => "warning: invalid logging spec '" ++ spec ++ "', ignoring it\n"
  | manySlashes spec =>
    "warning: invalid logging spec '" ++ spec ++ "' (too many '/'s), ignoring it\n"
  | badExpression text flaw =>
    "warning: invalid regex filter - " ++ flaw.message text ++ ", ignoring it\n"

/-- A level by its name in any case, or `off`. -/
def level? (word : List Char) : Option (Option Level) :=
  let upper := String.ofList (word.map Char.toUpper)
  if upper = "OFF" then some none
  else
    ([.error, .warn, .info, .debug, .trace] : List Level).find? (·.name = upper) |>.map some

/-- One directive; a lone word is a level or else a name. -/
def directive (spec : List Char) : Except FilterProblem Directive :=
  match partsBetween '=' spec with
  | [word] =>
    match level? word with
    | some level => .ok ⟨none, level⟩
    | none => .ok ⟨some (String.ofList word), some .trace⟩
  | [name, word] =>
    let word := trim word
    if word.isEmpty then .ok ⟨some (String.ofList name), some .trace⟩
    else
      match level? word with
      | some level => .ok ⟨some (String.ofList name), level⟩
      | none => .error (.malformed (String.ofList word))
  | _ => .error (.malformed (String.ofList spec))

/-- A later directive replaces an earlier one of its name. -/
def insertDirective (ds : List Directive) (d : Directive) : List Directive :=
  if ds.any fun e ↦ e.name = d.name then ds.map fun e ↦ if e.name = d.name then d else e
  else ds ++ [d]

namespace LogFilter

/-- The filter that a specification describes, and what is wrong with it. -/
def ofSpec (spec : String) : LogFilter × List FilterProblem :=
  let (results, within) : List (Except FilterProblem Directive) × Option String :=
    match partsBetween '/' spec.toList with
    | [names] => (specs names, none)
    | [names, text] => (specs names, some (String.ofList text))
    | _ => ([.error (.manySlashes spec)], none)
  let directives := (results.filterMap (·.toOption)).foldl insertDirective []
  let directives := if directives.isEmpty then [⟨none, some .error⟩] else directives
  let problems := results.filterMap problem?
  match within.map fun text ↦ (text, Regular.Expr.ofText text) with
  | none => (⟨directives, none⟩, problems)
  | some (_, .ok e) => (⟨directives, some e⟩, problems)
  | some (text, .error flaw) => (⟨directives, none⟩, problems ++ [.badExpression text flaw])
where
  problem? : Except FilterProblem Directive → Option FilterProblem
    | .error p => some p
    | .ok _ => none
  specs (names : List Char) : List (Except FilterProblem Directive) :=
    (((partsBetween ',' names).map trim).filter (!·.isEmpty)).map directive

/-- The directive of the longest name that a target begins with; the last of equals. -/
def directiveFor? (f : LogFilter) (target : String) : Option Directive :=
  let fitting := f.directives.filter fun d ↦ startsWith (d.name.getD "") target
  fitting.foldl (fun best d ↦
    match best with
    | some b => if (b.name.getD "").length ≤ (d.name.getD "").length then some d else best
    | none => some d) none

def enables (f : LogFilter) (e : Event) : Bool :=
  let loud :=
    match f.directiveFor? e.target with
    | some ⟨_, some level⟩ => e.level.detail ≤ level.detail
    | _ => false
  let held :=
    match f.within with
    | some inner => inner.matchesIn e.text
    | none => true
  loud && held

end LogFilter

end BundleLink.CommandLine
