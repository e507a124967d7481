import BundleLink.Event
import BundleLink.Text.Basic

/-!
Updating a package manifest. Every export whose `default` target lies in the bundle directory gets
the condition that points at the linked artifact, in the first place so that it is tried before
`default`. Every side effect that names a bundle literally is listed for the artifact too. Nothing
else in the manifest changes, and an update that fails changes nothing.
-/

set_option autoImplicit false

namespace BundleLink

open BundleLink.Json BundleLink.Text

/-- A condition that an export has gained. -/
structure ConditionChange where
  subpath : String
  target : String
deriving DecidableEq, Repr, Inhabited

/-- What an update has added to a manifest. -/
structure ManifestChanges where
  conditions : List ConditionChange := []
  sideEffects : List String := []
deriving DecidableEq, Repr, Inhabited

def ManifestChanges.isEmpty (c : ManifestChanges) : Bool :=
  c.conditions.isEmpty && c.sideEffects.isEmpty

/-- An updated manifest, what was added to it, and what was reported. -/
structure ManifestUpdate where
  manifest : Value
  changes : ManifestChanges
  log : Log
deriving Inhabited

namespace Manifest

/-! ### Exports -/

/-- The linked artifact of a conditions object, if its default lies in the bundle directory. -/
def linkedTarget? (c : Config) (conditions : Entries) : Option String :=
  match conditions.get? "default" with
  | some (.string target) =>
    if occursIn c.bundleDirName target then some (c.linkedName target) else none
  | _ => none

/-- One export after an update. -/
structure ExportUpdate where
  entry : String × Value
  change : Option ConditionChange
  event : Event
deriving Inhabited

def updateExport (c : Config) (entry : String × Value) : ExportUpdate :=
  let subpath := entry.1
  match entry.2.entries? with
  | none => ⟨entry, none, .exportNotObject subpath⟩
  | some conditions =>
    match linkedTarget? c conditions with
    | none => ⟨entry, none, .exportOutside subpath c.bundleDirName⟩
    | some target =>
      if conditions.contains c.condition then
        ⟨entry, none, .exportPresent subpath c.condition⟩
      else
        ⟨(subpath, .object ((c.condition, .string target) :: conditions)),
          some ⟨subpath, target⟩, .exportLinked subpath c.condition target⟩

/-! ### Side effects -/

/-- Whether a pattern names one file that is not an artifact. -/
def isLiteral (c : Config) (pattern : String) : Bool :=
  !(pattern.toList.any fun x ↦ x = '*' || x = '?') && !endsWith c.suffix pattern

/-- What a pattern begins with if it lies in the bundle directory. -/
def scope (c : Config) : String :=
  c.bundleDirName ++ "/"

def inScope (c : Config) (pattern : String) : Bool :=
  (scope c).toList.isPrefixOf (dropDotSlashes pattern.toList)

/-- The literal patterns of a list of side effects. -/
def literals (c : Config) (patterns : List Value) : List String :=
  (patterns.filterMap Value.string?).filter (isLiteral c)

/-- The linked forms that a list of side effects lacks, each once. -/
def missingSideEffects (c : Config) (patterns : List Value) : List String :=
  let linked := ((literals c patterns).filter (inScope c)).map c.linkedName
  (linked.filter fun p ↦ !(patterns.filterMap Value.string?).contains p).eraseDups

def sideEffectLog (c : Config) (patterns : List Value) : Log :=
  ((literals c patterns).filter fun p ↦ !inScope c p).map fun p ↦ .sideEffectOutside p (scope c)

/-! ### Manifests -/

/-- The list of side effects, if the manifest has one. -/
def sideEffects? (entries : Entries) : Option (List Value) :=
  match entries.get? "sideEffects" with
  | some (.array patterns) => some patterns
  | _ => none

/-- The entries of a manifest with the given exports, after an update. -/
def updateEntries (c : Config) (entries exports : Entries) : ManifestUpdate :=
  let updated := exports.map (updateExport c)
  let conditions := updated.filterMap (·.change)
  let entries := entries.put "exports" (.object (updated.map (·.entry)))
  let log := updated.map (·.event)
  match sideEffects? entries with
  | none => ⟨.object entries, ⟨conditions, []⟩, log⟩
  | some patterns =>
    let added := missingSideEffects c patterns
    ⟨.object (entries.put "sideEffects" (.array (patterns ++ added.map .string))),
      ⟨conditions, added⟩, log ++ sideEffectLog c patterns⟩

/-- Updates a manifest. -/
def update (c : Config) (manifest : Value) : Except Failure ManifestUpdate :=
  match manifest with
  | .object entries =>
    match Entries.get? entries "exports" with
    | none | some .null => .error (.missingExports c.manifestPath)
    | some (.object exports) => .ok (updateEntries c entries exports)
    | some _ => .error (.unsupportedExports c.manifestPath)
  | _ => .error (.missingExports c.manifestPath)

/-! ### Manifests in memory -/

/-- A manifest in memory, and what has been reported. -/
structure Held where
  manifest : Value
  log : Log

/-- Steps that change a manifest where it is. What was changed before a failure stays changed. -/
abbrev Edit := EStateM Failure Held

namespace Edit

/-- Sets the value of a key, if the manifest is an object. -/
def put (key : String) (value : Value) : Edit Unit :=
  modify fun s ↦
    match s.manifest with
    | .object es => { s with manifest := .object (Entries.put es key value) }
    | _ => s

def report (e : Event) : Edit Unit :=
  modify fun s ↦ { s with log := s.log ++ [e] }

/-- Updates exports one by one; those in `done` come before them. -/
def exports (c : Config) : Entries → Entries → Edit (List ConditionChange)
  | _, [] => return []
  | done, e :: es => do
    let u := updateExport c e
    put "exports" (.object (done ++ u.entry :: es))
    report u.event
    let changes ← exports c (done ++ [u.entry]) es
    return u.change.toList ++ changes

/-- Reports events one by one. -/
def reportAll : Log → Edit Unit
  | [] => return
  | e :: log => do
    report e
    reportAll log

/-- Extends the side effects, if there is a list of them. -/
def sideEffects (c : Config) : Edit (List String) := do
  match (← get).manifest.entries?.bind sideEffects? with
  | none => return []
  | some patterns =>
    let added := missingSideEffects c patterns
    reportAll (sideEffectLog c patterns)
    put "sideEffects" (.array (patterns ++ added.map .string))
    return added

end Edit

/-- Updates a manifest in place. -/
def edit (c : Config) : Edit ManifestChanges := do
  match (← get).manifest with
  | .object entries =>
    match Entries.get? entries "exports" with
    | none | some .null => throw (.missingExports c.manifestPath)
    | some (.object exports) =>
      let conditions ← Edit.exports c [] exports
      let sideEffects ← Edit.sideEffects c
      return ⟨conditions, sideEffects⟩
    | some _ => throw (.unsupportedExports c.manifestPath)
  | _ => throw (.missingExports c.manifestPath)

end Manifest

end BundleLink
