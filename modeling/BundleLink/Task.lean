import BundleLink.FileSystem
import BundleLink.Json.Printer
import BundleLink.Link.Source
import BundleLink.Manifest

/-!
The tasks of a run: one for the manifest and one for each bundle. A task reads one file and works
out a `Draft` of another; later it writes the draft. A task that fails before it writes leaves every
file as it is, and so does a write that fails.
-/

set_option autoImplicit false

namespace BundleLink

open BundleLink.Link BundleLink.Text

/-- What a run was, after it or a part of it has ended. -/
structure Outcome (α : Type) where
  files : FileSystem
  result : Except Failure α
  log : Log

/-- A file that is still to be written. -/
structure Draft (α : Type) where
  target : Path
  content : Bytes
  /-- What the task yields once the file is written. -/
  output : α
  /-- What is reported then. -/
  event : Event

namespace Draft

def map {α β : Type} (f : α → β) (d : Draft α) : Draft β :=
  ⟨d.target, d.content, f d.output, d.event⟩

/-- Writes the draft, after the events in `log`. -/
def commit {α : Type} (files : FileSystem) (log : Log) (d : Draft α) : Outcome α :=
  match files.write d.target d.content with
  | .ok files => ⟨files, .ok d.output, log ++ [d.event]⟩
  | .error e => ⟨files, .error (.file d.target e), log⟩

end Draft

/-- What a task has come to when it has read its file. -/
abbrev Prepared (α : Type) := Except Failure (Draft α) × Log

namespace Prepared

/-- Ends a task. -/
def finish {α : Type} (files : FileSystem) (p : Prepared α) : Outcome α :=
  match p.1 with
  | .ok d => d.commit files p.2
  | .error e => ⟨files, .error e, p.2⟩

def map {α β : Type} (f : α → β) (p : Prepared α) : Prepared β :=
  (p.1.map (·.map f), p.2)

end Prepared

/-- The text of a file. -/
def readFile (files : FileSystem) (p : Path) : Except Failure (List Char) :=
  (files.readText p).mapError (.file p)

/-! ### The manifest -/

def readManifest (c : Config) (files : FileSystem) : Except Failure Json.Value := do
  let text ← readFile files c.manifestPath
  (Json.Value.read (String.ofList text)).mapError (.json c.manifestPath)

/-- What is written if the manifest could be updated. -/
def manifestDraft (c : Config) : Except Failure ManifestUpdate → Prepared ManifestChanges
  | .error e => (.error e, [])
  | .ok u =>
    let event :=
      .manifestUpdated c.manifestPath u.changes.conditions.length u.changes.sideEffects.length
    (.ok ⟨c.manifestPath, bytesOf u.manifest.print, u.changes, event⟩, u.log)

/-- Reads and updates the manifest. -/
def prepareManifest (c : Config) (files : FileSystem) : Prepared ManifestChanges :=
  manifestDraft c (readManifest c files >>= Manifest.update c)

/-- Updates the manifest of a package. -/
def updateManifest (c : Config) (files : FileSystem) : Outcome ManifestChanges :=
  (prepareManifest c files).finish files

/-! ### Bundles -/

/-- Reads and links a bundle. -/
def prepareBundle (c : Config) (o : Options) (files : FileSystem) (bundle : Path) :
    Prepared Path :=
  match readFile files bundle with
  | .error e => (.error e, [])
  | .ok source =>
    match linkSource source bundle o with
    | (.error e, log) => (.error e, log)
    | (.ok linked, log) =>
      let target := c.linkedPath bundle
      (.ok ⟨target, bytesOf linked.code, target, .bundleLinked target linked.rewritten⟩, log)

/-- Links a bundle and writes its artifact beside it. -/
def linkBundle (c : Config) (o : Options) (files : FileSystem) (bundle : Path) : Outcome Path :=
  (prepareBundle c o files bundle).finish files

/-! ### Tasks -/

inductive Task where
  | manifest
  | bundle (path : Path)
deriving DecidableEq, Repr, Inhabited

/-- What a task yields. -/
inductive Product where
  | manifest (changes : ManifestChanges)
  | artifact (path : Path)
deriving DecidableEq, Repr, Inhabited

namespace Task

/-- The first half of a task: it reads. -/
def prepare (c : Config) (o : Options) (files : FileSystem) : Task → Prepared Product
  | manifest => (prepareManifest c files).map .manifest
  | bundle path => (prepareBundle c o files path).map .artifact

/-- Both halves of a task, one after the other. -/
def run (c : Config) (o : Options) (files : FileSystem) (t : Task) : Outcome Product :=
  (t.prepare c o files).finish files

end Task

end BundleLink
