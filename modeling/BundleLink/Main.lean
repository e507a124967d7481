import BundleLink.CommandLine.Run

/-!
The command in a real directory: the files that a call can reach are read, the call is run on them,
and what it changed is written back.
-/

set_option autoImplicit false

namespace BundleLink.CommandLine

open BundleLink.Text

/-- The path of an address from the root, if it is text. -/
def absolute? (loc : Address) : Option String :=
  ((FileSystem.joined loc).text?).map ("/" ++ ·)

/-- Reads what stands at an address and, at most so deep, below it. -/
def load : Nat → Address → FileSystem → IO FileSystem
  | 0, _, files => return files
  | depth + 1, loc, files => do
    let some name := absolute? loc | return files
    let path := (← IO.currentDir) / name
    if ← path.isDir then
      let mut files := files.put loc .directory
      for entry in ← path.readDir do
        files ← load depth (loc ++ [bytesOf entry.fileName]) files
      return files
    else if ← path.pathExists then
      return files.put loc (.file (← IO.FS.readBinFile path).toList)
    else
      return files

/-- The directories that lead to an address and are there. -/
def loadAround (loc : Address) (files : FileSystem) : IO FileSystem := do
  let mut files := files
  for n in List.range loc.length do
    if let some name := absolute? (loc.take n) then
      if ← ((← IO.currentDir) / name).isDir then
        files := files.put (loc.take n) .directory
  return files

/-- The files that a call can reach. -/
def snapshot (c : Config) : IO FileSystem := do
  let current : Address := FileSystem.steps (.ofString (← IO.currentDir).toString)
  let mut files : FileSystem := ⟨[], current⟩
  for p in [c.baseDir, c.bundleRoot, c.manifestPath] do
    let loc := FileSystem.addressFrom current p
    files ← loadAround loc files
    if p ≠ c.baseDir then
      files ← load 64 loc files
    else if let some name := absolute? loc then
      if ← ((← IO.currentDir) / name).isDir then
        files := files.put loc .directory
  return files.put current .directory

end BundleLink.CommandLine

open BundleLink BundleLink.Text

def main (args : List String) : IO UInt32 := do
  let args := args.map bytesOf
  let environment := (← IO.getEnv "RUST_LOG").map bytesOf
  let before ←
    match CommandLine.Request.ofArguments args with
    | .ok request => CommandLine.snapshot request.config
    | .error _ => pure ⟨[], []⟩
  let result := CommandLine.run args environment before
  IO.print result.output
  for notice in result.notices do
    match notice with
    | .text s => IO.eprint s
    | .log e =>
      let (first, rest) := CommandLine.eventLines e
      IO.eprintln (String.intercalate "\n" (first :: rest))
  for (loc, content) in result.files.changedSince before do
    if let some name := CommandLine.absolute? loc then
      IO.FS.writeBinFile name ⟨content.toArray⟩
  return result.exitCode.toUInt32
