import BundleLink.FileSystem
import BundleLink.Glob.Pattern

/-!
Searching a file system for the paths that a pattern matches. The pattern is cut at its separators.
A part without wildcards is looked up, any other is tried on every name in the directory, in the
order of their bytes; `**` is tried on directories at any depth. Symbolic links to directories are
followed. An entry of a directory is taken for what the directory says it is, so a search can come to
directories by paths that are too long to read them.
-/

set_option autoImplicit false

namespace BundleLink.Glob

open BundleLink.Text

/-- A pattern cut into the parts between separators. -/
structure Query where
  /-- Where the search begins. -/
  scope : Path
  parts : List Pattern
  /-- Whether only directories are asked for. -/
  directoriesOnly : Bool
deriving DecidableEq, Repr, Inhabited

/-- The parts between separators; no part follows one at the end. -/
def cutAtSlashes (cs : List Char) : List (List Char) :=
  let parts := partsBetween '/' cs
  if parts.getLast? = some [] then parts.dropLast else parts

namespace Query

/-- Where the search for a pattern begins, and the pattern from there on. -/
def cutScope : List Char → Path × List Char
  | '/' :: cs => (.ofString "/", cs)
  | cs => (.ofString ".", cs)

/-- The whole pattern has to be well formed, and each of its parts too. -/
def ofChars (cs : List Char) : Except Flaw Query := do
  let _ ← Pattern.ofChars cs
  let (scope, cs') := cutScope cs
  let parts ← (cutAtSlashes cs').mapM Pattern.ofChars
  return ⟨scope, if cs'.isEmpty then parts ++ [[]] else parts, cs.getLast? = some '/'⟩

end Query

/-- Whether a path is the current directory itself. -/
def isHere (p : Path) : Bool :=
  p.components = [.here]

/-- The path of an entry of a directory. -/
def child (p name : Path) : Path :=
  if isHere p then name else p.join name

/-- All but the last of the recursive parts that a pattern begins with are idle. -/
def dropIdle : List Pattern → List Pattern
  | p :: q :: ps => if p.isRecursive && q.isRecursive then dropIdle (q :: ps) else p :: q :: ps
  | ps => ps

/-- Where a search has come to. -/
@[ext]
structure Spot where
  path : Path
  /-- Whether a directory stands there, be its path too long to read it. -/
  isDirectory : Bool
deriving DecidableEq, Repr, Inhabited

/-- A path that a pattern matches, or a directory in its way that cannot be read. -/
abbrev Finding := Except Unread Path

section

variable (fs : FileSystem)

/-- The spot of a path that is looked up. -/
def Spot.ofPath (p : Path) : Spot :=
  ⟨p, fs.isDirectory p⟩

/-- The spot of a name in the directory at an address. What it is the directory says; only a symbolic
link is looked up. -/
def Spot.ofEntry (loc : Address) (p : Path) (name : Bytes) : Spot :=
  match fs.lookup? (loc ++ [name]) with
  | some (.link _) => ofPath fs (child p ⟨name⟩)
  | entry => ⟨child p ⟨name⟩, entry = some .directory⟩

variable (closed : List Address)

/-- The entries of a directory, in the order of their names. -/
def contents (p : Path) : Except Unread (List Spot) :=
  match fs.openDirectory closed p with
  | .ok loc => .ok ((fs.names loc).map (Spot.ofEntry fs loc p))
  | .error problem => .error ⟨p, problem⟩

/-- What is found among the entries of a directory, if it can be read. There are none in a file. -/
def within (s : Spot) (found : List Spot → List Finding) : List Finding :=
  if s.isDirectory then
    match contents fs closed s.path with
    | .ok spots => found spots
    | .error unread => [.error unread]
  else []

variable (directoriesOnly : Bool)

def wanted (s : Spot) : List Finding :=
  if !directoriesOnly || s.isDirectory then [.ok s.path] else []

def dotNames : List String :=
  ["..", "."]

/-- The steps up and in place that a pattern matches; it has to begin with a dot itself. -/
def matchedDots (part : Pattern) : List Path :=
  if part.head? = some (.char '.') then
    (dotNames.filter fun s ↦ part.matchesName s.toList).map .ofString
  else []

/-- The matches of parts below a spot. `visit` tries parts on a spot from the first of them on. -/
def below (visit : List Pattern → Spot → List Finding) : List Pattern → Spot → List Finding
  | [], _ => []
  | part :: rest, s =>
    let onward (next : Path) : List Finding :=
      if rest.isEmpty then wanted directoriesOnly (.ofPath fs next)
      else below visit rest (.ofPath fs next)
    match part.literal? with
    | some name =>
      let next := child s.path (.ofString (String.ofList name))
      let found :=
        if dotNames.contains (String.ofList name) then s.isDirectory else fs.exists? next
      if found then onward next else []
    | none =>
      within fs closed s fun spots ↦
        (matchedDots part).flatMap (fun dots ↦ onward (s.path.join dots)) ++
          spots.flatMap (visit (part :: rest))

/-- The matches of parts the first of which is tried on the name of a spot. -/
def matching (visit : List Pattern → Spot → List Finding) : List Pattern → Spot → List Finding
  | [], _ => []
  | part :: rest, s =>
    match s.path.fileName?.bind decode? with
    | none => []
    | some name =>
      if part.matchesName name then
        if rest.isEmpty then wanted directoriesOnly s
        else below fs closed directoriesOnly visit rest s
      else []

/-- The matches of parts at a spot or, if the first is recursive, at any depth below it. -/
def visitWith (visit : List Pattern → Spot → List Finding) (parts : List Pattern) (s : Spot) :
    List Finding :=
  match dropIdle parts with
  | [] => []
  | part :: rest =>
    if part.isRecursive then
      let here :=
        if rest.isEmpty then (if s.isDirectory then [.ok s.path] else [])
        else matching fs closed directoriesOnly visit rest s
      here ++
        if s.isDirectory then below fs closed directoriesOnly visit (part :: rest) s else []
    else matching fs closed directoriesOnly visit (part :: rest) s

/-- The matches at most so many directories deep. -/
def visit : Nat → List Pattern → Spot → List Finding
  | 0, _, _ => []
  | depth + 1, parts, s => visitWith fs closed directoriesOnly (visit depth) parts s

end

/-- How many directories can follow one another below one path: between two of its symbolic links a
path meets every directory at most once, and each part of a pattern begins anew. Files lead nowhere.
-/
def maxDepth (fs : FileSystem) (parts : List Pattern) : Nat :=
  (FileSystem.maxLinks + 1) * ((fs.entries.countP fun e ↦ e.2.leadsOn) + 2) * (parts.length + 1)

/-- What the search for a pattern meets, in its order: the paths that match, and the directories that
it had to pass by because they could not be read. -/
def search (fs : FileSystem) (closed : List Address) (q : Query) : List Finding :=
  below fs closed q.directoriesOnly
    (visit fs closed q.directoriesOnly (maxDepth fs q.parts)) q.parts (.ofPath fs q.scope)

end BundleLink.Glob
