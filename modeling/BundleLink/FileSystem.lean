import BundleLink.Failure

/-!
A file system: what stands at each address, where an address is the list of names that leads to it
from the root. A path is resolved name by name from the current directory; symbolic links are
followed, but no more than forty in one path. Entries below a missing directory are out of reach.
-/

set_option autoImplicit false

namespace BundleLink

open BundleLink.Text

/-- The names that lead from the root to an entry. -/
abbrev Address := List Bytes

inductive Entry where
  | file (content : Bytes)
  | link (target : Path)
  | directory
deriving DecidableEq, Repr, Inhabited

/-- Whether a path can lead through an entry. -/
def Entry.leadsOn : Entry → Bool
  | file _ => false
  | _ => true

structure FileSystem where
  entries : List (Address × Entry)
  /-- Where relative paths begin. -/
  current : Address
deriving DecidableEq, Repr, Inhabited

/-- Where a path leads. -/
inductive Place where
  | file (loc : Address) (content : Bytes)
  | directory (loc : Address)
  /-- Nothing stands here, but the directory around it exists. -/
  | vacant (loc : Address)
deriving DecidableEq, Repr, Inhabited

namespace FileSystem

/-- What stands at an address; the root is a directory. -/
def lookup? (fs : FileSystem) (loc : Address) : Option Entry :=
  if loc = [] then some .directory
  else (fs.entries.find? fun e ↦ e.1 = loc).map (·.2)

/-- The entries with one of them set. -/
def putEntry (loc : Address) (entry : Entry) :
    List (Address × Entry) → List (Address × Entry)
  | [] => [(loc, entry)]
  | e :: es => if e.1 = loc then (loc, entry) :: es else e :: putEntry loc entry es

def put (fs : FileSystem) (loc : Address) (entry : Entry) : FileSystem :=
  { fs with entries := putEntry loc entry fs.entries }

def maxName : Nat := 255

def maxPath : Nat := 4095

def maxLinks : Nat := 40

/-- The names of a path and its steps up and in place. -/
def steps (p : Path) : List Bytes :=
  (partsBetween Path.slash p.bytes).filter (· ≠ [])

/-- Where one name of a path leads, from an address. -/
def step (loc : Address) (name : Bytes) : Address :=
  if name = [Path.dot] then loc
  else if name = [Path.dot, Path.dot] then loc.dropLast
  else loc ++ [name]

/-- The address that a path leads to from the current one when none of its steps is a symbolic link.
-/
def addressFrom (current : Address) (p : Path) : Address :=
  (steps p).foldl step (if p.isAbsolute then [] else current)

/-- Follows names from an address. `jump` continues after a symbolic link. -/
def walkWith (fs : FileSystem) (jump : Address → List Bytes → Except FileProblem Place) :
    Address → List Bytes → Except FileProblem Place
  | loc, [] =>
    match fs.lookup? loc with
    | some (.file content) => .ok (.file loc content)
    | some .directory => .ok (.directory loc)
    | _ => .error .notFound
  | loc, name :: names =>
    match fs.lookup? loc with
    | some .directory =>
      if name = [Path.dot] then walkWith fs jump loc names
      else if name = [Path.dot, Path.dot] then walkWith fs jump loc.dropLast names
      else if maxName < name.length then .error .nameTooLong
      else
        match fs.lookup? (loc ++ [name]) with
        | some (.link target) =>
          jump (if target.isAbsolute then [] else loc) (steps target ++ names)
        | some _ => walkWith fs jump (loc ++ [name]) names
        | none => if names.isEmpty then .ok (.vacant (loc ++ [name])) else .error .notFound
    | some (.file _) => .error .notADirectory
    | _ => .error .notFound

/-- Follows names and at most so many symbolic links. -/
def walk (fs : FileSystem) : Nat → Address → List Bytes → Except FileProblem Place
  | 0 => walkWith fs fun _ _ ↦ .error .tooManyLinks
  | links + 1 => walkWith fs (walk fs links)

def resolve (fs : FileSystem) (p : Path) : Except FileProblem Place :=
  if p.bytes.contains 0 then .error .nulByte
  else if p.bytes = [] then .error .notFound
  else if maxPath < p.bytes.length then .error .nameTooLong
  else walk fs maxLinks (if p.isAbsolute then [] else fs.current) (steps p)

/-- Whether a path can only name a directory. -/
def endsInSlash (p : Path) : Bool :=
  p.bytes.getLast? = some Path.slash

def isFile (fs : FileSystem) (p : Path) : Bool :=
  match fs.resolve p with
  | .ok (.file ..) => !endsInSlash p
  | _ => false

def isDirectory (fs : FileSystem) (p : Path) : Bool :=
  match fs.resolve p with
  | .ok (.directory _) => true
  | _ => false

def exists? (fs : FileSystem) (p : Path) : Bool :=
  fs.isFile p || fs.isDirectory p

def readBytes (fs : FileSystem) (p : Path) : Except FileProblem Bytes :=
  match fs.resolve p with
  | .error e => .error e
  | .ok (.file _ content) => if endsInSlash p then .error .notADirectory else .ok content
  | .ok (.directory _) => .error .isADirectory
  | .ok (.vacant _) => .error .notFound

def readText (fs : FileSystem) (p : Path) : Except FileProblem (List Char) :=
  match fs.readBytes p with
  | .error e => .error e
  | .ok content =>
    match decode? content with
    | some cs => .ok cs
    | none => .error .notText

/-- The address that writing to a path writes to. -/
def writeTarget (fs : FileSystem) (p : Path) : Except FileProblem Address :=
  match fs.resolve p with
  | .error e => .error e
  | .ok (.file loc _) => if endsInSlash p then .error .notADirectory else .ok loc
  | .ok (.directory _) => .error .isADirectory
  | .ok (.vacant loc) => if endsInSlash p then .error .isADirectory else .ok loc

/-- Replaces the content of a file, or makes the file. -/
def write (fs : FileSystem) (p : Path) (content : Bytes) : Except FileProblem FileSystem :=
  (fs.writeTarget p).map fun loc ↦ fs.put loc (.file content)

/-- The name of an entry directly below an address. -/
def childName? (loc : Address) (e : Address × Entry) : Option Bytes :=
  match e.1.getLast? with
  | some name => if e.1 = loc ++ [name] then some name else none
  | none => none

/-- The names in a directory, in the order of their bytes. -/
def names (fs : FileSystem) (loc : Address) : List Bytes :=
  ((fs.entries.filterMap (childName? loc)).eraseDups).mergeSort
    fun a b ↦ Path.compareBytes a b ≠ .gt

/-- Where the directory is that a path leads to, if the process may read it. Through a directory that
is closed to it the process may go, but it may not list what is there. -/
def openDirectory (fs : FileSystem) (closed : List Address) (p : Path) :
    Except FileProblem Address :=
  match fs.resolve p with
  | .error e => .error e
  | .ok (.directory loc) => if loc ∈ closed then .error .permissionDenied else .ok loc
  | .ok (.file ..) => .error .notADirectory
  | .ok (.vacant _) => .error .notFound

/-! ### Preparing and comparing -/

/-- Makes the directories that a path names and that do not exist. -/
def makeDirectories (fs : FileSystem) (p : Path) : FileSystem :=
  let start : Path := if p.isAbsolute then .ofString "/" else ⟨[]⟩
  (steps p).foldl (fun (fs, q) name ↦
    let q := q.join ⟨name⟩
    match fs.resolve q with
    | .ok (.vacant loc) => (fs.put loc .directory, q)
    | _ => (fs, q)) (fs, start) |>.1

/-- The path of the directory around an entry, and the name of the entry. -/
def splitLast (p : Path) : Path × Bytes :=
  let names := steps p
  let start : Path := if p.isAbsolute then .ofString "/" else .ofString "."
  (names.dropLast.foldl (fun q name ↦ q.join ⟨name⟩) start, names.getLast?.getD [])

/-- The directory around a path. -/
def parent (p : Path) : Path :=
  (splitLast p).1

/-- The address of an entry; a symbolic link at the end is not followed. -/
def address? (fs : FileSystem) (p : Path) : Option Address :=
  let (around, name) := splitLast p
  match fs.resolve around with
  | .ok (.directory loc) => some (loc ++ [name])
  | _ => none

/-- Makes a symbolic link. -/
def link (fs : FileSystem) (p target : Path) : FileSystem :=
  match fs.address? p with
  | some loc => fs.put loc (.link target)
  | none => fs

/-- Removes an entry and all below it. -/
def remove (fs : FileSystem) (p : Path) : FileSystem :=
  match fs.address? p with
  | some loc => { fs with entries := fs.entries.filter fun e ↦ !loc.isPrefixOf e.1 }
  | none => fs

/-- The files that were made or changed since `before`. -/
def changedSince (fs before : FileSystem) : List (Address × Bytes) :=
  fs.entries.filterMap fun (loc, entry) ↦
    match entry with
    | .file content => if before.lookup? loc = some entry then none else some (loc, content)
    | _ => none

/-- Names with a separator between them. -/
def joined (names : List Bytes) : Path :=
  names.foldl (fun q name ↦ q.join ⟨name⟩) ⟨[]⟩

/-- The path of an address from the current directory, if it lies below it. -/
def relative? (fs : FileSystem) (loc : Address) : Option Path :=
  if fs.current.isPrefixOf loc then some (joined (loc.drop fs.current.length)) else none

end FileSystem

end BundleLink
