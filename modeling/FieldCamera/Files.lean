import FieldCamera.SystemFault
import FieldCamera.Text.Cut
/-!
# Files

A directory tree with the few operations that the node needs, and what can go wrong with them. A
path is a row of names between slashes. It starts from the root where a slash stands in front, else
from the directory that the node works in. A name of one dot stays where it is, a name of two dots
goes back up, and a slash at the end asks for a directory.
-/

namespace FieldCamera

inductive Files.Entry where
  | file (content : List UInt8)
  | directory
  /-- Takes all that is written and stays empty. -/
  | sink
  deriving DecidableEq, Repr

structure Files where
  /-- The directory that the node works in. -/
  home : List String := []
  /-- The entries of the tree, the latest first, each under its way from the root. -/
  entries : List (List String × Files.Entry) := []
  deriving DecidableEq, Repr

namespace Files

/-- The entry at a way. The working directory and all above it are there. -/
def lookup (f : Files) (way : List String) : Option Entry :=
  if way.isPrefixOf f.home then some .directory
  else (f.entries.find? fun e => e.1 == way).map (·.2)

/-- The names of a path. -/
def names (path : String) : List String :=
  ((Text.pieces '/' path.toList).filter (· ≠ [])).map String.ofList

/-- Where a path starts. -/
def start (home : List String) (path : String) : List String :=
  if path.toList.head? = some '/' then [] else home

/-- A name that stands for a place known without a look. -/
def isDots (name : String) : Bool :=
  name == "." || name == ".."

/-- The way after one more name; nothing is above the root. -/
def move (way : List String) (name : String) : List String :=
  if name = "." then way
  else if name = ".." then way.dropLast
  else way ++ [name]

/-- All ways that a path passes, its own at the end. -/
def passes (home : List String) (path : String) : List (List String) :=
  let names := names path
  (List.range names.length).map fun n => (names.take (n + 1)).foldl move (start home path)

/-- The longest name that the system takes. -/
def longestName : Nat := 255

/-- The longest path that the system takes. -/
def longestPath : Nat := 4095

/-- The entry that a name leads to from a directory. -/
def entry (f : Files) (way : List String) (name : String) : Except SystemFault (Option Entry) :=
  if !isDots name && longestName < name.utf8ByteSize then .error .nameTooLong
  else .ok (f.lookup (move way name))

/-- Goes from a directory to the next one. -/
def enter (f : Files) (way : List String) (name : String) : Except SystemFault (List String) := do
  match ← f.entry way name with
  | some .directory => return move way name
  | some _ => throw .notDirectory
  | none => throw .notFound

/-- Where a path ends: a directory, the last name in it, and whether a slash follows. -/
structure Place where
  parent : List String
  name : String
  isClosed : Bool
  deriving DecidableEq, Repr

namespace Place

def way (p : Place) : List String :=
  move p.parent p.name

/-- Whether only a directory can be there. -/
def isDirectory (p : Place) : Bool :=
  p.isClosed || isDots p.name

end Place

/-- The fault of a path itself, whatever the files are. -/
def pathFault? (path : String) : Option SystemFault :=
  if '\u0000' ∈ path.toList then some .nulInPath
  else if path = "" then some .notFound
  else if longestPath < path.utf8ByteSize then some .nameTooLong
  else none

/-- Goes along a path up to its last name. The root is a dot from itself. -/
def resolve (f : Files) (path : String) : Except SystemFault Place :=
  match pathFault? path with
  | some fault => .error fault
  | none => do
    let names := names path
    let parent ← names.dropLast.foldlM f.enter (start f.home path)
    return ⟨parent, names.getLast?.getD ".", path.toList.getLast? = some '/'⟩

/-- The entry at a place, which has to be a directory where a slash follows. -/
def at? (f : Files) (p : Place) : Except SystemFault (Option Entry) := do
  match ← f.entry p.parent p.name with
  | some .directory => return some .directory
  | some found => if p.isDirectory then throw .notDirectory else return some found
  | none => return none

def put (f : Files) (way : List String) (e : Entry) : Files :=
  { f with entries := (way, e) :: f.entries.filter fun x => x.1 != way }

def drop (f : Files) (way : List String) : Files :=
  { f with entries := f.entries.filter fun x => x.1 != way }

def read (f : Files) (path : String) : Except SystemFault (List UInt8) := do
  match ← f.at? (← f.resolve path) with
  | some (.file content) => return content
  | some .sink => return []
  | some .directory => throw .isDirectory
  | none => throw .notFound

/-- Replaces a file or makes a new one. -/
def write (f : Files) (path : String) (content : List UInt8) : Except SystemFault Files := do
  let place ← f.resolve path
  if place.isDirectory then throw .isDirectory
  else
    match ← f.at? place with
    | some .directory => throw .isDirectory
    | some .sink => return f
    | _ => return f.put place.way (.file content)

def remove (f : Files) (path : String) : Except SystemFault Files := do
  let place ← f.resolve path
  if isDots place.name then throw .isDirectory
  else
    match ← f.at? place with
    | some .directory => throw .isDirectory
    | some _ => return f.drop place.way
    | none => throw .notFound

/-- Makes the directories of a row of names from a directory on, as far as they are not there and
nothing else is in the way. A name that only dots follow is not made for them. -/
def makeAlong (f : Files) (way : List String) : List String → Files × Option SystemFault
  | [] => (f, none)
  | name :: names =>
    let next := move way name
    match f.entry way name with
    | .error fault => (f, some fault)
    | .ok (some .directory) => makeAlong f next names
    | .ok (some _) => (f, some .notDirectory)
    | .ok none =>
      if names = [] ∨ names.any (· ≠ ".") then makeAlong (f.put next .directory) next names
      else (f, some .notFound)

/-- Makes a directory and those on the way to it. Those made before a fault stay. -/
def makeDirectory (f : Files) (path : String) : Files × Option SystemFault :=
  match pathFault? path with
  | some fault => (f, if path = "" then none else some fault)
  | none => makeAlong f (start f.home path) (names path)

/-- Whether anything is there, a directory included. -/
def isThere (f : Files) (path : String) : Bool :=
  match f.resolve path >>= f.at? with
  | .ok (some _) => true
  | _ => false

end Files

end FieldCamera
