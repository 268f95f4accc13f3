import Transect.Error
import Transect.Path

/-!
# File trees

What the program sees of the file system: files with their bytes, and directories. A location is
the list of names that leads to a file, from the working directory or from `/`. Only the way up
from the working directory has the name `..` in it.
-/

namespace Transect

inductive Node where
  | file (bytes : ByteArray)
  | directory

/-- The size that is reported for a directory. -/
def directorySize : Nat := 4096

def Node.size : Node → Nat
  | .file bytes => bytes.size
  | .directory => directorySize

abbrev Location := List String

structure FileTree where
  entries : List (Location × Node)

namespace FileTree

def empty : FileTree := ⟨[]⟩

/-- Whether a location is the working directory or a directory above it. -/
def isAbove (loc : Location) : Bool := loc.all (· == "..")

/-- What is at a location. The working directory, those above it and the root are always there. -/
def node? (tree : FileTree) (loc : Location) : Option Node :=
  if isAbove loc ∨ loc = ["/"] then some .directory else tree.entries.lookup loc

/-! ## Finding -/

/-- The longest name and the longest path, in bytes. -/
def maxName : Nat := 255
def maxPath : Nat := 4095

/-- The directory that holds a location. The root holds itself. -/
def parent (loc : Location) : Location :=
  if loc = ["/"] then loc else if isAbove loc then loc ++ [".."] else loc.dropLast

/-- Where a path starts. -/
def start (path : String) : Location := if Path.isAbsolute path then ["/"] else []

/-- The location that a piece of a path leads to, whether or not it is there. -/
def follow (here : Location) (piece : String) : Location :=
  if piece = "" ∨ piece = "." then here
  else if piece = ".." then parent here
  else here ++ [piece]

/-- Follows the pieces of a path from a location. Only a directory leads further. -/
def walk (tree : FileTree) : Location → List String → Except FileError Location
  | here, [] => .ok here
  | here, piece :: rest =>
    match tree.node? here with
    | some .directory =>
      if maxName < piece.utf8ByteSize then .error .nameTooLong
      else if (tree.node? (follow here piece)).isNone then .error .notFound
      else walk tree (follow here piece) rest
    | some (.file _) => .error .notADirectory
    | none => .error .notFound

/-- The location that a path leads to. -/
def locate (tree : FileTree) (path : String) : Except FileError Location :=
  if path.toList.contains '\x00' then .error .zeroInName
  else if path = "" then .error .notFound
  else if maxPath < path.utf8ByteSize then .error .nameTooLong
  else walk tree (start path) (Path.pieces path)

/-- What a path leads to. -/
def find (tree : FileTree) (path : String) : Except FileError Node := do
  match tree.node? (← tree.locate path) with
  | some node => return node
  | none => throw .notFound

def exists? (tree : FileTree) (path : String) : Bool := (tree.find path).isOk

/-- The names in a directory. -/
def list (tree : FileTree) (path : String) : Except FileError (List String) := do
  let here ← tree.locate path
  match tree.node? here with
  | some .directory =>
    return tree.entries.filterMap fun (loc, _) =>
      if loc ≠ [] ∧ loc.dropLast = here then loc.getLast? else none
  | some (.file _) => throw .notADirectory
  | none => throw .notFound

/-! ## Changing -/

/-- The location that a path names, whether or not it is there. -/
def location (path : String) : Location := (Path.pieces path).foldl follow (start path)

/-- Puts a node at a location in place of what is there. -/
def put (tree : FileTree) (loc : Location) (node : Node) : FileTree :=
  ⟨(loc, node) :: tree.entries.filter fun (other, _) => other ≠ loc⟩

/-- Follows the pieces of a path and makes the directories that are not there. -/
def makeWay (tree : FileTree) : Location → List String → FileTree
  | _, [] => tree
  | here, piece :: rest =>
    let here := follow here piece
    makeWay (if (tree.node? here).isSome then tree else tree.put here .directory) here rest

/-- Writes a new file in place of what is there, and makes the directories on the way to it. -/
def write (tree : FileTree) (path : String) (bytes : ByteArray) : FileTree :=
  (tree.makeWay (start path) (Path.pieces path).dropLast).put (location path) (.file bytes)

def makeDirectory (tree : FileTree) (path : String) : FileTree :=
  tree.makeWay (start path) (Path.pieces path)

/-- Removes a file. Says whether there was one. -/
def remove (tree : FileTree) (path : String) : FileTree × Bool :=
  match tree.locate path with
  | .ok loc =>
    match tree.node? loc with
    | some (.file _) => (⟨tree.entries.filter fun (other, _) => other ≠ loc⟩, true)
    | _ => (tree, false)
  | .error _ => (tree, false)

end FileTree

end Transect
