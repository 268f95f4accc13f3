import Transect.Program

/-!
# The command line

Collects the files that a run can look at and runs the program on them.

Directories cannot be listed here. Whether one has a height file is found out by asking for the two
usual names of each square. A directory whose only height file has another name, such as `x.hgt` or
`N44W072.HGT`, is refused by the command line, although `TileStore.openDirectory` accepts it. No
charts can be drawn here either, so a plot prints nothing.
-/

namespace Transect.CommandLine

def addPath (tree : FileTree) (path : String) : IO FileTree := do
  try
    return tree.write path (← IO.FS.readBinFile path)
  catch
    | .inappropriateType .. => return tree.makeDirectory path
    | _ => return tree

def isThere (path : String) : IO Bool := do
  try
    let _ ← IO.FS.Handle.mk path .read
    return true
  catch _ => return false

def squares : List Square :=
  (List.range 180).flatMap fun i => (List.range 360).map fun j =>
    ⟨.ofInt ((j : Nat) - 180), .ofInt ((i : Nat) - 90)⟩

/-- The paths of a square's file in a directory. -/
def pathsOf (directory : String) (square : Square) : List String :=
  [Path.join directory square.fileName, Path.join directory square.lowerName]

/-- Adds an empty file for the first of the paths where there is one. A height file with any other
name is overlooked. -/
def addFirstFound (tree : FileTree) : List String → IO FileTree
  | [] => return tree
  | path :: rest => do
    if ← isThere path then return tree.write path .empty else addFirstFound tree rest

/-- Adds a directory with the tiles of the given squares. -/
def addDirectory (needed : List Square) (tree : FileTree) (directory : String) : IO FileTree := do
  let tree ← addPath tree directory
  let tree ← (needed.flatMap (pathsOf directory)).foldlM addPath tree
  match tree.list directory with
  | .ok [] => addFirstFound tree (squares.flatMap (pathsOf directory))
  | _ => return tree

/-- The files that a run can look at, but for height files in unusual spellings. -/
def gather (words : List String) : IO FileTree := do
  match Arguments.read words with
  | .error _ => return .empty
  | .ok arguments =>
    let tree ← addPath .empty arguments.config
    match Config.load tree arguments.config with
    | .error _ => return tree
    | .ok config =>
      let needed := (arguments.command.points.map Square.containing).eraseDups
      (config.entries.map fun (_, c) => c.directory).foldlM (addDirectory needed) tree

end Transect.CommandLine

def main (words : List String) : IO UInt32 := do
  let exit := Transect.run (← Transect.CommandLine.gather words) words
  IO.print exit.output
  IO.eprint exit.message
  return exit.code.toUInt32
