import Transect.Text.Split

/-!
# Paths

A path is text. Slashes part its components, and the last dot of a component parts its stem from
its extension.
-/

namespace Transect.Path

/-- The texts between slashes. -/
def pieces (path : String) : List String := (splitAt '/' path.toList).map .ofList

def isAbsolute (path : String) : Bool := path.toList.head? == some '/'

/-- The last component that is a name. A path that ends in the parent directory has none. -/
def name? (path : String) : Option String :=
  match ((pieces path).filter fun p => p != "" && p != ".").getLast? with
  | some ".." | none => none
  | some name => some name

/-- The name before and after its last dot. A dot in front does not count. -/
def splitName (name : String) : String × Option String :=
  let reversed := name.toList.reverse
  match reversed.dropWhile (· != '.') with
  | [] | [_] => (name, none)
  | _ :: before => (.ofList before.reverse, some (.ofList (reversed.takeWhile (· != '.')).reverse))

/-- The name of the file without its extension. -/
def stem? (path : String) : Option String := (name? path).map fun n => (splitName n).1

/-- The path of a file in a directory. -/
def join (directory name : String) : String :=
  if directory.toList.getLast?.all (· == '/') then directory ++ name
  else directory ++ "/" ++ name

end Transect.Path
