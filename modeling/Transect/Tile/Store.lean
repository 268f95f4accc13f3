import Transect.Tile.Basic

/-!
# Tile stores

A store finds tiles in a directory by square degree. A tile is loaded when it is first asked for,
and kept. A square without a file gets a void tile. A tile that cannot be loaded is not kept.
-/

namespace Transect

structure TileStore where
  directory : String
  storage : Storage
  /-- The tiles loaded so far, the latest first. -/
  loaded : List (Square × Tile)

namespace TileStore

/-- Whether a name ends in `.hgt`, in any case. -/
def isHeightFile (name : String) : Bool :=
  match (Path.splitName name).2 with
  | some extension => extension.toList.map Char.toLower == ['h', 'g', 't']
  | none => false

/-- Opens a directory with at least one height file in it. -/
def openDirectory (tree : FileTree) (directory : String) (storage : Storage) :
    Except Error TileStore := do
  let names ← (tree.list directory).mapError .file
  if names.any isHeightFile then return ⟨directory, storage, []⟩
  else throw (.noHeightFiles directory)

/-- The path of a square's file. The name in lower case is used if the other is not there. -/
def pathOf (tree : FileTree) (store : TileStore) (square : Square) : String :=
  let path := Path.join store.directory square.fileName
  if tree.exists? path then path else Path.join store.directory square.lowerName

/-- Loads the tile of a square. It is void if there is no file. -/
def load (tree : FileTree) (store : TileStore) (square : Square) : Except Error Tile :=
  match Tile.load tree store.storage (store.pathOf tree square) with
  | .ok tile => .ok tile
  | .error (.file .notFound) => .ok (.void square)
  | .error cause => .error (.tile cause)

/-- The tile with the point in it, and the store with that tile kept. -/
def get (tree : FileTree) (p : Point) (store : TileStore) : Except Error Tile × TileStore :=
  let square := Square.containing p
  match store.loaded.lookup square with
  | some tile => (.ok tile, store)
  | none =>
    match store.load tree square with
    | .ok tile => (.ok tile, { store with loaded := (square, tile) :: store.loaded })
    | .error cause => (.error cause, store)

/-- The elevation at a point. -/
def value (tree : FileTree) (p : Point) (store : TileStore) :
    Except Error (Option Float) × TileStore :=
  let (tile, store) := store.get tree p
  (tile.map fun t => (t.elevation? p).map fun e => floatOfInt e.toInt, store)

end TileStore

end Transect
