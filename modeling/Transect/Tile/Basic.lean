import Transect.FileTree
import Transect.Tile.Square

/-!
# Elevation tiles

A tile has a square grid of samples over one square degree. The file holds them row by row from the
northwest corner, each as two bytes, the high one first. Samples lie on the edges too, so that
neighbours share theirs.
-/

namespace Transect

/-- The sample that stands for no elevation. -/
def voidSample : Int16 := Int16.minValue

/-- The distance between neighbouring samples. -/
inductive Resolution where
  | oneSecond
  | threeSeconds
deriving Repr, DecidableEq

namespace Resolution

def seconds : Resolution → Nat
  | .oneSecond => 1
  | .threeSeconds => 3

/-- The number of steps in a degree. -/
def perDegree (r : Resolution) : Nat := 3600 / r.seconds

/-- The number of samples in a row, and of rows. -/
def side (r : Resolution) : Nat := r.perDegree + 1

/-- The number of samples. -/
def count (r : Resolution) : Nat := r.side * r.side

/-- The resolution of a file of the given size. -/
def ofSize? (bytes : Nat) : Option Resolution :=
  if bytes = 2 * oneSecond.count then some .oneSecond
  else if bytes = 2 * threeSeconds.count then some .threeSeconds
  else none

end Resolution

/-! ## Samples -/

/-- How the samples of a tile are kept. -/
inductive Storage where
  /-- Decoded when the tile is loaded. -/
  | inMemory
  /-- Left as bytes and decoded when they are asked for. -/
  | mapped
deriving Repr, DecidableEq

inductive Samples where
  /-- Nothing but voids. -/
  | void
  | decoded (values : Array Int16)
  | raw (bytes : ByteArray)

/-- The sample of a high and a low byte. -/
def sampleOf (high low : UInt8) : Int16 := (high.toUInt16 <<< 8 ||| low.toUInt16).toInt16

/-- Sample number `i` of a file. -/
def sampleAt (bytes : ByteArray) (i : Nat) : Int16 :=
  if h : 2 * i + 1 < bytes.size then sampleOf (bytes[2 * i]) (bytes[2 * i + 1]) else voidSample

def Samples.get : Samples → Nat → Int16
  | .void, _ => voidSample
  | .decoded values, i => values.getD i voidSample
  | .raw bytes, i => sampleAt bytes i

/-! ## Opened files -/

/-- Reads the sample that starts at a position. -/
def readSample (position : Nat) : Node → Except FileError Int16
  | .file bytes =>
    if h : position + 1 < bytes.size then
      have hfirst : position < bytes.size := Nat.lt_of_succ_lt h
      .ok (sampleOf bytes[position] bytes[position + 1])
    else .error (.other "failed to fill whole buffer")
  | .directory => .error (.other "Is a directory (os error 21)")

/-- Reads the next `count` samples. Those that have been read tell how far the reader is. -/
def readSamples (node : Node) : Nat → Array Int16 → Except FileError (Array Int16)
  | 0, values => .ok values
  | count + 1, values => do
    let v ← readSample (2 * values.size) node
    readSamples node count (values.push v)

/-- Maps a file, so that nothing is read yet. -/
def mapFile : Node → Except FileError ByteArray
  | .file bytes => .ok bytes
  | .directory => .error (.other "No such device (os error 19)")

/-! ## Tiles -/

structure Tile where
  square : Square
  resolution : Resolution
  samples : Samples

namespace Tile

/-- The tile of a square without a file. -/
def void (square : Square) : Tile := ⟨square, .threeSeconds, .void⟩

/-- The square that a path is named for. -/
def squareOf (path : String) : Except TileError Square :=
  match Square.ofPath? path with
  | some square => .ok square
  | none => .error (.name path)

/-- The resolution of the file at a path, as its size tells it. -/
def resolutionOf (tree : FileTree) (path : String) : Except TileError Resolution := do
  let node ← (tree.find path).mapError .file
  match Resolution.ofSize? node.size with
  | some resolution => return resolution
  | none => throw (.size node.size path)

/-- Loads a tile and decodes all of its samples. -/
def read (tree : FileTree) (path : String) : Except TileError Tile := do
  let square ← squareOf path
  let resolution ← resolutionOf tree path
  let node ← (tree.find path).mapError .file
  let values ← (readSamples node resolution.count #[]).mapError .file
  return ⟨square, resolution, .decoded values⟩

/-- Loads a tile and leaves its samples in the file. -/
def map (tree : FileTree) (path : String) : Except TileError Tile := do
  let square ← squareOf path
  let resolution ← resolutionOf tree path
  let node ← (tree.find path).mapError .file
  let bytes ← (mapFile node).mapError .file
  return ⟨square, resolution, .raw bytes⟩

/-- Loads a tile. Its name is looked at before the file, and the size of the file before its
bytes. -/
def load (tree : FileTree) (storage : Storage) (path : String) : Except TileError Tile :=
  match storage with
  | .inMemory => read tree path
  | .mapped => map tree path

/-- The step nearest to a coordinate, counted from the edge of the square. -/
def step? (r : Resolution) (edge x : Float) : Option Nat :=
  match nearest? ((x - edge) * floatOfNat r.perDegree) with
  | some n => if 0 ≤ n ∧ n < r.side then some n.toNat else none
  | none => none

/-- The column from the west and the row from the south of the sample nearest to a point. -/
def position? (t : Tile) (p : Point) : Option (Nat × Nat) := do
  let column ← step? t.resolution t.square.corner.x p.x
  let row ← step? t.resolution t.square.corner.y p.y
  return (column, row)

/-- The number of a sample in the file, which starts in the north. -/
def index (t : Tile) (column row : Nat) : Nat :=
  t.resolution.side * (t.resolution.side - row - 1) + column

/-- The sample nearest to a point of the tile. -/
def sample? (t : Tile) (p : Point) : Option Int16 :=
  (t.position? p).map fun (column, row) => t.samples.get (t.index column row)

/-- The elevation nearest to a point. A void is no elevation. -/
def elevation? (t : Tile) (p : Point) : Option Int16 := (t.sample? p).filter (· != voidSample)

end Tile

end Transect
