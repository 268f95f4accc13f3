import Transect.Rounding
import Transect.Tile.Store

/-!
# Rasters

A raster gives a number at a point, or none where it has no data. No data is not zero. Its source
may be a tile store, which a lookup can change, so the raster as it is afterwards comes with each
answer.
-/

namespace Transect

/-- Where the numbers of a raster come from. -/
inductive Source where
  | field (value : Point → Except Error (Option Float))
  | tiles (store : TileStore)

def Source.value (tree : FileTree) (p : Point) : Source → Except Error (Option Float) × Source
  | .field value => (value p, .field value)
  | .tiles store => let (answer, store) := store.value tree p; (answer, .tiles store)

structure Raster where
  source : Source
  /-- The number that means no data. -/
  nodata : Option Float
  /-- How many digits after the point are kept. -/
  places : Option Nat

namespace Raster

/-- Whether a number of the source is data. -/
def isData (r : Raster) (v : Float) : Bool := !v.isNaN && !r.nodata.any (v == ·)

/-- What the raster makes of an answer of its source. -/
def finish (r : Raster) (v : Option Float) : Option Float :=
  (v.filter r.isData).map fun v => r.places.elim v (roundTo v)

/-- The value at a point. -/
def value (tree : FileTree) (p : Point) (r : Raster) : Except Error (Option Float) × Raster :=
  let (answer, source) := r.source.value tree p
  (answer.map r.finish, { r with source })

end Raster

end Transect
