import Transect.Registry

/-!
# Configurations

A configuration says which rasters there are. Opening it opens all of them or none.
-/

namespace Transect

structure RasterConfig where
  directory : String
  storage : Storage
  /-- The quantum that values are rounded to. -/
  round : Option Float
  /-- The number that means no data. -/
  nodata : Option Float
deriving DecidableEq

namespace RasterConfig

/-- The number of digits after the point that the quantum needs. -/
def places (c : RasterConfig) : Except Error (Option Nat) :=
  match c.round with
  | none => .ok none
  | some quantum =>
    match placesOf? quantum with
    | some d => .ok (some d)
    | none => .error (.round quantum)

/-- Opens the raster. A fault of the directory is reported before one of the quantum. -/
def openRaster (tree : FileTree) (c : RasterConfig) : Except Error Raster := do
  let store ← TileStore.openDirectory tree c.directory c.storage
  let places ← c.places
  return ⟨.tiles store, c.nodata, places⟩

end RasterConfig

abbrev Config := NameMap RasterConfig

/-- Opens the rasters in the order of their names, up to the first fault. -/
def Config.openAll (tree : FileTree) (config : Config) : Except Error Registry :=
  let openEntry := fun ((name, c) : String × RasterConfig) => (c.openRaster tree).map (name, ·)
  (config.entries.mapM openEntry).map .ofList

end Transect
