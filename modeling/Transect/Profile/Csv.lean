import Transect.Profile.Basic
import Transect.Text.Split

/-!
# Profiles as tables

One header line and one line for each sample. Cells are separated by commas and not quoted.
-/

namespace Transect

/-- The cell of a raster without data. -/
def noDataCell : List Char := ['-', '9', '9', '9', '9']

/-- The cell of a raster's value. -/
def valueCell : Option (Option Float) → List Char
  | some (some v) => (plainFloat v).toList
  | _ => noDataCell

/-- The cells of a sample: distance, layers, coordinates. -/
def Sample.cells (layers : List String) (s : Sample) : List (List Char) :=
  s.distance.text.toList :: layers.map (fun layer => valueCell (s.values.find? layer)) ++
    [(plainFloat s.point.x).toList, (plainFloat s.point.y).toList]

/-- A line of a table. -/
def tableLine (cells : List (List Char)) : List Char := joinWith ',' cells ++ ['\n']

namespace Profile

/-- The names of the columns. -/
def header (p : Profile) : List (List Char) :=
  "distance".toList :: p.layers.map String.toList ++ [['x'], ['y']]

/-- The table, a line break after each line. -/
def csv (p : Profile) : String :=
  .ofList <| (p.header :: p.samples.map (Sample.cells p.layers)).flatMap tableLine

end Profile

end Transect
