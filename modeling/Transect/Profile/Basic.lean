import Transect.Distance
import Transect.Polyline
import Transect.Registry

/-!
# Profiles

The profile of a line has a sample at each resampled point: the distance from the start, the values
of the selected rasters and the point itself.
-/

namespace Transect

structure Sample where
  distance : Distance
  values : Values
  point : Point

structure Profile where
  layers : List String
  samples : List Sample

/-- How the points of a profile are visited. -/
inductive Schedule where
  /-- From start to end. -/
  | sequential
  /-- In any order. -/
  | parallel (arrange : List (Point × Nat) → List (Point × Nat))

/-- A request for a profile. -/
structure Request where
  line : Option (List Point)
  /-- About how many points the profile shall have. -/
  count : Option Nat
  /-- The rasters to sample, or all of them. -/
  layers : Option (List String)
  schedule : Schedule

/-- The outcome of a request, and the rasters that were evaluated, the latest first. -/
structure Outcome where
  profile : Except Error Profile
  visited : List String

/-- The values of a survey at all points. -/
def Schedule.run (tree : FileTree) (points : List Point) (s : Survey) :
    Schedule → Except Error (List Values) × Survey
  | .sequential => s.inSequence tree points
  | .parallel arrange => s.inAnyOrder tree arrange points

/-- The samples at points that are reached at the given distances. -/
def samplesOf (points : List Point) (values : List Values) : List Sample :=
  ((points.zip (Polyline.distances points)).zip values).map fun ((p, d), v) => ⟨.ofFloat d, v, p⟩

namespace Request

/-- The line, the number of points and the selection, if nothing is missing. -/
def check (registry : Registry) (request : Request) :
    Except Error (List Point × Nat × Selection) := do
  let some line := request.line | throw (.missing .line)
  let some count := request.count | throw (.missing .count)
  if line.isEmpty then throw .emptyGeometry
  let selection ← registry.select request.layers
  return (line, count, selection)

/-- Answers the request. No raster is evaluated before the request has been checked. -/
def run (tree : FileTree) (registry : Registry) (request : Request) : Outcome :=
  match request.check registry with
  | .error cause => ⟨.error cause, []⟩
  | .ok (line, count, selection) =>
    let points := Polyline.resample count line
    let (values, s) := request.schedule.run tree points selection.survey
    ⟨values.map fun v => ⟨selection.layers, samplesOf points v⟩, s.visited⟩

end Request

end Transect
