import Transect.NameMap
import Transect.Raster

/-!
# Registered rasters

A registry keeps rasters by name. A selection is the rasters that one request asks for. Its layers
are the names as requested, and each of them is evaluated once at a point.
-/

namespace Transect

abbrev Registry := NameMap Raster

/-- What a selection gives at a point. -/
abbrev Values := NameMap (Option Float)

structure Selection where
  /-- The names as requested. -/
  layers : List String
  /-- The rasters to evaluate, each name once. -/
  rasters : List (String × Raster)

namespace Registry

/-- Registers a raster under a name. The raster that it takes the place of comes back, and a chain
of registrations drops it. -/
def register (registry : Registry) (name : String) (raster : Raster) : Option Raster × Registry :=
  (registry.find? name, registry.insert name raster)

/-- The rasters of the requested names, each name once, after those that are chosen already. -/
def choose (registry : Registry) (chosen : List (String × Raster)) :
    List String → Except Error (List (String × Raster))
  | [] => .ok chosen
  | name :: rest =>
    match registry.find? name with
    | none => .error (.rasterNotFound name)
    | some raster =>
      registry.choose
        (if chosen.any (·.1 == name) then chosen else chosen ++ [(name, raster)]) rest

/-- The selection of some names, or of all of them in order. Every name has to be registered. -/
def select (registry : Registry) : Option (List String) → Except Error Selection
  | none => .ok ⟨registry.names, registry.entries⟩
  | some layers => (registry.choose [] layers).map fun rasters => ⟨layers, rasters⟩

end Registry

/-! ## Evaluation -/

/-- Rasters under evaluation, and the names evaluated so far, the latest first. -/
structure Survey where
  rasters : List (String × Raster)
  visited : List String

def Selection.survey (s : Selection) : Survey := ⟨s.rasters, []⟩

namespace Survey

/-- Evaluates rasters at a point in their order, up to the first that fails. -/
def evaluate (tree : FileTree) (p : Point) (visited : List String) :
    List (String × Raster) → Except Error (List (String × Option Float)) × Survey
  | [] => (.ok [], ⟨[], visited⟩)
  | (name, raster) :: rest =>
    let visited := name :: visited
    match raster.value tree p with
    | (.error cause, raster) => (.error cause, ⟨(name, raster) :: rest, visited⟩)
    | (.ok value, raster) =>
      let (answer, after) := evaluate tree p visited rest
      (answer.map ((name, value) :: ·), { after with rasters := (name, raster) :: after.rasters })

/-- The values of all rasters at a point. -/
def values (tree : FileTree) (p : Point) (s : Survey) : Except Error Values × Survey :=
  let (answer, s) := evaluate tree p s.visited s.rasters
  (answer.map .ofList, s)

/-- The values at one more point, if there was no failure before. -/
def extend (tree : FileTree) :
    Except Error (List Values) × Survey → Point → Except Error (List Values) × Survey
  | (.error cause, s), _ => (.error cause, s)
  | (.ok found, s), p =>
    let (answer, s) := s.values tree p
    (answer.map (· :: found), s)

/-- The values at the points, one point after the other, up to the first failure. -/
def inSequence (tree : FileTree) (points : List Point) (s : Survey) :
    Except Error (List Values) × Survey :=
  let (answer, s) := points.foldl (extend tree) (.ok [], s)
  (answer.map .reverse, s)

/-- Values in the order of their numbers. -/
def inOrder (found : List (Values × Nat)) : List Values :=
  (found.mergeSort fun a b => a.2 ≤ b.2).map (·.1)

/-- The values at the points, which are visited in the order that `arrange` gives to the numbered
points, up to the first failure in that order. The values are put back in the order of the
points. -/
def inAnyOrder (tree : FileTree) (arrange : List (Point × Nat) → List (Point × Nat))
    (points : List Point) (s : Survey) : Except Error (List Values) × Survey :=
  let arranged := arrange points.zipIdx
  let (answer, s) := s.inSequence tree (arranged.map (·.1))
  (answer.map fun values => inOrder (values.zip (arranged.map (·.2))), s)

end Survey

end Transect
