import Transect.Json.Reader
import Transect.Point

/-!
# Lines in GeoJSON

A line is given as a GeoJSON geometry of the type `LineString`. The text has to be a valid geometry
even if it is of another type. Members that GeoJSON does not know are ignored.
-/

namespace Transect.GeoJson

inductive LineError where
  | notAGeometry
  | notALine
  | noCoordinates
deriving Repr, DecidableEq

def LineError.message : LineError → String
  | .notAGeometry => "not a GeoJSON geometry"
  | .notALine => "not a GeoJSON LineString"
  | .noCoordinates => "LineString has no coordinates"

abbrev Members := List (String × Json)

/-- The member of a name. The last one counts. -/
def member? (members : Members) (name : String) : Option Json := members.reverse.lookup name

def number? : Json → Option Float
  | .number literal => Json.value? literal
  | _ => none

def items? : Json → Option (List Json)
  | .array items => some items
  | _ => none

/-! ## Coordinates -/

/-- A position: two numbers or more, of which the first two count. -/
def position? (j : Json) : Option Point := do
  let x :: y :: _ ← (← items? j).mapM number? | none
  return ⟨x, y⟩

/-- Whether a value is made of positions in arrays of the given depth. -/
def isPositions : Nat → Json → Bool
  | 0, j => (position? j).isSome
  | depth + 1, .array items => items.all (isPositions depth)
  | _ + 1, _ => false

/-- The depth of the arrays that hold the positions of a type. -/
def depth? : String → Option Nat
  | "Point" => some 0
  | "MultiPoint" | "LineString" => some 1
  | "MultiLineString" | "Polygon" => some 2
  | "MultiPolygon" => some 3
  | _ => none

/-- Whether a bounding box is numbers, if there is one. Null is no bounding box. -/
def isBoxed (members : Members) : Bool :=
  match member? members "bbox" with
  | none | some .null => true
  | some (.array items) => items.all fun j => (number? j).isSome
  | some _ => false

/-! ## Geometries -/

inductive Geometry where
  | line (points : List Point)
  | other

def Geometry.ofMembers? (type : String) (members : Members) : Option Geometry := do
  let depth ← depth? type
  let coordinates ← member? members "coordinates"
  if type = "LineString" then
    return .line (← (← items? coordinates).mapM position?)
  else
    guard (isPositions depth coordinates)
    return .other

/-- The geometry that a value is. Collections are nested at most as deep as the first argument
says. -/
def Geometry.ofJson? : Nat → Json → Option Geometry
  | 0, _ => none
  | depth + 1, .object members => do
    let .string type ← member? members "type" | none
    let found ←
      if type = "GeometryCollection" then do
        let parts ← items? (← member? members "geometries")
        guard (parts.all fun part => (Geometry.ofJson? depth part).isSome)
        pure .other
      else Geometry.ofMembers? type members
    guard (isBoxed members)
    return found
  | _ + 1, _ => none

/-! ## Lines -/

/-- Reads a line, which has at least one point. -/
def readLine (text : String) : Except LineError (List Point) :=
  let json := (Json.read text.toUTF8.data.toList).toOption
  match json.bind (Geometry.ofJson? (Json.maxDepth + 1)) with
  | none => .error .notAGeometry
  | some .other => .error .notALine
  | some (.line []) => .error .noCoordinates
  | some (.line points) => .ok points

end Transect.GeoJson
