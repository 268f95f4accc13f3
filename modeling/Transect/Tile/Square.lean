import Transect.Decimal.Literal
import Transect.Decimal.Text
import Transect.Path
import Transect.Point

/-!
# Square degrees

A square degree is named by its southwest corner in whole degrees. The file of its tile is called
`N44W072.hgt`, or the same in lower case.
-/

namespace Transect

/-- The square from `(lon, lat)` to `(lon + 1, lat + 1)`. -/
structure Square where
  lon : Int16
  lat : Int16
deriving Repr, DecidableEq

namespace Square

/-- The whole degree below a coordinate. -/
def degree (x : Float) : Int16 := .ofInt (floorWithin Int16.minValue.toInt Int16.maxValue.toInt x)

/-- The square with the point in it. -/
def containing (p : Point) : Square := ⟨degree p.x, degree p.y⟩

/-- The southwest corner. -/
def corner (s : Square) : Point := ⟨floatOfInt s.lon.toInt, floatOfInt s.lat.toInt⟩

/-! ## File names -/

/-- The file name of the square's tile. -/
def fileName (s : Square) : String :=
  let lat := s.lat.toInt
  let lon := s.lon.toInt
  .ofList <|
    (if lat < 0 then 'S' else 'N') :: padZeros 2 (digitsOf lat.natAbs) ++
    (if lon < 0 then 'W' else 'E') :: padZeros 3 (digitsOf lon.natAbs) ++
    ['.', 'h', 'g', 't']

/-- The same name in lower case. -/
def lowerName (s : Square) : String := .ofList (s.fileName.toList.map Char.toLower)

/-- `1` for the first letter, `-1` for the second. -/
def sign? (plus minus c : Char) : Option Int :=
  if c = plus then some 1 else if c = minus then some (-1) else none

/-- The square that a name of seven characters stands for, in upper case. -/
def ofName? : List Char → Option Square
  | [n, a, b, e, x, y, z] => do
    let north ← sign? 'N' 'S' n
    let lat ← readSigned? [a, b]
    let east ← sign? 'E' 'W' e
    let lon ← readSigned? [x, y, z]
    return ⟨.ofInt (east * lon), .ofInt (north * lat)⟩
  | _ => none

/-- The square that a path is named for. -/
def ofPath? (path : String) : Option Square :=
  (Path.stem? path).bind fun stem => ofName? (stem.toList.map Char.toUpper)

end Square

end Transect
