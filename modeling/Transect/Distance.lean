import Transect.Decimal.Text
import Transect.Rounding

/-! # Distances in tenths -/

namespace Transect

/-- A distance along a line, in whole tenths. -/
structure Distance where
  tenths : Int
deriving Repr, DecidableEq

namespace Distance

/-- The distance nearest to a float. A half goes up. -/
def ofFloat (v : Float) : Distance := ⟨quantize v 1⟩

/-- The float nearest to the tenths, over ten. -/
def toFloat (d : Distance) : Float := floatOfInt d.tenths / 10

/-- The exact decimal, with one digit after the point. -/
def text (d : Distance) : String :=
  let n := d.tenths.natAbs
  .ofList (signed (d.tenths < 0) (digitsOf (n / 10) ++ '.' :: digitsOf (n % 10)))

/-- The distance as a JSON number. -/
def json (d : Distance) : String := jsonFloat d.toFloat

end Distance

end Transect
