import Transect.Decimal.Literal
import Transect.Text.Blank

/-!
# Points of the plane

A point is written as `x,y`. Blanks around the two numbers do not matter.
-/

namespace Transect

structure Point where
  x : Float
  y : Float
deriving DecidableEq

namespace Point

instance : Add Point := ⟨fun p q => ⟨p.x + q.x, p.y + q.y⟩⟩
instance : Sub Point := ⟨fun p q => ⟨p.x - q.x, p.y - q.y⟩⟩

def scale (p : Point) (k : Float) : Point := ⟨p.x * k, p.y * k⟩

def divide (p : Point) (k : Float) : Point := ⟨p.x / k, p.y / k⟩

def distance (p q : Point) : Float :=
  let d := q - p
  (d.x * d.x + d.y * d.y).sqrt

/-! ## Reading -/

inductive ReadError where
  | notAPair
  | coordinate (cause : FloatError)
deriving Repr, DecidableEq

def ReadError.message : ReadError → String
  | .notAPair => "not a valid x,y pair"
  | .coordinate cause => cause.message

/-- The texts before and after the first comma. -/
def splitAtComma? : List Char → Option (List Char × List Char)
  | [] => none
  | c :: cs =>
    if c = ',' then some ([], cs)
    else (splitAtComma? cs).map fun (x, y) => (c :: x, y)

def readCoordinate (cs : List Char) : Except ReadError Float :=
  (readFloat (trimBlanks cs)).mapError .coordinate

/-- Reads `x,y`. A fault in `x` is reported before one in `y`. -/
def read (s : String) : Except ReadError Point :=
  match splitAtComma? s.toList with
  | none => .error .notAPair
  | some (x, y) => do
    let x ← readCoordinate x
    let y ← readCoordinate y
    return ⟨x, y⟩

end Point

end Transect
