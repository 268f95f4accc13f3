import Transect.Decimal.Literal

/-!
# The value of a JSON number

The digits are collected into a 64-bit integer as long as they fit. The rest of the whole part only
counts as powers of ten, the rest of the fraction does not count. The integer becomes a float, which
is multiplied or divided by a power of ten. The result can differ from the nearest float in the last
digits. It has to be finite.
-/

namespace Transect.Json

/-- The parts of a number as it is written. -/
structure Numeral where
  negative : Bool
  whole : List Char
  fraction : List Char
  exponent : Int

/-- Appends digits to a number as long as it stays a 64-bit integer. Gives the digits that are left
over as well. -/
def collect (n : Nat) : List Char → Nat × List Char
  | [] => (n, [])
  | c :: cs =>
    let next := 10 * n + (c.toNat - '0'.toNat)
    if next < wordBound then collect next cs else (n, c :: cs)

/-- The nearest float to `10 ^ n`. -/
def tenTo (n : Nat) : Float := (Decimal.mk 1 n).toFloat

/-- The largest power of ten that is used in one step. -/
def maxPower : Nat := 308

/-- `f / 10 ^ n`, in steps of at most `maxPower`. -/
def divideByTens (f : Float) (n : Nat) : Float :=
  if n ≤ maxPower then f / tenTo n
  else if f == 0 then f
  else divideByTens (f / tenTo maxPower) (n - maxPower)
termination_by n
decreasing_by
  have : 0 < maxPower := by decide
  omega

/-- `f * 10 ^ n`, if that is finite. -/
def multiplyByTens? (f : Float) (n : Nat) : Option Float :=
  if n ≤ maxPower then
    let product := f * tenTo n
    if product.isInf then none else some product
  else if f == 0 then some f
  else none

def scaleByTens? (f : Float) (e : Int) : Option Float :=
  if 0 ≤ e then multiplyByTens? f e.toNat else some (divideByTens f (-e).toNat)

/-- The value of a number, if it is finite. -/
def Numeral.value? (n : Numeral) : Option Float :=
  let (digits, dropped) := collect 0 n.whole
  let (digits, unread) := collect digits n.fraction
  let power : Int := dropped.length - (n.fraction.length - unread.length : Nat) + n.exponent
  (scaleByTens? (floatOfNat digits) power).map fun f => if n.negative then -f else f

def Numeral.ofLiteral (literal : List Char) : Numeral :=
  let (negative, cs) := match literal with
    | '-' :: cs => (true, cs)
    | cs => (false, cs)
  let (whole, cs) := cs.span Char.isDigit
  let (fraction, cs) := match cs with
    | '.' :: cs => cs.span Char.isDigit
    | cs => ([], cs)
  ⟨negative, whole, fraction, (readExponent? cs).getD 0⟩

def value? (literal : List Char) : Option Float := (Numeral.ofLiteral literal).value?

end Transect.Json
