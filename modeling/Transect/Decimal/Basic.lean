/-!
# Decimal numbers

A decimal is `digits * 10 ^ exponent`. It is rounded half up at any place, and split at the point.
-/

namespace Transect

/-- The number `digits * 10 ^ exponent`. -/
structure Decimal where
  digits : Nat
  exponent : Int
deriving Repr, DecidableEq

namespace Decimal

def places (d : Decimal) : Nat := (-d.exponent).toNat

def whole (d : Decimal) : Nat :=
  if 0 ≤ d.exponent then d.digits * Nat.pow 10 d.exponent.toNat else d.digits / Nat.pow 10 d.places

/-- The part after the point, in units of the last place. -/
def fraction (d : Decimal) : Nat :=
  if 0 ≤ d.exponent then 0 else d.digits % Nat.pow 10 d.places

def shift (d : Decimal) (n : Nat) : Decimal := ⟨d.digits, d.exponent + n⟩

/-- The nearest whole number. A half goes up. -/
def nearest (d : Decimal) : Nat :=
  if 0 ≤ d.exponent then d.digits * Nat.pow 10 d.exponent.toNat
  else (2 * d.digits + Nat.pow 10 d.places) / (2 * Nat.pow 10 d.places)

def toFloat (d : Decimal) : Float := .ofModel (.ofScientific d.digits d.exponent)

end Decimal

end Transect
