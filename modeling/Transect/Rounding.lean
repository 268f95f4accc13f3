import Transect.Decimal.Shortest

/-!
# Half-up rounding

A float is rounded on the digits of its shortest decimal, not on its binary value: `2.35` becomes
`2.4` although the float is a little below. Counts that do not fit into 64 bits are computed in
floating point and held at the bounds.
-/

namespace Transect

/-- The largest 64-bit count, `2 ^ 63 - 1`. -/
def maxCount : Nat := 9223372036854775807

/-- `10 ^ d` by repeated multiplication. The result is inexact from 23 on and infinite from 309 on,
so there is no need to go further. -/
def powerOfTen (d : Nat) : Float := (List.replicate (min d 309) 10).foldl (· * ·) 1

/-- `s * 10 ^ d` to the nearest whole number, if that is a 64-bit count. -/
def Decimal.units? (s : Decimal) (d : Nat) : Option Nat :=
  if s.digits = 0 then some 0
  else if 19 ≤ s.exponent + d then none
  else
    let n := (s.shift d).nearest
    if n ≤ maxCount then some n else none

/-- The magnitude of `v * 10 ^ d` as a 64-bit count. -/
def magnitude (v : Float) (d : Nat) : Nat :=
  match (shortest? .up v).bind (·.units? d) with
  | some n => n
  | none => (nearestWithin 0 maxCount (v.abs * powerOfTen d)).toNat

/-- `v * 10 ^ d` to the nearest whole number. A half goes away from zero. -/
def quantize (v : Float) (d : Nat) : Int :=
  if isNegative v then -magnitude v d else magnitude v d

/-- `v` with at most `d` digits after the point. -/
def roundTo (v : Float) (d : Nat) : Float := floatOfInt (quantize v d) / powerOfTen d

/-- The number of digits after the point of a positive finite float. -/
def placesOf? (q : Float) : Option Nat :=
  if 0 < q then (shortest? .up q).map Decimal.places else none

end Transect
