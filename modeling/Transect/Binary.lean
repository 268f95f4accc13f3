/-!
# Floats as binary fractions

A finite float is a sign and a magnitude `mantissa * 2 ^ exponent`. The whole numbers near it are
computed exactly from these three, and whole numbers become the nearest float.
-/

namespace Transect

open Float.Model (Format UnpackedFloat)
open Float.Model.UnpackedFloat (Sign)

/-- The number `mantissa * 2 ^ exponent`. -/
structure Binary where
  mantissa : Nat
  exponent : Int
deriving Repr, DecidableEq

namespace Binary

def floor (b : Binary) : Nat :=
  if 0 ≤ b.exponent then b.mantissa * Nat.pow 2 b.exponent.toNat
  else b.mantissa / Nat.pow 2 (-b.exponent).toNat

def ceil (b : Binary) : Nat :=
  if 0 ≤ b.exponent then b.mantissa * Nat.pow 2 b.exponent.toNat
  else (b.mantissa + (Nat.pow 2 (-b.exponent).toNat - 1)) / Nat.pow 2 (-b.exponent).toNat

/-- The whole number nearest to the number. A half goes up. -/
def nearest (b : Binary) : Nat :=
  if 0 ≤ b.exponent then b.mantissa * Nat.pow 2 b.exponent.toNat
  else (2 * b.mantissa + Nat.pow 2 (-b.exponent).toNat) / (2 * Nat.pow 2 (-b.exponent).toNat)

end Binary

/-! ## Whole numbers near a float -/

def unpack (x : Float) : UnpackedFloat := x.toModel.unpack

/-- Whether the sign of the float is minus. Zero has a sign too. A float that is no number has
none. -/
def isNegative (x : Float) : Bool :=
  match unpack x with
  | .notANumber => false
  | .infinity s => s == .negative
  | .zero s => s == .negative
  | .finite s .. => s == .negative

/-- The nearest whole number between `lo` and `hi`. -/
def clamp (lo hi n : Int) : Int := max lo (min hi n)

/-- The largest whole number not above a finite float. -/
def floor? (x : Float) : Option Int :=
  match unpack x with
  | .notANumber | .infinity _ => none
  | .zero _ => some 0
  | .finite .positive m e _ => some (Binary.floor ⟨m, e⟩)
  | .finite .negative m e _ => some (-(Binary.ceil ⟨m, e⟩ : Int))

/-- The whole number nearest to a finite float. A half goes away from zero. -/
def nearest? (x : Float) : Option Int :=
  match unpack x with
  | .notANumber | .infinity _ => none
  | .zero _ => some 0
  | .finite s m e _ => some (s.apply (Binary.nearest ⟨m, e⟩))

/-- What an infinite float becomes in the range from `lo` to `hi`. No number becomes zero. -/
def limit (lo hi : Int) (x : Float) : Int :=
  match unpack x with
  | .infinity .negative => lo
  | .infinity .positive => hi
  | _ => 0

def floorWithin (lo hi : Int) (x : Float) : Int :=
  (floor? x).elim (limit lo hi x) (clamp lo hi)

def nearestWithin (lo hi : Int) (x : Float) : Int :=
  (nearest? x).elim (limit lo hi x) (clamp lo hi)

/-! ## Whole numbers as floats -/

/-- The numbers below `2 ^ 64` fit into 64 bits. -/
def wordBound : Nat := 18446744073709551616

/-- The float nearest to a natural number. -/
def floatOfNat (n : Nat) : Float :=
  if n < wordBound then n.toUInt64.toFloat else .ofModel (.ofNat n)

def floatOfInt (n : Int) : Float :=
  if n < 0 then -floatOfNat n.natAbs else floatOfNat n.natAbs

/-- The `binary32` float nearest to a float. -/
def narrow (x : Float) : Float32 :=
  .ofModel <| .pack <|
    match unpack x with
    | .finite s m e _ => UnpackedFloat.round Format.binary32 s m e
    | other => other

end Transect
