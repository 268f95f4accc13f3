import Transect.Decimal.Shortest

/-!
# Writing decimals

A float is written with its shortest decimal. The plain form never has an exponent and has no point
where nothing follows it. The JSON form always has a point or an exponent.
-/

namespace Transect

open Float.Model (Format UnpackedFloat)

def digitsOf (n : Nat) : List Char := Nat.toDigits 10 n

/-- The text with zeros in front, so that it has at least `width` characters. -/
def padZeros (width : Nat) (cs : List Char) : List Char :=
  List.replicate (width - cs.length) '0' ++ cs

namespace Decimal

/-- The digits after the point, as many as there are places. -/
def fractionDigits (d : Decimal) : List Char :=
  if d.places = 0 then [] else padZeros d.places (digitsOf d.fraction)

/-- Plain form: `10`, `0.1`, `1000000`. -/
def plain (d : Decimal) : List Char :=
  digitsOf d.whole ++ if d.places = 0 then [] else '.' :: d.fractionDigits

/-- The place of the first digit, counted from the point. -/
def leading (d : Decimal) : Int := (digitsOf d.digits).length + d.exponent

/-- Positional form with a digit after the point: `10.0`, `0.1`. -/
def positional (d : Decimal) : List Char :=
  digitsOf d.whole ++ '.' :: if d.places = 0 then ['0'] else d.fractionDigits

/-- Exponent form with a sign in the exponent: `1e+16`, `1.5e-7`. -/
def scientific (d : Decimal) : List Char :=
  let power := d.leading - 1
  let mantissa := match digitsOf d.digits with
    | first :: second :: rest => first :: '.' :: second :: rest
    | few => few
  mantissa ++ 'e' :: (if power < 0 then '-' else '+') :: digitsOf power.natAbs

/-- JSON form: positional from `1e-5` up to `1e16`, with an exponent elsewhere. -/
def json (d : Decimal) : List Char :=
  if d.digits = 0 ∨ -5 < d.leading ∧ d.leading ≤ 16 then d.positional else d.scientific

end Decimal

/-- A magnitude with its sign in front. -/
def signed (negative : Bool) (cs : List Char) : List Char := if negative then '-' :: cs else cs

/-- The plain form of a float of the given format. -/
def plainText (format : Format) : UnpackedFloat → List Char
  | .notANumber => ['N', 'a', 'N']
  | .infinity s => signed (s == .negative) ['i', 'n', 'f']
  | .zero s => signed (s == .negative) ['0']
  | .finite s m e _ => signed (s == .negative) (shortest format .up m e).plain

/-- The plain form of a float. -/
def plainFloat (x : Float) : String := .ofList (plainText Format.binary64 (unpack x))

/-- The plain form of a `binary32` float. -/
def plainFloat32 (x : Float32) : String := .ofList (plainText Format.binary32 x.toModel.unpack)

/-- The JSON form of a float. What is no finite number is `null`. -/
def jsonFloat (x : Float) : String :=
  .ofList <| match unpack x with
    | .notANumber | .infinity _ => ['n', 'u', 'l', 'l']
    | .zero s => signed (s == .negative) (Decimal.mk 0 0).json
    | .finite s m e _ => signed (s == .negative) (shortest Format.binary64 .toEven m e).json

end Transect
