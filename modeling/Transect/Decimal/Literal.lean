import Transect.Binary
import Transect.Decimal.Basic

/-!
# Reading numbers

A float literal is a sign, digits with an optional point and an optional exponent, or one of the
words `inf`, `infinity` and `nan` in any case. It means the nearest float. A count is a sequence of
digits after an optional plus.
-/

namespace Transect

def digit? (c : Char) : Option Nat := if c.isDigit then some (c.toNat - '0'.toNat) else none

/-- The number written by the digits at the front, after `n`, with their count and the rest. -/
def takeDigits (n count : Nat) : List Char → Nat × Nat × List Char
  | [] => (n, count, [])
  | c :: cs =>
    match digit? c with
    | some d => takeDigits (10 * n + d) (count + 1) cs
    | none => (n, count, c :: cs)

def takeSign : List Char → Bool × List Char
  | '-' :: cs => (true, cs)
  | '+' :: cs => (false, cs)
  | cs => (false, cs)

/-! ## Float literals -/

inductive FloatError where
  | empty
  | invalid
deriving Repr, DecidableEq

def FloatError.message : FloatError → String
  | .empty => "cannot parse float from empty string"
  | .invalid => "invalid float literal"

/-- The exponent at the end of a literal. Nothing is the exponent zero. -/
def readExponent? : List Char → Option Int
  | [] => some 0
  | c :: cs =>
    if c = 'e' ∨ c = 'E' then
      let (negative, cs) := takeSign cs
      match takeDigits 0 0 cs with
      | (n, count, []) => if count = 0 then none else some (if negative then -n else n)
      | _ => none
    else none

def readDecimal? (cs : List Char) : Option Decimal :=
  let (n, before, rest) := takeDigits 0 0 cs
  let (digits, after, rest) := match rest with
    | '.' :: rest => takeDigits n 0 rest
    | _ => (n, 0, rest)
  if before + after = 0 then none
  else (readExponent? rest).map fun e => ⟨digits, e - after⟩

/-- The value of a word that stands for a float. -/
def readWord? (cs : List Char) : Option Float :=
  match String.ofList (cs.map Char.toLower) with
  | "inf" | "infinity" => some (1 / 0)
  | "nan" => some (0 / 0)
  | _ => none

def readFloat (cs : List Char) : Except FloatError Float :=
  if cs = [] then .error .empty
  else
    let (negative, cs) := takeSign cs
    match (readDecimal? cs).map Decimal.toFloat <|> readWord? cs with
    | some x => .ok (if negative then -x else x)
    | none => .error .invalid

/-! ## Counts -/

inductive CountError where
  | empty
  | invalidDigit
  | tooLarge
deriving Repr, DecidableEq

def CountError.message : CountError → String
  | .empty => "cannot parse integer from empty string"
  | .invalidDigit => "invalid digit found in string"
  | .tooLarge => "number too large to fit in target type"

/-- Reads the digits that follow `n`. Every character has to be a digit, and the number up to it has
to fit into 64 bits. -/
def readDigits (n : Nat) : List Char → Except CountError Nat
  | [] => .ok n
  | c :: cs =>
    match digit? c with
    | none => .error .invalidDigit
    | some d => if 10 * n + d < wordBound then readDigits (10 * n + d) cs else .error .tooLarge

def readCount : List Char → Except CountError Nat
  | [] => .error .empty
  | ['+'] => .error .invalidDigit
  | '+' :: cs => readDigits 0 cs
  | cs => readDigits 0 cs

/-- The number of a short field: digits after an optional sign. -/
def readSigned? (cs : List Char) : Option Int :=
  let (negative, cs) := takeSign cs
  match takeDigits 0 0 cs with
  | (n, count, []) => if count = 0 then none else some (if negative then -n else n)
  | _ => none

end Transect
