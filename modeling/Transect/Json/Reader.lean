import Transect.Json.Basic
import Transect.Json.Number

/-!
# Reading JSON

The reader takes bytes, since a file need not be text. It gives a draft, and what follows it.
-/

namespace Transect.Json

abbrev Bytes := List UInt8

def byte (c : Char) : UInt8 := c.toNat.toUInt8

namespace Byte

@[match_pattern] def quote : UInt8 := 34
@[match_pattern] def plus : UInt8 := 43
@[match_pattern] def comma : UInt8 := 44
@[match_pattern] def minus : UInt8 := 45
@[match_pattern] def point : UInt8 := 46
@[match_pattern] def zero : UInt8 := 48
@[match_pattern] def colon : UInt8 := 58
@[match_pattern] def backslash : UInt8 := 92
@[match_pattern] def closingBracket : UInt8 := 93
@[match_pattern] def letterU : UInt8 := 117
@[match_pattern] def closingBrace : UInt8 := 125

end Byte

def isSpace (b : UInt8) : Bool :=
  b == byte ' ' || b == byte '\t' || b == byte '\n' || b == byte '\r'

def skipSpace (bs : Bytes) : Bytes := bs.dropWhile isSpace

/-! ## Words -/

def readWord (value : Draft) : List Char → Bytes → Draft × Bytes
  | [], bs => (value, bs)
  | _ :: _, [] => (.broken .unfinished, [])
  | c :: cs, b :: bs => if b = byte c then readWord value cs bs else (.broken .malformed, b :: bs)

/-! ## Numbers -/

def isDigit (b : UInt8) : Bool := byte '0' ≤ b && b ≤ byte '9'

/-- The digits at the front, of which there has to be one. -/
def readDigits (bs : Bytes) : Except JsonFault (Bytes × Bytes) :=
  match bs.span isDigit with
  | ([], []) => .error .unfinished
  | ([], _) => .error .malformed
  | found => .ok found

/-- The whole part. Only a lone zero starts with zero. -/
def readWhole (bs : Bytes) : Except JsonFault (Bytes × Bytes) :=
  match readDigits bs with
  | .ok (Byte.zero :: _ :: _, _) => .error .malformed
  | found => found

/-- The fraction with its point, if there is one. -/
def readFraction : Bytes → Except JsonFault (Bytes × Bytes)
  | Byte.point :: bs => (readDigits bs).map fun (digits, rest) => (Byte.point :: digits, rest)
  | bs => .ok ([], bs)

/-- The exponent with its letter and sign, if there is one. -/
def readExponent : Bytes → Except JsonFault (Bytes × Bytes)
  | [] => .ok ([], [])
  | e :: bs =>
    if e = byte 'e' ∨ e = byte 'E' then
      let (sign, bs) : Bytes × Bytes := match bs with
        | Byte.plus :: bs => ([Byte.plus], bs)
        | Byte.minus :: bs => ([Byte.minus], bs)
        | bs => ([], bs)
      (readDigits bs).map fun (digits, rest) => (e :: sign ++ digits, rest)
    else .ok ([], e :: bs)

def readLiteral (bs : Bytes) : Except JsonFault (List Char × Bytes) := do
  let (sign, bs) : Bytes × Bytes := match bs with
    | Byte.minus :: bs => ([Byte.minus], bs)
    | bs => ([], bs)
  let (whole, bs) ← readWhole bs
  let (fraction, bs) ← readFraction bs
  let (exponent, bs) ← readExponent bs
  return ((sign ++ whole ++ fraction ++ exponent).map fun b => Char.ofNat b.toNat, bs)

/-- A number, which has to be finite. -/
def readNumber (bs : Bytes) : Draft × Bytes :=
  match readLiteral bs with
  | .error fault => (.broken fault, [])
  | .ok (literal, rest) =>
    if (value? literal).isSome then (.number literal, rest) else (.broken .malformed, rest)

/-! ## Strings -/

def hexDigit? (b : UInt8) : Option Nat :=
  if isDigit b then some (b.toNat - '0'.toNat)
  else if byte 'A' ≤ b ∧ b ≤ byte 'F' then some (10 + (b.toNat - 'A'.toNat))
  else if byte 'a' ≤ b ∧ b ≤ byte 'f' then some (10 + (b.toNat - 'a'.toNat))
  else none

def hexUnit? (a b c d : UInt8) : Option Nat := do
  let a ← hexDigit? a
  let b ← hexDigit? b
  let c ← hexDigit? c
  let d ← hexDigit? d
  return ((a * 16 + b) * 16 + c) * 16 + d

def isHighSurrogate (n : Nat) : Bool := 0xD800 ≤ n && n < 0xDC00
def isLowSurrogate (n : Nat) : Bool := 0xDC00 ≤ n && n < 0xE000

def joinSurrogates (high low : Nat) : Nat := (high - 0xD800) * 0x400 + (low - 0xDC00) + 0x10000

/-- Puts the bytes of a code point in front of the reversed bytes read so far. -/
def pushCodePoint (n : Nat) (done : Bytes) : Bytes :=
  (String.utf8EncodeChar (Char.ofNat n)).reverse ++ done

/-- The byte that a one-letter escape stands for. -/
def escaped? (b : UInt8) : Option UInt8 :=
  match Char.ofNat b.toNat with
  | '"' => some b
  | '\\' => some b
  | '/' => some b
  | 'b' => some (byte '\x08')
  | 'f' => some (byte '\x0c')
  | 'n' => some (byte '\n')
  | 'r' => some (byte '\r')
  | 't' => some (byte '\t')
  | _ => none

/-- The bytes of a string up to its closing quote, after those read so far in reverse order. -/
def readBody (done : Bytes) : Bytes → Except JsonFault (Bytes × Bytes)
  | [] => .error .unfinished
  | Byte.quote :: rest => .ok (done.reverse, rest)
  | [Byte.backslash] => .error .unfinished
  | Byte.backslash :: Byte.letterU :: a :: b :: c :: d :: rest =>
    match hexUnit? a b c d with
    | none => .error .malformed
    | some n =>
      if isLowSurrogate n then .error .malformed
      else if isHighSurrogate n then
        match rest with
        | [] | [Byte.backslash] => .error .unfinished
        | Byte.backslash :: Byte.letterU :: a :: b :: c :: d :: rest =>
          match hexUnit? a b c d with
          | none => .error .malformed
          | some low =>
            if isLowSurrogate low then readBody (pushCodePoint (joinSurrogates n low) done) rest
            else .error .malformed
        | Byte.backslash :: Byte.letterU :: _ => .error .unfinished
        | _ => .error .malformed
      else readBody (pushCodePoint n done) rest
  | Byte.backslash :: Byte.letterU :: _ => .error .unfinished
  | Byte.backslash :: b :: rest =>
    match escaped? b with
    | some e => readBody (e :: done) rest
    | none => .error .malformed
  | b :: rest => if b < byte ' ' then .error .malformed else readBody (b :: done) rest

def readString (bs : Bytes) : Except JsonFault (String × Bytes) := do
  let (body, rest) ← readBody [] bs
  match String.fromUTF8? ⟨body.toArray⟩ with
  | some s => return (s, rest)
  | none => throw .malformed

/-! ## Arrays and objects -/

/-- How one value is read. -/
abbrev ValueReader := Bytes → Draft × Bytes

/-- The items of an array from the first one on. The fuel is the number of items that there can
be. -/
def readItems (value : ValueReader) : Nat → List Draft → Bytes → Draft × Bytes
  | 0, done, _ => (.array done.reverse (some .malformed), [])
  | fuel + 1, done, bs =>
    let (item, rest) := value bs
    let done := item :: done
    if item.isBroken then (.array done.reverse none, [])
    else match skipSpace rest with
      | [] => (.array done.reverse (some .unfinished), [])
      | Byte.closingBracket :: rest => (.array done.reverse none, rest)
      | Byte.comma :: rest =>
        match skipSpace rest with
        | Byte.closingBracket :: _ => (.array done.reverse (some .malformed), [])
        | rest => readItems value fuel done rest
      | _ => (.array done.reverse (some .malformed), [])

def readArray (value : ValueReader) (fuel : Nat) (bs : Bytes) : Draft × Bytes :=
  match skipSpace bs with
  | [] => (.array [] (some .unfinished), [])
  | Byte.closingBracket :: rest => (.array [] none, rest)
  | rest => readItems value fuel [] rest

def readMemberValue (value : ValueReader) (bs : Bytes) : Draft × Bytes :=
  match skipSpace bs with
  | [] => (.broken .unfinished, [])
  | Byte.colon :: rest => value rest
  | _ => (.broken .malformed, [])

/-- The members of an object, from a name on. The fuel is the number of members that there can
be. -/
def readMembers (value : ValueReader) : Nat → List (String × Draft) → Bytes → Draft × Bytes
  | 0, done, _ => (.object done.reverse (some .malformed), [])
  | _, done, [] => (.object done.reverse (some .unfinished), [])
  | fuel + 1, done, Byte.quote :: bs =>
    match readString bs with
    | .error fault => (.object done.reverse (some fault), [])
    | .ok (name, rest) =>
      let (item, rest) := readMemberValue value rest
      let done := (name, item) :: done
      if item.isBroken then (.object done.reverse none, [])
      else match skipSpace rest with
        | [] => (.object done.reverse (some .unfinished), [])
        | Byte.closingBrace :: rest => (.object done.reverse none, rest)
        | Byte.comma :: rest => readMembers value fuel done (skipSpace rest)
        | _ => (.object done.reverse (some .malformed), [])
  | _, done, _ => (.object done.reverse (some .malformed), [])

def readObject (value : ValueReader) (fuel : Nat) (bs : Bytes) : Draft × Bytes :=
  match skipSpace bs with
  | Byte.closingBrace :: rest => (.object [] none, rest)
  | rest => readMembers value fuel [] rest

/-! ## Values -/

/-- A value and what follows it. Arrays and objects may be nested as deep as `depth` says. -/
def readValue (fuel : Nat) : (depth : Nat) → ValueReader
  | depth, bs =>
    match skipSpace bs with
    | [] => (.broken .unfinished, [])
    | b :: rest =>
      if b = byte 'n' then readWord .null ['u', 'l', 'l'] rest
      else if b = byte 't' then readWord (.bool true) ['r', 'u', 'e'] rest
      else if b = byte 'f' then readWord (.bool false) ['a', 'l', 's', 'e'] rest
      else if b = byte '"' then
        match readString rest with
        | .ok (s, rest) => (.string s, rest)
        | .error fault => (.broken fault, [])
      else if b = byte '-' ∨ isDigit b then readNumber (b :: rest)
      else if b = byte '[' then
        match depth with
        | 0 => (.broken .malformed, [])
        | depth + 1 => readArray (readValue fuel depth) fuel rest
      else if b = byte '\x7b' then
        match depth with
        | 0 => (.broken .malformed, [])
        | depth + 1 => readObject (readValue fuel depth) fuel rest
      else (.broken .malformed, [])

/-- How deep arrays and objects can be nested. -/
def maxDepth : Nat := 127

/-- A whole text: its value, and the fault of what follows the value. -/
structure Document where
  value : Draft
  stop : Option JsonFault

/-- Reads a text. There are fewer items and members than bytes. -/
def readDocument (bs : Bytes) : Document :=
  let (value, rest) := readValue (bs.length + 1) maxDepth bs
  ⟨value, if (skipSpace rest).isEmpty then none else some .malformed⟩

def read (bs : Bytes) : Except JsonFault Json := do
  let document := readDocument bs
  let value ← document.value.complete
  Draft.closing document.stop
  return value

end Transect.Json
