import Transect.Text.Split

/-!
# Writing JSON

Texts are written without spaces. In a string only the quote, the backslash and control characters
are escaped.
-/

namespace Transect.Json

/-- A character as it stands in a string. -/
def escapeChar (c : Char) : List Char :=
  match c with
  | '"' => ['\\', '"']
  | '\\' => ['\\', '\\']
  | '\x08' => ['\\', 'b']
  | '\t' => ['\\', 't']
  | '\n' => ['\\', 'n']
  | '\x0c' => ['\\', 'f']
  | '\r' => ['\\', 'r']
  | c =>
    if c.toNat < 0x20 then
      ['\\', 'u', '0', '0', Nat.digitChar (c.toNat / 16), Nat.digitChar (c.toNat % 16)]
    else [c]

def writeString (s : String) : List Char := '"' :: s.toList.flatMap escapeChar ++ ['"']

def writeArray (items : List (List Char)) : List Char := '[' :: joinWith ',' items ++ [']']

/-- An object with the members in the given order. -/
def writeObject (members : List (String × List Char)) : List Char :=
  let member := fun (name, value) => writeString name ++ ':' :: value
  '\x7b' :: joinWith ',' (members.map member) ++ ['\x7d']

end Transect.Json
