import Transect.Text.Printable

/-!
# Quoted text

A name in a message stands in double quotes. Characters that would hide or end it are escaped.
-/

namespace Transect

/-- A character as it stands between double quotes. -/
def quoteChar (c : Char) : List Char :=
  match c with
  | '\x00' => ['\\', '0']
  | '\t' => ['\\', 't']
  | '\n' => ['\\', 'n']
  | '\r' => ['\\', 'r']
  | '"' => ['\\', '"']
  | '\\' => ['\\', '\\']
  | c =>
    if isPrintable c then [c]
    else ['\\', 'u', '\x7b'] ++ Nat.toDigits 16 c.toNat ++ ['\x7d']

/-- The text in double quotes. -/
def quoted (s : String) : String := .ofList ('"' :: s.toList.flatMap quoteChar ++ ['"'])

end Transect
