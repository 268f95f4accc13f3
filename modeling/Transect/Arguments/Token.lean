import Transect.Arguments.Basic

/-!
# Words of a command line

What a word is shows from its dashes. A lone dash is a plain word.
-/

namespace Transect

inductive Token where
  | plain
  /-- Two dashes alone. No flags follow them. -/
  | terminator
  /-- A long name and the value after its `=`. -/
  | long (name : String) (value : Option String)
  /-- The letters after one dash. A value may follow the last of them. -/
  | letters (cs : List Char)
deriving Repr, DecidableEq

/-- The text before the first `=`, and the text after it. -/
def splitAtEquals (cs : List Char) : List Char × Option (List Char) :=
  match cs.dropWhile (· != '=') with
  | [] => (cs, none)
  | _ :: value => (cs.takeWhile (· != '='), some value)

def Token.ofChars : List Char → Token
  | ['-', '-'] => .terminator
  | '-' :: '-' :: cs =>
    let (name, value) := splitAtEquals cs
    .long (.ofList name) (value.map .ofList)
  | '-' :: c :: cs => .letters (c :: cs)
  | _ => .plain

/-- The value that follows a letter in the same word. An `=` in front of it does not count. -/
def attachedValue : List Char → Option String
  | [] => none
  | '=' :: cs => some (.ofList cs)
  | cs => some (.ofList cs)

end Transect
