/-! # Texts in parts -/

namespace Transect

/-- The parts of a text between separators. There is one more part than there are separators. -/
def splitAt (separator : Char) : List Char → List (List Char)
  | [] => [[]]
  | c :: cs =>
    if c = separator then [] :: splitAt separator cs
    else match splitAt separator cs with
      | [] => [[c]]
      | part :: parts => (c :: part) :: parts

/-- The parts of a text with a separator between them. -/
def joinWith (separator : Char) (parts : List (List Char)) : List Char :=
  [separator].intercalate parts

end Transect
