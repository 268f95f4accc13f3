import Transect.Error

/-!
# JSON values

A number is kept as it is written. A draft is a text as far as it can be read: it says where and
why the reading stopped, so that a reader of some shape can report what comes first, a fault of the
text or a value that does not fit.
-/

namespace Transect

inductive Json where
  | null
  | bool (b : Bool)
  | number (literal : List Char)
  | string (s : String)
  | array (items : List Json)
  | object (members : List (String × Json))

/-- A JSON text as far as it can be read. In an array or an object, `stop` is what was found in
place of the next item or the end. -/
inductive Draft where
  | broken (fault : JsonFault)
  | null
  | bool (b : Bool)
  | number (literal : List Char)
  | string (s : String)
  | array (items : List Draft) (stop : Option JsonFault)
  | object (members : List (String × Draft)) (stop : Option JsonFault)

namespace Draft

def isBroken : Draft → Bool
  | .broken _ => true
  | _ => false

/-- The fault of a part that did not end, after all else in it. -/
def closing (stop : Option JsonFault) : Except JsonFault Unit := stop.elim (.ok ()) .error

mutual

/-- The value, or the first fault. -/
def complete : Draft → Except JsonFault Json
  | .broken fault => .error fault
  | .null => .ok .null
  | .bool b => .ok (.bool b)
  | .number literal => .ok (.number literal)
  | .string s => .ok (.string s)
  | .array items stop => do
    let items ← completeItems items
    closing stop
    return .array items
  | .object members stop => do
    let members ← completeMembers members
    closing stop
    return .object members

def completeItems : List Draft → Except JsonFault (List Json)
  | [] => .ok []
  | item :: rest => do
    let item ← complete item
    let rest ← completeItems rest
    return item :: rest

def completeMembers : List (String × Draft) → Except JsonFault (List (String × Json))
  | [] => .ok []
  | (name, value) :: rest => do
    let value ← complete value
    let rest ← completeMembers rest
    return (name, value) :: rest

end

end Draft

end Transect
