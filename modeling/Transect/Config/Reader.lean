import Transect.Config.Basic
import Transect.Json.Reader

/-!
# Reading configurations

A configuration is a JSON object with one member, `rasters`, which is an object with a member for
each raster. Or it is an array of just that inner object. A raster has the members `type`, `dir`,
`mode`, `round` and `nodata`, and any others are ignored. Whatever comes first in the text is
reported, a fault of the text or a value that does not fit. Only `type`, `dir` and `mode` are
looked at when the object of the raster has been read to its end.
-/

namespace Transect

/-! ## The members of a raster -/

namespace RasterConfig

def readNumber : Draft → Except JsonFault (Option Float)
  | .null => .ok none
  | .number literal => .ok (Json.value? literal)
  | .broken fault => .error fault
  | _ => .error .mismatched

/-- What has been read of a raster's object. -/
structure Fields where
  round : Option (Option Float)
  nodata : Option (Option Float)
  others : List (String × Json)

/-- Takes one more member. `round` and `nodata` are read once and at once. -/
def Fields.take (fields : Fields) : String × Draft → Except JsonFault Fields
  | ("round", draft) =>
    if fields.round.isSome then .error .mismatched
    else (readNumber draft).map fun v => { fields with round := some v }
  | ("nodata", draft) =>
    if fields.nodata.isSome then .error .mismatched
    else (readNumber draft).map fun v => { fields with nodata := some v }
  | (name, draft) =>
    draft.complete.map fun v => { fields with others := (name, v) :: fields.others }

/-- The values of the other members of a name. -/
def Fields.named (fields : Fields) (name : String) : List Json :=
  (fields.others.filter (·.1 == name)).map (·.2)

/-- Whether a value names the type of raster that there is, or its number. -/
def isHeightType : Json → Bool
  | .string s => s == "hgt"
  | .number literal => literal == ['0']
  | _ => false

def storageNamed? : String → Option Storage
  | "inmem" => some .inMemory
  | "memmap" => some .mapped
  | _ => none

/-- The storage that a value means: its name, or an object of the name and nothing. -/
def readStorage? : Json → Option Storage
  | .string name => storageNamed? name
  | .object [(name, .null)] | .object [(name, .object [])] => storageNamed? name
  | _ => none

/-- The raster of all its members. Files are mapped if nothing else is said. -/
def Fields.config? (fields : Fields) : Option RasterConfig := do
  let [type] := fields.named "type" | none
  guard (isHeightType type)
  let [.string directory] := fields.named "dir" | none
  let storage ← match fields.named "mode" with
    | [] => some .mapped
    | [mode] => readStorage? mode
    | _ => none
  return ⟨directory, storage, fields.round.join, fields.nodata.join⟩

def ofDraft : Draft → Except JsonFault RasterConfig
  | .object members stop => do
    let fields ← members.foldlM Fields.take ⟨none, none, []⟩
    Draft.closing stop
    match fields.config? with
    | some config => return config
    | none => throw .mismatched
  | .broken fault => .error fault
  | _ => .error .mismatched

end RasterConfig

/-! ## The whole -/

namespace Config

/-- Reads the rasters. The last one of a name counts. -/
def ofRasters : Draft → Except JsonFault Config
  | .object members stop => do
    let rasters ← members.mapM fun (name, draft) => (RasterConfig.ofDraft draft).map (name, ·)
    Draft.closing stop
    return .ofList rasters
  | .broken fault => .error fault
  | _ => .error .mismatched

/-- Takes one more member of the outer object, which has no other than `rasters`. -/
def take : Option Config → String × Draft → Except JsonFault (Option Config)
  | none, ("rasters", draft) => (ofRasters draft).map some
  | _, _ => .error .mismatched

def ofDraft : Draft → Except JsonFault Config
  | .object members stop => do
    let config ← members.foldlM take none
    Draft.closing stop
    match config with
    | some config => return config
    | none => throw .mismatched
  | .array [] stop => do
    Draft.closing stop
    throw .mismatched
  | .array (first :: more) stop => do
    let config ← ofRasters first
    if more.isEmpty then
      Draft.closing stop
      return config
    else throw .malformed
  | .broken fault => .error fault
  | _ => .error .mismatched

def read (bytes : List UInt8) : Except JsonFault Config := do
  let document := Json.readDocument bytes
  let config ← ofDraft document.value
  Draft.closing document.stop
  return config

def ofText (text : String) : Except Error Config := (read text.toUTF8.data.toList).mapError .config

def load (tree : FileTree) (path : String) : Except Error Config := do
  match ← (tree.find path).mapError Error.file with
  | .file bytes => (read bytes.data.toList).mapError .config
  | .directory => throw (.config .unreadable)

end Config

end Transect
