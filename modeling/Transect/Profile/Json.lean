import Transect.Json.Writer
import Transect.Profile.Basic

/-!
# Profiles as JSON

The values of a sample are an object with a member for each layer, in the order of the names. A
layer without data is null.
-/

namespace Transect

/-- The text of a raster's value. -/
def valueJson : Option Float → List Char
  | some v => (jsonFloat v).toList
  | none => ['n', 'u', 'l', 'l']

def Values.json (values : Values) : List Char :=
  Json.writeObject (values.entries.map fun (name, v) => (name, valueJson v))

def Sample.json (s : Sample) : List Char :=
  Json.writeObject [
    ("dist", s.distance.json.toList),
    ("values", s.values.json),
    ("x", (jsonFloat s.point.x).toList),
    ("y", (jsonFloat s.point.y).toList)]

namespace Profile

def samplesJson (p : Profile) : List Char := Json.writeArray (p.samples.map Sample.json)

/-- The layers and the samples. -/
def json (p : Profile) : String :=
  .ofList (Json.writeObject [
    ("layers", Json.writeArray (p.layers.map Json.writeString)),
    ("points", p.samplesJson)])

/-- The samples alone. -/
def report (p : Profile) : String := .ofList (Json.writeObject [("profile", p.samplesJson)])

end Profile

end Transect
