import Transect.Decimal.Text
import Transect.Text.Quoted

/-!
# What can go wrong

Every failure is a cause, and `message` gives its wording.
-/

namespace Transect

/-- Why a file cannot be used. -/
inductive FileError where
  | notFound
  | notADirectory
  | nameTooLong
  | zeroInName
  | other (text : String)
deriving Repr, DecidableEq

def FileError.message : FileError → String
  | .notFound => "No such file or directory (os error 2)"
  | .notADirectory => "Not a directory (os error 20)"
  | .nameTooLong => "File name too long (os error 36)"
  | .zeroInName => "file name contained an unexpected NUL byte"
  | .other text => text

/-- Why a file is no elevation tile. -/
inductive TileError where
  | file (cause : FileError)
  | name (path : String)
  | size (bytes : Nat) (path : String)
deriving Repr, DecidableEq

def TileError.message : TileError → String
  | .file cause => cause.message
  | .name path => quoted path ++ " is not named like N44W072.hgt"
  | .size bytes path =>
    quoted path ++ " has " ++ toString bytes ++ " bytes, not a square grid of i16 samples"

/-- Why a text is not the JSON that is expected. -/
inductive JsonFault where
  /-- The text cannot be had. -/
  | unreadable
  /-- The text ends too early. -/
  | unfinished
  /-- The text is not JSON. -/
  | malformed
  /-- The text is JSON of another shape. -/
  | mismatched
deriving Repr, DecidableEq

/-- What a profile cannot do without. -/
inductive Parameter where
  | line
  | count
deriving Repr, DecidableEq

def Parameter.name : Parameter → String
  | .line => "line"
  | .count => "nb_points"

/-- Why a request has no answer. -/
inductive Error where
  | missing (parameter : Parameter)
  | emptyGeometry
  | rasterNotFound (name : String)
  | file (cause : FileError)
  | noHeightFiles (directory : String)
  | tile (cause : TileError)
  | config (fault : JsonFault)
  | round (quantum : Float)
  | nothingToPlot
deriving DecidableEq

def Error.message : Error → String
  | .missing parameter => "missing required parameter '" ++ parameter.name ++ "'"
  | .emptyGeometry => "geometry has no coordinates"
  | .rasterNotFound name => "layer " ++ name ++ " not found"
  | .file cause => cause.message
  | .noHeightFiles directory => "no height files in " ++ directory
  | .tile cause => cause.message
  | .config _ => "invalid raster config"
  | .round quantum => "invalid round value " ++ plainFloat quantum ++ ", must be positive"
  | .nothingToPlot => "no raster to plot"

end Transect
