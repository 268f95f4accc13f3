import Transect.GeoJson
import Transect.Text.Split

/-!
# What a command line asks for

A command is given by its name and by flags. Some flags belong to the program, the others to one
command.
-/

namespace Transect

/-! ## Requests -/

inductive Format where
  | json
  | csv
  | plot
deriving Repr, DecidableEq

structure ProfileArguments where
  line : List Point
  count : Nat
  layers : Option (List String)
  parallel : Bool
deriving DecidableEq

inductive Command where
  | profile (format : Format) (arguments : ProfileArguments)
  | raster (location : Point) (layers : Option (List String))
deriving DecidableEq

structure Arguments where
  /-- The path of the configuration. -/
  config : String
  command : Command
deriving DecidableEq

/-! ## Flags -/

inductive Flag where
  | config
  | line
  | count
  | layers
  | parallel
  | location
  | help
  | version
deriving Repr, DecidableEq

namespace Flag

def long : Flag → String
  | .config => "config"
  | .line => "geom"
  | .count => "nb-points"
  | .layers => "layers"
  | .parallel => "parallel"
  | .location => "at"
  | .help => "help"
  | .version => "version"

def short? : Flag → Option Char
  | .config => some 'c'
  | .line => some 'g'
  | .count => some 'n'
  | .layers => some 'l'
  | .parallel => some 'p'
  | .location => none
  | .help => some 'h'
  | .version => some 'V'

/-- The flag as it is shown together with its value. -/
def usage : Flag → String
  | .config => "--config <CONFIG>"
  | .line => "--geom <GEOM>"
  | .count => "--nb-points <NB_POINTS>"
  | .layers => "--layers <LAYERS>"
  | .parallel => "--parallel"
  | .location => "--at <AT>"
  | .help => "--help"
  | .version => "--version"

def takesValue : Flag → Bool
  | .config | .line | .count | .layers | .location => true
  | .parallel | .help | .version => false

end Flag

/-! ## Commands and their flags -/

inductive CommandName where
  | profile (format : Format)
  | raster
  | help
deriving Repr, DecidableEq

def CommandName.ofString? : String → Option CommandName
  | "json" => some (.profile .json)
  | "csv" => some (.profile .csv)
  | "plot" => some (.profile .plot)
  | "raster" => some .raster
  | "help" => some .help
  | _ => none

/-- A part of the command line with its own flags. Commands are named in the first part. -/
inductive Scope where
  | program
  | profile
  | raster
deriving Repr, DecidableEq

namespace Scope

def flags : Scope → List Flag
  | .program => [.config, .help, .version]
  | .profile => [.line, .count, .layers, .parallel, .help]
  | .raster => [.location, .layers, .help]

def long? (scope : Scope) (name : String) : Option Flag :=
  scope.flags.find? fun flag => flag.long == name

def short? (scope : Scope) (letter : Char) : Option Flag :=
  scope.flags.find? fun flag => flag.short? == some letter

def command? : Scope → String → Option CommandName
  | .program, word => CommandName.ofString? word
  | _, _ => none

end Scope

/-! ## Errors -/

inductive ValueError where
  | line (cause : GeoJson.LineError)
  | count (cause : CountError)
  | tooManyPoints
  | location (cause : Point.ReadError)
deriving Repr, DecidableEq

/-- The largest number of points that can be asked for. -/
def maxPoints : Nat := 1000000

def ValueError.message : ValueError → String
  | .line cause => cause.message
  | .count cause => cause.message
  | .tooManyPoints => "at most " ++ toString maxPoints ++ " points"
  | .location cause => cause.message

inductive ArgumentError where
  | helpWanted
  | versionWanted
  /-- Neither a flag nor a command is given. -/
  | nothingGiven
  | noCommand
  | unknownCommand
  | unknownArgument
  | missing (flag : Flag)
  | repeated (flag : Flag)
  /-- The value is missing, or empty where it must not be. -/
  | noValue (flag : Flag)
  | unwantedValue (flag : Flag)
  | badValue (flag : Flag) (cause : ValueError)
deriving Repr, DecidableEq

def ArgumentError.message : ArgumentError → String
  | .helpWanted | .versionWanted | .nothingGiven => ""
  | .noCommand => "a command is required"
  | .unknownCommand => "there is no such command"
  | .unknownArgument => "there is no such argument"
  | .missing flag => flag.usage ++ " is required"
  | .repeated flag => flag.usage ++ " cannot be given more than once"
  | .noValue flag => flag.usage ++ " needs a value"
  | .unwantedValue flag => flag.usage ++ " takes no value"
  | .badValue flag cause => "invalid value for " ++ flag.usage ++ ": " ++ cause.message

end Transect
