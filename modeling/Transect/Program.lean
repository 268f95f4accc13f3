import Transect.Arguments.Reader
import Transect.Config.Reader
import Transect.Profile.Csv
import Transect.Profile.Json
import Transect.Profile.Series

/-!
# The program

The program opens the configured rasters and answers one command. It writes all of its output or,
if anything fails, nothing but a message. In parallel the points of a profile can be visited in any
order, so the order is given from outside, and so is the display that draws charts.
-/

namespace Transect

/-- How a run ends. -/
structure Exit where
  code : Nat
  output : String
  message : String
deriving Repr, DecidableEq

namespace ProfileArguments

/-- How the points are visited. -/
def schedule (arrange : List (Point × Nat) → List (Point × Nat)) (a : ProfileArguments) :
    Schedule :=
  if a.parallel then .parallel arrange else .sequential

def request (arrange : List (Point × Nat) → List (Point × Nat)) (a : ProfileArguments) : Request :=
  ⟨some a.line, some a.count, a.layers, a.schedule arrange⟩

end ProfileArguments

/-- The points at which a command evaluates rasters. -/
def Command.points : Command → List Point
  | .profile _ arguments => Polyline.resample arguments.count arguments.line
  | .raster location _ => [location]

/-! ## Printing -/

/-- A part of a run. What it has printed by the time that it fails stays printed. -/
abbrev Printing := ExceptT Error (StateM String)

/-- Prints a text, behind what is already there. -/
def print (text : String) : Printing Unit := modify (· ++ text)

/-- Prints a table line by line. -/
def Profile.printTable (p : Profile) : Printing Unit := do
  print (.ofList (tableLine p.header))
  p.samples.forM fun s => print (.ofList (tableLine (s.cells p.layers)))

variable (arrange : List (Point × Nat) → List (Point × Nat)) (display : Chart → Printing Unit)
  (tree : FileTree)

/-- Writes a profile in some form. A plot shows the first layer. -/
def Format.write (p : Profile) : Format → Printing Unit
  | .json => print (p.report ++ "\n")
  | .csv => p.printTable
  | .plot =>
    match p.layers with
    | [] => throw .nothingToPlot
    | layer :: _ => display (p.chart layer)

/-- Answers a command with the rasters of a registry. -/
def Command.run (registry : Registry) : Command → Printing Unit
  | .profile format arguments => do
    let profile ← ((arguments.request arrange).run tree registry).profile
    format.write display profile
  | .raster location layers => do
    let selection ← registry.select layers
    let values ← (selection.survey.values tree location).1
    print (.ofList (values.json ++ ['\n']))

/-- Opens the configured rasters and answers the command. -/
def Arguments.run (arguments : Arguments) : Printing Unit := do
  let config ← Config.load tree arguments.config
  let registry ← config.openAll tree
  arguments.command.run arrange display tree registry

/-! ## Ends -/

def usage : String :=
  String.join <| [
    "Usage: transect --config <CONFIG> <COMMAND>",
    "",
    "Commands:",
    "  json    Print the profile of a line as JSON",
    "  csv     Print the profile of a line as CSV",
    "  plot    Plot the first layer of a line",
    "  raster  Print the raster values at one point as JSON",
    "  help    Print this text",
    "",
    "A profile takes --geom <GEOM>, --nb-points <NB_POINTS>, --layers <LAYERS> and --parallel.",
    "A raster takes --at <AT> and --layers <LAYERS>."].map (· ++ "\n")

def version : String := "transect 0.1.0\n"

/-- The end of a run whose arguments are not valid. -/
def ArgumentError.exit : ArgumentError → Exit
  | .helpWanted => ⟨0, usage, ""⟩
  | .versionWanted => ⟨0, version, ""⟩
  | .nothingGiven => ⟨2, "", usage⟩
  | cause => ⟨2, "", "error: " ++ cause.message ++ "\n"⟩

/-- Runs the program on the words after its name. -/
def runInOrder (words : List String) : Exit :=
  match Arguments.read words with
  | .error cause => cause.exit
  | .ok arguments =>
    match (arguments.run arrange display tree).run.run "" with
    | (.ok (), output) => ⟨0, output, ""⟩
    | (.error cause, output) => ⟨1, output, "Error: " ++ cause.message ++ "\n"⟩

/-- A display that shows nothing. -/
def noDisplay (_ : Chart) : Printing Unit := pure ()

/-- Runs the program where no charts can be drawn. The points are visited from start to end in
parallel too. -/
def run (words : List String) : Exit := runInOrder id noDisplay tree words

end Transect
