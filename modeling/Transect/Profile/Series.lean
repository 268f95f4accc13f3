import Transect.Profile.Basic

/-!
# Profiles as plots

A plot is a chart of one layer. How a chart is drawn is not decided here.
-/

namespace Transect

/-- The point of a plot for a sample, if the layer has data there. -/
def Sample.plotPoint? (layer : String) (s : Sample) : Option (Float32 × Float32) :=
  match s.values.find? layer with
  | some (some v) => some (narrow s.distance.toFloat, narrow v)
  | _ => none

/-- What a plot of a layer shows: value over distance, without the samples that have no data. -/
def Profile.series (layer : String) (p : Profile) : List (Float32 × Float32) :=
  p.samples.filterMap (Sample.plotPoint? layer)

/-- What a chart is drawn from: its size in dots, the range of its axis and the points of a line. -/
structure Chart where
  width : Nat
  height : Nat
  first : Float32
  last : Float32
  line : List (Float32 × Float32)

/-- The chart of a layer. Its axis goes from zero to the last point that has data. -/
def Profile.chart (layer : String) (p : Profile) : Chart :=
  let line := p.series layer
  ⟨300, 150, 0, line.getLast?.elim 0 (·.1), line⟩

end Transect
