import Transect.Point

/-!
# Polylines

A polyline is a list of points. Resampling gives every segment its share of the requested points
and keeps the vertices. The distance to a point is the sum of the segments before it.
-/

namespace Transect.Polyline

def segments (line : List Point) : List (Point × Point) := line.zip line.tail

def length (line : List Point) : Float :=
  (segments line).foldl (fun total (a, b) => total + a.distance b) 0

/-- The largest number of points that a segment can be given. -/
def maxShare : Nat := wordBound - 1

/-- The share of a segment in `count` points: in proportion to its length, rounded half up and at
least one. -/
def share (count : Nat) (part total : Float) : Nat :=
  max 1 (floorWithin 0 maxShare (floatOfNat count * part / total + 0.5)).toNat

/-- `n` points that lead from `a` to `b`. The last one is `b` itself. -/
def fill (n : Nat) (a b : Point) : List Point :=
  let step := (b - a).divide (floatOfNat n)
  (List.range' 1 (n - 1)).map (fun i => a + step.scale (floatOfNat i)) ++ [b]

/-- About `count` points along the line, all vertices among them. A line without length stays. -/
def resample (count : Nat) (line : List Point) : List Point :=
  let total := length line
  if total == 0 then line
  else
    line.take 1 ++
      (segments line).flatMap fun (a, b) => fill (share count (a.distance b) total) a b

/-- The running totals of a list of lengths. -/
def totals (lengths : List Float) : List Float :=
  let step := fun (sum, sums) d => (sum + d, (sum + d) :: sums)
  (lengths.foldl step (0, [])).2.reverse

/-- The distance from the first point to each point, along the line. -/
def distances (line : List Point) : List Float :=
  if line.isEmpty then []
  else 0 :: totals ((segments line).map fun (a, b) => a.distance b)

end Transect.Polyline
