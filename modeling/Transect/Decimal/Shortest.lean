import Transect.Binary
import Transect.Decimal.Basic

/-!
# Shortest decimals

Many decimals read back as the same float. They fill the float's cell, the numbers for which it is
the nearest. The shortest decimal is a multiple of the largest power of ten that has a multiple in
the cell, and of those multiples the one nearest to the float.
-/

namespace Transect

open Float.Model (Format)

/-- Which of two multiples equally near to the float is taken. -/
inductive Tie where
  | up
  | toEven
deriving Repr, DecidableEq

/-- The numbers that read back as one float, measured in a unit that makes all of them natural. -/
structure Cell where
  low : Nat
  value : Nat
  high : Nat
  /-- Whether the two ends belong to the cell. -/
  closed : Bool

/-- A power of ten in the measure of a cell, and how often it goes into the cell's value. -/
structure Grid where
  step : Nat
  count : Nat
  /-- The power is `10 ^ place`. -/
  place : Int

namespace Cell

def holds (c : Cell) (n : Nat) : Bool :=
  if c.closed then c.low ≤ n && n ≤ c.high else c.low < n && n < c.high

/-- Whether a multiple of the step is in the cell. The two around the value decide it. -/
def meets (c : Cell) (g : Grid) : Bool :=
  c.holds (g.count * g.step) || c.holds ((g.count + 1) * g.step)

end Cell

def Grid.coarser (g : Grid) : Grid := ⟨g.step * 10, g.count / 10, g.place + 1⟩

/-- The coarsest grid that meets the cell. The fuel is the number of steps that can be made. -/
def Cell.coarsest (c : Cell) : Nat → Grid → Grid
  | 0, g => g
  | fuel + 1, g => if c.meets g.coarser then c.coarsest fuel g.coarser else g

/-- The multiple of the step in the cell that is nearest to the value. -/
def Cell.multiple (c : Cell) (tie : Tie) (g : Grid) : Nat :=
  let below := g.count * g.step
  let above := (g.count + 1) * g.step
  if !c.holds above then g.count
  else if !c.holds below then g.count + 1
  else
    match compare (c.value - below) (above - c.value) with
    | .lt => g.count
    | .gt => g.count + 1
    | .eq => match tie with
      | .up => g.count + 1
      | .toEven => g.count + g.count % 2

/-- A place so low that its power of ten is smaller than the cell of `m * 2 ^ e`. -/
def finePlace (e : Int) : Int := e * 30103 / 100000 - 1

/-- The cell of `m * 2 ^ e` and the grid of the fine place in it. Ends belong to the cell if `m` is
even. The gap below a power of two is half as wide as the gap above. -/
def cellOf (format : Format) (m : Nat) (e : Int) : Cell × Grid :=
  let place := finePlace e
  let twos := (2 - e).toNat
  let tens := (-place).toNat
  let quarter := Nat.pow 2 (e - 2 + twos).toNat * Nat.pow 10 tens
  let below :=
    if m = Nat.pow 2 format.mantissaBitsWithoutImplicit ∧ format.minExponent < e then 1 else 2
  let value := 4 * m * quarter
  let step := Nat.pow 2 twos * Nat.pow 10 (place + tens).toNat
  let cell : Cell := ⟨(4 * m - below) * quarter, value, (4 * m + 2) * quarter, m % 2 == 0⟩
  (cell, ⟨step, value / step, place⟩)

/-- The shortest decimal that reads back as `m * 2 ^ e`. -/
def shortest (format : Format) (tie : Tie) (m : Nat) (e : Int) : Decimal :=
  let (cell, fine) := cellOf format m e
  let grid := cell.coarsest fine.count fine
  ⟨cell.multiple tie grid, grid.place⟩

/-- The shortest decimal of the magnitude of a finite float. -/
def shortest? (tie : Tie) (x : Float) : Option Decimal :=
  match unpack x with
  | .notANumber | .infinity _ => none
  | .zero _ => some ⟨0, 0⟩
  | .finite _ m e _ => some (shortest Format.binary64 tie m e)

end Transect
