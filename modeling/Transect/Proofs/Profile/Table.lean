import Transect.Profile.Csv
import Transect.Proofs.Decimal.ReadBack
import Transect.Proofs.Decimal.Text
import Transect.Proofs.Profile.Shape
import Transect.Proofs.Raster
import Transect.Proofs.Text.Split

/-!
# Tables are read back

The table of a profile has a header and a row for every sample, all with the same number of cells.
Reading the cells gives back the layers and all that a sample has of them. The text of no data is
that of a number too, so this number may not occur.
-/

namespace Transect

/-! ## Reading a table -/

/-- What a row says about a sample. -/
structure Row where
  tenths : Int
  values : List (Option Float)
  point : Point
deriving DecidableEq

def tableCells (text : String) : List (List (List Char)) :=
  (splitAt '\n' text.toList).dropLast.map (splitAt ',')

/-- The first cell, the cells of the layers and the last two cells. -/
def columns? : List (List Char) → Option (List Char × List (List Char) × List Char × List Char)
  | [] => none
  | first :: rest =>
    match rest.reverse with
    | y :: x :: layers => some (first, layers.reverse, x, y)
    | _ => none

def readHeader? (cells : List (List Char)) : Option (List String) := do
  let (first, names, x, y) ← columns? cells
  if first = "distance".toList ∧ x = ['x'] ∧ y = ['y'] then some (names.map String.ofList)
  else none

/-- A decimal with one digit after the point. -/
def readTenths? (cs : List Char) : Option Int :=
  let (negative, cs) := takeSign cs
  match readDecimal? cs with
  | some ⟨n, -1⟩ => some (if negative then -n else n)
  | _ => none

def readValue? (cs : List Char) : Option (Option Float) :=
  if cs = noDataCell then some none else (readFloat cs).toOption.map some

def readRow? (cells : List (List Char)) : Option Row := do
  let (first, values, x, y) ← columns? cells
  let tenths ← readTenths? first
  let values ← values.mapM readValue?
  let x ← (readFloat x).toOption
  let y ← (readFloat y).toOption
  return ⟨tenths, values, ⟨x, y⟩⟩

def readTable? (text : String) : Option (List String × List Row) := do
  let header :: rows := tableCells text | none
  return (← readHeader? header, ← rows.mapM readRow?)

theorem columns?_eq (first x y : List Char) (layers : List (List Char)) :
    columns? (first :: layers ++ [x, y]) = some (first, layers, x, y) := by
  simp [columns?]

/-! ## Cells -/

/-- A text without a comma and without a line break. -/
def Unbroken (cs : List Char) : Prop := ∀ c ∈ cs, c ≠ ',' ∧ c ≠ '\n'

@[simp]
theorem unbroken_nil : Unbroken [] := by simp [Unbroken]

@[simp]
theorem unbroken_cons {c : Char} {cs : List Char} :
    Unbroken (c :: cs) ↔ (c ≠ ',' ∧ c ≠ '\n') ∧ Unbroken cs := by
  simp [Unbroken]

theorem Numeric.unbroken {cs : List Char} (h : Numeric cs) : Unbroken cs := by
  intro c hc
  have hnumeric := h c hc
  constructor <;> rintro rfl <;> exact absurd hnumeric (by decide)

theorem unbroken_plainFloat (x : Float) : Unbroken (plainFloat x).toList := by
  unfold plainFloat plainText
  rw [String.toList_ofList]
  cases unpack x with
  | notANumber => simp
  | infinity s => cases s <;> simp [signed]
  | zero s => exact (numeric_signed _ (by simp [isNumeric])).unbroken
  | finite s m e hm => exact (numeric_signed _ (Decimal.numeric_plain _)).unbroken

theorem unbroken_valueCell (v : Option (Option Float)) : Unbroken (valueCell v) := by
  unfold valueCell
  split
  · exact unbroken_plainFloat _
  · simp [noDataCell]

theorem Distance.unbroken_text (d : Distance) : Unbroken d.text.toList := by
  unfold text
  rw [String.toList_ofList]
  exact (numeric_signed _ (by simp [isNumeric])).unbroken

theorem Sample.unbroken_cells (layers : List String) (s : Sample) :
    ∀ cell ∈ s.cells layers, Unbroken cell := by
  intro cell hcell
  simp only [cells, List.mem_append, List.mem_cons, List.mem_map, List.not_mem_nil, or_false] at hcell
  rcases hcell with (rfl | ⟨layer, -, rfl⟩) | rfl | rfl
  · exact s.distance.unbroken_text
  · exact unbroken_valueCell _
  · exact unbroken_plainFloat _
  · exact unbroken_plainFloat _

theorem Profile.unbroken_header {p : Profile} (h : ∀ layer ∈ p.layers, Unbroken layer.toList) :
    ∀ cell ∈ p.header, Unbroken cell := by
  intro cell hcell
  simp only [header, List.mem_append, List.mem_cons, List.mem_map, List.not_mem_nil, or_false] at hcell
  rcases hcell with (rfl | ⟨layer, hlayer, rfl⟩) | rfl | rfl
  · simp
  · exact h layer hlayer
  · simp
  · simp

/-! ## The cells of a table -/

/-- Lines of cells without commas and line breaks are found again. -/
theorem tableCells_eq {rows : List (List (List Char))} (hne : ∀ row ∈ rows, row ≠ [])
    (h : ∀ row ∈ rows, ∀ cell ∈ row, Unbroken cell) :
    tableCells (.ofList (rows.flatMap fun cells => joinWith ',' cells ++ ['\n'])) = rows := by
  have hlines : ∀ line ∈ rows.map (joinWith ','), '\n' ∉ line := by
    intro line hline
    obtain ⟨row, hrow, rfl⟩ := List.mem_map.1 hline
    exact not_mem_joinWith (by decide) fun cell hcell hin => (h row hrow cell hcell _ hin).2 rfl
  have hsplit := splitAt_lines hlines
  rw [List.flatMap_map] at hsplit
  unfold tableCells
  rw [String.toList_ofList, hsplit, List.dropLast_concat, List.map_map]
  conv_rhs => rw [← List.map_id rows]
  apply List.map_congr_left
  intro row hrow
  exact splitAt_joinWith (hne row hrow) fun cell hcell hin => (h row hrow cell hcell _ hin).1 rfl

theorem Profile.tableCells_csv {p : Profile} (h : ∀ layer ∈ p.layers, Unbroken layer.toList) :
    tableCells p.csv = p.header :: p.samples.map (Sample.cells p.layers) := by
  apply tableCells_eq
  · intro row hrow
    rcases List.mem_cons.1 hrow with rfl | hrow
    · simp [header]
    · obtain ⟨s, -, rfl⟩ := List.mem_map.1 hrow
      simp [Sample.cells]
  · intro row hrow
    rcases List.mem_cons.1 hrow with rfl | hrow
    · exact unbroken_header h
    · obtain ⟨s, -, rfl⟩ := List.mem_map.1 hrow
      exact s.unbroken_cells p.layers

/-! ## What the cells say -/

theorem readTenths?_text (d : Distance) : readTenths? d.text.toList = some d.tenths := by
  have hdigit : d.tenths.natAbs % 10 < 10 ^ 1 := by omega
  have hlength : (digitsOf (d.tenths.natAbs % 10)).length = 1 := by
    have hpos := digitsOf_length_pos (d.tenths.natAbs % 10)
    have hle := (digitsOf_length_le_iff one_pos).2 hdigit
    omega
  unfold readTenths? Distance.text
  simp only
  rw [String.toList_ofList, takeSign_signed _ (takeSign_digitsOf _ _)]
  simp only
  rw [readDecimal?_point _ fun _ => isDigit_of_mem_digitsOf, hlength, ofDigitChars_digitsOf]
  simp only [Nat.cast_one, decide_eq_true_eq]
  split_ifs <;> congr 1 <;> omega

theorem readFloat_noDataCell : readFloat noDataCell = .ok (-9999) := rfl

/-- The cell of a number means no data only if the number is the one that the text stands for. -/
theorem readValue?_valueCell {v : Option (Option Float)} (hvalue : v ≠ some (some (-9999)))
    (hnumber : ∀ w, v = some (some w) → w.isNaN = false) :
    readValue? (valueCell v) = some v.join := by
  unfold valueCell
  split
  · rename_i w
    have hread := readFloat_plainFloat (hnumber w rfl)
    have hcell : (plainFloat w).toList ≠ noDataCell := by
      intro heq
      rw [heq, readFloat_noDataCell] at hread
      exact hvalue (by rw [Except.ok.inj hread])
    rw [readValue?, if_neg hcell, hread]
    rfl
  · rename_i hnone
    have hjoin : v.join = none := by
      rcases v with _ | _ | w
      · rfl
      · rfl
      · exact absurd rfl (hnone w)
    rw [hjoin]
    rfl

/-- What a row shall say about a sample. -/
def Sample.row (layers : List String) (s : Sample) : Row :=
  ⟨s.distance.tenths, layers.map fun layer => (s.values.find? layer).join, s.point⟩

theorem mapM_map_eq_some {α β γ : Type} {f : β → Option γ} {g : α → β} {k : α → γ} {xs : List α}
    (h : ∀ a ∈ xs, f (g a) = some (k a)) : (xs.map g).mapM f = some (xs.map k) := by
  induction xs with
  | nil => rfl
  | cons a xs ih =>
    rw [List.map_cons, List.mapM_cons, h a List.mem_cons_self,
      ih fun b hb => h b (List.mem_cons_of_mem _ hb)]
    rfl

theorem Sample.readRow?_cells {layers : List String} {s : Sample}
    (hx : s.point.x.isNaN = false) (hy : s.point.y.isNaN = false)
    (hvalues : ∀ layer ∈ layers, s.values.find? layer ≠ some (some (-9999)))
    (hnumbers : ∀ layer ∈ layers, ∀ v, s.values.find? layer = some (some v) → v.isNaN = false) :
    readRow? (s.cells layers) = some (s.row layers) := by
  have hlayers := mapM_map_eq_some fun layer hlayer =>
    readValue?_valueCell (hvalues layer hlayer) (hnumbers layer hlayer)
  unfold readRow? cells
  rw [columns?_eq]
  simp only [Option.bind_eq_bind, Option.bind_some, readTenths?_text, hlayers,
    readFloat_plainFloat hx, readFloat_plainFloat hy, Except.toOption]
  rfl

theorem Profile.readHeader?_header (p : Profile) : readHeader? p.header = some p.layers := by
  have hnames : (p.layers.map String.toList).map String.ofList = p.layers := by
    rw [List.map_map]
    exact List.map_id'' (fun _ => String.ofList_toList) p.layers
  unfold readHeader? header
  rw [columns?_eq]
  simp only [Option.bind_eq_bind, Option.bind_some, and_self, if_true, hnames]

/-! ## The table as a whole -/

/-- The table of the profile has a row for every sample, all rows have the same number of cells, and
the cells say what the profile holds. -/
structure ReadsBack (p : Profile) : Prop where
  rows : (tableCells p.csv).length = 1 + p.samples.length
  cells : ∀ row ∈ tableCells p.csv, row.length = 1 + p.layers.length + 2
  table : readTable? p.csv = some (p.layers, p.samples.map (Sample.row p.layers))

namespace Profile

variable {p : Profile}

theorem readsBack (hnames : ∀ layer ∈ p.layers, Unbroken layer.toList)
    (hpoints : ∀ s ∈ p.samples, s.point.x.isNaN = false ∧ s.point.y.isNaN = false)
    (hvalues : ∀ s ∈ p.samples, ∀ layer ∈ p.layers, s.values.find? layer ≠ some (some (-9999)))
    (hnumbers : ∀ s ∈ p.samples, ∀ layer ∈ p.layers, ∀ v, s.values.find? layer = some (some v) →
      v.isNaN = false) :
    ReadsBack p := by
  have hcells := tableCells_csv hnames
  constructor
  · rw [hcells, List.length_cons, List.length_map, Nat.add_comm]
  · rw [hcells]
    intro row hrow
    rcases List.mem_cons.1 hrow with rfl | hrow
    · simp [header]
      omega
    · obtain ⟨s, -, rfl⟩ := List.mem_map.1 hrow
      simp [Sample.cells]
      omega
  · have hrows := mapM_map_eq_some fun s hs =>
      Sample.readRow?_cells (hpoints s hs).1 (hpoints s hs).2 (hvalues s hs) (hnumbers s hs)
    unfold readTable?
    rw [hcells]
    simp only
    rw [readHeader?_header, hrows]
    rfl

/-- **Tables are read back,** whatever the distances are and whether or not the layers have
different names. In a profile that a request gives, the values are numbers to begin with. -/
theorem csv_readsBack (hnames : ∀ layer ∈ p.layers, Unbroken layer.toList)
    (hpoints : ∀ s ∈ p.samples, s.point.x.isNaN = false ∧ s.point.y.isNaN = false)
    (hvalues : ∀ s ∈ p.samples, ∀ layer ∈ p.layers, s.values.find? layer ≠ some (some (-9999))) :
    ((∀ s ∈ p.samples, ∀ layer ∈ p.layers, ∀ v, s.values.find? layer = some (some v) →
        v.isNaN = false) → ReadsBack p) ∧
      ∀ (tree : FileTree) (registry : Registry) (request : Request), request.schedule.Fair →
        (request.run tree registry).profile = .ok p → ReadsBack p := by
  refine ⟨readsBack hnames hpoints hvalues, ?_⟩
  intro tree registry request hfair hrun
  apply readsBack hnames hpoints hvalues
  intro s hs layer hlayer v hv
  exact (Request.valuesAt_of_mem hfair hrun hs).isNaN hlayer hv

/-- The first and the last distance of 64 bits, and a layer with an empty name that is there
twice. -/
def extremes : Profile :=
  ⟨["", "dem", ""], [
    ⟨⟨-9223372036854775808⟩, .ofList [("", some (-1 / 0)), ("dem", none)], ⟨-0.0, 5e-324⟩⟩,
    ⟨⟨9223372036854775807⟩, .ofList [("", none), ("dem", some 0.1)], ⟨1e300, 1 / 0⟩⟩]⟩

/-- A raster that is infinite but at the start, where it has no data. -/
def steep : Registry :=
  .ofList [("", ⟨.field fun p => .ok (some (p.x / 0)), none, none⟩),
    ("dem", ⟨.field fun p => .ok (some p.x), some 4, some 1⟩)]

def steepRequest : Request :=
  ⟨some [⟨0, 0⟩, ⟨4, 0⟩], some 2, some ["", "dem", ""], .sequential⟩

theorem extremes_readsBack :
    ((∀ layer ∈ extremes.layers, Unbroken layer.toList) ∧
      (∀ s ∈ extremes.samples, s.point.x.isNaN = false ∧ s.point.y.isNaN = false) ∧
      (∀ s ∈ extremes.samples, ∀ layer ∈ extremes.layers,
        s.values.find? layer ≠ some (some (-9999))) ∧
      (∀ s ∈ extremes.samples, ∀ layer ∈ extremes.layers, ∀ v,
        s.values.find? layer = some (some v) → v.isNaN = false) ∧
      ReadsBack extremes) ∧
    ∃ p, steepRequest.schedule.Fair ∧ (steepRequest.run ⟨[]⟩ steep).profile = .ok p ∧
      p.layers = ["", "dem", ""] ∧
      p.samples.map (Sample.row p.layers) =
        [⟨0, [none, some 0, none], ⟨0, 0⟩⟩, ⟨20, [some (1 / 0), some 2, some (1 / 0)], ⟨2, 0⟩⟩,
          ⟨40, [some (1 / 0), none, some (1 / 0)], ⟨4, 0⟩⟩] ∧
      (∀ layer ∈ p.layers, Unbroken layer.toList) ∧
      (∀ s ∈ p.samples, s.point.x.isNaN = false ∧ s.point.y.isNaN = false) ∧
      (∀ s ∈ p.samples, ∀ layer ∈ p.layers, s.values.find? layer ≠ some (some (-9999))) ∧
      ReadsBack p := by
  constructor
  · have hnames : ∀ layer ∈ extremes.layers, Unbroken layer.toList := by simp [extremes]
    have hpoints : ∀ s ∈ extremes.samples,
        s.point.x.isNaN = false ∧ s.point.y.isNaN = false := by
      decide +kernel
    have hvalues : ∀ s ∈ extremes.samples, ∀ layer ∈ extremes.layers,
        s.values.find? layer ≠ some (some (-9999)) := by
      decide +kernel
    have hnumbers : ∀ s ∈ extremes.samples, ∀ layer ∈ extremes.layers, ∀ v,
        s.values.find? layer = some (some v) → v.isNaN = false := by
      have hall : ∀ s ∈ extremes.samples, ∀ layer ∈ extremes.layers,
          (s.values.find? layer).join.any Float.isNaN = false := by
        decide +kernel
      intro s hs layer hlayer v hv
      simpa [hv] using hall s hs layer hlayer
    exact ⟨hnames, hpoints, hvalues, hnumbers, (csv_readsBack hnames hpoints hvalues).1 hnumbers⟩
  · have hfair : steepRequest.schedule.Fair := trivial
    have hoverview : (steepRequest.run ⟨[]⟩ steep).profile.toOption.any (fun p => decide
        (p.layers = ["", "dem", ""] ∧
          p.samples.map (Sample.row p.layers) =
            [⟨0, [none, some 0, none], ⟨0, 0⟩⟩, ⟨20, [some (1 / 0), some 2, some (1 / 0)], ⟨2, 0⟩⟩,
              ⟨40, [some (1 / 0), none, some (1 / 0)], ⟨4, 0⟩⟩] ∧
          (∀ s ∈ p.samples, s.point.x.isNaN = false ∧ s.point.y.isNaN = false) ∧
          ∀ s ∈ p.samples, ∀ layer ∈ p.layers,
            s.values.find? layer ≠ some (some (-9999)))) = true := by
      decide +kernel
    obtain ⟨p, hrun, hlayers, hrows, hpoints, hvalues⟩ := Request.exists_profile_of_any hoverview
    have hnames : ∀ layer ∈ p.layers, Unbroken layer.toList := by simp [hlayers]
    exact ⟨p, hfair, hrun, hlayers, hrows, hnames, hpoints, hvalues,
      (csv_readsBack hnames hpoints hvalues).2 ⟨[]⟩ steep steepRequest hfair hrun⟩

end Profile

end Transect
