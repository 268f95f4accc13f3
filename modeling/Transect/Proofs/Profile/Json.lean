import Transect.Profile.Json
import Transect.Proofs.Float.Value
import Transect.Proofs.Json.Text

/-!
# What the JSON of a profile means

The texts of a profile are read as objects with a member for each part of it. A float is a number if
it is finite, and null if it is not.
-/

namespace Transect

/-! ## Floats -/

namespace Json

/-- What a float is written as. -/
def ofFloat (x : Float) : Json := if x.isFinite then .number (jsonFloat x).toList else .null

theorem means_float (x : Float) : Means (jsonFloat x).toList (ofFloat x) := by
  have hsigned (negative : Bool) (d : Decimal) :
      Means (signed negative d.json) (.number (signed negative d.json)) := by
    apply means_number _ (numeric_signed negative d.numeric_json)
    unfold signed
    split_ifs
    · simp
    · exact d.json_ne_nil
  have hfinite : x.isFinite = (unpack x).isFinite := rfl
  unfold ofFloat jsonFloat
  rw [hfinite, String.toList_ofList]
  cases unpack x with
  | notANumber => exact means_null
  | infinity s => exact means_null
  | zero s => exact hsigned _ _
  | finite s m e hm => exact hsigned _ _

theorem ofFloat_eq_null_iff {x : Float} : ofFloat x = .null ↔ x.isFinite = false := by
  unfold ofFloat
  split_ifs with h <;> simp [h]

end Json

/-! ## Profiles -/

open Json

def Values.tree (values : Values) : Json :=
  .object (values.entries.map fun entry => (entry.1, entry.2.elim .null ofFloat))

def Sample.tree (s : Sample) : Json :=
  .object [("dist", ofFloat s.distance.toFloat), ("values", s.values.tree),
    ("x", ofFloat s.point.x), ("y", ofFloat s.point.y)]

theorem means_value (v : Option Float) : Means (valueJson v) (v.elim .null ofFloat) := by
  cases v with
  | none => exact means_null
  | some x => exact means_float x

theorem Values.means_json (values : Values) : Means values.json values.tree :=
  means_object fun entry _ => means_value entry.2

theorem Sample.means_json (s : Sample) : Means s.json s.tree := by
  apply means_record [
    ("dist", s.distance.json.toList, ofFloat s.distance.toFloat),
    ("values", s.values.json, s.values.tree),
    ("x", (jsonFloat s.point.x).toList, ofFloat s.point.x),
    ("y", (jsonFloat s.point.y).toList, ofFloat s.point.y)]
  simp only [List.forall_mem_cons, List.not_mem_nil, false_imp_iff, implies_true, and_true]
  exact ⟨means_float _, s.values.means_json, means_float _, means_float _⟩

namespace Profile

def samplesTree (p : Profile) : Json := .array (p.samples.map Sample.tree)

def tree (p : Profile) : Json :=
  .object [("layers", .array (p.layers.map .string)), ("points", p.samplesTree)]

def reportTree (p : Profile) : Json := .object [("profile", p.samplesTree)]

variable (p : Profile)

theorem means_samplesJson : Means p.samplesJson p.samplesTree :=
  means_array fun s _ => s.means_json

/-- **The JSON of a profile is read as its layers and samples.** -/
theorem parse?_json : parse? p.json.toList = some p.tree := by
  unfold json
  rw [String.toList_ofList]
  apply Means.parse?_eq
  apply means_record [
    ("layers", writeArray (p.layers.map writeString), .array (p.layers.map .string)),
    ("points", p.samplesJson, p.samplesTree)]
  simp only [List.forall_mem_cons, List.not_mem_nil, false_imp_iff, implies_true, and_true]
  exact ⟨means_array fun layer _ => means_string layer, p.means_samplesJson⟩

theorem parse?_report : parse? p.report.toList = some p.reportTree := by
  unfold report
  rw [String.toList_ofList]
  apply Means.parse?_eq
  apply means_record [("profile", p.samplesJson, p.samplesTree)]
  simp only [List.forall_mem_cons, List.not_mem_nil, false_imp_iff, implies_true, and_true]
  exact p.means_samplesJson

end Profile

end Transect
