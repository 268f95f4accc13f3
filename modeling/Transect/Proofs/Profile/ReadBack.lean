import Transect.Proofs.Decimal.Json
import Transect.Proofs.Distance
import Transect.Proofs.Profile.NoData

/-!
# Profiles are read back from JSON

A reader takes the document of a profile apart again. Numbers become the nearest floats, distances
are rounded to tenths and null is no data. It finds the profile that was written, if all of its
numbers are finite and its distances have up to fifteen digits.
-/

namespace Transect

/-! ## Reading a document -/

namespace Json

def float? : Json → Option Float
  | .number literal => (readFloat literal).toOption
  | _ => none

/-- The value of a raster. -/
def datum? : Json → Option (Option Float)
  | .null => some none
  | j => (float? j).map some

def name? : Json → Option String
  | .string s => some s
  | _ => none

def items? : Json → Option (List Json)
  | .array items => some items
  | _ => none

def members? : Json → Option (List (String × Json))
  | .object members => some members
  | _ => none

end Json

open Json

def Values.ofJson? (j : Json) : Option Values := do
  let entries ← (← members? j).mapM fun (name, value) => (datum? value).map (name, ·)
  return .ofList entries

def Sample.ofJson? (j : Json) : Option Sample := do
  let distance ← float? (← member? "dist" j)
  let values ← Values.ofJson? (← member? "values" j)
  let x ← float? (← member? "x" j)
  let y ← float? (← member? "y" j)
  return ⟨.ofFloat distance, values, ⟨x, y⟩⟩

/-- The profile that a document describes. -/
def Profile.read? (text : String) : Option Profile := do
  let document ← parse? text.toList
  let layers ← (← items? (← member? "layers" document)).mapM name?
  let samples ← (← items? (← member? "points" document)).mapM Sample.ofJson?
  return ⟨layers, samples⟩

/-! ## Numbers -/

variable {x : Float} {v : Option Float} {values : Values} {s : Sample} {p : Profile}

theorem float?_ofFloat (h : x.isFinite = true) : float? (ofFloat x) = some x := by
  rw [ofFloat, if_pos h, float?, readFloat_jsonFloat h]
  rfl

theorem datum?_elim (h : ∀ x, v = some x → x.isFinite = true) :
    datum? (v.elim .null ofFloat) = some v := by
  cases v with
  | none => rfl
  | some x =>
    have hx := h x rfl
    have hread := float?_ofFloat hx
    rw [Option.elim_some]
    rw [ofFloat, if_pos hx] at hread ⊢
    rw [datum?, hread, Option.map_some]
    simp

/-! ## Samples -/

/-- A sample of finite numbers, with a distance that a float can hold. -/
structure Sample.Finite (s : Sample) : Prop where
  distance : s.distance.tenths.natAbs < 10 ^ 15
  values : ∀ name x, (name, some x) ∈ s.values.entries → x.isFinite = true
  point : s.point.Finite

theorem Values.ofJson?_tree (h : ∀ name x, (name, some x) ∈ values.entries → x.isFinite = true) :
    Values.ofJson? values.tree = some values := by
  have hentries : (values.entries.map fun entry => (entry.1, entry.2.elim .null ofFloat)).mapM
      (fun (name, value) => (datum? value).map (name, ·)) = some (values.entries.map id) := by
    apply mapM_map_eq_some
    rintro ⟨name, v⟩ hentry
    simp [datum?_elim fun x hx => h name x (hx ▸ hentry)]
  rw [List.map_id] at hentries
  unfold Values.ofJson? Values.tree members?
  simp only [Option.bind_eq_bind, Option.bind_some, hentries]
  exact congrArg some values.ofList_entries

theorem Sample.ofJson?_tree (h : s.Finite) : Sample.ofJson? s.tree = some s := by
  have hdistance := float?_ofFloat (Distance.isFinite_toFloat h.distance)
  have hvalues := Values.ofJson?_tree h.values
  have hx := float?_ofFloat h.point.1
  have hy := float?_ofFloat h.point.2
  unfold Sample.ofJson? Sample.tree
  simp [member?, List.lookup, hdistance, hvalues, hx, hy, Distance.ofFloat_toFloat h.distance]

/-! ## Profiles -/

namespace Profile

/-- **A profile is read back from its JSON,** whatever characters its names have. -/
theorem json_readsBack (h : ∀ s ∈ p.samples, s.Finite) : read? p.json = some p := by
  have hlayers : (p.layers.map Json.string).mapM name? = some p.layers := by
    simpa using mapM_map_eq_some (f := name?) (k := id) fun layer (_ : layer ∈ p.layers) => rfl
  have hsamples : (p.samples.map Sample.tree).mapM Sample.ofJson? = some p.samples := by
    simpa using mapM_map_eq_some (k := id) fun s hs => Sample.ofJson?_tree (h s hs)
  unfold read?
  simp [p.parse?_json, tree, samplesTree, member?, items?, List.lookup, hlayers, hsamples]

/-- Names that have to be escaped or come twice, and numbers at the ends of their ranges. -/
def curious : Profile :=
  ⟨["say \"\\\"", "\x00\t\n\x1f\x7f", "", "say \"\\\""], [
    ⟨⟨999999999999999⟩,
      .ofList [("say \"\\\"", some (-0.0)), ("\x00\t\n\x1f\x7f", none), ("", some 5e-324)],
      ⟨-0.0, 1.7976931348623157e308⟩⟩,
    ⟨⟨-999999999999999⟩,
      .ofList [("say \"\\\"", none), ("\x00\t\n\x1f\x7f", some 0.1), ("", some (-9999))],
      ⟨-1e-7, 9007199254740993⟩⟩,
    ⟨⟨0⟩, .ofList [], ⟨0, 1e16⟩⟩]⟩

theorem curious_readsBack :
    (∀ s ∈ curious.samples, s.Finite) ∧ read? curious.json = some curious := by
  have hfinite : ∀ s ∈ curious.samples, s.Finite := by
    have hall : ∀ s ∈ curious.samples, s.distance.tenths.natAbs < 10 ^ 15 ∧ s.point.Finite ∧
        ∀ entry ∈ s.values.entries, entry.2.all Float.isFinite = true := by
      decide +kernel
    intro s hs
    obtain ⟨hdistance, hpoint, hvalues⟩ := hall s hs
    exact ⟨hdistance, fun name x hx => hvalues _ hx, hpoint⟩
  exact ⟨hfinite, json_readsBack hfinite⟩

end Profile

end Transect
