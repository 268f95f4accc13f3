import Transect.Profile.Series
import Transect.Proofs.Profile.Json
import Transect.Proofs.Profile.Table

/-!
# How the outputs show no data

A layer without data at a point is null in JSON, left out of a plot and marked by a number in a
table. A plot shows all else. JSON has no infinite numbers, so they are null too, and in a table the
number itself looks like the mark.
-/

namespace Transect

/-! ## Entries -/

namespace Json

def member? (name : String) : Json → Option Json
  | .object members => members.lookup name
  | _ => none

def item? (i : ℕ) : Json → Option Json
  | .array items => (items)[i]?
  | _ => none

/-- The entry of a layer in a sample of the named list. -/
def entry? (text list : String) (i : ℕ) (layer : String) : Option Json := do
  let document ← parse? text.toList
  let samples ← member? list document
  let sample ← item? i samples
  let values ← member? "values" sample
  member? layer values

end Json

variable {p : Profile} {s : Sample} {i : ℕ} {layer : String} {v : Option Float} {x : Float}

theorem Values.member?_tree {values : Values} (hv : values.find? layer = some v) :
    Json.member? layer values.tree = some (v.elim .null Json.ofFloat) := by
  have hlookup := lookup_map_snd (fun v : Option Float => v.elim .null Json.ofFloat)
    values.entries layer
  unfold Values.tree Json.member?
  simp only
  rw [hlookup]
  exact congrArg _ hv

/-- The entry in any document that has the samples of the profile under the name of the list. -/
theorem Profile.entry?_eq {text list : String} {members : List (String × Json)}
    (htext : Json.parse? text.toList = some (.object members))
    (hlist : members.lookup list = some p.samplesTree) (hs : p.samples[i]? = some s)
    (hv : s.values.find? layer = some v) :
    Json.entry? text list i layer = some (v.elim .null Json.ofFloat) := by
  have hvalues : Json.member? "values" s.tree = some s.values.tree := by
    simp [Json.member?, Sample.tree, List.lookup]
  have hitem : Json.item? i p.samplesTree = some s.tree := by
    simp [Json.item?, samplesTree, hs]
  have hsamples : Json.member? list (.object members) = some p.samplesTree := hlist
  unfold Json.entry?
  simp only [htext, hsamples, hitem, hvalues, Option.bind_eq_bind, Option.bind_some]
  exact Values.member?_tree hv

theorem Profile.entry?_json (hs : p.samples[i]? = some s) (hv : s.values.find? layer = some v) :
    Json.entry? p.json "points" i layer = some (v.elim .null Json.ofFloat) :=
  entry?_eq p.parse?_json (by simp [List.lookup]) hs hv

theorem Profile.entry?_report (hs : p.samples[i]? = some s) (hv : s.values.find? layer = some v) :
    Json.entry? p.report "profile" i layer = some (v.elim .null Json.ofFloat) :=
  entry?_eq p.parse?_report (by simp [List.lookup]) hs hv

/-! ## What stands for no data -/

theorem Sample.plotPoint?_eq_none_iff (hv : s.values.find? layer = some v) :
    s.plotPoint? layer = none ↔ v = none := by
  unfold plotPoint?
  rw [hv]
  cases v <;> simp

theorem jsonEntry_eq_null_iff (hnumber : ∀ x, v = some x → x.isNaN = false) :
    v.elim .null Json.ofFloat = .null ↔ v = none ∨ ∃ x, v = some x ∧ x.isInf = true := by
  cases v with
  | none => simp
  | some x =>
    rw [Option.elim_some, Json.ofFloat_eq_null_iff, isFinite_eq_false_iff (hnumber x rfl)]
    simp

theorem valueCell_eq_noDataCell_iff (hnumber : ∀ x, v = some x → x.isNaN = false) :
    valueCell (some v) = noDataCell ↔ v = none ∨ v = some (-9999) := by
  have hmark : (plainFloat (-9999)).toList = noDataCell := by rfl
  constructor
  · intro hcell
    cases v with
    | none => exact .inl rfl
    | some x =>
      have hread := readFloat_plainFloat (hnumber x rfl)
      have hcell : (plainFloat x).toList = noDataCell := hcell
      rw [hcell, readFloat_noDataCell] at hread
      exact .inr (by rw [Except.ok.inj hread])
  · rintro (rfl | rfl)
    · rfl
    · exact hmark

/-! ## Where the outputs agree -/

/-- The outputs agree on whether a sample has data in a layer. -/
def Profile.AgreeAt (p : Profile) (i j : ℕ) (s : Sample) (layer : String) : Prop :=
  (Json.entry? p.json "points" i layer = some .null ↔ s.plotPoint? layer = none) ∧
    (s.plotPoint? layer = none ↔ (s.cells p.layers)[j + 1]? = some noDataCell)

theorem Sample.cells_getElem? {layers : List String} {j : ℕ} (h : (layers)[j]? = some layer) :
    (s.cells layers)[j + 1]? = some (valueCell (s.values.find? layer)) := by
  have hj : j < layers.length := (List.getElem?_eq_some_iff.1 h).1
  unfold cells
  rw [List.getElem?_append_left (by simpa using hj), List.getElem?_cons_succ, List.getElem?_map, h,
    Option.map_some]

namespace Request

variable {tree : FileTree} {registry : Registry} {request : Request} {j : ℕ}

/-- **What the outputs show.** A plot leaves out what has no data and nothing else. JSON has null for
infinite numbers too, and a table has the mark for one number too. So all outputs agree on where
there is no data but for these numbers. -/
theorem run_shows_noData (hfair : request.schedule.Fair)
    (hrun : (request.run tree registry).profile = .ok p) (hs : p.samples[i]? = some s)
    (hlayer : p.layers[j]? = some layer) :
    ∃ v entry cell, s.values.find? layer = some v ∧
      Json.entry? p.json "points" i layer = some entry ∧
      Json.entry? p.report "profile" i layer = some entry ∧
      (s.cells p.layers)[j + 1]? = some cell ∧
      (s.plotPoint? layer = none ↔ v = none) ∧
      (entry = .null ↔ v = none ∨ ∃ x, v = some x ∧ x.isInf = true) ∧
      (cell = noDataCell ↔ v = none ∨ v = some (-9999)) ∧
      (p.AgreeAt i j s layer ↔ ∀ x, v = some x → x.isInf = false ∧ x ≠ -9999) := by
  have hvalues := valuesAt_of_mem hfair hrun (List.mem_of_getElem? hs)
  have hmem := List.mem_of_getElem? hlayer
  obtain ⟨raster, v, -, -, hv⟩ := hvalues.value layer hmem
  have hnumber : ∀ x, v = some x → x.isNaN = false := by
    rintro x rfl
    exact hvalues.isNaN hmem hv
  have hjson := Profile.entry?_json hs hv
  have hreport := Profile.entry?_report hs hv
  have hcell := Sample.cells_getElem? (s := s) hlayer
  rw [hv] at hcell
  have hplot := s.plotPoint?_eq_none_iff hv
  have hnull := jsonEntry_eq_null_iff hnumber
  have hmark := valueCell_eq_noDataCell_iff hnumber
  refine ⟨v, _, _, hv, hjson, hreport, hcell, hplot, hnull, hmark, ?_⟩
  unfold Profile.AgreeAt
  rw [hjson, hcell, Option.some_inj, Option.some_inj, hplot, hnull, hmark]
  cases v <;> simp

/-- An infinite raster, a raster of the number that marks no data in a table, and one with no
data. -/
def signals : Registry :=
  .ofList [("mark", ⟨.field fun _ => .ok (some (-9999)), none, none⟩),
    ("steep", ⟨.field fun _ => .ok (some (1 / 0)), none, none⟩),
    ("void", ⟨.field fun _ => .ok none, none, none⟩)]

def signalsAtOrigin : Request := ⟨some [⟨0, 0⟩], some 1, none, .sequential⟩

theorem signals_run :
    ∃ p s, (signalsAtOrigin.run ⟨[]⟩ signals).profile = .ok p ∧ p.samples[0]? = some s ∧
      p.layers = ["mark", "steep", "void"] ∧
      s.values.find? "mark" = some (some (-9999 : Float)) ∧
      s.values.find? "steep" = some (some (1 / 0 : Float)) ∧
      s.values.find? "void" = some (none : Option Float) := by
  have hoverview : (signalsAtOrigin.run ⟨[]⟩ signals).profile.toOption.any (fun p => decide
      (p.layers = ["mark", "steep", "void"] ∧ ∃ s, p.samples[0]? = some s ∧
        s.values.find? "mark" = some (some (-9999 : Float)) ∧
        s.values.find? "steep" = some (some (1 / 0 : Float)) ∧
        s.values.find? "void" = some (none : Option Float))) = true := by
    decide +kernel
  obtain ⟨p, hrun, hlayers, s, hs, hmark, hsteep, hvoid⟩ := exists_profile_of_any hoverview
  exact ⟨p, s, hrun, hs, hlayers, hmark, hsteep, hvoid⟩

/-- **The outputs do not always agree.** An infinite number is null in JSON only, and the number
that marks no data in a table is not left out elsewhere. -/
theorem signals_disagree :
    ∃ p s, (signalsAtOrigin.run ⟨[]⟩ signals).profile = .ok p ∧ p.samples[0]? = some s ∧
      p.layers = ["mark", "steep", "void"] ∧
      (Json.entry? p.json "points" 0 "steep" = some .null ∧ s.plotPoint? "steep" ≠ none ∧
        (s.cells p.layers)[2]? ≠ some noDataCell) ∧
      (Json.entry? p.json "points" 0 "mark" ≠ some .null ∧ s.plotPoint? "mark" ≠ none ∧
        (s.cells p.layers)[1]? = some noDataCell) ∧
      ¬ ∀ (i j : ℕ) s layer, p.samples[i]? = some s → p.layers[j]? = some layer →
        p.AgreeAt i j s layer := by
  obtain ⟨p, s, hrun, hs, hlayers, hmark, hsteep, -⟩ := signals_run
  have hsteepJson : Json.entry? p.json "points" 0 "steep" = some .null := by
    rw [Profile.entry?_json hs hsteep]
    congr 1
  have hsteepPlot : s.plotPoint? "steep" ≠ none := by
    rw [ne_eq, s.plotPoint?_eq_none_iff hsteep]
    simp
  have hsteepCell : (s.cells p.layers)[2]? ≠ some noDataCell := by
    rw [Sample.cells_getElem? (j := 1) (by rw [hlayers]; rfl), hsteep]
    decide +kernel
  refine ⟨p, s, hrun, hs, hlayers, ⟨hsteepJson, hsteepPlot, hsteepCell⟩, ⟨?_, ?_, ?_⟩, ?_⟩
  · have hfinite : (-9999 : Float).isFinite = true := by decide +kernel
    rw [Profile.entry?_json hs hmark, Option.elim_some, ne_eq, Option.some_inj,
      Json.ofFloat_eq_null_iff, hfinite]
    simp
  · rw [ne_eq, s.plotPoint?_eq_none_iff hmark]
    simp
  · rw [Sample.cells_getElem? (j := 0) (by rw [hlayers]; rfl), hmark]
    rfl
  · intro hagree
    have hsteepLayer : p.layers[1]? = some "steep" := by rw [hlayers]; rfl
    exact hsteepPlot ((hagree 0 1 s "steep" hs hsteepLayer).1.1 hsteepJson)

theorem signals_show_noData :
    ∃ p s, signalsAtOrigin.schedule.Fair ∧
      (signalsAtOrigin.run ⟨[]⟩ signals).profile = .ok p ∧ p.samples[0]? = some s ∧
      p.layers[2]? = some "void" ∧ s.values.find? "void" = some none ∧
      ∃ v entry cell, s.values.find? "void" = some v ∧
        Json.entry? p.json "points" 0 "void" = some entry ∧
        Json.entry? p.report "profile" 0 "void" = some entry ∧
        (s.cells p.layers)[3]? = some cell ∧
        (s.plotPoint? "void" = none ↔ v = none) ∧
        (entry = .null ↔ v = none ∨ ∃ x, v = some x ∧ x.isInf = true) ∧
        (cell = noDataCell ↔ v = none ∨ v = some (-9999)) ∧
        (p.AgreeAt 0 2 s "void" ↔ ∀ x, v = some x → x.isInf = false ∧ x ≠ -9999) := by
  have hfair : signalsAtOrigin.schedule.Fair := trivial
  obtain ⟨p, s, hrun, hs, hlayers, -, -, hvoid⟩ := signals_run
  have hlayer : p.layers[2]? = some "void" := by rw [hlayers]; rfl
  exact ⟨p, s, hfair, hrun, hs, hlayer, hvoid, run_shows_noData hfair hrun hs hlayer⟩

end Request

end Transect
