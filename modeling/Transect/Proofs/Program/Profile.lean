import Transect.Program
import Transect.Proofs.Arguments.Reader
import Transect.Proofs.Registry

/-!
# The profile of a command

A command asks for a profile with all that it needs, so only its layers and its rasters can fail.
Whatever order the points are visited in, the profile has the values of each point alone.
-/

namespace Transect

variable {tree : FileTree} {registry : Registry} {selection : Selection} {path : List Point}
  {a : ProfileArguments} {p : Profile} {cause : Error}
  {arrange : List (Point × Nat) → List (Point × Nat)}

/-- The profile of some rasters along a list of points. -/
structure Selection.Profiled (tree : FileTree) (selection : Selection) (path : List Point)
    (p : Profile) : Prop where
  layers : p.layers = selection.layers
  points : p.samples.map (·.point) = path
  distances : p.samples.map (·.distance) = (Polyline.distances path).map .ofFloat
  values : ∀ s ∈ p.samples, (selection.survey.values tree s.point).1 = .ok s.values

theorem samplesOf_points {values : List Values} (h : values.length = path.length) :
    (samplesOf path values).map (·.point) = path := by
  have hlength := Polyline.length_distances path
  have hzip : (path.zip (Polyline.distances path)).length = path.length := by
    rw [List.length_zip, hlength, Nat.min_self]
  calc (samplesOf path values).map (·.point)
      = (((path.zip (Polyline.distances path)).zip values).map (·.1)).map (·.1) := by
        rw [samplesOf, List.map_map, List.map_map]
        rfl
    _ = (path.zip (Polyline.distances path)).map (·.1) := by
        rw [List.map_fst_zip (by omega)]
    _ = path := List.map_fst_zip (by omega)

theorem values_of_mem_samplesOf {g : Point → Values} {s : Sample}
    (hs : s ∈ samplesOf path (path.map g)) : s.point ∈ path ∧ s.values = g s.point := by
  obtain ⟨i, hi⟩ := List.mem_iff_getElem?.1 hs
  have hlength : (samplesOf path (path.map g)).length = path.length :=
    length_samplesOf (List.length_map g)
  have hlt : i < path.length := hlength ▸ (List.getElem?_eq_some_iff.1 hi).1
  have hp := List.getElem?_eq_getElem hlt
  have hlt' : i < (Polyline.distances path).length := by rwa [Polyline.length_distances]
  have hd := List.getElem?_eq_getElem hlt'
  have hv : (path.map g)[i]? = some (g path[i]) := by rw [List.getElem?_map, hp, Option.map_some]
  rw [samplesOf_getElem? hp hd hv] at hi
  cases hi
  exact ⟨List.getElem_mem hlt, rfl⟩

namespace ProfileArguments

theorem fair_schedule (hfair : ∀ numbered, (arrange numbered).Perm numbered)
    (a : ProfileArguments) : (a.schedule arrange).Fair := by
  unfold schedule
  split_ifs
  · exact hfair
  · trivial

theorem check_request (hline : a.line ≠ []) (registry : Registry) :
    (a.request arrange).check registry =
      (registry.select a.layers).map fun selection => (a.line, a.count, selection) := by
  have hempty : a.line.isEmpty = false := List.isEmpty_eq_false_iff.2 hline
  unfold request Request.check
  simp only [hempty]
  cases registry.select a.layers <;> rfl

theorem profile_of_select_error (hline : a.line ≠ [])
    (hselect : registry.select a.layers = .error cause) :
    ((a.request arrange).run tree registry).profile = .error cause := by
  apply Request.profile_of_check_error
  rw [check_request hline, hselect]
  rfl

/-- With its rasters at hand, a profile is found unless one of them fails at one of its points. -/
theorem profile_cases (hfair : ∀ numbered, (arrange numbered).Perm numbered) (hline : a.line ≠ [])
    (hselect : registry.select a.layers = .ok selection) :
    (∃ p, ((a.request arrange).run tree registry).profile = .ok p ∧
      selection.Profiled tree (Polyline.resample a.count a.line) p) ∨
    ∃ q ∈ Polyline.resample a.count a.line, ∃ cause,
      (selection.survey.values tree q).1 = .error cause ∧
        ((a.request arrange).run tree registry).profile = .error cause := by
  have hcheck : (a.request arrange).check registry = .ok (a.line, a.count, selection) := by
    rw [check_request hline, hselect]
    rfl
  have hschedule : (a.request arrange).schedule = a.schedule arrange := rfl
  rw [Request.profile_of_check_ok hcheck, hschedule]
  generalize Polyline.resample a.count a.line = path
  rcases Schedule.run_cases (fair_schedule hfair a) tree path selection.survey with
    ⟨g, hg, hrun⟩ | ⟨q, hq, cause, hcause, hrun⟩
  · have hlength : (path.map g).length = path.length := List.length_map g
    refine .inl ⟨_, congrArg (Except.map _) hrun, rfl, samplesOf_points hlength,
      samplesOf_distances hlength, fun s hs => ?_⟩
    obtain ⟨hpoint, hvalues⟩ := values_of_mem_samplesOf hs
    rw [hg s.point hpoint, hvalues]
  · exact .inr ⟨q, hq, cause, hcause, congrArg (Except.map _) hrun⟩

end ProfileArguments

end Transect
