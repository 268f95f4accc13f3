import Transect.Profile.Basic
import Transect.Proofs.Survey

/-!
# The profile of a request

The points may be visited in any order. The profile is the same, and if there is none, the failure
is one that the rasters have at some point.
-/

namespace Transect

/-! ## Visiting the points -/

namespace Schedule

/-- A fair schedule leaves no point out and visits none twice. -/
def Fair : Schedule → Prop
  | .sequential => True
  | .parallel arrange => ∀ numbered, (arrange numbered).Perm numbered

variable {schedule other : Schedule} {tree : FileTree} {points : List Point} {s : Survey}

/-- A fair schedule finds the values at all points, or a failure at one of them. -/
theorem run_cases (h : schedule.Fair) (tree : FileTree) (points : List Point) (s : Survey) :
    (∃ g : Point → Values, (∀ p ∈ points, (s.values tree p).1 = .ok (g p)) ∧
      (schedule.run tree points s).1 = .ok (points.map g)) ∨
    ∃ p ∈ points, ∃ cause, (s.values tree p).1 = .error cause ∧
      (schedule.run tree points s).1 = .error cause := by
  rcases Survey.forall_ok_or_exists_error (fun p => (s.values tree p).1) points with
    ⟨g, hg⟩ | hfail
  · refine .inl ⟨g, hg, ?_⟩
    cases schedule with
    | sequential => exact (s.inSequence_fst tree points).trans (mapM_eq_ok hg)
    | parallel arrange => exact Survey.inAnyOrder_eq_ok (h _) hg
  · right
    cases schedule with
    | sequential =>
      simp only [run, Survey.inSequence_fst]
      exact mapM_eq_error hfail
    | parallel arrange => exact Survey.inAnyOrder_eq_error (h _) hfail

theorem length_of_run {found : List Values} (h : schedule.Fair)
    (hrun : (schedule.run tree points s).1 = .ok found) : found.length = points.length := by
  rcases run_cases h tree points s with ⟨g, -, hok⟩ | ⟨-, -, cause, -, herror⟩
  · rw [hok] at hrun
    cases hrun
    exact List.length_map g
  · rw [herror] at hrun
    cases hrun

/-- **Schedules agree.** What one fair schedule finds, any other finds too. -/
theorem run_eq_ok {found : List Values} (h : schedule.Fair) (h' : other.Fair)
    (hrun : (schedule.run tree points s).1 = .ok found) :
    (other.run tree points s).1 = .ok found := by
  rcases run_cases h tree points s with ⟨g, hg, hok⟩ | ⟨-, -, cause, -, herror⟩
  · rw [hok] at hrun
    cases hrun
    rcases run_cases h' tree points s with ⟨g', hg', hok'⟩ | ⟨p, hp, cause, hfail, -⟩
    · rw [hok']
      congr 1
      refine List.map_congr_left fun p hp => ?_
      have := (hg' p hp).symm.trans (hg p hp)
      exact Except.ok.inj this
    · rw [hg p hp] at hfail
      cases hfail
  · rw [herror] at hrun
    cases hrun

theorem run_eq_error {cause : Error} (h : schedule.Fair) (h' : other.Fair)
    (hrun : (schedule.run tree points s).1 = .error cause) :
    ∃ p ∈ points, ∃ cause', (s.values tree p).1 = .error cause' ∧
      (other.run tree points s).1 = .error cause' := by
  rcases run_cases h' tree points s with ⟨g, -, hok⟩ | hfail
  · rw [run_eq_ok h' h hok] at hrun
    cases hrun
  · exact hfail

/-- What is found does not depend on values anywhere else than at the points. -/
theorem run_congr {t : Survey} (h : schedule.Fair)
    (hvalues : ∀ p ∈ points, (s.values tree p).1 = (t.values tree p).1) :
    (schedule.run tree points s).1 = (schedule.run tree points t).1 := by
  cases schedule with
  | sequential =>
    simp only [run, Survey.inSequence_fst]
    exact mapM_congr hvalues
  | parallel arrange =>
    have hmem := Survey.mem_arranged (h points.zipIdx)
    simp only [run, Survey.inAnyOrder_fst]
    rw [mapM_congr fun p hp => hvalues p ((hmem p).1 hp)]

end Schedule

/-! ## Answering a request -/

namespace Request

variable {tree : FileTree} {registry : Registry} {request : Request}

/-- The same request, with its points visited as `schedule` says. -/
def visiting (request : Request) (schedule : Schedule) : Request := { request with schedule }

theorem check_visiting (registry : Registry) (request : Request) (schedule : Schedule) :
    (request.visiting schedule).check registry = request.check registry := rfl

theorem profile_of_check_error {cause : Error} (h : request.check registry = .error cause) :
    (request.run tree registry).profile = .error cause := by
  rw [run, h]

theorem profile_of_check_ok {line : List Point} {count : Nat} {selection : Selection}
    (h : request.check registry = .ok (line, count, selection)) :
    (request.run tree registry).profile =
      (request.schedule.run tree (Polyline.resample count line) selection.survey).1.map fun v =>
        ⟨selection.layers, samplesOf (Polyline.resample count line) v⟩ := by
  rw [run, h]

/-- **Any order gives the same profile.** Without a profile there is a failure either way: the same
one if the request is refused, or else one that the selected rasters have at a resampled point. -/
theorem anyOrder_agrees {arrange : List (Point × Nat) → List (Point × Nat)}
    (h : ∀ numbered, (arrange numbered).Perm numbered) (tree : FileTree) (registry : Registry)
    (request : Request) :
    (∀ profile, ((request.visiting .sequential).run tree registry).profile = .ok profile →
      ((request.visiting (.parallel arrange)).run tree registry).profile = .ok profile) ∧
    ∀ cause, ((request.visiting .sequential).run tree registry).profile = .error cause →
      ∃ other, ((request.visiting (.parallel arrange)).run tree registry).profile = .error other ∧
        (request.check registry = .error cause ∧ other = cause ∨
          ∃ line count selection, request.check registry = .ok (line, count, selection) ∧
            ∃ p ∈ Polyline.resample count line,
              (selection.survey.values tree p).1 = .error other) := by
  have hseq := check_visiting registry request .sequential
  have hpar := check_visiting registry request (.parallel arrange)
  cases hc : request.check registry with
  | error cause =>
    rw [hc] at hseq hpar
    rw [profile_of_check_error hseq, profile_of_check_error hpar]
    refine ⟨fun profile hp => (by cases hp), fun cause' hcause => ?_⟩
    cases hcause
    exact ⟨cause, rfl, .inl ⟨rfl, rfl⟩⟩
  | ok checked =>
    obtain ⟨line, count, selection⟩ := checked
    rw [hc] at hseq hpar
    rw [profile_of_check_ok hseq, profile_of_check_ok hpar]
    simp only [visiting]
    have hfair : (Schedule.sequential).Fair := trivial
    have hfair' : (Schedule.parallel arrange).Fair := h
    constructor
    · intro profile hp
      cases hrun : (Schedule.sequential.run tree (Polyline.resample count line)
          selection.survey).1 with
      | error cause =>
        rw [hrun] at hp
        cases hp
      | ok found => rwa [Schedule.run_eq_ok hfair hfair' hrun, ← hrun]
    · intro cause hp
      cases hrun : (Schedule.sequential.run tree (Polyline.resample count line)
          selection.survey).1 with
      | ok found =>
        rw [hrun] at hp
        cases hp
      | error cause' =>
        obtain ⟨p, hmem, other, hfail, hother⟩ := Schedule.run_eq_error hfair hfair' hrun
        refine ⟨other, ?_, .inr ⟨line, count, selection, rfl, p, hmem, hfail⟩⟩
        rw [hother]
        rfl

/-- A raster of tiles that has none. -/
def emptyTiles : Registry := .ofList [("dem", ⟨.tiles ⟨"d", .mapped, []⟩, none, none⟩)]

/-- A line that goes further north than tiles have names. -/
def farNorth : Request := ⟨some [⟨0, 98⟩, ⟨0, 101⟩], some 3, none, .sequential⟩

/-- The file that there is no profile for, because its name stands for no square. -/
def misnamed? (outcome : Outcome) : Option (List Char) :=
  match outcome.profile with
  | .error (.tile (.name path)) => some path.toList
  | _ => none

theorem profile_of_misnamed {outcome : Outcome} {path : String}
    (h : misnamed? outcome = some path.toList) :
    outcome.profile = .error (.tile (.name path)) := by
  unfold misnamed? at h
  split at h
  · rename_i found hprofile
    rw [hprofile, String.toList_inj.1 (Option.some.inj h)]
  · cases h

/-- Two of the points fail. From start to end the first of them is met, and on the way back the
last. -/
theorem farNorth_reversed_agrees :
    (∀ numbered : List (Point × Nat), numbered.reverse.Perm numbered) ∧
    ((farNorth.visiting .sequential).run ⟨[]⟩ emptyTiles).profile =
      .error (.tile (.name "d/n100e000.hgt")) ∧
    ((farNorth.visiting (.parallel .reverse)).run ⟨[]⟩ emptyTiles).profile =
      .error (.tile (.name "d/n101e000.hgt")) ∧
    ∃ line count selection, farNorth.check emptyTiles = .ok (line, count, selection) ∧
      ∃ p ∈ Polyline.resample count line,
        (selection.survey.values ⟨[]⟩ p).1 = .error (.tile (.name "d/n101e000.hgt")) := by
  have hfirst : ((farNorth.visiting .sequential).run ⟨[]⟩ emptyTiles).profile =
      .error (.tile (.name "d/n100e000.hgt")) :=
    profile_of_misnamed (by decide +kernel)
  have hlast : ((farNorth.visiting (.parallel .reverse)).run ⟨[]⟩ emptyTiles).profile =
      .error (.tile (.name "d/n101e000.hgt")) :=
    profile_of_misnamed (by decide +kernel)
  refine ⟨List.reverse_perm, hfirst, hlast, ?_⟩
  obtain ⟨other, hother, hcases⟩ :=
    (anyOrder_agrees List.reverse_perm ⟨[]⟩ emptyTiles farNorth).2 _ hfirst
  obtain rfl := Except.error.inj (hlast.symm.trans hother)
  refine hcases.resolve_left fun hrefused => ?_
  have hchecked : (farNorth.check emptyTiles).isOk = true := by decide +kernel
  rw [hrefused.1] at hchecked
  cases hchecked

end Request

end Transect
