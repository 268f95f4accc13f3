import Transect.Proofs.Arguments.Words
import Transect.Proofs.Decimal.Json
import Transect.Proofs.Point
import Transect.Proofs.Polyline
import Transect.Proofs.Program.Outcome

/-!
# A place on a profile

Every point of a profile can be asked for again, by the coordinates that the profile's output shows.
They mean the same point, and a raster has one value there, whatever has been visited before.
-/

namespace Transect

variable {tree : FileTree} {words : List String} {config : String} {a : ProfileArguments}
  {selection : Selection} {text : String} {q : Point} {layers : Option (List String)}
  {values : Values} {arrange : List (Point × Nat) → List (Point × Nat)}
  {display : Chart → Printing Unit}

/-! ## Coordinates -/

/-- The texts of the coordinates in JSON, as a location. -/
def Point.jsonText (p : Point) : String :=
  .ofList ((jsonFloat p.x).toList ++ ',' :: (jsonFloat p.y).toList)

theorem Point.read_jsonText (h : q.Finite) : Point.read q.jsonText = .ok q :=
  Point.read_of_numeric (numeric_jsonFloat h.1) (numeric_jsonFloat h.2) (readFloat_jsonFloat h.1)
    (readFloat_jsonFloat h.2)

/-! ## Outputs -/

theorem exists_select_of_code {arguments : Arguments}
    (hread : Arguments.read words = .ok arguments)
    (hcode : (runInOrder arrange display tree words).code = 0) :
    ∃ selection, arguments.select tree = .ok selection := by
  cases hselect : arguments.select tree with
  | ok selection => exact ⟨selection, rfl⟩
  | error cause =>
    have hrefuses : Refuses (arguments.run arrange display tree) cause :=
      Arguments.refuses_of_select_error (Arguments.sound_read hread).2 hselect
    rw [runInOrder_of_refuses hread hrefuses] at hcode
    cases hcode

/-- What is printed as JSON is a profile of the rasters. -/
theorem exists_profile_of_code (hfair : ∀ numbered, (arrange numbered).Perm numbered)
    (hread : Arguments.read words = .ok ⟨config, .profile .json a⟩) (hline : a.line ≠ [])
    (hselect : (⟨config, .profile .json a⟩ : Arguments).select tree = .ok selection)
    (hcode : (runInOrder arrange display tree words).code = 0) :
    ∃ p : Profile, (runInOrder arrange display tree words).output = p.report ++ "\n" ∧
      selection.Profiled tree (Polyline.resample a.count a.line) p := by
  obtain ⟨registry, hregistry, hrun⟩ := Arguments.run_of_select arrange display hselect
  rcases ProfileArguments.profile_cases hfair hline hregistry with
    ⟨p, hp, hprofile⟩ | ⟨_, _, cause, _, herror⟩
  · have hprints : Prints (Arguments.run arrange display tree ⟨config, .profile .json a⟩)
        (p.report ++ "\n") :=
      hrun ▸ Prints.compute hp (prints_print _)
    exact ⟨p, by rw [runInOrder_of_prints hread hprints], hprofile⟩
  · have hrefuses : Refuses (Arguments.run arrange display tree ⟨config, .profile .json a⟩)
        cause :=
      hrun ▸ refuses_of_error herror
    rw [runInOrder_of_refuses hread hrefuses] at hcode
    cases hcode

theorem Arguments.prints_raster
    (hselect : (⟨config, .raster q layers⟩ : Arguments).select tree = .ok selection)
    (hvalues : (selection.survey.values tree q).1 = .ok values) :
    Prints (Arguments.run arrange display tree ⟨config, .raster q layers⟩)
      (.ofList (values.json ++ ['\n'])) := by
  obtain ⟨registry, hregistry, hrun⟩ := run_of_select arrange display hselect
  rw [hrun]
  exact Command.prints_raster hregistry hvalues

/-- **A profile agrees with its rasters.** If a profile is written as JSON, then for each of its
points the rasters are written for the coordinates in this text, and their text is the point's
object of values. -/
theorem rasters_agree_profile (hfair : ∀ numbered, (arrange numbered).Perm numbered)
    (other : List (Point × Nat) → List (Point × Nat)) (otherDisplay : Chart → Printing Unit)
    (hread : Arguments.read words = .ok ⟨config, .profile .json a⟩)
    (hcode : (runInOrder arrange display tree words).code = 0) :
    ∃ p : Profile, (runInOrder arrange display tree words).output = p.report ++ "\n" ∧
      p.samples.map (·.point) = Polyline.resample a.count a.line ∧
      ∀ s ∈ p.samples,
        runInOrder other otherDisplay tree (rasterWords config s.point.jsonText a.layers) =
          ⟨0, .ofList (s.values.json ++ ['\n']), ""⟩ := by
  obtain ⟨hconfig, ⟨hne, hfinite⟩, -, hlayers⟩ := Arguments.sound_read hread
  obtain ⟨selection, hselect⟩ := exists_select_of_code hread hcode
  obtain ⟨p, htext, hprofile⟩ := exists_profile_of_code hfair hread hne hselect hcode
  refine ⟨p, htext, hprofile.points, fun s hs => ?_⟩
  have hpoint : s.point ∈ Polyline.resample a.count a.line :=
    hprofile.points ▸ List.mem_map_of_mem hs
  have hlocation := Point.read_jsonText (Polyline.resample_finite hfinite a.count _ hpoint)
  -- The rasters are those of the profile.
  exact runInOrder_of_prints (read_rasterWords hconfig hlocation hlayers)
    (Arguments.prints_raster hselect (hprofile.values s hs))

/-- A way over the equator along a meridian that is written as a negative zero. -/
def tinyWords : List String :=
  ["--config=c.json", "json", "--nb-points=2", "--layers=dem",
    "--geom=\x7b\"type\":\"LineString\",\"coordinates\":[[-0.0,-1e-7],[-0.0,2]]\x7d"]

def tinyArguments : ProfileArguments := ⟨[⟨-0.0, -1e-7⟩, ⟨-0.0, 2⟩], 2, some ["dem"], false⟩

theorem tiny_rasters_agree_profile :
    (∀ numbered : List (Point × Nat), numbered.reverse.Perm numbered) ∧
      Arguments.read tinyWords = .ok ⟨"c.json", .profile .json tinyArguments⟩ ∧
      (runInOrder .reverse tinyDisplay strayTree tinyWords).code = 0 ∧
      ∃ p : Profile,
        (runInOrder .reverse tinyDisplay strayTree tinyWords).output = p.report ++ "\n" ∧
        p.samples.map (·.point) = [⟨-0.0, -1e-7⟩, ⟨0.0, 0.99999995⟩, ⟨-0.0, 2.0⟩] ∧
        ∃ s ∈ p.samples, run strayTree
            ["--config=c.json", "raster", "--at=-0.0,-1e-7", "--layers=dem"] =
          ⟨0, .ofList (s.values.json ++ ['\n']), ""⟩ := by
  have hfair : ∀ numbered : List (Point × Nat), numbered.reverse.Perm numbered :=
    List.reverse_perm
  have hread : Arguments.read tinyWords = .ok ⟨"c.json", .profile .json tinyArguments⟩ :=
    toOption_eq_some.1 (by decide +kernel)
  have hcode : (runInOrder .reverse tinyDisplay strayTree tinyWords).code = 0 := by
    decide +kernel
  have hpath : Polyline.resample tinyArguments.count tinyArguments.line =
      [⟨-0.0, -1e-7⟩, ⟨0.0, 0.99999995⟩, ⟨-0.0, 2.0⟩] := by
    decide +kernel
  have htext : (⟨-0.0, -1e-7⟩ : Point).jsonText = "-0.0,-1e-7" :=
    String.toList_inj.1 (by decide +kernel)
  obtain ⟨p, hp, hpoints, hrasters⟩ := rasters_agree_profile hfair id noDisplay hread hcode
  rw [hpath] at hpoints
  refine ⟨hfair, hread, hcode, p, hp, hpoints, ?_⟩
  have hfirst : (⟨-0.0, -1e-7⟩ : Point) ∈ p.samples.map (·.point) := hpoints ▸ List.mem_cons_self
  obtain ⟨s, hs, hpoint⟩ := List.mem_map.1 hfirst
  have hraster := hrasters s hs
  rw [hpoint, htext] at hraster
  exact ⟨s, hs, hraster⟩

end Transect
