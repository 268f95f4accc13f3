import Transect.Config.Basic
import Transect.Proofs.Except
import Transect.Proofs.Profile.Shape

/-!
# The first thing that fails

Rasters are opened, chosen and evaluated one after the other. Each of these three ends at the first
raster that it fails for, and gives the error of this raster.
-/

namespace Transect

variable {tree : FileTree} {registry : Registry} {p : Point} {cause : Error}

/-! ## Opening -/

namespace Config

variable {config : Config}

theorem openAll_eq_ok (h : config.openAll tree = .ok registry) :
    registry.names = config.names ∧
      ∀ entry ∈ config.entries, ∃ raster, entry.2.openRaster tree = .ok raster := by
  obtain ⟨opened, hopened, rfl⟩ := map_eq_ok.1 h
  have hnames : config.entries.map (·.1) = opened.map (·.1) := by
    rw [← List.forall₂_eq_eq_eq, List.forall₂_map_left_iff, List.forall₂_map_right_iff]
    refine (mapM_eq_ok_iff.1 hopened).imp fun entry entry' hentry => ?_
    obtain ⟨raster, -, rfl⟩ := map_eq_ok.1 hentry
    rfl
  constructor
  · rw [NameMap.names, NameMap.names, NameMap.entries_ofList (hnames ▸ config.sorted), hnames]
  · intro entry hentry
    obtain ⟨_, hopen⟩ := exists_of_mapM_eq_ok hopened hentry
    obtain ⟨raster, hraster, -⟩ := map_eq_ok.1 hopen
    exact ⟨raster, hraster⟩

/-- The error of the first raster in the order of the names that does not open. -/
theorem openAll_eq_error (h : config.openAll tree = .error cause) :
    ∃ entry ∈ config.entries, entry.2.openRaster tree = .error cause ∧
      ∀ other ∈ config.entries, utf8Bytes other.1 < utf8Bytes entry.1 →
        ∃ raster, other.2.openRaster tree = .ok raster := by
  obtain ⟨front, entry, back, hentries, hfront, hentry⟩ := mapM_eq_error_iff.1 (map_eq_error.1 h)
  refine ⟨entry, by simp [hentries], map_eq_error.1 hentry, fun other hother hlt => ?_⟩
  have hsorted := config.names_pairwise_bytes
  rw [NameMap.names, hentries, List.map_append, List.map_cons, List.pairwise_append,
    List.pairwise_cons] at hsorted
  rw [hentries, List.mem_append, List.mem_cons] at hother
  rcases hother with hother | rfl | hother
  · obtain ⟨opened, hopened⟩ := hfront other hother
    obtain ⟨raster, hraster, -⟩ := map_eq_ok.1 hopened
    exact ⟨raster, hraster⟩
  · exact absurd hlt (List.lt_irrefl _)
  · -- Later names are larger.
    have hlater := hsorted.2.1.1 other.1 (List.mem_map.2 ⟨other, hother, rfl⟩)
    exact absurd hlt (List.lt_asymm hlater)

end Config

/-! ## Choosing -/

namespace Registry

theorem choose_eq_error {layers : List String} {chosen : List (String × Raster)}
    (h : registry.choose chosen layers = .error cause) :
    ∃ front name back, layers = front ++ name :: back ∧ (∀ other ∈ front, other ∈ registry.names) ∧
      name ∉ registry.names ∧ cause = .rasterNotFound name := by
  induction layers generalizing chosen with
  | nil => cases h
  | cons name rest ih =>
    rw [choose] at h
    split at h
    · rename_i hfind
      cases h
      refine ⟨[], name, rest, rfl, by simp, ?_, rfl⟩
      rw [NameMap.mem_names_iff, hfind]
      simp
    · rename_i raster hfind
      obtain ⟨front, other, back, rfl, hfront, hother, rfl⟩ := ih h
      refine ⟨name :: front, other, back, rfl, List.forall_mem_cons.2 ⟨?_, hfront⟩, hother, rfl⟩
      rw [NameMap.mem_names_iff, hfind]
      rfl

/-- The first layer in the order of the request that has no raster. -/
theorem select_eq_error {layers : Option (List String)}
    (h : registry.select layers = .error cause) :
    ∃ front name back, layers = some (front ++ name :: back) ∧
      (∀ other ∈ front, other ∈ registry.names) ∧ name ∉ registry.names ∧
      cause = .rasterNotFound name := by
  cases layers with
  | none => cases h
  | some layers =>
    obtain ⟨front, name, back, rfl, hfront, hname, hcause⟩ := choose_eq_error (map_eq_error.1 h)
    exact ⟨front, name, back, rfl, hfront, hname, hcause⟩

theorem mem_names_of_select {layers : List String} {selection : Selection}
    (h : registry.select (some layers) = .ok selection) :
    ∀ name ∈ layers, name ∈ registry.names := by
  obtain ⟨hlayers, hchooses⟩ := select_spec h
  intro name hname
  rw [hlayers] at hchooses
  obtain ⟨entry, hentry, rfl⟩ := List.mem_map.1 ((hchooses.names name).2 hname)
  rw [NameMap.mem_names_iff, hchooses.find? entry hentry]
  rfl

end Registry

/-! ## Evaluating -/

namespace Survey

/-- The values of the rasters, each at the point alone. -/
theorem evaluate_fst (tree : FileTree) (p : Point) (visited : List String)
    (rasters : List (String × Raster)) :
    (evaluate tree p visited rasters).1 =
      rasters.mapM fun entry => (entry.2.value tree p).1.map (entry.1, ·) := by
  induction rasters generalizing visited with
  | nil => rfl
  | cons entry rest ih =>
    obtain ⟨name, raster⟩ := entry
    rw [evaluate, List.mapM_cons, ← ih (name :: visited)]
    cases hv : raster.value tree p with
    | mk answer after =>
      cases answer with
      | error cause => rfl
      | ok value =>
        simp only
        cases (evaluate tree p (name :: visited) rest).1 <;> rfl

variable {s : Survey} {values : Values}

theorem values_eq_error (h : (s.values tree p).1 = .error cause) :
    ∃ entry ∈ s.rasters, (entry.2.value tree p).1 = .error cause := by
  have hfound := map_eq_error.1 (show (evaluate tree p s.visited s.rasters).1.map NameMap.ofList =
    .error cause from h)
  rw [evaluate_fst, mapM_eq_error_iff] at hfound
  obtain ⟨front, entry, back, hrasters, -, hentry⟩ := hfound
  exact ⟨entry, by simp [hrasters], map_eq_error.1 hentry⟩

theorem values_eq_ok (h : (s.values tree p).1 = .ok values) :
    ∀ entry ∈ s.rasters, ∃ v, (entry.2.value tree p).1 = .ok v := by
  obtain ⟨found, hfound, -⟩ := map_eq_ok.1
    (show (evaluate tree p s.visited s.rasters).1.map NameMap.ofList = .ok values from h)
  rw [evaluate_fst] at hfound
  intro entry hentry
  obtain ⟨_, hvalue⟩ := exists_of_mapM_eq_ok hfound hentry
  obtain ⟨v, hv, -⟩ := map_eq_ok.1 hvalue
  exact ⟨v, hv⟩

end Survey

end Transect
