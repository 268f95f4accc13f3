import Transect.Proofs.Polyline
import Transect.Proofs.Profile.Basic
import Transect.Proofs.Rounding

/-!
# Distances of a profile

Along a line of finite points the samples start at distance zero and never go back.
-/

namespace Transect

/-! ## Distances of points -/

namespace Polyline

variable {points line : List Point}

theorem length_running (ds : List Float) (s : Float) : (running s ds).length = ds.length := by
  induction ds generalizing s with
  | nil => rfl
  | cons d ds ih => simp [running, ih]

theorem length_distances (points : List Point) : (distances points).length = points.length := by
  rcases eq_or_ne points [] with rfl | hne
  · rfl
  · have hpos := List.length_pos_iff.2 hne
    rw [distances_eq hne, List.length_cons, length_running, lengths, List.length_map, segments,
      List.length_zip, List.length_tail]
    omega

theorem resample_ne_nil (h : line ≠ []) (count : ℕ) : resample count line ≠ [] := by
  unfold resample
  simp only
  split
  · exact h
  · intro hnil
    rw [List.append_eq_nil_iff, List.take_eq_nil_iff] at hnil
    exact hnil.1.elim one_ne_zero h

end Polyline

/-! ## Tenths -/

variable {points line : List Point} {values : List Values} {x y : Float}

theorem Distance.ofFloat_mono (h : NoLonger x y) : (ofFloat x).tenths ≤ (ofFloat y).tenths := by
  obtain ⟨k, l, hx, hy, hkl⟩ := h
  exact quantize_mono (by norm_num) hx hy hkl

theorem Distance.ofFloat_zero : (ofFloat 0).tenths = 0 := by
  have hshortest : shortest? .up 0 = some ⟨0, 0⟩ := rfl
  have h := quantize_eq (by norm_num : 1 ≤ 22) Polyline.size?_zero
  rw [magnitude_eq (by norm_num) (rat?_of_size? Polyline.size?_zero).1 hshortest] at h
  rw [ofFloat, h]
  norm_num [Decimal.value, halfUp]

theorem samplesOf_distances (h : values.length = points.length) :
    (samplesOf points values).map (·.distance) = (Polyline.distances points).map .ofFloat := by
  have hlen := Polyline.length_distances points
  have hzip : (points.zip (Polyline.distances points)).length = points.length := by
    rw [List.length_zip, hlen, Nat.min_self]
  calc (samplesOf points values).map (·.distance)
      = (((points.zip (Polyline.distances points)).zip values).map (·.1)).map
          fun pd => Distance.ofFloat pd.2 := by
        rw [samplesOf, List.map_map, List.map_map]
        rfl
    _ = ((points.zip (Polyline.distances points)).map (·.2)).map .ofFloat := by
        rw [List.map_fst_zip (by omega), List.map_map]
        rfl
    _ = (Polyline.distances points).map .ofFloat := by
        rw [List.map_snd_zip (by omega)]

theorem samplesOf_ordered (hlen : values.length = points.length) (hne : points ≠ [])
    (hfinite : ∀ p ∈ points, p.Finite) :
    (samplesOf points values).head?.map (·.distance.tenths) = some 0 ∧
      (samplesOf points values).Pairwise fun a b => a.distance.tenths ≤ b.distance.tenths := by
  have hdistances := samplesOf_distances hlen
  constructor
  · have hhead := congrArg List.head? hdistances
    rw [Polyline.distances_eq hne, List.head?_map, List.map_cons, List.head?_cons] at hhead
    obtain ⟨first, hfirst, hzero⟩ := Option.map_eq_some_iff.1 hhead
    rw [hfirst, Option.map_some, hzero, Distance.ofFloat_zero]
  · have hpairs := (Polyline.distances_pairwise hfinite).map Distance.ofFloat
      (S := fun d e => d.tenths ≤ e.tenths) fun _ _ => Distance.ofFloat_mono
    rw [← hdistances, List.pairwise_map] at hpairs
    exact hpairs

/-! ## Distances of a profile -/

namespace Request

variable {tree : FileTree} {registry : Registry} {request : Request} {profile : Profile}

theorem check_eq_ok {count : Nat} {selection : Selection}
    (h : request.check registry = .ok (line, count, selection)) :
    request.line = some line ∧ line ≠ [] := by
  obtain ⟨line', count', layers, schedule⟩ := request
  cases line' with
  | none => cases h
  | some line' =>
    cases count' with
    | none => cases h
    | some count' =>
      simp only [check] at h
      cases line' with
      | nil => cases h
      | cons p rest =>
        cases hsel : registry.select layers with
        | error cause =>
          rw [hsel] at h
          cases h
        | ok chosen =>
          rw [hsel] at h
          cases h
          exact ⟨rfl, List.cons_ne_nil p rest⟩

/-- **Distances start at zero and never go down** along a line of finite points. -/
theorem distances_ordered (hfair : request.schedule.Fair) (hline : request.line = some line)
    (hfinite : ∀ p ∈ line, p.Finite) (hrun : (request.run tree registry).profile = .ok profile) :
    profile.samples.head?.map (·.distance.tenths) = some 0 ∧
      profile.samples.Pairwise fun a b => a.distance.tenths ≤ b.distance.tenths := by
  cases hc : request.check registry with
  | error cause =>
    rw [profile_of_check_error hc] at hrun
    cases hrun
  | ok checked =>
    obtain ⟨line', count, selection⟩ := checked
    obtain ⟨hline', hne⟩ := check_eq_ok hc
    rw [hline] at hline'
    cases hline'
    rw [profile_of_check_ok hc] at hrun
    cases hfound : (request.schedule.run tree (Polyline.resample count line)
        selection.survey).1 with
    | error cause =>
      rw [hfound] at hrun
      cases hrun
    | ok found =>
      rw [hfound] at hrun
      cases hrun
      exact samplesOf_ordered (Schedule.length_of_run hfair hfound)
        (Polyline.resample_ne_nil hne count) (Polyline.resample_finite hfinite count)

/-- A raster that gives the first coordinate. -/
def eastings : Registry := .ofList [("x", ⟨.field fun p => .ok (some p.x), none, none⟩)]

/-- A line whose length overflows on the way. -/
def overflowing : Request := ⟨some [⟨0, 0⟩, ⟨3, 4⟩, ⟨1e300, 0⟩, ⟨0, 0⟩], some 2, none, .sequential⟩

theorem overflowing_distances_ordered :
    ∃ profile, (overflowing.run ⟨[]⟩ eastings).profile = .ok profile ∧
      profile.samples.map (·.distance.tenths) = [0, 50, (maxCount : ℤ), (maxCount : ℤ)] ∧
      profile.samples.head?.map (·.distance.tenths) = some 0 ∧
      profile.samples.Pairwise fun a b => a.distance.tenths ≤ b.distance.tenths := by
  have htenths : (overflowing.run ⟨[]⟩ eastings).profile.toOption.map
      (fun profile => profile.samples.map (·.distance.tenths)) =
        some [0, 50, (maxCount : ℤ), (maxCount : ℤ)] := by
    decide +kernel
  have hfinite : ∀ p ∈ [⟨0, 0⟩, ⟨3, 4⟩, ⟨1e300, 0⟩, (⟨0, 0⟩ : Point)], p.Finite := by decide +kernel
  have hfair : overflowing.schedule.Fair := trivial
  cases hrun : (overflowing.run ⟨[]⟩ eastings).profile with
  | error cause =>
    rw [hrun] at htenths
    cases htenths
  | ok profile =>
    rw [hrun] at htenths
    exact ⟨profile, rfl, Option.some.inj htenths, distances_ordered hfair rfl hfinite hrun⟩

end Request

end Transect
