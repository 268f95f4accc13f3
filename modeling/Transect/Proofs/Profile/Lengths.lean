import Transect.Proofs.Profile.Shape

/-!
# Distances are lengths

The running totals along a line add the same lengths in the same order as the length of the line up
to a point does. So each distance is such a length, the same float, whatever the coordinates are,
and a profile ends at the length of the line that was sampled.
-/

namespace Transect

/-! ## Lines up to a point -/

namespace Polyline

variable {line : List Point} {ds : List Float} {s : Float} {i : ℕ}

/-- The total behind `i` lengths is their sum from the left, with the same start. -/
theorem getElem?_running (h : i ≤ ds.length) :
    (s :: running s ds)[i]? = some ((ds.take i).foldl (· + ·) s) := by
  induction ds generalizing s i with
  | nil =>
    obtain rfl : i = 0 := by simpa using h
    rfl
  | cons d ds ih =>
    cases i with
    | zero => rfl
    | succ i =>
      -- The first addition moves from the list into the start.
      rw [running, List.getElem?_cons_succ, List.take_succ_cons, List.foldl_cons]
      exact ih (Nat.le_of_succ_le_succ h)

theorem length_lengths (line : List Point) : (lengths line).length = line.length - 1 := by
  rw [lengths, List.length_map, segments, List.length_zip, List.length_tail]
  omega

theorem lengths_cons_cons (p q : Point) (rest : List Point) :
    lengths (p :: q :: rest) = p.distance q :: lengths (q :: rest) := rfl

/-- The first `i + 1` points have the first `i` segments between them. -/
theorem lengths_take (line : List Point) (i : ℕ) :
    lengths (line.take (i + 1)) = (lengths line).take i := by
  induction i generalizing line with
  | zero =>
    cases line with
    | nil => rfl
    | cons p rest => rfl
  | succ i ih =>
    match line with
    | [] => rfl
    | [p] => rfl
    | p :: q :: rest =>
      have hrest := ih (q :: rest)
      rw [List.take_succ_cons] at hrest
      rw [List.take_succ_cons, List.take_succ_cons, lengths_cons_cons, hrest, lengths_cons_cons,
        List.take_succ_cons]

theorem getElem?_distances (h : i < line.length) :
    (distances line)[i]? = some (length (line.take (i + 1))) := by
  have hne : line ≠ [] := List.ne_nil_of_length_pos (by omega)
  have hi : i ≤ (lengths line).length := by
    rw [length_lengths]
    omega
  rw [distances_eq hne, getElem?_running hi, length_eq, lengths_take]

theorem getLast?_distances (h : line ≠ []) : (distances line).getLast? = some (length line) := by
  have hpos := List.length_pos_iff.2 h
  rw [List.getLast?_eq_getElem?, length_distances, getElem?_distances (by omega),
    Nat.sub_add_cancel hpos, List.take_length]

end Polyline

/-! ## The end of a profile -/

namespace Request

variable {tree : FileTree} {registry : Registry} {request : Request} {profile : Profile}

theorem getLast?_distance (hfair : request.schedule.Fair)
    (hrun : (request.run tree registry).profile = .ok profile) :
    ∃ line count, request.line = some line ∧ request.count = some count ∧
      profile.samples.getLast?.map (·.distance) =
        some (.ofFloat (Polyline.length (Polyline.resample count line))) := by
  obtain ⟨line, count, selection, hcheck, -, hlength, hsamples⟩ := exists_of_run hfair hrun
  obtain ⟨hline, hne⟩ := check_eq_ok hcheck
  refine ⟨line, count, hline, (select_of_check hcheck).1, ?_⟩
  have hpoints := Polyline.resample_ne_nil hne count
  generalize Polyline.resample count line = points at *
  have hpos := List.length_pos_iff.2 hpoints
  have hlast := List.getElem?_eq_getElem (show points.length - 1 < points.length by omega)
  obtain ⟨d, s, hd, hs, hat⟩ := hsamples _ _ hlast
  have htotal : d = Polyline.length points := by
    have hd' := Polyline.getLast?_distances hpoints
    rw [List.getLast?_eq_getElem?, Polyline.length_distances, hd] at hd'
    exact Option.some.inj hd'
  rw [List.getLast?_eq_getElem?, hlength, hs, Option.map_some, hat.distance, htotal]

end Request

namespace Polyline

/-- **Each distance is the length of the line up to its point**, the same float, for coordinates of
any kind. So the last one is the length of the line, and the last distance of a profile is the
length of the resampled line in tenths. -/
theorem distances_areLengths (line : List Point) :
    (distances line).length = line.length ∧
      (∀ i < line.length, (distances line)[i]? = some (length (line.take (i + 1)))) ∧
      (line ≠ [] → (distances line).getLast? = some (length line)) ∧
      ∀ (tree : FileTree) (registry : Registry) (request : Request) (profile : Profile),
        request.schedule.Fair → (request.run tree registry).profile = .ok profile →
        ∃ vertices count, request.line = some vertices ∧ request.count = some count ∧
          profile.samples.getLast?.map (·.distance) =
            some (.ofFloat (length (resample count vertices))) :=
  ⟨length_distances line, fun _ => getElem?_distances, getLast?_distances,
    fun _ _ _ _ => Request.getLast?_distance⟩

/-- Behind the long segment the two short ones are lost. In front of it they count. -/
def absorbing : List Point := [⟨1e16, 0⟩, ⟨0, 0⟩, ⟨1, 0⟩, ⟨2, 0⟩]

def throughAbsorbing : Request := ⟨some absorbing, some 0, none, .sequential⟩

theorem absorbing_distances_areLengths :
    distances absorbing = [0, 1e16, 1e16, 1e16] ∧ length absorbing.reverse = 10000000000000002 ∧
      (distances absorbing).getLast? = some (length absorbing) ∧
      ∃ profile, (throughAbsorbing.run ⟨[]⟩ Request.eastings).profile = .ok profile ∧
        ∃ vertices count, throughAbsorbing.line = some vertices ∧
          throughAbsorbing.count = some count ∧
          profile.samples.getLast?.map (·.distance) =
            some (.ofFloat (length (resample count vertices))) := by
  obtain ⟨-, -, hlast, hprofile⟩ := distances_areLengths absorbing
  have hlength : (throughAbsorbing.run ⟨[]⟩ Request.eastings).profile.toOption.any
      (fun profile => decide (profile.samples.length = 4)) = true := by
    decide +kernel
  obtain ⟨profile, hrun, -⟩ := Request.exists_profile_of_any hlength
  have hfair : throughAbsorbing.schedule.Fair := trivial
  exact ⟨by decide +kernel, by decide +kernel, hlast (by decide), profile, hrun,
    hprofile _ _ _ _ hfair hrun⟩

end Polyline

end Transect
