import Transect.Proofs.NameMap
import Transect.Proofs.Profile.Distances
import Transect.Proofs.Raster

/-!
# What a profile is made of

A profile has a sample for every resampled point. Points, distances and values are computed apart,
and each sample has those of its own point. Its values are those of the rasters that the layers
name, each under its name.
-/

namespace Transect

variable {tree : FileTree} {registry : Registry} {p : Point} {names : List String}
  {rasters chosen : List (String × Raster)}

/-! ## The selected rasters -/

/-- The rasters of the names, each once. -/
structure Chooses (registry : Registry) (names : List String)
    (rasters : List (String × Raster)) : Prop where
  names : ∀ name, name ∈ rasters.map (·.1) ↔ name ∈ names
  once : (rasters.map (·.1)).Nodup
  find? : ∀ entry ∈ rasters, registry.find? entry.1 = some entry.2

theorem chooses_nil (registry : Registry) : Chooses registry [] [] where
  names := by simp
  once := List.nodup_nil
  find? := by simp

theorem chooses_entries (registry : Registry) : Chooses registry registry.names registry.entries where
  names _ := Iff.rfl
  once := registry.sorted.imp Std.ne_of_lt
  find? _ h := NameMap.find?_of_mem h

theorem any_name_iff {name : String} :
    rasters.any (·.1 == name) = true ↔ name ∈ rasters.map (·.1) := by
  rw [List.any_eq_true, List.mem_map]
  simp only [beq_iff_eq]

theorem Chooses.add (h : Chooses registry names rasters) {name : String} {raster : Raster}
    (hfind : registry.find? name = some raster) :
    Chooses registry (names ++ [name])
      (if rasters.any (·.1 == name) then rasters else rasters ++ [(name, raster)]) := by
  split_ifs with hin
  · -- The raster is there already.
    have hname := (h.names name).1 (any_name_iff.1 hin)
    refine ⟨?_, h.once, h.find?⟩
    intro other
    rw [h.names, List.mem_append, List.mem_singleton]
    constructor
    · exact .inl
    · rintro (hother | rfl)
      · exact hother
      · exact hname
  · rw [any_name_iff] at hin
    refine ⟨?_, ?_, ?_⟩
    · intro other
      simp [← h.names]
    · rw [List.map_append, List.map_singleton, List.nodup_append]
      refine ⟨h.once, by simp, ?_⟩
      rintro other hother _ hlast rfl
      rw [List.mem_singleton.1 hlast] at hother
      exact hin hother
    · intro entry hentry
      rcases List.mem_append.1 hentry with hentry | hentry
      · exact h.find? entry hentry
      · rw [List.mem_singleton.1 hentry]
        exact hfind

namespace Registry

theorem choose_spec {layers : List String} (h : Chooses registry names chosen)
    (hchoose : registry.choose chosen layers = .ok rasters) :
    Chooses registry (names ++ layers) rasters := by
  induction layers generalizing names chosen with
  | nil =>
    cases hchoose
    simpa using h
  | cons name rest ih =>
    rw [choose] at hchoose
    split at hchoose
    · cases hchoose
    · rename_i raster hfind
      have hrest := ih (h.add hfind) hchoose
      rwa [List.append_assoc] at hrest

theorem select_spec {layers : Option (List String)} {selection : Selection}
    (h : registry.select layers = .ok selection) :
    selection.layers = layers.getD registry.names ∧
      Chooses registry selection.layers selection.rasters := by
  cases layers with
  | none =>
    cases h
    exact ⟨rfl, chooses_entries registry⟩
  | some layers =>
    rw [select] at h
    cases hchoose : registry.choose [] layers with
    | error cause =>
      rw [hchoose] at h
      cases h
    | ok rasters =>
      rw [hchoose] at h
      cases h
      exact ⟨rfl, choose_spec (chooses_nil registry) hchoose⟩

end Registry

/-! ## The values at a point -/

namespace Survey

/-- Each raster is evaluated at the point, and its value stands under its name. -/
theorem evaluate_ok {found : List (String × Option Float)} {visited : List String}
    (h : (evaluate tree p visited rasters).1 = .ok found) :
    found.map (·.1) = rasters.map (·.1) ∧
      ∀ entry ∈ rasters, ∃ v, (entry.2.value tree p).1 = .ok v ∧ (entry.1, v) ∈ found := by
  induction rasters generalizing found visited with
  | nil =>
    cases h
    simp
  | cons entry rest ih =>
    obtain ⟨name, raster⟩ := entry
    simp only [evaluate] at h
    cases hv : raster.value tree p with
    | mk answer after =>
      rw [hv] at h
      cases answer with
      | error cause => cases h
      | ok value =>
        simp only at h
        cases hrest : (evaluate tree p (name :: visited) rest).1 with
        | error cause =>
          rw [hrest] at h
          cases h
        | ok others =>
          rw [hrest] at h
          cases h
          obtain ⟨hnames, hvalues⟩ := ih hrest
          refine ⟨by rw [List.map_cons, List.map_cons, hnames], ?_⟩
          intro entry hentry
          rcases List.mem_cons.1 hentry with rfl | hentry
          · exact ⟨value, by rw [hv], List.mem_cons_self⟩
          · obtain ⟨v, hvalue, hmem⟩ := hvalues entry hentry
            exact ⟨v, hvalue, List.mem_cons_of_mem _ hmem⟩

end Survey

/-- The value of every raster that the layers name, each under its name. -/
structure ValuesAt (tree : FileTree) (registry : Registry) (layers : List String) (p : Point)
    (values : Values) : Prop where
  names : ∀ name, name ∈ values.names ↔ name ∈ layers
  value : ∀ name ∈ layers, ∃ raster v, registry.find? name = some raster ∧
    (raster.value tree p).1 = .ok v ∧ values.find? name = some v

theorem ValuesAt.isNaN {layers : List String} {values : Values} {layer : String} {v : Float}
    (h : ValuesAt tree registry layers p values) (hlayer : layer ∈ layers)
    (hv : values.find? layer = some (some v)) : v.isNaN = false := by
  obtain ⟨raster, value, -, hvalue, hfind⟩ := h.value layer hlayer
  rw [hv] at hfind
  cases hfind
  exact Raster.isNaN_of_value hvalue

theorem Chooses.valuesAt (h : Chooses registry names rasters) {visited : List String}
    {values : Values} (hvalues : ((⟨rasters, visited⟩ : Survey).values tree p).1 = .ok values) :
    ValuesAt tree registry names p values := by
  unfold Survey.values at hvalues
  simp only at hvalues
  cases hfound : (Survey.evaluate tree p visited rasters).1 with
  | error cause =>
    rw [hfound] at hvalues
    cases hvalues
  | ok found =>
    rw [hfound] at hvalues
    cases hvalues
    obtain ⟨hnames, hfinds⟩ := Survey.evaluate_ok hfound
    constructor
    · intro name
      rw [NameMap.mem_names_ofList, hnames, h.names]
    · intro name hname
      obtain ⟨⟨_, raster⟩, hentry, rfl⟩ := List.mem_map.1 ((h.names name).2 hname)
      obtain ⟨v, hv, hmem⟩ := hfinds _ hentry
      refine ⟨raster, v, h.find? _ hentry, hv, ?_⟩
      exact NameMap.find?_ofList_of_mem (hnames ▸ h.once) hmem

/-! ## The samples -/

theorem length_samplesOf {points : List Point} {values : List Values}
    (h : values.length = points.length) : (samplesOf points values).length = points.length := by
  simp [samplesOf, Polyline.length_distances, h]

/-- Points, distances and values stay side by side. -/
theorem samplesOf_getElem? {points : List Point} {values : List Values} {i : ℕ} {d : Float}
    {v : Values} (hp : (points)[i]? = some p) (hd : (Polyline.distances points)[i]? = some d)
    (hv : (values)[i]? = some v) : (samplesOf points values)[i]? = some ⟨.ofFloat d, v, p⟩ := by
  simp [samplesOf, List.getElem?_map, List.getElem?_zip_eq_some, hp, hd, hv]

/-- The sample of a point that is reached at a distance. -/
structure SampleAt (tree : FileTree) (registry : Registry) (layers : List String) (p : Point)
    (d : Float) (s : Sample) : Prop where
  point : s.point = p
  distance : s.distance = .ofFloat d
  values : ValuesAt tree registry layers p s.values

namespace Request

variable {request : Request} {profile : Profile}

theorem select_of_check {line : List Point} {count : ℕ} {selection : Selection}
    (h : request.check registry = .ok (line, count, selection)) :
    request.count = some count ∧ registry.select request.layers = .ok selection := by
  obtain ⟨line', count', layers, schedule⟩ := request
  cases line' with
  | none => cases h
  | some line' =>
    cases count' with
    | none => cases h
    | some count' =>
      simp only [check] at h
      cases line' with
      | nil => cases h
      | cons first rest =>
        cases hselect : registry.select layers with
        | error cause =>
          rw [hselect] at h
          cases h
        | ok chosen =>
          rw [hselect] at h
          cases h
          exact ⟨rfl, rfl⟩

/-- A profile has a sample for each resampled point, and each sample is that of its point. -/
theorem exists_of_run (hfair : request.schedule.Fair)
    (hrun : (request.run tree registry).profile = .ok profile) :
    ∃ line count selection, request.check registry = .ok (line, count, selection) ∧
      profile.layers = selection.layers ∧
      profile.samples.length = (Polyline.resample count line).length ∧
      ∀ (i : ℕ) p, (Polyline.resample count line)[i]? = some p →
        ∃ d s, (Polyline.distances (Polyline.resample count line))[i]? = some d ∧
          profile.samples[i]? = some s ∧ SampleAt tree registry profile.layers p d s := by
  cases hcheck : request.check registry with
  | error cause =>
    rw [profile_of_check_error hcheck] at hrun
    cases hrun
  | ok checked =>
    obtain ⟨line, count, selection⟩ := checked
    rw [profile_of_check_ok hcheck] at hrun
    generalize hpoints : Polyline.resample count line = points at *
    rcases Schedule.run_cases hfair tree points selection.survey with
      ⟨g, hg, hvalues⟩ | ⟨-, -, cause, -, herror⟩
    · rw [hvalues] at hrun
      cases hrun
      refine ⟨line, count, selection, rfl, rfl, ?_, ?_⟩
      · rw [hpoints, length_samplesOf (List.length_map g)]
      · rw [hpoints]
        intro i p hp
        have hi : i < (Polyline.distances points).length := by
          rw [Polyline.length_distances]
          exact (List.getElem?_eq_some_iff.1 hp).1
        have hd := List.getElem?_eq_getElem hi
        have hv : (points.map g)[i]? = some (g p) := by rw [List.getElem?_map, hp, Option.map_some]
        refine ⟨_, _, hd, samplesOf_getElem? hp hd hv, rfl, rfl, ?_⟩
        have hchooses := (Registry.select_spec (select_of_check hcheck).2).2
        exact hchooses.valuesAt (hg p (List.mem_of_getElem? hp))
    · rw [herror] at hrun
      cases hrun

theorem valuesAt_of_mem (hfair : request.schedule.Fair)
    (hrun : (request.run tree registry).profile = .ok profile) {s : Sample}
    (hs : s ∈ profile.samples) : ValuesAt tree registry profile.layers s.point s.values := by
  obtain ⟨line, count, -, -, -, hlength, hsamples⟩ := exists_of_run hfair hrun
  obtain ⟨i, hi⟩ := List.mem_iff_getElem?.1 hs
  have hlt : i < (Polyline.resample count line).length :=
    hlength ▸ (List.getElem?_eq_some_iff.1 hi).1
  obtain ⟨d, s', -, hs', hat⟩ := hsamples i _ (List.getElem?_eq_getElem hlt)
  rw [hi] at hs'
  cases hs'
  rw [hat.point]
  exact hat.values

/-- **The shape of a profile.** The layers are the names as requested, or all names in the order of
their bytes. There is a sample for every resampled point, with the point itself, the distance to it
and the value of every raster that a layer names. -/
theorem run_shape (hfair : request.schedule.Fair)
    (hrun : (request.run tree registry).profile = .ok profile) :
    ∃ line count, request.line = some line ∧ line ≠ [] ∧ request.count = some count ∧
      profile.layers = request.layers.getD registry.names ∧
      (request.layers = none → profile.layers.Pairwise fun s t => utf8Bytes s < utf8Bytes t) ∧
      profile.samples.length = (Polyline.resample count line).length ∧
      ∀ (i : ℕ) p, (Polyline.resample count line)[i]? = some p →
        ∃ d s, (Polyline.distances (Polyline.resample count line))[i]? = some d ∧
          profile.samples[i]? = some s ∧ SampleAt tree registry profile.layers p d s := by
  obtain ⟨line, count, selection, hcheck, hlayers, hlength, hsamples⟩ := exists_of_run hfair hrun
  obtain ⟨hline, hne⟩ := check_eq_ok hcheck
  obtain ⟨hcount, hselect⟩ := select_of_check hcheck
  have hnames : profile.layers = request.layers.getD registry.names :=
    hlayers.trans (Registry.select_spec hselect).1
  refine ⟨line, count, hline, hne, hcount, hnames, ?_, hlength, hsamples⟩
  intro hnone
  rw [hnames, hnone]
  exact NameMap.names_pairwise_bytes registry

/-- A profile with a property that can be tested. -/
theorem exists_profile_of_any {outcome : Outcome} {P : Profile → Prop} [DecidablePred P]
    (h : outcome.profile.toOption.any (fun p => decide (P p)) = true) :
    ∃ p, outcome.profile = .ok p ∧ P p := by
  cases hp : outcome.profile with
  | error cause =>
    rw [hp] at h
    cases h
  | ok p =>
    rw [hp] at h
    exact ⟨p, rfl, of_decide_eq_true h⟩

/-- Two rasters, each of which has no data at some points. -/
def quadrants : Registry := .ofList [
  ("north", ⟨.field fun p => .ok (if 0 < p.y then some p.y else none), none, none⟩),
  ("east", ⟨.field fun p => .ok (if 0 < p.x then some p.x else none), none, some 0⟩)]

/-- A line with a vertex twice, and a layer that is requested twice. -/
def repeated : Request :=
  ⟨some [⟨0, 0⟩, ⟨4, 0⟩, ⟨4, 0⟩], some 4, some ["north", "east", "north"], .sequential⟩

theorem repeated_run_shape :
    repeated.schedule.Fair ∧ ∃ profile, (repeated.run ⟨[]⟩ quadrants).profile = .ok profile ∧
      profile.layers = ["north", "east", "north"] ∧ profile.samples.length = 6 ∧
      ∃ line count, repeated.line = some line ∧ line ≠ [] ∧ repeated.count = some count ∧
        profile.layers = repeated.layers.getD quadrants.names ∧
        (repeated.layers = none →
          profile.layers.Pairwise fun s t => utf8Bytes s < utf8Bytes t) ∧
        profile.samples.length = (Polyline.resample count line).length ∧
        ∀ (i : ℕ) p, (Polyline.resample count line)[i]? = some p →
          ∃ d s, (Polyline.distances (Polyline.resample count line))[i]? = some d ∧
            profile.samples[i]? = some s ∧ SampleAt ⟨[]⟩ quadrants profile.layers p d s := by
  have hfair : repeated.schedule.Fair := trivial
  have hoverview : (repeated.run ⟨[]⟩ quadrants).profile.toOption.any (fun profile => decide
      (profile.layers = ["north", "east", "north"] ∧ profile.samples.length = 6)) = true := by
    decide +kernel
  obtain ⟨profile, hrun, hlayers, hlength⟩ := exists_profile_of_any hoverview
  exact ⟨hfair, profile, hrun, hlayers, hlength, run_shape hfair hrun⟩

end Request

end Transect
