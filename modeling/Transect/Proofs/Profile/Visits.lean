import Transect.Proofs.Registry

/-!
# Which rasters are evaluated

Points are visited from start to end, and at each point the selected rasters are evaluated in their
order. The first failure ends both. So the evaluations are a number of full rounds, and after a
failure a part of one more.
-/

namespace Transect

variable {tree : FileTree} {registry : Registry} {p : Point} {cause : Error}
  {rasters others : List (String × Raster)} {points rest : List Point}

namespace Survey

/-! ## One round -/

/-- All rasters have an answer at the point. -/
def Answers (tree : FileTree) (p : Point) (rasters : List (String × Raster)) : Prop :=
  ∀ entry ∈ rasters, ∃ v, (entry.2.value tree p).1 = .ok v

/-- The names of the rasters that are evaluated at a point, up to the first that fails. -/
def reached (tree : FileTree) (p : Point) : List (String × Raster) → List String
  | [] => []
  | (name, raster) :: rest =>
    name :: match (raster.value tree p).1 with
      | .ok _ => reached tree p rest
      | .error _ => []

theorem reached_congr (h : AllAlike tree rasters others) (p : Point) :
    reached tree p rasters = reached tree p others := by
  induction h with
  | nil => rfl
  | @cons entry entry' rest rest' hhead htail ih =>
    obtain ⟨name, raster⟩ := entry
    obtain ⟨name', raster'⟩ := entry'
    obtain ⟨rfl, halike⟩ := hhead
    have hp : (raster.value tree p).1 = (raster'.value tree p).1 := halike p
    rw [reached, reached, hp, ih]

theorem reached_append (h : Answers tree p rasters) (others : List (String × Raster)) :
    reached tree p (rasters ++ others) = rasters.map (·.1) ++ reached tree p others := by
  induction rasters with
  | nil => rfl
  | cons entry rest ih =>
    obtain ⟨name, raster⟩ := entry
    obtain ⟨⟨v, hv⟩, hrest⟩ := List.forall_mem_cons.1 h
    rw [List.cons_append, reached, hv, List.map_cons, List.cons_append, ih hrest]

theorem reached_of_answers (h : Answers tree p rasters) :
    reached tree p rasters = rasters.map (·.1) := by
  simpa [reached] using reached_append h []

theorem reached_of_error {entry : String × Raster} (h : Answers tree p rasters)
    (hentry : (entry.2.value tree p).1 = .error cause) (others : List (String × Raster)) :
    reached tree p (rasters ++ entry :: others) = rasters.map (·.1) ++ [entry.1] := by
  rw [reached_append h, reached, hentry]

/-- A round adds the rasters that it reaches to those that have been visited. -/
theorem evaluate_visited (tree : FileTree) (p : Point) (visited : List String)
    (rasters : List (String × Raster)) :
    (evaluate tree p visited rasters).2.visited =
      (reached tree p rasters).reverse ++ visited := by
  induction rasters generalizing visited with
  | nil => rfl
  | cons entry rest ih =>
    obtain ⟨name, raster⟩ := entry
    rw [evaluate, reached]
    cases hv : raster.value tree p with
    | mk answer after =>
      cases answer with
      | error cause => rfl
      | ok value => simp [ih]

theorem Alike.values_visited {s t : Survey} (h : t.Alike tree s) (p : Point) :
    (t.values tree p).2.visited = (reached tree p s.rasters).reverse ++ t.visited := by
  rw [← reached_congr h p]
  exact evaluate_visited tree p t.visited t.rasters

theorem exists_values (s : Survey) (h : Answers tree p s.rasters) :
    ∃ values, (s.values tree p).1 = .ok values := by
  cases hv : (s.values tree p).1 with
  | ok values => exact ⟨values, rfl⟩
  | error cause =>
    obtain ⟨entry, hentry, herror⟩ := values_eq_error hv
    obtain ⟨v, hv⟩ := h entry hentry
    rw [hv] at herror
    cases herror

theorem values_of_error {s : Survey} {before after : List (String × Raster)}
    {entry : String × Raster} (hs : s.rasters = before ++ entry :: after)
    (h : Answers tree p before) (hentry : (entry.2.value tree p).1 = .error cause) :
    (s.values tree p).1 = .error cause := by
  apply map_eq_error.2
  rw [evaluate_fst, hs, mapM_eq_error_iff]
  refine ⟨before, entry, after, rfl, fun other hother => ?_, map_eq_error.2 hentry⟩
  obtain ⟨v, hv⟩ := h other hother
  exact ⟨_, map_eq_ok.2 ⟨v, hv, rfl⟩⟩

/-! ## One round after the other -/

/-- As long as all rasters have answers, each point adds a full round. -/
theorem foldl_extend_of_answers {s t : Survey} (h : t.Alike tree s)
    (hanswers : ∀ p ∈ points, Answers tree p s.rasters) (found : List Values)
    (rest : List Point) :
    ∃ found' t', (points ++ rest).foldl (extend tree) (.ok found, t) =
        rest.foldl (extend tree) (.ok found', t') ∧ t'.Alike tree s ∧
      t'.visited.reverse = t.visited.reverse ++
        (List.replicate points.length (s.rasters.map (·.1))).flatten := by
  induction points generalizing found t with
  | nil => exact ⟨found, t, rfl, h, by simp⟩
  | cons p points ih =>
    obtain ⟨hp, hpoints⟩ := List.forall_mem_cons.1 hanswers
    obtain ⟨values, hvalues⟩ := exists_values s hp
    rw [← h.values_eq p] at hvalues
    have hvisited := h.values_visited p
    rw [reached_of_answers hp] at hvisited
    obtain ⟨found', t', hfold, halike, hlater⟩ :=
      ih ((alike_values_snd tree p t).trans h) hpoints (values :: found)
    refine ⟨found', t', ?_, halike, ?_⟩
    · rw [← hfold, List.cons_append, List.foldl_cons, extend]
      cases ht : t.values tree p with
      | mk answer after =>
        rw [ht] at hvalues
        cases hvalues
        rfl
    · rw [hlater, hvisited, List.length_cons, List.replicate_succ, List.flatten_cons]
      simp

theorem inSequence_of_answers {s : Survey} (hs : s.visited = [])
    (hanswers : ∀ p ∈ points, Answers tree p s.rasters) :
    (∃ found, (s.inSequence tree points).1 = .ok found) ∧
      (s.inSequence tree points).2.visited.reverse =
        (List.replicate points.length (s.rasters.map (·.1))).flatten := by
  obtain ⟨found, t, hfold, -, hvisited⟩ :=
    foldl_extend_of_answers (AllAlike.refl tree s.rasters : s.Alike tree s) hanswers [] []
  rw [List.append_nil, List.foldl_nil] at hfold
  unfold inSequence
  simp only [hfold]
  exact ⟨⟨_, rfl⟩, by simpa [hs] using hvisited⟩

theorem inSequence_of_error {s : Survey} (hs : s.visited = [])
    {before after : List (String × Raster)} {entry : String × Raster}
    (hrasters : s.rasters = before ++ entry :: after)
    (hanswers : ∀ p ∈ points, Answers tree p s.rasters) (hbefore : Answers tree p before)
    (hentry : (entry.2.value tree p).1 = .error cause) (rest : List Point) :
    (s.inSequence tree (points ++ p :: rest)).1 = .error cause ∧
      (s.inSequence tree (points ++ p :: rest)).2.visited.reverse =
        (List.replicate points.length (s.rasters.map (·.1))).flatten ++
          (before.map (·.1) ++ [entry.1]) := by
  obtain ⟨found, t, hfold, halike, hvisited⟩ :=
    foldl_extend_of_answers (AllAlike.refl tree s.rasters : s.Alike tree s) hanswers [] (p :: rest)
  have herror := values_of_error hrasters hbefore hentry
  have hlast := halike.values_visited p
  rw [← halike.values_eq p] at herror
  rw [hrasters, reached_of_error hbefore hentry] at hlast
  unfold inSequence
  simp only [hfold, List.foldl_cons, extend]
  cases ht : t.values tree p with
  | mk answer after =>
    rw [ht] at herror hlast
    simp only at herror hlast
    rw [herror]
    simp only [Except.map, foldl_extend_error]
    exact ⟨trivial, by simp [hlast, hvisited, hs]⟩

end Survey

/-! ## The selected names -/

namespace Registry

/-- The names that are asked for, each where it stands first, or all of them in order. -/
def selectedNames (registry : Registry) (layers : Option (List String)) : List String :=
  layers.elim registry.names List.eraseDups

theorem names_of_choose {layers : List String} {chosen : List (String × Raster)}
    (h : registry.choose chosen layers = .ok rasters) :
    rasters.map (·.1) =
      chosen.map (·.1) ++ (layers.filter (· ∉ chosen.map (·.1))).eraseDups := by
  induction layers generalizing chosen with
  | nil =>
    cases h
    simp
  | cons name rest ih =>
    rw [choose] at h
    split at h
    · cases h
    · rename_i raster hfind
      rw [ih h]
      split_ifs with hin <;> rw [any_name_iff] at hin
      · rw [List.filter_cons_of_neg (by simpa using hin)]
      · -- Later occurrences of the name are left out from here on.
        rw [List.filter_cons_of_pos (by simpa using hin), List.eraseDups_cons, List.filter_filter,
          List.map_append, List.append_assoc, List.map_singleton, List.singleton_append]
        congr 3
        refine List.filter_congr fun other _ => ?_
        rw [Bool.eq_iff_iff]
        simp only [decide_eq_true_eq, Bool.and_eq_true, Bool.not_eq_true', beq_eq_false_iff_ne,
          List.mem_append, List.mem_singleton, not_or]
        exact and_comm

theorem names_of_select {layers : Option (List String)} {selection : Selection}
    (h : registry.select layers = .ok selection) :
    selection.rasters.map (·.1) = registry.selectedNames layers := by
  cases layers with
  | none =>
    cases h
    rfl
  | some layers =>
    obtain ⟨rasters, hchoose, rfl⟩ := map_eq_ok.1 h
    simpa [selectedNames] using names_of_choose hchoose

/-- The selection goes through if every name is registered. -/
theorem exists_select {layers : Option (List String)}
    (h : ∀ name ∈ layers.getD [], name ∈ registry.names) :
    ∃ selection, registry.select layers = .ok selection := by
  cases hselect : registry.select layers with
  | ok selection => exact ⟨selection, rfl⟩
  | error cause =>
    obtain ⟨front, name, back, rfl, -, hname, -⟩ := select_eq_error hselect
    exact absurd (h name (by simp)) hname

/-- The selection fails for the first name that is not registered. -/
theorem select_of_unknown {front back : List String} {name : String}
    (hfront : ∀ other ∈ front, other ∈ registry.names) (hname : name ∉ registry.names) :
    registry.select (some (front ++ name :: back)) = .error (.rasterNotFound name) := by
  cases hselect : registry.select (some (front ++ name :: back)) with
  | ok selection => exact absurd (mem_names_of_select hselect name (by simp)) hname
  | error cause =>
    obtain ⟨front', name', back', heq, hfront', hname', rfl⟩ := select_eq_error hselect
    have hfirst {front back : List String} {name : String}
        (hfront : ∀ other ∈ front, other ∈ registry.names) (hname : name ∉ registry.names) :
        (front ++ name :: back).find? (· ∉ registry.names) = some name := by
      rw [List.find?_eq_some_iff_append]
      exact ⟨by simpa using hname, front, back, rfl, by simpa using hfront⟩
    have hsame : (front ++ name :: back).find? (· ∉ registry.names) = some name :=
      hfirst hfront hname
    rw [Option.some.inj heq, hfirst hfront' hname'] at hsame
    rw [Option.some.inj hsame]

/-- The name is that of a raster that fails at the point. -/
def FailsAt (registry : Registry) (tree : FileTree) (name : String) (p : Point) (cause : Error) :
    Prop :=
  ∃ raster, registry.find? name = some raster ∧ (raster.value tree p).1 = .error cause

end Registry

/-! ## Requests -/

namespace Request

/-- A request with nothing missing and no unknown layer. -/
structure Ready (registry : Registry) (request : Request) (vertices : List Point) (n : ℕ) :
    Prop where
  line : request.line = some vertices
  nonempty : vertices ≠ []
  count : request.count = some n
  layers : ∀ name ∈ request.layers.getD [], name ∈ registry.names

/-- No raster of the names fails at any of the points. -/
def NoFailure (tree : FileTree) (registry : Registry) (names : List String)
    (points : List Point) : Prop :=
  ∀ p ∈ points, ∀ name ∈ names, ∀ cause, ¬ registry.FailsAt tree name p cause

/-- The raster with number `j` of the names fails at the point with number `i`, and none has failed
at an earlier point or earlier at this one. -/
structure FirstFailure (tree : FileTree) (registry : Registry) (names : List String)
    (points : List Point) (i j : ℕ) (cause : Error) : Prop where
  fails : ∃ p name, points[i]? = some p ∧ names[j]? = some name ∧ registry.FailsAt tree name p cause
  earlier : NoFailure tree registry names (points.take i)
  before : ∀ p, points[i]? = some p → NoFailure tree registry (names.take j) [p]

/-- What comes of a request that visits its points from start to end, and which rasters have been
evaluated by then. -/
structure RunsInOrder (tree : FileTree) (registry : Registry) (request : Request)
    (outcome : Outcome) : Prop where
  allNames : request.layers = none →
    (registry.selectedNames request.layers).Pairwise fun s t => utf8Bytes s < utf8Bytes t
  noLine : request.line = none → outcome = ⟨.error (.missing .line), []⟩
  noCount : request.line ≠ none → request.count = none → outcome = ⟨.error (.missing .count), []⟩
  emptyLine : request.line = some [] → request.count ≠ none → outcome = ⟨.error .emptyGeometry, []⟩
  unknown : ∀ vertices front name back, request.line = some vertices → vertices ≠ [] →
    request.count ≠ none → request.layers = some (front ++ name :: back) →
    (∀ other ∈ front, other ∈ registry.names) → name ∉ registry.names →
    outcome = ⟨.error (.rasterNotFound name), []⟩
  complete : ∀ vertices n, request.Ready registry vertices n →
    NoFailure tree registry (registry.selectedNames request.layers)
      (Polyline.resample n vertices) →
    (∃ profile, outcome.profile = .ok profile) ∧
      outcome.visited.reverse = (List.replicate (Polyline.resample n vertices).length
        (registry.selectedNames request.layers)).flatten ∧
      ∀ name, outcome.visited.count name = if name ∈ registry.selectedNames request.layers then
        (Polyline.resample n vertices).length else 0
  failed : ∀ vertices n i j cause, request.Ready registry vertices n →
    FirstFailure tree registry (registry.selectedNames request.layers)
      (Polyline.resample n vertices) i j cause →
    outcome.profile = .error cause ∧
      outcome.visited.reverse =
        (List.replicate i (registry.selectedNames request.layers)).flatten ++
          (registry.selectedNames request.layers).take (j + 1) ∧
      ∀ name, outcome.visited.count name =
        if name ∈ (registry.selectedNames request.layers).take (j + 1) then i + 1
        else if name ∈ registry.selectedNames request.layers then i else 0

variable {request : Request} {vertices : List Point} {n : ℕ}

theorem Ready.check (h : request.Ready registry vertices n) :
    ∃ selection, request.check registry = .ok (vertices, n, selection) ∧
      selection.rasters.map (·.1) = registry.selectedNames request.layers ∧
      Chooses registry selection.layers selection.rasters := by
  obtain ⟨selection, hselect⟩ := Registry.exists_select h.layers
  refine ⟨selection, ?_, Registry.names_of_select hselect, (Registry.select_spec hselect).2⟩
  simp [Request.check, h.line, h.count, h.nonempty, hselect]

theorem run_of_check_error (h : request.check registry = .error cause) :
    request.run tree registry = ⟨.error cause, []⟩ := by
  rw [run, h]

/-- Rasters that do not fail have answers. -/
theorem answers_of_noFailure {names : List String} (hchooses : Chooses registry names rasters)
    {part : List (String × Raster)} (hpart : ∀ entry ∈ part, entry ∈ rasters)
    (h : NoFailure tree registry (part.map (·.1)) points) :
    ∀ p ∈ points, Survey.Answers tree p part := by
  intro p hp entry hentry
  cases hv : (entry.2.value tree p).1 with
  | ok v => exact ⟨v, rfl⟩
  | error cause =>
    exact absurd ⟨entry.2, hchooses.find? entry (hpart entry hentry), hv⟩
      (h p hp entry.1 (List.mem_map_of_mem hentry) cause)

theorem count_rounds {names : List String} (h : names.Nodup) (k : ℕ) (name : String) :
    (List.replicate k names).flatten.count name = if name ∈ names then k else 0 := by
  rw [List.count_flatten, List.map_replicate, List.sum_replicate_nat]
  split_ifs with hin
  · rw [List.count_eq_one_of_mem h hin, mul_one]
  · rw [List.count_eq_zero_of_not_mem hin, mul_zero]

theorem eq_take_append {α : Type} {xs : List α} {i : ℕ} {a : α} (h : (xs)[i]? = some a) :
    xs = xs.take i ++ a :: xs.drop (i + 1) := by
  obtain ⟨hi, rfl⟩ := List.getElem?_eq_some_iff.1 h
  rw [← List.drop_eq_getElem_cons hi, List.take_append_drop]

theorem run_complete (hschedule : request.schedule = .sequential)
    (h : request.Ready registry vertices n)
    (hnone : NoFailure tree registry (registry.selectedNames request.layers)
      (Polyline.resample n vertices)) :
    (∃ profile, (request.run tree registry).profile = .ok profile) ∧
      (request.run tree registry).visited.reverse =
        (List.replicate (Polyline.resample n vertices).length
          (registry.selectedNames request.layers)).flatten := by
  obtain ⟨selection, hcheck, hnames, hchooses⟩ := h.check
  rw [← hnames] at hnone ⊢
  have hanswers := answers_of_noFailure hchooses (fun _ h => h) hnone
  obtain ⟨⟨found, hfound⟩, hvisited⟩ :=
    Survey.inSequence_of_answers (s := selection.survey) rfl hanswers
  rw [run, hcheck, hschedule]
  simp only [Schedule.run, hfound]
  exact ⟨⟨_, rfl⟩, hvisited⟩

theorem run_failed {i j : ℕ} (hschedule : request.schedule = .sequential)
    (h : request.Ready registry vertices n)
    (hfirst : FirstFailure tree registry (registry.selectedNames request.layers)
      (Polyline.resample n vertices) i j cause) :
    (request.run tree registry).profile = .error cause ∧
      (request.run tree registry).visited.reverse =
        (List.replicate i (registry.selectedNames request.layers)).flatten ++
          (registry.selectedNames request.layers).take (j + 1) := by
  obtain ⟨selection, hcheck, hnames, hchooses⟩ := h.check
  obtain ⟨⟨p, name, hp, hname, raster, hfind, herror⟩, hearlier, hbefore⟩ := hfirst
  replace hbefore := hbefore p hp
  rw [← hnames] at hname hearlier hbefore ⊢
  obtain ⟨entry, hentry, rfl⟩ := Option.map_eq_some_iff.1 (List.getElem?_map ▸ hname)
  obtain rfl : raster = entry.2 := by
    have := hchooses.find? entry (List.mem_of_getElem? hentry)
    exact Option.some.inj (hfind.symm.trans this)
  have hrasters := eq_take_append hentry
  have hpoints := eq_take_append hp
  rw [← List.map_take] at hbefore
  have hrounds := answers_of_noFailure hchooses (fun _ h => h) hearlier
  have hpart := answers_of_noFailure hchooses (fun _ h => List.mem_of_mem_take h) hbefore p
    (List.mem_singleton_self p)
  have hrun := Survey.inSequence_of_error (s := selection.survey) rfl hrasters hrounds hpart herror
    ((Polyline.resample n vertices).drop (i + 1))
  rw [← hpoints] at hrun
  obtain ⟨hfails, hvisited⟩ := hrun
  have hi : ((Polyline.resample n vertices).take i).length = i := by
    rw [List.length_take, Nat.min_eq_left (List.getElem?_eq_some_iff.1 hp).1.le]
  have hj : (selection.rasters.map (·.1)).take (j + 1) =
      (selection.rasters.take j).map (·.1) ++ [entry.1] := by
    rw [← List.map_take, List.take_add_one, hentry]
    simp
  rw [run, hcheck, hschedule]
  simp only [Schedule.run, hfails]
  refine ⟨rfl, ?_⟩
  rw [hvisited, hi, hj]
  rfl

/-- **A request that visits its points from start to end evaluates each selected raster once at each
point**, up to the first failure, and none at all if the request is refused. -/
theorem run_inOrder (tree : FileTree) (registry : Registry)
    (hschedule : request.schedule = .sequential) :
    request.RunsInOrder tree registry (request.run tree registry) := by
  have honce {vertices : List Point} {n : ℕ} (h : request.Ready registry vertices n) :
      (registry.selectedNames request.layers).Nodup := by
    obtain ⟨selection, -, hnames, hchooses⟩ := h.check
    exact hnames ▸ hchooses.once
  constructor
  case allNames =>
    intro hnone
    rw [hnone]
    exact NameMap.names_pairwise_bytes registry
  case noLine =>
    intro hline
    apply run_of_check_error
    simp [check, hline]
    rfl
  case noCount =>
    intro hline hcount
    obtain ⟨vertices, hline⟩ := Option.ne_none_iff_exists'.1 hline
    apply run_of_check_error
    simp [check, hline, hcount]
    rfl
  case emptyLine =>
    intro hline hcount
    obtain ⟨n, hcount⟩ := Option.ne_none_iff_exists'.1 hcount
    apply run_of_check_error
    simp [check, hline, hcount]
    rfl
  case unknown =>
    intro vertices front name back hline hne hcount hlayers hfront hname
    obtain ⟨n, hcount⟩ := Option.ne_none_iff_exists'.1 hcount
    apply run_of_check_error
    simp [check, hline, hcount, hne, hlayers, Registry.select_of_unknown hfront hname]
  case complete =>
    intro vertices n hready hnone
    obtain ⟨hprofile, hvisited⟩ := run_complete hschedule hready hnone
    refine ⟨hprofile, hvisited, fun name => ?_⟩
    rw [← List.count_reverse, hvisited, count_rounds (honce hready)]
  case failed =>
    intro vertices n i j cause hready hfirst
    obtain ⟨hprofile, hvisited⟩ := run_failed hschedule hready hfirst
    refine ⟨hprofile, hvisited, fun name => ?_⟩
    have hsub : (registry.selectedNames request.layers).take (j + 1) ⊆
        registry.selectedNames request.layers := List.take_subset _ _
    have hnodup := (honce hready).sublist (List.take_sublist (j + 1) _)
    rw [← List.count_reverse, hvisited, List.count_append, count_rounds (honce hready)]
    split_ifs with hall hpart hpart
    · rw [List.count_eq_one_of_mem hnodup hpart]
    · rw [List.count_eq_zero_of_not_mem hpart, add_zero]
    · exact absurd (hsub hpart) hall
    · rw [List.count_eq_zero_of_not_mem hpart]

theorem noFailure_of_isOk {names : List String}
    (h : ∀ p ∈ points, ∀ name ∈ names,
      (registry.find? name).all fun raster => (raster.value tree p).1.isOk) :
    NoFailure tree registry names points := by
  rintro p hp name hname cause ⟨raster, hfind, herror⟩
  have := h p hp name hname
  rw [hfind, Option.all_some, herror] at this
  cases this

/-- Two rasters, one of which fails from a point on. -/
def shortAndLong : Registry := .ofList [
  ("long", ⟨.field fun p => .ok (some p.x), none, none⟩),
  ("short", ⟨.field fun p => if p.x < 2 then .ok none else .error .emptyGeometry, none, none⟩)]

/-- A request with a layer twice, which fails at the third of its points. -/
def beyondShort : Request :=
  ⟨some [⟨0, 0⟩, ⟨4, 0⟩], some 4, some ["short", "long", "short"], .sequential⟩

theorem beyondShort_run_inOrder :
    beyondShort.schedule = .sequential ∧
      (beyondShort.run ⟨[]⟩ shortAndLong).profile = .error .emptyGeometry ∧
      (beyondShort.run ⟨[]⟩ shortAndLong).visited.count "short" = 3 ∧
      (beyondShort.run ⟨[]⟩ shortAndLong).visited.count "long" = 2 := by
  have hready : beyondShort.Ready shortAndLong [⟨0, 0⟩, ⟨4, 0⟩] 4 :=
    ⟨rfl, by simp, rfl, by decide⟩
  have hpoints : Polyline.resample 4 [⟨0, 0⟩, ⟨4, 0⟩] =
      [⟨0, 0⟩, ⟨1, 0⟩, ⟨2, 0⟩, ⟨3, 0⟩, ⟨4, 0⟩] := by
    decide +kernel
  have hnames : shortAndLong.selectedNames beyondShort.layers = ["short", "long"] := by
    decide +kernel
  have hfirst : FirstFailure ⟨[]⟩ shortAndLong
      (shortAndLong.selectedNames beyondShort.layers)
      (Polyline.resample 4 [⟨0, 0⟩, ⟨4, 0⟩]) 2 0 .emptyGeometry := by
    rw [hpoints, hnames]
    refine ⟨⟨_, _, rfl, rfl, _, rfl, ?_⟩, noFailure_of_isOk (by decide +kernel),
      fun p hp => noFailure_of_isOk (by simp)⟩
    have hbeyond : ¬ (2 : Float) < 2 := by decide +kernel
    simp only [Raster.value, Source.value, if_neg hbeyond]
    rfl
  have hschedule : beyondShort.schedule = .sequential := rfl
  obtain ⟨hprofile, -, hcount⟩ :=
    (run_inOrder ⟨[]⟩ shortAndLong hschedule).failed _ _ _ _ _ hready hfirst
  refine ⟨rfl, hprofile, ?_, ?_⟩ <;> rw [hcount, hnames] <;> rfl

end Request

end Transect
