import Transect.Proofs.Profile.Visits

/-!
# Registering and selecting

Rasters are registered one after the other. What a name stands for is the last raster that was
registered under it, whatever the order. A selection is of the names that are asked for, and asking
for no names is asking for all of them in the order of their bytes.
-/

namespace Transect

variable {steps : List (String × Raster)} {name : String} {raster : Raster} {registry : Registry}

/-! ## The last of a name -/

/-- The raster is the last one under the name. -/
def LastUnder (steps : List (String × Raster)) (name : String) (raster : Raster) : Prop :=
  ∃ front back, steps = front ++ (name, raster) :: back ∧ name ∉ back.map (·.1)

theorem lookup_reverse_eq_some : steps.reverse.lookup name = some raster ↔
    LastUnder steps name raster := by
  rw [List.lookup_eq_some_iff]
  constructor
  · rintro ⟨back, front, hsteps, hback⟩
    refine ⟨front.reverse, back.reverse, ?_, ?_⟩
    · rw [← List.reverse_reverse steps, hsteps]
      simp
    · intro hname
      obtain ⟨entry, hentry, rfl⟩ := List.mem_map.1 hname
      simpa using hback entry (List.mem_reverse.1 hentry)
  · rintro ⟨front, back, rfl, hback⟩
    refine ⟨back.reverse, front.reverse, by simp, ?_⟩
    intro entry hentry
    have hne : name ≠ entry.1 := by
      rintro rfl
      exact hback (List.mem_map.2 ⟨entry, List.mem_reverse.1 hentry, rfl⟩)
    simpa using hne

namespace Registry

/-! ## Runs -/

/-- Registers rasters one after the other. The reports of what they take the place of come back, and
the registry after them. -/
def registerAll (registry : Registry) : List (String × Raster) → List (Option Raster) × Registry
  | [] => ([], registry)
  | (name, raster) :: rest =>
    let (replaced, registry) := registry.register name raster
    let (reports, registry) := registry.registerAll rest
    (replaced :: reports, registry)

theorem registerAll_snd (registry : Registry) (steps : List (String × Raster)) :
    (registry.registerAll steps).2 = steps.foldl (fun m (name, a) => m.insert name a) registry := by
  induction steps generalizing registry with
  | nil => rfl
  | cons step rest ih => exact ih (registry.insert step.1 step.2)

theorem registerAll_empty (steps : List (String × Raster)) :
    (registerAll .empty steps).2 = NameMap.ofList steps :=
  registerAll_snd .empty steps

theorem length_registerAll (registry : Registry) (steps : List (String × Raster)) :
    (registry.registerAll steps).1.length = steps.length := by
  induction steps generalizing registry with
  | nil => rfl
  | cons step rest ih => exact congrArg (· + 1) (ih (registry.insert step.1 step.2))

/-- A run goes on from the registry that it has come to. -/
theorem registerAll_append (registry : Registry) (front back : List (String × Raster)) :
    (registry.registerAll (front ++ back)).1 = (registry.registerAll front).1 ++
      ((registry.registerAll front).2.registerAll back).1 := by
  induction front generalizing registry with
  | nil => rfl
  | cons step rest ih => exact congrArg (_ :: ·) (ih (registry.insert step.1 step.2))

/-- The report of a step is what was found under its name before. -/
theorem report_eq (front back : List (String × Raster)) (name : String) (raster : Raster) :
    (registerAll .empty (front ++ (name, raster) :: back)).1[front.length]? =
      some (front.reverse.lookup name) := by
  rw [registerAll_append, List.getElem?_append_right (length_registerAll _ _).le,
    length_registerAll, Nat.sub_self, registerAll_empty, ← NameMap.find?_ofList]
  rfl

/-- What a run comes to: the reports of its steps, and the registry at the end. -/
structure RegisteredBy (steps : List (String × Raster))
    (run : List (Option Raster) × Registry) : Prop where
  /-- A step replaces a raster if its name has been there before, and it is the last one. -/
  reports : ∀ front name raster back, steps = front ++ (name, raster) :: back →
    ∃ replaced, run.1[front.length]? = some replaced ∧
      (replaced.isSome = true ↔ name ∈ front.map (·.1)) ∧
      ∀ old, replaced = some old ↔ LastUnder front name old
  size : run.2.size = (steps.map (·.1)).toFinset.card
  names : ∀ name, name ∈ run.2.names ↔ name ∈ steps.map (·.1)
  sorted : run.2.names.Pairwise fun s t => utf8Bytes s < utf8Bytes t
  find? : ∀ name raster, run.2.find? name = some raster ↔ LastUnder steps name raster

theorem size_ofList (steps : List (String × Raster)) :
    (NameMap.ofList steps).size = (steps.map (·.1)).toFinset.card := by
  have honce : (NameMap.ofList steps).names.Nodup :=
    (NameMap.ofList steps).sorted.imp Std.ne_of_lt
  have hsame : (NameMap.ofList steps).names.toFinset = (steps.map (·.1)).toFinset := by
    ext name
    rw [List.mem_toFinset, List.mem_toFinset, NameMap.mem_names_ofList]
  rw [← hsame, List.toFinset_card_of_nodup honce, NameMap.names, List.length_map]
  rfl

theorem registeredBy_registerAll (steps : List (String × Raster)) :
    RegisteredBy steps (registerAll .empty steps) where
  reports := by
    rintro front name raster back rfl
    refine ⟨_, report_eq front back name raster, ?_, fun old => lookup_reverse_eq_some⟩
    rw [NameMap.lookup_isSome_iff]
    simp
  size := by rw [registerAll_empty, size_ofList]
  names _ := by rw [registerAll_empty, NameMap.mem_names_ofList]
  sorted := NameMap.names_pairwise_bytes _
  find? _ _ := by rw [registerAll_empty, NameMap.find?_ofList, lookup_reverse_eq_some]

/-! ## Selections -/

/-- What a selection of some names is. There are values at a point if every named raster has one
there, whatever was looked up before. -/
structure SelectionOf (registry : Registry) (names : List String) (s : Selection) : Prop where
  layers : s.layers = names
  succeeds : ∀ (tree : FileTree) (asked : List (ℕ × Point)) (p : Point),
    (∃ values, ((asked.foldl (Survey.lookUp tree) s.survey).values tree p).1 = .ok values) ↔
      ∀ name ∈ names, ∃ raster v, registry.find? name = some raster ∧
        (raster.value tree p).1 = .ok v
  values : ∀ (tree : FileTree) (asked : List (ℕ × Point)) (p : Point) (values : Values),
    ((asked.foldl (Survey.lookUp tree) s.survey).values tree p).1 = .ok values →
      ValuesAt tree registry names p values

/-- What comes of asking a registry for some names: a selection, or the error of the first name
without a raster. -/
structure Selects (registry : Registry) (names : List String) : Prop where
  fails : (∃ cause, registry.select (some names) = .error cause) ↔
    ∃ name ∈ names, name ∉ registry.names
  first : ∀ cause, registry.select (some names) = .error cause →
    ∃ front name back, names = front ++ name :: back ∧
      (∀ other ∈ front, other ∈ registry.names) ∧ name ∉ registry.names ∧
      cause = .rasterNotFound name
  succeeds : ∀ s, registry.select (some names) = .ok s → SelectionOf registry names s

theorem select_error_iff {names : List String} :
    (∃ cause, registry.select (some names) = .error cause) ↔
      ∃ name ∈ names, name ∉ registry.names := by
  constructor
  · rintro ⟨cause, hselect⟩
    obtain ⟨front, name, back, heq, -, hname, -⟩ := select_eq_error hselect
    exact ⟨name, by simp [Option.some.inj heq], hname⟩
  · rintro ⟨name, hname, hnone⟩
    cases hselect : registry.select (some names) with
    | error cause => exact ⟨cause, rfl⟩
    | ok s => exact absurd (mem_names_of_select hselect name hname) hnone

theorem selectionOf_select {names : List String} {s : Selection}
    (h : registry.select (some names) = .ok s) : SelectionOf registry names s := by
  obtain ⟨hlayers, hchooses⟩ := select_spec h
  rw [hlayers] at hchooses
  refine ⟨hlayers, ?_, ?_⟩
  · intro tree asked p
    rw [Survey.values_after_lookUps]
    constructor
    · rintro ⟨values, hvalues⟩ name hname
      obtain ⟨raster, v, hfind, hv, -⟩ := (hchooses.valuesAt hvalues).value name hname
      exact ⟨raster, v, hfind, hv⟩
    · intro hall
      apply Survey.exists_values
      intro entry hentry
      have hname := (hchooses.names entry.1).1 (List.mem_map.2 ⟨entry, hentry, rfl⟩)
      obtain ⟨raster, v, hfind, hv⟩ := hall entry.1 hname
      rw [hchooses.find? entry hentry] at hfind
      cases hfind
      exact ⟨v, hv⟩
  · intro tree asked p values hvalues
    rw [Survey.values_after_lookUps] at hvalues
    exact hchooses.valuesAt hvalues

theorem selects (registry : Registry) (names : List String) : Selects registry names where
  fails := select_error_iff
  first cause hselect := by
    obtain ⟨front, name, back, heq, hfront, hname, hcause⟩ := select_eq_error hselect
    exact ⟨front, name, back, Option.some.inj heq, hfront, hname, hcause⟩
  succeeds _ := selectionOf_select

theorem choose_names {chosen rest : List (String × Raster)}
    (h : registry.entries = chosen ++ rest) :
    registry.choose chosen (rest.map (·.1)) = .ok registry.entries := by
  induction rest generalizing chosen with
  | nil => rw [h, List.append_nil]; rfl
  | cons entry rest ih =>
    obtain ⟨name, raster⟩ := entry
    have hfind : registry.find? name = some raster := NameMap.find?_of_mem (by simp [h])
    have honce := registry.sorted.imp Std.ne_of_lt
    have hnew : chosen.any (·.1 == name) = false := by
      rw [← Bool.not_eq_true, any_name_iff]
      intro hin
      rw [h, List.map_append, List.pairwise_append] at honce
      exact honce.2.2 name hin name List.mem_cons_self rfl
    rw [List.map_cons, choose, hfind]
    simp only [hnew, Bool.false_eq_true, if_false]
    exact ih (by rw [h, List.append_assoc]; rfl)

theorem select_none (registry : Registry) :
    registry.select none = registry.select (some registry.names) := by
  have hall : registry.entries = [] ++ registry.entries := rfl
  have hchoose := choose_names hall
  rw [select, select, NameMap.names, hchoose]
  rfl

/-- **Registering and selecting, over whole runs.** After any registrations into an empty registry,
each report, the count, the order of the names and the rasters found are those of the registrations.
Selecting fails for the first unregistered name only, keeps the names as they are, and has values
where every named raster has one. Without names it is the selection of all names in order. -/
theorem registerAll_selects (steps : List (String × Raster)) :
    RegisteredBy steps (registerAll .empty steps) ∧
    (∀ names, Selects (registerAll .empty steps).2 names) ∧
    (registerAll .empty steps).2.select none =
      (registerAll .empty steps).2.select (some (registerAll .empty steps).2.names) :=
  ⟨registeredBy_registerAll steps, selects _, select_none _⟩

end Registry

end Transect
