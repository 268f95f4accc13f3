import Transect.Proofs.Except
import Transect.Proofs.Tile.Cache
import Transect.Registry

/-!
# Rasters answer alike

A lookup can change what a tile store keeps, but not what any raster answers at any point. So the
values at a point do not depend on the points and rasters that were asked before, and the order in
which the points are visited shows only in which failure comes first.
-/

namespace Transect

variable {tree : FileTree}

/-! ## One lookup -/

/-- The answer of a source does not depend on what it was asked before. -/
theorem Source.value_after (tree : FileTree) (p q : Point) (source : Source) :
    ((source.value tree p).2.value tree q).1 = (source.value tree q).1 := by
  cases source with
  | field value => rfl
  | tiles store =>
    simp only [Source.value, TileStore.value_eq]
    rw [TileStore.tileAt_keep]

namespace Raster

/-- Two rasters that answer alike at all points. -/
def Alike (tree : FileTree) (r t : Raster) : Prop :=
  ∀ p, (r.value tree p).1 = (t.value tree p).1

theorem value_fst (tree : FileTree) (p : Point) (r : Raster) :
    (r.value tree p).1 = (r.source.value tree p).1.map r.finish := rfl

theorem value_snd (tree : FileTree) (p : Point) (r : Raster) :
    (r.value tree p).2 = { r with source := (r.source.value tree p).2 } := rfl

theorem alike_value_snd (tree : FileTree) (p : Point) (r : Raster) :
    Alike tree (r.value tree p).2 r := by
  intro q
  rw [value_snd, value_fst, value_fst, Source.value_after]
  rfl

end Raster

/-! ## The rasters of a survey -/

/-- Rasters under the same names that answer alike. -/
def AllAlike (tree : FileTree) (rasters others : List (String × Raster)) : Prop :=
  List.Forall₂ (fun r t => r.1 = t.1 ∧ r.2.Alike tree t.2) rasters others

theorem AllAlike.refl (tree : FileTree) (rasters : List (String × Raster)) :
    AllAlike tree rasters rasters :=
  List.forall₂_same.2 fun _ _ => ⟨rfl, fun _ => rfl⟩

theorem AllAlike.trans {rasters others last : List (String × Raster)}
    (h : AllAlike tree rasters others) (h' : AllAlike tree others last) :
    AllAlike tree rasters last := by
  induction h generalizing last with
  | nil => exact h'
  | cons hhead htail ih =>
    cases h' with
    | cons hhead' htail' =>
      refine .cons ⟨hhead.1.trans hhead'.1, fun p => ?_⟩ (ih htail')
      exact (hhead.2 p).trans (hhead'.2 p)

namespace Survey

theorem evaluate_allAlike (tree : FileTree) (p : Point) (visited : List String)
    (rasters : List (String × Raster)) :
    AllAlike tree (evaluate tree p visited rasters).2.rasters rasters := by
  induction rasters generalizing visited with
  | nil => exact .nil
  | cons entry rest ih =>
    obtain ⟨name, raster⟩ := entry
    have halike := raster.alike_value_snd tree p
    rw [evaluate]
    cases hv : raster.value tree p with
    | mk answer after =>
      rw [hv] at halike
      cases answer with
      | error cause => exact .cons ⟨rfl, halike⟩ (AllAlike.refl tree rest)
      | ok value => exact .cons ⟨rfl, halike⟩ (ih _)

theorem evaluate_congr {rasters others : List (String × Raster)}
    (h : AllAlike tree rasters others) (p : Point) (visited visited' : List String) :
    (evaluate tree p visited rasters).1 = (evaluate tree p visited' others).1 := by
  induction h generalizing visited visited' with
  | nil => rfl
  | @cons entry entry' rest rest' hhead htail ih =>
    obtain ⟨name, raster⟩ := entry
    obtain ⟨name', raster'⟩ := entry'
    obtain ⟨rfl, halike⟩ := hhead
    have hp := halike p
    simp only [evaluate]
    cases hv : raster.value tree p with
    | mk answer after =>
      cases hv' : raster'.value tree p with
      | mk answer' after' =>
        rw [hv, hv'] at hp
        obtain rfl : answer = answer' := hp
        cases answer with
        | error cause => rfl
        | ok value => exact congrArg (Except.map _) (ih _ _)

/-- Two surveys that answer alike at all points. -/
def Alike (tree : FileTree) (s t : Survey) : Prop := AllAlike tree s.rasters t.rasters

theorem Alike.values_eq {s t : Survey} (h : s.Alike tree t) (p : Point) :
    (s.values tree p).1 = (t.values tree p).1 := by
  unfold values
  exact congrArg (Except.map NameMap.ofList) (evaluate_congr h p _ _)

theorem alike_values_snd (tree : FileTree) (p : Point) (s : Survey) :
    (s.values tree p).2.Alike tree s :=
  evaluate_allAlike tree p s.visited s.rasters

/-! ### Lookups one by one -/

/-- The survey after a lookup in one raster alone. -/
def lookUp (tree : FileTree) (s : Survey) (asked : Nat × Point) : Survey :=
  { s with rasters := s.rasters.modify asked.1 fun entry =>
      (entry.1, (entry.2.value tree asked.2).2) }

theorem alike_lookUp (tree : FileTree) (s : Survey) (asked : Nat × Point) :
    (s.lookUp tree asked).Alike tree s := by
  obtain ⟨i, p⟩ := asked
  unfold Alike lookUp AllAlike
  rw [List.forall₂_iff_get]
  refine ⟨by simp, fun j hj hj' => ?_⟩
  simp only [List.get_eq_getElem, List.getElem_modify]
  split
  · exact ⟨rfl, Raster.alike_value_snd tree p _⟩
  · exact ⟨rfl, fun _ => rfl⟩

/-- Lookups in any rasters at any points, in whatever order, have no bearing on the values. -/
theorem values_after_lookUps (tree : FileTree) (s : Survey) (asked : List (Nat × Point))
    (p : Point) : ((asked.foldl (lookUp tree) s).values tree p).1 = (s.values tree p).1 := by
  induction asked generalizing s with
  | nil => rfl
  | cons first rest ih =>
    rw [List.foldl_cons, ih]
    exact (alike_lookUp tree s first).values_eq p

/-! ## All points -/

theorem forall_ok_or_exists_error (f : Point → Except Error Values) (points : List Point) :
    (∃ g : Point → Values, ∀ p ∈ points, f p = .ok (g p)) ∨
      ∃ p ∈ points, ∃ cause, f p = .error cause := by
  by_cases h : ∃ p ∈ points, ∃ cause, f p = .error cause
  · exact .inr h
  · refine .inl ⟨fun p => (f p).toOption.getD .empty, fun p hp => ?_⟩
    cases hf : f p with
    | ok v => simp [hf, Except.toOption]
    | error cause => exact absurd ⟨p, hp, cause, hf⟩ h

theorem foldl_extend_error (tree : FileTree) (points : List Point) (cause : Error) (s : Survey) :
    points.foldl (extend tree) (.error cause, s) = (.error cause, s) := by
  induction points with
  | nil => rfl
  | cons p points ih => rw [List.foldl_cons, extend, ih]

theorem foldl_extend_ok (points : List Point) (found : List Values) {s t : Survey}
    (h : t.Alike tree s) :
    (points.foldl (extend tree) (.ok found, t)).1 =
      (points.mapM fun p => (s.values tree p).1).map (·.reverse ++ found) := by
  induction points generalizing found t with
  | nil => rfl
  | cons p points ih =>
    have hafter := (alike_values_snd tree p t).trans h
    rw [List.foldl_cons, List.mapM_cons, ← h.values_eq p, extend]
    cases hv : t.values tree p with
    | mk answer after =>
      rw [hv] at hafter
      cases answer with
      | error cause =>
        simp only [Except.map]
        rw [foldl_extend_error]
        rfl
      | ok v =>
        simp only [Except.map]
        rw [ih (v :: found) hafter]
        cases points.mapM fun p => (s.values tree p).1 with
        | error cause => rfl
        | ok vs => simp [bind, Except.bind, pure, Except.pure, Except.map]

/-- The values at points one after the other are those at each point alone. -/
theorem inSequence_fst (tree : FileTree) (points : List Point) (s : Survey) :
    (s.inSequence tree points).1 = points.mapM fun p => (s.values tree p).1 := by
  have h := foldl_extend_ok points [] (AllAlike.refl tree s.rasters : s.Alike tree s)
  unfold inSequence
  simp only [h]
  cases points.mapM fun p => (s.values tree p).1 with
  | error cause => rfl
  | ok vs => simp [Except.map]

theorem inAnyOrder_fst (tree : FileTree) (arrange : List (Point × Nat) → List (Point × Nat))
    (points : List Point) (s : Survey) :
    (s.inAnyOrder tree arrange points).1 =
      (((arrange points.zipIdx).map (·.1)).mapM fun p => (s.values tree p).1).map fun values =>
        inOrder (values.zip ((arrange points.zipIdx).map (·.2))) := by
  rw [← inSequence_fst]
  rfl

/-- Numbered values come back in the order of their numbers. -/
theorem inOrder_of_perm {numbered : List (Values × Nat)} {found : List Values}
    (h : numbered.Perm found.zipIdx) : inOrder numbered = found := by
  have hsorted : (numbered.mergeSort fun a b => a.2 ≤ b.2).Pairwise fun a b => a.2 ≤ b.2 := by
    have htrans (a b c : Values × Nat) :
        decide (a.2 ≤ b.2) = true → decide (b.2 ≤ c.2) = true → decide (a.2 ≤ c.2) = true := by
      simpa using Nat.le_trans
    have htotal (a b : Values × Nat) : (decide (a.2 ≤ b.2) || decide (b.2 ≤ a.2)) = true := by
      simpa using Nat.le_total _ _
    simpa using List.pairwise_mergeSort htrans htotal numbered
  have hindex : found.zipIdx.Pairwise fun a b => a.2 ≤ b.2 := by
    rw [← List.pairwise_map (f := Prod.snd) (R := (· ≤ ·)), List.zipIdx_map_snd]
    exact List.pairwise_le_range'
  have hperm := (List.mergeSort_perm numbered fun a b => a.2 ≤ b.2).trans h
  -- Two values under one number are the same value.
  have hsame : ∀ a b, a ∈ numbered.mergeSort (fun a b => a.2 ≤ b.2) → b ∈ found.zipIdx →
      a.2 ≤ b.2 → b.2 ≤ a.2 → a = b := by
    rintro ⟨v, i⟩ ⟨w, j⟩ ha hb hle hge
    obtain rfl : i = j := Nat.le_antisymm hle hge
    have hv := List.mem_zipIdx_iff_getElem?.1 (hperm.subset ha)
    have hw := List.mem_zipIdx_iff_getElem?.1 hb
    rw [hv] at hw
    cases hw
    rfl
  have heq := hperm.eq_of_pairwise hsame hsorted hindex
  rw [inOrder, heq, List.zipIdx_map_fst]

variable {arrange : List (Point × Nat) → List (Point × Nat)} {points : List Point} {s : Survey}

theorem mem_arranged (h : (arrange points.zipIdx).Perm points.zipIdx) (p : Point) :
    p ∈ (arrange points.zipIdx).map (·.1) ↔ p ∈ points := by
  rw [(h.map Prod.fst).mem_iff, List.zipIdx_map_fst]

/-- Without a failure, visiting the points in any order gives each its value in its place. -/
theorem inAnyOrder_eq_ok {g : Point → Values} (h : (arrange points.zipIdx).Perm points.zipIdx)
    (hg : ∀ p ∈ points, (s.values tree p).1 = .ok (g p)) :
    (s.inAnyOrder tree arrange points).1 = .ok (points.map g) := by
  rw [inAnyOrder_fst, mapM_eq_ok fun p hp => hg p ((mem_arranged h p).1 hp)]
  have hvalues : (((arrange points.zipIdx).map (·.1)).map g).zip
      ((arrange points.zipIdx).map (·.2)) =
        (arrange points.zipIdx).map fun a => (g a.1, a.2) := by
    rw [List.map_map, List.zip_map']
    rfl
  have hperm := h.map fun a : Point × Nat => (g a.1, a.2)
  have hindex : points.zipIdx.map (fun a => (g a.1, a.2)) = (points.map g).zipIdx := by
    rw [List.zipIdx_map]
    rfl
  rw [hindex] at hperm
  rw [Except.map, hvalues, inOrder_of_perm hperm]

/-- With a failure, any order comes to one of them. -/
theorem inAnyOrder_eq_error (h : (arrange points.zipIdx).Perm points.zipIdx)
    (hfail : ∃ p ∈ points, ∃ cause, (s.values tree p).1 = .error cause) :
    ∃ p ∈ points, ∃ cause, (s.values tree p).1 = .error cause ∧
      (s.inAnyOrder tree arrange points).1 = .error cause := by
  simp only [← mem_arranged h] at hfail
  obtain ⟨p, hp, cause, hcause, hany⟩ := mapM_eq_error hfail
  refine ⟨p, (mem_arranged h p).1 hp, cause, hcause, ?_⟩
  rw [inAnyOrder_fst, hany]
  rfl

end Survey

end Transect
