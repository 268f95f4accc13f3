import Transect.GeoJson
import Transect.Proofs.Json.Number
import Transect.Proofs.Polyline

/-!
# Lines that are read

A line that is read has points, and all of them are finite.
-/

namespace Transect.GeoJson

theorem finite_of_number? {j : Json} {x : Float} (h : number? j = some x) : x.isFinite = true := by
  cases j with
  | number literal => exact Json.isFinite_of_value? h
  | _ => cases h

theorem forall_of_mapM {α β : Type} {f : α → Option β} {good : β → Prop}
    (hf : ∀ a b, f a = some b → good b) {xs : List α} {ys : List β} (h : xs.mapM f = some ys) :
    ∀ y ∈ ys, good y := by
  induction xs generalizing ys with
  | nil =>
    cases h
    simp
  | cons a xs ih =>
    rw [List.mapM_cons] at h
    obtain ⟨b, hb, h⟩ := Option.bind_eq_some_iff.1 h
    obtain ⟨bs, hbs, h⟩ := Option.bind_eq_some_iff.1 h
    cases h
    exact List.forall_mem_cons.2 ⟨hf a b hb, ih hbs⟩

theorem finite_of_position? {j : Json} {p : Point} (h : position? j = some p) : p.Finite := by
  unfold position? at h
  obtain ⟨items, -, h⟩ := Option.bind_eq_some_iff.1 h
  obtain ⟨numbers, hnumbers, h⟩ := Option.bind_eq_some_iff.1 h
  have hfinite := forall_of_mapM (fun _ _ => finite_of_number?) hnumbers
  split at h
  · cases h
    exact ⟨hfinite _ (by simp), hfinite _ (by simp)⟩
  · cases h

theorem finite_of_ofMembers? {type : String} {members : Members} {points : List Point}
    (h : Geometry.ofMembers? type members = some (.line points)) : ∀ p ∈ points, p.Finite := by
  unfold Geometry.ofMembers? at h
  obtain ⟨depth, -, h⟩ := Option.bind_eq_some_iff.1 h
  obtain ⟨coordinates, -, h⟩ := Option.bind_eq_some_iff.1 h
  split_ifs at h
  · obtain ⟨items, -, h⟩ := Option.bind_eq_some_iff.1 h
    obtain ⟨found, hfound, h⟩ := Option.bind_eq_some_iff.1 h
    cases h
    exact forall_of_mapM (fun _ _ => finite_of_position?) hfound
  · obtain ⟨_, -, h⟩ := Option.bind_eq_some_iff.1 h
    cases h

theorem finite_of_ofJson? {depth : ℕ} {j : Json} {points : List Point}
    (h : Geometry.ofJson? depth j = some (.line points)) : ∀ p ∈ points, p.Finite := by
  unfold Geometry.ofJson? at h
  split at h
  · cases h
  · obtain ⟨type, -, h⟩ := Option.bind_eq_some_iff.1 h
    split at h
    · -- Only what is no collection can be a line.
      split_ifs at h
      · obtain ⟨_, -, h⟩ := Option.bind_eq_some_iff.1 h
        obtain ⟨_, -, h⟩ := Option.bind_eq_some_iff.1 h
        obtain ⟨_, -, h⟩ := Option.bind_eq_some_iff.1 h
        obtain ⟨found, hfound, h⟩ := Option.bind_eq_some_iff.1 h
        obtain ⟨_, -, h⟩ := Option.bind_eq_some_iff.1 h
        cases hfound
        cases h
      · obtain ⟨found, hfound, h⟩ := Option.bind_eq_some_iff.1 h
        obtain ⟨_, -, h⟩ := Option.bind_eq_some_iff.1 h
        cases h
        exact finite_of_ofMembers? hfound
    · cases h
  · cases h

/-- **A line that is read has finite points, and at least one.** -/
theorem readLine_spec {text : String} {points : List Point} (h : readLine text = .ok points) :
    points ≠ [] ∧ ∀ p ∈ points, p.Finite := by
  unfold readLine at h
  simp only at h
  split at h
  · cases h
  · cases h
  · cases h
  · rename_i hne hline
    cases h
    obtain ⟨j, -, hj⟩ := Option.bind_eq_some_iff.1 hline
    exact ⟨hne, finite_of_ofJson? hj⟩

end Transect.GeoJson
