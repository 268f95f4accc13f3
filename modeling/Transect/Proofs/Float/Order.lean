import Transect.Proofs.Float.Root

/-!
# Floats and zero

What the comparisons of a float with zero say about the number that it stands for. A float that is
not above zero and is no number below it either is no number at all.
-/

namespace Transect

open Float.Model
open Float.Model.UnpackedFloat

variable {x : Float} {a : ℚ}

theorem unpack_zero : unpack 0 = .zero .positive := rfl

theorem zero_lt_iff : 0 < x ↔ UnpackedFloat.lt (.zero .positive) (unpack x) = true := by
  rw [← unpack_zero]
  exact decide_eq_true_iff

theorem le_zero_iff : x ≤ 0 ↔ UnpackedFloat.le (unpack x) (.zero .positive) = true := by
  rw [← unpack_zero]
  exact decide_eq_true_iff

theorem pos_of_zero_lt (h : 0 < x) (hx : rat? x = some a) : 0 < a := by
  rw [zero_lt_iff] at h
  rcases rat?_cases hx with ⟨s, hu, -⟩ | ⟨s, m, e, hm, hu, -, -, rfl⟩
  · rw [hu] at h
    exact absurd h Bool.false_ne_true
  · cases s with
    | positive => exact mul_two_zpow_pos hm e
    | negative =>
      rw [hu] at h
      exact absurd h Bool.false_ne_true

theorem beq_zero_of_pos (hx : rat? x = some a) (ha : 0 < a) : (x == 0) = false := by
  obtain ⟨m, e, hm, hu, -⟩ := unpack_of_pos hx ha
  have hbeq : (x == 0) = UnpackedFloat.beq (unpack x) (unpack 0) := rfl
  rw [hbeq, hu]
  rfl

theorem beq_zero_of_zero (hx : rat? x = some 0) : (x == 0) = true := by
  obtain ⟨s, hu⟩ := exists_unpack_zero hx
  have hbeq : (x == 0) = UnpackedFloat.beq (unpack x) (unpack 0) := rfl
  rw [hbeq, hu]
  rfl

/-- A float is a positive number, or there is a reason why it is none. -/
theorem isFinite_and_pos_iff :
    x.isFinite = true ∧ 0 < x ↔ ¬ (x.isNaN = true ∨ x.isInf = true ∨ x ≤ 0) := by
  have hfinite : x.isFinite = (unpack x).isFinite := rfl
  have hnan : x.isNaN = (unpack x).isNaN := rfl
  have hinf : x.isInf = (unpack x).isInf := rfl
  rw [zero_lt_iff, le_zero_iff, hfinite, hnan, hinf]
  cases unpack x with
  | notANumber => decide
  | infinity s | zero s => cases s <;> decide
  | finite s m e hm =>
    have hkind : (UnpackedFloat.finite s m e hm).isNaN = false ∧
        (UnpackedFloat.finite s m e hm).isInf = false := ⟨rfl, rfl⟩
    have hsign : UnpackedFloat.lt (.zero .positive) (.finite s m e hm) =
        !UnpackedFloat.le (.finite s m e hm) (.zero .positive) := by cases s <;> rfl
    simp [hkind, hsign, UnpackedFloat.isFinite]

end Transect
