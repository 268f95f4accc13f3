import Transect.Proofs.Float.Nearest

/-!
# The error of rounding

A rounded number differs from the exact one by at most a small part of either. Only below the
smallest power of two with all its digits the part can be larger, but there sums and multiples of
binary fractions are exact.
-/

namespace Transect

variable {r v w : ℚ}

/-! ## Multiples of the smallest unit -/

/-- The smallest unit that a last digit can have. -/
def smallestUnit : ℚ := 2 ^ (-1074 : ℤ)

theorem smallestUnit_pos : 0 < smallestUnit := two_zpow_pos _

def OnGrid (v : ℚ) : Prop := ∃ k : ℤ, v = k * smallestUnit

theorem IsFraction.onGrid (h : IsFraction r) : OnGrid r := by
  obtain ⟨n, e, -, he, rfl⟩ := h
  exact exists_mul_two_zpow n he

theorem onGrid_nearestFloat (v : ℚ) : OnGrid (nearestFloat v) :=
  exists_mul_two_zpow _ (le_gridExponent v)

theorem OnGrid.add (hv : OnGrid v) (hw : OnGrid w) : OnGrid (v + w) := by
  obtain ⟨i, rfl⟩ := hv
  obtain ⟨j, rfl⟩ := hw
  exact ⟨i + j, by push_cast; ring⟩

theorem OnGrid.natCast_mul (h : OnGrid v) (n : ℕ) : OnGrid (n * v) := by
  obtain ⟨k, rfl⟩ := h
  exact ⟨n * k, by push_cast; ring⟩

theorem OnGrid.nearestFloat_eq (h : OnGrid v) (hgrid : gridExponent v = -1074) :
    nearestFloat v = v := by
  obtain ⟨k, hk⟩ := h
  have hunit : (2 : ℚ) ^ gridExponent v = smallestUnit := by rw [hgrid, smallestUnit]
  rw [nearestFloat, hunit, hk, mul_div_cancel_right₀ _ smallestUnit_pos.ne', roundEven_intCast]

/-! ## Relative errors -/

/-- The part of a number that half a unit of its last digit is at most. -/
def halfUnit : ℚ := 2 ^ (-53 : ℤ)

theorem halfUnit_pos : 0 < halfUnit := two_zpow_pos _

theorem two_zpow_grid_half (v : ℚ) :
    (2 : ℚ) ^ gridExponent v / 2 = halfUnit * 2 ^ (gridExponent v + 52) := by
  rw [halfUnit, ← two_zpow_add, show -53 + (gridExponent v + 52) = -1 + gridExponent v by ring,
    two_zpow_add]
  norm_num
  ring

theorem half_le_of_normal (hv : v ≠ 0) (hgrid : -1074 < gridExponent v) :
    2 ^ gridExponent v / 2 ≤ halfUnit * |v| ∧
      2 ^ gridExponent v / 2 ≤ halfUnit * |nearestFloat v| := by
  have hle := two_zpow_grid_le_abs hv hgrid
  have hround : (2 : ℚ) ^ (gridExponent v + 52) ≤ |nearestFloat v| := by
    rw [abs_nearestFloat]
    exact (isFraction_two_zpow (by omega)).le_nearestFloat hle
  rw [two_zpow_grid_half]
  exact ⟨mul_le_mul_of_nonneg_left hle halfUnit_pos.le,
    mul_le_mul_of_nonneg_left hround halfUnit_pos.le⟩

/-- **The relative error of a sum or a multiple of floats**, as a part of the exact number and as a
part of the rounded one. -/
theorem OnGrid.abs_sub_le (h : OnGrid v) :
    |nearestFloat v - v| ≤ halfUnit * |v| ∧ |nearestFloat v - v| ≤ halfUnit * |nearestFloat v| := by
  rcases eq_or_ne v 0 with rfl | hv
  · simp
  rcases (le_gridExponent v).eq_or_lt with hgrid | hgrid
  · have hnonneg : 0 ≤ halfUnit * |v| := mul_nonneg halfUnit_pos.le (abs_nonneg v)
    rw [h.nearestFloat_eq hgrid.symm, sub_self, abs_zero]
    exact ⟨hnonneg, hnonneg⟩
  · have herror := abs_nearestFloat_sub_le v
    obtain ⟨hexact, hround⟩ := half_le_of_normal hv hgrid
    exact ⟨herror.trans hexact, herror.trans hround⟩

/-- The error of any number. Below the smallest one that keeps all digits it is half the smallest
unit. -/
theorem abs_nearestFloat_sub_le_add (v : ℚ) :
    |nearestFloat v - v| ≤ halfUnit * |v| + smallestUnit / 2 := by
  have hnonneg : 0 ≤ halfUnit * |v| := mul_nonneg halfUnit_pos.le (abs_nonneg v)
  have hunit := smallestUnit_pos
  rcases eq_or_ne v 0 with rfl | hv
  · simp only [nearestFloat_zero, sub_zero, abs_zero, mul_zero, zero_add]
    linarith
  have herror := abs_nearestFloat_sub_le v
  rcases (le_gridExponent v).eq_or_lt with hgrid | hgrid
  · rw [← hgrid] at herror
    exact herror.trans (le_add_of_nonneg_left hnonneg)
  · have := (half_le_of_normal hv hgrid).1
    linarith

theorem OnGrid.nearestFloat_le (h : OnGrid v) (h0 : 0 ≤ v) :
    nearestFloat v ≤ (1 + halfUnit) * v := by
  have herror := (abs_le.1 h.abs_sub_le.1).2
  rw [abs_of_nonneg h0] at herror
  linarith

theorem nearestFloat_le_add (h0 : 0 ≤ v) :
    nearestFloat v ≤ (1 + halfUnit) * v + smallestUnit / 2 := by
  have herror := (abs_le.1 (abs_nearestFloat_sub_le_add v)).2
  rw [abs_of_nonneg h0] at herror
  linarith

end Transect
