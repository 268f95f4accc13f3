import Transect.Proofs.Decimal.Shortest

/-!
# What a cell holds

All numbers in the cell of a float are rounded to the float. Above the float the unit of the last
digit is the same, and below it too, unless the float is a power of two.
-/

namespace Transect

variable {v : ℚ} {m : ℕ} {e : ℤ}

/-! ## The last digit of a number near a float -/

theorem Canonical.target_eq_exponent (h : Canonical m e) (hm : 0 < m) : target m e = e := by
  have hlog : m.log2 < 53 := (Nat.log2_lt hm.ne').2 h.lt
  have hnormal : 2 ^ 52 ≤ m → 52 ≤ m.log2 := fun h => (Nat.le_log2 hm.ne').2 h
  have hmin := h.exponent
  rw [target_eq]
  rcases h.normal with h | h
  · have := hnormal h
    omega
  · omega

theorem Canonical.gridExponent_eq (h : Canonical m e) (hm : 0 < m) (hlow : (m : ℚ) * 2 ^ e ≤ v)
    (hhigh : v < (m + 1) * 2 ^ e) : gridExponent v = e := by
  have hpos := two_zpow_pos e
  have hgrid := gridExponent_eq_target (e := e) hm.ne' ((le_div_iff₀ hpos).2 hlow)
    ((div_lt_iff₀ hpos).2 hhigh)
  rwa [div_mul_cancel₀ _ hpos.ne', h.target_eq_exponent hm] at hgrid

/-- Below a float the last digit is the same, unless the float is a power of two. -/
theorem Canonical.gridExponent_eq_of_le (h : Canonical m e) (hm : 0 < m)
    (hpower : ¬ (m = 2 ^ 52 ∧ -1074 < e)) (hlow : (m - 1 : ℚ) * 2 ^ e ≤ v)
    (hhigh : v ≤ m * 2 ^ e) (hv : 0 < v) : gridExponent v = e := by
  have hpos := two_zpow_pos e
  have habove : gridExponent (m * 2 ^ e) = e := h.gridExponent_eq hm le_rfl (by linarith)
  have hle : |v| ≤ |(m : ℚ) * 2 ^ e| := by
    rwa [abs_of_pos hv, abs_of_pos (mul_two_zpow_pos hm e)]
  apply le_antisymm
  · rw [← habove]
    exact gridExponent_mono hv.ne' hle
  · rcases h.normal with hnormal | rfl
    · rcases h.exponent.eq_or_lt with rfl | he
      · exact le_gridExponent v
      · -- The float below has all its digits too.
        have hm' : 2 ^ 52 ≤ m - 1 := by omega
        have hbelow : Canonical (m - 1) e := ⟨by have := h.lt; omega, h.exponent, .inl hm'⟩
        have hlow' : ((m - 1 : ℕ) : ℚ) * 2 ^ e ≤ v := by
          rwa [Nat.cast_sub hm, Nat.cast_one]
        rw [← hbelow.gridExponent_eq (by omega) le_rfl (by linarith)]
        have hpos' := mul_two_zpow_pos (show 0 < m - 1 by omega) e
        apply gridExponent_mono hpos'.ne'
        rwa [abs_of_pos hv, abs_of_pos hpos']
    · exact le_gridExponent v

/-! ## Cells -/

theorem InCell.pos (h : InCell m e v) (hm : 0 < m) : 0 < v := by
  have hgap := (gapBelow_bounds m e).2
  have hm1 : (1 : ℚ) ≤ m := by exact_mod_cast hm
  exact (mul_pos (by linarith) (two_zpow_pos e)).trans_le h.low

theorem InCell.nearestFloat_of_grid (h : InCell m e v) (hgrid : gridExponent v = e) :
    nearestFloat v = m * 2 ^ e := by
  have hpos := two_zpow_pos e
  have hgap : gapBelow m e * 2 ^ e ≤ 1 / 2 * 2 ^ e :=
    mul_le_mul_of_nonneg_right (gapBelow_bounds m e).2 hpos.le
  apply nearestFloat_eq_of_near (n := m) hgrid
  · have hlow := h.low
    have hhigh := h.high
    rw [Int.cast_natCast, abs_le]
    constructor <;> linarith
  · intro hhalf
    by_contra hodd
    obtain ⟨hlow, hhigh⟩ := h.inside (by omega)
    have hlt : |v - (m : ℤ) * 2 ^ e| < 2 ^ e / 2 := by
      rw [Int.cast_natCast, abs_lt]
      constructor <;> linarith
    exact absurd hhalf hlt.ne

/-- Below a power of two the unit is half as large, and the power is an even multiple of it. -/
theorem nearestFloat_below_power (he : -1074 < e) (hlow : (2 ^ 52 - 1 / 4) * 2 ^ e ≤ v)
    (hhigh : v < 2 ^ 52 * 2 ^ e) : nearestFloat v = 2 ^ 52 * 2 ^ e := by
  have hunit : (2 : ℚ) ^ e = 2 * 2 ^ (e - 1) := by
    rw [← zpow_one_add₀ two_ne_zero]
    congr 1
    omega
  have hpos := two_zpow_pos (e - 1)
  rw [hunit] at hlow hhigh ⊢
  have hbelow : Canonical (2 ^ 53 - 1) (e - 1) := ⟨by norm_num, by omega, .inl (by norm_num)⟩
  have hgrid := hbelow.gridExponent_eq (v := v) (by norm_num) (by push_cast; linarith)
    (by push_cast; linarith)
  have hround := nearestFloat_eq_of_near (n := 2 ^ 53) hgrid ?_ fun _ => by norm_num
  · rw [hround]
    push_cast
    ring
  · push_cast
    rw [abs_of_neg (by linarith)]
    linarith

/-- **What is in the cell of a float is rounded to the float.** -/
theorem InCell.nearestFloat_eq (h : InCell m e v) (hc : Canonical m e) (hm : 0 < m) :
    nearestFloat v = m * 2 ^ e := by
  have hpos := two_zpow_pos e
  have hlow := h.low
  have hhigh := h.high
  rcases le_or_gt ((m : ℚ) * 2 ^ e) v with hle | hlt
  · exact h.nearestFloat_of_grid (hc.gridExponent_eq hm hle (by linarith))
  · by_cases hpower : m = 2 ^ 52 ∧ -1074 < e
    · obtain ⟨rfl, he⟩ := hpower
      rw [gapBelow, if_pos ⟨rfl, he⟩] at hlow
      push_cast at hlow hlt ⊢
      exact nearestFloat_below_power he hlow hlt
    · rw [gapBelow, if_neg hpower] at hlow
      apply h.nearestFloat_of_grid
      exact hc.gridExponent_eq_of_le hm hpower (by linarith) hlt.le (h.pos hm)

end Transect
