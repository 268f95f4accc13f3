import Transect.Distance
import Transect.Proofs.Float.Whole
import Transect.Proofs.Rounding

/-!
# Distances survive floating point

A distance of up to fifteen digits is a float divided by ten. Neither the division nor the shortest
decimal goes further than a small part of a tenth, so rounding to tenths gives the distance back.
-/

namespace Transect

variable {x : Float} {a v : ℚ} {k : ℤ} {tie : Tie} {s : Decimal}

/-! ## How far rounding goes -/

theorem abs_nearestFloat_sub_le_of_lt (hk : -1021 ≤ k) (h : |v| < 2 ^ k) :
    |nearestFloat v - v| ≤ 2 ^ (k - 54) := by
  rcases eq_or_ne v 0 with rfl | hv
  · rw [nearestFloat_zero, sub_zero, abs_zero]
    exact (two_zpow_pos _).le
  · have hlog : Int.log 2 |v| < k :=
      (Int.lt_zpow_iff_log_lt (by norm_num) (abs_pos.2 hv)).1 (by exact_mod_cast h)
    have hgrid : gridExponent v ≤ k - 53 := by
      unfold gridExponent
      omega
    have hhalf := two_zpow_add 1 (k - 54)
    calc |nearestFloat v - v| ≤ 2 ^ gridExponent v / 2 := abs_nearestFloat_sub_le v
      _ ≤ 2 ^ (1 + (k - 54)) / 2 := by
        have := two_zpow_le (show gridExponent v ≤ 1 + (k - 54) by omega)
        linarith
      _ = 2 ^ (k - 54) := by rw [hhalf]; ring

theorem Canonical.exponent_le_of_lt {m : ℕ} {e : ℤ} (h : Canonical m e) (hk : -1021 ≤ k)
    (hlt : (m : ℚ) * 2 ^ e < 2 ^ k) : e ≤ k - 53 := by
  rcases h.normal with hnormal | rfl
  · have hm : (2 : ℚ) ^ (52 : ℤ) ≤ m := by exact_mod_cast hnormal
    by_contra he
    have hle : (2 : ℚ) ^ k ≤ 2 ^ (52 + e) := two_zpow_le (by omega)
    rw [two_zpow_add] at hle
    have := mul_le_mul_of_nonneg_right hm (two_zpow_pos e).le
    linarith
  · omega

/-- The shortest decimal is not far from the float. -/
theorem abs_shortest?_sub_le (hx : rat? x = some a) (hs : shortest? tie x = some s)
    (hk : -1021 ≤ k) (h : |a| < 2 ^ k) : |(s.value - |a|)| ≤ 2 ^ (k - 54) := by
  rcases shortest?_cases hx tie with ⟨rfl, heq⟩ | ⟨m, e, hm, hcanonical, he, ha, heq⟩
  · rw [heq] at hs
    cases hs
    rw [Decimal.value, Nat.cast_zero, zero_mul, abs_zero, sub_zero, abs_zero]
    exact (two_zpow_pos _).le
  · rw [heq] at hs
    cases hs
    rw [ha] at h ⊢
    have hcell := inCell_shortest hm hcanonical.exponent he tie
    have hlow := hcell.low
    have hhigh := hcell.high
    have hgap := mul_le_mul_of_nonneg_right (gapBelow_bounds m e).2 (two_zpow_pos e).le
    have hunit := two_zpow_le (show e ≤ 1 + (k - 54) by
      have := hcanonical.exponent_le_of_lt hk h
      omega)
    rw [two_zpow_add, zpow_one] at hunit
    rw [abs_le]
    constructor <;> linarith

/-! ## Tenths -/

namespace Distance

theorem halfUp_of_near {n : ℕ} (h : |v - n| < 1 / 2) : halfUp v = n := by
  obtain ⟨hlow, hhigh⟩ := abs_lt.1 h
  have hv : 0 ≤ v + 1 / 2 := by
    have : (0 : ℚ) ≤ n := Nat.cast_nonneg n
    linarith
  rw [halfUp, Nat.floor_eq_iff hv]
  constructor <;> linarith

theorem quantize_of_near {t : ℤ} (hx : rat? x = some a) (ht : t ≠ 0) (hsmall : t.natAbs < 10 ^ 15)
    (hnear : |a - t / 10| ≤ 1 / 128) : quantize x 1 = t := by
  have hone : (1 : ℚ) ≤ |(t : ℚ)| := by exact_mod_cast Int.one_le_abs ht
  have hlarge : |(t : ℚ)| < 10 ^ 15 := by
    rw [← Int.cast_abs, ← Nat.cast_natAbs]
    exact_mod_cast hsmall
  have hsizes := (abs_abs_sub_abs_le a (t / 10 : ℚ)).trans hnear
  rw [abs_div, abs_of_pos (show (0 : ℚ) < 10 by norm_num), abs_le] at hsizes
  -- The shortest decimal is near the float, which is near the tenths.
  obtain ⟨s, hs⟩ := exists_shortest? hx .up
  have hdecimal := abs_shortest?_sub_le (k := 47) hx hs (by norm_num) (by norm_num; linarith)
  rw [abs_le] at hdecimal
  norm_num at hdecimal
  have hcount : halfUp (s.value * 10 ^ 1) = t.natAbs := by
    apply halfUp_of_near
    rw [Nat.cast_natAbs, Int.cast_abs, abs_lt]
    constructor <;> linarith
  have hmagnitude : magnitude x 1 = t.natAbs := by
    rw [magnitude_eq (by norm_num) hx hs, hcount, min_eq_right]
    unfold maxCount
    omega
  -- The sign is not lost on the way.
  have hnear := abs_le.1 hnear
  rw [quantize, hmagnitude]
  rcases lt_or_gt_of_ne ht with hneg | hpos
  · have hneg' : (t : ℚ) ≤ -1 := by exact_mod_cast Int.le_sub_one_of_lt hneg
    rw [isNegative_of_neg hx (by linarith), if_pos rfl]
    omega
  · have hpos' : (1 : ℚ) ≤ t := by exact_mod_cast hpos
    rw [isNegative_of_pos hx (by linarith), if_neg Bool.false_ne_true]
    omega

theorem abs_tenths_lt {t : ℤ} (h : t.natAbs < 10 ^ 15) : |(t / 10 : ℚ)| < 2 ^ (47 : ℤ) := by
  have hlarge : |(t : ℚ)| < 10 ^ 15 := by
    rw [← Int.cast_abs, ← Nat.cast_natAbs]
    exact_mod_cast h
  rw [abs_div, abs_of_pos (show (0 : ℚ) < 10 by norm_num)]
  norm_num
  linarith

variable {d : Distance}

theorem rat?_toFloat (h : d.tenths.natAbs < 10 ^ 15) :
    rat? d.toFloat = some (nearestFloat (d.tenths / 10)) := by
  have hquotient := isNearest_div (rat?_floatOfInt_of_small (n := d.tenths) (by omega)) rat?_ten
    (by norm_num)
  exact hquotient.rat?_of_abs_le ((abs_tenths_lt h).le.trans (two_zpow_le (by norm_num)))

theorem isFinite_toFloat (h : d.tenths.natAbs < 10 ^ 15) : d.toFloat.isFinite = true :=
  isFinite_iff.2 ⟨_, rat?_toFloat h⟩

/-- **A distance of up to fifteen digits comes back from its float.** -/
theorem ofFloat_toFloat (h : d.tenths.natAbs < 10 ^ 15) : ofFloat d.toFloat = d := by
  by_cases hzero : d.tenths = 0
  · obtain ⟨t⟩ := d
    cases hzero
    rfl
  · have hnear := abs_nearestFloat_sub_le_of_lt (by norm_num) (abs_tenths_lt h)
    norm_num at hnear
    have hquantize := quantize_of_near (rat?_toFloat h) hzero h (by norm_num; exact hnear)
    rw [ofFloat, hquantize]

end Distance

end Transect
