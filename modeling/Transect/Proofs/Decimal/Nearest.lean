import Transect.Proofs.Decimal.Shortest
import Transect.Proofs.Float.Size

/-!
# Decimals become the nearest float

A decimal becomes the float nearest to the number that it stands for. Exponents too large or too
small for any float are not computed with, but give the same result.
-/

namespace Transect

open Float.Model

variable {x : Float} {v : ℚ} {m : ℕ} {e : ℤ}

/-! ## Very large and very small numbers -/

/-- Less than half of the smallest unit is rounded to nothing. -/
theorem nearestFloat_of_tiny (h0 : 0 < v) (h : v < 2 ^ (-1075 : ℤ)) : nearestFloat v = 0 := by
  have hgrid : gridExponent v = -1074 := by
    have hlog : Int.log 2 v < -1075 :=
      (Int.lt_zpow_iff_log_lt (by norm_num) h0).1 (by exact_mod_cast h)
    rw [gridExponent, abs_of_pos h0]
    omega
  have hhalf : |v - (0 : ℤ) * 2 ^ (-1074 : ℤ)| < 2 ^ (-1074 : ℤ) / 2 := by
    have hsplit := two_zpow_add (-1) (-1074)
    norm_num only at hsplit
    rw [Int.cast_zero, zero_mul, sub_zero, abs_of_pos h0]
    linarith
  have hround := nearestFloat_eq_of_near hgrid hhalf.le fun h => absurd h hhalf.ne
  rwa [Int.cast_zero, zero_mul] at hround

theorem two_zpow_le_ten_zpow (he : 0 ≤ e) : (2 : ℚ) ^ e ≤ 10 ^ e := by
  obtain ⟨k, rfl⟩ := Int.eq_ofNat_of_zero_le he
  rw [zpow_natCast, zpow_natCast]
  exact pow_le_pow_left₀ (by norm_num) (by norm_num) k

theorem ten_zpow_le_two_zpow (he : e ≤ 0) : (10 : ℚ) ^ e ≤ 2 ^ e := by
  have h := two_zpow_le_ten_zpow (show 0 ≤ -e by omega)
  rw [zpow_neg, zpow_neg] at h
  exact (inv_le_inv₀ (two_zpow_pos e) (ten_zpow_pos e)).1 h

theorem tiny_of_exponent (he : e < -(2 ^ 11 + (m.log2 : ℤ))) :
    (m : ℚ) * 10 ^ e < 2 ^ (-1075 : ℤ) := by
  have hm : (m : ℚ) < 2 ^ ((m.log2 : ℤ) + 1) := by
    have := lt_two_zpow_log2 m
    linarith
  calc (m : ℚ) * 10 ^ e ≤ m * 2 ^ e :=
        mul_le_mul_of_nonneg_left (ten_zpow_le_two_zpow (by omega)) (Nat.cast_nonneg _)
    _ < 2 ^ ((m.log2 : ℤ) + 1) * 2 ^ e := mul_lt_mul_of_pos_right hm (two_zpow_pos e)
    _ = 2 ^ ((m.log2 : ℤ) + 1 + e) := (two_zpow_add _ _).symm
    _ ≤ 2 ^ (-1075 : ℤ) := two_zpow_le (by omega)

theorem floatBound_le_nearestFloat (hm : 0 < m) (he : 2 ^ 11 < e) :
    floatBound ≤ nearestFloat (m * 10 ^ e) := by
  apply (isFraction_two_zpow (by norm_num)).le_nearestFloat
  have hm1 : (1 : ℚ) ≤ m := by exact_mod_cast hm
  calc (2 : ℚ) ^ (1024 : ℤ) ≤ 2 ^ e := two_zpow_le (by omega)
    _ ≤ 10 ^ e := two_zpow_le_ten_zpow (by omega)
    _ ≤ m * 10 ^ e := le_mul_of_one_le_left (ten_zpow_pos e).le hm1

theorem unpack_toFloat_of_zero {d : Decimal} (hd : d.digits = 0) :
    unpack d.toFloat = .zero .positive := by
  have hzero : UnpackedFloat.ofScientific Format.binary64 d.digits d.exponent =
      .zero .positive := by
    unfold UnpackedFloat.ofScientific
    rw [dif_pos hd]
  rw [Decimal.toFloat, Float.Model.ofScientific, hzero, unpack_ofModel_pack (stored_zero _)]

theorem ofScientific_of_large (hm : 0 < m) (he : 2 ^ 11 < e) :
    UnpackedFloat.ofScientific Format.binary64 m e = .infinity .positive := by
  unfold UnpackedFloat.ofScientific
  rw [dif_neg hm.ne', if_pos he]

theorem ofScientific_of_tiny (hm : 0 < m) (he : e < -(2 ^ 11 + (m.log2 : ℤ))) :
    UnpackedFloat.ofScientific Format.binary64 m e = .zero .positive := by
  have hsmall : ¬ 2 ^ 11 < e := by omega
  unfold UnpackedFloat.ofScientific
  rw [dif_neg hm.ne', if_neg hsmall, if_pos he]

/-! ## All others -/

theorem rounds_ofScientific (hm : 0 < m) (hlarge : ¬ 2 ^ 11 < e)
    (hsmall : ¬ e < -(2 ^ 11 + (m.log2 : ℤ))) :
    Rounds (UnpackedFloat.ofScientific Format.binary64 m e) (m * 10 ^ e) := by
  have hbits : Format.binary64.mantissaBits = 53 := rfl
  unfold UnpackedFloat.ofScientific
  rw [dif_neg hm.ne', if_neg hlarge, if_neg (by simpa using hsmall)]
  split_ifs with he
  · -- The digits are shifted up first, so that the product has enough of them.
    have hten : 0 < 10 ^ e.toNat := Nat.pow_pos (by norm_num)
    have hshift : 0 < m <<< Format.binary64.mantissaBits := by
      rw [Nat.shiftLeft_eq]
      positivity
    have hle : -(Format.binary64.mantissaBits : ℤ) + 0 ≤
        target (m <<< Format.binary64.mantissaBits * 10 ^ e.toNat)
          (-(Format.binary64.mantissaBits : ℤ) + 0) := by
      have hdigits : 2 ^ 53 ≤ m <<< Format.binary64.mantissaBits * 10 ^ e.toNat := by
        rw [hbits, Nat.shiftLeft_eq]
        exact (Nat.le_mul_of_pos_left _ hm).trans (Nat.le_mul_of_pos_right _ hten)
      have := (Nat.le_log2 (by omega)).2 hdigits
      rw [target_eq]
      omega
    have h := rounds_mul_finite .positive .positive hshift hten hle
    have hvalue := shiftLeft_mul_two_zpow m 0 Format.binary64.mantissaBits
    rw [zero_sub, zpow_zero, mul_one] at hvalue
    have hpower : ((10 ^ e.toNat : ℕ) : ℚ) * 2 ^ (0 : ℤ) = 10 ^ e := by
      rw [zpow_zero, mul_one, Nat.cast_pow, ← zpow_natCast, Int.toNat_of_nonneg he]
      norm_num
    rw [withSign, withSign, hvalue, hpower] at h
    exact h
  · have hten : 0 < 10 ^ (-e).toNat := Nat.pow_pos (by norm_num)
    have hpower : ((10 ^ (-e).toNat : ℕ) : ℚ) = (10 ^ e)⁻¹ := by
      have hneg : e = -((-e).toNat : ℤ) := by omega
      conv_rhs => rw [hneg, zpow_neg, inv_inv, zpow_natCast]
      push_cast
      rfl
    have hm' : value? (.finite .positive m 0 hm) = some (m : ℚ) := by simp [value?, withSign]
    have hn : value? (.finite .positive (10 ^ (-e).toNat) 0 hten) = some (10 ^ e : ℚ)⁻¹ := by
      rw [value?, hpower]
      simp [withSign]
    have h := rounds_div hm' hn (inv_ne_zero (ten_zpow_pos e).ne')
    rwa [div_inv_eq_mul] at h

/-- **A decimal becomes the nearest float.** -/
theorem isNearest_toFloat (d : Decimal) : IsNearest d.toFloat d.value := by
  obtain ⟨m, e⟩ := d
  rw [Decimal.toFloat, Decimal.value]
  simp only
  rcases Nat.eq_zero_or_pos m with rfl | hm
  · rw [Nat.cast_zero, zero_mul]
    exact (rounds_zero .positive).isNearest
  · have hpos : 0 < (m : ℚ) * 10 ^ e := mul_pos (by exact_mod_cast hm) (ten_zpow_pos e)
    by_cases hlarge : 2 ^ 11 < e
    · have hbound := floatBound_le_nearestFloat hm hlarge
      rw [IsNearest, if_neg (not_lt.2 (hbound.trans (le_abs_self _))), signOf,
        if_neg (not_lt.2 hpos.le), Float.Model.ofScientific, ofScientific_of_large hm hlarge]
      exact unpack_pack_infinity .positive
    · by_cases hsmall : e < -(2 ^ 11 + (m.log2 : ℤ))
      · have hzero := nearestFloat_of_tiny hpos (tiny_of_exponent hsmall)
        have hfits : (0 : ℚ) < floatBound := two_zpow_pos 1024
        rw [IsNearest, hzero, abs_zero, if_pos hfits, rat?,
          Float.Model.ofScientific, ofScientific_of_tiny hm hsmall,
          unpack_ofModel_pack (stored_zero _), value?]
      · exact (rounds_ofScientific hm hlarge hsmall).isNearest

/-! ## Signs -/

theorem isNegative_of_rounds {u : UnpackedFloat} (h : Rounds u v) (hv : 0 < v) :
    isNegative (.ofModel (.pack u)) = false := by
  obtain ⟨s, hmagnitude, hs⟩ := h
  have hsign : s = .positive := (hs hv.ne').trans (if_neg (not_lt.2 hv.le))
  subst hsign
  unfold isNegative
  rcases hmagnitude with ⟨rfl, -⟩ | ⟨m, e, hm, rfl, hcanonical, -⟩
  · rw [unpack_ofModel_pack (stored_zero _)]
    rfl
  · by_cases he : e ≤ 971
    · rw [unpack_ofModel_pack (stored_finite hcanonical he)]
      rfl
    · have hinf : unpack (.ofModel (.pack (.finite .positive m e hm))) = .infinity .positive :=
        unpack_pack_overflow hm hcanonical (by omega)
      rw [hinf]
      rfl

/-- No decimal becomes a float with a minus sign. -/
theorem isNegative_toFloat (d : Decimal) : isNegative d.toFloat = false := by
  obtain ⟨m, e⟩ := d
  rcases Nat.eq_zero_or_pos m with rfl | hm
  · rw [isNegative, unpack_toFloat_of_zero rfl]
    rfl
  · have hpos : 0 < (m : ℚ) * 10 ^ e := mul_pos (by exact_mod_cast hm) (ten_zpow_pos e)
    by_cases hlarge : 2 ^ 11 < e
    · have hinf : unpack (Decimal.mk m e).toFloat = .infinity .positive := by
        rw [Decimal.toFloat, Float.Model.ofScientific, ofScientific_of_large hm hlarge]
        exact unpack_pack_infinity .positive
      rw [isNegative, hinf]
      rfl
    · by_cases hsmall : e < -(2 ^ 11 + (m.log2 : ℤ))
      · have hzero : unpack (Decimal.mk m e).toFloat = .zero .positive := by
          rw [Decimal.toFloat, Float.Model.ofScientific, ofScientific_of_tiny hm hsmall,
            unpack_ofModel_pack (stored_zero _)]
        rw [isNegative, hzero]
        rfl
      · exact isNegative_of_rounds (rounds_ofScientific hm hlarge hsmall) hpos

theorem isNaN_toFloat (d : Decimal) : d.toFloat.isNaN = false := by
  rcases (isNearest_toFloat d).cases with ⟨a, ha⟩ | ⟨s, hs⟩
  · exact isNaN_of_rat? ha
  · have hmodel : d.toFloat.isNaN = (unpack d.toFloat).isNaN := rfl
    rw [hmodel, hs]
    rfl

theorem isNegative_neg (h : x.isNaN = false) : isNegative (-x) = !isNegative x := by
  have hmodel : x.isNaN = (unpack x).isNaN := rfl
  rw [hmodel] at h
  unfold isNegative
  rw [unpack_neg]
  cases hx : unpack x with
  | notANumber =>
    rw [hx] at h
    cases h
  | infinity s => cases s <;> rfl
  | zero s => cases s <;> rfl
  | finite s m e hm => cases s <;> rfl

end Transect
