import Transect.Proofs.Decimal.Whole
import Transect.Proofs.Float.Whole
import Transect.Proofs.Rounding

/-!
# Rounding whole numbers

Rounding a whole number to any number of places gives the number back, as long as it fits into a
count with that many places. What does not fit is held at the largest count, and comes out smaller
than it went in.
-/

namespace Transect

open Float.Model
open Float.Model.UnpackedFloat

variable {x : Float} {n : ℤ} {d : ℕ}

/-! ## Powers of ten that are not exact -/

theorem powerOfTen_succ (h : d < 309) : powerOfTen (d + 1) = powerOfTen d * 10 := by
  rw [powerOfTen, powerOfTen, Nat.min_eq_left (by omega), Nat.min_eq_left (by omega),
    List.replicate_succ', List.foldl_append]
  rfl

theorem powerOfTen_of_large (h : 309 ≤ d) : powerOfTen (d + 1) = powerOfTen d := by
  rw [powerOfTen, powerOfTen, Nat.min_eq_right (by omega), Nat.min_eq_right (by omega)]

/-- The powers of ten beyond the exact ones do not fall below them. -/
theorem exists_size?_powerOfTen (d : ℕ) :
    ∃ k, size? (powerOfTen d) = some k ∧ ((10 ^ min d 22 : ℚ) : WithTop ℚ) ≤ k := by
  rcases Nat.le_total d 22 with hd | hd
  · rw [Nat.min_eq_left hd]
    exact ⟨_, size?_of_rat? (rat?_powerOfTen hd) (by positivity), le_rfl⟩
  · rw [Nat.min_eq_right hd]
    induction d, hd using Nat.le_induction with
    | base => exact ⟨_, size?_of_rat? (rat?_powerOfTen le_rfl) (by positivity), le_rfl⟩
    | succ d hd ih =>
      obtain ⟨k, hk, hle⟩ := ih
      rcases Nat.lt_or_ge d 309 with hlt | hlarge
      · rw [powerOfTen_succ hlt]
        rcases size?_cases hk with ⟨p, rfl, hp, hp0⟩ | ⟨rfl, hinf⟩
        · refine ⟨_, (isNearest_mul hp rat?_ten).size?_eq (by positivity), ?_⟩
          have hle : (10 : ℚ) ^ 22 ≤ p := WithTop.coe_le_coe.1 hle
          exact le_roundedSize (isFraction_ten_pow le_rfl) (by linarith)
        · exact ⟨⊤, size?_infinity_mul hinf rat?_ten (by norm_num), le_top⟩
      · rw [powerOfTen_of_large hlarge]
        exact ⟨k, hk, hle⟩

/-! ## Counts of whole numbers -/

theorem magnitude_floatOfInt (hn : n.natAbs < 2 ^ 53) (d : ℕ) :
    magnitude (floatOfInt n) d = min maxCount (n.natAbs * 10 ^ d) := by
  have hx := rat?_floatOfInt_of_small hn.le
  obtain ⟨s, hs⟩ := exists_shortest? hx .up
  have hvalue : s.value * 10 ^ d = ((n.natAbs * 10 ^ d : ℕ) : ℚ) := by
    rw [shortest?_value_of_intCast hx hn hs]
    push_cast
    rfl
  rcases Nat.lt_or_ge 22 d with hd | hd
  · unfold magnitude
    rw [hs, Option.bind_some, units?_eq, hvalue, halfUp_natCast]
    split_ifs with hfits
    · exact (Nat.min_eq_right hfits).symm
    · rw [Nat.min_eq_left (not_le.1 hfits).le]
      -- The number is not zero, so its product with a power of ten is too large.
      have hone : (1 : ℚ) ≤ |(n : ℚ)| := by
        have : n ≠ 0 := by
          rintro rfl
          simp at hfits
        exact_mod_cast Int.one_le_abs this
      obtain ⟨k, hk, hle⟩ := exists_size?_powerOfTen d
      rw [Nat.min_eq_right hd.le] at hle
      rcases size?_cases hk with ⟨p, rfl, hp, -⟩ | ⟨rfl, hinf⟩
      · have hle : (10 : ℚ) ^ 22 ≤ p := WithTop.coe_le_coe.1 hle
        have hlarge : 2 ^ 63 - 400 ≤ |(n : ℚ)| * p := by nlinarith
        rw [nearestWithin_of_large (isNearest_mul (rat?_abs hx) hp) hlarge]
        rfl
      · have hproduct := size?_mul_infinity (rat?_abs hx) (by linarith) hinf
        rw [nearestWithin_of_infinite hproduct]
        rfl
  · rw [magnitude_eq hd hx hs, hvalue, halfUp_natCast]

theorem quantize_floatOfInt (hn : n.natAbs < 2 ^ 53) (d : ℕ) :
    quantize (floatOfInt n) d = n.sign * min maxCount (n.natAbs * 10 ^ d) := by
  have hx := rat?_floatOfInt_of_small hn.le
  unfold quantize
  rw [magnitude_floatOfInt hn]
  rcases lt_trichotomy n 0 with hneg | rfl | hpos
  · rw [isNegative_of_neg hx (by exact_mod_cast hneg), if_pos rfl, Int.sign_eq_neg_one_of_neg hneg]
    push_cast
    ring
  · simp
  · rw [isNegative_of_pos hx (by exact_mod_cast hpos), if_neg Bool.false_ne_true,
      Int.sign_eq_one_of_pos hpos]
    push_cast
    ring

/-! ## Numbers that fit -/

/-- A number of sixteen bits that fits into a count stays a fraction with more places. -/
theorem isFraction_mul_ten_pow {n : ℕ} (hn : n ≤ 2 ^ 15) (hfits : n * 10 ^ d ≤ maxCount) :
    IsFraction ((n * 10 ^ d : ℕ) : ℚ) := by
  have hsplit : n * 10 ^ d = n * 5 ^ d * 2 ^ d := by
    rw [Nat.mul_assoc, ← Nat.mul_pow]
  have hdigits : n * 5 ^ d ≤ 2 ^ 53 := by
    rcases Nat.lt_or_ge d 10 with hd | hd
    · calc n * 5 ^ d ≤ 2 ^ 15 * 5 ^ 10 :=
            Nat.mul_le_mul hn (Nat.pow_le_pow_right (by norm_num) hd.le)
        _ ≤ 2 ^ 53 := by norm_num
    · have htwo : 2 ^ 10 ≤ 2 ^ d := Nat.pow_le_pow_right (by norm_num) hd
      have := Nat.mul_le_mul_left (n * 5 ^ d) htwo
      rw [hsplit] at hfits
      unfold maxCount at hfits
      omega
  have hcast : |((n * 5 ^ d : ℕ) : ℤ)| ≤ 2 ^ 53 := by
    rw [Nat.abs_cast]
    exact_mod_cast hdigits
  refine ⟨(n * 5 ^ d : ℕ), d, hcast, by omega, ?_⟩
  rw [hsplit, zpow_natCast]
  push_cast
  rfl

theorem places_of_fits (hn : n ≠ 0) (hfits : n.natAbs * 10 ^ d ≤ maxCount) : d ≤ 18 := by
  by_contra hd
  have hten : 10 ^ 19 ≤ 10 ^ d := Nat.pow_le_pow_right (by norm_num) (by omega)
  have := Nat.mul_le_mul (Int.natAbs_pos.2 hn) hten
  unfold maxCount at hfits
  omega

theorem natAbs_sign_mul (hn : n ≠ 0) (i : ℕ) : (n.sign * i).natAbs = i := by
  rw [Int.natAbs_mul, Int.natAbs_sign_of_ne_zero hn, Int.natAbs_natCast, one_mul]

/-- **What fits comes back.** -/
theorem roundTo_floatOfInt (hn : n.natAbs ≤ 2 ^ 15) (hfits : n.natAbs * 10 ^ d ≤ maxCount) :
    roundTo (floatOfInt n) d = floatOfInt n := by
  rw [roundTo, quantize_floatOfInt (by omega), Nat.min_eq_right hfits]
  rcases eq_or_ne n 0 with rfl | hne
  -- Zero fits with any number of places, so the power may be inexact or infinite here.
  · obtain ⟨k, hk, hle⟩ := exists_size?_powerOfTen d
    have hten : ((0 : ℚ) : WithTop ℚ) < (10 ^ min d 22 : ℚ) :=
      WithTop.coe_lt_coe.2 (by positivity)
    have hpos : 0 < k := hten.trans_le hle
    rw [Int.sign_zero, zero_mul]
    exact floatOfInt_zero_div hk hpos
  · have hd := places_of_fits hne hfits
    have hscaled : n.sign * (n.natAbs * 10 ^ d : ℕ) = n * 10 ^ d := by
      rw [Nat.cast_mul, ← mul_assoc, Int.sign_mul_natAbs]
      push_cast
      rfl
    have hsize : (n * 10 ^ d).natAbs = n.natAbs * 10 ^ d := by
      rw [Int.natAbs_mul, Int.natAbs_pow]
      rfl
    have hproduct : rat? (floatOfInt (n * 10 ^ d)) = some ((n * 10 ^ d : ℤ) : ℚ) := by
      apply rat?_floatOfInt_of_isFraction <;> rw [hsize]
      · exact isFraction_mul_ten_pow hn hfits
      · exact hfits.trans (by decide)
    have hx := rat?_floatOfInt_of_small (n := n) (by omega)
    have hfraction := (isFraction_of_rat? hx).1
    have hquotient : IsNearest (floatOfInt (n * 10 ^ d) / powerOfTen d) n := by
      have := isNearest_div hproduct (rat?_powerOfTen (show d ≤ 22 by omega)) (by positivity)
      rwa [Int.cast_mul, Int.cast_pow, Int.cast_ofNat, mul_div_cancel_right₀ _ (by positivity)]
        at this
    have hsmall : |(n : ℚ)| ≤ 2 ^ (970 : ℤ) := by
      have hn : |(n : ℚ)| ≤ 2 ^ (15 : ℤ) := by
        rw [← Int.cast_abs, ← Nat.cast_natAbs]
        exact_mod_cast hn
      exact hn.trans (two_zpow_le (by norm_num))
    have hrounded := hquotient.rat?_of_abs_le hsmall
    rw [hfraction.nearestFloat_eq] at hrounded
    rw [hscaled]
    exact eq_of_rat?_eq hrounded hx (by exact_mod_cast hne)

/-! ## Numbers that do not fit -/

theorem rat?_maxCount : rat? (floatOfNat maxCount) = some (2 ^ 63) := by
  have hvalue : nearestFloat maxCount = 2 ^ 63 := by
    apply le_antisymm
    · have hpower : IsFraction (2 ^ (63 : ℤ)) := isFraction_two_zpow (by norm_num)
      exact hpower.nearestFloat_le (by norm_num [maxCount])
    · exact two_pow_le_nearestFloat (by norm_num [maxCount])
  have hsmall : |(maxCount : ℚ)| ≤ 2 ^ (64 : ℤ) := by norm_num [maxCount]
  rw [← hvalue]
  exact (isNearest_floatOfNat maxCount).rat?_of_abs_le
    (hsmall.trans (two_zpow_le (by norm_num)))

theorem pos_of_large {n : ℕ} (hlarge : maxCount < n * 10 ^ d) : 0 < n := by
  rcases Nat.eq_zero_or_pos n with rfl | hpos
  · simp at hlarge
  · exact hpos

/-- The largest count with the places taken off again is well below the number. -/
theorem two_pow_div_le {n : ℕ} (hn : n ≤ 2 ^ 15) (hlarge : maxCount < n * 10 ^ d) {p : ℚ}
    (hp : 10 ^ min d 22 ≤ p) : 2 ^ 63 / p ≤ n - 1 / 16 := by
  have hpos : 0 < p := lt_of_lt_of_le (by positivity) hp
  have hn1 : (1 : ℚ) ≤ n := by exact_mod_cast pos_of_large hlarge
  rw [div_le_iff₀ hpos]
  -- Below nineteen places the next whole number is the closest that the count can come.
  rcases Nat.lt_or_ge d 19 with hd | hd
  · rw [Nat.min_eq_left (by omega)] at hp
    have hscaled : 16 * 2 ^ 63 + 10 ^ d ≤ 16 * n * 10 ^ d := by
      unfold maxCount at hlarge
      interval_cases d <;> omega
    have hscaled : 16 * 2 ^ 63 + (10 : ℚ) ^ d ≤ 16 * n * 10 ^ d := by exact_mod_cast hscaled
    nlinarith
  · have hten : (10 : ℚ) ^ 19 ≤ p :=
      (pow_le_pow_right₀ (by norm_num) (by omega : 19 ≤ min d 22)).trans hp
    nlinarith

/-- Dividing by a power of ten, exact or not, keeps the largest count below the number. -/
theorem abs_lt_of_div_powerOfTen {w v : ℚ} {n : ℕ} (hx : rat? x = some w) (hw : |w| = 2 ^ 63)
    (hn : n ≤ 2 ^ 15) (hlarge : maxCount < n * 10 ^ d)
    (hv : rat? (x / powerOfTen d) = some v) : |v| < n := by
  have hn1 := pos_of_large hlarge
  obtain ⟨k, hk, hle⟩ := exists_size?_powerOfTen d
  rcases size?_cases hk with ⟨p, rfl, hp, -⟩ | ⟨rfl, hinf⟩
  · have hle : 10 ^ min d 22 ≤ p := WithTop.coe_le_coe.1 hle
    have hpos : 0 < p := lt_of_lt_of_le (by positivity) hle
    have hbound : |w / p| ≤ n - 1 / 16 := by
      rw [abs_div, hw, abs_of_pos hpos]
      exact two_pow_div_le hn hlarge hle
    have hsmall : (n - 1 / 16 : ℚ) ≤ 2 ^ (970 : ℤ) := by
      have hn : (n : ℚ) ≤ 2 ^ (15 : ℤ) := by exact_mod_cast hn
      calc (n - 1 / 16 : ℚ) ≤ n := sub_le_self _ (by norm_num)
        _ ≤ 2 ^ (970 : ℤ) := hn.trans (two_zpow_le (by norm_num))
    have hfraction : IsFraction (n - 1 / 16) := by
      refine ⟨16 * n - 1, -4, ?_, by norm_num, ?_⟩
      · rw [abs_of_nonneg (by omega)]
        omega
      · push_cast
        norm_num
        ring
    have hrounded := (isNearest_div hx hp hpos.ne').rat?_of_abs_le (hbound.trans hsmall)
    obtain rfl := Option.some.inj (hrounded.symm.trans hv)
    have := hfraction.abs_nearestFloat_le hbound
    linarith
  · rw [eq_zero_of_isNothing (isNothing_div_infinity hinf x) hv, abs_zero]
    exact_mod_cast hn1

/-- **What does not fit comes out smaller.** -/
theorem roundTo_floatOfInt_of_large (hn : n.natAbs ≤ 2 ^ 15)
    (hlarge : maxCount < n.natAbs * 10 ^ d) :
    roundTo (floatOfInt n) d = floatOfInt (n.sign * maxCount) / powerOfTen d ∧
      roundTo (floatOfInt n) d ≠ floatOfInt n := by
  have hround : roundTo (floatOfInt n) d = floatOfInt (n.sign * maxCount) / powerOfTen d := by
    rw [roundTo, quantize_floatOfInt (by omega), Nat.min_eq_left hlarge.le]
  refine ⟨hround, fun hsame => ?_⟩
  have hne : n ≠ 0 := Int.natAbs_pos.1 (pos_of_large hlarge)
  have hx := rat?_floatOfInt_of_small (n := n) (by omega)
  rw [← hsame, hround] at hx
  obtain ⟨w, hw, hsize⟩ : ∃ w, rat? (floatOfInt (n.sign * maxCount)) = some w ∧ |w| = 2 ^ 63 := by
    refine ⟨_, rat?_floatOfInt (by rw [natAbs_sign_mul hne]; exact rat?_maxCount), ?_⟩
    split_ifs <;> norm_num
  have hlt := abs_lt_of_div_powerOfTen hw hsize hn hlarge hx
  rw [← Int.cast_abs, Nat.cast_natAbs] at hlt
  exact lt_irrefl _ hlt

end Transect
