import Mathlib.Algebra.Order.Floor.Semifield
import Transect.Proofs.Decimal.Shortest
import Transect.Proofs.Float.Size
import Transect.Rounding

/-!
# Half-up rounding

As long as the power of ten is exact, a magnitude is the shortest decimal rounded half up, or the
largest count if that does not fit. The digits and the fallback meet without a gap, so a larger
float never gets a smaller count.
-/

namespace Transect

open Float.Model
open Float.Model.UnpackedFloat

/-! ## Nearest whole numbers -/

/-- The nearest whole number. A half goes up. -/
def halfUp (v : ℚ) : ℕ := ⌊v + 1 / 2⌋₊

variable {v w a : ℚ} {n d : ℕ} {x y : Float} {s : Decimal}

theorem halfUp_mono (h : v ≤ w) : halfUp v ≤ halfUp w :=
  Nat.floor_le_floor (by linarith)

theorem halfUp_natCast (n : ℕ) : halfUp n = n := by
  rw [halfUp, Nat.floor_eq_iff (by positivity)]
  constructor <;> linarith

theorem halfUp_div (n : ℕ) {p : ℕ} (hp : 0 < p) : halfUp (n / p) = (2 * n + p) / (2 * p) := by
  have hp' : (p : ℚ) ≠ 0 := by exact_mod_cast hp.ne'
  have heq : (n : ℚ) / p + 1 / 2 = ((2 * n + p : ℕ) : ℚ) / (2 * p : ℕ) := by
    push_cast
    field_simp
  rw [halfUp, heq, Nat.floor_div_eq_div]

theorem lt_halfUp_iff : n < halfUp v ↔ (n : ℚ) + 1 / 2 ≤ v := by
  rw [halfUp, ← Nat.succ_le_iff, Nat.le_floor_iff' (Nat.succ_ne_zero n)]
  push_cast
  constructor <;> intro h <;> linarith

theorem Decimal.nearest_eq (s : Decimal) : s.nearest = halfUp s.value := by
  unfold nearest value
  split_ifs with h
  · obtain ⟨k, hk⟩ := Int.eq_ofNat_of_zero_le h
    rw [hk, Int.toNat_natCast, zpow_natCast]
    exact_mod_cast (halfUp_natCast (s.digits * 10 ^ k)).symm
  · have hexp : s.exponent = -(s.places : ℤ) := by
      unfold places
      omega
    have hpow : Nat.pow 10 s.places = 10 ^ s.places := rfl
    rw [hexp, zpow_neg, zpow_natCast, ← div_eq_mul_inv, hpow]
    exact_mod_cast (halfUp_div s.digits (by positivity : 0 < 10 ^ s.places)).symm

theorem Binary.nearest_eq (b : Binary) : b.nearest = halfUp (b.mantissa * 2 ^ b.exponent) := by
  unfold nearest
  split_ifs with h
  · obtain ⟨k, hk⟩ := Int.eq_ofNat_of_zero_le h
    rw [hk, Int.toNat_natCast, zpow_natCast]
    exact_mod_cast (halfUp_natCast (b.mantissa * 2 ^ k)).symm
  · have hexp : b.exponent = -((-b.exponent).toNat : ℤ) := by omega
    have hpow : Nat.pow 2 (-b.exponent).toNat = 2 ^ (-b.exponent).toNat := rfl
    conv_rhs => rw [hexp, zpow_neg, zpow_natCast, ← div_eq_mul_inv]
    rw [hpow]
    exact_mod_cast (halfUp_div b.mantissa (by positivity : 0 < 2 ^ (-b.exponent).toNat)).symm

theorem Decimal.shift_value (s : Decimal) (d : ℕ) : (s.shift d).value = s.value * 10 ^ d := by
  rw [value, value, shift, ten_zpow_add, zpow_natCast, mul_assoc]

/-! ## Powers of ten -/

theorem isFraction_ten_pow (h : d ≤ 22) : IsFraction (10 ^ d) := by
  refine ⟨5 ^ d, d, ?_, by omega, ?_⟩
  · rw [abs_of_nonneg (by positivity)]
    calc (5 : ℤ) ^ d ≤ 5 ^ 22 := pow_le_pow_right₀ (by norm_num) h
      _ ≤ 2 ^ 53 := by norm_num
  · rw [zpow_natCast]
    push_cast
    rw [← mul_pow]
    norm_num

theorem rat?_ten : rat? 10 = some 10 := by
  have h : unpack 10 = .finite .positive 5629499534213120 (-49) (by norm_num) := rfl
  rw [rat?, h, value?, withSign]
  norm_num

theorem rat?_one : rat? 1 = some 1 := by
  have h : unpack 1 = .finite .positive 4503599627370496 (-52) (by norm_num) := rfl
  rw [rat?, h, value?, withSign]
  norm_num

/-- Repeated multiplication is exact as long as the powers are fractions. -/
theorem rat?_powerOfTen (h : d ≤ 22) : rat? (powerOfTen d) = some (10 ^ d) := by
  rw [powerOfTen, Nat.min_eq_left (by omega)]
  induction d with
  | zero => exact rat?_one
  | succ d ih =>
    have hprod := isNearest_mul (ih (by omega)) rat?_ten
    rw [← pow_succ] at hprod
    have hfraction := isFraction_ten_pow h
    have hsmall : |(10 : ℚ) ^ (d + 1)| ≤ 2 ^ (970 : ℤ) := by
      rw [abs_of_nonneg (by positivity)]
      calc (10 : ℚ) ^ (d + 1) ≤ 10 ^ 22 := pow_le_pow_right₀ (by norm_num) h
        _ ≤ 2 ^ (100 : ℤ) := by norm_num
        _ ≤ 2 ^ (970 : ℤ) := two_zpow_le (by norm_num)
    have := hprod.rat?_of_abs_le hsmall
    rw [hfraction.nearestFloat_eq] at this
    rwa [List.replicate_succ', List.foldl_append]

/-! ## Counts -/

theorem maxCount_lt_halfUp_iff : maxCount < halfUp v ↔ 2 ^ 63 - 1 / 2 ≤ v := by
  rw [lt_halfUp_iff]
  norm_num [maxCount]

theorem units?_eq (s : Decimal) (d : ℕ) :
    s.units? d = if halfUp (s.value * 10 ^ d) ≤ maxCount then some (halfUp (s.value * 10 ^ d))
      else none := by
  unfold Decimal.units?
  by_cases hzero : s.digits = 0
  · have hvalue : s.value * 10 ^ d = (0 : ℕ) := by simp [Decimal.value, hzero]
    rw [if_pos hzero, hvalue, halfUp_natCast, if_pos (Nat.zero_le _)]
  · rw [if_neg hzero]
    by_cases hbig : 19 ≤ s.exponent + d
    · have hdigits : (1 : ℚ) ≤ s.digits := by exact_mod_cast Nat.pos_of_ne_zero hzero
      have hlarge : (2 : ℚ) ^ 63 - 1 / 2 ≤ s.value * 10 ^ d := by
        rw [← Decimal.shift_value]
        calc (2 : ℚ) ^ 63 - 1 / 2 ≤ 1 * 10 ^ (19 : ℤ) := by norm_num
          _ ≤ s.digits * 10 ^ (s.exponent + d) :=
            mul_le_mul hdigits (zpow_le_zpow_right₀ (by norm_num) hbig) (ten_zpow_pos 19).le
              (Nat.cast_nonneg _)
      rw [if_pos hbig, if_neg (not_le.2 (maxCount_lt_halfUp_iff.2 hlarge))]
    · rw [if_neg hbig]
      simp only [Decimal.nearest_eq, Decimal.shift_value]

theorem nearestWithin_of_infinite (hx : size? x = some ⊤) (n : ℕ) : nearestWithin 0 n x = n := by
  rw [size?_eq_top_iff] at hx
  simp [nearestWithin, nearest?, hx, limit]

theorem nearest?_of_finite (hx : size? x = some (a : WithTop ℚ)) :
    nearest? x = some (halfUp a : ℤ) := by
  obtain ⟨ha, ha0⟩ := rat?_of_size? hx
  rcases rat?_cases ha with ⟨t, hu, rfl⟩ | ⟨t, m, e, hm, hu, -, -, rfl⟩
  · have hzero : halfUp 0 = 0 := by exact_mod_cast halfUp_natCast 0
    simp [nearest?, hu, hzero]
  · cases t with
    | negative => simp [size?, hu] at hx
    | positive => simp [nearest?, hu, Binary.nearest_eq, Sign.apply, withSign]

theorem nearestWithin_of_finite (hx : size? x = some (a : WithTop ℚ)) (n : ℕ) :
    nearestWithin 0 n x = min n (halfUp a) := by
  simp only [nearestWithin, nearest?_of_finite hx, Option.elim_some, clamp]
  omega

/-- Close below `2 ^ 63` there is no float, so what is close is rounded up. -/
theorem two_pow_le_nearestFloat (hv : 2 ^ 63 - 400 ≤ v) : 2 ^ 63 ≤ nearestFloat v := by
  have hgrid : gridExponent (2 ^ 63 - 400) = 10 := by
    have h := gridExponent_eq_target (m := 2 ^ 63 - 400) (e := 0) (by norm_num) le_rfl (by linarith)
    have htarget : target (2 ^ 63 - 400) 0 = 10 := by decide
    rw [htarget] at h
    norm_num at h ⊢
    exact h
  have hround := roundEven_intCast_add (2 ^ 53 - 1) (f := 1 - 400 / 1024) (by norm_num)
    (by norm_num)
  have hvalue : nearestFloat (2 ^ 63 - 400) = 2 ^ 63 := by
    rw [nearestFloat, hgrid]
    have hdiv : ((2 : ℚ) ^ 63 - 400) / 2 ^ (10 : ℤ) =
        ((2 ^ 53 - 1 : ℤ) : ℚ) + (1 - 400 / 1024) := by
      norm_num
    rw [hdiv, hround]
    norm_num
  rw [← hvalue]
  exact nearestFloat_mono hv

theorem nearestWithin_of_large (h : IsNearest x v) (hv : 2 ^ 63 - 400 ≤ v) :
    nearestWithin 0 maxCount x = maxCount := by
  have hsize := h.size?_eq (le_trans (by norm_num) hv)
  unfold roundedSize at hsize
  split_ifs at hsize
  · have hlarge := maxCount_lt_halfUp_iff.2 (le_trans (by norm_num) (two_pow_le_nearestFloat hv))
    rw [nearestWithin_of_finite hsize]
    omega
  · exact nearestWithin_of_infinite hsize maxCount

/-! ## The way from the digits to the fallback -/

variable {m : ℕ} {e : ℤ} {tie : Tie}

/-- No power of two times an exact power of ten is this close below `2 ^ 63`. -/
theorem two_pow_mul_ten_pow_not_close (hd : d ≤ 22) (hlow : 2 ^ 63 - 808 ≤ (2 : ℚ) ^ e * 10 ^ d) :
    2 ^ 63 - 400 ≤ (2 : ℚ) ^ e * 10 ^ d := by
  have hsplit : (2 : ℚ) ^ e * 10 ^ d = 5 ^ d * 2 ^ (e + d) := by
    rw [two_zpow_add, zpow_natCast, show (10 : ℚ) = 5 * 2 by norm_num, mul_pow]
    ring
  rw [hsplit] at hlow ⊢
  have hfive : (5 : ℚ) ^ d ≤ 5 ^ 22 := pow_le_pow_right₀ (by norm_num) hd
  have hexp : 0 ≤ e + d := by
    by_contra hneg
    have hpow : (2 : ℚ) ^ (e + d) ≤ 2 ^ (0 : ℤ) := two_zpow_le (by omega)
    rw [zpow_zero] at hpow
    have := mul_le_mul hfive hpow (two_zpow_pos _).le (by norm_num)
    norm_num at this hlow
    linarith
  obtain ⟨j, hj⟩ := Int.eq_ofNat_of_zero_le hexp
  rw [hj, zpow_natCast] at hlow ⊢
  by_contra hhigh
  have hlow' : 2 ^ 63 - 808 ≤ 5 ^ d * 2 ^ j := by
    have : ((2 ^ 63 - 808 : ℕ) : ℚ) ≤ ((5 ^ d * 2 ^ j : ℕ) : ℚ) := by
      push_cast
      norm_num at hlow ⊢
      exact hlow
    exact_mod_cast this
  have hhigh' : 5 ^ d * 2 ^ j < 2 ^ 63 - 400 := by
    have : ((5 ^ d * 2 ^ j : ℕ) : ℚ) < ((2 ^ 63 - 400 : ℕ) : ℚ) := by
      push_cast
      norm_num at hhigh ⊢
      exact hhigh
    exact_mod_cast this
  have hj63 : j < 63 := by
    by_contra hbig
    have h2 : 2 ^ 63 ≤ 2 ^ j := Nat.pow_le_pow_right two_pos (by omega)
    have h5 : 1 ≤ 5 ^ d := Nat.one_le_pow _ _ (by norm_num)
    have := Nat.mul_le_mul h5 h2
    omega
  have hnone : ∀ d < 23, ∀ j < 63,
      ¬ (2 ^ 63 - 808 ≤ 5 ^ d * 2 ^ j ∧ 5 ^ d * 2 ^ j < 2 ^ 63 - 400) := by
    decide +kernel
  exact hnone d (by omega) j hj63 ⟨hlow', hhigh'⟩

/-- A unit of the last digit of a float that is no count too large. -/
theorem unit_le (h : Canonical m e) (hd : d ≤ 22) (hsmall : (m : ℚ) * 2 ^ e * 10 ^ d ≤ 2 ^ 63) :
    (2 : ℚ) ^ e * 10 ^ d ≤ 2 ^ 11 := by
  have hpos : 0 < (2 : ℚ) ^ e * 10 ^ d := mul_pos (two_zpow_pos e) (by positivity)
  rcases h.normal with hnormal | hmin
  · have hm : (2 : ℚ) ^ 52 ≤ m := by exact_mod_cast hnormal
    rw [mul_assoc] at hsmall
    nlinarith
  · have hten : (10 : ℚ) ^ d ≤ 2 ^ 80 := by
      calc (10 : ℚ) ^ d ≤ 10 ^ 22 := pow_le_pow_right₀ (by norm_num) hd
        _ ≤ 2 ^ 80 := by norm_num
    have htwo : (2 : ℚ) ^ e ≤ 2 ^ (-80 : ℤ) := two_zpow_le (by omega)
    calc (2 : ℚ) ^ e * 10 ^ d ≤ 2 ^ (-80 : ℤ) * 2 ^ 80 :=
          mul_le_mul htwo hten (by positivity) (by positivity)
      _ ≤ 2 ^ 11 := by norm_num

theorem exists_shifted_eq {k : ℕ} (h : (k : ℤ) ≤ s.exponent + d) :
    ∃ q : ℕ, s.value * 10 ^ d = ((10 ^ k * q : ℕ) : ℚ) := by
  obtain ⟨n, hn⟩ := Int.eq_ofNat_of_zero_le (sub_nonneg.2 h)
  have hexp : (s.shift d).exponent = k + n := by
    rw [← hn]
    exact (add_sub_cancel _ _).symm
  refine ⟨s.digits * 10 ^ n, ?_⟩
  rw [← Decimal.shift_value, Decimal.value, hexp, ten_zpow_add, zpow_natCast, zpow_natCast]
  push_cast
  rw [mul_left_comm]
  rfl

/-- A decimal with three places to spare that is only just too large has exactly three. -/
theorem few_places_of_close (hlow : 2 ^ 63 - 1 / 2 ≤ s.value * 10 ^ d)
    (hhigh : s.value * 10 ^ d < 2 ^ 63 + 624) (hplaces : 3 ≤ s.exponent + d) :
    s.exponent + d = 3 ∧ s.value * 10 ^ d = 2 ^ 63 + 192 := by
  obtain ⟨q, hq⟩ := exists_shifted_eq (k := 3) hplaces
  rw [hq] at hlow hhigh ⊢
  have hlow' : 2 ^ 63 ≤ 10 ^ 3 * q := by
    have : ((2 ^ 63 - 1 : ℕ) : ℚ) < ((10 ^ 3 * q : ℕ) : ℚ) := lt_of_lt_of_le (by norm_num) hlow
    have : 2 ^ 63 - 1 < 10 ^ 3 * q := by exact_mod_cast this
    omega
  have hhigh' : 10 ^ 3 * q < 2 ^ 63 + 624 := by exact_mod_cast hhigh
  have hvalue : 10 ^ 3 * q = 2 ^ 63 + 192 := by omega
  refine ⟨?_, by rw [hvalue]; norm_num⟩
  by_contra hmore
  obtain ⟨r, hr⟩ := exists_shifted_eq (k := 4) (show ((4 : ℕ) : ℤ) ≤ s.exponent + d by omega)
  have hsame : 10 ^ 3 * q = 10 ^ 4 * r := by exact_mod_cast hq.symm.trans hr
  omega

/-- **The digits and the fallback meet.** A float whose decimal is too large for a count is so
large itself that the fallback gives the largest count. -/
theorem large_of_shortest_large (hm : 0 < m) (h : Canonical m e) (he : e ≤ 971) (hd : d ≤ 22)
    (hlarge : 2 ^ 63 - 1 / 2 ≤ (shortest Format.binary64 tie m e).value * 10 ^ d) :
    2 ^ 63 - 400 ≤ (m : ℚ) * 2 ^ e * 10 ^ d := by
  by_contra hsmall
  rw [not_le] at hsmall
  have hten : (0 : ℚ) < 10 ^ d := by positivity
  have hhigh := (inCell_shortest hm h.exponent he tie).high
  obtain ⟨hunit, hhalf⟩ := abs_shortest_sub_le hm h.exponent he tie
  generalize shortest Format.binary64 tie m e = s at *
  have hplace : (10 : ℚ) ^ s.exponent * 10 ^ d = 10 ^ (s.exponent + d) := by
    rw [ten_zpow_add, zpow_natCast]
  -- How far the decimal is above the float, both shifted.
  have hscale (r : ℚ) : r * |s.value - m * 2 ^ e| ≤ 10 ^ s.exponent → 0 < r →
      r * (s.value * 10 ^ d) ≤ r * (m * 2 ^ e * 10 ^ d) + 10 ^ (s.exponent + d) := by
    intro hr hpos
    have hle := mul_le_mul_of_nonneg_left (le_abs_self (s.value - m * 2 ^ e)) hpos.le
    have := mul_le_mul_of_nonneg_right (hle.trans hr) hten.le
    rw [hplace] at this
    linarith
  rcases lt_or_ge (s.exponent + d) 3 with hfew | hmany
  · -- A unit of the last digit of the decimal is at most a hundred.
    have hpow : (10 : ℚ) ^ (s.exponent + d) ≤ 10 ^ (2 : ℤ) :=
      zpow_le_zpow_right₀ (by norm_num) (by omega)
    have := hscale 1 (by rwa [one_mul]) one_pos
    norm_num at hpow
    linarith
  · -- The decimal is at most half a unit of the last binary digit above the float.
    have hnear : s.value * 10 ^ d < 2 ^ 63 + 624 := by
      have hgap := unit_le h hd (by linarith)
      have := mul_le_mul_of_nonneg_right hhigh hten.le
      linarith
    obtain ⟨hthree, hvalue⟩ := few_places_of_close hlarge hnear hmany
    rw [hvalue, hthree] at hscale
    by_cases hpower : m = 2 ^ 52
    · have hdist := hscale 1 (by rwa [one_mul]) one_pos
      have hmantissa : (m : ℚ) * 2 ^ e * 10 ^ d = 2 ^ (52 + e) * 10 ^ d := by
        rw [hpower, two_zpow_add]
        norm_num
      rw [hmantissa] at hdist hsmall
      have := two_pow_mul_ten_pow_not_close hd (e := 52 + e) (by norm_num at hdist ⊢; linarith)
      linarith
    · have hdist := hscale 2 (hhalf hpower) two_pos
      norm_num at hdist hsmall
      linarith

/-! ## Magnitudes -/

/-- The magnitude of a finite float is its decimal rounded, held at the largest count. -/
theorem magnitude_eq (hd : d ≤ 22) (hx : rat? x = some a) (hs : shortest? .up x = some s) :
    magnitude x d = min maxCount (halfUp (s.value * 10 ^ d)) := by
  unfold magnitude
  rw [hs, Option.bind_some, units?_eq]
  split_ifs with hfits
  · exact (Nat.min_eq_right hfits).symm
  · rw [not_le] at hfits
    rw [Nat.min_eq_left hfits.le]
    have hlarge := maxCount_lt_halfUp_iff.1 hfits
    rcases shortest?_cases hx .up with ⟨-, heq⟩ | ⟨m, e, hm, hcanonical, he, ha, heq⟩
    · rw [hs] at heq
      cases heq
      norm_num [Decimal.value] at hlarge
    · rw [hs] at heq
      cases heq
      have hproduct := isNearest_mul (rat?_abs hx) (rat?_powerOfTen hd)
      rw [ha] at hproduct
      rw [nearestWithin_of_large hproduct (large_of_shortest_large hm hcanonical he hd hlarge)]
      rfl

theorem magnitude_of_infinite (hd : d ≤ 22) (hx : size? x = some ⊤) : magnitude x d = maxCount := by
  have hinf := size?_eq_top_iff.1 hx
  have hshortest : shortest? .up x = none := by rw [shortest?, hinf]
  have habs : unpack x.abs = .infinity .positive := by
    rw [unpack_abs, hinf]
    rfl
  have hproduct := size?_infinity_mul habs (rat?_powerOfTen hd) (by positivity)
  unfold magnitude
  rw [hshortest, Option.bind_none, nearestWithin_of_infinite hproduct]
  rfl

theorem magnitude_le_maxCount {k : WithTop ℚ} (hd : d ≤ 22) (hx : size? x = some k) :
    magnitude x d ≤ maxCount := by
  rcases size?_cases hx with ⟨a, rfl, ha, -⟩ | ⟨rfl, -⟩
  · obtain ⟨s, hs⟩ := exists_shortest? ha .up
    rw [magnitude_eq hd ha hs]
    exact Nat.min_le_left _ _
  · exact (magnitude_of_infinite hd hx).le

/-- **A float of no smaller size has no smaller magnitude.** -/
theorem magnitude_mono {k l : WithTop ℚ} (hd : d ≤ 22) (hx : size? x = some k)
    (hy : size? y = some l) (hkl : k ≤ l) : magnitude x d ≤ magnitude y d := by
  rcases size?_cases hy with ⟨b, rfl, hb, hb0⟩ | ⟨rfl, -⟩
  · obtain ⟨a, rfl⟩ := WithTop.ne_top_iff_exists.1 (ne_top_of_le_ne_top WithTop.coe_ne_top hkl)
    obtain ⟨ha, ha0⟩ := rat?_of_size? hx
    have hab : |a| ≤ |b| := by
      rw [abs_of_nonneg ha0, abs_of_nonneg hb0]
      exact WithTop.coe_le_coe.1 hkl
    obtain ⟨s, hs⟩ := exists_shortest? ha .up
    obtain ⟨s', hs'⟩ := exists_shortest? hb .up
    have hvalue := mul_le_mul_of_nonneg_right (shortest?_mono ha hb hab hs hs')
      (by positivity : (0 : ℚ) ≤ 10 ^ d)
    have := halfUp_mono hvalue
    rw [magnitude_eq hd ha hs, magnitude_eq hd hb hs']
    omega
  · rw [magnitude_of_infinite hd hy]
    exact magnitude_le_maxCount hd hx

theorem eq_zero_of_isNegative {k : WithTop ℚ} (hx : size? x = some k) (hneg : isNegative x = true) :
    ∃ t, unpack x = .zero t := by
  unfold size? at hx
  unfold isNegative at hneg
  cases hu : unpack x with
  | notANumber => simp [hu] at hx
  | zero t => exact ⟨t, rfl⟩
  | infinity t | finite t m e hm =>
    cases t with
    | negative => simp [hu] at hx
    | positive =>
      rw [hu] at hneg
      exact absurd hneg Bool.false_ne_true

theorem quantize_eq {k : WithTop ℚ} (hd : d ≤ 22) (hx : size? x = some k) :
    quantize x d = magnitude x d := by
  unfold quantize
  split_ifs with hneg
  · -- Only a zero with a minus sign comes here, and its magnitude is zero.
    obtain ⟨t, ht⟩ := eq_zero_of_isNegative hx hneg
    have hvalue : rat? x = some 0 := by rw [rat?, ht, value?]
    have hshortest : shortest? .up x = some ⟨0, 0⟩ := by rw [shortest?, ht]
    rw [magnitude_eq hd hvalue hshortest]
    norm_num [Decimal.value, halfUp]
  · rfl

theorem quantize_mono {k l : WithTop ℚ} (hd : d ≤ 22) (hx : size? x = some k)
    (hy : size? y = some l) (hkl : k ≤ l) : quantize x d ≤ quantize y d := by
  rw [quantize_eq hd hx, quantize_eq hd hy]
  exact_mod_cast magnitude_mono hd hx hy hkl

end Transect
