import Transect.Json.Number
import Transect.Proofs.Decimal.Nearest

/-!
# JSON numbers are finite

The digits of a number are a finite float. Powers of ten that are divided by do not make it larger,
and a product that is infinite has no value.
-/

namespace Transect.Json

variable {f x : Float} {n : ℕ}

theorem collect_lt (h : n < wordBound) (cs : List Char) : (collect n cs).1 < wordBound := by
  induction cs generalizing n with
  | nil => exact h
  | cons c cs ih =>
    rw [collect]
    split_ifs with hnext
    · exact ih hnext
    · exact h

theorem isFinite_floatOfNat (h : n < wordBound) : (floatOfNat n).isFinite = true := by
  have hsmall : |(n : ℚ)| ≤ 2 ^ (64 : ℤ) := by
    rw [Nat.abs_cast]
    exact_mod_cast h.le
  exact isFinite_iff.2
    ⟨_, (isNearest_floatOfNat n).rat?_of_abs_le (hsmall.trans (two_zpow_le (by norm_num)))⟩

theorem ten_pow_maxPower_lt : (10 : ℚ) ^ maxPower + 2 ^ (970 : ℤ) < floatBound := by
  have hlt : 10 ^ maxPower + 2 ^ 970 < 2 ^ 1024 := by decide +kernel
  have hcast : ((10 ^ maxPower + 2 ^ 970 : ℕ) : ℚ) < ((2 ^ 1024 : ℕ) : ℚ) := Nat.cast_lt.2 hlt
  rwa [Nat.cast_add, Nat.cast_pow, Nat.cast_pow, Nat.cast_pow, Nat.cast_ofNat, Nat.cast_ofNat]
    at hcast

/-- The powers of ten that are used in one step. -/
theorem exists_rat?_tenTo (h : n ≤ maxPower) : ∃ t, rat? (tenTo n) = some t ∧ 1 ≤ t := by
  have hvalue : (Decimal.mk 1 n).value = 10 ^ n := by
    rw [Decimal.value, Nat.cast_one, one_mul, zpow_natCast]
  have hnearest := isNearest_toFloat (Decimal.mk 1 n)
  rw [hvalue] at hnearest
  have hone : (1 : ℚ) ≤ 10 ^ n := one_le_pow₀ (by norm_num)
  have hbound : |(10 ^ n : ℚ)| + 2 ^ (970 : ℤ) < floatBound := by
    rw [abs_of_nonneg (by positivity)]
    exact (add_le_add_left (pow_le_pow_right₀ (by norm_num) h) _).trans_lt ten_pow_maxPower_lt
  refine ⟨_, hnearest.rat?_eq hbound, ?_⟩
  have hfraction : IsFraction 1 := isFraction_two_zpow (e := 0) (by norm_num)
  exact hfraction.le_nearestFloat hone

theorem isFraction_abs {a : ℚ} (h : IsFraction a) : IsFraction |a| := by
  rcases abs_choice a with habs | habs
  · rwa [habs]
  · rw [habs]
    exact h.neg

theorem isFinite_div_tenTo (hf : f.isFinite = true) (h : n ≤ maxPower) :
    (f / tenTo n).isFinite = true := by
  obtain ⟨a, ha⟩ := isFinite_iff.1 hf
  obtain ⟨t, ht, hone⟩ := exists_rat?_tenTo h
  obtain ⟨hfraction, hbound⟩ := isFraction_of_rat? ha
  have hquotient : |a / t| ≤ |a| := by
    rw [abs_div, abs_of_pos (show 0 < t by linarith)]
    exact div_le_self (abs_nonneg a) hone
  have hnearest := isNearest_div ha ht (show t ≠ 0 by linarith)
  rw [IsNearest, if_pos] at hnearest
  · exact isFinite_iff.2 ⟨_, hnearest⟩
  · exact ((isFraction_abs hfraction).abs_nearestFloat_le hquotient).trans_lt hbound

theorem isFinite_divideByTens (hf : f.isFinite = true) (n : ℕ) :
    (divideByTens f n).isFinite = true := by
  induction n using Nat.strong_induction_on generalizing f with
  | _ n ih =>
    rw [divideByTens]
    split_ifs with hstep
    · exact isFinite_div_tenTo hf hstep
    · exact hf
    · have hpower : 0 < maxPower := by decide
      exact ih (n - maxPower) (by omega) (isFinite_div_tenTo hf le_rfl)

theorem isFinite_of_multiplyByTens? (hf : f.isFinite = true) (h : multiplyByTens? f n = some x) :
    x.isFinite = true := by
  unfold multiplyByTens? at h
  simp only at h
  split_ifs at h with hstep hinf
  · cases h
    obtain ⟨a, ha⟩ := isFinite_iff.1 hf
    obtain ⟨t, ht, -⟩ := exists_rat?_tenTo hstep
    rcases (isNearest_mul ha ht).cases with hfinite | ⟨s, hs⟩
    · exact isFinite_iff.2 hfinite
    · have hmodel : (f * tenTo n).isInf = (unpack (f * tenTo n)).isInf := rfl
      rw [hmodel, hs] at hinf
      exact absurd rfl hinf
  · cases h
    exact hf

theorem isFinite_of_scaleByTens? {e : ℤ} (hf : f.isFinite = true)
    (h : scaleByTens? f e = some x) : x.isFinite = true := by
  unfold scaleByTens? at h
  split_ifs at h
  · exact isFinite_of_multiplyByTens? hf h
  · cases h
    exact isFinite_divideByTens hf _

/-- **A number has a finite value or none.** -/
theorem isFinite_of_value? {literal : List Char} (h : value? literal = some x) :
    x.isFinite = true := by
  unfold value? Numeral.value? at h
  obtain ⟨f, hf, rfl⟩ := Option.map_eq_some_iff.1 h
  have hdigits := collect_lt (collect_lt (show 0 < wordBound by decide)
    (Numeral.ofLiteral literal).whole) (Numeral.ofLiteral literal).fraction
  have hfinite := isFinite_of_scaleByTens? (isFinite_floatOfNat hdigits) hf
  split_ifs
  · obtain ⟨a, ha⟩ := isFinite_iff.1 hfinite
    exact isFinite_iff.2 ⟨_, rat?_neg ha⟩
  · exact hfinite

end Transect.Json
