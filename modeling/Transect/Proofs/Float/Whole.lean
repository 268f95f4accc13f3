import Transect.Proofs.Decimal.Shortest
import Transect.Proofs.Float.Size

/-!
# Whole numbers as floats

A float is known by the number that it stands for, unless that is zero. A whole number that is a
binary fraction of 53 digits is turned into exactly the float that stands for it.
-/

namespace Transect

open Float.Model
open Float.Model.UnpackedFloat

variable {x y : Float} {a : ℚ} {n : ℤ} {k : WithTop ℚ}

/-! ## Equal floats -/

theorem eq_of_unpack_eq (h : unpack x = unpack y) : x = y := by
  obtain ⟨⟨bits, hbits⟩⟩ := x
  obtain ⟨⟨bits', hbits'⟩⟩ := y
  have hsame : bits.toBitVec = bits'.toBitVec := (unpack_inj_of_valid hbits hbits').1 h
  obtain rfl := UInt64.toBitVec_inj.1 hsame
  rfl

theorem eq_of_rat?_eq (hx : rat? x = some a) (hy : rat? y = some a) (ha : a ≠ 0) : x = y := by
  apply eq_of_unpack_eq
  rcases rat?_cases hx with ⟨-, -, rfl⟩ | ⟨s, m, e, hm, hu, hcanonical, -, rfl⟩
  · exact absurd rfl ha
  · have hpos := mul_two_zpow_pos hm e
    rcases rat?_cases hy with ⟨-, -, hzero⟩ | ⟨t, n, f, hn, hw, hcanonical', -, hsame⟩
    · exact absurd hzero ha
    · have hpos' := mul_two_zpow_pos hn f
      obtain rfl : s = t := by rw [← signOf_withSign s hpos, hsame, signOf_withSign t hpos']
      have habs : |_| = |_| := congrArg (|·|) hsame
      rw [abs_withSign s hpos.le, abs_withSign s hpos'.le] at habs
      obtain ⟨rfl, rfl⟩ := hcanonical.eq_of_eq hcanonical' habs
      rw [hu, hw]

/-- A number becomes one float only, but a zero may have either sign. -/
theorem IsNearest.unique (hx : IsNearest x a) (hy : IsNearest y a)
    (hsign : isNegative x = isNegative y) : x = y := by
  unfold IsNearest at hx hy
  split_ifs at hx hy
  · by_cases hzero : nearestFloat a = 0
    · rw [hzero] at hx hy
      obtain ⟨s, hs⟩ := exists_unpack_zero hx
      obtain ⟨t, ht⟩ := exists_unpack_zero hy
      unfold isNegative at hsign
      rw [hs, ht] at hsign
      have hsame : s = t := by cases s <;> cases t <;> simp_all
      exact eq_of_unpack_eq (by rw [hs, ht, hsame])
    · exact eq_of_rat?_eq hx hy hzero
  · exact eq_of_unpack_eq (hx.trans hy.symm)

theorem isNegative_of_neg (hx : rat? x = some a) (ha : a < 0) : isNegative x = true := by
  rcases rat?_cases hx with ⟨-, -, rfl⟩ | ⟨s, m, e, hm, hu, -, -, rfl⟩
  · exact absurd ha (lt_irrefl 0)
  · cases s with
    | positive => exact absurd ha (not_lt.2 (mul_two_zpow_pos hm e).le)
    | negative => simp [isNegative, hu]

theorem isNegative_of_pos (hx : rat? x = some a) (ha : 0 < a) : isNegative x = false := by
  obtain ⟨m, e, hm, hu, -⟩ := unpack_of_pos hx ha
  simp [isNegative, hu]

/-! ## Exact conversions -/

theorem isFraction_natCast {n : ℕ} (h : n ≤ 2 ^ 53) : IsFraction (n : ℚ) := by
  refine ⟨n, 0, ?_, by norm_num, by simp⟩
  rw [Nat.abs_cast]
  exact_mod_cast h

/-- Rounding keeps a number between zero and a whole number there. -/
theorem IsNearest.exists_rat? {v : ℚ} {n : ℕ} (h : IsNearest x v) (hn : n ≤ 2 ^ 53) (h0 : 0 ≤ v)
    (hle : v ≤ n) : ∃ r, rat? x = some r ∧ 0 ≤ r ∧ r ≤ n := by
  have hsmall : (n : ℚ) ≤ 2 ^ (53 : ℤ) := by exact_mod_cast hn
  have hv : |v| ≤ 2 ^ (970 : ℤ) := by
    rw [abs_of_nonneg h0]
    exact (hle.trans hsmall).trans (two_zpow_le (by norm_num))
  exact ⟨nearestFloat v, h.rat?_of_abs_le hv, nearestFloat_nonneg h0,
    (isFraction_natCast hn).nearestFloat_le hle⟩

theorem rat?_floatOfNat_of_isFraction {n : ℕ} (hn : IsFraction n) (hsmall : (n : ℚ) ≤ 2 ^ 64) :
    rat? (floatOfNat n) = some (n : ℚ) := by
  have hle : |(n : ℚ)| ≤ 2 ^ (970 : ℤ) := by
    rw [Nat.abs_cast]
    exact hsmall.trans (by exact_mod_cast two_zpow_le (show (64 : ℤ) ≤ 970 by norm_num))
  have h := (isNearest_floatOfNat n).rat?_of_abs_le hle
  rwa [hn.nearestFloat_eq] at h

theorem rat?_floatOfInt (h : rat? (floatOfNat n.natAbs) = some a) :
    rat? (floatOfInt n) = some (if n < 0 then -a else a) := by
  unfold floatOfInt
  split_ifs
  · exact rat?_neg h
  · exact h

theorem rat?_floatOfInt_of_isFraction (hn : IsFraction n.natAbs) (hsmall : n.natAbs ≤ 2 ^ 64) :
    rat? (floatOfInt n) = some (n : ℚ) := by
  have hle : ((n.natAbs : ℕ) : ℚ) ≤ 2 ^ 64 := by exact_mod_cast hsmall
  rw [rat?_floatOfInt (rat?_floatOfNat_of_isFraction hn hle), Nat.cast_natAbs]
  split_ifs with hneg
  · rw [abs_of_neg hneg]
    push_cast
    rw [neg_neg]
  · rw [abs_of_nonneg (not_lt.1 hneg)]

theorem rat?_floatOfInt_of_small (h : n.natAbs ≤ 2 ^ 53) :
    rat? (floatOfInt n) = some (n : ℚ) :=
  rat?_floatOfInt_of_isFraction (isFraction_natCast h) (by omega)

theorem floatOfInt_inj {i j : ℤ} (hi : i.natAbs ≤ 2 ^ 53) (hj : j.natAbs ≤ 2 ^ 53)
    (h : floatOfInt i = floatOfInt j) : i = j := by
  have hx := rat?_floatOfInt_of_small hi
  rw [h, rat?_floatOfInt_of_small hj] at hx
  exact_mod_cast (Option.some.inj hx).symm

/-! ## Zero -/

theorem floatOfInt_zero_div (hy : size? y = some k) (hk : 0 < k) :
    floatOfInt 0 / y = floatOfInt 0 := by
  apply eq_of_unpack_eq
  have hzero : unpack (floatOfInt 0) = .zero .positive := rfl
  have hdiv : UnpackedFloat.div Format.binary64 (unpack (floatOfInt 0)) (unpack y) =
      .zero .positive := by
    rw [hzero]
    rcases size?_cases hy with ⟨b, rfl, hb, -⟩ | ⟨-, hinf⟩
    · obtain ⟨m, e, hm, hb, -⟩ := unpack_of_pos hb (by exact_mod_cast hk)
      rw [hb]
      rfl
    · rw [hinf]
      rfl
  rw [unpack_div (by rw [hdiv]; exact stored_zero _), hdiv, hzero]

end Transect
