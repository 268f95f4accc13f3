import Transect.Proofs.Decimal.Fewest

/-!
# Decimals of few digits

A decimal of up to fifteen digits is much coarser than the floats near it. So it is the only decimal
of its place in the cell of the nearest float, and the shortest decimal of this float is the same
number.
-/

namespace Transect

open Float.Model

variable {m : ℕ} {e : ℤ} {a : ℚ} {x : Float} {c : Decimal} {tie : Tie}

theorem two_zpow_neg_le_ten_zpow_neg {k n : ℕ} (h : 196 * k ≤ 59 * n) :
    (2 : ℚ) ^ (-(n : ℤ)) ≤ 10 ^ (-(k : ℤ)) := by
  rw [zpow_neg, zpow_neg, zpow_natCast, zpow_natCast]
  exact inv_anti₀ (by positivity) (by exact_mod_cast ten_pow_le_two_pow h)

theorem two_zpow_lt_ten_zpow {q : ℤ} (h : -322 ≤ q) : (2 : ℚ) ^ (-1074 : ℤ) < 10 ^ q :=
  calc (2 : ℚ) ^ (-1074 : ℤ) ≤ 10 ^ (-323 : ℤ) :=
        two_zpow_neg_le_ten_zpow_neg (k := 323) (n := 1074) (by norm_num)
    _ < 10 ^ q := zpow_lt_zpow_right₀ (by norm_num) (by omega)

/-- The last digit of the float is worth less than the last digit of the decimal. -/
theorem InCell.two_zpow_lt (h : InCell m e c.value) (hcanonical : Canonical m e)
    (hdigits : c.digits < 10 ^ 15) (hplace : -322 ≤ c.exponent) :
    (2 : ℚ) ^ e < 10 ^ c.exponent := by
  rcases hcanonical.normal with hnormal | rfl
  · have hm : (2 : ℚ) ^ 52 ≤ m := by exact_mod_cast hnormal
    have hfew : (c.digits : ℚ) ≤ 10 ^ 15 := by exact_mod_cast hdigits.le
    have hgap := (gapBelow_bounds m e).2
    have hlow : ((2 : ℚ) ^ 52 - 1) * 2 ^ e ≤ 10 ^ 15 * 10 ^ c.exponent :=
      calc ((2 : ℚ) ^ 52 - 1) * 2 ^ e ≤ (m - gapBelow m e) * 2 ^ e :=
            mul_le_mul_of_nonneg_right (by linarith) (two_zpow_pos e).le
        _ ≤ c.value := h.low
        _ ≤ 10 ^ 15 * 10 ^ c.exponent :=
            mul_le_mul_of_nonneg_right hfew (ten_zpow_pos _).le
    have hpos := two_zpow_pos e
    norm_num at hlow
    linarith
  · exact two_zpow_lt_ten_zpow hplace

/-- Two decimals in a cell that is narrower than a unit of their last place are the same. -/
theorem InCell.shortest_value (h : InCell m e c.value) (hcanonical : Canonical m e) (hm : 0 < m)
    (hmax : e ≤ 971) (hdigits : c.digits < 10 ^ 15) (hplace : -322 ≤ c.exponent) :
    (shortest Format.binary64 tie m e).value = c.value := by
  have hunit := h.two_zpow_lt hcanonical hdigits hplace
  have hten := ten_zpow_pos c.exponent
  have hgap := mul_le_mul_of_nonneg_right (gapBelow_bounds m e).2 (two_zpow_pos e).le
  obtain ⟨j, hj⟩ := Decimal.exists_multiple (shortest Format.binary64 tie m e)
    (h.exponent_le hm hcanonical.exponent hmax)
  have hshort := inCell_shortest hm hcanonical.exponent hmax tie
  have hlow := hshort.low
  have hhigh := hshort.high
  have hlow' := h.low
  have hhigh' := h.high
  rw [hj] at hlow hhigh ⊢
  rw [Decimal.value] at hlow' hhigh' ⊢
  have hle : (j : ℚ) < c.digits + 1 := by
    rw [← mul_lt_mul_iff_left₀ hten]
    linarith
  have hge : (c.digits : ℚ) < j + 1 := by
    rw [← mul_lt_mul_iff_left₀ hten]
    linarith
  have hsame : j = c.digits := by
    have : j < c.digits + 1 := by exact_mod_cast hle
    have : c.digits < j + 1 := by exact_mod_cast hge
    omega
  rw [hsame]

theorem nearestFloat_value_pos (hdigits : 0 < c.digits) (hplace : -322 ≤ c.exponent) :
    0 < nearestFloat c.value := by
  have hone : (1 : ℚ) ≤ c.digits := by exact_mod_cast hdigits
  have hsmallest : (2 : ℚ) ^ (-1074 : ℤ) ≤ c.value :=
    (two_zpow_lt_ten_zpow hplace).le.trans (le_mul_of_one_le_left (ten_zpow_pos _).le hone)
  exact (two_zpow_pos _).trans_le ((isFraction_two_zpow le_rfl).le_nearestFloat hsmallest)

/-- **A decimal of up to fifteen digits is the shortest decimal of its float.** -/
theorem shortest?_of_few_digits (hx : rat? x = some a) (ha : |a| = nearestFloat c.value)
    (hdigits : c.digits < 10 ^ 15) (hplace : -322 ≤ c.exponent) (tie : Tie) :
    ∃ s, shortest? tie x = some s ∧ s.value = c.value ∧ s.places ≤ c.places := by
  rcases shortest?_cases hx tie with ⟨rfl, heq⟩ | ⟨m, e, hm, hcanonical, hmax, hvalue, heq⟩
  · have hzero : c.digits = 0 := by
      by_contra hpos
      have := nearestFloat_value_pos (Nat.pos_of_ne_zero hpos) hplace
      rw [← ha, abs_zero] at this
      exact lt_irrefl 0 this
    exact ⟨_, heq, by simp [Decimal.value, hzero], Nat.zero_le _⟩
  · have hcell : InCell m e c.value :=
      inCell_of_nearestFloat_eq hcanonical hm (ha.symm.trans hvalue)
    refine ⟨_, heq, hcell.shortest_value hcanonical hm hmax hdigits hplace, ?_⟩
    have hexponent : c.exponent ≤ (shortest Format.binary64 tie m e).exponent :=
      hcell.exponent_le hm hcanonical.exponent hmax
    unfold Decimal.places
    omega

end Transect
