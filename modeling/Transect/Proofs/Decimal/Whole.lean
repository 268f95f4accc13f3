import Transect.Proofs.Decimal.Shortest

/-!
# The decimals of whole numbers

The search for the coarsest grid stops below no power of ten that has a multiple in the cell. So
every decimal in the cell of a float has at least as many places as the shortest one, and a float
that stands for a whole number has this number as its shortest decimal.
-/

namespace Transect

open Float.Model

/-! ## How far the search goes -/

variable {c : Cell} {g : Grid} {j k : ℕ}

theorem Cell.holds_of_between (hp : c.Proper) {a n : ℕ} (ha : c.holds a = true)
    (hn : a ≤ n ∧ n ≤ c.value ∨ c.value ≤ n ∧ n ≤ a) : c.holds n = true := by
  have hlow := hp.low
  have hhigh := hp.high
  unfold holds at ha ⊢
  split_ifs at ha ⊢ <;> simp at ha ⊢ <;> omega

/-- If any multiple of the step is in the cell, then one of the two around the value is. -/
theorem Cell.meets_of_holds (hp : c.Proper) (hstep : 0 < g.step) (hcount : g.count = c.value / g.step)
    (hin : c.holds (k * g.step) = true) : c.meets g = true := by
  have hbelow := below_le hcount
  have habove := lt_above hstep hcount
  rw [meets, Bool.or_eq_true]
  rcases Nat.lt_or_ge g.count k with hk | hk
  · have hle := Nat.mul_le_mul_right g.step (show g.count + 1 ≤ k from hk)
    exact .inr (holds_of_between hp hin (.inr ⟨habove.le, hle⟩))
  · have hle := Nat.mul_le_mul_right g.step hk
    exact .inl (holds_of_between hp hin (.inl ⟨hle, hbelow⟩))

theorem le_place_coarsest (c : Cell) (fuel : ℕ) (g : Grid) :
    g.place ≤ (c.coarsest fuel g).place := by
  induction fuel generalizing g with
  | zero => rfl
  | succ fuel ih =>
    rw [Cell.coarsest]
    split
    · have hnext : g.place + 1 ≤ _ := ih g.coarser
      omega
    · rfl

/-- The search reaches every place with a multiple in the cell, if there is fuel for the way. -/
theorem Fits.add_le_place_coarsest (h : Fits c g) (hp : c.Proper) {fuel : ℕ}
    (hin : c.holds (k * (10 ^ j * g.step)) = true) (hj : j ≤ fuel) :
    g.place + j ≤ (c.coarsest fuel g).place := by
  induction fuel generalizing g j with
  | zero =>
    obtain rfl : j = 0 := by omega
    simpa using le_place_coarsest c 0 g
  | succ fuel ih =>
    cases j with
    | zero => simpa using le_place_coarsest c (fuel + 1) g
    | succ j =>
      have hshift : k * (10 ^ (j + 1) * g.step) = k * (10 ^ j * g.coarser.step) := by
        rw [Grid.coarser]
        ring
      rw [hshift] at hin
      have hmeets : c.meets g.coarser = true := by
        have hcount : g.coarser.count = c.value / g.coarser.step := by
          rw [Grid.coarser, h.count, Nat.div_div_eq_div_mul]
        rw [← Nat.mul_assoc] at hin
        exact Cell.meets_of_holds hp (Nat.mul_pos h.step (by norm_num)) hcount hin
      -- From the coarser grid the way is one place shorter.
      have hreach := ih (h.coarser hmeets) hin (by omega)
      have hplace : g.coarser.place = g.place + 1 := rfl
      rw [Cell.coarsest, if_pos hmeets]
      push_cast
      omega

variable {m : ℕ} {e : ℤ}

/-- There is fuel for the way, since the number of steps grows with the power of ten. -/
theorem CellOf.le_count (h : CellOf m e c g) (hm : 0 < m) (hfits : Fits c g) (hk : 0 < k)
    (hin : c.holds (k * (10 ^ j * g.step)) = true) : j ≤ g.count := by
  have hhigh : c.high ≤ 2 * c.value := by
    have hm1 : (1 : ℚ) ≤ m := by exact_mod_cast hm
    have hpos := mul_pos (two_zpow_pos e) (measure_pos e)
    have : (c.high : ℚ) ≤ 2 * c.value := by
      rw [h.high, h.value]
      nlinarith
    exact_mod_cast this
  have hpow : 10 ^ j < 2 * (g.count + 1) := by
    have habove := lt_above hfits.step hfits.count
    have hin := (Cell.bounds_of_holds hin).2
    have hone : 1 * (10 ^ j * g.step) ≤ k * (10 ^ j * g.step) := Nat.mul_le_mul_right _ hk
    refine Nat.lt_of_mul_lt_mul_right (a := g.step) ?_
    rw [Nat.mul_assoc]
    omega
  cases j with
  | zero => omega
  | succ j =>
    have : j < 10 ^ j := Nat.lt_pow_self (by norm_num)
    rw [Nat.pow_succ] at hpow
    omega

/-- **No decimal in the cell of a float is shorter.** -/
theorem le_exponent_shortest (hm : 0 < m) (hmin : -1074 ≤ e) (hmax : e ≤ 971) (tie : Tie) {q : ℤ}
    (hk : 0 < k) (hlow : (m - gapBelow m e) * 2 ^ e < (k : ℚ) * 10 ^ q)
    (hhigh : (k : ℚ) * 10 ^ q < (m + 1 / 2) * 2 ^ e) :
    q ≤ (shortest Format.binary64 tie m e).exponent := by
  have hcell := cellOf_spec hm e
  have hfits := hcell.fits hmin hmax
  have hexponent : (shortest Format.binary64 tie m e).exponent = (shortestGrid m e).place := rfl
  rw [hexponent, shortestGrid]
  generalize (cellOf Format.binary64 m e).1 = c at *
  generalize (cellOf Format.binary64 m e).2 = g at *
  rcases lt_or_ge q g.place with hq | hq
  · exact hq.le.trans (le_place_coarsest c g.count g)
  · obtain ⟨j, hj⟩ := Int.le.dest hq
    have hμ := measure_pos e
    have hvalue : ((k * (10 ^ j * g.step) : ℕ) : ℚ) = k * 10 ^ q * measure e := by
      push_cast
      rw [hcell.step, ← hj, ten_zpow_add, zpow_natCast]
      ring
    have hin : c.holds (k * (10 ^ j * g.step)) = true := by
      apply Cell.holds_of_lt
      · have := mul_lt_mul_of_pos_right hlow hμ
        rw [← hcell.low, ← hvalue] at this
        exact_mod_cast this
      · have := mul_lt_mul_of_pos_right hhigh hμ
        rw [← hcell.high, ← hvalue] at this
        exact_mod_cast this
    rw [← hj]
    exact hfits.add_le_place_coarsest hcell.proper hin (hcell.le_count hm hfits hk hin)

/-! ## Whole numbers -/

theorem Canonical.exponent_nonpos (h : Canonical m e) (hsmall : (m : ℚ) * 2 ^ e < 2 ^ 53) :
    e ≤ 0 := by
  by_contra hpos
  have hnormal : (2 ^ 52 : ℚ) ≤ m := by exact_mod_cast h.normal.resolve_right (by omega)
  have htwo : (2 : ℚ) ^ (1 : ℤ) ≤ 2 ^ e := two_zpow_le (by omega)
  rw [zpow_one] at htwo
  nlinarith

theorem shortest_value_of_natCast {n : ℕ} (hm : 0 < m) (h : Canonical m e)
    (hn : (m : ℚ) * 2 ^ e = n) (hsmall : n < 2 ^ 53) (tie : Tie) :
    (shortest Format.binary64 tie m e).value = n := by
  have hpos := two_zpow_pos e
  have hn0 : 0 < n := by
    have := mul_two_zpow_pos hm e
    rw [hn] at this
    exact_mod_cast this
  have he : e ≤ 0 := h.exponent_nonpos (by rw [hn]; exact_mod_cast hsmall)
  have hunit : (2 : ℚ) ^ e ≤ 1 := by simpa using two_zpow_le he
  obtain ⟨hgap0, hgap⟩ := gapBelow_bounds m e
  have hexponent : 0 ≤ (shortest Format.binary64 tie m e).exponent := by
    refine le_exponent_shortest hm h.exponent (by omega) tie hn0 ?_ ?_ <;>
      rw [zpow_zero, mul_one, ← hn] <;> nlinarith
  obtain ⟨hlow, hhigh, -⟩ := inCell_shortest hm h.exponent (show e ≤ 971 by omega) tie
  generalize shortest Format.binary64 tie m e = s at *
  obtain ⟨i, hi⟩ := Int.eq_ofNat_of_zero_le hexponent
  have hvalue : s.value = ((s.digits * 10 ^ i : ℕ) : ℚ) := by
    rw [Decimal.value, hi, zpow_natCast]
    push_cast
    rfl
  rw [hvalue] at hlow hhigh ⊢
  generalize s.digits * 10 ^ i = whole at *
  -- Two whole numbers in a cell that is at most one wide are the same.
  have hle : whole < n + 1 := by
    have : (whole : ℚ) < n + 1 := by rw [← hn]; nlinarith
    exact_mod_cast this
  have hge : n < whole + 1 := by
    have : (n : ℚ) < whole + 1 := by rw [← hn]; nlinarith
    exact_mod_cast this
  have hsame : whole = n := by omega
  rw [hsame]

/-- **A float that stands for a whole number is written as that number.** -/
theorem shortest?_value_of_intCast {x : Float} {n : ℤ} {tie : Tie} {s : Decimal}
    (hx : rat? x = some (n : ℚ)) (hsmall : n.natAbs < 2 ^ 53) (hs : shortest? tie x = some s) :
    s.value = n.natAbs := by
  rcases shortest?_cases hx tie with ⟨hzero, heq⟩ | ⟨m, e, hm, hcanonical, -, hn, heq⟩
  · rw [hs] at heq
    cases heq
    have : n = 0 := by exact_mod_cast hzero
    simp [Decimal.value, this]
  · rw [hs] at heq
    cases heq
    refine shortest_value_of_natCast hm hcanonical ?_ hsmall tie
    rw [← hn, Nat.cast_natAbs, Int.cast_abs]

end Transect
