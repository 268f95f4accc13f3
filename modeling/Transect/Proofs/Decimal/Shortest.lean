import Transect.Decimal.Shortest
import Transect.Proofs.Float.Value

/-!
# Where the shortest decimal lies

The shortest decimal of a float is in the float's cell, and it is the multiple of its power of ten
that is nearest to the float. The cells of two floats have at most an end in common, so a larger
float does not have a smaller decimal.
-/

namespace Transect

open Float.Model
open Float.Model.UnpackedFloat

/-- The number that a decimal stands for. -/
def Decimal.value (d : Decimal) : ℚ := d.digits * 10 ^ d.exponent

/-! ## Powers of ten and two -/

theorem ten_zpow_pos (e : ℤ) : (0 : ℚ) < 10 ^ e := zpow_pos (by norm_num) e

theorem ten_zpow_add (d e : ℤ) : (10 : ℚ) ^ (d + e) = 10 ^ d * 10 ^ e := zpow_add₀ (by norm_num) d e

theorem ten_pow_le_two_pow {k n : ℕ} (h : 196 * k ≤ 59 * n) : 10 ^ k ≤ 2 ^ n := by
  have hbase : 10 ^ 59 ≤ 2 ^ 196 := by norm_num
  have hpow : (10 ^ k) ^ 59 ≤ (2 ^ n) ^ 59 := by
    calc (10 ^ k) ^ 59 = (10 ^ 59) ^ k := by rw [← pow_mul, ← pow_mul, mul_comm]
      _ ≤ (2 ^ 196) ^ k := Nat.pow_le_pow_left hbase k
      _ = 2 ^ (196 * k) := (pow_mul 2 196 k).symm
      _ ≤ 2 ^ (59 * n) := Nat.pow_le_pow_right two_pos h
      _ = (2 ^ n) ^ 59 := by rw [← pow_mul, mul_comm]
  exact (Nat.pow_le_pow_iff_left (by norm_num)).1 hpow

theorem two_pow_le_ten_pow {k n : ℕ} (h : 28 * n ≤ 93 * k) : 2 ^ n ≤ 10 ^ k := by
  have hbase : 2 ^ 93 ≤ 10 ^ 28 := by norm_num
  have hpow : (2 ^ n) ^ 28 ≤ (10 ^ k) ^ 28 := by
    calc (2 ^ n) ^ 28 = 2 ^ (28 * n) := by rw [← pow_mul, mul_comm]
      _ ≤ 2 ^ (93 * k) := Nat.pow_le_pow_right two_pos h
      _ = (2 ^ 93) ^ k := pow_mul 2 93 k
      _ ≤ (10 ^ 28) ^ k := Nat.pow_le_pow_left hbase k
      _ = (10 ^ k) ^ 28 := by rw [← pow_mul, ← pow_mul, mul_comm]
  exact (Nat.pow_le_pow_iff_left (by norm_num)).1 hpow

/-- The fine place is small enough: its power of ten is less than half a unit of the last digit. -/
theorem ten_zpow_finePlace_lt {e : ℤ} (hmin : -1074 ≤ e) (hmax : e ≤ 971) :
    (10 : ℚ) ^ finePlace e < 2 ^ e / 2 := by
  have hplace : finePlace e = e * 30103 / 100000 - 1 := rfl
  have hbound : (10 : ℚ) ^ (finePlace e + 1) ≤ 2 * 2 ^ e := by
    rcases le_or_gt 0 e with he | he
    · obtain ⟨n, rfl⟩ := Int.eq_ofNat_of_zero_le he
      have hk : 0 ≤ finePlace n + 1 := by omega
      obtain ⟨k, hk⟩ := Int.eq_ofNat_of_zero_le hk
      have hpow : 10 ^ k ≤ 2 ^ (n + 1) := ten_pow_le_two_pow (by omega)
      rw [hk, zpow_natCast, zpow_natCast, ← pow_succ']
      exact_mod_cast hpow
    · obtain ⟨n, rfl⟩ := Int.exists_eq_neg_ofNat he.le
      have hk : 0 ≤ -(finePlace (-n) + 1) := by omega
      obtain ⟨k, hk⟩ := Int.eq_ofNat_of_zero_le hk
      have hpow : 2 ^ n ≤ 2 * 10 ^ k := by
        rcases n with _ | n
        · exact Nat.mul_pos two_pos (by positivity)
        · rw [pow_succ']
          exact Nat.mul_le_mul_left 2 (two_pow_le_ten_pow (by omega))
      have hexp : finePlace (-n) + 1 = -k := by omega
      rw [hexp, zpow_neg, zpow_neg, zpow_natCast, zpow_natCast, ← div_eq_mul_inv,
        inv_eq_one_div, div_le_div_iff₀ (by positivity) (by positivity)]
      exact_mod_cast (by simpa using hpow)
  rw [ten_zpow_add, zpow_one] at hbound
  have := two_zpow_pos e
  linarith

/-! ## Cells and grids -/

/-- A grid that counts the value of a cell down to a multiple of its step, and has a multiple in the
cell. -/
structure Fits (c : Cell) (g : Grid) : Prop where
  step : 0 < g.step
  count : g.count = c.value / g.step
  meets : c.meets g = true

/-- A cell with its value inside. -/
structure Cell.Proper (c : Cell) : Prop where
  low : c.low < c.value
  high : c.value < c.high

variable {c : Cell} {g : Grid} {n : ℕ}

theorem Cell.bounds_of_holds (h : c.holds n = true) : c.low ≤ n ∧ n ≤ c.high := by
  unfold holds at h
  split_ifs at h <;> simp at h <;> omega

theorem Cell.holds_of_lt (hlow : c.low < n) (hhigh : n < c.high) : c.holds n = true := by
  unfold holds
  split_ifs <;> simp <;> omega

theorem Cell.le_of_not_holds (hn : c.holds n = false) (hlow : c.low < n) : c.high ≤ n := by
  unfold holds at hn
  split_ifs at hn <;> simp at hn <;> omega

theorem Cell.le_of_not_holds_below (hn : c.holds n = false) (hhigh : n < c.high) : n ≤ c.low := by
  unfold holds at hn
  split_ifs at hn <;> simp at hn <;> omega

theorem below_le (h : g.count = c.value / g.step) : g.count * g.step ≤ c.value := by
  rw [h]
  exact Nat.div_mul_le_self _ _

theorem lt_above (hstep : 0 < g.step) (h : g.count = c.value / g.step) :
    c.value < (g.count + 1) * g.step := by
  rw [h, mul_comm]
  exact Nat.lt_mul_div_succ _ hstep

theorem Fits.coarser (h : Fits c g) (hmeets : c.meets g.coarser = true) : Fits c g.coarser where
  step := Nat.mul_pos h.step (by norm_num)
  count := by
    rw [Grid.coarser, h.count, Nat.div_div_eq_div_mul]
  meets := hmeets

theorem Fits.coarsest (h : Fits c g) (fuel : ℕ) : Fits c (c.coarsest fuel g) := by
  induction fuel generalizing g with
  | zero => exact h
  | succ fuel ih =>
    rw [Cell.coarsest]
    split
    · rename_i hmeets
      exact ih (h.coarser hmeets)
    · exact h

theorem step_coarsest (c : Cell) (fuel : ℕ) (g : Grid) {μ : ℚ}
    (h : (g.step : ℚ) = 10 ^ g.place * μ) :
    ((c.coarsest fuel g).step : ℚ) = 10 ^ (c.coarsest fuel g).place * μ := by
  induction fuel generalizing g with
  | zero => exact h
  | succ fuel ih =>
    rw [Cell.coarsest]
    split
    · apply ih
      rw [Grid.coarser, ten_zpow_add]
      push_cast
      rw [h]
      ring
    · exact h

/-- One of the two multiples around the value is taken. It is in the cell, and if the value is in
the middle of the cell, it is the nearer one. -/
theorem Fits.multiple_cases (h : Fits c g) (hp : c.Proper) (tie : Tie) :
    (c.multiple tie g = g.count ∧ c.holds (g.count * g.step) = true ∧
      (c.low + c.high = 2 * c.value →
        2 * c.value ≤ g.count * g.step + (g.count + 1) * g.step)) ∨
    (c.multiple tie g = g.count + 1 ∧ c.holds ((g.count + 1) * g.step) = true ∧
      (c.low + c.high = 2 * c.value →
        g.count * g.step + (g.count + 1) * g.step ≤ 2 * c.value)) := by
  have hmeets := h.meets
  have hbelow := below_le h.count
  have habove := lt_above h.step h.count
  unfold Cell.meets at hmeets
  unfold Cell.multiple
  simp only
  generalize g.count * g.step = below at *
  generalize (g.count + 1) * g.step = above at *
  cases ha : c.holds above with
  | false =>
    have hout := Cell.le_of_not_holds ha (hp.low.trans habove)
    rw [ha, Bool.or_false] at hmeets
    have hin := Cell.bounds_of_holds hmeets
    exact .inl ⟨rfl, hmeets, fun hsym => by omega⟩
  | true =>
    have hin := Cell.bounds_of_holds ha
    cases hb : c.holds below with
    | false =>
      have hout := Cell.le_of_not_holds_below hb (hbelow.trans_lt hp.high)
      exact .inr ⟨rfl, rfl, fun hsym => by omega⟩
    | true =>
      simp only [Bool.not_true, Bool.false_eq_true, if_false]
      cases hc : compare (c.value - below) (above - c.value) with
      | lt =>
        rw [Nat.compare_eq_lt] at hc
        exact .inl ⟨rfl, trivial, fun _ => by omega⟩
      | gt =>
        rw [Nat.compare_eq_gt] at hc
        exact .inr ⟨rfl, trivial, fun _ => by omega⟩
      | eq =>
        rw [Nat.compare_eq_eq] at hc
        cases tie with
        | up => exact .inr ⟨rfl, trivial, fun _ => by omega⟩
        | toEven =>
          rcases Nat.mod_two_eq_zero_or_one g.count with heven | hodd
          · exact .inl ⟨by simp [heven], trivial, fun _ => by omega⟩
          · exact .inr ⟨by simp [hodd], trivial, fun _ => by omega⟩

theorem Fits.holds_multiple (h : Fits c g) (hp : c.Proper) (tie : Tie) :
    c.holds (c.multiple tie g * g.step) = true := by
  rcases h.multiple_cases hp tie with ⟨heq, hin, -⟩ | ⟨heq, hin, -⟩ <;> rwa [heq]

/-! ## The cell of a float -/

/-- How far the cell of `m * 2 ^ e` goes down, in units of the last digit. -/
def gapBelow (m : ℕ) (e : ℤ) : ℚ := if m = 2 ^ 52 ∧ -1074 < e then 1 / 4 else 1 / 2

/-- The measure of the cell of a float with this exponent. -/
def measure (e : ℤ) : ℚ := 2 ^ (2 - e).toNat * 10 ^ (-finePlace e).toNat

theorem measure_pos (e : ℤ) : 0 < measure e := by
  unfold measure
  positivity

theorem quarter_eq (e : ℤ) :
    ((Nat.pow 2 (e - 2 + (2 - e).toNat).toNat * Nat.pow 10 (-finePlace e).toNat : ℕ) : ℚ) =
      2 ^ e / 4 * measure e := by
  have hexp : (((e - 2 + (2 - e).toNat).toNat : ℕ) : ℤ) = e + -2 + (2 - e).toNat := by omega
  have hpow : (2 : ℚ) ^ (e - 2 + (2 - e).toNat).toNat = 2 ^ e / 4 * 2 ^ (2 - e).toNat := by
    rw [← zpow_natCast, hexp, two_zpow_add, two_zpow_add, zpow_natCast]
    norm_num
    ring
  have hcast : ((Nat.pow 2 (e - 2 + (2 - e).toNat).toNat : ℕ) : ℚ) =
      2 ^ (e - 2 + (2 - e).toNat).toNat := by
    exact_mod_cast rfl
  rw [Nat.cast_mul, hcast, hpow, measure, mul_assoc]
  congr 2
  exact_mod_cast rfl

theorem step_eq (e : ℤ) :
    ((Nat.pow 2 (2 - e).toNat * Nat.pow 10 (finePlace e + (-finePlace e).toNat).toNat : ℕ) : ℚ) =
      10 ^ finePlace e * measure e := by
  have hexp : (((finePlace e + (-finePlace e).toNat).toNat : ℕ) : ℤ) =
      finePlace e + (-finePlace e).toNat := by omega
  have hpow : (10 : ℚ) ^ (finePlace e + (-finePlace e).toNat).toNat =
      10 ^ finePlace e * 10 ^ (-finePlace e).toNat := by
    rw [← zpow_natCast, hexp, ten_zpow_add, zpow_natCast]
  have hcast : ((Nat.pow 10 (finePlace e + (-finePlace e).toNat).toNat : ℕ) : ℚ) =
      10 ^ (finePlace e + (-finePlace e).toNat).toNat := by
    exact_mod_cast rfl
  have hcast' : ((Nat.pow 2 (2 - e).toNat : ℕ) : ℚ) = 2 ^ (2 - e).toNat := by
    exact_mod_cast rfl
  rw [Nat.cast_mul, hcast, hcast', hpow, measure]
  ring

/-- The cell of a float and its fine grid, as numbers. -/
structure CellOf (m : ℕ) (e : ℤ) (c : Cell) (g : Grid) : Prop where
  value : (c.value : ℚ) = m * 2 ^ e * measure e
  low : (c.low : ℚ) = (m - gapBelow m e) * 2 ^ e * measure e
  high : (c.high : ℚ) = (m + 1 / 2) * 2 ^ e * measure e
  step : (g.step : ℚ) = 10 ^ g.place * measure e
  count : g.count = c.value / g.step
  place : g.place = finePlace e
  closed : c.closed = (m % 2 == 0)

theorem cellOf_spec {m : ℕ} (hm : 0 < m) (e : ℤ) :
    CellOf m e (cellOf Format.binary64 m e).1 (cellOf Format.binary64 m e).2 := by
  have hquarter := quarter_eq e
  unfold cellOf
  simp only
  generalize Nat.pow 2 (e - 2 + (2 - e).toNat).toNat * Nat.pow 10 (-finePlace e).toNat =
    quarter at *
  refine ⟨?_, ?_, ?_, step_eq e, rfl, rfl, rfl⟩
  · push_cast
    rw [hquarter]
    ring
  · have hmin : Format.binary64.minExponent = -1074 := rfl
    have hbelow :
        (if m = Nat.pow 2 52 ∧ Format.binary64.minExponent < e then 1 else 2) ≤ 4 * m := by
      split_ifs <;> omega
    rw [Nat.cast_mul, Nat.cast_sub hbelow, hquarter, gapBelow, hmin]
    have hpow : Nat.pow 2 52 = 2 ^ 52 := rfl
    rw [hpow]
    split_ifs <;> push_cast <;> ring
  · push_cast
    rw [hquarter]
    ring

variable {m : ℕ} {e : ℤ}

theorem gapBelow_bounds (m : ℕ) (e : ℤ) : 1 / 4 ≤ gapBelow m e ∧ gapBelow m e ≤ 1 / 2 := by
  unfold gapBelow
  split_ifs <;> norm_num

theorem CellOf.proper (h : CellOf m e c g) : c.Proper := by
  have hpos : 0 < (2 : ℚ) ^ e * measure e := mul_pos (two_zpow_pos e) (measure_pos e)
  have hgap := (gapBelow_bounds m e).1
  constructor
  · have : (c.low : ℚ) < c.value := by
      rw [h.low, h.value]
      nlinarith
    exact_mod_cast this
  · have : (c.value : ℚ) < c.high := by
      rw [h.value, h.high]
      nlinarith
    exact_mod_cast this

theorem CellOf.fits (h : CellOf m e c g) (hmin : -1074 ≤ e) (hmax : e ≤ 971) : Fits c g := by
  have hμ := measure_pos e
  have hstep : 0 < g.step := by
    have : (0 : ℚ) < g.step := by
      rw [h.step]
      exact mul_pos (ten_zpow_pos _) hμ
    exact_mod_cast this
  refine ⟨hstep, h.count, ?_⟩
  -- A step is less than half the cell, so the multiple above the value is still in the cell.
  have hfine : c.value + g.step < c.high := by
    have hlt := mul_lt_mul_of_pos_right (ten_zpow_finePlace_lt hmin hmax) hμ
    have : (c.value : ℚ) + g.step < c.high := by
      rw [h.value, h.step, h.high, h.place]
      linarith
    exact_mod_cast this
  have hbelow := below_le h.count
  have habove := lt_above hstep h.count
  have hin : c.holds ((g.count + 1) * g.step) = true := by
    apply Cell.holds_of_lt (h.proper.low.trans habove)
    rw [Nat.add_mul, one_mul]
    omega
  rw [Cell.meets, hin, Bool.or_true]

def shortestGrid (m : ℕ) (e : ℤ) : Grid :=
  (cellOf Format.binary64 m e).1.coarsest (cellOf Format.binary64 m e).2.count
    (cellOf Format.binary64 m e).2

/-- The shortest decimal is one of the two multiples around the float on the coarsest grid. -/
theorem shortest_cases (hm : 0 < m) (hmin : -1074 ≤ e) (hmax : e ≤ 971) (tie : Tie) :
    ∃ c g, CellOf m e c g ∧ Fits c (shortestGrid m e) ∧
      ((shortestGrid m e).step : ℚ) = 10 ^ (shortestGrid m e).place * measure e ∧
      shortest Format.binary64 tie m e =
        ⟨c.multiple tie (shortestGrid m e), (shortestGrid m e).place⟩ := by
  have hcell := cellOf_spec hm e
  exact ⟨_, _, hcell, (hcell.fits hmin hmax).coarsest _, step_coarsest _ _ _ hcell.step, rfl⟩

/-- The numbers that are nearest to a float. The ends belong to them if the last digit is even. -/
structure InCell (m : ℕ) (e : ℤ) (v : ℚ) : Prop where
  low : (m - gapBelow m e) * 2 ^ e ≤ v
  high : v ≤ (m + 1 / 2) * 2 ^ e
  inside : m % 2 = 1 → (m - gapBelow m e) * 2 ^ e < v ∧ v < (m + 1 / 2) * 2 ^ e

theorem CellOf.inCell (h : CellOf m e c g) {v : ℚ} (hin : c.holds n = true)
    (hv : v * measure e = n) : InCell m e v := by
  have hμ := measure_pos e
  obtain ⟨hlow, hhigh⟩ := Cell.bounds_of_holds hin
  refine ⟨?_, ?_, fun hodd => ?_⟩
  · rw [← mul_le_mul_iff_left₀ hμ, hv, ← h.low]
    exact_mod_cast hlow
  · rw [← mul_le_mul_iff_left₀ hμ, hv, ← h.high]
    exact_mod_cast hhigh
  · have hopen : c.closed = false := by simp [h.closed, hodd]
    simp only [Cell.holds, hopen, Bool.false_eq_true, if_false, Bool.and_eq_true,
      decide_eq_true_eq] at hin
    rw [← mul_lt_mul_iff_left₀ hμ, ← mul_lt_mul_iff_left₀ hμ (b := v), hv, ← h.low, ← h.high]
    exact_mod_cast hin

/-- **The shortest decimal is in the cell of the float.** -/
theorem inCell_shortest (hm : 0 < m) (hmin : -1074 ≤ e) (hmax : e ≤ 971) (tie : Tie) :
    InCell m e (shortest Format.binary64 tie m e).value := by
  obtain ⟨c, g, hcell, hfits, hstep, heq⟩ := shortest_cases hm hmin hmax tie
  apply hcell.inCell (hfits.holds_multiple hcell.proper tie)
  rw [heq, Decimal.value]
  push_cast
  rw [hstep]
  ring

theorem CellOf.symmetric (h : CellOf m e c g) (hm : m ≠ 2 ^ 52) : c.low + c.high = 2 * c.value := by
  have hgap : gapBelow m e = 1 / 2 := if_neg fun h => hm h.1
  have : (c.low : ℚ) + c.high = 2 * c.value := by
    rw [h.low, h.high, h.value, hgap]
    ring
  exact_mod_cast this

/-- The multiple that is taken is at most a step away from the value, and at most half a step if the
value is in the middle of the cell. -/
theorem Fits.abs_multiple_sub_le (h : Fits c g) (hp : c.Proper) (tie : Tie) :
    |(c.multiple tie g * g.step : ℚ) - c.value| ≤ g.step ∧
      (c.low + c.high = 2 * c.value →
        2 * |(c.multiple tie g * g.step : ℚ) - c.value| ≤ g.step) := by
  have hbelow : (g.count * g.step : ℚ) ≤ c.value := by exact_mod_cast below_le h.count
  have habove : (c.value : ℚ) < (g.count + 1) * g.step := by exact_mod_cast lt_above h.step h.count
  rcases h.multiple_cases hp tie with ⟨heq, -, hnear⟩ | ⟨heq, -, hnear⟩
  · rw [heq, abs_of_nonpos (by linarith)]
    refine ⟨by linarith, fun hsym => ?_⟩
    have : (2 * c.value : ℚ) ≤ g.count * g.step + (g.count + 1) * g.step := by
      exact_mod_cast hnear hsym
    linarith
  · rw [heq]
    push_cast
    rw [abs_of_nonneg (by linarith)]
    refine ⟨by linarith, fun hsym => ?_⟩
    have : (g.count * g.step + (g.count + 1) * g.step : ℚ) ≤ 2 * c.value := by
      exact_mod_cast hnear hsym
    linarith

/-- It is at most a unit of its last digit away from the float, and at most half a unit if the
float is not a power of two. -/
theorem abs_shortest_sub_le (hm : 0 < m) (hmin : -1074 ≤ e) (hmax : e ≤ 971) (tie : Tie) :
    |(shortest Format.binary64 tie m e).value - m * 2 ^ e| ≤
        10 ^ (shortest Format.binary64 tie m e).exponent ∧
      (m ≠ 2 ^ 52 → 2 * |(shortest Format.binary64 tie m e).value - m * 2 ^ e| ≤
        10 ^ (shortest Format.binary64 tie m e).exponent) := by
  obtain ⟨c, g, hcell, hfits, hstep, heq⟩ := shortest_cases hm hmin hmax tie
  have hμ := measure_pos e
  obtain ⟨hunit, hhalf⟩ := hfits.abs_multiple_sub_le hcell.proper tie
  have hdist : |(shortest Format.binary64 tie m e).value - m * 2 ^ e| * measure e =
      |(c.multiple tie (shortestGrid m e) : ℚ) * (shortestGrid m e).step - c.value| := by
    rw [heq, Decimal.value, hcell.value, hstep, ← mul_assoc, ← sub_mul, abs_mul, abs_of_pos hμ]
  have hplace : (10 : ℚ) ^ (shortest Format.binary64 tie m e).exponent * measure e =
      (shortestGrid m e).step := by
    rw [heq, hstep]
  rw [← hdist, ← hplace] at hunit hhalf
  refine ⟨(mul_le_mul_iff_left₀ hμ).1 hunit, fun hm => (mul_le_mul_iff_left₀ hμ).1 ?_⟩
  rw [mul_assoc]
  exact hhalf (hcell.symmetric hm)

/-! ## The order of decimals -/

variable {m' : ℕ} {e' : ℤ}

theorem two_mul_two_zpow_le (h : e < e') : 2 * (2 : ℚ) ^ e ≤ 2 ^ e' := by
  have := two_zpow_le (show 1 + e ≤ e' by omega)
  rwa [two_zpow_add, zpow_one] at this

theorem Canonical.exponent_le (h : Canonical m e) (h' : Canonical m' e')
    (hle : (m : ℚ) * 2 ^ e ≤ m' * 2 ^ e') : e ≤ e' := by
  by_contra hgt
  have hmin := h'.exponent
  have hm : (2 ^ 52 : ℚ) ≤ m := by exact_mod_cast h.normal.resolve_right (by omega)
  have hm' : (m' : ℚ) < 2 ^ 53 := by exact_mod_cast h'.lt
  have hpow := two_mul_two_zpow_le (show e' < e by omega)
  have := two_zpow_pos e'
  nlinarith

/-- The cell of a smaller float ends before that of a larger one begins. -/
theorem Canonical.high_le_low (h : Canonical m e) (h' : Canonical m' e')
    (hlt : (m : ℚ) * 2 ^ e < m' * 2 ^ e') :
    ((m : ℚ) + 1 / 2) * 2 ^ e ≤ (m' - gapBelow m' e') * 2 ^ e' := by
  have hpos := two_zpow_pos e
  have hgap := (gapBelow_bounds m' e').2
  rcases (h.exponent_le h' hlt.le).eq_or_lt with rfl | hexp
  · have hm : (m : ℚ) + 1 ≤ m' := by exact_mod_cast (mul_lt_mul_iff_left₀ hpos).1 hlt
    exact mul_le_mul_of_nonneg_right (by linarith) hpos.le
  · have hmin := h.exponent
    have hnormal : 2 ^ 52 ≤ m' := h'.normal.resolve_right (by omega)
    have hm : (m : ℚ) + 1 ≤ 2 ^ 53 := by exact_mod_cast h.lt
    have hlow : (2 : ℚ) ^ 52 - 1 / 4 ≤ m' - gapBelow m' e' := by
      rcases hnormal.eq_or_lt with heq | hgt
      · rw [gapBelow, if_pos ⟨heq.symm, by omega⟩, ← heq]
        norm_num
      · have : (2 : ℚ) ^ 52 + 1 ≤ m' := by exact_mod_cast hgt
        linarith
    calc ((m : ℚ) + 1 / 2) * 2 ^ e ≤ (2 ^ 52 - 1 / 4) * (2 * 2 ^ e) := by nlinarith
      _ ≤ (2 ^ 52 - 1 / 4) * 2 ^ e' :=
          mul_le_mul_of_nonneg_left (two_mul_two_zpow_le hexp) (by norm_num)
      _ ≤ (m' - gapBelow m' e') * 2 ^ e' :=
          mul_le_mul_of_nonneg_right hlow (two_zpow_pos e').le

theorem Canonical.eq_of_eq (h : Canonical m e) (h' : Canonical m' e')
    (heq : (m : ℚ) * 2 ^ e = m' * 2 ^ e') : m = m' ∧ e = e' := by
  have hexp : e = e' := le_antisymm (h.exponent_le h' heq.le) (h'.exponent_le h heq.ge)
  subst hexp
  exact ⟨by exact_mod_cast mul_right_cancel₀ (two_zpow_pos e).ne' heq, rfl⟩

/-! ## The shortest decimal of a float -/

variable {x y : Float} {a b : ℚ} {d d' : Decimal} {tie : Tie}

/-- A finite float is zero or has digits, and so has its decimal. -/
theorem shortest?_cases (hx : rat? x = some a) (tie : Tie) :
    (a = 0 ∧ shortest? tie x = some ⟨0, 0⟩) ∨
      ∃ m e, 0 < m ∧ Canonical m e ∧ e ≤ 971 ∧ |a| = m * 2 ^ e ∧
        shortest? tie x = some (shortest Format.binary64 tie m e) := by
  unfold shortest?
  rcases rat?_cases hx with ⟨s, hu, rfl⟩ | ⟨s, m, e, hm, hu, hcanonical, he, rfl⟩
  · rw [hu]
    exact .inl ⟨rfl, rfl⟩
  · rw [hu]
    exact .inr ⟨m, e, hm, hcanonical, he, abs_withSign s (mul_two_zpow_pos hm e).le, rfl⟩

theorem exists_shortest? (hx : rat? x = some a) (tie : Tie) : ∃ d, shortest? tie x = some d := by
  rcases shortest?_cases hx tie with ⟨-, h⟩ | ⟨m, e, -, -, -, -, h⟩ <;> exact ⟨_, h⟩

theorem Decimal.value_nonneg (d : Decimal) : 0 ≤ d.value :=
  mul_nonneg (Nat.cast_nonneg _) (ten_zpow_pos _).le

/-- **A larger float does not have a smaller decimal.** -/
theorem shortest?_mono (hx : rat? x = some a) (hy : rat? y = some b) (hab : |a| ≤ |b|)
    (hd : shortest? tie x = some d) (hd' : shortest? tie y = some d') : d.value ≤ d'.value := by
  rcases shortest?_cases hx tie with ⟨-, heq⟩ | ⟨m, e, hm, hcanonical, he, ha, heq⟩
  · rw [heq] at hd
    cases hd
    simpa [Decimal.value] using d'.value_nonneg
  · rw [heq] at hd
    cases hd
    rcases shortest?_cases hy tie with ⟨rfl, -⟩ | ⟨m', e', hm', hcanonical', he', hb, heq'⟩
    · have := mul_two_zpow_pos hm e
      rw [ha, abs_zero] at hab
      linarith
    · rw [heq'] at hd'
      cases hd'
      rw [ha, hb] at hab
      rcases hab.eq_or_lt with hsame | hlt
      · obtain ⟨rfl, rfl⟩ := hcanonical.eq_of_eq hcanonical' hsame
        exact le_rfl
      · exact ((inCell_shortest hm hcanonical.exponent he tie).high.trans
          (hcanonical.high_le_low hcanonical' hlt)).trans
            (inCell_shortest hm' hcanonical'.exponent he' tie).low

end Transect
