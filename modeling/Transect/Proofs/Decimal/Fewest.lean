import Transect.Proofs.Decimal.ReadBack
import Transect.Proofs.Decimal.Whole

/-!
# No shorter decimal is read back

What is read back as a float is in the float's cell, and on the grid of the shortest decimal the
search has stopped because no coarser grid has a multiple there. So every decimal that is read back
has at least as many digits, and none of the same place is nearer to the float.
-/

namespace Transect

open Float.Model
open Float.Model.UnpackedFloat

variable {m n j : ℕ} {e : ℤ} {v a : ℚ} {x : Float} {c : Cell} {g : Grid} {tie : Tie}

/-! ## Only the cell is rounded to the float -/

/-- A half is never rounded to an odd number. -/
theorem abs_roundEven_sub_ne (y : ℚ) (hodd : roundEven y % 2 = 1) :
    |y - roundEven y| ≠ 1 / 2 := by
  intro hhalf
  rcases abs_eq (by norm_num : (0 : ℚ) ≤ 1 / 2) |>.1 hhalf with h | h
  · have hy : y = (roundEven y : ℚ) + 1 / 2 := by linarith
    have hround := roundEven_intCast_add (roundEven y) (f := 1 / 2) (by norm_num) (by norm_num)
    rw [← hy, if_neg (by norm_num), if_neg (by norm_num)] at hround
    omega
  · have hy : y = ((roundEven y - 1 : ℤ) : ℚ) + 1 / 2 := by
      push_cast
      linarith
    have hround := roundEven_intCast_add (roundEven y - 1) (f := 1 / 2) (by norm_num) (by norm_num)
    rw [← hy, if_neg (by norm_num), if_neg (by norm_num)] at hround
    omega

/-- A number with its last digit at the same place as the float. -/
theorem inCell_of_grid (hv : 0 < v) (hgrid : gridExponent v = e)
    (hround : nearestFloat v = m * 2 ^ e) : InCell m e v := by
  have hpos := two_zpow_pos e
  have herror := abs_nearestFloat_sub_le v
  rw [hround, hgrid] at herror
  obtain ⟨hleft, hright⟩ := abs_le.1 herror
  have hlow : (m - gapBelow m e) * 2 ^ e ≤ v := by
    unfold gapBelow
    split_ifs with hpower
    · have := two_zpow_grid_le_abs hv.ne' (by omega)
      rw [hgrid, abs_of_pos hv, two_zpow_add] at this
      rw [hpower.1]
      push_cast
      norm_num at this ⊢
      linarith
    · linarith
  have hhigh : v ≤ (m + 1 / 2) * 2 ^ e := by linarith
  refine ⟨hlow, hhigh, fun hodd => ?_⟩
  have hgap : gapBelow m e = 1 / 2 := if_neg fun h => by omega
  have hdigits : roundEven (v / 2 ^ e) = m := by
    rw [nearestFloat, hgrid] at hround
    exact_mod_cast mul_right_cancel₀ hpos.ne' hround
  have hne := abs_roundEven_sub_ne (v / 2 ^ e) (by omega)
  rw [hdigits, Int.cast_natCast] at hne
  constructor
  · refine hlow.lt_of_ne fun h => hne ?_
    rw [← h, hgap, mul_div_cancel_right₀ _ hpos.ne', abs_of_neg] <;> linarith
  · refine hhigh.lt_of_ne fun h => hne ?_
    rw [h, mul_div_cancel_right₀ _ hpos.ne', abs_of_pos] <;> linarith

/-- **What is rounded to a float is in its cell.** -/
theorem inCell_of_nearestFloat_eq (hc : Canonical m e) (hm : 0 < m)
    (hround : nearestFloat v = m * 2 ^ e) : InCell m e v := by
  have hfloat := mul_two_zpow_pos hm e
  have hpos := two_zpow_pos e
  have hv : 0 < v := by
    by_contra hneg
    have := nearestFloat_nonpos (not_lt.1 hneg)
    linarith
  have hmin := hc.exponent
  rcases lt_trichotomy (gridExponent v) e with hsmall | hgrid | hlarge
  · -- The number is just below a power of two, where the unit is half as large.
    have hnormal := hc.normal.resolve_right (by have := le_gridExponent v; omega)
    have hbound : v < 2 ^ (52 + e) := by
      have habs := abs_lt_two_zpow_grid v
      rw [abs_of_pos hv] at habs
      exact habs.trans_le (two_zpow_le (by omega))
    have hle := (isFraction_two_zpow (show -1074 ≤ 52 + e by omega)).nearestFloat_le hbound.le
    rw [hround, two_zpow_add] at hle
    rw [two_zpow_add] at hbound
    have hpower : m = 2 ^ 52 := by
      have : (m : ℚ) ≤ 2 ^ (52 : ℤ) := le_of_mul_le_mul_right hle hpos
      have : m ≤ 2 ^ 52 := by exact_mod_cast this
      omega
    have herror := abs_nearestFloat_sub_le v
    have hunit : 2 * (2 : ℚ) ^ gridExponent v ≤ 2 ^ e := by
      have := two_zpow_le (show 1 + gridExponent v ≤ e by omega)
      rwa [two_zpow_add, zpow_one] at this
    rw [hround] at herror
    have hright := (abs_le.1 herror).2
    have hm52 : (m : ℚ) = 2 ^ (52 : ℤ) := by
      rw [hpower]
      norm_num
    refine ⟨?_, ?_, fun hodd => by omega⟩
    · rw [gapBelow, if_pos ⟨hpower, by have := le_gridExponent v; omega⟩]
      linarith
    · rw [hm52]
      linarith
  · exact inCell_of_grid hv hgrid hround
  · -- The number is at least the first float that has its last digit further up.
    have habs := two_zpow_grid_le_abs hv.ne' (by omega)
    rw [abs_of_pos hv] at habs
    have hle : (2 : ℚ) ^ (53 + e) ≤ v := (two_zpow_le (by omega)).trans habs
    have hbelow := (isFraction_two_zpow (by omega)).le_nearestFloat hle
    rw [hround, two_zpow_add] at hbelow
    have : (2 : ℚ) ^ (53 : ℤ) ≤ m := le_of_mul_le_mul_right hbelow hpos
    have : 2 ^ 53 ≤ m := by exact_mod_cast this
    have := hc.lt
    omega

/-! ## The coarsest grid -/

theorem CellOf.holds_of_inCell (h : CellOf m e c g) (hv : InCell m e v)
    (hn : v * measure e = n) : c.holds n = true := by
  have hμ := measure_pos e
  have hlow := mul_le_mul_of_nonneg_right hv.low hμ.le
  have hhigh := mul_le_mul_of_nonneg_right hv.high hμ.le
  rw [hn, ← h.low] at hlow
  rw [hn, ← h.high] at hhigh
  unfold Cell.holds
  rw [h.closed]
  rcases Nat.mod_two_eq_zero_or_one m with heven | hodd
  · have hlow' : c.low ≤ n := by exact_mod_cast hlow
    have hhigh' : n ≤ c.high := by exact_mod_cast hhigh
    simp [heven, hlow', hhigh']
  · obtain ⟨hlow, hhigh⟩ := hv.inside hodd
    rw [← mul_lt_mul_iff_left₀ hμ, hn, ← h.low] at hlow
    rw [← mul_lt_mul_iff_left₀ hμ, hn, ← h.high] at hhigh
    have hlow' : c.low < n := by exact_mod_cast hlow
    have hhigh' : n < c.high := by exact_mod_cast hhigh
    simp [hodd, hlow', hhigh']

theorem count_le (hcount : g.count = c.value / g.step) (hle : c.value < j * g.step) :
    g.count + 1 ≤ j := by
  by_contra hlt
  have := Nat.mul_le_mul_right g.step (show j ≤ g.count by omega)
  have := below_le hcount
  omega

theorem le_count (hstep : 0 < g.step) (hcount : g.count = c.value / g.step)
    (hle : j * g.step ≤ c.value) : j ≤ g.count := by
  rw [hcount]
  exact (Nat.le_div_iff_mul_le hstep).2 hle

/-- The search ends at a grid that no coarser one can follow. -/
theorem Fits.not_meets_coarser (h : Fits c g) (hlow : 0 < c.low) (hhigh : c.high ≤ 2 * c.value)
    {fuel : ℕ} (hfuel : g.count < 10 ^ fuel) :
    c.meets (c.coarsest fuel g).coarser = false := by
  induction fuel generalizing g with
  | zero =>
    -- The step is larger than the value, so ten of them are beyond the cell.
    have hzero : g.count = 0 := by simpa using hfuel
    have hvalue := lt_above h.step h.count
    rw [hzero] at hvalue
    have hbelow : c.holds 0 = false := by
      unfold Cell.holds
      split_ifs <;> simp only [Bool.and_eq_false_iff, decide_eq_false_iff_not] <;> omega
    have habove : c.holds (g.step * 10) = false := by
      unfold Cell.holds
      split_ifs <;> simp only [Bool.and_eq_false_iff, decide_eq_false_iff_not] <;> omega
    simp [Cell.coarsest, Cell.meets, Grid.coarser, hzero, hbelow, habove]
  | succ fuel ih =>
    rw [Cell.coarsest]
    split_ifs with hmeets
    · apply ih (h.coarser hmeets)
      rw [Grid.coarser, Nat.div_lt_iff_lt_mul (by norm_num), ← pow_succ]
      exact hfuel
    · simpa using hmeets

/-- The multiple on the other side is not in the cell, or not nearer. -/
theorem Fits.multiple_choice (h : Fits c g) (tie : Tie) :
    (c.multiple tie g = g.count ∧ (c.holds ((g.count + 1) * g.step) = true →
      2 * c.value ≤ g.count * g.step + (g.count + 1) * g.step)) ∨
    (c.multiple tie g = g.count + 1 ∧ (c.holds (g.count * g.step) = true →
      g.count * g.step + (g.count + 1) * g.step ≤ 2 * c.value)) := by
  have hbelow := below_le h.count
  have habove := lt_above h.step h.count
  unfold Cell.multiple
  simp only
  generalize g.count * g.step = below at *
  generalize (g.count + 1) * g.step = above at *
  cases ha : c.holds above with
  | false => exact .inl ⟨rfl, fun h => absurd h Bool.false_ne_true⟩
  | true =>
    cases hb : c.holds below with
    | false => exact .inr ⟨rfl, fun h => absurd h Bool.false_ne_true⟩
    | true =>
      simp only [Bool.not_true, Bool.false_eq_true, if_false, true_imp_iff]
      cases hc : compare (c.value - below) (above - c.value) with
      | lt =>
        rw [Nat.compare_eq_lt] at hc
        exact .inl ⟨rfl, by omega⟩
      | gt =>
        rw [Nat.compare_eq_gt] at hc
        exact .inr ⟨rfl, by omega⟩
      | eq =>
        rw [Nat.compare_eq_eq] at hc
        have hsame : 2 * c.value = below + above := by omega
        rcases Nat.mod_two_eq_zero_or_one g.count with heven | hodd <;> cases tie
        · exact .inr ⟨rfl, hsame.ge⟩
        · exact .inl ⟨by simp [heven], hsame.le⟩
        · exact .inr ⟨rfl, hsame.ge⟩
        · exact .inr ⟨by simp [hodd], hsame.ge⟩

/-- **Of the multiples in the cell the nearest is taken.** -/
theorem Fits.abs_multiple_sub_le_of_holds (h : Fits c g) (hp : c.Proper)
    (hj : c.holds (j * g.step) = true) (tie : Tie) :
    |(c.multiple tie g * g.step : ℚ) - c.value| ≤ |(j * g.step : ℚ) - c.value| := by
  have hbelow : (g.count * g.step : ℚ) ≤ c.value := by exact_mod_cast below_le h.count
  have habove : (c.value : ℚ) < (g.count + 1) * g.step := by
    exact_mod_cast lt_above h.step h.count
  -- A multiple is no nearer than the one around the value on its side.
  have hside : (c.holds (g.count * g.step) = true ∧ (j * g.step : ℚ) ≤ g.count * g.step) ∨
      (c.holds ((g.count + 1) * g.step) = true ∧ ((g.count + 1) * g.step : ℚ) ≤ j * g.step) := by
    rcases Nat.lt_or_ge c.value (j * g.step) with hlt | hge
    · have hle := Nat.mul_le_mul_right g.step (count_le h.count hlt)
      exact .inr ⟨Cell.holds_of_between hp hj (.inr ⟨(lt_above h.step h.count).le, hle⟩),
        by exact_mod_cast hle⟩
    · have hle := Nat.mul_le_mul_right g.step (le_count h.step h.count hge)
      exact .inl ⟨Cell.holds_of_between hp hj (.inl ⟨hle, below_le h.count⟩),
        by exact_mod_cast hle⟩
  rcases h.multiple_choice tie with ⟨heq, hchoice⟩ | ⟨heq, hchoice⟩
  · rw [heq, abs_of_nonpos (by linarith)]
    rcases hside with ⟨-, hle⟩ | ⟨hin, hle⟩
    · rw [abs_of_nonpos (by linarith)]
      linarith
    · have : (2 * c.value : ℚ) ≤ g.count * g.step + (g.count + 1) * g.step := by
        exact_mod_cast hchoice hin
      rw [abs_of_pos (by linarith)]
      linarith
  · rw [heq]
    push_cast
    rw [abs_of_pos (by linarith)]
    rcases hside with ⟨hin, hle⟩ | ⟨-, hle⟩
    · have : (g.count * g.step + (g.count + 1) * g.step : ℚ) ≤ 2 * c.value := by
        exact_mod_cast hchoice hin
      rw [abs_of_nonpos (by linarith)]
      linarith
    · rw [abs_of_pos (by linarith)]
      linarith

/-! ## Decimals in the cell -/

theorem CellOf.low_pos (h : CellOf m e c g) (hm : 0 < m) : 0 < c.low := by
  have hgap := (gapBelow_bounds m e).2
  have hm1 : (1 : ℚ) ≤ m := by exact_mod_cast hm
  have : (0 : ℚ) < c.low := by
    rw [h.low]
    exact mul_pos (mul_pos (by linarith) (two_zpow_pos e)) (measure_pos e)
  exact_mod_cast this

theorem CellOf.high_le (h : CellOf m e c g) (hm : 0 < m) : c.high ≤ 2 * c.value := by
  have hm1 : (1 : ℚ) ≤ m := by exact_mod_cast hm
  have : (c.high : ℚ) ≤ 2 * c.value := by
    rw [h.high, h.value]
    have := mul_pos (two_zpow_pos e) (measure_pos e)
    nlinarith
  exact_mod_cast this

/-- A decimal is a multiple of the power of ten of any place that is not above its own. -/
theorem Decimal.exists_multiple (d : Decimal) {place : ℤ} (h : place ≤ d.exponent) :
    ∃ j : ℕ, d.value = j * 10 ^ place := by
  obtain ⟨k, hk⟩ := Int.eq_ofNat_of_zero_le (sub_nonneg.2 h)
  refine ⟨d.digits * 10 ^ k, ?_⟩
  have hexp : d.exponent = k + place := by omega
  rw [value, hexp, ten_zpow_add, zpow_natCast]
  push_cast
  ring

/-- **No decimal in the cell is coarser.** -/
theorem InCell.exponent_le {d : Decimal} (hin : InCell m e d.value) (hm : 0 < m)
    (hmin : -1074 ≤ e) (hmax : e ≤ 971) :
    d.exponent ≤ (shortest Format.binary64 tie m e).exponent := by
  have hcell := cellOf_spec hm e
  have hfits : Fits (cellOf Format.binary64 m e).1 (shortestGrid m e) :=
    (hcell.fits hmin hmax).coarsest _
  have hstep : ((shortestGrid m e).step : ℚ) = 10 ^ (shortestGrid m e).place * measure e :=
    step_coarsest _ _ _ hcell.step
  have hstop : (cellOf Format.binary64 m e).1.meets (shortestGrid m e).coarser = false :=
    (hcell.fits hmin hmax).not_meets_coarser (hcell.low_pos hm) (hcell.high_le hm)
      (Nat.lt_pow_self (by norm_num))
  have hplace : (shortest Format.binary64 tie m e).exponent = (shortestGrid m e).place := rfl
  rw [hplace]
  by_contra hlt
  obtain ⟨j, hj⟩ := d.exists_multiple (show (shortestGrid m e).place + 1 ≤ d.exponent by omega)
  have hholds : (cellOf Format.binary64 m e).1.holds
      (j * (shortestGrid m e).coarser.step) = true := by
    apply hcell.holds_of_inCell hin
    rw [hj, Grid.coarser, ten_zpow_add]
    push_cast
    rw [hstep]
    ring
  have hmeets := Cell.meets_of_holds hcell.proper (Nat.mul_pos hfits.step (by norm_num))
    (by rw [Grid.coarser, hfits.count, Nat.div_div_eq_div_mul]) hholds
  rw [hmeets] at hstop
  exact Bool.false_ne_true hstop.symm

/-- None of the same place is nearer. -/
theorem InCell.abs_shortest_sub_le {d : Decimal} (hin : InCell m e d.value) (hm : 0 < m)
    (hmin : -1074 ≤ e) (hmax : e ≤ 971)
    (hplace : d.exponent = (shortest Format.binary64 tie m e).exponent) :
    |(shortest Format.binary64 tie m e).value - m * 2 ^ e| ≤ |d.value - m * 2 ^ e| := by
  obtain ⟨c, g, hcell, hfits, hstep, heq⟩ := shortest_cases hm hmin hmax tie
  have hμ := measure_pos e
  rw [heq] at hplace
  have hvalue : d.value * measure e = ((d.digits * (shortestGrid m e).step : ℕ) : ℚ) := by
    rw [Decimal.value, hplace]
    push_cast
    rw [hstep]
    ring
  have hnear := hfits.abs_multiple_sub_le_of_holds hcell.proper
    (hcell.holds_of_inCell hin hvalue) tie
  have hscale (r : ℚ) : |r - m * 2 ^ e| * measure e = |r * measure e - c.value| := by
    rw [hcell.value, ← sub_mul, abs_mul, abs_of_pos hμ]
  rw [← mul_le_mul_iff_left₀ hμ, hscale, hscale, hvalue, heq, Decimal.value, mul_assoc, ← hstep]
  push_cast
  exact hnear

theorem InCell.between {u w : ℚ} (hu : InCell m e u) (hw : InCell m e w) (huv : u ≤ v)
    (hvw : v ≤ w) : InCell m e v where
  low := hu.low.trans huv
  high := hvw.trans hw.high
  inside hodd := ⟨(hu.inside hodd).1.trans_le huv, hvw.trans_lt (hw.inside hodd).2⟩

/-- With fewer digits there would be a power of ten in between, and it is coarser. -/
theorem InCell.digits_le {d : Decimal} (hin : InCell m e d.value) (hm : 0 < m)
    (hmin : -1074 ≤ e) (hmax : e ≤ 971) :
    (digitsOf (shortest Format.binary64 tie m e).digits).length ≤ (digitsOf d.digits).length := by
  have hshort := inCell_shortest hm hmin hmax tie
  have hcoarsest {d' : Decimal} (h : InCell m e d'.value) :
      d'.exponent ≤ (shortest Format.binary64 tie m e).exponent := h.exponent_le hm hmin hmax
  have hplace := hcoarsest hin
  have hk := digitsOf_length_pos d.digits
  have hfew := (digitsOf_length_le_iff hk).1 le_rfl
  generalize shortest Format.binary64 tie m e = s at *
  generalize (digitsOf d.digits).length = k at *
  by_contra hmore
  have hmany : (10 : ℚ) ^ k ≤ s.digits := by
    rw [digitsOf_length_le_iff hk, not_lt] at hmore
    exact_mod_cast hmore
  have hfew' : (d.digits : ℚ) ≤ 10 ^ k := by exact_mod_cast hfew.le
  have hpower : (Decimal.mk 1 (s.exponent + k)).value = 10 ^ k * 10 ^ s.exponent := by
    rw [Decimal.value, Nat.cast_one, one_mul, ten_zpow_add, zpow_natCast, mul_comm]
  have hbetween : InCell m e (Decimal.mk 1 (s.exponent + k)).value := by
    apply hin.between hshort
    · rw [hpower]
      exact mul_le_mul hfew' (zpow_le_zpow_right₀ (by norm_num) hplace) (ten_zpow_pos _).le
        (by positivity)
    · rw [hpower]
      exact mul_le_mul_of_nonneg_right hmany (ten_zpow_pos _).le
  have hle := hcoarsest hbetween
  simp only at hle
  omega

/-! ## The shortest decimal of a float -/

/-- A decimal that is read back as the magnitude of a float, with as few digits as possible and as
near to the float as its place allows. -/
structure Decimal.IsShortestOf (d : Decimal) (x : Float) : Prop where
  reads : d.toFloat = x.abs
  fewest : ∀ d' : Decimal, d'.toFloat = x.abs →
    (digitsOf d.digits).length ≤ (digitsOf d'.digits).length
  nearest : ∀ d' : Decimal, d'.toFloat = x.abs → d'.exponent = d.exponent →
    ∀ a, rat? x.abs = some a → |d.value - a| ≤ |d'.value - a|

theorem inCell_of_toFloat {d : Decimal} (hc : Canonical m e) (hm : 0 < m)
    (hx : rat? d.toFloat = some ((m : ℚ) * 2 ^ e)) : InCell m e d.value :=
  inCell_of_nearestFloat_eq hc hm ((isNearest_toFloat d).eq_nearestFloat hx).symm

/-- **Every finite float has a shortest decimal.** -/
theorem exists_isShortestOf (hx : rat? x = some a) (tie : Tie) :
    ∃ d, shortest? tie x = some d ∧ d.IsShortestOf x := by
  rcases rat?_cases hx with ⟨s, hu, rfl⟩ | ⟨s, m, e, hm, hu, hcanonical, he, rfl⟩
  · have habs : unpack x.abs = .zero .positive := by rw [unpack_abs, hu]; rfl
    refine ⟨⟨0, 0⟩, by rw [shortest?, hu], ?_, fun d' _ => ?_, fun d' _ _ a ha => ?_⟩
    · exact eq_of_unpack_eq ((unpack_toFloat_of_zero rfl).trans habs.symm)
    · exact digitsOf_length_pos d'.digits
    · rw [rat?, habs] at ha
      cases ha
      rw [Decimal.value, Nat.cast_zero, zero_mul, sub_self, abs_zero]
      exact abs_nonneg _
  · have habs : unpack x.abs = .finite .positive m e hm := by rw [unpack_abs, hu]; rfl
    have hrat : rat? x.abs = some ((m : ℚ) * 2 ^ e) := by rw [rat?, habs]; rfl
    have hcell {d' : Decimal} (h : d'.toFloat = x.abs) : InCell m e d'.value :=
      inCell_of_toFloat hcanonical hm (by rw [h, hrat])
    refine ⟨shortest Format.binary64 tie m e, by rw [shortest?, hu], ?_, fun d' h => ?_,
      fun d' h hplace a ha => ?_⟩
    · exact toFloat_of_finite habs rfl
    · exact (hcell h).digits_le hm hcanonical.exponent he
    · rw [hrat] at ha
      cases ha
      exact (hcell h).abs_shortest_sub_le hm hcanonical.exponent he hplace

end Transect
