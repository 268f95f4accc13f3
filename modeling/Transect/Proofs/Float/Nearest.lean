import Mathlib.Data.Int.Log
import Mathlib.Data.Rat.Floor
import Mathlib.Tactic

/-!
# The nearest binary fraction

A rational number is rounded to 53 binary digits, or to fewer if the last digit would be below
`2 ^ (-1074)`. There is no largest number here. Floats are these fractions up to the point where
they become infinite.
-/

namespace Transect

/-! ## Whole numbers -/

/-- The nearest whole number. A half goes to the even one. -/
def roundEven (x : ℚ) : ℤ :=
  if Int.fract x < 1 / 2 then ⌊x⌋
  else if 1 / 2 < Int.fract x then ⌊x⌋ + 1
  else ⌊x⌋ + ⌊x⌋ % 2

theorem floor_le_roundEven (x : ℚ) : ⌊x⌋ ≤ roundEven x := by
  unfold roundEven
  split_ifs <;> omega

theorem roundEven_le_floor_add_one (x : ℚ) : roundEven x ≤ ⌊x⌋ + 1 := by
  unfold roundEven
  split_ifs <;> omega

theorem roundEven_intCast_add (n : ℤ) {f : ℚ} (h0 : 0 ≤ f) (h1 : f < 1) :
    roundEven (n + f) = if f < 1 / 2 then n else if 1 / 2 < f then n + 1 else n + n % 2 := by
  have hf : Int.fract f = f := Int.fract_eq_self.2 ⟨h0, h1⟩
  have hz : ⌊f⌋ = 0 := Int.floor_eq_zero_iff.2 ⟨h0, h1⟩
  simp [roundEven, hf, hz]

@[simp]
theorem roundEven_intCast (n : ℤ) : roundEven n = n := by
  simpa using roundEven_intCast_add n (f := 0) le_rfl one_pos

@[simp]
theorem roundEven_zero : roundEven 0 = 0 := roundEven_intCast 0

theorem roundEven_mono {x y : ℚ} (h : x ≤ y) : roundEven x ≤ roundEven y := by
  rcases (Int.floor_le_floor h).eq_or_lt with heq | hlt
  · have hfract : Int.fract x ≤ Int.fract y := by
      rw [Int.fract, Int.fract, heq]
      linarith
    unfold roundEven
    rw [heq]
    split_ifs <;> first | omega | (exfalso; linarith)
  · have := roundEven_le_floor_add_one x
    have := floor_le_roundEven y
    omega

theorem abs_roundEven_sub_le (x : ℚ) : |(roundEven x : ℚ) - x| ≤ 1 / 2 := by
  have hx := Int.floor_add_fract x
  have h0 := Int.fract_nonneg x
  have h1 := Int.fract_lt_one x
  rw [abs_le]
  unfold roundEven
  split_ifs with hlt hgt
  · constructor <;> linarith
  · push_cast
    constructor <;> linarith
  · rcases Int.emod_two_eq ⌊x⌋ with heven | hodd
    · rw [heven]
      push_cast
      constructor <;> linarith
    · rw [hodd]
      push_cast
      constructor <;> linarith

/-- What is at most a half away from a whole number is rounded to it. From a half away it has to be
the even one. -/
theorem roundEven_eq {n : ℤ} {y : ℚ} (h : |y - n| ≤ 1 / 2) (heven : |y - n| = 1 / 2 → n % 2 = 0) :
    roundEven y = n := by
  rcases le_or_gt (n : ℚ) y with hle | hlt
  · rw [abs_of_nonneg (sub_nonneg.2 hle)] at h heven
    have hround := roundEven_intCast_add n (sub_nonneg.2 hle) (by linarith)
    rw [add_sub_cancel] at hround
    rw [hround]
    split_ifs with h1 h2
    · rfl
    · linarith
    · rw [heven (by linarith), add_zero]
  · rw [abs_of_neg (sub_neg.2 hlt)] at h heven
    have hround := roundEven_intCast_add (n - 1) (f := y - (n - 1)) (by linarith) (by linarith)
    push_cast at hround
    rw [add_sub_cancel] at hround
    rw [hround]
    split_ifs with h1 h2
    · linarith
    · omega
    · have := heven (by linarith)
      omega

/-- No whole number is closer. -/
theorem abs_roundEven_sub_le_of_intCast (x : ℚ) (n : ℤ) : |(roundEven x : ℚ) - x| ≤ |n - x| := by
  by_contra hlt
  rw [not_le] at hlt
  have hhalf := abs_roundEven_sub_le x
  have hnear : |x - n| < 1 / 2 := by
    rw [abs_sub_comm]
    exact hlt.trans_le hhalf
  have heq : roundEven x = n := roundEven_eq hnear.le fun h => absurd h hnear.ne
  rw [heq] at hlt
  exact lt_irrefl _ hlt

theorem roundEven_neg (x : ℚ) : roundEven (-x) = -roundEven x := by
  by_cases hz : Int.fract x = 0
  · obtain ⟨n, rfl⟩ := Int.fract_eq_zero_iff.1 hz
    rw [← Int.cast_neg, roundEven_intCast, roundEven_intCast]
  · have hfract := Int.fract_neg hz
    have hfloor : ⌊-x⌋ = -⌊x⌋ - 1 := by
      have hx := Int.floor_add_fract x
      have hneg := Int.floor_add_fract (-x)
      have : ((⌊-x⌋ : ℤ) : ℚ) = ((-⌊x⌋ - 1 : ℤ) : ℚ) := by
        push_cast
        linarith
      exact_mod_cast this
    unfold roundEven
    rw [hfract, hfloor]
    split_ifs <;> first | omega | (exfalso; linarith)

theorem le_roundEven {n : ℤ} {x : ℚ} (h : (n : ℚ) ≤ x) : n ≤ roundEven x := by
  simpa using roundEven_mono h

theorem roundEven_le {n : ℤ} {x : ℚ} (h : x ≤ n) : roundEven x ≤ n := by
  simpa using roundEven_mono h

/-! ## Powers of two -/

theorem two_zpow_pos (e : ℤ) : (0 : ℚ) < 2 ^ e := zpow_pos (by norm_num) e

theorem two_zpow_le {d e : ℤ} (h : d ≤ e) : (2 : ℚ) ^ d ≤ 2 ^ e :=
  zpow_le_zpow_right₀ (by norm_num) h

theorem two_zpow_lt {d e : ℤ} (h : d < e) : (2 : ℚ) ^ d < 2 ^ e :=
  zpow_lt_zpow_right₀ (by norm_num) h

theorem mul_two_zpow_pos {m : ℕ} (hm : 0 < m) (e : ℤ) : 0 < (m : ℚ) * 2 ^ e :=
  mul_pos (by exact_mod_cast hm) (two_zpow_pos e)

theorem two_zpow_add (d e : ℤ) : (2 : ℚ) ^ (d + e) = 2 ^ d * 2 ^ e := zpow_add₀ (by norm_num) d e

theorem exists_mul_two_zpow (n : ℤ) {d e : ℤ} (h : d ≤ e) :
    ∃ k : ℤ, (n : ℚ) * 2 ^ e = k * 2 ^ d := by
  refine ⟨n * 2 ^ (e - d).toNat, ?_⟩
  have hsplit : e = (e - d).toNat + d := by omega
  conv_lhs => rw [hsplit]
  rw [two_zpow_add, zpow_natCast]
  push_cast
  ring

/-! ## Binary fractions -/

/-- The exponent of the last binary digit that is kept. -/
def gridExponent (v : ℚ) : ℤ := max (Int.log 2 |v| - 52) (-1074)

/-- The nearest binary fraction of at most 53 digits. A half goes to the even last digit. -/
def nearestFloat (v : ℚ) : ℚ := roundEven (v / 2 ^ gridExponent v) * 2 ^ gridExponent v

/-- A binary fraction of at most 53 digits. -/
def IsFraction (r : ℚ) : Prop := ∃ n e : ℤ, |n| ≤ 2 ^ 53 ∧ -1074 ≤ e ∧ r = n * 2 ^ e

variable {r v w : ℚ}

@[simp]
theorem gridExponent_neg (v : ℚ) : gridExponent (-v) = gridExponent v := by
  simp [gridExponent]

theorem le_gridExponent (v : ℚ) : -1074 ≤ gridExponent v := le_max_right _ _

theorem abs_lt_two_zpow_grid (v : ℚ) : |v| < 2 ^ (gridExponent v + 53) := by
  have hlog : |v| < (2 : ℚ) ^ (Int.log 2 |v| + 1) := by
    exact_mod_cast Int.lt_zpow_succ_log_self one_lt_two |v|
  have hle : Int.log 2 |v| - 52 ≤ gridExponent v := le_max_left _ _
  exact hlog.trans_le (two_zpow_le (by omega))

theorem two_zpow_grid_le_abs (hv : v ≠ 0) (h : -1074 < gridExponent v) :
    2 ^ (gridExponent v + 52) ≤ |v| := by
  have hlog : (2 : ℚ) ^ Int.log 2 |v| ≤ |v| := by
    exact_mod_cast Int.zpow_log_le_self one_lt_two (abs_pos.2 hv)
  have heq : gridExponent v + 52 = Int.log 2 |v| := by
    unfold gridExponent at h ⊢
    omega
  rwa [heq]

theorem gridExponent_mono (hv : v ≠ 0) (h : |v| ≤ |w|) : gridExponent v ≤ gridExponent w := by
  have hlog := Int.log_mono_right (b := 2) (abs_pos.2 hv) h
  unfold gridExponent
  omega

@[simp]
theorem nearestFloat_zero : nearestFloat 0 = 0 := by
  simp [nearestFloat]

@[simp]
theorem nearestFloat_neg (v : ℚ) : nearestFloat (-v) = -nearestFloat v := by
  simp [nearestFloat, neg_div, roundEven_neg]

/-- Half a unit of the last digit is the most that rounding can move a number. -/
theorem abs_nearestFloat_sub_le (v : ℚ) : |nearestFloat v - v| ≤ 2 ^ gridExponent v / 2 := by
  have hpos := two_zpow_pos (gridExponent v)
  have heq : nearestFloat v - v =
      ((roundEven (v / 2 ^ gridExponent v) : ℚ) - v / 2 ^ gridExponent v) *
        2 ^ gridExponent v := by
    unfold nearestFloat
    field_simp
  rw [heq, abs_mul, abs_of_pos hpos]
  have := abs_roundEven_sub_le (v / 2 ^ gridExponent v)
  nlinarith

/-- A number that is at most half a unit away from a multiple of the unit is rounded to it. -/
theorem nearestFloat_eq_of_near {n e : ℤ} (hgrid : gridExponent v = e)
    (h : |v - n * 2 ^ e| ≤ 2 ^ e / 2) (heven : |v - n * 2 ^ e| = 2 ^ e / 2 → n % 2 = 0) :
    nearestFloat v = n * 2 ^ e := by
  have hpos := two_zpow_pos e
  have hscale : |v / 2 ^ e - n| = |v - n * 2 ^ e| / 2 ^ e := by
    rw [← abs_of_pos hpos, ← abs_div, abs_of_pos hpos, sub_div, mul_div_cancel_right₀ _ hpos.ne']
  rw [nearestFloat, hgrid, roundEven_eq]
  · rw [hscale, div_le_iff₀ hpos]
    linarith
  · rw [hscale, div_eq_iff hpos.ne']
    intro hhalf
    exact heven (by linarith)

theorem isFraction_zero : IsFraction 0 := ⟨0, 0, by simp, by simp, by simp⟩

theorem isFraction_two_zpow {e : ℤ} (h : -1074 ≤ e) : IsFraction (2 ^ e) :=
  ⟨1, e, by norm_num, h, by simp⟩

theorem IsFraction.neg (h : IsFraction r) : IsFraction (-r) := by
  obtain ⟨n, e, hn, he, rfl⟩ := h
  exact ⟨-n, e, by simpa using hn, he, by push_cast; ring⟩

theorem le_nearestFloat_of_multiple (k : ℤ) (h : k * 2 ^ gridExponent v ≤ v) :
    k * 2 ^ gridExponent v ≤ nearestFloat v := by
  have hpos := two_zpow_pos (gridExponent v)
  have hk : k ≤ roundEven (v / 2 ^ gridExponent v) := le_roundEven ((le_div_iff₀ hpos).2 h)
  exact mul_le_mul_of_nonneg_right (by exact_mod_cast hk) hpos.le

/-- Between a number and a fraction that is not above it there is a multiple of the unit of the
number's last digit. -/
theorem IsFraction.exists_multiple_between (h : IsFraction r) (hr : r ≤ v) :
    ∃ k : ℤ, r ≤ k * 2 ^ gridExponent v ∧ k * 2 ^ gridExponent v ≤ v := by
  obtain ⟨n, e, hn, he, rfl⟩ := h
  rcases eq_or_ne v 0 with rfl | hv
  · exact ⟨0, by simpa using hr, by simp⟩
  by_cases hgrid : gridExponent v ≤ e
  · obtain ⟨k, hk⟩ := exists_mul_two_zpow n hgrid
    rw [hk] at hr ⊢
    exact ⟨k, le_rfl, hr⟩
  · -- The fraction has finer digits than `v` keeps, so no power that `v` exceeds is below it.
    have hbig := two_zpow_grid_le_abs hv (by omega)
    have habs : |(n : ℚ) * 2 ^ e| ≤ 2 ^ (gridExponent v + 52) := by
      have hn' : |(n : ℚ)| ≤ 2 ^ (53 : ℤ) := by exact_mod_cast hn
      calc |(n : ℚ) * 2 ^ e| = |(n : ℚ)| * 2 ^ e := by rw [abs_mul, abs_of_pos (two_zpow_pos e)]
        _ ≤ 2 ^ (53 : ℤ) * 2 ^ e := mul_le_mul_of_nonneg_right hn' (two_zpow_pos e).le
        _ = 2 ^ (53 + e) := (two_zpow_add 53 e).symm
        _ ≤ 2 ^ (gridExponent v + 52) := two_zpow_le (by omega)
    have hpow : (2 : ℚ) ^ (gridExponent v + 52) = ((2 ^ 52 : ℤ) : ℚ) * 2 ^ gridExponent v := by
      rw [two_zpow_add, mul_comm]
      norm_num
    rw [hpow] at hbig habs
    rcases lt_or_gt_of_ne hv with hneg | hpos
    · refine ⟨-2 ^ 52, ?_, ?_⟩
      · rw [abs_of_neg hneg] at hbig
        push_cast at hbig ⊢
        linarith
      · have := (abs_le.1 habs).1
        push_cast at this ⊢
        linarith
    · rw [abs_of_pos hpos] at hbig
      exact ⟨2 ^ 52, (abs_le.1 habs).2, hbig⟩

/-- Rounding does not move a number below a fraction that it is not below. -/
theorem IsFraction.le_nearestFloat (h : IsFraction r) (hr : r ≤ v) : r ≤ nearestFloat v := by
  obtain ⟨k, hrk, hkv⟩ := h.exists_multiple_between hr
  exact hrk.trans (le_nearestFloat_of_multiple k hkv)

theorem abs_nearestFloat_sub_le_of_multiple (v : ℚ) (k : ℤ) :
    |nearestFloat v - v| ≤ |k * 2 ^ gridExponent v - v| := by
  have hpos := two_zpow_pos (gridExponent v)
  have hscale (n : ℤ) : |n * 2 ^ gridExponent v - v| =
      |n - v / 2 ^ gridExponent v| * 2 ^ gridExponent v := by
    rw [← abs_of_pos hpos, ← abs_mul, abs_of_pos hpos, sub_mul, div_mul_cancel₀ _ hpos.ne']
  rw [nearestFloat, hscale, hscale]
  exact mul_le_mul_of_nonneg_right (abs_roundEven_sub_le_of_intCast _ k) hpos.le

/-- **Rounding is to nearest.** No fraction is closer to a number than what it is rounded to. -/
theorem IsFraction.abs_nearestFloat_sub_le_abs (h : IsFraction r) (v : ℚ) :
    |nearestFloat v - v| ≤ |r - v| := by
  have hbelow {r v : ℚ} (h : IsFraction r) (hr : r ≤ v) : |nearestFloat v - v| ≤ |r - v| := by
    obtain ⟨k, hrk, hkv⟩ := h.exists_multiple_between hr
    refine (abs_nearestFloat_sub_le_of_multiple v k).trans ?_
    rw [abs_of_nonpos (sub_nonpos.2 hkv), abs_of_nonpos (sub_nonpos.2 hr)]
    linarith
  rcases le_total r v with hr | hr
  · exact hbelow h hr
  · have hneg := hbelow h.neg (neg_le_neg hr)
    rwa [nearestFloat_neg, neg_sub_neg, neg_sub_neg, abs_sub_comm, abs_sub_comm v r] at hneg

theorem IsFraction.nearestFloat_le (h : IsFraction r) (hr : v ≤ r) : nearestFloat v ≤ r := by
  have := h.neg.le_nearestFloat (neg_le_neg hr)
  rw [nearestFloat_neg] at this
  exact neg_le_neg_iff.1 this

theorem IsFraction.nearestFloat_eq (h : IsFraction r) : nearestFloat r = r :=
  le_antisymm (h.nearestFloat_le le_rfl) (h.le_nearestFloat le_rfl)

theorem nearestFloat_nonneg (h : 0 ≤ v) : 0 ≤ nearestFloat v := isFraction_zero.le_nearestFloat h

theorem nearestFloat_nonpos (h : v ≤ 0) : nearestFloat v ≤ 0 := isFraction_zero.nearestFloat_le h

theorem abs_nearestFloat (v : ℚ) : |nearestFloat v| = nearestFloat |v| := by
  rcases le_total 0 v with h | h
  · rw [abs_of_nonneg h, abs_of_nonneg (nearestFloat_nonneg h)]
  · rw [abs_of_nonpos h, nearestFloat_neg, abs_of_nonpos (nearestFloat_nonpos h)]

theorem IsFraction.abs_nearestFloat_le (h : IsFraction r) (hv : |v| ≤ r) :
    |nearestFloat v| ≤ r := by
  rw [abs_nearestFloat]
  exact h.nearestFloat_le hv

theorem nearestFloat_mono_of_pos (hv : 0 < v) (h : v ≤ w) : nearestFloat v ≤ nearestFloat w := by
  have hw := hv.trans_le h
  have habs : |v| ≤ |w| := by rwa [abs_of_pos hv, abs_of_pos hw]
  rcases (gridExponent_mono hv.ne' habs).eq_or_lt with heq | hlt
  · have hpos := two_zpow_pos (gridExponent w)
    unfold nearestFloat
    rw [heq]
    have hle := roundEven_mono (div_le_div_of_nonneg_right h hpos.le)
    exact mul_le_mul_of_nonneg_right (by exact_mod_cast hle) hpos.le
  · -- The two are in different binades, so there is a power of two between them.
    have hgrid := le_gridExponent v
    have hpow : IsFraction (2 ^ (gridExponent w + 52)) := isFraction_two_zpow (by omega)
    have hlow : v ≤ 2 ^ (gridExponent w + 52) := by
      have := abs_lt_two_zpow_grid v
      rw [abs_of_pos hv] at this
      exact this.le.trans (two_zpow_le (by omega))
    have hhigh : 2 ^ (gridExponent w + 52) ≤ w := by
      have := two_zpow_grid_le_abs hw.ne' (by omega)
      rwa [abs_of_pos hw] at this
    exact (hpow.nearestFloat_le hlow).trans (hpow.le_nearestFloat hhigh)

theorem nearestFloat_mono (h : v ≤ w) : nearestFloat v ≤ nearestFloat w := by
  rcases lt_or_ge 0 v with hv | hv
  · exact nearestFloat_mono_of_pos hv h
  · rcases lt_or_ge w 0 with hw | hw
    · have := nearestFloat_mono_of_pos (neg_pos.2 hw) (neg_le_neg h)
      simp only [nearestFloat_neg] at this
      exact neg_le_neg_iff.1 this
    · exact (nearestFloat_nonpos hv).trans (nearestFloat_nonneg hw)

/-- The first power of two that no float has. -/
def floatBound : ℚ := 2 ^ (1024 : ℤ)

/-- A number that is not too close to the bound is not rounded up to it. -/
theorem abs_nearestFloat_lt (h : |v| + 2 ^ (970 : ℤ) < floatBound) :
    |nearestFloat v| < floatBound := by
  have hgrid : gridExponent v ≤ 971 := by
    rcases eq_or_ne v 0 with rfl | hv
    · simp [gridExponent]
    · by_contra hbig
      have hle := two_zpow_grid_le_abs hv (by omega)
      have hpow : floatBound ≤ 2 ^ (gridExponent v + 52) := two_zpow_le (by omega)
      have hlt := (lt_add_of_pos_right |v| (two_zpow_pos 970)).trans h
      exact absurd (hpow.trans hle) (not_le.2 hlt)
  have herr := abs_nearestFloat_sub_le v
  have hulp : (2 : ℚ) ^ gridExponent v ≤ 2 ^ (1 + 970 : ℤ) := two_zpow_le hgrid
  rw [two_zpow_add, zpow_one] at hulp
  have htri := abs_sub_abs_le_abs_sub (nearestFloat v) v
  generalize (2 : ℚ) ^ (970 : ℤ) = half at h hulp
  linarith

end Transect
