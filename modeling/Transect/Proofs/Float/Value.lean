import Transect.Proofs.Float.Packing

/-!
# Floats as numbers

A finite float stands for a rational number, `rat?`. The result of an operation on floats is the
fraction nearest to the exact result, or infinite if that is too large: `IsNearest`.
-/

namespace Transect

open Float.Model
open Float.Model.UnpackedFloat

variable {s t : Sign} {m : ℕ} {e : ℤ} {u : UnpackedFloat} {x z : Float} {r q v : ℚ}

/-! ## Signs -/

def withSign (s : Sign) (r : ℚ) : ℚ :=
  match s with
  | .negative => -r
  | .positive => r

theorem withSign_mul (s t : Sign) (r q : ℚ) :
    withSign s r * withSign t q = withSign (s * t) (r * q) := by
  cases s <;> cases t
  · exact neg_mul_neg r q
  · exact neg_mul r q
  · exact mul_neg r q
  · rfl

theorem withSign_div (s t : Sign) (r q : ℚ) :
    withSign s r / withSign t q = withSign (s / t) (r / q) := by
  cases s <;> cases t
  · exact neg_div_neg_eq r q
  · exact neg_div q r
  · exact div_neg r
  · rfl

theorem neg_withSign (s : Sign) (r : ℚ) : -withSign s r = withSign (-s) r := by
  cases s
  · exact neg_neg r
  · rfl

theorem abs_withSign (s : Sign) (h : 0 ≤ r) : |withSign s r| = r := by
  cases s <;> simp [withSign, h]

theorem signOf_withSign (s : Sign) (h : 0 < r) : signOf (withSign s r) = s := by
  cases s
  · simp [signOf, withSign, h]
  · simp [signOf, withSign, not_lt.2 h.le]

theorem withSign_signOf_abs (v : ℚ) : withSign (signOf v) |v| = v := by
  unfold signOf withSign
  split_ifs with h
  · simp [abs_of_neg h]
  · simp [abs_of_nonneg (not_lt.1 h)]

theorem signOf_neg (h : v ≠ 0) : signOf (-v) = -signOf v := by
  conv_lhs => rw [← withSign_signOf_abs v, neg_withSign, signOf_withSign _ (abs_pos.2 h)]

theorem apply_mul_two_zpow (s : Sign) (m : ℕ) (e : ℤ) :
    ((s.apply m : ℤ) : ℚ) * 2 ^ e = withSign s (m * 2 ^ e) := by
  cases s <;> simp [Sign.apply, withSign]

theorem signOf_nearestFloat (h : nearestFloat v ≠ 0) : signOf (nearestFloat v) = signOf v := by
  unfold signOf
  rcases lt_or_ge v 0 with hv | hv
  · have := lt_of_le_of_ne (nearestFloat_nonpos hv.le) h
    rw [if_pos hv, if_pos this]
  · have := nearestFloat_nonneg hv
    rw [if_neg (not_lt.2 hv), if_neg (not_lt.2 this)]

/-! ## Numbers -/

def value? : UnpackedFloat → Option ℚ
  | .zero _ => some 0
  | .finite s m e _ => some (withSign s (m * 2 ^ e))
  | _ => none

/-- The number that a float stands for, if it is finite. -/
def rat? (x : Float) : Option ℚ := value? (unpack x)

/-- An unpacked float as it comes out of 64 bits. -/
def Stored (u : UnpackedFloat) : Prop :=
  ∀ s m e h, u = .finite s m e h → Canonical m e ∧ e ≤ 971

theorem stored_unpack (x : Float) : Stored (unpack x) :=
  fun _ _ _ _ h => canonical_of_unpack h

theorem stored_zero (s : Sign) : Stored (.zero s) := by
  intro _ _ _ _ h
  cases h

theorem stored_infinity (s : Sign) : Stored (.infinity s) := by
  intro _ _ _ _ h
  cases h

theorem stored_finite {hm : 0 < m} (h : Canonical m e) (he : e ≤ 971) :
    Stored (.finite s m e hm) := by
  intro _ _ _ _ heq
  cases heq
  exact ⟨h, he⟩

theorem unpack_ofModel_pack (h : Stored u) : unpack (.ofModel (.pack u)) = u := by
  change UnpackedFloat.unpack Format.binary64 (UnpackedFloat.pack Format.binary64 u) = u
  cases u with
  | infinity s => exact unpack_pack_infinity s
  | notANumber => exact unpack_pack_notANumber
  | zero s => exact unpack_pack_zero s
  | finite s m e hm =>
    obtain ⟨hcanonical, he⟩ := h s m e hm rfl
    exact unpack_pack_finite hm hcanonical he

theorem Canonical.lt_floatBound_iff (h : Canonical m e) :
    (m : ℚ) * 2 ^ e < floatBound ↔ e ≤ 971 := by
  have hpos := two_zpow_pos e
  constructor
  · intro hlt
    by_contra hbig
    have hnormal : 2 ^ 52 ≤ m := h.normal.resolve_right (by omega)
    have hm : (2 : ℚ) ^ (52 : ℤ) ≤ m := by exact_mod_cast hnormal
    have := mul_le_mul_of_nonneg_right hm hpos.le
    rw [← two_zpow_add] at this
    have hbound : floatBound ≤ 2 ^ (52 + e) := two_zpow_le (by omega)
    exact absurd (hbound.trans this) (not_le.2 hlt)
  · intro hle
    have hm : (m : ℚ) < 2 ^ (53 : ℤ) := by exact_mod_cast h.lt
    have := mul_lt_mul_of_pos_right hm hpos
    rw [← two_zpow_add] at this
    exact this.trans_le (two_zpow_le (by omega))

theorem Canonical.isFraction (h : Canonical m e) (s : Sign) :
    IsFraction (withSign s (m * 2 ^ e)) := by
  have hm : |s.apply m| ≤ 2 ^ 53 := by
    have := h.lt
    cases s <;> simp [Sign.apply] <;> omega
  exact ⟨s.apply m, e, hm, h.exponent, (apply_mul_two_zpow s m e).symm⟩

theorem value?_cases (h : value? u = some v) :
    (∃ s, u = .zero s ∧ v = 0) ∨ ∃ s m e hm, u = .finite s m e hm ∧ v = withSign s (m * 2 ^ e) := by
  cases u with
  | infinity s => cases h
  | notANumber => cases h
  | zero s =>
    cases h
    exact .inl ⟨s, rfl, rfl⟩
  | finite s m e hm =>
    cases h
    exact .inr ⟨s, m, e, hm, rfl, rfl⟩

/-- A finite float is zero, or a sign and a canonical magnitude. -/
theorem rat?_cases (h : rat? x = some v) :
    (∃ s, unpack x = .zero s ∧ v = 0) ∨
      ∃ s m e hm, unpack x = .finite s m e hm ∧ Canonical m e ∧ e ≤ 971 ∧
        v = withSign s (m * 2 ^ e) := by
  refine (value?_cases h).imp_right ?_
  rintro ⟨s, m, e, hm, hu, hv⟩
  obtain ⟨hcanonical, he⟩ := stored_unpack x s m e hm hu
  exact ⟨s, m, e, hm, hu, hcanonical, he, hv⟩

theorem exists_unpack_zero (hx : rat? x = some 0) : ∃ s, unpack x = .zero s := by
  rcases rat?_cases hx with ⟨s, hu, -⟩ | ⟨s, m, e, hm, -, -, -, hzero⟩
  · exact ⟨s, hu⟩
  · have hpos := mul_two_zpow_pos hm e
    rw [← abs_withSign s hpos.le, ← hzero, abs_zero] at hpos
    exact absurd hpos (lt_irrefl 0)

/-- Finite floats are fractions below the bound. -/
theorem isFraction_of_rat? (h : rat? x = some v) : IsFraction v ∧ |v| < floatBound := by
  rcases rat?_cases h with ⟨s, -, rfl⟩ | ⟨s, m, e, hm, -, hcanonical, he, rfl⟩
  · exact ⟨isFraction_zero, by rw [abs_zero]; exact two_zpow_pos 1024⟩
  · refine ⟨hcanonical.isFraction s, ?_⟩
    rw [abs_withSign s (mul_two_zpow_pos hm e).le]
    exact hcanonical.lt_floatBound_iff.2 he

theorem isFinite_iff : x.isFinite = true ↔ ∃ a, rat? x = some a := by
  change (unpack x).isFinite = true ↔ ∃ a, value? (unpack x) = some a
  cases unpack x <;> simp [UnpackedFloat.isFinite, value?]

theorem isFinite_eq_false_iff (h : x.isNaN = false) : x.isFinite = false ↔ x.isInf = true := by
  change (unpack x).isNaN = false at h
  change (unpack x).isFinite = false ↔ (unpack x).isInf = true
  cases hx : unpack x with
  | notANumber =>
    rw [hx] at h
    cases h
  | infinity s => exact iff_of_true rfl rfl
  | zero s => exact iff_of_false nofun nofun
  | finite s m e hm => exact iff_of_false nofun nofun

theorem isNaN_of_rat? (h : rat? x = some v) : x.isNaN = false := by
  have hmodel : x.isNaN = (unpack x).isNaN := rfl
  rw [hmodel]
  rcases rat?_cases h with ⟨s, hs, -⟩ | ⟨s, m, e, hm, hs, -⟩ <;> rw [hs] <;> rfl

/-- The largest float is a unit of its last digit below the bound. -/
theorem abs_add_le_floatBound (h : rat? x = some v) : |v| + 2 ^ (971 : ℤ) ≤ floatBound := by
  have hsplit : floatBound = 2 ^ (53 : ℤ) * 2 ^ (971 : ℤ) := two_zpow_add 53 971
  have hunit := two_zpow_pos 971
  rw [hsplit]
  rcases rat?_cases h with ⟨s, -, rfl⟩ | ⟨s, m, e, hm, -, hcanonical, he, rfl⟩
  · rw [abs_zero, zero_add]
    exact le_mul_of_one_le_left hunit.le (by norm_num)
  · have hm' : (m : ℚ) + 1 ≤ 2 ^ (53 : ℤ) := by exact_mod_cast hcanonical.lt
    rw [abs_withSign s (mul_two_zpow_pos hm e).le]
    calc (m : ℚ) * 2 ^ e + 2 ^ (971 : ℤ) ≤ m * 2 ^ (971 : ℤ) + 1 * 2 ^ (971 : ℤ) := by
          rw [one_mul]
          exact add_le_add_left (mul_le_mul_of_nonneg_left (two_zpow_le he) (by positivity)) _
      _ = (m + 1) * 2 ^ (971 : ℤ) := (add_mul _ _ _).symm
      _ ≤ 2 ^ (53 : ℤ) * 2 ^ (971 : ℤ) := mul_le_mul_of_nonneg_right hm' hunit.le

/-! ## Nearest floats -/

/-- What is left of an exact number in an unpacked float, before the bound is looked at. -/
def Rounds (u : UnpackedFloat) (v : ℚ) : Prop :=
  ∃ s, HasMagnitude u s |nearestFloat v| ∧ (v ≠ 0 → s = signOf v)

/-- What is left of an exact number in a float. -/
def IsNearest (z : Float) (v : ℚ) : Prop :=
  if |nearestFloat v| < floatBound then rat? z = some (nearestFloat v)
  else unpack z = .infinity (signOf v)

theorem Rounds.isNearest (h : Rounds u v) : IsNearest (.ofModel (.pack u)) v := by
  obtain ⟨s, h, hs⟩ := h
  unfold IsNearest
  rcases h with ⟨rfl, hzero⟩ | ⟨m, e, hm, rfl, hcanonical, hr⟩
  · have hbound : |nearestFloat v| < floatBound := by
      rw [hzero]
      exact two_zpow_pos 1024
    rw [if_pos hbound, rat?, unpack_ofModel_pack (stored_zero s), abs_eq_zero.1 hzero, value?]
  · have hpos := mul_two_zpow_pos hm e
    have hne : nearestFloat v ≠ 0 := by
      rw [← abs_pos, hr]
      exact hpos
    have hv : v ≠ 0 := by
      rintro rfl
      exact hne nearestFloat_zero
    have hsign : s = signOf (nearestFloat v) := (hs hv).trans (signOf_nearestFloat hne).symm
    by_cases he : e ≤ 971
    · rw [if_pos (hr ▸ hcanonical.lt_floatBound_iff.2 he), rat?,
        unpack_ofModel_pack (stored_finite hcanonical he), value?, ← hr, hsign,
        withSign_signOf_abs]
    · rw [if_neg (hr ▸ fun h => he (hcanonical.lt_floatBound_iff.1 h)), ← hs hv]
      exact unpack_pack_overflow hm hcanonical (by omega)

theorem rounds_zero (s : Sign) : Rounds (.zero s) 0 :=
  ⟨s, .inl ⟨rfl, by simp⟩, fun h => absurd rfl h⟩

theorem rounds_stored (h : Stored u) (hv : value? u = some v) : Rounds u v := by
  rcases value?_cases hv with ⟨s, rfl, rfl⟩ | ⟨s, m, e, hm, rfl, rfl⟩
  · exact rounds_zero s
  · obtain ⟨hcanonical, -⟩ := h s m e hm rfl
    have hpos := mul_two_zpow_pos hm e
    rw [Rounds, (hcanonical.isFraction s).nearestFloat_eq, abs_withSign s hpos.le,
      signOf_withSign s hpos]
    exact ⟨s, .inr ⟨m, e, hm, rfl, hcanonical, rfl⟩, fun _ => rfl⟩

theorem IsNearest.rat?_eq (h : IsNearest z v) (hv : |v| + 2 ^ (970 : ℤ) < floatBound) :
    rat? z = some (nearestFloat v) := by
  rwa [IsNearest, if_pos (abs_nearestFloat_lt hv)] at h

theorem IsNearest.cases (h : IsNearest z v) :
    (∃ a, rat? z = some a) ∨ ∃ s, unpack z = .infinity s := by
  unfold IsNearest at h
  split_ifs at h
  · exact .inl ⟨_, h⟩
  · exact .inr ⟨_, h⟩

theorem IsNearest.eq_nearestFloat (h : IsNearest z v) (hz : rat? z = some a) :
    a = nearestFloat v := by
  unfold IsNearest at h
  split_ifs at h
  · exact Option.some.inj (hz.symm.trans h)
  · rw [rat?, h] at hz
    cases hz

theorem IsNearest.rat?_of_abs_le (h : IsNearest z v) (hv : |v| ≤ 2 ^ (970 : ℤ)) :
    rat? z = some (nearestFloat v) := by
  apply h.rat?_eq
  calc |v| + 2 ^ (970 : ℤ) ≤ 2 ^ (970 : ℤ) + 2 ^ (970 : ℤ) := add_le_add_left hv _
    _ = 2 ^ (1 + 970 : ℤ) := by rw [two_zpow_add, zpow_one, two_mul]
    _ < floatBound := two_zpow_lt (by norm_num)

end Transect
