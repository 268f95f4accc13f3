import Transect.Proofs.Float.Value

/-!
# Arithmetic on floats

Sums, differences, products and quotients of finite floats are the floats nearest to the exact
results.
-/

namespace Transect

open Float.Model
open Float.Model.UnpackedFloat

variable {x y : Float} {u w : UnpackedFloat} {a b : ℚ}

/-! ## Sums -/

theorem apply_shiftLeft (s : Sign) (m : ℕ) {e d : ℤ} (h : d ≤ e) :
    ((s.apply (m <<< (e - d).toNat : ℕ) : ℤ) : ℚ) * 2 ^ d = withSign s (m * 2 ^ e) := by
  have hd : e - ((e - d).toNat : ℤ) = d := by omega
  have hshift := shiftLeft_mul_two_zpow m e (e - d).toNat
  rw [hd] at hshift
  rw [apply_mul_two_zpow, hshift]

theorem rounds_normalize (n : ℤ) (e : ℤ) :
    Rounds (UnpackedFloat.normalize Format.binary64 n e .positive) (n * 2 ^ e) := by
  rcases eq_or_ne n 0 with rfl | hn
  · rw [Int.cast_zero, zero_mul]
    exact rounds_zero .positive
  · exact ⟨_, normalize_hasMagnitude hn e .positive, fun _ => rfl⟩

theorem rounds_add (hu : Stored u) (hw : Stored w) (ha : value? u = some a)
    (hb : value? w = some b) : Rounds (UnpackedFloat.add Format.binary64 u w) (a + b) := by
  rcases value?_cases ha with ⟨s, rfl, rfl⟩ | ⟨s, m, e, hm, rfl, rfl⟩
  · rcases value?_cases hb with ⟨t, rfl, rfl⟩ | ⟨t, n, f, hn, rfl, rfl⟩
    · rw [zero_add]
      unfold UnpackedFloat.add
      simp only
      split <;> exact rounds_zero _
    · rw [zero_add]
      exact rounds_stored hw hb
  · rcases value?_cases hb with ⟨t, rfl, rfl⟩ | ⟨t, n, f, hn, rfl, rfl⟩
    · rw [add_zero]
      exact rounds_stored hu ha
    · rw [← apply_shiftLeft s m (min_le_left e f), ← apply_shiftLeft t n (min_le_right e f),
        ← add_mul, ← Int.cast_add]
      exact rounds_normalize _ _

theorem apply_neg (s : Sign) (n : ℤ) : (-s).apply n = -s.apply n := by
  cases s
  · exact (neg_neg n).symm
  · rfl

theorem sub_eq_add (u w : UnpackedFloat) :
    UnpackedFloat.sub Format.binary64 u w = UnpackedFloat.add Format.binary64 u w.neg := by
  cases u <;> cases w <;> try rfl
  rename_i s m e hm t n f hn
  simp only [UnpackedFloat.sub, UnpackedFloat.add, UnpackedFloat.neg, apply_neg,
    Int.sub_eq_add_neg]

theorem stored_neg (h : Stored u) : Stored u.neg := by
  intro s m e hm heq
  cases u with
  | finite s' m' e' hm' =>
    cases heq
    exact h s' m e hm rfl
  | infinity | notANumber | zero => cases heq

theorem value?_neg (ha : value? u = some a) : value? u.neg = some (-a) := by
  rcases value?_cases ha with ⟨s, rfl, rfl⟩ | ⟨s, m, e, hm, rfl, rfl⟩
  · simp [UnpackedFloat.neg, value?]
  · rw [UnpackedFloat.neg, value?, neg_withSign]

theorem isNearest_add (hx : rat? x = some a) (hy : rat? y = some b) : IsNearest (x + y) (a + b) :=
  (rounds_add (stored_unpack x) (stored_unpack y) hx hy).isNearest

theorem isNearest_sub (hx : rat? x = some a) (hy : rat? y = some b) :
    IsNearest (x - y) (a - b) := by
  have h := rounds_add (stored_unpack x) (stored_neg (stored_unpack y)) hx (value?_neg hy)
  rw [← sub_eq_add, ← sub_eq_add_neg] at h
  exact h.isNearest

/-! ## Products -/

theorem signOf_mul_withSign (s t : Sign) {r q : ℚ} (hr : 0 < r) (hq : 0 < q) :
    s * t = signOf (withSign s r * withSign t q) := by
  rw [withSign_mul, signOf_withSign _ (mul_pos hr hq)]

/-- The digits of a product are enough, unless it is below the smallest unit. -/
theorem le_target_mul {m n : ℕ} {e f : ℤ} (hm : Canonical m e) (hn : Canonical n f) (hm0 : 0 < m)
    (hn0 : 0 < n) : e + f ≤ target (m * n) (e + f) := by
  rw [target_eq]
  by_cases hdigits : 2 ^ 52 ≤ m * n
  · have := (Nat.le_log2 (Nat.mul_pos hm0 hn0).ne').2 hdigits
    omega
  · have he : e = -1074 := by
      refine hm.normal.resolve_left fun h => hdigits (h.trans ?_)
      exact Nat.le_mul_of_pos_right m hn0
    have hf : f = -1074 := by
      refine hn.normal.resolve_left fun h => hdigits (h.trans ?_)
      exact Nat.le_mul_of_pos_left n hm0
    omega

/-- A product whose digits are enough is rounded to nearest. -/
theorem rounds_mul_finite {m n : ℕ} {e f : ℤ} (s t : Sign) (hm : 0 < m) (hn : 0 < n)
    (hle : e + f ≤ target (m * n) (e + f)) :
    Rounds (UnpackedFloat.mul Format.binary64 (.finite s m e hm) (.finite t n f hn))
      (withSign s (m * 2 ^ e) * withSign t (n * 2 ^ f)) := by
  have hpos := mul_two_zpow_pos hm e
  have hpos' := mul_two_zpow_pos hn f
  refine ⟨s * t, ?_, fun _ => signOf_mul_withSign s t hpos hpos'⟩
  have hvalue : ((m * n : ℕ) : ℚ) * 2 ^ (e + f) = (m * 2 ^ e) * (n * 2 ^ f) := by
    rw [two_zpow_add]
    push_cast
    ring
  rw [withSign_mul, abs_nearestFloat, abs_withSign _ (mul_pos hpos hpos').le, ← hvalue]
  exact roundWithAccuracy_exact _ hle

theorem rounds_mul (hu : Stored u) (hw : Stored w) (ha : value? u = some a)
    (hb : value? w = some b) : Rounds (UnpackedFloat.mul Format.binary64 u w) (a * b) := by
  rcases value?_cases ha with ⟨s, rfl, rfl⟩ | ⟨s, m, e, hm, rfl, rfl⟩
  · rw [zero_mul]
    rcases value?_cases hb with ⟨t, rfl, -⟩ | ⟨t, n, f, hn, rfl, -⟩ <;> exact rounds_zero _
  · rcases value?_cases hb with ⟨t, rfl, rfl⟩ | ⟨t, n, f, hn, rfl, rfl⟩
    · rw [mul_zero]
      exact rounds_zero _
    · obtain ⟨hcanonical, -⟩ := hu s m e hm rfl
      obtain ⟨hcanonical', -⟩ := hw t n f hn rfl
      exact rounds_mul_finite s t hm hn (le_target_mul hcanonical hcanonical' hm hn)

theorem isNearest_mul (hx : rat? x = some a) (hy : rat? y = some b) :
    IsNearest (x * y) (a * b) :=
  (rounds_mul (stored_unpack x) (stored_unpack y) hx hy).isNearest

/-! ## Quotients -/

/-- The exponent that a quotient is computed with, so low that it has digits enough. -/
def quotientExponent (m : ℕ) (e : ℤ) (n : ℕ) (f : ℤ) : ℤ :=
  min (e - f) (max ((m.log2 : ℤ) + e - n.log2 - f - 53) (-1074))

theorem divCore_eq (m : ℕ) (e : ℤ) (n : ℕ) (f : ℤ) :
    divCore Format.binary64 m e n f =
      ((m <<< (e - f - quotientExponent m e n f).toNat) / n, quotientExponent m e n f,
        accuracyOfFraction ((m <<< (e - f - quotientExponent m e n f).toNat) % n) n) := by
  have htarget : Format.binary64.targetExponent (totalExponent m e - totalExponent n f) =
      max ((m.log2 : ℤ) + e - n.log2 - f - 53) (-1074) := by
    have h : Format.binary64.targetExponent (totalExponent m e - totalExponent n f) =
        max ((m.log2 : ℤ) + 1 + e - (n.log2 + 1 + f) - 53) (-1074) := rfl
    rw [h]
    congr 1
    ring
  simp only [divCore, htarget]
  rfl

theorem le_target_div {m n : ℕ} (e f : ℤ) (hm : 0 < m) (hn : 0 < n) :
    quotientExponent m e n f ≤
      target (m <<< (e - f - quotientExponent m e n f).toNat / n) (quotientExponent m e n f) := by
  rw [target_eq]
  by_cases hmin : quotientExponent m e n f ≤ -1074
  · omega
  · have hlow : quotientExponent m e n f ≤ (m.log2 : ℤ) + e - n.log2 - f - 53 := by
      unfold quotientExponent at hmin ⊢
      omega
    have hle : quotientExponent m e n f ≤ e - f := min_le_left _ _
    generalize quotientExponent m e n f = t at hlow hle
    have hdigits : 2 ^ 52 ≤ m <<< (e - f - t).toNat / n := by
      rw [Nat.le_div_iff_mul_le hn, Nat.shiftLeft_eq]
      have hn' : n < 2 ^ (n.log2 + 1) := Nat.lt_log2_self
      have hm' : 2 ^ m.log2 ≤ m := Nat.log2_self_le hm.ne'
      calc 2 ^ 52 * n ≤ 2 ^ 52 * 2 ^ (n.log2 + 1) := Nat.mul_le_mul_left _ hn'.le
        _ = 2 ^ (52 + (n.log2 + 1)) := (Nat.pow_add 2 52 _).symm
        _ ≤ 2 ^ (m.log2 + (e - f - t).toNat) := Nat.pow_le_pow_right two_pos (by omega)
        _ = 2 ^ m.log2 * 2 ^ (e - f - t).toNat := Nat.pow_add 2 _ _
        _ ≤ m * 2 ^ (e - f - t).toNat := Nat.mul_le_mul_right _ hm'
    have := (Nat.le_log2 (by omega)).2 hdigits
    omega

theorem quotient_value {m n : ℕ} {e f : ℤ} (hn : 0 < n) :
    (((m <<< (e - f - quotientExponent m e n f).toNat / n : ℕ) : ℚ) +
        (m <<< (e - f - quotientExponent m e n f).toNat % n : ℕ) / n) *
      2 ^ quotientExponent m e n f = m * 2 ^ e / (n * 2 ^ f) := by
  have hle : quotientExponent m e n f ≤ e - f := min_le_left _ _
  have hshift := shiftLeft_mul_two_zpow m (e - f) (e - f - quotientExponent m e n f).toNat
  have hexp : e - f - ((e - f - quotientExponent m e n f).toNat : ℤ) =
      quotientExponent m e n f := by omega
  rw [hexp] at hshift
  generalize quotientExponent m e n f = t at hshift
  generalize m <<< (e - f - t).toNat = k at hshift
  have hn' : (n : ℚ) ≠ 0 := by exact_mod_cast hn.ne'
  have hk : (k : ℚ) = n * (k / n : ℕ) + (k % n : ℕ) := by exact_mod_cast (Nat.div_add_mod k n).symm
  have hsplit : ((k / n : ℕ) : ℚ) + (k % n : ℕ) / n = k / n := by
    rw [hk]
    field_simp
  have hpow : (2 : ℚ) ^ e = 2 ^ (e - f) * 2 ^ f := by
    rw [← two_zpow_add]
    congr 1
    ring
  have := (two_zpow_pos f).ne'
  rw [hsplit, hpow, div_mul_eq_mul_div, hshift]
  field_simp

theorem signOf_div_withSign (s t : Sign) {r q : ℚ} (hr : 0 < r) (hq : 0 < q) :
    s / t = signOf (withSign s r / withSign t q) := by
  rw [withSign_div, signOf_withSign _ (div_pos hr hq)]

theorem rounds_div (hu : value? u = some a) (hw : value? w = some b) (hb : b ≠ 0) :
    Rounds (UnpackedFloat.div Format.binary64 u w) (a / b) := by
  rcases value?_cases hw with ⟨t, rfl, rfl⟩ | ⟨t, n, f, hn, rfl, rfl⟩
  · exact absurd rfl hb
  · rcases value?_cases hu with ⟨s, rfl, rfl⟩ | ⟨s, m, e, hm, rfl, rfl⟩
    · rw [zero_div]
      exact rounds_zero _
    · have hpos := mul_two_zpow_pos hm e
      have hpos' := mul_two_zpow_pos hn f
      refine ⟨s / t, ?_, fun _ => signOf_div_withSign s t hpos hpos'⟩
      simp only [UnpackedFloat.div, divCore_eq]
      rw [withSign_div, abs_nearestFloat, abs_withSign _ (div_pos hpos hpos').le,
        ← quotient_value hn]
      exact roundWithAccuracy_hasMagnitude _ (describes_fraction _ (Nat.mod_lt _ hn))
        (le_target_div e f hm hn)

theorem isNearest_div (hx : rat? x = some a) (hy : rat? y = some b) (hb : b ≠ 0) :
    IsNearest (x / y) (a / b) :=
  (rounds_div hx hy hb).isNearest

/-! ## Whole numbers, signs and roots -/

theorem isNearest_floatOfNat (n : ℕ) : IsNearest (floatOfNat n) n := by
  have h : Rounds (UnpackedFloat.ofNat Format.binary64 n) n := by
    simpa [UnpackedFloat.ofNat, UnpackedFloat.ofInt] using rounds_normalize (n : ℤ) 0
  unfold floatOfNat
  split_ifs with hlt
  · have hword : n.toUInt64.toNat = n := by
      rw [UInt64.toNat_ofNat']
      exact Nat.mod_eq_of_lt hlt
    have hfloat : n.toUInt64.toFloat = .ofModel (.ofNat n) := by
      change Float.ofModel (.ofNat n.toUInt64.toNat) = _
      rw [hword]
    rw [hfloat]
    exact h.isNearest
  · exact h.isNearest

theorem unpack_neg (x : Float) : unpack (-x) = (unpack x).neg :=
  unpack_ofModel_pack (stored_neg (stored_unpack x))

theorem rat?_neg (hx : rat? x = some a) : rat? (-x) = some (-a) := by
  rw [rat?, unpack_neg]
  exact value?_neg hx

theorem IsNearest.neg (h : IsNearest x a) : IsNearest (-x) (-a) := by
  unfold IsNearest at h ⊢
  rw [nearestFloat_neg, abs_neg]
  split_ifs at h ⊢ with hbound
  · exact rat?_neg h
  · have ha : a ≠ 0 := by
      rintro rfl
      rw [nearestFloat_zero, abs_zero] at hbound
      exact hbound (two_zpow_pos 1024)
    rw [unpack_neg, h, signOf_neg ha]
    rfl

theorem stored_abs (h : Stored u) : Stored u.abs := by
  intro s m e hm heq
  cases u with
  | finite s' m' e' hm' =>
    cases heq
    exact h s' m e hm rfl
  | infinity | notANumber | zero => cases heq

theorem unpack_abs (x : Float) : unpack x.abs = (unpack x).abs :=
  unpack_ofModel_pack (stored_abs (stored_unpack x))

theorem rat?_abs (hx : rat? x = some a) : rat? x.abs = some |a| := by
  rcases rat?_cases hx with ⟨s, hu, rfl⟩ | ⟨s, m, e, hm, hu, -, -, rfl⟩
  · rw [rat?, unpack_abs, hu, abs_zero]
    rfl
  · rw [rat?, unpack_abs, hu, abs_withSign s (mul_two_zpow_pos hm e).le]
    rfl

end Transect
