import Mathlib
import Transect.Proofs.Float.Nearest

/-!
# How floats are rounded

A mantissa is kept with two more bits while it is shifted into place. The bits say how the exact
number compares with the mantissa and with a half above it, so the result is the nearest fraction.
-/

namespace Transect

open Float.Model
open Float.Model.UnpackedFloat

/-! ## The two extra bits -/

/-- A mantissa and two bits that stand for a number `y`. -/
def Describes (em : ExtendedMantissa) (y : ℚ) : Prop :=
  ∃ f : ℚ, 0 ≤ f ∧ f < 1 ∧ y = em.mantissa + f ∧ (em.roundBit = true ↔ 1 / 2 ≤ f) ∧
    (em.stickyBit = true ↔ f ≠ 0 ∧ f ≠ 1 / 2)

variable {em : ExtendedMantissa} {y : ℚ}

theorem describes_exact (m : ℕ) : Describes ⟨m, false, false⟩ m :=
  ⟨0, by norm_num, by norm_num, by simp, by norm_num, by simp⟩

theorem describes_fraction (m : ℕ) {num den : ℕ} (h : num < den) :
    Describes (.ofMantissaAndAccuracy m (accuracyOfFraction num den)) (m + num / den) := by
  have hden : (0 : ℚ) < den := by exact_mod_cast Nat.zero_lt_of_lt h
  have hnum : (num : ℚ) < den := by exact_mod_cast h
  have hone : (num / den : ℚ) < 1 := (div_lt_one hden).2 hnum
  have hhalf : (1 / 2 ≤ (num / den : ℚ)) ↔ den ≤ 2 * num := by
    rw [div_le_div_iff₀ two_pos hden, one_mul, mul_comm]
    exact_mod_cast Iff.rfl
  have hne : ((num / den : ℚ) = 1 / 2) ↔ 2 * num = den := by
    rw [div_eq_div_iff hden.ne' two_ne_zero, one_mul, mul_comm]
    exact_mod_cast Iff.rfl
  unfold accuracyOfFraction
  by_cases hzero : num = 0
  · subst hzero
    simpa [ExtendedMantissa.ofMantissaAndAccuracy] using describes_exact m
  · have hpos : (num / den : ℚ) ≠ 0 := div_ne_zero (by exact_mod_cast hzero) hden.ne'
    rw [if_neg hzero]
    refine ⟨num / den, by positivity, hone, ?_⟩
    rw [hhalf, ne_eq, ne_eq, hne]
    cases hc : compare (2 * num) den with
    | lt =>
      rw [Nat.compare_eq_lt] at hc
      refine ⟨rfl, ?_, ?_⟩ <;> simp [ExtendedMantissa.ofMantissaAndAccuracy, hpos] <;> omega
    | eq =>
      rw [Nat.compare_eq_eq] at hc
      refine ⟨rfl, ?_, ?_⟩ <;> simp [ExtendedMantissa.ofMantissaAndAccuracy, hpos] <;> omega
    | gt =>
      rw [Nat.compare_eq_gt] at hc
      refine ⟨rfl, ?_, ?_⟩ <;> simp [ExtendedMantissa.ofMantissaAndAccuracy, hpos] <;> omega

theorem Describes.shiftRightOne (h : Describes em y) : Describes em.shiftRightOne (y / 2) := by
  obtain ⟨f, h0, h1, rfl, hround, hsticky⟩ := h
  have hsticky' : (em.roundBit || em.stickyBit) = true ↔ f ≠ 0 := by
    rw [Bool.or_eq_true, hround, hsticky]
    constructor
    · rintro (h | h)
      · intro hf
        rw [hf] at h
        norm_num at h
      · exact h.1
    · intro hf
      by_cases hhalf : f = 1 / 2
      · exact .inl hhalf.ge
      · exact .inr ⟨hf, hhalf⟩
  have hdiv : (em.mantissa : ℚ) = 2 * (em.mantissa / 2 : ℕ) + (em.mantissa % 2 : ℕ) := by
    exact_mod_cast (Nat.div_add_mod em.mantissa 2).symm
  rcases Nat.mod_two_eq_zero_or_one em.mantissa with hmod | hmod
  · rw [hmod] at hdiv
    refine ⟨f / 2, by linarith, by linarith, ?_, ?_, ?_⟩
    · simp only [ExtendedMantissa.shiftRightOne, hdiv]
      push_cast
      ring
    · simp only [ExtendedMantissa.shiftRightOne, hmod]
      constructor
      · intro h
        cases h
      · intro h
        linarith
    · simp only [ExtendedMantissa.shiftRightOne, hsticky']
      constructor
      · intro hf
        exact ⟨by simpa using hf, fun h => by linarith⟩
      · rintro ⟨hf, -⟩
        simpa using hf
  · rw [hmod] at hdiv
    refine ⟨1 / 2 + f / 2, by linarith, by linarith, ?_, ?_, ?_⟩
    · simp only [ExtendedMantissa.shiftRightOne, hdiv]
      push_cast
      ring
    · simp only [ExtendedMantissa.shiftRightOne, hmod]
      exact ⟨fun _ => by linarith, fun _ => rfl⟩
    · simp only [ExtendedMantissa.shiftRightOne, hsticky']
      constructor
      · intro hf
        refine ⟨fun h => by linarith, fun h => hf (by linarith)⟩
      · rintro ⟨-, hf⟩ h
        exact hf (by rw [h]; norm_num)

theorem Describes.shiftRight (h : Describes em y) (n : ℕ) : Describes (em >>> n) (y / 2 ^ n) := by
  change Describes (n.repeat ExtendedMantissa.shiftRightOne em) (y / 2 ^ n)
  induction n with
  | zero => simpa [Nat.repeat] using h
  | succ n ih =>
    rw [Nat.repeat, pow_succ, ← div_div]
    exact ih.shiftRightOne

theorem Describes.roundedMantissa (h : Describes em y) :
    (em.roundedMantissa : ℤ) = roundEven y := by
  obtain ⟨f, h0, h1, rfl, hround, hsticky⟩ := h
  obtain ⟨m, round, sticky⟩ := em
  have hsplit := roundEven_intCast_add m h0 h1
  simp only [Int.cast_natCast] at hsplit
  rw [hsplit]
  cases round <;> cases sticky <;>
    simp only [ExtendedMantissa.roundedMantissa, ExtendedMantissa.accuracy,
      Accuracy.roundToNearestEven, Bool.false_eq_true, false_iff, true_iff,
      not_le] at hround hsticky ⊢
  · rw [if_pos hround]
  · rw [if_pos hround]
  · have hf : f = 1 / 2 := by
      by_contra hne
      exact hsticky ⟨fun h => by rw [h] at hround; norm_num at hround, hne⟩
    rw [if_neg (by linarith), if_neg (by linarith)]
    push_cast
    rfl
  · have hf : 1 / 2 < f := lt_of_le_of_ne hround (Ne.symm hsticky.2)
    rw [if_neg (by linarith), if_pos hf]
    push_cast
    rfl

/-! ## Canonical floats -/

/-- A mantissa and an exponent in the form that floats have, with no bound on the exponent. -/
structure Canonical (m : ℕ) (e : ℤ) : Prop where
  lt : m < 2 ^ 53
  exponent : -1074 ≤ e
  normal : 2 ^ 52 ≤ m ∨ e = -1074

/-- An unpacked float with a sign and a magnitude, in canonical form. -/
def HasMagnitude (u : UnpackedFloat) (s : Sign) (r : ℚ) : Prop :=
  (u = .zero s ∧ r = 0) ∨ ∃ m e h, u = .finite s m e h ∧ Canonical m e ∧ r = m * 2 ^ e

def target (m : ℕ) (e : ℤ) : ℤ := Format.binary64.targetExponent (totalExponent m e)

variable {m : ℕ} {e : ℤ} {s : Sign} {acc : Accuracy}

theorem target_eq (m : ℕ) (e : ℤ) : target m e = max ((m.log2 : ℤ) + e - 52) (-1074) := by
  have h : target m e = max ((m.log2 : ℤ) + 1 + e - 53) (-1074) := rfl
  rw [h]
  congr 1
  ring

theorem le_target (m : ℕ) (e : ℤ) : -1074 ≤ target m e := by
  rw [target_eq]
  exact le_max_right _ _

theorem lt_two_zpow_log2 (m : ℕ) : (m : ℚ) + 1 ≤ 2 ^ ((m.log2 : ℤ) + 1) := by
  have h : m < 2 ^ (m.log2 + 1) := Nat.lt_log2_self
  have hcast : (2 : ℚ) ^ ((m.log2 : ℤ) + 1) = ((2 ^ (m.log2 + 1) : ℕ) : ℚ) := by
    push_cast
    exact_mod_cast zpow_natCast (2 : ℚ) (m.log2 + 1)
  rw [hcast]
  exact_mod_cast h

theorem two_zpow_log2_le (h : m ≠ 0) : (2 : ℚ) ^ (m.log2 : ℤ) ≤ m := by
  rw [zpow_natCast]
  exact_mod_cast Nat.log2_self_le h

/-- The kept digits of a number between `m` and `m + 1` are those of `m`. -/
theorem gridExponent_eq_target (hm : m ≠ 0) (hlow : (m : ℚ) ≤ y) (hhigh : y < m + 1) :
    gridExponent (y * 2 ^ e) = target m e := by
  have hpos := two_zpow_pos e
  have hm0 : (0 : ℚ) < m := by exact_mod_cast Nat.pos_of_ne_zero hm
  have hv : 0 < y * 2 ^ e := mul_pos (hm0.trans_le hlow) hpos
  have hlog : Int.log 2 (y * 2 ^ e) = m.log2 + e := by
    apply le_antisymm
    · rw [← Int.lt_add_one_iff, ← Int.lt_zpow_iff_log_lt one_lt_two hv]
      have h := mul_lt_mul_of_pos_right (hhigh.trans_le (lt_two_zpow_log2 m)) hpos
      rw [← two_zpow_add] at h
      rw [show (m.log2 : ℤ) + e + 1 = m.log2 + 1 + e by ring]
      exact_mod_cast h
    · rw [← Int.zpow_le_iff_le_log one_lt_two hv]
      have h := mul_le_mul_of_nonneg_right ((two_zpow_log2_le hm).trans hlow) hpos.le
      rw [← two_zpow_add] at h
      exact_mod_cast h
  rw [gridExponent, abs_of_pos hv, hlog, target_eq]

theorem Describes.nearestFloat_eq (h : Describes em y) (he : e ≤ target em.mantissa e) :
    nearestFloat (y * 2 ^ e) =
      roundEven (y * 2 ^ e / 2 ^ target em.mantissa e) * 2 ^ target em.mantissa e := by
  obtain ⟨f, h0, h1, rfl, -⟩ := h
  rcases eq_or_ne em.mantissa 0 with hm | hm
  · -- No digit is left. The number is below the smallest unit, if it is not zero.
    have htarget : target em.mantissa e = -1074 := by
      rw [target_eq, hm] at he ⊢
      simp at he ⊢
      omega
    rw [htarget] at he ⊢
    rcases eq_or_ne f 0 with rfl | hf
    · simp [hm]
    · have hpos : 0 < f := lt_of_le_of_ne h0 (Ne.symm hf)
      have hv : 0 < ((em.mantissa : ℚ) + f) * 2 ^ e := by
        rw [hm]
        simpa using mul_pos hpos (two_zpow_pos e)
      have hlog : Int.log 2 (((em.mantissa : ℚ) + f) * 2 ^ e) < e := by
        rw [← Int.lt_zpow_iff_log_lt one_lt_two hv, hm]
        have := mul_lt_mul_of_pos_right h1 (two_zpow_pos e)
        rw [one_mul] at this
        simpa using this
      have hgrid : gridExponent (((em.mantissa : ℚ) + f) * 2 ^ e) = -1074 := by
        rw [gridExponent, abs_of_pos hv]
        omega
      rw [nearestFloat, hgrid]
  · rw [nearestFloat, gridExponent_eq_target hm (by linarith) (by linarith)]

theorem ofMantissaAndAccuracy_mantissa (m : ℕ) (acc : Accuracy) :
    (ExtendedMantissa.ofMantissaAndAccuracy m acc).mantissa = m := by
  cases acc with
  | exact => rfl
  | inexact order => cases order <;> rfl

theorem shift_of_lt (hm : m < 2 ^ 53) (he : -1074 ≤ e) :
    shiftToTargetExponent Format.binary64 m e .exact = (⟨m, false, false⟩, e) := by
  have hlog : m.log2 ≤ 52 := by
    rcases eq_or_ne m 0 with rfl | hm0
    · simp
    · exact Nat.le_of_lt_succ ((Nat.log2_lt hm0).2 hm)
  have htarget : (target m e - e).toNat = 0 := by
    rw [target_eq]
    omega
  change (ExtendedMantissa.ofMantissaAndAccuracy m .exact >>> (target m e - e).toNat,
    e + (target m e - e).toNat) = _
  rw [htarget]
  simp [ExtendedMantissa.ofMantissaAndAccuracy, HShiftRight.hShiftRight, Nat.repeat]

/-- One digit too many after rounding, and it is a power of two. -/
theorem shift_of_eq (he : -1074 ≤ e) :
    shiftToTargetExponent Format.binary64 (2 ^ 53) e .exact = (⟨2 ^ 52, false, false⟩, e + 1) := by
  have htarget : (target (2 ^ 53) e - e).toNat = 1 := by
    rw [target_eq, Nat.log2_two_pow]
    omega
  change (ExtendedMantissa.ofMantissaAndAccuracy (2 ^ 53) .exact >>> (target (2 ^ 53) e - e).toNat,
    e + (target (2 ^ 53) e - e).toNat) = _
  rw [htarget]
  rfl

/-- The first shift brings the number to its last digit, where it is rounded. -/
theorem firstShift (h : Describes (.ofMantissaAndAccuracy m acc) y) (he : e ≤ target m e) :
    ∃ em, shiftToTargetExponent Format.binary64 m e acc = (em, target m e) ∧
      (em.roundedMantissa : ℤ) = roundEven (y * 2 ^ e / 2 ^ target m e) := by
  refine ⟨ExtendedMantissa.ofMantissaAndAccuracy m acc >>> (target m e - e).toNat, ?_, ?_⟩
  · have hexp : e + ((target m e - e).toNat : ℤ) = target m e := by omega
    exact congrArg (Prod.mk _) hexp
  · rw [(h.shiftRight _).roundedMantissa]
    congr 1
    have hsplit : target m e = e + ((target m e - e).toNat : ℤ) := by omega
    conv_rhs => rw [hsplit, two_zpow_add, zpow_natCast]
    have := two_zpow_pos e
    field_simp

theorem roundWithAccuracy_eq {em : ExtendedMantissa} (hfirst : shiftToTargetExponent
      Format.binary64 m e acc = (em, target m e)) (hle : em.roundedMantissa ≤ 2 ^ 53)
    (hnormal : 2 ^ 52 ≤ em.roundedMantissa ∨ target m e = -1074) :
    HasMagnitude (roundWithAccuracy Format.binary64 s m e acc) s
      (em.roundedMantissa * 2 ^ target m e) := by
  have hmin := le_target m e
  unfold roundWithAccuracy
  rw [hfirst]
  rcases Nat.lt_or_ge em.roundedMantissa (2 ^ 53) with hlt | hge
  · simp only [shift_of_lt hlt hmin]
    split
    · rename_i hzero
      exact .inl ⟨rfl, by rw [hzero]; simp⟩
    · exact .inr ⟨_, _, _, rfl, ⟨hlt, hmin, hnormal⟩, rfl⟩
  · have heq : em.roundedMantissa = 2 ^ 53 := Nat.le_antisymm hle hge
    simp only [heq, shift_of_eq hmin]
    refine .inr ⟨2 ^ 52, target m e + 1, by norm_num, rfl, ⟨by norm_num, by omega, .inl le_rfl⟩, ?_⟩
    rw [two_zpow_add, zpow_one]
    push_cast
    ring

theorem digits_bounds {f : ℚ} (h0 : 0 ≤ f) (h1 : f < 1) (he : e ≤ target m e) :
    (m + f) * 2 ^ e / 2 ^ target m e ≤ 2 ^ 53 ∧
      (2 ^ 52 ≤ (m + f) * 2 ^ e / 2 ^ target m e ∨ target m e = -1074) := by
  have hpos := two_zpow_pos e
  rw [div_le_iff₀ (two_zpow_pos _), le_div_iff₀ (two_zpow_pos _)]
  have hcast (n : ℕ) : (2 : ℚ) ^ n * 2 ^ target m e = 2 ^ (n + target m e) := by
    rw [two_zpow_add, zpow_natCast]
  rw [hcast, hcast]
  constructor
  · have hlog : (m + f : ℚ) ≤ 2 ^ ((m.log2 : ℤ) + 1) := by
      have := lt_two_zpow_log2 m
      linarith
    calc (m + f) * 2 ^ e ≤ 2 ^ ((m.log2 : ℤ) + 1) * 2 ^ e :=
          mul_le_mul_of_nonneg_right hlog hpos.le
      _ = 2 ^ ((m.log2 : ℤ) + 1 + e) := (two_zpow_add _ _).symm
      _ ≤ 2 ^ ((53 : ℕ) + target m e) := two_zpow_le (by rw [target_eq]; omega)
  · by_cases hmin : target m e = -1074
    · exact .inr hmin
    · have hexact : target m e = (m.log2 : ℤ) + e - 52 := by
        rw [target_eq] at hmin ⊢
        omega
      have hm : m ≠ 0 := by
        rintro rfl
        simp at hexact
        omega
      left
      calc (2 : ℚ) ^ (((52 : ℕ) : ℤ) + target m e) = 2 ^ ((m.log2 : ℤ) + e) := by
            rw [hexact]
            congr 1
            push_cast
            ring
        _ = 2 ^ (m.log2 : ℤ) * 2 ^ e := two_zpow_add _ _
        _ ≤ (m + f) * 2 ^ e := by
            have := two_zpow_log2_le hm
            exact mul_le_mul_of_nonneg_right (by linarith) hpos.le

/-- **Rounding is to nearest.** An exact number becomes the nearest fraction, if its mantissa has
enough digits to begin with. -/
theorem roundWithAccuracy_hasMagnitude (s : Sign) (h : Describes (.ofMantissaAndAccuracy m acc) y)
    (he : e ≤ target m e) :
    HasMagnitude (roundWithAccuracy Format.binary64 s m e acc) s (nearestFloat (y * 2 ^ e)) := by
  obtain ⟨em, hfirst, hem⟩ := firstShift h he
  have hnearest := h.nearestFloat_eq (by rwa [ofMantissaAndAccuracy_mantissa])
  rw [ofMantissaAndAccuracy_mantissa, ← hem, Int.cast_natCast] at hnearest
  rw [hnearest]
  obtain ⟨f, h0, h1, rfl, -⟩ := h
  rw [ofMantissaAndAccuracy_mantissa] at hem
  obtain ⟨hle, hnormal⟩ := digits_bounds h0 h1 he
  apply roundWithAccuracy_eq hfirst
  · have := roundEven_le (n := 2 ^ 53) (by exact_mod_cast hle)
    rw [← hem] at this
    exact_mod_cast this
  · refine hnormal.imp_left fun h => ?_
    have := le_roundEven (n := 2 ^ 52) (by exact_mod_cast h)
    rw [← hem] at this
    exact_mod_cast this

/-! ## Exact numbers -/

theorem roundWithAccuracy_exact (s : Sign) (he : e ≤ target m e) :
    HasMagnitude (roundWithAccuracy Format.binary64 s m e .exact) s (nearestFloat (m * 2 ^ e)) :=
  roundWithAccuracy_hasMagnitude s (describes_exact m) he

theorem shiftLeft_mul_two_zpow (m : ℕ) (e : ℤ) (k : ℕ) :
    ((m <<< k : ℕ) : ℚ) * 2 ^ (e - k) = m * 2 ^ e := by
  rw [Nat.shiftLeft_eq, sub_eq_add_neg, two_zpow_add, zpow_neg, zpow_natCast]
  push_cast
  field_simp

theorem target_shiftLeft (hm : m ≠ 0) (k : ℕ) : target (m <<< k) (e - k) = target m e := by
  have hm' : m <<< k ≠ 0 := by
    rw [Nat.shiftLeft_eq]
    exact Nat.mul_ne_zero hm (by positivity)
  have h := gridExponent_eq_target (e := e - k) hm' le_rfl (by linarith)
  have h' := gridExponent_eq_target (e := e) hm le_rfl (by linarith)
  rw [← h, ← h', shiftLeft_mul_two_zpow]

theorem round_hasMagnitude (s : Sign) (hm : m ≠ 0) (e : ℤ) :
    HasMagnitude (UnpackedFloat.round Format.binary64 s m e) s (nearestFloat (m * 2 ^ e)) := by
  have hround : UnpackedFloat.round Format.binary64 s m e =
      roundWithAccuracy Format.binary64 s (m <<< (e - target m e).toNat)
        (e - (e - target m e).toNat) .exact := rfl
  have htarget := target_shiftLeft (e := e) hm (e - target m e).toNat
  rw [hround, ← shiftLeft_mul_two_zpow m e (e - target m e).toNat]
  exact roundWithAccuracy_exact s (by rw [htarget]; omega)

def signOf (v : ℚ) : Sign := if v < 0 then .negative else .positive

theorem normalize_hasMagnitude {n : ℤ} (hn : n ≠ 0) (e : ℤ) (zeroSign : Sign) :
    HasMagnitude (UnpackedFloat.normalize Format.binary64 n e zeroSign) (signOf (n * 2 ^ e))
      |nearestFloat (n * 2 ^ e)| := by
  have hpos := two_zpow_pos e
  rw [abs_nearestFloat, abs_mul, abs_of_pos hpos]
  unfold UnpackedFloat.normalize signOf
  rcases lt_or_gt_of_ne hn with hneg | hgt
  · have hcompare : compare n 0 = .lt := compare_lt_iff_lt.2 hneg
    have hv : (n : ℚ) * 2 ^ e < 0 := mul_neg_of_neg_of_pos (by exact_mod_cast hneg) hpos
    have habs : |(n : ℚ)| = ((-n).toNat : ℚ) := by
      rw [abs_of_neg (by exact_mod_cast hneg)]
      exact_mod_cast (Int.toNat_of_nonneg (by omega : 0 ≤ -n)).symm
    rw [hcompare, if_pos hv, habs]
    exact round_hasMagnitude .negative (by omega) e
  · have hcompare : compare n 0 = .gt := compare_gt_iff_gt.2 hgt
    have hv : 0 < (n : ℚ) * 2 ^ e := mul_pos (by exact_mod_cast hgt) hpos
    have habs : |(n : ℚ)| = (n.toNat : ℚ) := by
      rw [abs_of_pos (by exact_mod_cast hgt)]
      exact_mod_cast (Int.toNat_of_nonneg hgt.le).symm
    rw [hcompare, if_neg (not_lt.2 hv.le), habs]
    exact round_hasMagnitude .positive (by omega) e

end Transect
