import Transect.Proofs.Float.Size

/-!
# Roots of floats

The root of a float is computed from the whole root of a mantissa that is shifted far enough. The
exact root lies between the whole root and the next one, and the result is rounded from there. So
the root of a finite float has at most half as many digits before the point.
-/

namespace Transect

open Float.Model
open Float.Model.UnpackedFloat

variable {x : Float} {a : ℚ} {m : ℕ} {e : ℤ}

/-! ## The whole root -/

/-- The place at which the last digit of the whole root stands. -/
def rootPlace (m : ℕ) (e : ℤ) : ℤ :=
  min (e.ediv 2) (Format.binary64.targetExponent ((totalExponent m e + 1).ediv 2))

theorem rootPlace_eq (m : ℕ) (e : ℤ) :
    rootPlace m e = min (e / 2) (max (((m.log2 : ℤ) + 1 + e + 1) / 2 - 53) (-1074)) := rfl

/-- The mantissa, shifted so that its last digit stands at twice that place. -/
def rootMantissa (m : ℕ) (e : ℤ) : ℕ := m <<< (e - 2 * rootPlace m e).toNat

theorem rootMantissa_value (m : ℕ) (e : ℤ) :
    (rootMantissa m e : ℚ) * 2 ^ (2 * rootPlace m e) = m * 2 ^ e := by
  have hshift := shiftLeft_mul_two_zpow m e (e - 2 * rootPlace m e).toNat
  have hplace : e - ((e - 2 * rootPlace m e).toNat : ℤ) = 2 * rootPlace m e := by
    have := min_le_left (e / 2) (max (((m.log2 : ℤ) + 1 + e + 1) / 2 - 53) (-1074))
    rw [← rootPlace_eq] at this
    omega
  rwa [hplace] at hshift

theorem describes_below_half (n : ℕ) : Describes ⟨n, false, true⟩ (n + 1 / 4) :=
  ⟨1 / 4, by norm_num, by norm_num, rfl, by norm_num, by norm_num⟩

theorem describes_above_half (n : ℕ) : Describes ⟨n, true, true⟩ (n + 3 / 4) :=
  ⟨3 / 4, by norm_num, by norm_num, rfl, by norm_num, by norm_num⟩

theorem describes_root (n : ℕ) :
    ∃ y : ℚ, (Nat.sqrt n : ℚ) ≤ y ∧ y < Nat.sqrt n + 1 ∧
      Describes (.ofMantissaAndAccuracy (Nat.sqrt n)
        (if n - Nat.sqrt n * Nat.sqrt n = 0 then .exact
          else .inexact (if n - Nat.sqrt n * Nat.sqrt n ≤ Nat.sqrt n then .lt else .gt))) y := by
  -- The root is no fraction in general, but only its side of the half counts.
  split_ifs
  · exact ⟨Nat.sqrt n, le_rfl, by linarith, describes_exact _⟩
  · exact ⟨Nat.sqrt n + 1 / 4, by linarith, by linarith, describes_below_half _⟩
  · exact ⟨Nat.sqrt n + 3 / 4, by linarith, by linarith, describes_above_half _⟩

theorem rootPlace_le_target (hm : 0 < m) (e : ℤ) :
    rootPlace m e ≤ target (Nat.sqrt (rootMantissa m e)) (rootPlace m e) := by
  have hplace := rootPlace_eq m e
  rw [target_eq]
  rcases le_or_gt (rootPlace m e) (-1074) with hmin | hmin
  · exact hmin.trans (le_max_right _ _)
  · -- The shifted mantissa has at least 105 digits, so its root has at least 53.
    have hshift : 104 ≤ m.log2 + (e - 2 * rootPlace m e).toNat := by omega
    have hlarge : 2 ^ 52 * 2 ^ 52 ≤ rootMantissa m e :=
      calc 2 ^ 52 * 2 ^ 52 = 2 ^ 104 := by norm_num
        _ ≤ 2 ^ (m.log2 + (e - 2 * rootPlace m e).toNat) := Nat.pow_le_pow_right two_pos hshift
        _ = 2 ^ m.log2 * 2 ^ (e - 2 * rootPlace m e).toNat := pow_add _ _ _
        _ ≤ m * 2 ^ (e - 2 * rootPlace m e).toNat :=
          Nat.mul_le_mul_right _ (Nat.log2_self_le hm.ne')
        _ = rootMantissa m e := by rw [rootMantissa, Nat.shiftLeft_eq]
    have hroot : 2 ^ 52 ≤ Nat.sqrt (rootMantissa m e) := Nat.le_sqrt.2 hlarge
    have hlog : 52 ≤ (Nat.sqrt (rootMantissa m e)).log2 :=
      (Nat.le_log2 (by omega)).2 hroot
    omega

/-! ## The rounded root -/

theorem exists_rounds_sqrt (hm : 0 < m) (e : ℤ) :
    ∃ y : ℚ, (Nat.sqrt (rootMantissa m e) : ℚ) ≤ y ∧ y < Nat.sqrt (rootMantissa m e) + 1 ∧
      HasMagnitude (UnpackedFloat.sqrt Format.binary64 (.finite .positive m e hm)) .positive
        (nearestFloat (y * 2 ^ rootPlace m e)) := by
  obtain ⟨y, hlow, hhigh, hy⟩ := describes_root (rootMantissa m e)
  exact ⟨y, hlow, hhigh, roundWithAccuracy_hasMagnitude .positive hy (rootPlace_le_target hm e)⟩

/-- The next whole root is not beyond a power of two that the root is below. -/
theorem succ_root_mul_le {n : ℕ} {t k : ℤ} (hn : 0 < n) (h : (n : ℚ) * 2 ^ (2 * t) < 2 ^ (2 * k)) :
    ((Nat.sqrt n : ℚ) + 1) * 2 ^ t ≤ 2 ^ k := by
  have htk : t ≤ k := by
    by_contra hgt
    have hone : (1 : ℚ) ≤ n := by exact_mod_cast hn
    have hle : (2 : ℚ) ^ (2 * k) ≤ 2 ^ (2 * t) := two_zpow_le (by omega)
    have := le_mul_of_one_le_left (two_zpow_pos (2 * t)).le hone
    linarith
  obtain ⟨j, hj⟩ := Int.le.dest htk
  have hpow (i : ℕ) : (2 : ℚ) ^ (i : ℤ) = ((2 ^ i : ℕ) : ℚ) := by
    rw [zpow_natCast]
    push_cast
    rfl
  have hroot : Nat.sqrt n < 2 ^ j := by
    rw [Nat.sqrt_lt]
    have hsplit : 2 * k = ((j + j : ℕ) : ℤ) + 2 * t := by
      push_cast
      omega
    rw [hsplit, two_zpow_add, mul_lt_mul_iff_left₀ (two_zpow_pos _), hpow, pow_add] at h
    exact_mod_cast h
  have hnext : (Nat.sqrt n : ℚ) + 1 ≤ 2 ^ (j : ℤ) := by
    rw [hpow]
    exact_mod_cast hroot
  calc ((Nat.sqrt n : ℚ) + 1) * 2 ^ t ≤ 2 ^ (j : ℤ) * 2 ^ t :=
        mul_le_mul_of_nonneg_right hnext (two_zpow_pos t).le
    _ = 2 ^ k := by rw [← two_zpow_add, add_comm, hj]

theorem rootMantissa_pos (hm : 0 < m) (e : ℤ) : 0 < rootMantissa m e := by
  rw [rootMantissa, Nat.shiftLeft_eq]
  positivity

/-- **The root of a finite float is finite**, and far from the bound. -/
theorem exists_rat?_sqrt (hx : rat? x = some a) (ha : 0 ≤ a) :
    ∃ r, rat? x.sqrt = some r ∧ r ≤ 2 ^ (512 : ℤ) := by
  rcases ha.eq_or_lt with rfl | hpos
  · obtain ⟨s, hu⟩ := exists_unpack_zero hx
    have hsqrt : UnpackedFloat.sqrt Format.binary64 (unpack x) = .zero s := by
      rw [hu]
      rfl
    have hstored := hsqrt ▸ stored_zero s
    exact ⟨0, by rw [rat?, unpack_sqrt hstored, hsqrt, value?], (two_zpow_pos 512).le⟩
  · obtain ⟨m, e, hm, hu, rfl⟩ := unpack_of_pos hx hpos
    obtain ⟨y, hlow, hhigh, hmagnitude⟩ := exists_rounds_sqrt hm e
    have hy : 0 ≤ y * 2 ^ rootPlace m e :=
      mul_nonneg ((Nat.cast_nonneg _).trans hlow) (two_zpow_pos _).le
    have hbound : y * 2 ^ rootPlace m e ≤ 2 ^ (512 : ℤ) := by
      have hfinite : (rootMantissa m e : ℚ) * 2 ^ (2 * rootPlace m e) < 2 ^ (2 * 512 : ℤ) := by
        have hlt := (isFraction_of_rat? hx).2
        rw [abs_of_pos hpos] at hlt
        rw [rootMantissa_value]
        exact hlt
      exact (mul_le_mul_of_nonneg_right hhigh.le (two_zpow_pos _).le).trans
        (succ_root_mul_le (rootMantissa_pos hm e) hfinite)
    have hrounds : Rounds (UnpackedFloat.sqrt Format.binary64 (unpack x))
        (y * 2 ^ rootPlace m e) := by
      refine ⟨.positive, ?_, fun _ => by rw [signOf, if_neg (not_lt.2 hy)]⟩
      rw [hu, abs_of_nonneg (nearestFloat_nonneg hy)]
      exact hmagnitude
    have hnearest : IsNearest x.sqrt (y * 2 ^ rootPlace m e) := hrounds.isNearest
    refine ⟨_, hnearest.rat?_of_abs_le ?_, (isFraction_two_zpow (by norm_num)).nearestFloat_le hbound⟩
    rw [abs_of_nonneg hy]
    exact hbound.trans (two_zpow_le (by norm_num))

end Transect
