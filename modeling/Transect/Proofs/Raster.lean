import Transect.Proofs.Float.Floor
import Transect.Proofs.Rounding.Whole
import Transect.Raster

/-!
# The values of a raster

What a raster answers is a number. A rounded value is finite, however large the number before
rounding: it is a count of 64 bits over a power of ten.
-/

namespace Transect

open Float.Model

variable {v x : Float} {a : ℚ} {d : ℕ}

/-! ## Rounded values -/

/-- A magnitude is a count, for floats of any kind and any number of places. -/
theorem magnitude_le (v : Float) (d : ℕ) : magnitude v d ≤ maxCount := by
  unfold magnitude
  cases hunits : (shortest? .up v).bind (·.units? d) with
  | none =>
    have := (nearestWithin_bounds le_rfl (Int.natCast_nonneg maxCount)
      (v.abs * powerOfTen d)).2
    simp only
    omega
  | some n =>
    obtain ⟨s, -, hs⟩ := Option.bind_eq_some_iff.1 hunits
    rw [units?_eq] at hs
    split_ifs at hs with hle
    cases hs
    exact hle

theorem natAbs_quantize_le (v : Float) (d : ℕ) : (quantize v d).natAbs ≤ maxCount := by
  have := magnitude_le v d
  unfold quantize
  split_ifs <;> omega

theorem exists_rat?_floatOfInt {n : ℤ} (h : n.natAbs ≤ maxCount) :
    ∃ a, rat? (floatOfInt n) = some a ∧ |a| ≤ 2 ^ (63 : ℤ) := by
  have hle : |(n.natAbs : ℚ)| ≤ 2 ^ (63 : ℤ) := by
    have hnat : n.natAbs ≤ 2 ^ 63 := h.trans (by decide)
    rw [abs_of_nonneg (Nat.cast_nonneg _)]
    exact_mod_cast hnat
  have hnat := (isNearest_floatOfNat n.natAbs).rat?_of_abs_le
    (hle.trans (two_zpow_le (by norm_num)))
  have hround := (isFraction_two_zpow (e := 63) (by norm_num)).abs_nearestFloat_le hle
  refine ⟨_, rat?_floatOfInt hnat, ?_⟩
  split_ifs
  · rwa [abs_neg]
  · exact hround

/-- **A rounded value is finite.** -/
theorem exists_rat?_roundTo (v : Float) (d : ℕ) : ∃ a, rat? (roundTo v d) = some a := by
  obtain ⟨q, hq, hle⟩ := exists_rat?_floatOfInt (natAbs_quantize_le v d)
  obtain ⟨k, hk, hten⟩ := exists_size?_powerOfTen d
  unfold roundTo
  rcases size?_cases hk with ⟨p, rfl, hp, -⟩ | ⟨rfl, hinf⟩
  · have hone : (1 : ℚ) ≤ p :=
      (one_le_pow₀ (by norm_num)).trans (WithTop.coe_le_coe.1 hten)
    have hpos : 0 < p := by linarith
    have hbound : |q / p| ≤ 2 ^ (970 : ℤ) := by
      rw [abs_div, abs_of_pos hpos]
      calc |q| / p ≤ |q| := div_le_self (abs_nonneg q) hone
        _ ≤ 2 ^ (63 : ℤ) := hle
        _ ≤ 2 ^ (970 : ℤ) := two_zpow_le (by norm_num)
    exact ⟨_, (isNearest_div hq hp hpos.ne').rat?_of_abs_le hbound⟩
  · -- An infinite power of ten leaves a zero.
    have hzero : ∃ s, UnpackedFloat.div Format.binary64 (unpack (floatOfInt (quantize v d)))
        (unpack (powerOfTen d)) = .zero s := by
      rw [hinf]
      rcases rat?_cases hq with ⟨s, hs, -⟩ | ⟨s, m, e, hm, hs, -⟩ <;>
        exact ⟨_, by rw [hs]; rfl⟩
    obtain ⟨s, hs⟩ := hzero
    have hstored := hs ▸ stored_zero s
    exact ⟨0, by rw [rat?, unpack_div hstored, hs, value?]⟩

/-! ## Values -/

namespace Raster

variable {r : Raster} {tree : FileTree} {p : Point}

theorem exists_of_finish {answer : Option Float} (h : r.finish answer = some v) :
    ∃ w, r.isData w = true ∧ v = r.places.elim w (roundTo w) := by
  unfold finish at h
  obtain ⟨w, hw, rfl⟩ := Option.map_eq_some_iff.1 h
  exact ⟨w, (Option.filter_eq_some_iff.1 hw).2, rfl⟩

/-- **A raster never answers with what is no number.** -/
theorem isNaN_of_value (h : (r.value tree p).1 = .ok (some v)) : v.isNaN = false := by
  unfold value at h
  generalize r.source.value tree p = found at h
  obtain ⟨answer, source⟩ := found
  cases answer with
  | error cause => cases h
  | ok answer =>
    obtain ⟨w, hdata, rfl⟩ := exists_of_finish (Except.ok.inj h)
    cases r.places with
    | none =>
      rw [isData, Bool.and_eq_true, Bool.not_eq_true'] at hdata
      exact hdata.1
    | some d =>
      obtain ⟨a, ha⟩ := exists_rat?_roundTo w d
      exact isNaN_of_rat? ha

end Raster

end Transect
