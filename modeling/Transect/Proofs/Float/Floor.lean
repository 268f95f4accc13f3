import Mathlib.Data.Rat.Floor
import Transect.Proofs.Float.Value

/-!
# Whole numbers below a float

The largest whole number not above a finite float is the floor of the number that it stands for.
-/

namespace Transect

open Float.Model
open Float.Model.UnpackedFloat

variable {x : Float} {a : ℚ}

theorem zpow_of_neg {e : ℤ} (h : ¬ 0 ≤ e) (m : ℕ) :
    (m : ℚ) * 2 ^ e = m / ((2 ^ (-e).toNat : ℕ) : ℚ) := by
  have hexp : e = -((-e).toNat : ℤ) := by omega
  conv_lhs => rw [hexp, zpow_neg, zpow_natCast, ← div_eq_mul_inv]
  push_cast
  rfl

theorem zpow_of_nonneg {e : ℤ} (h : 0 ≤ e) (m : ℕ) :
    (m : ℚ) * 2 ^ e = ((m * 2 ^ e.toNat : ℕ) : ℚ) := by
  obtain ⟨k, rfl⟩ := Int.eq_ofNat_of_zero_le h
  rw [Int.toNat_natCast, zpow_natCast]
  push_cast
  rfl

theorem Binary.floor_eq (b : Binary) : (b.floor : ℤ) = ⌊(b.mantissa : ℚ) * 2 ^ b.exponent⌋ := by
  unfold floor
  split_ifs with h
  · rw [zpow_of_nonneg h, Int.floor_natCast]
    rfl
  · have hfloor := Rat.floor_intCast_div_natCast b.mantissa (2 ^ (-b.exponent).toNat)
    rw [Int.cast_natCast] at hfloor
    rw [zpow_of_neg h, hfloor]
    rfl

theorem Binary.ceil_eq (b : Binary) : (b.ceil : ℤ) = ⌈(b.mantissa : ℚ) * 2 ^ b.exponent⌉ := by
  unfold ceil
  split_ifs with h
  · rw [zpow_of_nonneg h, Int.ceil_natCast]
    rfl
  · have hceil := Rat.ceil_intCast_div_natCast b.mantissa (2 ^ (-b.exponent).toNat)
    have hpos : 0 < 2 ^ (-b.exponent).toNat := by positivity
    have hpow : Nat.pow 2 (-b.exponent).toNat = 2 ^ (-b.exponent).toNat := rfl
    rw [Int.cast_natCast] at hceil
    rw [zpow_of_neg h, hceil, hpow]
    generalize 2 ^ (-b.exponent).toNat = p at hpos
    -- Dividing a negative number rounds down, that is up in size.
    have hdiv := Nat.div_add_mod (b.mantissa + (p - 1)) p
    have hmod := Nat.mod_lt (b.mantissa + (p - 1)) hpos
    have hquotient : -(b.mantissa : ℤ) / (p : ℤ) = -(((b.mantissa + (p - 1)) / p : ℕ) : ℤ) := by
      rw [Int.ediv_eq_iff_of_pos (by omega)]
      generalize (b.mantissa + (p - 1)) / p = q at *
      generalize (b.mantissa + (p - 1)) % p = r at *
      have hcast : (p : ℤ) * q + r = b.mantissa + (p - 1) := by
        have : ((p * q + r : ℕ) : ℤ) = ((b.mantissa + (p - 1) : ℕ) : ℤ) := congrArg _ hdiv
        push_cast [Nat.cast_sub hpos] at this
        exact this
      constructor <;> nlinarith
    rw [hquotient, neg_neg]

/-- **The floor of a finite float.** -/
theorem floor?_eq (h : rat? x = some a) : floor? x = some ⌊a⌋ := by
  unfold floor?
  rcases rat?_cases h with ⟨s, hu, rfl⟩ | ⟨s, m, e, hm, hu, -, -, rfl⟩
  · simp [hu]
  · cases s with
    | positive => simp only [hu, withSign, Binary.floor_eq]
    | negative => simp only [hu, withSign, Int.floor_neg, Binary.ceil_eq]

theorem floorWithin_eq (h : rat? x = some a) (lo hi : ℤ) : floorWithin lo hi x = clamp lo hi ⌊a⌋ := by
  simp [floorWithin, floor?_eq h]

/-! ## Bounds -/

theorem limit_bounds {lo hi : ℤ} (hlo : lo ≤ 0) (hhi : 0 ≤ hi) (x : Float) :
    lo ≤ limit lo hi x ∧ limit lo hi x ≤ hi := by
  unfold limit
  split <;> omega

/-- A whole number that is held between two bounds, or what an infinite float becomes there. -/
theorem held_bounds {lo hi : ℤ} (hlo : lo ≤ 0) (hhi : 0 ≤ hi) (x : Float) (n : Option ℤ) :
    lo ≤ n.elim (limit lo hi x) (clamp lo hi) ∧ n.elim (limit lo hi x) (clamp lo hi) ≤ hi := by
  cases n with
  | none => exact limit_bounds hlo hhi x
  | some n =>
    simp only [Option.elim_some, clamp]
    omega

theorem floorWithin_bounds {lo hi : ℤ} (hlo : lo ≤ 0) (hhi : 0 ≤ hi) (x : Float) :
    lo ≤ floorWithin lo hi x ∧ floorWithin lo hi x ≤ hi :=
  held_bounds hlo hhi x (floor? x)

theorem nearestWithin_bounds {lo hi : ℤ} (hlo : lo ≤ 0) (hhi : 0 ≤ hi) (x : Float) :
    lo ≤ nearestWithin lo hi x ∧ nearestWithin lo hi x ≤ hi :=
  held_bounds hlo hhi x (nearest? x)

end Transect
