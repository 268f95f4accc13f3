import Transect.Proofs.Decimal.Cell
import Transect.Proofs.Decimal.Grammar

/-!
# Floats are read back

The plain form of a float is the text of a decimal in the cell of the float. Reading the text gives
the number that the decimal stands for, and the float nearest to it is the one that was written.
-/

namespace Transect

open Float.Model
open Float.Model.UnpackedFloat

variable {x : Float} {d : Decimal} {cs : List Char}

/-! ## Texts of decimals -/

/-- Digits, a point and more digits. -/
theorem readDecimal?_point (n : ℕ) (h : ∀ c ∈ cs, c.isDigit = true) :
    readDecimal? (digitsOf n ++ '.' :: cs) =
      some ⟨10 ^ cs.length * n + Nat.ofDigitChars 10 cs 0, -cs.length⟩ := by
  have hdigits := digits_digitsOf n
  have hall : Digits (digitsOf n ++ cs) :=
    ⟨by simp [hdigits.1], List.forall_mem_append.2 ⟨hdigits.2, h⟩⟩
  rw [(MantissaText.point hall).readDecimal?_eq, Nat.ofDigitChars_append, ofDigitChars_digitsOf,
    Nat.ofDigitChars_eq_ofDigitChars_zero]

theorem readDecimal?_digitsOf (n : ℕ) : readDecimal? (digitsOf n) = some ⟨n, 0⟩ := by
  rw [(MantissaText.whole (digits_digitsOf n)).readDecimal?_eq, ofDigitChars_digitsOf]

/-- The digits behind the point are as many as there are places, and go on with those of the whole
part. -/
theorem fractionDigits_of_neg {d : Decimal} (h : d.exponent < 0) :
    -(d.fractionDigits.length : ℤ) = d.exponent ∧
      10 ^ d.fractionDigits.length * d.whole + Nat.ofDigitChars 10 d.fractionDigits 0 =
        d.digits := by
  have hexponent : ¬ 0 ≤ d.exponent := not_le.2 h
  have hplaces : d.places ≠ 0 := by
    unfold Decimal.places
    omega
  have hfraction : d.fraction < 10 ^ d.places := by
    rw [Decimal.fraction, if_neg hexponent]
    exact Nat.mod_lt _ (Nat.pow_pos (by decide))
  have hlength := padZeros_digitsOf_length (Nat.pos_of_ne_zero hplaces) hfraction
  rw [Decimal.fractionDigits, if_neg hplaces, hlength, ofDigitChars_padZeros]
  constructor
  · unfold Decimal.places
    omega
  · rw [Decimal.whole, Decimal.fraction, if_neg hexponent, if_neg hexponent]
    exact Nat.div_add_mod _ _

theorem Decimal.length_fractionDigits (d : Decimal) : d.fractionDigits.length = d.places := by
  rcases le_or_gt 0 d.exponent with hexponent | hexponent
  · have hplaces : d.places = 0 := by
      unfold places
      omega
    simp [fractionDigits, hplaces]
  · have := (fractionDigits_of_neg hexponent).1
    unfold places
    omega

/-- A decimal without places is its whole part. -/
theorem Decimal.cast_whole (h : d.places = 0) : (d.whole : ℚ) = d.value := by
  have hexponent : 0 ≤ d.exponent := by
    unfold places at h
    omega
  obtain ⟨k, hk⟩ := Int.eq_ofNat_of_zero_le hexponent
  have hpow : Nat.pow 10 k = 10 ^ k := rfl
  rw [whole, if_pos hexponent, value, hk, Int.toNat_natCast, hpow, zpow_natCast]
  push_cast
  rfl

/-- A decimal with places is read back as it is, and a whole number without its zeros apart. -/
theorem readDecimal?_plain (d : Decimal) :
    readDecimal? d.plain = some (if 0 ≤ d.exponent then ⟨d.whole, 0⟩ else d) := by
  unfold Decimal.plain
  split_ifs with hplaces hexponent hexponent
  · rw [List.append_nil, readDecimal?_digitsOf]
  · unfold Decimal.places at hplaces
    omega
  · unfold Decimal.places at hplaces
    omega
  · obtain ⟨hlength, hdigits⟩ := fractionDigits_of_neg (not_le.1 hexponent)
    rw [readDecimal?_point _ fun c => isDigit_of_mem_fractionDigits, hlength, hdigits]

theorem exists_readDecimal?_plain (d : Decimal) :
    ∃ d', readDecimal? d.plain = some d' ∧ d'.value = d.value := by
  refine ⟨_, readDecimal?_plain d, ?_⟩
  split_ifs with hexponent
  · have hplaces : d.places = 0 := by
      unfold Decimal.places
      omega
    rw [← Decimal.cast_whole hplaces, Decimal.value, zpow_zero, mul_one]
  · rfl

/-! ## Signs -/

theorem takeSign_signed (negative : Bool) (h : takeSign cs = (false, cs)) :
    takeSign (signed negative cs) = (negative, cs) := by
  cases negative with
  | false => exact h
  | true => rfl

theorem readFloat_signed (negative : Bool) (h : readUnsigned? cs = some x) :
    readFloat (signed negative cs) = .ok (if negative then -x else x) := by
  cases negative with
  | false => exact readFloat_append .absent h
  | true => exact readFloat_append .minus h

theorem readFloat_signed_decimal (negative : Bool) (h : readDecimal? cs = some d) :
    readFloat (signed negative cs) = .ok (if negative then -d.toFloat else d.toFloat) :=
  readFloat_signed negative (readUnsigned?_eq_some_iff.2 (.inl ⟨d, h, rfl⟩))

/-! ## Floats -/

theorem toFloat_of_finite {s : Sign} {m : ℕ} {e : ℤ} {hm : 0 < m} {tie : Tie}
    (hx : unpack x = .finite s m e hm)
    (hd : d.value = (shortest Format.binary64 tie m e).value) :
    (if s == .negative then -d.toFloat else d.toFloat) = x := by
  obtain ⟨hcanonical, he⟩ := stored_unpack x s m e hm hx
  have hcell := inCell_shortest hm hcanonical.exponent he tie
  have hnearest := isNearest_toFloat d
  have hpos := mul_two_zpow_pos hm e
  rw [IsNearest, hd, hcell.nearestFloat_eq hcanonical hm, abs_of_pos hpos,
    if_pos (hcanonical.lt_floatBound_iff.2 he)] at hnearest
  have hrat : rat? x = some (withSign s (m * 2 ^ e)) := by rw [rat?, hx, value?]
  cases s with
  | positive => exact eq_of_rat?_eq hnearest hrat hpos.ne'
  | negative => exact eq_of_rat?_eq (rat?_neg hnearest) hrat (neg_ne_zero.2 hpos.ne')

theorem unpack_neg_eq {s : Sign} {u : UnpackedFloat} (hx : unpack x = u) :
    unpack (if s == .negative then -x else x) = if s == .negative then u.neg else u := by
  cases s with
  | positive => exact hx
  | negative => exact (unpack_neg x).trans (by rw [hx]; rfl)

/-- A zero is read back from any decimal without digits. -/
theorem readFloat_signed_zero {s : Sign} (hx : unpack x = .zero s)
    (hread : readDecimal? cs = some d) (hd : d.digits = 0) :
    readFloat (signed (s == .negative) cs) = .ok x := by
  rw [readFloat_signed_decimal _ hread]
  congr 1
  apply eq_of_unpack_eq
  rw [hx, unpack_neg_eq (unpack_toFloat_of_zero hd)]
  cases s <;> rfl

/-- Any other finite float is read back from any decimal that means its shortest one. -/
theorem readFloat_signed_finite {s : Sign} {m : ℕ} {e : ℤ} {hm : 0 < m} {tie : Tie}
    (hx : unpack x = .finite s m e hm) (hread : readDecimal? cs = some d)
    (hd : d.value = (shortest Format.binary64 tie m e).value) :
    readFloat (signed (s == .negative) cs) = .ok x := by
  rw [readFloat_signed_decimal _ hread, toFloat_of_finite hx hd]

/-- **A float is read back from its plain form.** -/
theorem readFloat_plainFloat (h : x.isNaN = false) : readFloat (plainFloat x).toList = .ok x := by
  unfold plainFloat
  rw [String.toList_ofList]
  cases hx : unpack x with
  | notANumber =>
    have : x.isNaN = (unpack x).isNaN := rfl
    rw [this, hx] at h
    cases h
  | infinity s =>
    have hword : readUnsigned? ['i', 'n', 'f'] = some (1 / 0) := rfl
    unfold plainText
    rw [readFloat_signed (s == .negative) hword]
    congr 1
    apply eq_of_unpack_eq
    rw [hx, unpack_neg_eq (u := .infinity .positive) rfl]
    cases s <;> rfl
  | zero s =>
    have hread : readDecimal? ['0'] = some ⟨0, 0⟩ := rfl
    exact readFloat_signed_zero hx hread rfl
  | finite s m e hm =>
    obtain ⟨d, hread, hvalue⟩ := exists_readDecimal?_plain (shortest Format.binary64 .up m e)
    exact readFloat_signed_finite hx hread hvalue

end Transect
