import Transect.Proofs.Decimal.ReadBack
import Transect.Proofs.Decimal.Text

/-!
# Floats are read back from JSON

The JSON form of a float has a point or an exponent. Either form is the text of the float's shortest
decimal, with a digit after the point where the decimal is a whole number.
-/

namespace Transect

open Float.Model
open Float.Model.UnpackedFloat

variable {x : Float}

/-! ## Exponents -/

theorem readExponent?_digitsOf (negative : Bool) (n : ℕ) :
    readExponent? ('e' :: (if negative then '-' else '+') :: digitsOf n) =
      some (if negative then -(n : ℤ) else n) := by
  have hnumber : PlainNumber (digitsOf n) n := ⟨digits_digitsOf n, by rw [ofDigitChars_digitsOf]⟩
  cases negative with
  | false => exact readExponent?_eq_some_iff.2 (.present (.inl rfl) (.plus hnumber))
  | true => exact readExponent?_eq_some_iff.2 (.present (.inl rfl) (.minus hnumber))

/-! ## Which form -/

theorem jsonFloat_eq_signed {s : Decimal} (h : shortest? .toEven x = some s) :
    (jsonFloat x).toList = signed (isNegative x) s.json := by
  unfold jsonFloat isNegative
  rw [String.toList_ofList]
  unfold shortest? at h
  cases hu : unpack x <;> rw [hu] at h <;> cases h <;> rfl

theorem pow_length_le {n : ℕ} (hn : 0 < n) : 10 ^ ((digitsOf n).length - 1) ≤ n := by
  rcases Nat.eq_zero_or_pos ((digitsOf n).length - 1) with hone | hmore
  · rw [hone]
    exact hn
  · have := (digitsOf_length_le_iff (n := n) hmore).not
    omega

namespace Decimal

variable {s : Decimal}

theorem ten_zpow_leading_le (h : 0 < s.digits) : (10 : ℚ) ^ (s.leading - 1) ≤ s.value := by
  have hlength := digitsOf_length_pos s.digits
  have hpow : (10 : ℚ) ^ ((digitsOf s.digits).length - 1) ≤ s.digits := by
    exact_mod_cast pow_length_le h
  have hsplit : s.leading - 1 = (((digitsOf s.digits).length - 1 : ℕ) : ℤ) + s.exponent := by
    unfold leading
    omega
  rw [hsplit, ten_zpow_add, zpow_natCast, value]
  exact mul_le_mul_of_nonneg_right hpow (ten_zpow_pos _).le

/-- A decimal that is not too large has an exponent only if it has more places than digits. -/
theorem json_cases (hvalue : s.value < 10 ^ 16) :
    s.json = s.positional ∨
      s.json = s.scientific ∧ (digitsOf s.digits).length + 5 ≤ s.places := by
  rcases Nat.eq_zero_or_pos s.digits with hzero | hdigits
  · rw [json, if_pos (.inl hzero)]
    exact .inl rfl
  · have hlarge : s.leading ≤ 16 := by
      have hpow : (10 : ℚ) ^ (s.leading - 1) < 10 ^ (16 : ℤ) :=
        (ten_zpow_leading_le hdigits).trans_lt (hvalue.trans_eq (zpow_natCast 10 16).symm)
      have := (zpow_lt_zpow_iff_right₀ (by norm_num)).1 hpow
      omega
    by_cases hsmall : -5 < s.leading
    · rw [json, if_pos (.inr ⟨hsmall, hlarge⟩)]
      exact .inl rfl
    · rw [json, if_neg (by omega)]
      refine .inr ⟨rfl, ?_⟩
      unfold leading at hsmall
      unfold places
      omega

/-- A decimal with few places that is not too large has no exponent. -/
theorem json_eq_positional (hplaces : s.places ≤ 5) (hvalue : s.value < 10 ^ 16) :
    s.json = s.positional := by
  rcases json_cases hvalue with h | ⟨-, hlength⟩
  · exact h
  · have := digitsOf_length_pos s.digits
    omega

variable (d : Decimal)

/-! ## Positional form -/

theorem positional_of_places (h : d.places ≠ 0) : d.positional = d.plain := by
  rw [positional, plain, if_neg h, if_neg h]

theorem exists_readDecimal?_positional :
    ∃ d', readDecimal? d.positional = some d' ∧ d'.value = d.value := by
  by_cases hplaces : d.places = 0
  · have hzero : ∀ c ∈ ['0'], c.isDigit = true := by simp
    rw [positional, if_pos hplaces]
    refine ⟨_, readDecimal?_point d.whole hzero, ?_⟩
    rw [← cast_whole hplaces, value]
    simp [Nat.ofDigitChars]
    ring
  · rw [d.positional_of_places hplaces]
    exact exists_readDecimal?_plain d

/-! ## Exponent form -/

/-- The digits with a point after the first one, if there are more. -/
def insertPoint : List Char → List Char
  | first :: second :: rest => first :: '.' :: second :: rest
  | few => few

theorem scientific_eq :
    d.scientific = insertPoint (digitsOf d.digits) ++
      'e' :: (if d.leading - 1 < 0 then '-' else '+') :: digitsOf (d.leading - 1).natAbs := by
  unfold scientific
  rcases digitsOf d.digits with _ | ⟨first, _ | ⟨second, rest⟩⟩ <;> rfl

theorem readDecimal?_insertPoint {first : Char} {rest tail : List Char} {power : ℤ}
    (hall : ∀ c ∈ first :: rest, c.isDigit = true)
    (hpower : readExponent? ('e' :: tail) = some power) :
    readDecimal? (insertPoint (first :: rest) ++ 'e' :: tail) =
      some ⟨Nat.ofDigitChars 10 (first :: rest) 0, power - rest.length⟩ := by
  have htext := readExponent?_eq_some_iff.1 hpower
  cases rest with
  | nil =>
    have hread := readDecimal?_whole hall htext.head
    rw [hpower] at hread
    simpa [insertPoint] using hread
  | cons second rest =>
    have hsplit : ∀ c ∈ [first] ++ second :: rest, c.isDigit = true := hall
    have hread := readDecimal?_fraction hsplit fun c hc => (htext.head c hc).1
    rw [hpower] at hread
    simpa [insertPoint, sub_eq_neg_add] using hread

theorem readDecimal?_scientific : readDecimal? d.scientific = some d := by
  obtain ⟨first, rest, hdigits⟩ := List.exists_cons_of_ne_nil
    (List.ne_nil_of_length_pos (digitsOf_length_pos d.digits))
  have hall : ∀ c ∈ first :: rest, c.isDigit = true := fun c hc =>
    isDigit_of_mem_digitsOf (hdigits ▸ hc)
  have hnumber := ofDigitChars_digitsOf d.digits
  have hleading : d.leading = rest.length + 1 + d.exponent := by
    rw [leading, hdigits, List.length_cons, Nat.cast_succ]
  have hpower := readExponent?_digitsOf (decide (d.leading - 1 < 0)) (d.leading - 1).natAbs
  simp only [decide_eq_true_eq] at hpower
  rw [hdigits] at hnumber
  rw [scientific_eq, hdigits, readDecimal?_insertPoint hall hpower, hnumber]
  obtain ⟨digits, exponent⟩ := d
  congr 2
  simp only at hleading ⊢
  split_ifs <;> omega

/-! ## JSON form -/

/-- The JSON form of a decimal means the number of the decimal. -/
theorem exists_readDecimal?_json :
    ∃ d', readDecimal? d.json = some d' ∧ d'.value = d.value := by
  unfold json
  split_ifs
  · exact d.exists_readDecimal?_positional
  · exact ⟨d, d.readDecimal?_scientific, rfl⟩

end Decimal

theorem numeric_jsonFloat (h : x.isFinite = true) : Numeric (jsonFloat x).toList := by
  have hfinite : x.isFinite = (unpack x).isFinite := rfl
  rw [hfinite] at h
  unfold jsonFloat
  rw [String.toList_ofList]
  cases hx : unpack x with
  | notANumber =>
    rw [hx] at h
    cases h
  | infinity s =>
    rw [hx] at h
    cases h
  | zero s => exact numeric_signed _ (Decimal.numeric_json _)
  | finite s m e hm => exact numeric_signed _ (Decimal.numeric_json _)

/-- **A finite float is read back from its JSON form.** -/
theorem readFloat_jsonFloat (h : x.isFinite = true) : readFloat (jsonFloat x).toList = .ok x := by
  have hfinite : x.isFinite = (unpack x).isFinite := rfl
  rw [hfinite] at h
  unfold jsonFloat
  rw [String.toList_ofList]
  cases hx : unpack x with
  | notANumber =>
    rw [hx] at h
    cases h
  | infinity s =>
    rw [hx] at h
    cases h
  | zero s => exact readFloat_signed_zero hx (d := ⟨0, -1⟩) rfl rfl
  | finite s m e hm =>
    obtain ⟨d, hread, hvalue⟩ :=
      (shortest Format.binary64 .toEven m e).exists_readDecimal?_json
    exact readFloat_signed_finite hx hread hvalue

end Transect
