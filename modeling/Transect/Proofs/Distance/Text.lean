import Transect.Proofs.Distance
import Transect.Proofs.Profile.Table
import Transect.Proofs.Rounding.Settled

/-!
# One text for a distance

A table has the tenths of a distance with a point before the last digit. JSON has the float that the
distance is turned into, written as its shortest decimal. Up to fifteen digits the two texts are the
same.
-/

namespace Transect

variable {x : Float} {s : Decimal} {n : ℕ}

/-! ## Exact tenths -/

theorem digitsOf_head (n : ℕ) (h : (digitsOf n).head? = some '0') : digitsOf n = ['0'] := by
  induction n using Nat.strong_induction_on with
  | _ n ih =>
    rcases Nat.lt_or_ge n 10 with hlt | hge
    · have hdigit : digitsOf n = [n.digitChar] := Nat.toDigits_of_lt_base hlt
      rw [hdigit] at h ⊢
      rw [Option.some.inj h]
    · have hsplit : digitsOf n = digitsOf (n / 10) ++ [(n % 10).digitChar] :=
        Nat.toDigits_of_base_le (by decide) hge
      rw [hsplit, List.head?_append_of_ne_nil _ (List.ne_nil_of_length_pos
        (digitsOf_length_pos _))] at h
      have hzero := ofDigitChars_digitsOf (n / 10)
      rw [ih (n / 10) (by omega) h] at hzero
      have : n / 10 = 0 := hzero.symm
      omega

/-- The decimal of a number of tenths: a minus in front of a negative number, a whole part without
idle zeros, and one digit after the point. -/
def IsTenths (t : ℤ) (cs : List Char) : Prop :=
  ∃ (whole : List Char) (last : Char), cs = signed (t < 0) (whole ++ ['.', last]) ∧
    whole ≠ [] ∧ (∀ c ∈ whole, c.isDigit = true) ∧ (whole.head? = some '0' → whole = ['0']) ∧
    last.isDigit = true ∧ pointed (Nat.ofDigitChars 10 whole 0) [last] = |(t : ℚ)| / 10

theorem Distance.isTenths_text (d : Distance) : IsTenths d.tenths d.text.toList := by
  have hlast : digitsOf (d.tenths.natAbs % 10) = [(d.tenths.natAbs % 10).digitChar] :=
    Nat.toDigits_of_lt_base (Nat.mod_lt _ (by decide))
  have hdigit : (d.tenths.natAbs % 10).digitChar.isDigit = true :=
    isDigit_of_mem_digitsOf (by rw [hlast]; exact List.mem_singleton_self _)
  refine ⟨digitsOf (d.tenths.natAbs / 10), (d.tenths.natAbs % 10).digitChar, ?_,
    List.ne_nil_of_length_pos (digitsOf_length_pos _), fun _ => isDigit_of_mem_digitsOf,
    digitsOf_head _, hdigit, ?_⟩
  · rw [text, String.toList_ofList, hlast]
  · have hvalue := ofDigitChars_digitsOf (d.tenths.natAbs % 10)
    have hwhole := Nat.div_add_mod d.tenths.natAbs 10
    rw [hlast] at hvalue
    rw [pointed, ofDigitChars_digitsOf, Nat.ofDigitChars_eq_ofDigitChars_zero, hvalue,
      List.length_singleton, pow_one, pow_one, hwhole, Nat.cast_natAbs, Int.cast_abs]

theorem Distance.text_injective {d d' : Distance} (h : d.text = d'.text) : d = d' := by
  obtain ⟨t⟩ := d
  obtain ⟨t'⟩ := d'
  have hread := readTenths?_text ⟨t⟩
  rw [h, readTenths?_text] at hread
  cases hread
  rfl

/-! ## The JSON form -/

namespace Decimal

theorem positional_of_tenths (hplaces : s.places ≤ 1) (hvalue : s.value * 10 = n) :
    s.positional = digitsOf (n / 10) ++ '.' :: digitsOf (n % 10) := by
  rcases le_or_gt 0 s.exponent with hexponent | hexponent
  · have hzero : s.places = 0 := by
      unfold places
      omega
    have hn : n = 10 * s.whole := by
      rw [← cast_whole hzero, mul_comm] at hvalue
      exact_mod_cast hvalue.symm
    rw [positional, if_pos hzero, hn, Nat.mul_div_cancel_left _ (by decide), Nat.mul_mod_right]
    rfl
  · have hone : s.exponent = -1 := by
      unfold places at hplaces
      omega
    have hplace : s.places = 1 := by
      unfold places
      omega
    have hn : n = s.digits := by
      rw [value, hone, zpow_neg, zpow_one, mul_assoc, inv_mul_cancel₀ (by norm_num),
        mul_one] at hvalue
      exact_mod_cast hvalue.symm
    have hlength := digitsOf_length_pos (s.digits % 10)
    have hpad : padZeros 1 (digitsOf (s.digits % 10)) = digitsOf (s.digits % 10) := by
      rw [padZeros, show 1 - (digitsOf (s.digits % 10)).length = 0 by omega]
      rfl
    have hpow : Nat.pow 10 1 = 10 := rfl
    rw [positional, if_neg (by omega), fractionDigits, if_neg (by omega), whole, fraction,
      if_neg (by omega), if_neg (by omega), hplace, hpow, hpad, hn]

end Decimal

/-! ## Both texts -/

namespace Distance

variable {d : Distance}

theorem rat?_ten_eq_pow : rat? 10 = some (10 ^ 1) := by
  rw [pow_one]
  exact rat?_ten

theorem isNegative_toFloat (h : d.tenths.natAbs < 10 ^ 15) :
    isNegative d.toFloat = decide (d.tenths < 0) := by
  obtain ⟨t⟩ := d
  rcases eq_or_ne t 0 with rfl | hzero
  · rfl
  · exact isNegative_floatOfInt_div rat?_ten_eq_pow (by decide) h hzero

theorem json_eq_text (h : d.tenths.natAbs < 10 ^ 15) : d.json = d.text := by
  obtain ⟨s, hs, hvalue, hplaces⟩ :=
    shortest?_floatOfInt_div (d := 1) rat?_ten_eq_pow (by decide) h .toEven
  rw [pow_one] at hvalue
  have hsmall : s.value < 10 ^ 16 := by
    have : (d.tenths.natAbs : ℚ) < 10 ^ 15 := by exact_mod_cast h
    linarith
  apply String.toList_injective
  rw [json, jsonFloat_eq_signed (x := d.toFloat) hs, isNegative_toFloat h,
    Decimal.json_eq_positional (by omega) hsmall, Decimal.positional_of_tenths hplaces hvalue, text,
    String.toList_ofList]

/-- **Tables and JSON have the same text for a distance.** The text in a table is the exact decimal,
so different distances have different texts. A distance of up to fifteen digits comes back from its
float, and JSON has the same text, character for character. -/
theorem text_faithful (d : Distance) :
    IsTenths d.tenths d.text.toList ∧ (∀ d' : Distance, d.text = d'.text → d = d') ∧
      (d.tenths.natAbs < 10 ^ 15 → ofFloat d.toFloat = d ∧ d.json = d.text) :=
  ⟨d.isTenths_text, fun _ => text_injective, fun h => ⟨ofFloat_toFloat h, json_eq_text h⟩⟩

theorem half_text_faithful :
    (Distance.mk (-5)).tenths.natAbs < 10 ^ 15 ∧ (Distance.mk (-5)).text = "-0.5" ∧
      (Distance.mk (-5)).json = "-0.5" := by
  have htext : (Distance.mk (-5)).text = "-0.5" := by decide +kernel
  have hjson := ((text_faithful ⟨-5⟩).2.2 (by decide)).2
  exact ⟨by decide, htext, hjson.trans htext⟩

/-- The smallest 64-bit count has a text too. -/
example : (Distance.mk (-9223372036854775808)).text = "-922337203685477580.8" := by
  decide +kernel

end Distance

end Transect
