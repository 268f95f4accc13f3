import Transect.Profile.Csv
import Transect.Profile.Json
import Transect.Proofs.Decimal.Few
import Transect.Proofs.Decimal.Json
import Transect.Proofs.Raster
import Transect.Proofs.Rounding.Digits

/-!
# Rounding settles

A rounded float is a whole number over a power of ten. If the whole number has up to fifteen digits,
the shortest decimal of the quotient is the quotient itself. So rounding once more finds the same
count, and the text of the float has no more digits after the point than were asked for. Only in
JSON does a whole number still have a zero there.
-/

namespace Transect

variable {x p : Float} {n : ℤ} {d : ℕ} {s : Decimal} {tie : Tie}

/-! ## A whole number over a power of ten -/

theorem rat?_floatOfInt_div (hp : rat? p = some (10 ^ d)) (hn : n.natAbs < 10 ^ 15) :
    rat? (floatOfInt n / p) = some (nearestFloat (n / 10 ^ d)) := by
  have hten : (1 : ℚ) ≤ 10 ^ d := one_le_pow₀ (by norm_num)
  have hpos : (0 : ℚ) < 10 ^ d := by positivity
  have hquotient := isNearest_div (rat?_floatOfInt_of_small (n := n) (by omega)) hp hpos.ne'
  apply hquotient.rat?_of_abs_le
  have hnum : |(n : ℚ)| ≤ 10 ^ 15 := by
    rw [← Int.cast_abs, ← Nat.cast_natAbs]
    exact_mod_cast hn.le
  calc |(n : ℚ) / 10 ^ d| = |(n : ℚ)| / 10 ^ d := by rw [abs_div, abs_of_pos hpos]
    _ ≤ |(n : ℚ)| := div_le_self (abs_nonneg _) hten
    _ ≤ 10 ^ 15 := hnum
    _ ≤ 2 ^ (50 : ℤ) := by norm_num
    _ ≤ 2 ^ (970 : ℤ) := two_zpow_le (by norm_num)

theorem abs_nearestFloat_div (n : ℤ) (d : ℕ) :
    |nearestFloat (n / 10 ^ d)| = nearestFloat (Decimal.mk n.natAbs (-d)).value := by
  rw [abs_nearestFloat, abs_div, abs_of_pos (show (0 : ℚ) < 10 ^ d by positivity), Decimal.value,
    Nat.cast_natAbs, Int.cast_abs, zpow_neg, zpow_natCast, ← div_eq_mul_inv]

theorem shortest?_floatOfInt_div (hp : rat? p = some (10 ^ d)) (hd : d ≤ 22)
    (hn : n.natAbs < 10 ^ 15) (tie : Tie) :
    ∃ s, shortest? tie (floatOfInt n / p) = some s ∧ s.value * 10 ^ d = n.natAbs ∧
      s.places ≤ d := by
  obtain ⟨s, hs, hvalue, hplaces⟩ := shortest?_of_few_digits (rat?_floatOfInt_div hp hn)
    (abs_nearestFloat_div n d) hn (by simp only; omega) tie
  refine ⟨s, hs, ?_, ?_⟩
  · rw [hvalue, Decimal.value, mul_assoc, ← zpow_natCast, ← ten_zpow_add, neg_add_cancel, zpow_zero,
      mul_one]
  · have : (Decimal.mk n.natAbs (-d)).places = d := by simp [Decimal.places]
    omega

theorem magnitude_floatOfInt_div (hp : rat? p = some (10 ^ d)) (hd : d ≤ 22)
    (hn : n.natAbs < 10 ^ 15) : magnitude (floatOfInt n / p) d = n.natAbs := by
  obtain ⟨s, hs, hvalue, -⟩ := shortest?_floatOfInt_div hp hd hn .up
  rw [magnitude_eq hd (rat?_floatOfInt_div hp hn) hs, hvalue, halfUp_natCast, min_eq_right]
  unfold maxCount
  omega

theorem isNegative_floatOfInt_div (hp : rat? p = some (10 ^ d)) (hd : d ≤ 22)
    (hn : n.natAbs < 10 ^ 15) (hzero : n ≠ 0) :
    isNegative (floatOfInt n / p) = decide (n < 0) := by
  have hx := rat?_floatOfInt_div hp hn
  have hpos := nearestFloat_value_pos (c := ⟨n.natAbs, -d⟩) (Int.natAbs_pos.2 hzero)
    (by simp only; omega)
  rw [← abs_nearestFloat_div, abs_pos] at hpos
  have hten : (0 : ℚ) < 10 ^ d := by positivity
  rcases lt_or_gt_of_ne hzero with hneg | hgt
  · have hle : nearestFloat (n / 10 ^ d) ≤ 0 := by
      apply nearestFloat_nonpos
      exact div_nonpos_of_nonpos_of_nonneg (by exact_mod_cast hneg.le) hten.le
    rw [isNegative_of_neg hx (lt_of_le_of_ne hle hpos), decide_eq_true hneg]
  · have hge : 0 ≤ nearestFloat (n / 10 ^ d) := by
      apply nearestFloat_nonneg
      exact div_nonneg (by exact_mod_cast hgt.le) hten.le
    rw [isNegative_of_pos hx (lt_of_le_of_ne hge hpos.symm), decide_eq_false (not_lt.2 hgt.le)]

theorem quantize_floatOfInt_div (hp : rat? p = some (10 ^ d)) (hd : d ≤ 22)
    (hn : n.natAbs < 10 ^ 15) : quantize (floatOfInt n / p) d = n := by
  rw [quantize, magnitude_floatOfInt_div hp hd hn]
  by_cases hzero : n = 0
  · rw [hzero]
    simp
  · rw [isNegative_floatOfInt_div hp hd hn hzero]
    split_ifs with hneg <;> simp only [decide_eq_true_eq] at hneg <;> omega

/-! ## Digits after the point -/

/-- What follows the point in the text of a number. -/
def afterPoint (cs : List Char) : List Char := (cs.dropWhile (· != '.')).tail

theorem afterPoint_signed (negative : Bool) (cs : List Char) :
    afterPoint (signed negative cs) = afterPoint cs := by
  cases negative <;> rfl

theorem plainFloat_eq_signed (h : shortest? .up x = some s) :
    (plainFloat x).toList = signed (isNegative x) s.plain := by
  unfold plainFloat isNegative
  rw [String.toList_ofList]
  unfold shortest? at h
  cases hu : unpack x <;> rw [hu] at h <;> cases h <;> rfl

theorem afterPoint_plainFloat (h : shortest? .up x = some s) :
    (afterPoint (plainFloat x).toList).length = s.places := by
  rw [plainFloat_eq_signed h, afterPoint_signed, afterPoint, (plain_parts s).2,
    s.length_fractionDigits]

/-- The digits after the point in the text of a number, up to an exponent. -/
def fractionOf (cs : List Char) : List Char := (afterPoint cs).takeWhile Char.isDigit

theorem afterPoint_eq_nil {cs : List Char} (h : '.' ∉ cs) : afterPoint cs = [] := by
  have hall : ∀ c ∈ cs, (c != '.') = true := fun c hc => bne_iff_ne.2 fun heq => h (heq ▸ hc)
  rw [afterPoint, List.dropWhile_eq_nil_iff.2 hall, List.tail_nil]

theorem afterPoint_append {front : List Char} (h : ∀ c ∈ front, c.isDigit = true)
    (back : List Char) : afterPoint (front ++ '.' :: back) = back := by
  have hfront : ∀ c ∈ front, (c != '.') = true := fun c hc => ne_point_of_isDigit (h c hc)
  rw [afterPoint, List.dropWhile_append_of_pos hfront]
  rfl

namespace Decimal

theorem length_fractionOf_positional (s : Decimal) :
    (fractionOf s.positional).length ≤ max s.places 1 := by
  unfold fractionOf positional
  rw [afterPoint_append fun c => isDigit_of_mem_digitsOf]
  refine (List.takeWhile_sublist _).length_le.trans ?_
  split_ifs with hplaces
  · exact le_max_right _ _
  · exact s.length_fractionDigits.trans_le (le_max_left _ _)

theorem length_fractionOf_insertPoint {cs power : List Char} (hpos : 0 < cs.length)
    (hcs : ∀ c ∈ cs, c.isDigit = true) (hpower : '.' ∉ power) :
    (fractionOf (insertPoint cs ++ 'e' :: power)).length < cs.length := by
  rcases cs with _ | ⟨first, _ | ⟨second, rest⟩⟩
  · cases hpos
  · have hfirst : '.' ∉ [first] := fun hin => absurd (hcs _ hin) (by decide)
    have hpoint : '.' ∉ insertPoint [first] ++ 'e' :: power := by
      rw [List.mem_append, List.mem_cons, not_or, not_or]
      exact ⟨hfirst, by decide, hpower⟩
    rw [fractionOf, afterPoint_eq_nil hpoint]
    exact hpos
  · have hfront : ∀ c ∈ [first], c.isDigit = true := fun c hc =>
      hcs c (List.mem_cons.2 (.inl (List.mem_singleton.1 hc)))
    have hback : ∀ c ∈ second :: rest, c.isDigit = true := fun c hc =>
      hcs c (List.mem_cons_of_mem _ hc)
    have hafter : afterPoint (insertPoint (first :: second :: rest) ++ 'e' :: power) =
        second :: rest ++ 'e' :: power :=
      afterPoint_append hfront (second :: rest ++ 'e' :: power)
    rw [fractionOf, hafter, List.takeWhile_append_of_pos hback,
      List.takeWhile_cons_of_neg (by decide), List.append_nil]
    exact Nat.lt_succ_self _

/-- In the exponent form all digits but the first are after the point. -/
theorem length_fractionOf_scientific (s : Decimal) :
    (fractionOf s.scientific).length < (digitsOf s.digits).length := by
  have hpower : '.' ∉ (if s.leading - 1 < 0 then '-' else '+') ::
      digitsOf (s.leading - 1).natAbs := by
    rw [List.mem_cons, not_or]
    refine ⟨?_, fun hin => absurd (isDigit_of_mem_digitsOf hin) (by decide)⟩
    split_ifs <;> decide
  rw [scientific_eq]
  exact length_fractionOf_insertPoint (digitsOf_length_pos s.digits)
    (fun c => isDigit_of_mem_digitsOf) hpower

/-- In JSON a whole number has one zero after the point. -/
theorem positional_of_places_eq_zero (h : s.places = 0) : s.positional = s.plain ++ ['.', '0'] := by
  rw [positional, plain, if_pos h, if_pos h, List.append_nil]

theorem length_fractionOf_json (hvalue : s.value < 10 ^ 16) :
    (fractionOf s.json).length ≤ max s.places 1 := by
  rcases json_cases hvalue with h | ⟨h, hlength⟩
  · rw [h]
    exact s.length_fractionOf_positional
  · have := s.length_fractionOf_scientific
    rw [h]
    omega

end Decimal

/-! ## Rounded floats -/

/-- The JSON form of a whole number over a power of ten. -/
theorem json_floatOfInt_div (hp : rat? p = some (10 ^ d)) (hd : d ≤ 22)
    (hn : n.natAbs < 10 ^ 15) :
    (fractionOf (jsonFloat (floatOfInt n / p)).toList).length ≤ max d 1 ∧
      (d = 0 → (jsonFloat (floatOfInt n / p)).toList =
        (plainFloat (floatOfInt n / p)).toList ++ ['.', '0']) := by
  obtain ⟨s, hs, hvalue, hplaces⟩ := shortest?_floatOfInt_div hp hd hn .toEven
  obtain ⟨t, ht, htvalue, htplaces⟩ := shortest?_floatOfInt_div hp hd hn .up
  have hsmall : s.value < 10 ^ 16 := by
    have hten : (1 : ℚ) ≤ 10 ^ d := one_le_pow₀ (by norm_num)
    have hcount : (n.natAbs : ℚ) < 10 ^ 15 := by exact_mod_cast hn
    have hpos : 0 ≤ s.value := mul_nonneg (Nat.cast_nonneg _) (ten_zpow_pos _).le
    have hle : s.value ≤ s.value * 10 ^ d := le_mul_of_one_le_right hpos hten
    linarith
  rw [jsonFloat_eq_signed hs]
  constructor
  · rw [fractionOf, afterPoint_signed]
    exact (Decimal.length_fractionOf_json hsmall).trans (max_le_max_right 1 hplaces)
  · rintro rfl
    rw [Nat.le_zero] at hplaces htplaces
    -- The two shortest decimals are chosen in different ways, but both are this whole number.
    have hwhole : s.whole = t.whole := by
      rw [← Decimal.cast_whole hplaces, ← htvalue, ← Decimal.cast_whole htplaces] at hvalue
      exact_mod_cast mul_right_cancel₀ (by norm_num) hvalue
    rw [plainFloat_eq_signed ht, Decimal.json_eq_positional (by omega) hsmall,
      Decimal.positional_of_places_eq_zero hplaces, Decimal.plain, Decimal.plain, if_pos hplaces,
      if_pos htplaces, hwhole]
    cases isNegative (floatOfInt n / p) <;> rfl

/-- **Rounding settles after one application.** A float that is rounded to a count of up to fifteen
digits is a fixed point, its shortest decimal has no more places than it was rounded to, and neither
does the cell of a raster that rounds. So it is in JSON, but that a whole number has a zero after
the point. -/
theorem roundTo_settles (v : Float) (hd : d ≤ 22) (hsmall : (quantize v d).natAbs < 10 ^ 15) :
    quantize (roundTo v d) d = quantize v d ∧
    roundTo (roundTo v d) d = roundTo v d ∧
    (∀ tie, ∃ s, shortest? tie (roundTo v d) = some s ∧ s.places ≤ d) ∧
    (afterPoint (plainFloat (roundTo v d)).toList).length ≤ d ∧
    (fractionOf (jsonFloat (roundTo v d)).toList).length ≤ max d 1 ∧
    (d = 0 →
      (jsonFloat (roundTo v d)).toList = (plainFloat (roundTo v d)).toList ++ ['.', '0']) ∧
    ∀ r : Raster, r.places = some d →
      (afterPoint (valueCell (some (r.finish (some v))))).length ≤ d ∧
        (fractionOf (valueJson (r.finish (some v)))).length ≤ max d 1 := by
  have hten := rat?_powerOfTen hd
  have hquantize : quantize (roundTo v d) d = quantize v d :=
    quantize_floatOfInt_div hten hd hsmall
  have hshortest (tie : Tie) : ∃ s, shortest? tie (roundTo v d) = some s ∧ s.places ≤ d := by
    obtain ⟨s, hs, -, hplaces⟩ := shortest?_floatOfInt_div hten hd hsmall tie
    exact ⟨s, hs, hplaces⟩
  have hprinted : (afterPoint (plainFloat (roundTo v d)).toList).length ≤ d := by
    obtain ⟨s, hs, hplaces⟩ := hshortest .up
    rwa [afterPoint_plainFloat hs]
  obtain ⟨hjson, hwhole⟩ := json_floatOfInt_div hten hd hsmall
  refine ⟨hquantize, ?_, hshortest, hprinted, hjson, hwhole, fun r hr => ?_⟩
  · rw [roundTo, hquantize]
    rfl
  · -- What is no data is written without a point.
    unfold Raster.finish
    rw [hr]
    cases hdata : r.isData v with
    | false =>
      simp [Option.filter, hdata, valueCell, noDataCell, valueJson, fractionOf, afterPoint]
    | true =>
      simp only [Option.filter, hdata, ↓reduceIte, Option.map_some]
      exact ⟨hprinted, hjson⟩

theorem roundTo_tenths_settles :
    (quantize (-2.35) 1).natAbs < 10 ^ 15 ∧ quantize (roundTo (-2.35) 1) 1 = -24 ∧
      roundTo (roundTo (-2.35) 1) 1 = roundTo (-2.35) 1 ∧
      ∃ s, shortest? .up (roundTo (-2.35) 1) = some s ∧ s.places ≤ 1 := by
  have htenths : quantize (-2.35) 1 = -24 := by decide +kernel
  have hsmall : (quantize (-2.35) 1).natAbs < 10 ^ 15 := by rw [htenths]; decide
  obtain ⟨hquantize, hround, hshortest, -⟩ := roundTo_settles (-2.35) (d := 1) (by decide) hsmall
  exact ⟨hsmall, hquantize.trans htenths, hround, hshortest .up⟩

/-- The zero in JSON. -/
example : jsonFloat (roundTo 2.5 0) = "3.0" ∧ plainFloat (roundTo 2.5 0) = "3" := by
  decide +kernel

end Transect
