import Transect.Proofs.Decimal.Fewest
import Transect.Proofs.Rounding

/-!
# Rounding digit by digit

A count can also be read off the text of a float, one digit after the other, with the range checked
at each step. This comes to the same: no step leaves the range unless the rounded number does.
-/

namespace Transect

open Float.Model
open Float.Model.UnpackedFloat

variable {cs : List Char} {c : Char} {n d : ℕ} {x : Float} {s : Decimal}

/-! ## Steps in the range of counts -/

/-- A number that is still a count. -/
def count? (n : ℕ) : Option ℕ := if n ≤ maxCount then some n else none

/-- A count with one more digit behind it. Both steps on the way have to be counts. -/
def appendDigit? (n : ℕ) (c : Char) : Option ℕ :=
  (count? (10 * n)).bind fun n => count? (n + (c.toNat - '0'.toNat))

/-- Moves the point `d` places to the right in a whole number with digits behind the point. The
first digit that is left over rounds. -/
def shiftFraction? : ℕ → ℕ → List Char → Option ℕ
  | 0, n, [] => some n
  | 0, n, c :: _ => if 5 ≤ c.toNat - '0'.toNat then count? (n + 1) else some n
  | d + 1, n, [] => (appendDigit? n '0').bind fun n => shiftFraction? d n []
  | d + 1, n, c :: cs => (appendDigit? n c).bind fun n => shiftFraction? d n cs

/-- Moves the point `d` places to the right in the text of a number. -/
def shiftDigits? (cs : List Char) (d : ℕ) : Option ℕ :=
  ((cs.takeWhile (· != '.')).foldlM appendDigit? 0).bind fun n =>
    shiftFraction? d n (cs.dropWhile (· != '.')).tail

theorem count?_of_le (h : n ≤ maxCount) : count? n = some n := if_pos h

theorem count?_of_lt (h : maxCount < n) : count? n = none := if_neg (not_le.2 h)

theorem appendDigit?_eq (n : ℕ) (c : Char) :
    appendDigit? n c = count? (10 * n + (c.toNat - '0'.toNat)) := by
  unfold appendDigit?
  rcases Nat.lt_or_ge maxCount (10 * n) with h | h
  · rw [count?_of_lt h, count?_of_lt (by omega), Option.bind_none]
  · rw [count?_of_le h, Option.bind_some]

/-! ## Whole numbers -/

theorem le_ofDigitChars (cs : List Char) (n : ℕ) : n ≤ Nat.ofDigitChars 10 cs n := by
  induction cs generalizing n with
  | nil => exact le_rfl
  | cons c cs ih =>
    rw [Nat.ofDigitChars_cons]
    have := ih (10 * n + (c.toNat - '0'.toNat))
    omega

theorem foldlM_appendDigit? (hn : n ≤ maxCount) :
    cs.foldlM appendDigit? n = count? (Nat.ofDigitChars 10 cs n) := by
  induction cs generalizing n with
  | nil => exact (count?_of_le hn).symm
  | cons c cs ih =>
    rw [List.foldlM_cons, appendDigit?_eq, Nat.ofDigitChars_cons]
    rcases Nat.lt_or_ge maxCount (10 * n + (c.toNat - '0'.toNat)) with h | h
    · have := le_ofDigitChars cs (10 * n + (c.toNat - '0'.toNat))
      rw [count?_of_lt h, count?_of_lt (by omega)]
      rfl
    · rw [count?_of_le h]
      exact ih h

/-! ## Fractions -/

/-- The number of a whole part and the digits behind the point. -/
def pointed (n : ℕ) (cs : List Char) : ℚ := Nat.ofDigitChars 10 cs n / 10 ^ cs.length

theorem pointed_nil (n : ℕ) : pointed n [] = n := by
  simp [pointed]

theorem pointed_cons (n : ℕ) (c : Char) (cs : List Char) :
    10 * pointed n (c :: cs) = pointed (10 * n + (c.toNat - '0'.toNat)) cs := by
  unfold pointed
  rw [Nat.ofDigitChars_cons, List.length_cons, pow_succ]
  field_simp

theorem digit_le (h : c.isDigit = true) : c.toNat - '0'.toNat ≤ 9 := by
  have := digit?_lt (digit?_of_isDigit h)
  omega

/-- Digits behind the point make less than one. -/
theorem pointed_bounds (h : ∀ c ∈ cs, c.isDigit = true) (n : ℕ) :
    n ≤ pointed n cs ∧ pointed n cs < n + 1 := by
  induction cs generalizing n with
  | nil => simp [pointed_nil]
  | cons c cs ih =>
    obtain ⟨hc, hcs⟩ := List.forall_mem_cons.1 h
    obtain ⟨hlow, hhigh⟩ := ih hcs (10 * n + (c.toNat - '0'.toNat))
    have hdigit := digit_le hc
    rw [← pointed_cons] at hlow hhigh
    generalize c.toNat - '0'.toNat = k at hdigit hlow hhigh
    have hk : (k : ℚ) ≤ 9 := by exact_mod_cast hdigit
    have hk0 : (0 : ℚ) ≤ k := Nat.cast_nonneg k
    push_cast at hlow hhigh
    constructor <;> linarith

theorem halfUp_eq {v : ℚ} (hlow : n - 1 / 2 ≤ v) (hhigh : v < n + 1 / 2) : halfUp v = n := by
  have hn : (0 : ℚ) ≤ n := Nat.cast_nonneg n
  rw [halfUp, Nat.floor_eq_iff (by linarith)]
  constructor <;> linarith

/-- The first digit behind the point decides which way a number is rounded. -/
theorem halfUp_pointed_cons (h : ∀ b ∈ c :: cs, b.isDigit = true) (n : ℕ) :
    halfUp (pointed n (c :: cs)) = if 5 ≤ c.toNat - '0'.toNat then n + 1 else n := by
  obtain ⟨hc, hcs⟩ := List.forall_mem_cons.1 h
  have hdigit := digit_le hc
  obtain ⟨hlow, hhigh⟩ := pointed_bounds hcs (10 * n + (c.toNat - '0'.toNat))
  rw [← pointed_cons] at hlow hhigh
  generalize c.toNat - '0'.toNat = k at hdigit hlow hhigh ⊢
  push_cast at hlow hhigh
  split_ifs with hfive
  · have hlarge : (5 : ℚ) ≤ k := by exact_mod_cast hfive
    have hsmall : (k : ℚ) ≤ 9 := by exact_mod_cast hdigit
    apply halfUp_eq <;> push_cast <;> linarith
  · have hsmall : (k : ℚ) ≤ 4 := by exact_mod_cast Nat.le_of_lt_succ (not_le.1 hfive)
    have hnonneg : (0 : ℚ) ≤ k := Nat.cast_nonneg k
    apply halfUp_eq <;> linarith

/-- One place on. If the digit does not fit, neither does what comes of it. -/
theorem bind_appendDigit? (h : ∀ b ∈ cs, b.isDigit = true) (n d : ℕ) (c : Char) :
    ((appendDigit? n c).bind fun m => count? (halfUp (pointed m cs * 10 ^ d))) =
      count? (halfUp (pointed n (c :: cs) * 10 ^ (d + 1))) := by
  have hshift : pointed n (c :: cs) * 10 ^ (d + 1) =
      pointed (10 * n + (c.toNat - '0'.toNat)) cs * 10 ^ d := by
    rw [← pointed_cons, pow_succ]
    ring
  rw [appendDigit?_eq, hshift]
  generalize 10 * n + (c.toNat - '0'.toNat) = m
  rcases Nat.lt_or_ge maxCount m with hlarge | hfits
  · have hle : (m : ℚ) ≤ pointed m cs * 10 ^ d := by
      have hm := (pointed_bounds h m).1
      have hten : (1 : ℚ) ≤ 10 ^ d := one_le_pow₀ (by norm_num)
      nlinarith [Nat.cast_nonneg (α := ℚ) m]
    have := halfUp_mono hle
    rw [halfUp_natCast] at this
    rw [count?_of_lt hlarge, count?_of_lt (by omega), Option.bind_none]
  · rw [count?_of_le hfits, Option.bind_some]

theorem pointed_zero (n : ℕ) : pointed n ['0'] = pointed n [] := by
  have h := pointed_cons n '0' []
  have hzero : '0'.toNat - '0'.toNat = 0 := rfl
  rw [hzero, Nat.add_zero, pointed_nil] at h
  rw [pointed_nil]
  push_cast at h
  linarith

theorem shiftFraction?_eq (h : ∀ c ∈ cs, c.isDigit = true) (hn : n ≤ maxCount) :
    shiftFraction? d n cs = count? (halfUp (pointed n cs * 10 ^ d)) := by
  induction d generalizing n cs with
  | zero =>
    rw [pow_zero, mul_one]
    cases cs with
    | nil => rw [shiftFraction?, pointed_nil, halfUp_natCast, count?_of_le hn]
    | cons c cs =>
      rw [shiftFraction?, halfUp_pointed_cons h]
      split_ifs
      · rfl
      · exact (count?_of_le hn).symm
  | succ d ih =>
    have hrest {cs : List Char} (hcs : ∀ c ∈ cs, c.isDigit = true) (c : Char) :
        ((appendDigit? n c).bind fun n => shiftFraction? d n cs) =
          (appendDigit? n c).bind fun m => count? (halfUp (pointed m cs * 10 ^ d)) := by
      rw [appendDigit?_eq]
      rcases Nat.lt_or_ge maxCount (10 * n + (c.toNat - '0'.toNat)) with hlarge | hfits
      · rw [count?_of_lt hlarge, Option.bind_none, Option.bind_none]
      · rw [count?_of_le hfits, Option.bind_some, Option.bind_some, ih hcs hfits]
    cases cs with
    | nil =>
      rw [shiftFraction?, hrest h, bind_appendDigit? h, pointed_zero]
    | cons c cs =>
      have hcs := (List.forall_mem_cons.1 h).2
      rw [shiftFraction?, hrest hcs, bind_appendDigit? hcs]

/-! ## The text of a decimal -/

theorem ne_point_of_isDigit (h : c.isDigit = true) : (c != '.') = true := by
  rw [bne_iff_ne]
  rintro rfl
  exact absurd h (by decide)

/-- The digits of the whole part end at the point, or at the end of the text. -/
theorem plain_parts (s : Decimal) :
    s.plain.takeWhile (· != '.') = digitsOf s.whole ∧
      (s.plain.dropWhile (· != '.')).tail = s.fractionDigits := by
  have hdigits : ∀ c ∈ digitsOf s.whole, (c != '.') = true := fun c hc =>
    ne_point_of_isDigit (isDigit_of_mem_digitsOf hc)
  unfold Decimal.plain
  rw [List.takeWhile_append_of_pos hdigits, List.dropWhile_append_of_pos hdigits]
  split_ifs with hplaces
  · simp [Decimal.fractionDigits, hplaces]
  · simp

/-- The whole part and the digits behind the point make up the decimal. -/
theorem pointed_plain (s : Decimal) : pointed s.whole s.fractionDigits = s.value := by
  by_cases hexponent : 0 ≤ s.exponent
  · have hplaces : s.places = 0 := by
      unfold Decimal.places
      omega
    rw [Decimal.fractionDigits, if_pos hplaces, pointed_nil, Decimal.cast_whole hplaces]
  · obtain ⟨hlength, hdigits⟩ := fractionDigits_of_neg (not_le.1 hexponent)
    rw [pointed, Nat.ofDigitChars_eq_ofDigitChars_zero, hdigits, Decimal.value, ← hlength, zpow_neg,
      zpow_natCast, div_eq_mul_inv]

/-- **The digit loop gives the count, or ends because the count does not fit.** -/
theorem shiftDigits?_plain (s : Decimal) (d : ℕ) : shiftDigits? s.plain d = s.units? d := by
  obtain ⟨hwhole, hfraction⟩ := plain_parts s
  have hdigits : ∀ c ∈ s.fractionDigits, c.isDigit = true := fun c =>
    isDigit_of_mem_fractionDigits
  rw [shiftDigits?, hwhole, hfraction, foldlM_appendDigit? (Nat.zero_le _), ofDigitChars_digitsOf,
    units?_eq, ← count?]
  rcases Nat.lt_or_ge maxCount s.whole with hlarge | hfits
  · -- The whole part alone is too large.
    have hle : (s.whole : ℚ) ≤ s.value * 10 ^ d := by
      rw [← pointed_plain]
      have hbound := (pointed_bounds hdigits s.whole).1
      have hten : (1 : ℚ) ≤ 10 ^ d := one_le_pow₀ (by norm_num)
      nlinarith [Nat.cast_nonneg (α := ℚ) s.whole]
    have := halfUp_mono hle
    rw [halfUp_natCast] at this
    rw [count?_of_lt hlarge, count?_of_lt (by omega), Option.bind_none]
  · rw [count?_of_le hfits, Option.bind_some, shiftFraction?_eq hdigits hfits, pointed_plain]

/-! ## Signs -/

theorem shortest?_neg (tie : Tie) (x : Float) : shortest? tie (-x) = shortest? tie x := by
  unfold shortest?
  rw [unpack_neg]
  cases unpack x <;> rfl

theorem abs_neg_eq (x : Float) : (-x).abs = x.abs := by
  apply eq_of_unpack_eq
  rw [unpack_abs, unpack_abs, unpack_neg]
  cases unpack x <;> rfl

theorem magnitude_neg (x : Float) (d : ℕ) : magnitude (-x) d = magnitude x d := by
  unfold magnitude
  rw [shortest?_neg, abs_neg_eq]

/-- What is no number has no magnitude. -/
theorem magnitude_of_notANumber (h : unpack x = .notANumber) (d : ℕ) : magnitude x d = 0 := by
  have hstored : Stored .notANumber := by
    intro _ _ _ _ h
    cases h
  have hmul : UnpackedFloat.mul Format.binary64 (unpack x.abs) (unpack (powerOfTen d)) =
      .notANumber := by
    rw [unpack_abs, h]
    cases unpack (powerOfTen d) <;> rfl
  have hproduct : unpack (x.abs * powerOfTen d) = .notANumber := by
    rw [unpack_mul (hmul ▸ hstored), hmul]
  rw [magnitude, shortest?, h]
  simp [nearestWithin, nearest?, limit, hproduct]

/-- **Rounding commutes with the sign**, for floats of any kind and any number of places. -/
theorem quantize_neg (x : Float) (d : ℕ) : quantize (-x) d = -quantize x d := by
  unfold quantize
  rw [magnitude_neg]
  cases hnan : x.isNaN with
  | true =>
    have hu : unpack x = .notANumber := by
      have hmodel : x.isNaN = (unpack x).isNaN := rfl
      rw [hmodel] at hnan
      cases hx : unpack x <;> rw [hx] at hnan <;> first | rfl | cases hnan
    rw [magnitude_of_notANumber hu]
    simp
  | false =>
    rw [isNegative_neg hnan]
    cases isNegative x <;> simp

/-! ## Exact rounding -/

/-- The magnitude of a float is written as its shortest decimal. -/
theorem plainFloat_abs (h : shortest? .up x = some s) : (plainFloat x.abs).toList = s.plain := by
  unfold plainFloat
  rw [String.toList_ofList, unpack_abs]
  unfold shortest? at h
  cases hu : unpack x with
  | notANumber | infinity t =>
    rw [hu] at h
    cases h
  | zero t =>
    rw [hu] at h
    cases h
    rfl
  | finite t m e hm =>
    rw [hu] at h
    cases h
    rfl

/-- **A finite float is rounded half up on its shortest decimal, exactly.** The digit loop stays in
the range of counts unless the rounded number is beyond it, and then the largest count is taken.
Rounding commutes with the sign, whatever the float is. -/
theorem quantize_halfUp (x : Float) (d : ℕ) :
    (x.isFinite = true → ∃ s : Decimal, shortest? .up x = some s ∧ s.IsShortestOf x ∧
      (plainFloat x.abs).toList = s.plain ∧
      (halfUp (s.value * 10 ^ d) ≤ maxCount →
        shiftDigits? s.plain d = some (halfUp (s.value * 10 ^ d)) ∧
        quantize x d = if isNegative x then -(halfUp (s.value * 10 ^ d) : ℤ)
          else halfUp (s.value * 10 ^ d)) ∧
      (maxCount < halfUp (s.value * 10 ^ d) →
        shiftDigits? s.plain d = none ∧
        (d ≤ 22 → quantize x d = if isNegative x then -(maxCount : ℤ) else maxCount))) ∧
    quantize (-x) d = -quantize x d := by
  refine ⟨fun hfinite => ?_, quantize_neg x d⟩
  obtain ⟨a, ha⟩ := isFinite_iff.1 hfinite
  obtain ⟨s, hs, hshortest⟩ := exists_isShortestOf ha .up
  refine ⟨s, hs, hshortest, plainFloat_abs hs, fun hfits => ?_, fun hlarge => ?_⟩
  · have hcount : s.units? d = some (halfUp (s.value * 10 ^ d)) := by
      rw [units?_eq, if_pos hfits]
    have hmagnitude : magnitude x d = halfUp (s.value * 10 ^ d) := by
      rw [magnitude, hs, Option.bind_some, hcount]
    rw [shiftDigits?_plain, quantize, hmagnitude]
    exact ⟨hcount, rfl⟩
  · refine ⟨?_, fun hd => ?_⟩
    · rw [shiftDigits?_plain, units?_eq, if_neg (not_le.2 hlarge)]
    · rw [quantize, magnitude_eq hd ha hs, Nat.min_eq_left hlarge.le]

/-- A half goes away from zero on the digits, and what is too large is held at the bound. -/
theorem quantize_tenths : quantize (-2.35) 1 = -24 ∧ quantize (-1e30) 1 = -(maxCount : ℤ) := by
  obtain ⟨s, hs, -, -, hfits, -⟩ := (quantize_halfUp (-2.35) 1).1 (by decide +kernel)
  obtain ⟨t, ht, -, -, -, hlarge⟩ := (quantize_halfUp (-1e30) 1).1 (by decide +kernel)
  have hs' : shortest? .up (-2.35) = some ⟨235, -2⟩ := by decide +kernel
  have ht' : shortest? .up (-1e30) = some ⟨1, 30⟩ := by decide +kernel
  cases hs.symm.trans hs'
  cases ht.symm.trans ht'
  have hcount : halfUp ((Decimal.mk 235 (-2)).value * 10 ^ 1) = 24 := by
    norm_num [halfUp, Decimal.value, Nat.floor_eq_iff]
  have hover : maxCount < halfUp ((Decimal.mk 1 30).value * 10 ^ 1) := by
    rw [maxCount_lt_halfUp_iff]
    norm_num [Decimal.value]
  constructor
  · rw [(hfits (by rw [hcount]; decide)).2, hcount]
    rfl
  · have hnegative : isNegative (-1e30) = true := by decide +kernel
    rw [(hlarge hover).2 (by norm_num), if_pos hnegative]

end Transect
