import Transect.Proofs.Config.Opening
import Transect.Proofs.Float.Order
import Transect.Proofs.Rounding.Digits

/-!
# The places of a quantum

A positive number has the places that its text has behind the point. Moved by so many places its
shortest decimal is a whole number, and moved by fewer it is not, so nothing of the quantum is lost
when it is rounded to its own places and something is when it is rounded to fewer.
-/

namespace Transect

open Float.Model
open Float.Model.UnpackedFloat

variable {q x : Float} {d k : ℕ} {n : ℤ} {s : Decimal} {tie : Tie}

/-! ## Whole numbers of units -/

theorem Decimal.exists_eq_shifted (s : Decimal) : ∃ n : ℤ, s.value * 10 ^ s.places = n := by
  obtain ⟨n, hn⟩ := exists_shifted_eq (s := s) (d := s.places) (k := 0) (by
    unfold Decimal.places
    omega)
  exact ⟨(10 ^ 0 * n : ℕ), by rw [hn]; norm_cast⟩

/-- A decimal in the cell that is written with `k` places shows that the shortest one has no more. -/
theorem places_le_of_eq (hs : shortest? tie x = some s) (hn : s.value * 10 ^ k = n) :
    s.places ≤ k := by
  obtain ⟨a, ha⟩ := isFinite_iff.1 ((exists_shortest?_iff tie).1 ⟨s, hs⟩)
  rcases shortest?_cases ha tie with ⟨-, heq⟩ | ⟨m, e, hm, hcanonical, hmax, -, heq⟩
  · obtain rfl := Option.some.inj (hs.symm.trans heq)
    exact Nat.zero_le _
  · obtain rfl := Option.some.inj (hs.symm.trans heq)
    have hvalue : (Decimal.mk n.natAbs (-k)).value =
        (shortest Format.binary64 tie m e).value := by
      have hten : (0 : ℚ) < 10 ^ k := by positivity
      have hn0 : (0 : ℚ) ≤ n := hn ▸ mul_nonneg (Decimal.value_nonneg _) hten.le
      rw [Decimal.value, zpow_neg, zpow_natCast, ← div_eq_mul_inv, div_eq_iff hten.ne', hn,
        Nat.cast_natAbs, Int.cast_abs, abs_of_nonneg hn0]
    have hcell := inCell_shortest hm hcanonical.exponent hmax tie
    rw [← hvalue] at hcell
    have hle : -(k : ℤ) ≤ (shortest Format.binary64 tie m e).exponent :=
      hcell.exponent_le hm hcanonical.exponent hmax
    unfold Decimal.places
    omega

/-- **The places are the fewest that make the shortest decimal a whole number.** -/
theorem isLeast_places (hs : shortest? tie x = some s) :
    IsLeast {k : ℕ | ∃ n : ℤ, s.value * 10 ^ k = n} s.places :=
  ⟨s.exists_eq_shifted, fun _ ⟨_, hn⟩ => places_le_of_eq hs hn⟩

/-- On a grid this fine the first multiple above a float is still in its cell. -/
theorem le_exponent_of_fine {m : ℕ} {e p : ℤ} (hm : 0 < m) (hmin : -1074 ≤ e) (hmax : e ≤ 971)
    (hfine : (10 : ℚ) ^ p < 2 ^ e / 2) : p ≤ (shortest Format.binary64 tie m e).exponent := by
  have hunit := ten_zpow_pos p
  have hgap := mul_le_mul_of_nonneg_right (gapBelow_bounds m e).1 (two_zpow_pos e).le
  have hbelow := Nat.floor_le (div_nonneg (mul_two_zpow_pos hm e).le hunit.le)
  have habove := Nat.lt_floor_add_one ((m : ℚ) * 2 ^ e / 10 ^ p)
  rw [le_div_iff₀ hunit] at hbelow
  rw [div_lt_iff₀ hunit] at habove
  refine le_exponent_shortest hm hmin hmax tie (Nat.succ_pos ⌊(m : ℚ) * 2 ^ e / 10 ^ p⌋₊) ?_ ?_ <;>
    push_cast <;> linarith

/-- The most places that a shortest decimal has. -/
def maxPlaces : ℕ := 324

theorem ten_zpow_maxPlaces_lt {e : ℤ} (he : -1074 ≤ e) :
    (10 : ℚ) ^ (-(maxPlaces : ℤ)) < 2 ^ e / 2 := by
  have hpow : 2 ^ 1076 ≤ 10 ^ maxPlaces := two_pow_le_ten_pow (by decide)
  calc (10 : ℚ) ^ (-(maxPlaces : ℤ)) ≤ 2 ^ (-(1076 : ℕ) : ℤ) := by
        rw [zpow_neg, zpow_neg, zpow_natCast, zpow_natCast]
        exact inv_anti₀ (by positivity) (by exact_mod_cast hpow)
    _ < 2 ^ (-1 + e) := two_zpow_lt (by omega)
    _ = 2 ^ e / 2 := by
        rw [two_zpow_add]
        ring

theorem places_le_maxPlaces (hs : shortest? tie x = some s) : s.places ≤ maxPlaces := by
  obtain ⟨a, ha⟩ := isFinite_iff.1 ((exists_shortest?_iff tie).1 ⟨s, hs⟩)
  rcases shortest?_cases ha tie with ⟨-, heq⟩ | ⟨m, e, hm, hcanonical, hmax, -, heq⟩
  · obtain rfl := Option.some.inj (hs.symm.trans heq)
    exact Nat.zero_le _
  · obtain rfl := Option.some.inj (hs.symm.trans heq)
    have hplace : -(maxPlaces : ℤ) ≤ (shortest Format.binary64 tie m e).exponent :=
      le_exponent_of_fine hm hcanonical.exponent hmax (ten_zpow_maxPlaces_lt hcanonical.exponent)
    unfold Decimal.places
    omega

/-! ## Counts of units -/

theorem quantize_of_whole (hs : shortest? .up q = some s) (hq : isNegative q = false)
    (hn : s.value * 10 ^ d = n) (hfits : n ≤ maxCount) : quantize q d = n := by
  have hn0 : (0 : ℚ) ≤ n := hn ▸ mul_nonneg (Decimal.value_nonneg _) (by positivity)
  obtain ⟨i, rfl⟩ := Int.eq_ofNat_of_zero_le (by exact_mod_cast hn0 : 0 ≤ n)
  have hunits : s.units? d = some i := by
    rw [units?_eq, hn, Int.cast_natCast, halfUp_natCast, if_pos (by exact_mod_cast hfits)]
  rw [quantize, hq, magnitude, hs, Option.bind_some, hunits]
  rfl

/-- The shortest decimal of a quantum and the places that it takes to write it. -/
structure FewestPlaces (q : Float) (s : Decimal) (d : ℕ) : Prop where
  shortest : s.IsShortestOf q
  text : (plainFloat q).toList = s.plain
  /-- The text has so many digits behind the point. -/
  digits : ((plainFloat q).toList.dropWhile (· != '.')).tail.length = d
  least : IsLeast {k : ℕ | ∃ n : ℤ, s.value * 10 ^ k = n} d
  bound : d ≤ maxPlaces
  /-- Nothing is rounded away with these places. -/
  exact : ∀ n : ℤ, s.value * 10 ^ d = n → n ≤ maxCount → quantize q d = n
  /-- Something is rounded away with fewer. -/
  inexact : ∀ k < d, (quantize q k : ℚ) ≠ s.value * 10 ^ k

theorem length_fractionDigits (s : Decimal) : s.fractionDigits.length = s.places := by
  rcases lt_or_ge s.exponent 0 with hneg | hnonneg
  · have := (fractionDigits_of_neg hneg).1
    unfold Decimal.places
    omega
  · have hplaces : s.places = 0 := by
      unfold Decimal.places
      omega
    rw [Decimal.fractionDigits, if_pos hplaces, hplaces]
    rfl

theorem abs_of_not_negative (h : isNegative x = false) : x.abs = x := by
  apply eq_of_unpack_eq
  rw [unpack_abs]
  unfold isNegative at h
  cases hx : unpack x with
  | notANumber => rfl
  | infinity t | zero t | finite t m e hm =>
    rw [hx] at h
    cases t with
    | positive => rfl
    | negative => cases h

theorem fewestPlaces (hs : shortest? .up q = some s) (hq : 0 < q) :
    FewestPlaces q s s.places := by
  obtain ⟨a, ha⟩ := isFinite_iff.1 ((exists_shortest?_iff .up).1 ⟨s, hs⟩)
  have hnegative := isNegative_of_pos ha (pos_of_zero_lt hq ha)
  have htext := plainFloat_abs hs
  rw [abs_of_not_negative hnegative] at htext
  have hleast := isLeast_places hs
  obtain ⟨s', hs', hshortest⟩ := exists_isShortestOf ha .up
  obtain rfl := Option.some.inj (hs.symm.trans hs')
  refine ⟨hshortest, htext, ?_, hleast, places_le_maxPlaces hs,
    fun n hn hfits => quantize_of_whole hs hnegative hn hfits, fun k hk hexact => ?_⟩
  · rw [htext, (plain_parts s).2, length_fractionDigits]
  · exact absurd (hleast.2 ⟨_, hexact.symm⟩) (not_le.2 hk)

/-- **The places of a quantum are the fewest that it can be written with.** A float that is no
positive number has none, and is reported. -/
theorem placesOf?_fewest (q : Float) :
    (q.isNaN = true ∨ q.isInf = true ∨ q ≤ 0 →
      placesOf? q = none ∧
        ∀ c : RasterConfig, c.round = some q → c.places = .error (.round q)) ∧
    (¬ (q.isNaN = true ∨ q.isInf = true ∨ q ≤ 0) →
      ∃ s d, placesOf? q = some d ∧ FewestPlaces q s d ∧
        ∀ c : RasterConfig, c.round = some q → c.places = .ok (some d)) := by
  rw [← isFinite_and_pos_iff]
  constructor
  · intro hq
    have hbad : ¬ (q.isFinite = true ∧ 0 < q) := fun h => isFinite_and_pos_iff.1 h hq
    refine ⟨?_, fun c hround => RasterConfig.places_eq_error hround hbad⟩
    rw [← exists_placesOf?_iff] at hbad
    simpa [← Option.ne_none_iff_exists'] using hbad
  · rintro ⟨hfinite, hpos⟩
    obtain ⟨s, hs⟩ := (exists_shortest?_iff .up).2 hfinite
    have hplaces : placesOf? q = some s.places := by
      rw [placesOf?, if_pos hpos, hs, Option.map_some]
    refine ⟨s, s.places, hplaces, fewestPlaces hs hpos, fun c hround => ?_⟩
    rw [RasterConfig.places, hround]
    simp only [hplaces]

/-- The smallest float takes the most places. -/
theorem smallest_placesOf?_fewest :
    placesOf? (-0) = none ∧ placesOf? 5e-324 = some maxPlaces ∧
      ∃ s, FewestPlaces 5e-324 s maxPlaces := by
  have hplaces : placesOf? 5e-324 = some maxPlaces := by decide +kernel
  have hzero : (-0 : Float) ≤ 0 := by decide +kernel
  have hpositive : ¬ ((5e-324 : Float).isNaN = true ∨ (5e-324 : Float).isInf = true ∨
      (5e-324 : Float) ≤ 0) := by
    decide +kernel
  obtain ⟨s, d, hd, hfewest, -⟩ := (placesOf?_fewest 5e-324).2 hpositive
  obtain rfl : maxPlaces = d := Option.some.inj (hplaces.symm.trans hd)
  exact ⟨((placesOf?_fewest (-0)).1 (.inr (.inr hzero))).1, hplaces, s, hfewest⟩

end Transect
