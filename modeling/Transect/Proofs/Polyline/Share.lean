import Transect.Arguments.Basic
import Transect.Proofs.Float.Error
import Transect.Proofs.Float.Root
import Transect.Proofs.Float.Whole
import Transect.Proofs.Polyline

/-!
# The share of a segment

A share is a part of the requested count. It is computed with a product, a quotient and a sum of
floats, and then made whole. For finite points no step is too large for a float, and the errors
together are a very small part of one point.
-/

namespace Transect

open Float.Model
open Float.Model.UnpackedFloat

variable {x y part total : Float} {a b t : ℚ} {count : ℕ}

/-! ## Sizes of lengths -/

theorem NoLonger.exists_rat? (h : NoLonger x y) (hy : rat? y = some b) :
    ∃ a, rat? x = some a ∧ 0 ≤ a ∧ a ≤ b := by
  obtain ⟨k, l, hk, hl, hkl⟩ := h
  rcases size?_cases hl with ⟨b', rfl, hb', -⟩ | ⟨-, hinf⟩
  · rw [hy] at hb'
    cases hb'
    rcases size?_cases hk with ⟨a, rfl, ha, ha0⟩ | ⟨rfl, -⟩
    · exact ⟨a, ha, ha0, WithTop.coe_le_coe.1 hkl⟩
    · exact absurd (top_le_iff.1 hkl) WithTop.coe_ne_top
  · rw [rat?, hinf] at hy
    cases hy

/-- A float that has a size, and is far from the bound if it is finite. -/
structure IsLength (d : Float) : Prop where
  size : ∃ l, size? d = some l
  bound : ∀ a, rat? d = some a → a ≤ 2 ^ (512 : ℤ)

theorem isLength_sqrt {k : WithTop ℚ} (hx : size? x = some k) : IsLength x.sqrt := by
  obtain ⟨l, hl, htop⟩ := size?_sqrt hx
  refine ⟨⟨l, hl⟩, fun r hr => ?_⟩
  rcases size?_cases hx with ⟨a, rfl, ha, ha0⟩ | ⟨rfl, -⟩
  · obtain ⟨r', hr', hle⟩ := exists_rat?_sqrt ha ha0
    rw [hr] at hr'
    cases hr'
    exact hle
  · have hinf := size?_eq_top_iff.1 (htop rfl ▸ hl)
    rw [rat?, hinf] at hr
    cases hr

theorem Point.isLength_distance {p q : Point} (hp : p.Finite) (hq : q.Finite) :
    IsLength (p.distance q) := by
  obtain ⟨px, hpx⟩ := isFinite_iff.1 hp.1
  obtain ⟨py, hpy⟩ := isFinite_iff.1 hp.2
  obtain ⟨qx, hqx⟩ := isFinite_iff.1 hq.1
  obtain ⟨qy, hqy⟩ := isFinite_iff.1 hq.2
  have hx : IsNearest (q - p).x (qx - px) := isNearest_sub hqx hpx
  have hy : IsNearest (q - p).y (qy - py) := isNearest_sub hqy hpy
  obtain ⟨k, hk, -⟩ := size?_mul_self hx.cases
  obtain ⟨l, hl, -⟩ := size?_mul_self hy.cases
  obtain ⟨n, hn, -, -⟩ := size?_add hk hl
  exact isLength_sqrt hn

namespace Polyline

/-! ## One share -/

theorem halfUnit_eq : halfUnit = 1 / 9007199254740992 := by
  norm_num [halfUnit]

theorem smallestUnit_le : smallestUnit ≤ 1 / 2 ^ 60 := by
  have hle : smallestUnit ≤ 2 ^ (-60 : ℤ) := two_zpow_le (by norm_num)
  norm_num at hle ⊢
  exact hle

theorem count_cast_le (h : count ≤ maxPoints) : (count : ℚ) ≤ 1000000 := by
  exact_mod_cast h

theorem rat?_product (hcount : count ≤ maxPoints) (ha : rat? part = some a) (h0 : 0 ≤ a)
    (hbound : a ≤ 2 ^ (512 : ℤ)) :
    ∃ p, rat? (floatOfNat count * part) = some p ∧ 0 ≤ p ∧
      |p - count * a| ≤ halfUnit * (count * a) := by
  have hsmall : count ≤ 2 ^ 53 := hcount.trans (by decide)
  have hle := count_cast_le hcount
  have hexact : rat? (floatOfNat count) = some (count : ℚ) := by
    apply rat?_floatOfNat_of_isFraction (isFraction_natCast hsmall)
    exact hle.trans (by norm_num)
  have hnonneg : 0 ≤ (count : ℚ) * a := mul_nonneg (Nat.cast_nonneg _) h0
  have hproduct : |(count : ℚ) * a| ≤ 2 ^ (970 : ℤ) := by
    rw [abs_of_nonneg hnonneg]
    calc (count : ℚ) * a ≤ 2 ^ (20 : ℤ) * 2 ^ (512 : ℤ) :=
          mul_le_mul (hle.trans (by norm_num)) hbound h0 (two_zpow_pos 20).le
      _ = 2 ^ (20 + 512 : ℤ) := (two_zpow_add 20 512).symm
      _ ≤ 2 ^ (970 : ℤ) := two_zpow_le (by norm_num)
  have hgrid : OnGrid (count * a) := (isFraction_of_rat? ha).1.onGrid.natCast_mul count
  refine ⟨_, (isNearest_mul hexact ha).rat?_of_abs_le hproduct, nearestFloat_nonneg hnonneg, ?_⟩
  have herror := hgrid.abs_sub_le.1
  rwa [abs_of_nonneg hnonneg] at herror

theorem part_of_count_bounds (hcount : count ≤ maxPoints) (h0 : 0 ≤ a) (hpos : 0 < t)
    (hle : a ≤ t) : 0 ≤ (count : ℚ) * (a / t) ∧ (count : ℚ) * (a / t) ≤ 1000000 := by
  have hone : a / t ≤ 1 := (div_le_one hpos).2 hle
  constructor
  · exact mul_nonneg (Nat.cast_nonneg _) (div_nonneg h0 hpos.le)
  · exact (mul_le_of_le_one_right (Nat.cast_nonneg _) hone).trans (count_cast_le hcount)

theorem rat?_quotient (hcount : count ≤ maxPoints) (ha : rat? part = some a) (h0 : 0 ≤ a)
    (hbound : a ≤ 2 ^ (512 : ℤ)) (ht : rat? total = some t) (hpos : 0 < t) (hle : a ≤ t) :
    ∃ q, rat? (floatOfNat count * part / total) = some q ∧ 0 ≤ q ∧
      |q - count * (a / t)| ≤ 1 / 2 ^ 32 + 1 / 2 ^ 34 := by
  obtain ⟨p, hp, hp0, hperror⟩ := rat?_product hcount ha h0 hbound
  obtain ⟨hwhole0, hwhole⟩ := part_of_count_bounds hcount h0 hpos hle
  have hunit := smallestUnit_le
  -- The error of the product is the same part of the quotient.
  have hquotient : |p / t - count * (a / t)| ≤ halfUnit * (count * (a / t)) := by
    have hsplit : p / t - count * (a / t) = (p - count * a) / t := by ring
    rw [hsplit, abs_div, abs_of_pos hpos, div_le_iff₀ hpos]
    calc |p - count * a| ≤ halfUnit * (count * a) := hperror
      _ = halfUnit * (count * (a / t)) * t := by field_simp
  have hquotient0 : 0 ≤ p / t := div_nonneg hp0 hpos.le
  have hround := abs_nearestFloat_sub_le_add (p / t)
  rw [abs_of_nonneg hquotient0, halfUnit_eq, abs_le] at hround
  rw [halfUnit_eq, abs_le] at hquotient
  refine ⟨nearestFloat (p / t), ?_, nearestFloat_nonneg hquotient0, ?_⟩
  · apply (isNearest_div hp ht hpos.ne').rat?_of_abs_le
    rw [abs_of_nonneg hquotient0]
    calc p / t ≤ 2 ^ (21 : ℤ) := by
          norm_num
          linarith
      _ ≤ 2 ^ (970 : ℤ) := two_zpow_le (by norm_num)
  · rw [abs_le]
    constructor <;> linarith

theorem rat?_half : rat? 0.5 = some (1 / 2) := by
  rw [rat?, unpack_half, value?, withSign]
  norm_num

theorem rat?_scaled (hcount : count ≤ maxPoints) (ha : rat? part = some a) (h0 : 0 ≤ a)
    (hbound : a ≤ 2 ^ (512 : ℤ)) (ht : rat? total = some t) (hpos : 0 < t) (hle : a ≤ t) :
    ∃ h, rat? (floatOfNat count * part / total + 0.5) = some h ∧
      |h - (count * (a / t) + 1 / 2)| ≤ 1 / 2 ^ 30 := by
  obtain ⟨q, hq, hq0, hqerror⟩ := rat?_quotient hcount ha h0 hbound ht hpos hle
  obtain ⟨-, hwhole⟩ := part_of_count_bounds hcount h0 hpos hle
  have hgrid : OnGrid (q + 1 / 2) :=
    (isFraction_of_rat? hq).1.onGrid.add (isFraction_of_rat? rat?_half).1.onGrid
  have hsum0 : 0 ≤ q + 1 / 2 := by linarith
  have herror := hgrid.abs_sub_le.1
  rw [abs_of_nonneg hsum0, halfUnit_eq, abs_le] at herror
  rw [abs_le] at hqerror
  refine ⟨nearestFloat (q + 1 / 2), ?_, ?_⟩
  · apply (isNearest_add hq rat?_half).rat?_of_abs_le
    rw [abs_of_nonneg hsum0]
    calc q + 1 / 2 ≤ 2 ^ (21 : ℤ) := by
          norm_num
          linarith
      _ ≤ 2 ^ (970 : ℤ) := two_zpow_le (by norm_num)
  · rw [abs_le]
    constructor <;> linarith

/-- **A share is at most half a point off**, and a very small part of one. Only what is below one is
moved further, up to one. -/
theorem share_bounds (hcount : count ≤ maxPoints) (ha : rat? part = some a) (h0 : 0 ≤ a)
    (hbound : a ≤ 2 ^ (512 : ℤ)) (ht : rat? total = some t) (hpos : 0 < t) (hle : a ≤ t) :
    count * (a / t) - 1 / 2 - 1 / 2 ^ 30 ≤ share count part total ∧
      (share count part total = 1 ∨
        (share count part total : ℚ) ≤ count * (a / t) + 1 / 2 + 1 / 2 ^ 30) := by
  obtain ⟨h, hh, herror⟩ := rat?_scaled hcount ha h0 hbound ht hpos hle
  obtain ⟨hwhole0, hwhole⟩ := part_of_count_bounds hcount h0 hpos hle
  obtain ⟨hlow, hhigh⟩ := abs_le.1 herror
  have hfloor := Int.floor_le h
  have hnext := Int.lt_floor_add_one h
  have hnonneg : 0 ≤ ⌊h⌋ := by
    apply Int.floor_nonneg.2
    linarith
  have hfits : ⌊h⌋ ≤ maxShare := by
    have hsmall : (⌊h⌋ : ℚ) ≤ 2000000 := by linarith
    have hsmall : ⌊h⌋ ≤ 2000000 := by exact_mod_cast hsmall
    exact hsmall.trans (by decide)
  have hshare : share count part total = max 1 ⌊h⌋.toNat := by
    rw [share, floorWithin_eq hh, clamp, min_eq_right hfits, max_eq_right hnonneg]
  have hcast : ((⌊h⌋.toNat : ℕ) : ℚ) = ⌊h⌋ := by
    have := Int.toNat_of_nonneg hnonneg
    exact_mod_cast this
  rw [hshare]
  constructor
  · have hmax : ((⌊h⌋.toNat : ℕ) : ℚ) ≤ (max 1 ⌊h⌋.toNat : ℕ) := by
      exact_mod_cast le_max_right _ _
    linarith
  · rcases le_total ⌊h⌋.toNat 1 with hone | hmany
    · exact .inl (max_eq_left hone)
    · rw [max_eq_right hmany, hcast]
      exact .inr (by linarith)

end Polyline

end Transect
