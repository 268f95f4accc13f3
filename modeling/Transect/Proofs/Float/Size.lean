import Transect.Proofs.Float.Arithmetic

/-!
# Floats that are not negative

The size of such a float is a number or infinite. Sums, squares and roots have a size too, and a
sum is no smaller than its parts.
-/

namespace Transect

open Float.Model
open Float.Model.UnpackedFloat

/-- The size of a float that is zero, positive or infinite. -/
def size? (x : Float) : Option (WithTop ℚ) :=
  match unpack x with
  | .zero _ => some 0
  | .finite .positive m e _ => some ((m * 2 ^ e : ℚ) : WithTop ℚ)
  | .infinity .positive => some ⊤
  | _ => none

variable {x y z : Float} {k l : WithTop ℚ} {a v : ℚ}

theorem unpack_of_pos (hx : rat? x = some a) (ha : 0 < a) :
    ∃ m e hm, unpack x = .finite .positive m e hm ∧ a = m * 2 ^ e := by
  rcases rat?_cases hx with ⟨s, -, rfl⟩ | ⟨s, m, e, hm, hu, -, -, rfl⟩
  · exact absurd ha (lt_irrefl 0)
  · have hpos := mul_two_zpow_pos hm e
    cases s with
    | positive => exact ⟨m, e, hm, hu, rfl⟩
    | negative =>
      rw [withSign] at ha
      linarith

theorem size?_of_rat? (h : rat? x = some a) (ha : 0 ≤ a) : size? x = some (a : WithTop ℚ) := by
  rcases ha.eq_or_lt with rfl | hpos
  · rcases rat?_cases h with ⟨s, hu, -⟩ | ⟨s, m, e, hm, -, -, -, hzero⟩
    · rw [size?, hu]
      rfl
    · have hne := (mul_two_zpow_pos hm e).ne
      rw [← abs_withSign s (mul_two_zpow_pos hm e).le, ← hzero, abs_zero] at hne
      exact absurd rfl hne
  · obtain ⟨m, e, hm, hu, rfl⟩ := unpack_of_pos h hpos
    rw [size?, hu]

theorem rat?_of_size? (h : size? x = some (a : WithTop ℚ)) : rat? x = some a ∧ 0 ≤ a := by
  unfold size? at h
  unfold rat?
  cases hu : unpack x with
  | notANumber => simp [hu] at h
  | infinity s => cases s <;> simp [hu] at h
  | zero s =>
    simp only [hu, Option.some.injEq] at h
    have : (0 : ℚ) = a := by exact_mod_cast h
    simp [value?, this]
  | finite s m e hm =>
    have hpos := mul_two_zpow_pos hm e
    cases s with
    | negative => simp [hu] at h
    | positive =>
      simp only [hu, Option.some.injEq, WithTop.coe_eq_coe] at h
      subst h
      exact ⟨rfl, hpos.le⟩

theorem size?_eq_top_iff : size? x = some ⊤ ↔ unpack x = .infinity .positive := by
  unfold size?
  cases hu : unpack x with
  | notANumber => simp
  | zero s => simp
  | infinity s => cases s <;> simp
  | finite s m e hm =>
    cases s with
    | negative => simp
    | positive =>
      simp only [Option.some.injEq, reduceCtorEq, iff_false]
      exact WithTop.coe_ne_top

theorem size?_cases (h : size? x = some k) :
    (∃ a : ℚ, k = a ∧ rat? x = some a ∧ 0 ≤ a) ∨
      k = ⊤ ∧ unpack x = .infinity .positive := by
  cases k with
  | top => exact .inr ⟨rfl, size?_eq_top_iff.1 h⟩
  | coe a => exact .inl ⟨a, rfl, rat?_of_size? h⟩

/-- The size of what floats make of an exact number. -/
def roundedSize (v : ℚ) : WithTop ℚ :=
  if nearestFloat v < floatBound then (nearestFloat v : WithTop ℚ) else ⊤

theorem IsNearest.size?_eq (h : IsNearest z v) (hv : 0 ≤ v) : size? z = some (roundedSize v) := by
  have hnonneg := nearestFloat_nonneg hv
  unfold IsNearest at h
  unfold roundedSize
  rw [abs_of_nonneg hnonneg] at h
  split_ifs at h ⊢
  · exact size?_of_rat? h hnonneg
  · rw [size?_eq_top_iff, h, signOf, if_neg (not_lt.2 hv)]

theorem le_roundedSize (ha : IsFraction a) (h : a ≤ v) : (a : WithTop ℚ) ≤ roundedSize v := by
  unfold roundedSize
  split_ifs
  · exact WithTop.coe_le_coe.2 (ha.le_nearestFloat h)
  · exact le_top

/-! ## Sums -/

theorem unpack_add (hu : Stored (UnpackedFloat.add Format.binary64 (unpack x) (unpack y))) :
    unpack (x + y) = UnpackedFloat.add Format.binary64 (unpack x) (unpack y) :=
  unpack_ofModel_pack hu

theorem infinity_add (hx : unpack x = .infinity .positive) (hy : size? y = some l) :
    size? (x + y) = some ⊤ := by
  have hadd : UnpackedFloat.add Format.binary64 (unpack x) (unpack y) = .infinity .positive := by
    rw [hx]
    rcases size?_cases hy with ⟨b, -, hb, -⟩ | ⟨-, hb⟩
    · rcases rat?_cases hb with ⟨t, ht, -⟩ | ⟨t, n, f, hn, ht, -⟩ <;> rw [ht] <;> rfl
    · rw [hb]
      rfl
  rw [size?_eq_top_iff, unpack_add (by rw [hadd]; exact stored_infinity _), hadd]

theorem add_infinity (hx : size? x = some k) (hy : unpack y = .infinity .positive) :
    size? (x + y) = some ⊤ := by
  have hadd : UnpackedFloat.add Format.binary64 (unpack x) (unpack y) = .infinity .positive := by
    rw [hy]
    rcases size?_cases hx with ⟨a, -, ha, -⟩ | ⟨-, ha⟩
    · rcases rat?_cases ha with ⟨s, hs, -⟩ | ⟨s, m, e, hm, hs, -⟩ <;> rw [hs] <;> rfl
    · rw [ha]
      rfl
  rw [size?_eq_top_iff, unpack_add (by rw [hadd]; exact stored_infinity _), hadd]

theorem size?_add (hx : size? x = some k) (hy : size? y = some l) :
    ∃ n, size? (x + y) = some n ∧ k ≤ n ∧ l ≤ n := by
  rcases size?_cases hx with ⟨a, rfl, ha, ha0⟩ | ⟨rfl, hinf⟩
  · rcases size?_cases hy with ⟨b, rfl, hb, hb0⟩ | ⟨rfl, hinf⟩
    · refine ⟨_, (isNearest_add ha hb).size?_eq (add_nonneg ha0 hb0), ?_, ?_⟩
      · exact le_roundedSize (isFraction_of_rat? ha).1 (by linarith)
      · exact le_roundedSize (isFraction_of_rat? hb).1 (by linarith)
    · exact ⟨⊤, add_infinity hx hinf, le_top, le_top⟩
  · exact ⟨⊤, infinity_add hinf hy, le_top, le_top⟩

/-! ## Products -/

theorem unpack_mul (hu : Stored (UnpackedFloat.mul Format.binary64 (unpack x) (unpack y))) :
    unpack (x * y) = UnpackedFloat.mul Format.binary64 (unpack x) (unpack y) :=
  unpack_ofModel_pack hu

theorem size?_infinity_mul (hx : unpack x = .infinity .positive) (hy : rat? y = some a)
    (ha : 0 < a) : size? (x * y) = some ⊤ := by
  obtain ⟨m, e, hm, hy, -⟩ := unpack_of_pos hy ha
  have hmul : UnpackedFloat.mul Format.binary64 (unpack x) (unpack y) = .infinity .positive := by
    rw [hx, hy]
    rfl
  rw [size?_eq_top_iff, unpack_mul (by rw [hmul]; exact stored_infinity _), hmul]

theorem size?_mul_infinity (hx : rat? x = some a) (ha : 0 < a)
    (hy : unpack y = .infinity .positive) : size? (x * y) = some ⊤ := by
  obtain ⟨m, e, hm, hx, -⟩ := unpack_of_pos hx ha
  have hmul : UnpackedFloat.mul Format.binary64 (unpack x) (unpack y) = .infinity .positive := by
    rw [hx, hy]
    rfl
  rw [size?_eq_top_iff, unpack_mul (by rw [hmul]; exact stored_infinity _), hmul]

/-- The square of a float that is a number or infinite. -/
theorem size?_mul_self (hx : (∃ a, rat? x = some a) ∨ ∃ s, unpack x = .infinity s) :
    ∃ k, size? (x * x) = some k ∧ (k ≠ ⊤ → ∃ a, rat? x = some a ∧ |a| < 2 ^ 512) := by
  rcases hx with ⟨a, ha⟩ | ⟨s, hs⟩
  · refine ⟨_, (isNearest_mul ha ha).size?_eq (mul_self_nonneg a), fun hne => ⟨a, ha, ?_⟩⟩
    by_contra hbig
    apply hne
    have hsquare : floatBound ≤ a * a := by
      have hpow : floatBound = (2 : ℚ) ^ 512 * 2 ^ 512 := by
        rw [← pow_add]
        exact zpow_natCast 2 1024
      rw [hpow, ← abs_mul_abs_self a]
      exact mul_self_le_mul_self (by positivity) (not_lt.1 hbig)
    have hbound : IsFraction floatBound := isFraction_two_zpow (by norm_num)
    rw [roundedSize, if_neg (not_lt.2 (hbound.le_nearestFloat hsquare))]
  · refine ⟨⊤, ?_, fun h => absurd rfl h⟩
    have hmul : UnpackedFloat.mul Format.binary64 (unpack x) (unpack x) =
        .infinity .positive := by
      rw [hs]
      cases s <;> rfl
    rw [size?_eq_top_iff, unpack_mul (by rw [hmul]; exact stored_infinity _), hmul]

/-! ## Roots -/

def HasSign (u : UnpackedFloat) (s : Sign) : Prop :=
  u = .zero s ∨ u = .infinity s ∨ ∃ m e hm, u = .finite s m e hm

theorem hasSign_roundWithAccuracy (s : Sign) (m : ℕ) (e : ℤ) (acc : Accuracy) :
    HasSign (roundWithAccuracy Format.binary64 s m e acc) s := by
  unfold roundWithAccuracy
  simp only
  split
  · exact .inl rfl
  · exact .inr (.inr ⟨_, _, _, rfl⟩)

theorem hasSign_ofParts (s : Sign) {b : BitVec 11} (hb : b ≠ -1#11) (f : BitVec 52) :
    HasSign (ofParts s b f) s := by
  rw [ofParts, if_neg hb]
  split
  · split
    · exact .inl rfl
    · exact .inr (.inr ⟨_, _, _, rfl⟩)
  · exact .inr (.inr ⟨_, _, _, rfl⟩)

theorem hasSign_unpack_pack {u : UnpackedFloat} {s : Sign} (h : HasSign u s) :
    HasSign (unpack (.ofModel (.pack u))) s := by
  rcases h with rfl | rfl | ⟨m, e, hm, rfl⟩
  · exact .inl (unpack_pack_zero s)
  · exact .inr (.inl (unpack_pack_infinity s))
  · change HasSign (UnpackedFloat.unpack Format.binary64 (UnpackedFloat.pack _ _)) s
    simp only [UnpackedFloat.pack]
    split
    · exact .inr (.inl (unpack_pack_infinity s))
    · rename_i hfits
      split
      · rw [unpack_packComponents]
        apply hasSign_ofParts
        intro heq
        have := congrArg BitVec.toNat heq
        rw [BitVec.toNat_ofNat, Nat.mod_eq_of_lt (by omega)] at this
        have hmax : (-1#11 : BitVec 11).toNat = 2047 := rfl
        omega
      · rw [unpack_packComponents]
        exact hasSign_ofParts s (by decide) _

theorem size?_of_hasSign (h : HasSign (unpack x) .positive) : ∃ k, size? x = some k := by
  unfold size?
  rcases h with h | h | ⟨m, e, hm, h⟩ <;> rw [h] <;> exact ⟨_, rfl⟩

theorem unpack_sqrt (hu : Stored (UnpackedFloat.sqrt Format.binary64 (unpack x))) :
    unpack x.sqrt = UnpackedFloat.sqrt Format.binary64 (unpack x) :=
  unpack_ofModel_pack hu

/-- The root of a size has a size, and the root of infinity is infinite. -/
theorem size?_sqrt (hx : size? x = some k) : ∃ l, size? x.sqrt = some l ∧ (k = ⊤ → l = ⊤) := by
  rcases size?_cases hx with ⟨a, rfl, ha, -⟩ | ⟨rfl, hinf⟩
  · have hsign : HasSign (UnpackedFloat.sqrt Format.binary64 (unpack x)) .positive ∨
        ∃ s, UnpackedFloat.sqrt Format.binary64 (unpack x) = .zero s := by
      rcases rat?_cases ha with ⟨s, hs, -⟩ | ⟨s, m, e, hm, hs, -⟩
      · exact .inr ⟨s, by rw [hs]; rfl⟩
      · cases s with
        | negative => simp [size?, hs] at hx
        | positive =>
          rw [hs]
          exact .inl (hasSign_roundWithAccuracy _ _ _ _)
    have htop : (a : WithTop ℚ) = ⊤ → False := WithTop.coe_ne_top
    rcases hsign with hsign | ⟨s, hzero⟩
    · obtain ⟨l, hl⟩ := size?_of_hasSign (hasSign_unpack_pack hsign)
      exact ⟨l, hl, fun h => (htop h).elim⟩
    · refine ⟨0, ?_, fun h => (htop h).elim⟩
      rw [size?, unpack_sqrt (by rw [hzero]; exact stored_zero s), hzero]
  · have hsqrt : UnpackedFloat.sqrt Format.binary64 (unpack x) = .infinity .positive := by
      rw [hinf]
      rfl
    refine ⟨⊤, ?_, fun _ => rfl⟩
    rw [size?_eq_top_iff, unpack_sqrt (by rw [hsqrt]; exact stored_infinity _), hsqrt]

/-! ## Zeros and what is no number -/

theorem unpack_div (hu : Stored (UnpackedFloat.div Format.binary64 (unpack x) (unpack y))) :
    unpack (x / y) = UnpackedFloat.div Format.binary64 (unpack x) (unpack y) :=
  unpack_ofModel_pack hu

/-- A zero, or no number at all. -/
def IsNothing (u : UnpackedFloat) : Prop := u = .notANumber ∨ ∃ s, u = .zero s

variable {u : UnpackedFloat} {s : Sign}

theorem isNothing_unpack_pack (h : IsNothing u) : IsNothing (unpack (.ofModel (.pack u))) := by
  rcases h with rfl | ⟨s, rfl⟩
  · exact .inl unpack_pack_notANumber
  · exact .inr ⟨s, unpack_pack_zero s⟩

theorem eq_zero_of_isNothing (h : IsNothing (unpack x)) (hx : rat? x = some a) : a = 0 := by
  unfold rat? at hx
  rcases h with h | ⟨s, h⟩ <;> rw [h] at hx <;> cases hx
  rfl

theorem isNothing_zero_mul (hx : unpack x = .zero s) (y : Float) : IsNothing (unpack (x * y)) := by
  refine isNothing_unpack_pack (u := UnpackedFloat.mul Format.binary64 (unpack x) (unpack y)) ?_
  rw [hx]
  cases unpack y with
  | notANumber | infinity t => exact .inl rfl
  | zero t | finite t m e hm => exact .inr ⟨_, rfl⟩

theorem IsNothing.div (hx : IsNothing (unpack x)) (y : Float) : IsNothing (unpack (x / y)) := by
  refine isNothing_unpack_pack (u := UnpackedFloat.div Format.binary64 (unpack x) (unpack y)) ?_
  rcases hx with hx | ⟨s, hx⟩ <;> rw [hx]
  · exact .inl rfl
  · cases unpack y with
    | notANumber | zero t => exact .inl rfl
    | infinity t | finite t m e hm => exact .inr ⟨_, rfl⟩

theorem isNothing_div_infinity (hy : unpack y = .infinity s) (x : Float) :
    IsNothing (unpack (x / y)) := by
  refine isNothing_unpack_pack (u := UnpackedFloat.div Format.binary64 (unpack x) (unpack y)) ?_
  rw [hy]
  cases unpack x with
  | notANumber | infinity t => exact .inl rfl
  | zero t | finite t m e hm => exact .inr ⟨_, rfl⟩

/-! ## What is not finite -/

theorem value?_unpack_pack_eq_none (h : value? u = none) :
    value? (unpack (.ofModel (.pack u))) = none := by
  cases u with
  | zero s | finite s m e hm => cases h
  | notANumber => exact congrArg value? unpack_pack_notANumber
  | infinity s => exact congrArg value? (unpack_pack_infinity s)

/-- A difference is finite only if the float that it is taken from is. -/
theorem exists_rat?_of_sub (h : rat? (x - y) = some a) : ∃ b, rat? x = some b := by
  by_contra hx
  rw [not_exists, ← Option.eq_none_iff_forall_ne_some] at hx
  have hnone : value? (UnpackedFloat.sub Format.binary64 (unpack x) (unpack y)) = none := by
    unfold rat? at hx
    cases hu : unpack x with
    | zero s | finite s m e hm =>
      rw [hu] at hx
      cases hx
    | notANumber => cases unpack y <;> rfl
    | infinity s =>
      cases unpack y with
      | infinity t => cases s <;> cases t <;> rfl
      | notANumber | zero t | finite t m e hm => rfl
  have : rat? (x - y) = none := value?_unpack_pack_eq_none hnone
  rw [this] at h
  cases h

/-- A product is finite only if its first factor is. -/
theorem exists_rat?_of_mul (h : rat? (x * y) = some a) : ∃ b, rat? x = some b := by
  by_contra hx
  rw [not_exists, ← Option.eq_none_iff_forall_ne_some] at hx
  have hnone : value? (UnpackedFloat.mul Format.binary64 (unpack x) (unpack y)) = none := by
    unfold rat? at hx
    cases hu : unpack x with
    | zero s | finite s m e hm =>
      rw [hu] at hx
      cases hx
    | notANumber | infinity s => cases unpack y <;> rfl
  have : rat? (x * y) = none := value?_unpack_pack_eq_none hnone
  rw [this] at h
  cases h

end Transect
