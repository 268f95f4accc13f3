import Transect.Binary
import Transect.Proofs.Float.Rounding

/-!
# Floats in 64 bits

A canonical float is the same after it has been packed and unpacked, if its exponent fits. With a
larger exponent it becomes infinite. Whatever is unpacked is canonical.
-/

namespace Transect

open Float.Model
open Float.Model.UnpackedFloat

variable {s : Sign} {m : ℕ} {e : ℤ}

/-- The leading digit, which is not stored. -/
theorem implicit_toNat (f : BitVec 52) : (1#1 ++ f).toNat = 2 ^ 52 + f.toNat := by
  rw [BitVec.toNat_append, ← Nat.shiftLeft_add_eq_or_of_lt f.isLt]
  rfl

/-- The float of a sign, a stored exponent and stored digits. -/
def ofParts (s : Sign) (b : BitVec 11) (f : BitVec 52) : UnpackedFloat :=
  if b = -1#11 then if f = 0#52 then .infinity s else .notANumber
  else if b = 0#11 then
    if h : f = 0#52 then .zero s
    else .finite s f.toNat (-1074) (by simpa [BitVec.toNat_pos, BitVec.pos_iff_ne_zero])
  else .finite s (1#1 ++ f).toNat (b.toNat - 1075) (by rw [implicit_toNat]; positivity)

theorem unpack_eq_ofParts (bits : BitVec Format.binary64.numBits) :
    UnpackedFloat.unpack Format.binary64 bits =
      ofParts (.ofBitVec (unpackSign bits)) (unpackExponent bits) (unpackMantissa bits) := by
  unfold UnpackedFloat.unpack ofParts
  by_cases hb : unpackExponent bits = 0#11
  · simp only [hb]
    rfl
  · simp only [if_neg hb]
    rfl

theorem unpack_packComponents (s : Sign) (b : BitVec 11) (f : BitVec 52) :
    UnpackedFloat.unpack Format.binary64 (packComponents Format.binary64 s b f) =
      ofParts s b f := by
  rw [unpack_eq_ofParts, unpackSign_packComponents, unpackExponent_packComponents,
    unpackMantissa_packComponents, Sign.ofBitVec_toBitVec]

theorem unpack_pack_zero (s : Sign) :
    UnpackedFloat.unpack Format.binary64 (UnpackedFloat.pack Format.binary64 (.zero s)) =
      .zero s :=
  unpack_packedZero

theorem unpack_pack_infinity (s : Sign) :
    UnpackedFloat.unpack Format.binary64 (UnpackedFloat.pack Format.binary64 (.infinity s)) =
      .infinity s :=
  (unpack_packComponents s (-1#11) 0#52).trans (by simp [ofParts])

theorem unpack_pack_notANumber :
    UnpackedFloat.unpack Format.binary64 (UnpackedFloat.pack Format.binary64 .notANumber) =
      .notANumber :=
  unpack_packedNaN

theorem log2_add_one_eq_iff (hm : 0 < m) (hlt : m < 2 ^ 53) : m.log2 + 1 = 53 ↔ 2 ^ 52 ≤ m := by
  rw [← Nat.le_log2 hm.ne']
  have := (Nat.log2_lt hm.ne').2 hlt
  omega

theorem pack_finite (hm : 0 < m) (h : Canonical m e) :
    UnpackedFloat.pack Format.binary64 (.finite s m e hm) =
      if 971 < e then packComponents Format.binary64 s (-1#11) 0#52
      else if 2 ^ 52 ≤ m then
        packComponents Format.binary64 s (.ofNat 11 (e + 1075).toNat) (.ofNat 52 m)
      else packComponents Format.binary64 s 0#11 (.ofNat 52 m) := by
  have hbias : (e + Format.binary64.exponentBias + (52 : ℕ)).toNat = (e + 1075).toNat := by
    have : Format.binary64.exponentBias = 1023 := rfl
    omega
  have hover : 2 ^ 11 ≤ (e + 1075).toNat + 1 ↔ 971 < e := by omega
  have hnormal : m.log2 + 1 = Format.binary64.mantissaBits ↔ 2 ^ 52 ≤ m :=
    log2_add_one_eq_iff hm h.lt
  simp only [UnpackedFloat.pack, hbias, hover, hnormal]
  rfl

theorem unpack_pack_overflow (hm : 0 < m) (h : Canonical m e) (he : 971 < e) :
    UnpackedFloat.unpack Format.binary64 (UnpackedFloat.pack Format.binary64 (.finite s m e hm)) =
      .infinity s := by
  rw [pack_finite hm h, if_pos he, unpack_packComponents]
  simp [ofParts]

theorem unpack_pack_finite (hm : 0 < m) (h : Canonical m e) (he : e ≤ 971) :
    UnpackedFloat.unpack Format.binary64 (UnpackedFloat.pack Format.binary64 (.finite s m e hm)) =
      .finite s m e hm := by
  have hmin := h.exponent
  have hlt := h.lt
  rw [pack_finite hm h, if_neg (by omega)]
  by_cases hnormal : 2 ^ 52 ≤ m
  · have hb : (BitVec.ofNat 11 (e + 1075).toNat).toNat = (e + 1075).toNat := by
      rw [BitVec.toNat_ofNat, Nat.mod_eq_of_lt (by omega)]
    have hb0 : BitVec.ofNat 11 (e + 1075).toNat ≠ 0#11 := by
      rw [ne_eq, ← BitVec.toNat_inj, hb]
      simp
      omega
    have hb1 : BitVec.ofNat 11 (e + 1075).toNat ≠ -1#11 := by
      rw [ne_eq, ← BitVec.toNat_inj, hb]
      simp
      omega
    have hf : (1#1 ++ BitVec.ofNat 52 m).toNat = m := by
      rw [implicit_toNat, BitVec.toNat_ofNat]
      omega
    rw [if_pos hnormal, unpack_packComponents, ofParts, if_neg hb1, if_neg hb0]
    simp only [hf, hb]
    congr 1
    omega
  · have he' : e = -1074 := h.normal.resolve_left hnormal
    have hf : (BitVec.ofNat 52 m).toNat = m := by
      rw [BitVec.toNat_ofNat, Nat.mod_eq_of_lt (by omega)]
    have hf0 : BitVec.ofNat 52 m ≠ 0#52 := by
      rw [ne_eq, ← BitVec.toNat_inj, hf]
      simpa using hm.ne'
    rw [if_neg hnormal, unpack_packComponents, ofParts, if_neg (by decide), if_pos rfl, dif_neg hf0]
    simp only [hf, he']

/-- What is unpacked is canonical, and its exponent fits. -/
theorem canonical_of_unpack {bits : BitVec Format.binary64.numBits} {hm : 0 < m}
    (h : UnpackedFloat.unpack Format.binary64 bits = .finite s m e hm) :
    Canonical m e ∧ e ≤ 971 := by
  rw [unpack_eq_ofParts, ofParts] at h
  generalize unpackExponent bits = b at h
  generalize unpackMantissa bits = f at h
  have hf : f.toNat < 2 ^ 52 := f.isLt
  have hb : b.toNat < 2 ^ 11 := b.isLt
  split at h
  · split at h <;> cases h
  · rename_i hinf
    have hinf' : b.toNat ≠ 2047 := fun heq => hinf (BitVec.eq_of_toNat_eq heq)
    split at h
    · split at h
      · cases h
      · cases h
        exact ⟨⟨by omega, by norm_num, .inr rfl⟩, by norm_num⟩
    · rename_i hzero
      have hzero' : b.toNat ≠ 0 := fun heq => hzero (BitVec.eq_of_toNat_eq heq)
      rw [UnpackedFloat.finite.injEq, implicit_toNat] at h
      obtain ⟨-, rfl, rfl⟩ := h
      exact ⟨⟨by omega, by omega, .inl (by omega)⟩, by omega⟩

end Transect
