import Transect.Proofs.Decimal.Nearest
import Transect.Proofs.Decimal.Text
import Transect.Proofs.Float.Whole

/-!
# The grammar of float literals

A literal is a sign and then digits with an optional point and an optional exponent, or a word in
any mixture of cases. The digits may be all on one side of the point, but there is at least one.
-/

namespace Transect

open Float.Model

variable {cs ds rest : List Char} {d : Decimal} {c : Char} {x y : Float} {k : ℤ} {negative : Bool}

/-! ## Exponents -/

inductive PowerText : List Char → ℤ → Prop
  | absent : PowerText [] 0
  | present {e : Char} {cs : List Char} {k : ℤ} (he : e = 'e' ∨ e = 'E') (h : SignedNumber cs k) :
    PowerText (e :: cs) k

theorem readExponent?_cons (e : Char) (cs : List Char) :
    readExponent? (e :: cs) = if e = 'e' ∨ e = 'E' then readSigned? cs else none := rfl

theorem readExponent?_eq_some_iff : readExponent? cs = some k ↔ PowerText cs k := by
  cases cs with
  | nil =>
    rw [readExponent?, Option.some.injEq]
    constructor
    · rintro rfl
      exact .absent
    · rintro ⟨⟩
      rfl
  | cons e cs =>
    rw [readExponent?_cons]
    constructor
    · intro h
      split_ifs at h with he
      exact .present he (readSigned?_eq_some_iff.1 h)
    · intro h
      cases h with
      | present he h => rw [if_pos he, readSigned?_eq_some_iff.2 h]

/-- An exponent does not go on with the number in front of it. -/
theorem PowerText.head (h : PowerText cs k) : ∀ c ∈ cs.head?, c.isDigit = false ∧ c ≠ '.' := by
  cases h with
  | absent => simp
  | present he h => rcases he with rfl | rfl <;> simp

/-! ## Decimals -/

/-- Digits with a point somewhere among them, or none. -/
inductive MantissaText : List Char → Decimal → Prop
  | whole {cs : List Char} (h : Digits cs) : MantissaText cs ⟨Nat.ofDigitChars 10 cs 0, 0⟩
  | point {cs ds : List Char} (h : Digits (cs ++ ds)) :
    MantissaText (cs ++ '.' :: ds) ⟨Nat.ofDigitChars 10 (cs ++ ds) 0, -ds.length⟩

inductive DecimalText : List Char → Decimal → Prop
  | mk {cs ds : List Char} {d : Decimal} {k : ℤ} (h : MantissaText cs d) (hpower : PowerText ds k) :
    DecimalText (cs ++ ds) ⟨d.digits, d.exponent + k⟩

theorem readDecimal?_whole (h : ∀ c ∈ cs, c.isDigit = true)
    (hrest : ∀ c ∈ rest.head?, c.isDigit = false ∧ c ≠ '.') :
    readDecimal? (cs ++ rest) = if cs = [] then none else
      (readExponent? rest).map fun k => ⟨Nat.ofDigitChars 10 cs 0, 0 + k⟩ := by
  unfold readDecimal?
  rw [takeDigits_append_rest h fun c hc => (hrest c hc).1]
  cases rest with
  | nil => simp
  | cons c rest => simp [(hrest c rfl).2]

theorem readDecimal?_fraction (h : ∀ c ∈ cs ++ ds, c.isDigit = true)
    (hrest : ∀ c ∈ rest.head?, c.isDigit = false) :
    readDecimal? (cs ++ '.' :: ds ++ rest) = if cs ++ ds = [] then none else
      (readExponent? rest).map fun k =>
        ⟨Nat.ofDigitChars 10 (cs ++ ds) 0, -ds.length + k⟩ := by
  obtain ⟨hcs, hds⟩ := List.forall_mem_append.1 h
  have hpoint : ∀ c ∈ ('.' :: (ds ++ rest)).head?, c.isDigit = false := by simp
  unfold readDecimal?
  rw [List.append_assoc, List.cons_append, takeDigits_append_rest hcs hpoint]
  simp only [takeDigits_append_rest hds hrest, Nat.ofDigitChars_append, sub_eq_neg_add]
  simp

/-- **The texts that are read as decimals.** -/
theorem readDecimal?_eq_some_iff : readDecimal? cs = some d ↔ DecimalText cs d := by
  constructor
  · intro h
    obtain ⟨whole, rest, rfl, hwhole, hrest⟩ := exists_digits_append cs
    by_cases hpoint : rest.head? = some '.'
    · obtain ⟨tail, rfl⟩ := List.head?_eq_some_iff.1 hpoint
      obtain ⟨fraction, rest, rfl, hfraction, hrest⟩ := exists_digits_append tail
      have hdigits := List.forall_mem_append.2 ⟨hwhole, hfraction⟩
      rw [← List.cons_append, ← List.append_assoc] at h ⊢
      rw [readDecimal?_fraction hdigits hrest] at h
      split_ifs at h with hne
      obtain ⟨k, hk, rfl⟩ := Option.map_eq_some_iff.1 h
      exact .mk (.point ⟨hne, hdigits⟩) (readExponent?_eq_some_iff.1 hk)
    · have hstop : ∀ c ∈ rest.head?, c.isDigit = false ∧ c ≠ '.' := by
        refine fun c hc => ⟨hrest c hc, ?_⟩
        rintro rfl
        exact hpoint hc
      rw [readDecimal?_whole hwhole hstop] at h
      split_ifs at h with hne
      obtain ⟨k, hk, rfl⟩ := Option.map_eq_some_iff.1 h
      exact .mk (.whole ⟨hne, hwhole⟩) (readExponent?_eq_some_iff.1 hk)
  · rintro ⟨h, hpower⟩
    have hread := readExponent?_eq_some_iff.2 hpower
    cases h with
    | whole h => rw [readDecimal?_whole h.2 hpower.head, if_neg h.1, hread, Option.map_some]
    | point h =>
      rw [readDecimal?_fraction h.2 fun c hc => (hpower.head c hc).1, if_neg h.1, hread,
        Option.map_some]

theorem MantissaText.readDecimal?_eq (h : MantissaText cs d) : readDecimal? cs = some d := by
  have hread := readDecimal?_eq_some_iff.2 (DecimalText.mk h .absent)
  rwa [List.append_nil, add_zero] at hread

theorem readDecimal?_of_head (hdigit : c.isDigit = false) (hpoint : c ≠ '.') :
    readDecimal? (c :: cs) = none := by
  have hstop : ∀ b ∈ (c :: cs).head?, b.isDigit = false ∧ b ≠ '.' := by simp [hdigit, hpoint]
  simpa using readDecimal?_whole (List.forall_mem_nil _) hstop

/-! ## Words -/

/-- A word in any mixture of cases. -/
def Spelled (word : String) (cs : List Char) : Prop := cs.map Char.toLower = word.toList

theorem readWord?_eq_some_iff :
    readWord? cs = some x ↔
      ((Spelled "inf" cs ∨ Spelled "infinity" cs) ∧ x = 1 / 0) ∨ (Spelled "nan" cs ∧ x = 0 / 0) := by
  have hspelled (word : String) : String.ofList (cs.map Char.toLower) = word ↔ Spelled word cs := by
    rw [Spelled, ← String.toList_inj, String.toList_ofList]
  unfold readWord?
  simp only [← hspelled]
  generalize String.ofList (cs.map Char.toLower) = word
  split <;> simp_all [eq_comm]

theorem isAlpha_of_toLower (h : c.toLower.isAlpha = true) : c.isAlpha = true := by
  unfold Char.toLower at h
  split at h
  · rename_i hupper
    have hc : c.isUpper = true := by simpa [Char.isUpper] using hupper
    rw [Char.isAlpha, hc, Bool.true_or]
  · exact h

theorem Spelled.isAlpha {word : String} (h : Spelled word cs)
    (hword : ∀ c ∈ word.toList, c.isAlpha = true) (hc : c ∈ cs) : c.isAlpha = true := by
  apply isAlpha_of_toLower
  apply hword
  rw [← h]
  exact List.mem_map_of_mem hc

theorem isAlpha_of_readWord? (h : readWord? cs = some x) (hc : c ∈ cs) : c.isAlpha = true := by
  rcases readWord?_eq_some_iff.1 h with ⟨hword | hword, -⟩ | ⟨hword, -⟩
  all_goals exact hword.isAlpha (by simp) hc

theorem toNat_of_isAlpha (h : c.isAlpha = true) : 65 ≤ c.toNat ∧ c.toNat ≤ 122 := by
  simp [Char.isAlpha, Char.isUpper, Char.isLower, UInt32.le_iff_toNat_le] at h
  omega

/-- No word starts like a decimal. -/
theorem readDecimal?_of_readWord? (h : readWord? cs = some x) : readDecimal? cs = none := by
  cases cs with
  | nil => rfl
  | cons c cs =>
    have hletter := toNat_of_isAlpha (isAlpha_of_readWord? h List.mem_cons_self)
    apply readDecimal?_of_head
    · rw [Bool.eq_false_iff]
      intro hdigit
      have := toNat_of_isDigit hdigit
      omega
    · rintro rfl
      exact absurd hletter (by decide)

/-! ## Values -/

theorem eq_toFloat_iff :
    x = (if negative then -d.toFloat else d.toFloat) ↔
      IsNearest x (if negative then -d.value else d.value) ∧ isNegative x = negative := by
  have hnearest : IsNearest (if negative then -d.toFloat else d.toFloat)
      (if negative then -d.value else d.value) := by
    split_ifs
    · exact (isNearest_toFloat d).neg
    · exact isNearest_toFloat d
  have hsign : isNegative (if negative then -d.toFloat else d.toFloat) = negative := by
    cases negative with
    | false => exact isNegative_toFloat d
    | true => simpa [isNegative_toFloat] using isNegative_neg (isNaN_toFloat d)
  constructor
  · rintro rfl
    exact ⟨hnearest, hsign⟩
  · rintro ⟨hx, hneg⟩
    exact hx.unique hnearest (hneg.trans hsign.symm)

theorem unpack_infinity (negative : Bool) :
    unpack (if negative then -(1 / 0) else 1 / 0) =
      .infinity (if negative then .negative else .positive) := by
  cases negative with
  | false => rfl
  | true => exact unpack_neg (1 / 0)

theorem eq_infinity_iff :
    x = (if negative then -(1 / 0) else 1 / 0) ↔ x.isInf = true ∧ isNegative x = negative := by
  have hmodel : x.isInf = (unpack x).isInf := rfl
  rw [hmodel, isNegative]
  constructor
  · rintro rfl
    rw [unpack_infinity]
    cases negative <;> exact ⟨rfl, rfl⟩
  · rintro ⟨hinf, hsign⟩
    apply eq_of_unpack_eq
    rw [unpack_infinity]
    cases hx : unpack x with
    | notANumber | zero s | finite s m e hm =>
      rw [hx] at hinf
      cases hinf
    | infinity s =>
      rw [hx] at hsign
      subst hsign
      cases s <;> rfl

theorem eq_notANumber_iff : x = (if negative then -(0 / 0) else 0 / 0) ↔ x.isNaN = true := by
  have hmodel : x.isNaN = (unpack x).isNaN := rfl
  have hnan : unpack (if negative then -(0 / 0) else 0 / 0) = .notANumber := by
    cases negative with
    | false => rfl
    | true => exact unpack_neg (0 / 0)
  rw [hmodel]
  constructor
  · rintro rfl
    rw [hnan]
    rfl
  · intro h
    apply eq_of_unpack_eq
    rw [hnan]
    cases hx : unpack x with
    | notANumber => rfl
    | infinity s | zero s | finite s m e hm =>
      rw [hx] at h
      cases h

/-! ## Literals -/

inductive SignText : List Char → Bool → Prop
  | absent : SignText [] false
  | plus : SignText ['+'] false
  | minus : SignText ['-'] true

/-- What stands behind the sign, and the float that it means with the sign. -/
inductive UnsignedText (negative : Bool) : List Char → Float → Prop
  | number {cs : List Char} {d : Decimal} {x : Float} (h : DecimalText cs d)
    (hx : IsNearest x (if negative then -d.value else d.value))
    (hsign : isNegative x = negative) : UnsignedText negative cs x
  | infinity {cs : List Char} {x : Float} (h : Spelled "inf" cs ∨ Spelled "infinity" cs)
    (hx : x.isInf = true) (hsign : isNegative x = negative) : UnsignedText negative cs x
  | notANumber {cs : List Char} {x : Float} (h : Spelled "nan" cs) (hx : x.isNaN = true) :
    UnsignedText negative cs x

/-- A literal and its float. -/
inductive FloatText : List Char → Float → Prop
  | mk {sign cs : List Char} {negative : Bool} {x : Float} (hsign : SignText sign negative)
    (h : UnsignedText negative cs x) : FloatText (sign ++ cs) x

def readUnsigned? (cs : List Char) : Option Float :=
  (readDecimal? cs).map Decimal.toFloat <|> readWord? cs

theorem readFloat_eq (cs : List Char) :
    readFloat cs = if cs = [] then .error .empty else
      match readUnsigned? (takeSign cs).2 with
      | some x => .ok (if (takeSign cs).1 then -x else x)
      | none => .error .invalid := rfl

theorem readUnsigned?_eq_some_iff :
    readUnsigned? cs = some x ↔
      (∃ d, readDecimal? cs = some d ∧ d.toFloat = x) ∨ readWord? cs = some x := by
  rw [readUnsigned?, Option.orElse_eq_orElse, Option.orElse_eq_or, Option.or_eq_some_iff,
    Option.map_eq_some_iff, Option.map_eq_none_iff]
  constructor
  · exact Or.imp_right And.right
  · exact Or.imp_right fun h => ⟨readDecimal?_of_readWord? h, h⟩

theorem unsignedText_iff :
    UnsignedText negative cs x ↔
      ∃ y, readUnsigned? cs = some y ∧ x = if negative then -y else y := by
  simp only [readUnsigned?_eq_some_iff, readDecimal?_eq_some_iff, readWord?_eq_some_iff]
  constructor
  · rintro (⟨h, hx, hsign⟩ | ⟨h, hx, hsign⟩ | ⟨h, hx⟩)
    · exact ⟨_, .inl ⟨_, h, rfl⟩, eq_toFloat_iff.2 ⟨hx, hsign⟩⟩
    · exact ⟨_, .inr (.inl ⟨h, rfl⟩), eq_infinity_iff.2 ⟨hx, hsign⟩⟩
    · exact ⟨_, .inr (.inr ⟨h, rfl⟩), eq_notANumber_iff.2 hx⟩
  · rintro ⟨y, ⟨d, h, rfl⟩ | ⟨h, rfl⟩ | ⟨h, rfl⟩, hx⟩
    · obtain ⟨hnearest, hsign⟩ := eq_toFloat_iff.1 hx
      exact .number h hnearest hsign
    · obtain ⟨hinf, hsign⟩ := eq_infinity_iff.1 hx
      exact .infinity h hinf hsign
    · exact .notANumber h (eq_notANumber_iff.1 hx)

theorem readUnsigned?_of_head (hdigit : c.isDigit = false) (hpoint : c ≠ '.')
    (halpha : c.isAlpha = false) : readUnsigned? (c :: cs) = none := by
  have hword : readWord? (c :: cs) = none := by
    rw [Option.eq_none_iff_forall_ne_some]
    intro x h
    rw [isAlpha_of_readWord? h List.mem_cons_self] at halpha
    cases halpha
  rw [readUnsigned?, readDecimal?_of_head hdigit hpoint, hword]
  rfl

/-- There is no second sign. -/
theorem takeSign_of_readUnsigned? (h : readUnsigned? cs = some x) :
    takeSign cs = (false, cs) := by
  unfold takeSign
  split
  · rw [readUnsigned?_of_head (by decide) (by decide) (by decide)] at h
    cases h
  · rw [readUnsigned?_of_head (by decide) (by decide) (by decide)] at h
    cases h
  · rfl

theorem exists_takeSign (cs : List Char) :
    ∃ sign, SignText sign (takeSign cs).1 ∧ cs = sign ++ (takeSign cs).2 := by
  unfold takeSign
  split
  · exact ⟨['-'], .minus, rfl⟩
  · exact ⟨['+'], .plus, rfl⟩
  · exact ⟨[], .absent, rfl⟩

theorem takeSign_append {sign : List Char} (hsign : SignText sign negative)
    (h : takeSign cs = (false, cs)) : takeSign (sign ++ cs) = (negative, cs) := by
  cases hsign with
  | absent => exact h
  | plus => rfl
  | minus => rfl

theorem readFloat_append {sign : List Char} (hsign : SignText sign negative)
    (h : readUnsigned? cs = some x) :
    readFloat (sign ++ cs) = .ok (if negative then -x else x) := by
  have hne : sign ++ cs ≠ [] := by
    rw [ne_eq, List.append_eq_nil_iff]
    rintro ⟨-, rfl⟩
    cases h
  rw [readFloat_eq, if_neg hne, takeSign_append hsign (takeSign_of_readUnsigned? h)]
  simp only [h]

/-- **The texts that are read as floats.** -/
theorem readFloat_eq_ok_iff : readFloat cs = .ok x ↔ FloatText cs x := by
  constructor
  · intro h
    rw [readFloat_eq] at h
    split at h
    · cases h
    · split at h
      · rename_i y hy
        obtain ⟨sign, hsign, hcs⟩ := exists_takeSign cs
        rw [hcs]
        exact .mk hsign (unsignedText_iff.2 ⟨y, hy, (Except.ok.inj h).symm⟩)
      · cases h
  · rintro ⟨hsign, h⟩
    obtain ⟨y, hy, rfl⟩ := unsignedText_iff.1 h
    exact readFloat_append hsign hy

theorem FloatText.ne_nil (h : FloatText cs x) : cs ≠ [] := by
  rintro rfl
  cases readFloat_eq_ok_iff.2 h

/-- The fault of a text that is no literal. -/
def FloatFault (cs : List Char) (cause : FloatError) : Prop :=
  (∀ x, ¬ FloatText cs x) ∧ cause = if cs = [] then .empty else .invalid

theorem readFloat_eq_error_iff {cause : FloatError} :
    readFloat cs = .error cause ↔ FloatFault cs cause := by
  simp only [FloatFault, ← readFloat_eq_ok_iff]
  rw [readFloat_eq]
  split
  · simp [eq_comm]
  · cases readUnsigned? (takeSign cs).2 with
    | some x => simp
    | none => simp [eq_comm]

/-! ## Characters -/

theorem SignedNumber.numeric (h : SignedNumber cs k) : Numeric cs := by
  cases h with
  | plain h => exact numeric_of_isDigit h.1.2
  | plus h | minus h => exact numeric_cons.2 ⟨rfl, numeric_of_isDigit h.1.2⟩

theorem DecimalText.numeric (h : DecimalText cs d) : Numeric cs := by
  obtain ⟨h, hpower⟩ := h
  refine numeric_append.2 ⟨?_, ?_⟩
  · cases h with
    | whole h => exact numeric_of_isDigit h.2
    | point h =>
      obtain ⟨hcs, hds⟩ := List.forall_mem_append.1 h.2
      exact numeric_append.2
        ⟨numeric_of_isDigit hcs, numeric_cons.2 ⟨rfl, numeric_of_isDigit hds⟩⟩
  · cases hpower with
    | absent => exact numeric_nil
    | present he h =>
      refine numeric_cons.2 ⟨?_, h.numeric⟩
      rcases he with rfl | rfl <;> rfl

/-- A literal is made of characters of a number or of letters. -/
theorem FloatText.chars (h : FloatText cs x) (hc : c ∈ cs) :
    isNumeric c = true ∨ c.isAlpha = true := by
  obtain ⟨hsign, h⟩ := h
  rcases List.mem_append.1 hc with hc | hc
  · cases hsign with
    | absent => cases hc
    | plus | minus => exact .inl (List.mem_singleton.1 hc ▸ rfl)
  · cases h with
    | number h => exact .inl (h.numeric c hc)
    | infinity h =>
      rcases h with h | h
      · exact .inr (h.isAlpha (by simp) hc)
      · exact .inr (h.isAlpha (by simp) hc)
    | notANumber h => exact .inr (h.isAlpha (by simp) hc)

end Transect
