import Mathlib.Data.List.TakeWhile
import Mathlib.Tactic
import Transect.Decimal.Literal
import Transect.Decimal.Text

/-!
# Digits are read back

A text of digits stands for one number, whatever zeros are in front of it. Reading it with
`takeDigits` gives that number, and a padded `digitsOf` stands for the number it was made of.
-/

namespace Transect

/-! ## Texts of digits -/

def Digits (cs : List Char) : Prop := cs ≠ [] ∧ ∀ c ∈ cs, c.isDigit = true

theorem toNat_of_isDigit {c : Char} (h : c.isDigit = true) : 48 ≤ c.toNat ∧ c.toNat ≤ 57 := by
  simpa [Char.isDigit, UInt32.le_iff_toNat_le] using h

theorem digit?_of_isDigit {c : Char} (h : c.isDigit = true) :
    digit? c = some (c.toNat - '0'.toNat) := by
  rw [digit?, if_pos h]

/-- The digits at the front are read first. -/
theorem takeDigits_append {cs : List Char} (h : ∀ c ∈ cs, c.isDigit = true) (n count : Nat)
    (rest : List Char) :
    takeDigits n count (cs ++ rest) =
      takeDigits (Nat.ofDigitChars 10 cs n) (count + cs.length) rest := by
  induction cs generalizing n count with
  | nil => rfl
  | cons c cs ih =>
    rw [List.cons_append, takeDigits, digit?_of_isDigit (h c List.mem_cons_self)]
    simp only
    rw [ih (fun x hx => h x (List.mem_cons_of_mem _ hx)), Nat.ofDigitChars_cons, List.length_cons]
    congr 1
    omega

theorem takeDigits_eq {cs : List Char} (h : ∀ c ∈ cs, c.isDigit = true) (n count : Nat) :
    takeDigits n count cs = (Nat.ofDigitChars 10 cs n, count + cs.length, []) := by
  simpa only [List.append_nil, takeDigits] using takeDigits_append h n count []

/-- The digits at the front end where there is no digit. -/
theorem takeDigits_append_rest {cs rest : List Char} (h : ∀ c ∈ cs, c.isDigit = true)
    (hrest : ∀ c ∈ rest.head?, c.isDigit = false) (n count : Nat) :
    takeDigits n count (cs ++ rest) =
      (Nat.ofDigitChars 10 cs n, count + cs.length, rest) := by
  rw [takeDigits_append h]
  cases rest with
  | nil => rfl
  | cons c rest => simp [takeDigits, digit?, hrest c rfl]

theorem exists_digits_append (cs : List Char) :
    ∃ ds rest, cs = ds ++ rest ∧ (∀ c ∈ ds, c.isDigit = true) ∧
      ∀ c ∈ rest.head?, c.isDigit = false := by
  refine ⟨cs.takeWhile Char.isDigit, cs.dropWhile Char.isDigit,
    List.takeWhile_append_dropWhile.symm, fun c hc => List.mem_takeWhile_imp hc, fun c hc => ?_⟩
  have hstop := List.head?_dropWhile_not Char.isDigit cs
  rw [Option.mem_def.1 hc] at hstop
  simpa using hstop

theorem takeSign_of_isDigit {c : Char} {cs : List Char} (h : c.isDigit = true) :
    takeSign (c :: cs) = (false, c :: cs) := by
  unfold takeSign
  split
  · rename_i heq
    obtain ⟨rfl, -⟩ := List.cons.inj heq
    exact absurd h (by decide)
  · rename_i heq
    obtain ⟨rfl, -⟩ := List.cons.inj heq
    exact absurd h (by decide)
  · rfl

/-- A number starts with a digit, so it has no sign. -/
theorem takeSign_digits {cs : List Char} (h : Digits cs) (rest : List Char) :
    takeSign (cs ++ rest) = (false, cs ++ rest) := by
  obtain ⟨c, cs, rfl⟩ := List.exists_cons_of_ne_nil h.1
  exact takeSign_of_isDigit (h.2 c List.mem_cons_self)

/-! ## Numbers with a sign -/

section SignedNumbers

variable {cs : List Char} {i : Int} {n count : Nat}

theorem takeDigits_rest (h : (takeDigits n count cs).2.2 = []) : ∀ c ∈ cs, c.isDigit = true := by
  induction cs generalizing n count with
  | nil => simp
  | cons c cs ih =>
    unfold takeDigits digit? at h
    by_cases hc : c.isDigit = true
    · simp only [hc, if_true] at h
      exact List.forall_mem_cons.2 ⟨hc, ih h⟩
    · simp [hc] at h

def PlainNumber (cs : List Char) (i : Int) : Prop := Digits cs ∧ i = Nat.ofDigitChars 10 cs 0

/-- A number that may have a sign in front. -/
inductive SignedNumber : List Char → Int → Prop
  | plain {cs : List Char} {i : Int} (h : PlainNumber cs i) : SignedNumber cs i
  | plus {cs : List Char} {i : Int} (h : PlainNumber cs i) : SignedNumber ('+' :: cs) i
  | minus {cs : List Char} {i : Int} (h : PlainNumber cs i) : SignedNumber ('-' :: cs) (-i)

theorem readSigned?_of_takeSign {negative : Bool} {rest : List Char}
    (hsign : takeSign cs = (negative, rest)) :
    readSigned? cs = some i ↔
      ∃ j, PlainNumber rest j ∧ i = if negative then -j else j := by
  unfold readSigned?
  simp only [hsign]
  constructor
  · intro h
    split at h
    · rename_i m k heq
      have hdigits := takeDigits_rest (congrArg (·.2.2) heq)
      rw [takeDigits_eq hdigits] at heq
      simp only [Prod.mk.injEq, and_true] at heq
      obtain ⟨rfl, rfl⟩ := heq
      split at h
      · cases h
      · rename_i hcount
        refine ⟨_, ⟨⟨?_, hdigits⟩, rfl⟩, (Option.some.inj h).symm⟩
        rintro rfl
        exact hcount rfl
    · cases h
  · rintro ⟨j, ⟨⟨hne, hdigits⟩, rfl⟩, rfl⟩
    have hcount : 0 + rest.length ≠ 0 := by simpa using hne
    simp only [takeDigits_eq hdigits, if_neg hcount]

/-- **A short field is read exactly if it is a number with or without a sign.** -/
theorem readSigned?_eq_some_iff : readSigned? cs = some i ↔ SignedNumber cs i := by
  constructor
  · intro h
    cases hsign : takeSign cs with
    | mk negative rest =>
      obtain ⟨j, hj, rfl⟩ := (readSigned?_of_takeSign hsign).1 h
      unfold takeSign at hsign
      split at hsign <;> cases hsign
      · exact .minus hj
      · exact .plus hj
      · exact .plain hj
  · intro h
    cases h with
    | plain h =>
      have hsign := takeSign_digits h.1 []
      rw [List.append_nil] at hsign
      exact (readSigned?_of_takeSign hsign).2 ⟨i, h, rfl⟩
    | plus h => exact (readSigned?_of_takeSign rfl).2 ⟨i, h, rfl⟩
    | minus h => exact (readSigned?_of_takeSign rfl).2 ⟨_, h, rfl⟩

end SignedNumbers

/-! ## Padded numbers -/

theorem isDigit_of_mem_digitsOf {n : Nat} {c : Char} (h : c ∈ digitsOf n) : c.isDigit = true :=
  Nat.isDigit_of_mem_toDigits (by decide) (by decide) h

theorem isDigit_of_mem_padZeros {width n : Nat} {c : Char} (h : c ∈ padZeros width (digitsOf n)) :
    c.isDigit = true := by
  rcases List.mem_append.1 h with h | h
  · rw [List.eq_of_mem_replicate h]
    decide
  · exact isDigit_of_mem_digitsOf h

theorem isDigit_of_mem_fractionDigits {d : Decimal} {c : Char} (h : c ∈ d.fractionDigits) :
    c.isDigit = true := by
  unfold Decimal.fractionDigits at h
  split_ifs at h
  · cases h
  · exact isDigit_of_mem_padZeros h

theorem ofDigitChars_digitsOf (n : Nat) : Nat.ofDigitChars 10 (digitsOf n) 0 = n :=
  Nat.ofDigitChars_toDigits (by decide) (by decide)

theorem ofDigitChars_padZeros (width n : Nat) :
    Nat.ofDigitChars 10 (padZeros width (digitsOf n)) 0 = n := by
  simp [padZeros, digitsOf, Nat.ofDigitChars_append]

theorem digitsOf_length_pos (n : Nat) : 0 < (digitsOf n).length := Nat.length_toDigits_pos

theorem digits_digitsOf (n : Nat) : Digits (digitsOf n) :=
  ⟨List.ne_nil_of_length_pos (digitsOf_length_pos n), fun _ => isDigit_of_mem_digitsOf⟩

theorem takeSign_digitsOf (n : Nat) (rest : List Char) :
    takeSign (digitsOf n ++ rest) = (false, digitsOf n ++ rest) :=
  takeSign_digits (digits_digitsOf n) rest

theorem digitsOf_length_le_iff {n width : Nat} (h : 0 < width) :
    (digitsOf n).length ≤ width ↔ n < 10 ^ width :=
  Nat.length_toDigits_le_iff (by decide) h

theorem padZeros_length (width : Nat) (cs : List Char) :
    (padZeros width cs).length = max width cs.length := by
  simp [padZeros]
  omega

/-- A number that fits is padded to exactly the width. -/
theorem padZeros_digitsOf_length {width n : Nat} (hw : 0 < width) (h : n < 10 ^ width) :
    (padZeros width (digitsOf n)).length = width := by
  rw [padZeros_length]
  have := (digitsOf_length_le_iff hw).2 h
  omega

/-- A number that does not fit takes more than the width. -/
theorem lt_padZeros_digitsOf_length {width n : Nat} (hw : 0 < width) (h : 10 ^ width ≤ n) :
    width < (padZeros width (digitsOf n)).length := by
  rw [padZeros_length]
  have hlong : ¬ (digitsOf n).length ≤ width := fun hle => by
    have := (digitsOf_length_le_iff hw).1 hle
    omega
  omega

theorem readSigned?_padZeros (width n : Nat) :
    readSigned? (padZeros width (digitsOf n)) = some (n : Int) := by
  have hne : padZeros width (digitsOf n) ≠ [] := by
    have := digitsOf_length_pos n
    rw [← List.length_pos_iff, padZeros_length]
    omega
  exact readSigned?_eq_some_iff.2
    (.plain ⟨⟨hne, fun c => isDigit_of_mem_padZeros⟩, by rw [ofDigitChars_padZeros]⟩)

/-! ## Bounds -/

theorem digit?_lt {c : Char} {d : Nat} (h : digit? c = some d) : d < 10 := by
  unfold digit? at h
  split at h
  · rename_i hc
    cases h
    have := toNat_of_isDigit hc
    have : '0'.toNat = 48 := rfl
    omega
  · cases h

theorem takeDigits_lt (n count : Nat) (cs : List Char) :
    (takeDigits n count cs).1 < (n + 1) * 10 ^ cs.length := by
  induction cs generalizing n count with
  | nil => simp [takeDigits]
  | cons c cs ih =>
    rw [takeDigits, List.length_cons, Nat.pow_succ']
    split
    · rename_i d hd
      calc (takeDigits (10 * n + d) (count + 1) cs).1
          < (10 * n + d + 1) * 10 ^ cs.length := ih _ _
        _ ≤ ((n + 1) * 10) * 10 ^ cs.length := by
          have := digit?_lt hd
          exact Nat.mul_le_mul_right _ (by omega)
        _ = (n + 1) * (10 * 10 ^ cs.length) := by rw [Nat.mul_assoc]
    · calc n < (n + 1) * 1 := by omega
        _ ≤ (n + 1) * (10 * 10 ^ cs.length) :=
          Nat.mul_le_mul_left _ (Nat.mul_pos (by decide) (Nat.pow_pos (by decide)))

theorem takeSign_length (cs : List Char) : (takeSign cs).2.length ≤ cs.length := by
  unfold takeSign
  split <;> simp

theorem readSigned?_lt {cs : List Char} {i : Int} (h : readSigned? cs = some i) :
    i.natAbs < 10 ^ cs.length := by
  have hlt := takeDigits_lt 0 0 (takeSign cs).2
  have hlen := Nat.pow_le_pow_right (show 0 < 10 by decide) (takeSign_length cs)
  unfold readSigned? at h
  generalize takeSign cs = signed at h hlt hlen
  obtain ⟨negative, rest⟩ := signed
  simp only at h hlt hlen
  split at h
  · rename_i n count heq
    rw [heq] at hlt
    split at h
    · cases h
    · cases h
      split <;> omega
  · cases h

end Transect
