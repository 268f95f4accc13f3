import Transect.Proofs.Digits

/-!
# The characters of a number

However a decimal is written, its text has only digits, signs, a point and the letter of an
exponent.
-/

namespace Transect

/-- A character of a number. -/
def isNumeric (c : Char) : Bool :=
  c.isDigit || c == '-' || c == '+' || c == '.' || c == 'e' || c == 'E'

/-- A text of such characters. -/
def Numeric (cs : List Char) : Prop := ∀ c ∈ cs, isNumeric c = true

variable {c : Char} {cs ds : List Char}

@[simp]
theorem numeric_nil : Numeric [] := by simp [Numeric]

@[simp]
theorem numeric_cons : Numeric (c :: cs) ↔ isNumeric c = true ∧ Numeric cs := List.forall_mem_cons

@[simp]
theorem numeric_append : Numeric (cs ++ ds) ↔ Numeric cs ∧ Numeric ds := List.forall_mem_append

theorem numeric_of_isDigit (h : ∀ c ∈ cs, c.isDigit = true) : Numeric cs := by
  intro c hc
  unfold isNumeric
  rw [h c hc]
  rfl

@[simp]
theorem numeric_digitsOf (n : ℕ) : Numeric (digitsOf n) :=
  numeric_of_isDigit fun _ => isDigit_of_mem_digitsOf

theorem numeric_signed (negative : Bool) (h : Numeric cs) : Numeric (signed negative cs) := by
  unfold signed
  split_ifs
  · exact numeric_cons.2 ⟨rfl, h⟩
  · exact h

namespace Decimal

variable (d : Decimal)

@[simp]
theorem numeric_fractionDigits : Numeric d.fractionDigits :=
  numeric_of_isDigit fun _ => isDigit_of_mem_fractionDigits

theorem numeric_plain : Numeric d.plain := by
  unfold plain
  split_ifs <;> simp [isNumeric]

theorem numeric_positional : Numeric d.positional := by
  unfold positional
  split_ifs <;> simp [isNumeric]

theorem numeric_scientific : Numeric d.scientific := by
  have hdigits := numeric_digitsOf d.digits
  unfold scientific
  simp only [numeric_append, numeric_cons, numeric_digitsOf, and_true]
  refine ⟨?_, rfl, ?_⟩
  · split
    · rename_i hcons
      rw [hcons, numeric_cons] at hdigits
      exact numeric_cons.2 ⟨hdigits.1, numeric_cons.2 ⟨rfl, hdigits.2⟩⟩
    · exact hdigits
  · split_ifs <;> rfl

theorem numeric_json : Numeric d.json := by
  unfold json
  split_ifs
  · exact d.numeric_positional
  · exact d.numeric_scientific

theorem json_ne_nil : d.json ≠ [] := by
  unfold json positional scientific
  split_ifs <;> simp

end Decimal

end Transect
