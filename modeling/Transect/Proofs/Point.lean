import Transect.Point
import Transect.Proofs.Decimal.Text

/-!
# Points are read from two numbers

The characters of a number are neither blanks nor commas, so the two numbers of a point are found
whatever form they are written in.
-/

namespace Transect

variable {c : Char} {xs ys : List Char} {x y : Float}

theorem toNat_of_isNumeric (h : isNumeric c = true) : 43 ≤ c.toNat ∧ c.toNat ≤ 101 := by
  unfold isNumeric at h
  simp only [Bool.or_eq_true, beq_iff_eq] at h
  obtain ((((h | rfl) | rfl) | rfl) | rfl) | rfl := h
  · have := toNat_of_isDigit h
    omega
  all_goals decide

theorem isBlank_of_isNumeric (h : isNumeric c = true) : isBlank c = false := by
  have := toNat_of_isNumeric h
  simp [isBlank, blankRanges]
  omega

theorem comma_not_mem_of_numeric (h : Numeric xs) : ',' ∉ xs := fun hmem => by
  have := h ',' hmem
  revert this
  decide

/-! ## Blanks at the ends -/

def Blanks (cs : List Char) : Prop := ∀ c ∈ cs, isBlank c = true

theorem dropWhile_isBlank_append {before : List Char} (hbefore : Blanks before)
    (h : ∀ c ∈ xs.head?, isBlank c = false) : (before ++ xs).dropWhile isBlank = xs := by
  rw [List.dropWhile_append_of_pos hbefore]
  cases xs with
  | nil => rfl
  | cons c xs => exact List.dropWhile_cons_of_neg (by simp [h c rfl])

theorem trimBlanks_append {before after : List Char} (hbefore : Blanks before)
    (hafter : Blanks after) (hne : xs ≠ []) (h : ∀ c ∈ xs, isBlank c = false) :
    trimBlanks (before ++ xs ++ after) = xs := by
  have hfront : ∀ c ∈ (xs ++ after).head?, isBlank c = false := by
    rw [List.head?_append_of_ne_nil _ hne]
    exact fun c hc => h c (List.mem_of_mem_head? hc)
  have hback : ∀ c ∈ xs.reverse.head?, isBlank c = false :=
    fun c hc => h c (List.mem_reverse.1 (List.mem_of_mem_head? hc))
  have hafter' : Blanks after.reverse := fun c hc => hafter c (List.mem_reverse.1 hc)
  rw [trimBlanks, List.append_assoc, dropWhile_isBlank_append hbefore hfront, List.reverse_append,
    dropWhile_isBlank_append hafter' hback, List.reverse_reverse]

theorem trimBlanks_of_numeric (h : Numeric xs) : trimBlanks xs = xs := by
  rcases eq_or_ne xs [] with rfl | hne
  · rfl
  · have hnone : Blanks [] := List.forall_mem_nil _
    simpa using trimBlanks_append hnone hnone hne fun c hc => isBlank_of_isNumeric (h c hc)

namespace Point

theorem splitAtComma?_append (h : ',' ∉ xs) :
    splitAtComma? (xs ++ ',' :: ys) = some (xs, ys) := by
  induction xs with
  | nil => rfl
  | cons c xs ih =>
    rw [List.mem_cons, not_or] at h
    rw [List.cons_append, splitAtComma?, if_neg (Ne.symm h.1), ih h.2]
    rfl

theorem readCoordinate_of_numeric (h : Numeric xs) (hx : readFloat xs = .ok x) :
    readCoordinate xs = .ok x := by
  rw [readCoordinate, trimBlanks_of_numeric h, hx]
  rfl

/-- **A point is read from the texts of its coordinates.** -/
theorem read_of_numeric (hxs : Numeric xs) (hys : Numeric ys) (hx : readFloat xs = .ok x)
    (hy : readFloat ys = .ok y) : Point.read (.ofList (xs ++ ',' :: ys)) = .ok ⟨x, y⟩ := by
  unfold Point.read
  rw [String.toList_ofList, splitAtComma?_append (comma_not_mem_of_numeric hxs)]
  simp only
  rw [readCoordinate_of_numeric hxs hx, readCoordinate_of_numeric hys hy]
  rfl

end Point

end Transect
