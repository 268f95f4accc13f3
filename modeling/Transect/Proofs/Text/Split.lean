import Mathlib.Tactic
import Transect.Text.Split

/-!
# Parts of a text are found again

Parts that are joined with a separator are what the text is split into, as long as the separator is
in none of them. So are lines that each end in the separator, with an empty part behind the last.
-/

namespace Transect

/-! ## Splitting -/

theorem splitAt_ne_nil (sep : Char) (cs : List Char) : splitAt sep cs ≠ [] := by
  cases cs with
  | nil => simp [splitAt]
  | cons c cs =>
    rw [splitAt]
    split
    · simp
    · split <;> simp

theorem splitAt_of_not_mem {sep : Char} {cs : List Char} (h : sep ∉ cs) :
    splitAt sep cs = [cs] := by
  induction cs with
  | nil => rfl
  | cons c cs ih =>
    simp only [List.mem_cons, not_or] at h
    rw [splitAt, if_neg (Ne.symm h.1), ih h.2]

theorem splitAt_cons_of_ne {sep c : Char} {cs part : List Char} {parts : List (List Char)}
    (hc : c ≠ sep) (h : splitAt sep cs = part :: parts) :
    splitAt sep (c :: cs) = (c :: part) :: parts := by
  rw [splitAt, if_neg hc, h]

theorem splitAt_append_cons (sep : Char) (xs ys : List Char) :
    splitAt sep (xs ++ sep :: ys) = splitAt sep xs ++ splitAt sep ys := by
  induction xs with
  | nil => simp [splitAt]
  | cons c xs ih =>
    by_cases hc : c = sep
    · subst hc
      simp only [List.cons_append, splitAt, if_true, ih]
    · obtain ⟨part, parts, hp⟩ := List.exists_cons_of_ne_nil (splitAt_ne_nil sep xs)
      have hrest : splitAt sep (xs ++ sep :: ys) = part :: (parts ++ splitAt sep ys) := by
        rw [ih, hp, List.cons_append]
      rw [List.cons_append, splitAt_cons_of_ne hc hrest, splitAt_cons_of_ne hc hp,
        List.cons_append]

theorem not_mem_of_mem_splitAt {sep : Char} {cs part : List Char} (h : part ∈ splitAt sep cs) :
    sep ∉ part := by
  induction cs generalizing part with
  | nil =>
    rw [splitAt, List.mem_singleton] at h
    simp [h]
  | cons c cs ih =>
    by_cases hc : c = sep
    · rw [splitAt, if_pos hc] at h
      rcases List.mem_cons.1 h with rfl | h
      · simp
      · exact ih h
    · obtain ⟨first, parts, hp⟩ := List.exists_cons_of_ne_nil (splitAt_ne_nil sep cs)
      rw [splitAt_cons_of_ne hc hp] at h
      rw [hp] at ih
      rcases List.mem_cons.1 h with rfl | h
      · rw [List.mem_cons, not_or]
        exact ⟨Ne.symm hc, ih List.mem_cons_self⟩
      · exact ih (List.mem_cons_of_mem _ h)

/-! ## Joining -/

theorem joinWith_cons_cons (sep : Char) (part other : List Char) (parts : List (List Char)) :
    joinWith sep (part :: other :: parts) = part ++ sep :: joinWith sep (other :: parts) := by
  simp [joinWith, List.intercalate]

/-- **Joined parts are found again.** There has to be a part, since no text is split into none. -/
theorem splitAt_joinWith {sep : Char} {parts : List (List Char)} (hne : parts ≠ [])
    (h : ∀ part ∈ parts, sep ∉ part) : splitAt sep (joinWith sep parts) = parts := by
  induction parts with
  | nil => exact absurd rfl hne
  | cons part parts ih =>
    have hpart := splitAt_of_not_mem (h part List.mem_cons_self)
    cases parts with
    | nil => simpa [joinWith, List.intercalate] using hpart
    | cons other parts =>
      have hrest := ih (by simp) fun p hp => h p (List.mem_cons_of_mem _ hp)
      rw [joinWith_cons_cons, splitAt_append_cons, hpart, hrest, List.singleton_append]

theorem splitAt_lines {sep : Char} {lines : List (List Char)} (h : ∀ line ∈ lines, sep ∉ line) :
    splitAt sep (lines.flatMap (· ++ [sep])) = lines ++ [[]] := by
  induction lines with
  | nil => rfl
  | cons line lines ih =>
    have hline := splitAt_of_not_mem (h line List.mem_cons_self)
    have hrest := ih fun l hl => h l (List.mem_cons_of_mem _ hl)
    rw [List.flatMap_cons, List.append_assoc, List.singleton_append, splitAt_append_cons, hline,
      hrest, List.singleton_append, List.cons_append]

theorem not_mem_joinWith {sep c : Char} {parts : List (List Char)} (hc : c ≠ sep)
    (h : ∀ part ∈ parts, c ∉ part) : c ∉ joinWith sep parts := by
  induction parts with
  | nil => simp [joinWith, List.intercalate]
  | cons part parts ih =>
    have hpart := h part List.mem_cons_self
    have hrest := ih fun p hp => h p (List.mem_cons_of_mem _ hp)
    cases parts with
    | nil => simpa [joinWith, List.intercalate] using hpart
    | cons other parts =>
      rw [joinWith_cons_cons, List.mem_append, List.mem_cons]
      rintro (hin | rfl | hin)
      · exact hpart hin
      · exact hc rfl
      · exact hrest hin

end Transect
