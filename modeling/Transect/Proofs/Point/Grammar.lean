import Transect.Proofs.Decimal.ReadBack
import Transect.Proofs.Except
import Transect.Proofs.Point

/-!
# The grammar of points

A point is two float literals with one comma between them. Blanks may stand around each literal, and
no literal has a blank or a comma in it.
-/

namespace Transect

variable {c : Char} {cs xs ys : List Char} {x : Float} {cause : FloatError}

/-! ## Literals between blanks -/

theorem isBlank_of_isAlpha (h : c.isAlpha = true) : isBlank c = false := by
  have := toNat_of_isAlpha h
  simp [isBlank, blankRanges]
  omega

theorem FloatText.isBlank (h : FloatText cs x) (hc : c ∈ cs) : isBlank c = false := by
  rcases h.chars hc with hc | hc
  · exact isBlank_of_isNumeric hc
  · exact isBlank_of_isAlpha hc

theorem FloatText.comma_not_mem (h : FloatText cs x) : ',' ∉ cs := fun hmem => by
  rcases h.chars hmem with hc | hc <;> exact absurd hc (by decide)

theorem mem_dropWhile_isBlank (hc : isBlank c = false) (h : c ∈ cs) :
    c ∈ cs.dropWhile isBlank := by
  rw [← List.takeWhile_append_dropWhile (p := isBlank) (l := cs), List.mem_append] at h
  refine h.resolve_left fun hmem => ?_
  rw [List.mem_takeWhile_imp hmem] at hc
  cases hc

/-- Only blanks are lost at the ends. -/
theorem mem_trimBlanks (hc : isBlank c = false) (h : c ∈ cs) : c ∈ trimBlanks cs := by
  have hfront := mem_dropWhile_isBlank hc h
  exact List.mem_reverse.2 (mem_dropWhile_isBlank hc (List.mem_reverse.2 hfront))

theorem comma_not_mem_of_trimBlanks (h : FloatText (trimBlanks cs) x) : ',' ∉ cs :=
  fun hmem => h.comma_not_mem (mem_trimBlanks (by decide) hmem)

namespace Point

/-! ## Coordinates -/

theorem readCoordinate_eq_ok_iff :
    readCoordinate cs = .ok x ↔ FloatText (trimBlanks cs) x := by
  rw [readCoordinate, mapError_eq_ok, readFloat_eq_ok_iff]

theorem readCoordinate_eq_error_iff :
    readCoordinate cs = .error (.coordinate cause) ↔ FloatFault (trimBlanks cs) cause := by
  rw [← readFloat_eq_error_iff, readCoordinate]
  cases readFloat (trimBlanks cs) <;> simp [Except.mapError]

theorem readCoordinate_ne_notAPair : readCoordinate cs ≠ .error .notAPair := by
  unfold readCoordinate
  cases readFloat (trimBlanks cs) <;> simp [Except.mapError]

/-! ## Pairs -/

theorem splitAtComma?_of_not_mem (h : ',' ∉ cs) : splitAtComma? cs = none := by
  induction cs with
  | nil => rfl
  | cons c cs ih =>
    rw [List.mem_cons, not_or] at h
    rw [splitAtComma?, if_neg (Ne.symm h.1), ih h.2]
    rfl

theorem read_of_not_mem {s : String} (h : ',' ∉ s.toList) : read s = .error .notAPair := by
  rw [read, splitAtComma?_of_not_mem h]

theorem read_of_split {s : String} (hs : s.toList = xs ++ ',' :: ys) (h : ',' ∉ xs) :
    read s = (do
      let x ← readCoordinate xs
      let y ← readCoordinate ys
      return ⟨x, y⟩) := by
  rw [read, hs, splitAtComma?_append h]

theorem read_eq_ok_iff {s : String} {p : Point} :
    read s = .ok p ↔
      ∃ xs ys, s.toList = xs ++ ',' :: ys ∧ ',' ∉ xs ∧ ',' ∉ ys ∧
        FloatText (trimBlanks xs) p.x ∧ FloatText (trimBlanks ys) p.y := by
  constructor
  · intro h
    by_cases hmem : ',' ∈ s.toList
    · obtain ⟨xs, ys, hs, hxs⟩ := List.eq_append_cons_of_mem hmem
      rw [read_of_split hs hxs] at h
      obtain ⟨x, hx, h⟩ := bind_eq_ok.1 h
      obtain ⟨y, hy, h⟩ := bind_eq_ok.1 h
      obtain rfl := pure_eq_ok.1 h
      rw [readCoordinate_eq_ok_iff] at hx hy
      exact ⟨xs, ys, hs, hxs, comma_not_mem_of_trimBlanks hy, hx, hy⟩
    · rw [read_of_not_mem hmem] at h
      cases h
  · rintro ⟨xs, ys, hs, hxs, -, hx, hy⟩
    rw [read_of_split hs hxs, readCoordinate_eq_ok_iff.2 hx, readCoordinate_eq_ok_iff.2 hy]
    rfl

theorem read_of_split_eq_error_iff {s : String} {e : ReadError}
    (hs : s.toList = xs ++ ',' :: ys) (h : ',' ∉ xs) :
    read s = .error e ↔
      readCoordinate xs = .error e ∨
        (∃ x, FloatText (trimBlanks xs) x) ∧ readCoordinate ys = .error e := by
  have hlast (x : Float) : (do
      let y ← readCoordinate ys
      return (⟨x, y⟩ : Point)) = .error e ↔ readCoordinate ys = .error e := by
    rw [bind_eq_error]
    refine or_iff_left ?_
    rintro ⟨y, -, h⟩
    cases h
  rw [read_of_split hs h, bind_eq_error]
  simp only [hlast, readCoordinate_eq_ok_iff, exists_and_right]

theorem read_eq_notAPair_iff {s : String} : read s = .error .notAPair ↔ ',' ∉ s.toList := by
  constructor
  · intro h hmem
    obtain ⟨xs, ys, hs, hxs⟩ := List.eq_append_cons_of_mem hmem
    rcases (read_of_split_eq_error_iff hs hxs).1 h with h | ⟨-, h⟩
    · exact readCoordinate_ne_notAPair h
    · exact readCoordinate_ne_notAPair h
  · exact read_of_not_mem

theorem read_eq_coordinate_iff {s : String} :
    read s = .error (.coordinate cause) ↔
      ∃ xs ys, s.toList = xs ++ ',' :: ys ∧ ',' ∉ xs ∧
        (FloatFault (trimBlanks xs) cause ∨
          (∃ x, FloatText (trimBlanks xs) x) ∧ FloatFault (trimBlanks ys) cause) := by
  simp only [← readCoordinate_eq_error_iff]
  constructor
  · intro h
    by_cases hmem : ',' ∈ s.toList
    · obtain ⟨xs, ys, hs, hxs⟩ := List.eq_append_cons_of_mem hmem
      exact ⟨xs, ys, hs, hxs, (read_of_split_eq_error_iff hs hxs).1 h⟩
    · rw [read_of_not_mem hmem] at h
      cases h
  · rintro ⟨xs, ys, hs, hxs, h⟩
    exact (read_of_split_eq_error_iff hs hxs).2 h

/-! ## Points that are written -/

theorem floatText_plainFloat (h : x.isNaN = false) : FloatText (plainFloat x).toList x :=
  readFloat_eq_ok_iff.1 (readFloat_plainFloat h)

theorem trimBlanks_literal {before after : List Char} (hbefore : Blanks before)
    (hafter : Blanks after) (h : FloatText cs x) : trimBlanks (before ++ cs ++ after) = cs :=
  trimBlanks_append hbefore hafter h.ne_nil fun _ hc => h.isBlank hc

/-- **The grammar of points.** A text is a point exactly if it has one comma, with a literal on
either side of it, and the literals mean the coordinates. A text without a comma is no pair. If it
has one, the fault is that of the first side without a literal. A point that is written with any
blanks around its coordinates is read back. -/
theorem read_grammar :
    (∀ (s : String) (p : Point), read s = .ok p ↔
      ∃ xs ys, s.toList = xs ++ ',' :: ys ∧ ',' ∉ xs ∧ ',' ∉ ys ∧
        FloatText (trimBlanks xs) p.x ∧ FloatText (trimBlanks ys) p.y) ∧
    (∀ s : String, read s = .error .notAPair ↔ ',' ∉ s.toList) ∧
    (∀ (s : String) (cause : FloatError), read s = .error (.coordinate cause) ↔
      ∃ xs ys, s.toList = xs ++ ',' :: ys ∧ ',' ∉ xs ∧
        (FloatFault (trimBlanks xs) cause ∨
          (∃ x, FloatText (trimBlanks xs) x) ∧ FloatFault (trimBlanks ys) cause)) ∧
    ∀ (p : Point) (a b c d : List Char), p.x.isNaN = false → p.y.isNaN = false →
      Blanks a → Blanks b → Blanks c → Blanks d →
      read (.ofList (a ++ (plainFloat p.x).toList ++ b ++ ',' ::
        (c ++ (plainFloat p.y).toList ++ d))) = .ok p := by
  refine ⟨fun _ _ => read_eq_ok_iff, fun _ => read_eq_notAPair_iff, fun _ _ =>
    read_eq_coordinate_iff, fun p a b c d hx hy ha hb hc hd => ?_⟩
  have hxs := floatText_plainFloat hx
  have hys := floatText_plainFloat hy
  rw [← trimBlanks_literal ha hb hxs] at hxs
  rw [← trimBlanks_literal hc hd hys] at hys
  exact read_eq_ok_iff.2 ⟨_, _, String.toList_ofList, comma_not_mem_of_trimBlanks hxs,
    comma_not_mem_of_trimBlanks hys, hxs, hys⟩

/-- Any of the blanks may stand around a coordinate, and a zero keeps its sign. -/
theorem infinite_read_grammar :
    read (.ofList (['\u3000'] ++ (plainFloat (1 / 0)).toList ++ [] ++ ',' ::
      (['\t', ' '] ++ (plainFloat (-0)).toList ++ ['\n']))) = .ok ⟨1 / 0, -0⟩ := by
  obtain ⟨-, -, -, hwritten⟩ := read_grammar
  have hblanks : Blanks ['\u3000'] ∧ Blanks [] ∧ Blanks ['\t', ' '] ∧ Blanks ['\n'] := by
    simp [Blanks, isBlank, blankRanges]
  obtain ⟨ha, hb, hc, hd⟩ := hblanks
  exact hwritten ⟨1 / 0, -0⟩ _ _ _ _ (by decide +kernel) (by decide +kernel) ha hb hc hd

/-- Two literals that are not written as the program writes them. -/
example : read "\u3000.5e1 ,\t-InFiNiTy\n" = .ok ⟨5, -(1 / 0)⟩ := by decide +kernel

end Point

end Transect
