import Mathlib
import Transect.Proofs.Digits
import Transect.Proofs.Path
import Transect.Tile.Square

/-!
# The names of tiles

A square whose latitude has two digits and whose longitude has three is read back from the name of
its file, in upper or lower case and in any directory. The name of any other square is too long
and stands for no square.
-/

namespace Transect.Square

variable {s : Square}

/-! ## The characters of a name -/

/-- The name of the square's tile without the extension. -/
def stem (s : Square) : List Char :=
  (if s.lat.toInt < 0 then 'S' else 'N') :: padZeros 2 (digitsOf s.lat.toInt.natAbs) ++
    (if s.lon.toInt < 0 then 'W' else 'E') :: padZeros 3 (digitsOf s.lon.toInt.natAbs)

theorem fileName_eq (s : Square) : s.fileName = .ofList (s.stem ++ '.' :: ['h', 'g', 't']) := by
  simp [fileName, stem]

theorem lowerName_eq (s : Square) :
    s.lowerName = .ofList (s.stem.map Char.toLower ++ '.' :: ['h', 'g', 't']) := by
  simp [lowerName, fileName_eq]

theorem mem_stem {c : Char} (h : c ∈ s.stem) : c ∈ ['N', 'S', 'E', 'W'] ∨ c.isDigit = true := by
  simp only [stem, List.mem_append, List.mem_cons] at h
  rcases h with (rfl | h) | rfl | h
  · left
    split <;> decide
  · exact .inr (isDigit_of_mem_padZeros h)
  · left
    split <;> decide
  · exact .inr (isDigit_of_mem_padZeros h)

theorem toLower_of_isDigit {c : Char} (h : c.isDigit = true) : c.toLower = c := by
  simp only [Char.isDigit, Bool.and_eq_true, decide_eq_true_eq] at h
  rw [Char.toLower, dif_neg]
  rintro ⟨h1, -⟩
  have := UInt32.le_trans h1 h.2
  exact absurd this (by decide)

theorem toUpper_of_isDigit {c : Char} (h : c.isDigit = true) : c.toUpper = c := by
  simp only [Char.isDigit, Bool.and_eq_true, decide_eq_true_eq] at h
  rw [Char.toUpper, dif_neg]
  rintro ⟨h1, -⟩
  have := UInt32.le_trans h1 h.2
  exact absurd this (by decide)

theorem toUpper_of_mem_stem {c : Char} (h : c ∈ s.stem) : c.toUpper = c := by
  rcases mem_stem h with h | h
  · fin_cases h <;> rfl
  · exact toUpper_of_isDigit h

theorem toUpper_toLower_of_mem_stem {c : Char} (h : c ∈ s.stem) : c.toLower.toUpper = c := by
  rcases mem_stem h with h | h
  · fin_cases h <;> rfl
  · rw [toLower_of_isDigit h, toUpper_of_isDigit h]

theorem map_toUpper_stem (s : Square) : s.stem.map Char.toUpper = s.stem :=
  (List.map_congr_left fun _ h => toUpper_of_mem_stem h).trans (List.map_id _)

theorem map_toUpper_toLower_stem (s : Square) :
    (s.stem.map Char.toLower).map Char.toUpper = s.stem := by
  rw [List.map_map]
  exact (List.map_congr_left fun _ h => toUpper_toLower_of_mem_stem h).trans (List.map_id _)

/-! ## Names are plain -/

theorem natAbs_toInt_lt (i : Int16) : i.toInt.natAbs < 10 ^ 5 := by
  have h1 := i.toInt_lt
  have h2 := i.le_toInt
  omega

theorem stem_length (s : Square) :
    s.stem.length = 2 + max 2 (digitsOf s.lat.toInt.natAbs).length +
      max 3 (digitsOf s.lon.toInt.natAbs).length := by
  simp only [stem, List.length_append, List.length_cons, padZeros_length]
  omega

theorem stem_length_le (s : Square) : s.stem.length ≤ 12 := by
  rw [stem_length]
  have h1 := (digitsOf_length_le_iff (by decide)).2 (natAbs_toInt_lt s.lat)
  have h2 := (digitsOf_length_le_iff (by decide)).2 (natAbs_toInt_lt s.lon)
  omega

/-- What is short, has characters as in a name and ends in the extension is a plain name. -/
theorem plain_of_stem {cs : List Char} (h : ∀ c ∈ cs, c ≠ '/' ∧ c ≠ '\x00') :
    Path.Plain (.ofList (cs ++ '.' :: ['h', 'g', 't'])) where
  noSlash := by
    rw [String.toList_ofList, List.mem_append]
    rintro (hm | hm)
    · exact (h _ hm).1 rfl
    · exact absurd hm (by decide)
  noZero := by
    rw [String.toList_ofList, List.mem_append]
    rintro (hm | hm)
    · exact (h _ hm).2 rfl
    · exact absurd hm (by decide)
  ne_empty heq := by
    have := congrArg (fun t => t.toList.length) heq
    simp at this
  ne_dot heq := by
    have := congrArg (fun t => t.toList.length) heq
    simp at this
  ne_dotdot heq := by
    have := congrArg (fun t => t.toList.length) heq
    simp at this

theorem utf8ByteSize_ofList_le (cs : List Char) :
    (String.ofList cs).utf8ByteSize ≤ 4 * cs.length := by
  rw [String.utf8ByteSize_ofList]
  induction cs with
  | nil => simp
  | cons c cs ih =>
    have := c.utf8Size_le_four
    simp only [String.utf8Len_cons, List.length_cons]
    omega

theorem plain_fileName (s : Square) : Path.Plain s.fileName := by
  rw [fileName_eq]
  refine plain_of_stem fun c hc => ?_
  rcases mem_stem hc with h | h
  · fin_cases h <;> decide
  · constructor <;> rintro rfl <;> exact absurd h (by decide)

theorem plain_lowerName (s : Square) : Path.Plain s.lowerName := by
  rw [lowerName_eq]
  refine plain_of_stem fun c hc => ?_
  obtain ⟨d, hd, rfl⟩ := List.mem_map.1 hc
  rcases mem_stem hd with h | h
  · fin_cases h <;> decide
  · rw [toLower_of_isDigit h]
    constructor <;> rintro rfl <;> exact absurd h (by decide)

theorem utf8ByteSize_fileName_le (s : Square) : s.fileName.utf8ByteSize ≤ 64 := by
  rw [fileName_eq]
  refine (utf8ByteSize_ofList_le _).trans ?_
  have := stem_length_le s
  simp
  omega

theorem utf8ByteSize_lowerName_le (s : Square) : s.lowerName.utf8ByteSize ≤ 64 := by
  rw [lowerName_eq]
  refine (utf8ByteSize_ofList_le _).trans ?_
  have := stem_length_le s
  simp
  omega

/-! ## Reading names back -/

/-- Whether the degrees of the square have as many digits as a name has room for. -/
def HasName (s : Square) : Prop := s.lat.toInt.natAbs < 100 ∧ s.lon.toInt.natAbs < 1000

instance (s : Square) : Decidable s.HasName := by
  unfold HasName
  infer_instance

theorem sign?_mul_natAbs {plus minus : Char} (hne : plus ≠ minus) (i : Int) :
    ∃ sign, sign? plus minus (if i < 0 then minus else plus) = some sign ∧
      sign * (i.natAbs : Int) = i := by
  by_cases h : i < 0
  · refine ⟨-1, by simp [sign?, h, hne.symm], ?_⟩
    omega
  · refine ⟨1, by simp [sign?, h], ?_⟩
    omega

theorem ofName?_eq_none {cs : List Char} (h : cs.length ≠ 7) : ofName? cs = none := by
  unfold ofName?
  split
  · exact absurd rfl h
  · rfl

theorem ofName?_stem_of_hasName (h : s.HasName) : ofName? s.stem = some s := by
  obtain ⟨a, b, hlat⟩ := List.length_eq_two.1 (padZeros_digitsOf_length (by decide) h.1)
  obtain ⟨x, y, z, hlon⟩ := List.length_eq_three.1 (padZeros_digitsOf_length (by decide) h.2)
  have hNS : 'N' ≠ 'S' := by decide
  have hEW : 'E' ≠ 'W' := by decide
  obtain ⟨north, hn, hnorth⟩ := sign?_mul_natAbs hNS s.lat.toInt
  obtain ⟨east, he, heast⟩ := sign?_mul_natAbs hEW s.lon.toInt
  have hstem : s.stem = [if s.lat.toInt < 0 then 'S' else 'N', a, b,
      if s.lon.toInt < 0 then 'W' else 'E', x, y, z] := by
    simp only [stem, hlat, hlon, List.cons_append, List.nil_append]
  rw [hstem, ofName?, hn, he, ← hlat, ← hlon, readSigned?_padZeros, readSigned?_padZeros]
  simp only [Option.bind_eq_bind, Option.bind_some, hnorth, heast, Int16.ofInt_toInt]
  rfl

theorem ofName?_stem (s : Square) : ofName? s.stem = if s.HasName then some s else none := by
  by_cases h : s.HasName
  · rw [if_pos h, ofName?_stem_of_hasName h]
  · rw [if_neg h]
    apply ofName?_eq_none
    rw [stem_length]
    have hlong : 100 ≤ s.lat.toInt.natAbs ∨ 1000 ≤ s.lon.toInt.natAbs := by
      unfold HasName at h
      omega
    rcases hlong with hlat | hlon
    · have : 2 < (padZeros 2 (digitsOf s.lat.toInt.natAbs)).length :=
        lt_padZeros_digitsOf_length (by decide) hlat
      rw [padZeros_length] at this
      omega
    · have : 3 < (padZeros 3 (digitsOf s.lon.toInt.natAbs)).length :=
        lt_padZeros_digitsOf_length (by decide) hlon
      rw [padZeros_length] at this
      omega

theorem stem_ne_nil (s : Square) : s.stem ≠ [] := by
  simp [stem]

/-- The name of a square's tile stands for that square, if the square has a name. -/
theorem ofPath?_join_fileName (directory : String) (s : Square) :
    ofPath? (Path.join directory s.fileName) = if s.HasName then some s else none := by
  have hplain := plain_fileName s
  rw [fileName_eq] at hplain ⊢
  rw [ofPath?, Path.stem?_join hplain (stem_ne_nil s) (by decide), Option.bind_some,
    String.toList_ofList, map_toUpper_stem, ofName?_stem]

theorem ofPath?_join_lowerName (directory : String) (s : Square) :
    ofPath? (Path.join directory s.lowerName) = if s.HasName then some s else none := by
  have hplain := plain_lowerName s
  rw [lowerName_eq] at hplain ⊢
  rw [ofPath?, Path.stem?_join hplain (by simp [stem_ne_nil]) (by decide), Option.bind_some,
    String.toList_ofList, map_toUpper_toLower_stem, ofName?_stem]

/-! ## Names that stand for a square -/

theorem sign?_eq_some {plus minus c : Char} {sign : Int} (h : sign? plus minus c = some sign) :
    sign = 1 ∨ sign = -1 := by
  unfold sign? at h
  split at h
  · cases h
    exact .inl rfl
  · split at h
    · cases h
      exact .inr rfl
    · cases h

theorem natAbs_sign_mul {sign : Int} (h : sign = 1 ∨ sign = -1) (i : Int) :
    (sign * i).natAbs = i.natAbs := by
  rcases h with rfl | rfl <;> omega

/-- A name of seven characters has no room for more digits than a square's name may have. -/
theorem ofName?_eq_some {cs : List Char} (h : ofName? cs = some s) : cs.length = 7 ∧ s.HasName := by
  unfold ofName? at h
  split at h
  · rename_i n a b e x y z
    refine ⟨rfl, ?_⟩
    simp only [Option.bind_eq_bind, Option.bind_eq_some_iff, Option.pure_def,
      Option.some.injEq] at h
    obtain ⟨north, hnorth, lat, hlat, east, heast, lon, hlon, rfl⟩ := h
    have hlat : lat.natAbs < 10 ^ 2 := readSigned?_lt hlat
    have hlon : lon.natAbs < 10 ^ 3 := readSigned?_lt hlon
    rw [← natAbs_sign_mul (sign?_eq_some hnorth)] at hlat
    rw [← natAbs_sign_mul (sign?_eq_some heast)] at hlon
    unfold HasName
    rw [Int16.toInt_ofInt_of_le (by omega) (by omega), Int16.toInt_ofInt_of_le (by omega) (by omega)]
    exact ⟨hlat, hlon⟩
  · cases h

/-- A path that stands for a square has a stem of seven characters. -/
theorem ofPath?_eq_some {path : String} (h : ofPath? path = some s) :
    (∃ stem, Path.stem? path = some stem ∧ stem.toList.length = 7) ∧ s.HasName := by
  obtain ⟨stem, hstem, hname⟩ := Option.bind_eq_some_iff.1 h
  obtain ⟨hlength, hs⟩ := ofName?_eq_some hname
  exact ⟨⟨stem, hstem, by simpa using hlength⟩, hs⟩

/-! ## The size of a name -/

theorem length_le_utf8ByteSize (cs : List Char) : cs.length ≤ (String.ofList cs).utf8ByteSize := by
  rw [String.utf8ByteSize_ofList]
  induction cs with
  | nil => simp
  | cons c cs ih =>
    have := c.utf8Size_pos
    simp only [String.utf8Len_cons, List.length_cons]
    omega

theorem utf8ByteSize_of_ascii {cs : List Char} (h : ∀ c ∈ cs, c.val ≤ 127) :
    (String.ofList cs).utf8ByteSize = cs.length := by
  rw [String.utf8ByteSize_ofList]
  induction cs with
  | nil => rfl
  | cons c cs ih =>
    have hc := Char.utf8Size_eq_one_iff.2 (h c List.mem_cons_self)
    rw [String.utf8Len_cons, ih fun d hd => h d (List.mem_cons_of_mem _ hd), hc, List.length_cons]

theorem val_le_of_isDigit {c : Char} (h : c.isDigit = true) : c.val ≤ 127 := by
  simp only [Char.isDigit, Bool.and_eq_true, decide_eq_true_eq] at h
  exact UInt32.le_trans h.2 (by decide)

theorem ascii_stem {c : Char} (h : c ∈ s.stem) : c.val ≤ 127 ∧ c.toLower.val ≤ 127 := by
  rcases mem_stem h with h | h
  · fin_cases h <;> decide
  · rw [toLower_of_isDigit h]
    exact ⟨val_le_of_isDigit h, val_le_of_isDigit h⟩

theorem stem_length_of_hasName (h : s.HasName) : s.stem.length = 7 := by
  rw [stem_length]
  have hlat : (digitsOf s.lat.toInt.natAbs).length ≤ 2 :=
    (digitsOf_length_le_iff (by decide)).2 h.1
  have hlon : (digitsOf s.lon.toInt.natAbs).length ≤ 3 :=
    (digitsOf_length_le_iff (by decide)).2 h.2
  omega

theorem utf8ByteSize_of_stem {cs : List Char} (h : ∀ c ∈ cs, c.val ≤ 127) (hlen : cs.length = 7) :
    (String.ofList (cs ++ '.' :: ['h', 'g', 't'])).utf8ByteSize = 11 := by
  have hname : ∀ c ∈ cs ++ '.' :: ['h', 'g', 't'], c.val ≤ 127 := by
    intro c hc
    rcases List.mem_append.1 hc with hc | hc
    · exact h c hc
    · fin_cases hc <;> decide
  rw [utf8ByteSize_of_ascii hname, List.length_append, hlen]
  rfl

theorem utf8ByteSize_fileName (h : s.HasName) : s.fileName.utf8ByteSize = 11 := by
  rw [fileName_eq]
  exact utf8ByteSize_of_stem (fun _ hc => (ascii_stem hc).1) (stem_length_of_hasName h)

theorem utf8ByteSize_lowerName (h : s.HasName) : s.lowerName.utf8ByteSize = 11 := by
  rw [lowerName_eq]
  refine utf8ByteSize_of_stem (fun c hc => ?_) ((List.length_map _).trans (stem_length_of_hasName h))
  obtain ⟨d, hd, rfl⟩ := List.mem_map.1 hc
  exact (ascii_stem hd).2

end Transect.Square
