import Transect.Proofs.Tile.Name

/-!
# Which names stand for a square

The name of a tile is a letter and two digits for the latitude, and a letter and three digits for
the longitude. The reader takes these names and a few more: a sign may stand where the first digit
of a number should be. It cuts the name at fixed bytes, and no cut is ever within a character.
-/

namespace Transect

variable {cs : List Char} {c : Char} {i : Int}

/-! ## Numbers with a sign -/

theorem plainNumber_iff :
    PlainNumber cs i ↔ SignedNumber cs i ∧ '+' ∉ cs ∧ '-' ∉ cs := by
  constructor
  · intro h
    refine ⟨.plain h, ?_, ?_⟩ <;> intro hmem <;> exact absurd (h.1.2 _ hmem) (by decide)
  · rintro ⟨h, hplus, hminus⟩
    cases h with
    | plain h => exact h
    | plus h => simp at hplus
    | minus h => simp at hminus

theorem SignedNumber.ascii (h : SignedNumber cs i) (hc : c ∈ cs) : c.val ≤ 127 := by
  have hdigit {ds : List Char} (hds : Digits ds) (hmem : c ∈ ds) : c.val ≤ 127 :=
    Square.val_le_of_isDigit (hds.2 c hmem)
  cases h with
  | plain h => exact hdigit h.1 hc
  | plus h | minus h =>
    rcases List.mem_cons.1 hc with rfl | hc
    · decide
    · exact hdigit h.1 hc

namespace Square

variable {s : Square} {field : List Char → Int → Prop}

/-! ## The grammar -/

/-- A letter and a number. The second of the two letters makes the number negative. -/
def Degrees (field : List Char → Int → Prop) (plus minus letter : Char) (cs : List Char)
    (i : Int) : Prop :=
  (letter = plus ∧ field cs i) ∨ (letter = minus ∧ field cs (-i))

/-- A name in upper case and the square that it stands for, with numbers written as `field` says. -/
def Names (field : List Char → Int → Prop) (name : List Char) (s : Square) : Prop :=
  ∃ n a b e x y z, name = [n, a, b, e, x, y, z] ∧
    Degrees field 'N' 'S' n [a, b] s.lat.toInt ∧ Degrees field 'E' 'W' e [x, y, z] s.lon.toInt

/-- The stem of a file name without regard to case. -/
def upperStem? (path : String) : Option (List Char) :=
  (Path.stem? path).map fun stem => stem.toList.map Char.toUpper

theorem ofPath?_eq (path : String) : ofPath? path = (upperStem? path).bind ofName? := by
  rw [ofPath?, upperStem?, Option.bind_map]
  rfl

theorem degrees_iff {plus minus letter : Char} (hne : plus ≠ minus) :
    Degrees SignedNumber plus minus letter cs i ↔
      ∃ sign j, sign? plus minus letter = some sign ∧ readSigned? cs = some j ∧ i = sign * j := by
  unfold Degrees sign?
  simp only [readSigned?_eq_some_iff]
  constructor
  · rintro (⟨rfl, h⟩ | ⟨rfl, h⟩)
    · exact ⟨1, i, by simp, h, by simp⟩
    · exact ⟨-1, -i, by simp [hne.symm], h, by simp⟩
  · rintro ⟨sign, j, hsign, h, rfl⟩
    split at hsign
    · cases hsign
      exact .inl ⟨by assumption, by simpa using h⟩
    · split at hsign <;> cases hsign
      exact .inr ⟨by assumption, by simpa using h⟩

theorem Degrees.natAbs_lt {plus minus letter : Char}
    (h : Degrees SignedNumber plus minus letter cs i) : i.natAbs < 10 ^ cs.length := by
  rcases h with ⟨-, h⟩ | ⟨-, h⟩
  · exact readSigned?_lt (readSigned?_eq_some_iff.2 h)
  · have := readSigned?_lt (readSigned?_eq_some_iff.2 h)
    omega

/-- The reader accepts the grammar with signs. -/
theorem ofName?_eq_some_iff : ofName? cs = some s ↔ Names SignedNumber cs s := by
  have hNS : 'N' ≠ 'S' := by decide
  have hEW : 'E' ≠ 'W' := by decide
  constructor
  · intro h
    unfold ofName? at h
    split at h
    · rename_i n a b e x y z
      simp only [Option.bind_eq_bind, Option.bind_eq_some_iff, Option.pure_def,
        Option.some.injEq] at h
      obtain ⟨north, hnorth, lat, hlat, east, heast, lon, hlon, rfl⟩ := h
      have hlatitude := (degrees_iff hNS).2 ⟨north, lat, hnorth, hlat, rfl⟩
      have hlongitude := (degrees_iff hEW).2 ⟨east, lon, heast, hlon, rfl⟩
      refine ⟨n, a, b, e, x, y, z, rfl, ?_, ?_⟩
      · have hlt : (north * lat).natAbs < 10 ^ 2 := hlatitude.natAbs_lt
        rwa [Int16.toInt_ofInt_of_le (by omega) (by omega)]
      · have hlt : (east * lon).natAbs < 10 ^ 3 := hlongitude.natAbs_lt
        rwa [Int16.toInt_ofInt_of_le (by omega) (by omega)]
    · cases h
  · rintro ⟨n, a, b, e, x, y, z, rfl, hlat, hlon⟩
    obtain ⟨north, lat, hnorth, hlat, heq⟩ := (degrees_iff hNS).1 hlat
    obtain ⟨east, lon, heast, hlon, heq'⟩ := (degrees_iff hEW).1 hlon
    simp only [ofName?, hnorth, hlat, heast, hlon, Option.bind_eq_bind, Option.bind_some, ← heq,
      ← heq', Int16.ofInt_toInt]
    rfl

theorem Names.ascii (h : Names SignedNumber cs s) : ∀ c ∈ cs, c.val ≤ 127 := by
  obtain ⟨n, a, b, e, x, y, z, rfl, hlat, hlon⟩ := h
  have hnumber {ds : List Char} {plus minus letter : Char} {i : Int}
      (h : Degrees SignedNumber plus minus letter ds i) : ∀ c ∈ ds, c.val ≤ 127 := by
    rcases h with ⟨-, h⟩ | ⟨-, h⟩ <;> exact fun c hc => h.ascii hc
  have hn : n.val ≤ 127 := by rcases hlat with ⟨rfl, -⟩ | ⟨rfl, -⟩ <;> decide
  have he : e.val ≤ 127 := by rcases hlon with ⟨rfl, -⟩ | ⟨rfl, -⟩ <;> decide
  have hlat := hnumber hlat
  have hlon := hnumber hlon
  simp only [List.forall_mem_cons] at hlat hlon ⊢
  exact ⟨hn, hlat.1, hlat.2.1, he, hlon⟩

theorem degrees_plain_iff {plus minus letter : Char} (hplus : plus.isAlpha = true)
    (hminus : minus.isAlpha = true) :
    Degrees PlainNumber plus minus letter cs i ↔
      Degrees SignedNumber plus minus letter cs i ∧ '+' ∉ letter :: cs ∧ '-' ∉ letter :: cs := by
  have hletter {c : Char} (hc : c.isAlpha = true) : '+' ≠ c ∧ '-' ≠ c := by
    constructor <;> rintro rfl <;> exact absurd hc (by decide)
  simp only [Degrees, plainNumber_iff, List.mem_cons, not_or]
  constructor
  · rintro (⟨rfl, h, hcs⟩ | ⟨rfl, h, hcs⟩)
    · exact ⟨.inl ⟨rfl, h⟩, ⟨(hletter hplus).1, hcs.1⟩, (hletter hplus).2, hcs.2⟩
    · exact ⟨.inr ⟨rfl, h⟩, ⟨(hletter hminus).1, hcs.1⟩, (hletter hminus).2, hcs.2⟩
  · rintro ⟨h, ⟨-, hcs⟩, -, hcs'⟩
    exact h.imp (fun h => ⟨h.1, h.2, hcs, hcs'⟩) fun h => ⟨h.1, h.2, hcs, hcs'⟩

/-- The names without a sign are those of the grammar with digits only. -/
theorem names_plain_iff :
    Names PlainNumber cs s ↔ Names SignedNumber cs s ∧ '+' ∉ cs ∧ '-' ∉ cs := by
  have hparts {c n a b e x y z : Char} :
      c ∉ [n, a, b, e, x, y, z] ↔ c ∉ [n, a, b] ∧ c ∉ [e, x, y, z] := by
    simp [not_or, and_assoc]
  constructor
  · rintro ⟨n, a, b, e, x, y, z, rfl, hlat, hlon⟩
    rw [degrees_plain_iff (by decide) (by decide)] at hlat hlon
    exact ⟨⟨n, a, b, e, x, y, z, rfl, hlat.1, hlon.1⟩, hparts.2 ⟨hlat.2.1, hlon.2.1⟩,
      hparts.2 ⟨hlat.2.2, hlon.2.2⟩⟩
  · rintro ⟨⟨n, a, b, e, x, y, z, rfl, hlat, hlon⟩, hplus, hminus⟩
    rw [hparts] at hplus hminus
    refine ⟨n, a, b, e, x, y, z, rfl, ?_, ?_⟩ <;> rw [degrees_plain_iff (by decide) (by decide)]
    · exact ⟨hlat, hplus.1, hminus.1⟩
    · exact ⟨hlon, hplus.2, hminus.2⟩

/-! ## Cuts at bytes -/

/-- The texts before and after byte `n`. There are none if the byte is within a character or behind
the end. -/
def cut? : Nat → List Char → Option (List Char × List Char)
  | 0, cs => some ([], cs)
  | _ + 1, [] => none
  | n + 1, c :: cs =>
    if c.utf8Size ≤ n + 1 then
      (cut? (n + 1 - c.utf8Size) cs).map fun (before, after) => (c :: before, after)
    else none

/-- The text from one byte to another. -/
def slice? (start stop : Nat) (cs : List Char) : Option (List Char) := do
  let (before, _) ← cut? stop cs
  let (_, part) ← cut? start before
  return part

/-- The square of a name in upper case, whose parts are cut out at bytes. There is no outcome, not
even that the name stands for no square, if one of the cuts is not possible. -/
def ofBytes? (name : List Char) : Option (Option Square) :=
  if (String.ofList name).utf8ByteSize = 7 ∧ ∀ c ∈ name, c.val ≤ 127 then
    match slice? 0 1 name, slice? 1 3 name, slice? 3 4 name, slice? 4 7 name with
    | some [n], some latitude, some [e], some longitude => some do
      let north ← sign? 'N' 'S' n
      let lat ← readSigned? latitude
      let east ← sign? 'E' 'W' e
      let lon ← readSigned? longitude
      return ⟨.ofInt (east * lon), .ofInt (north * lat)⟩
    | _, _, _, _ => none
  else some none

theorem cut?_of_ascii (h : ∀ c ∈ cs, c.val ≤ 127) {n : Nat} (hn : n ≤ cs.length) :
    cut? n cs = some (cs.take n, cs.drop n) := by
  induction cs generalizing n with
  | nil =>
    obtain rfl : n = 0 := by simpa using hn
    rfl
  | cons c cs ih =>
    obtain ⟨hc, hcs⟩ := List.forall_mem_cons.1 h
    cases n with
    | zero => rfl
    | succ n =>
      have hsize := Char.utf8Size_eq_one_iff.2 hc
      have hrest := ih hcs (Nat.le_of_succ_le_succ hn)
      simp [cut?, hsize, hrest]

theorem slice?_of_ascii (h : ∀ c ∈ cs, c.val ≤ 127) {start stop : Nat} (hle : start ≤ stop)
    (hstop : stop ≤ cs.length) : slice? start stop cs = some ((cs.take stop).drop start) := by
  have hbefore := cut?_of_ascii (fun c hc => h c (List.mem_of_mem_take hc))
    (show start ≤ (cs.take stop).length by simp; omega)
  simp [slice?, cut?_of_ascii h hstop, hbefore]

/-- **Every name can be cut**, and the parts are those that the reader takes. -/
theorem ofBytes?_eq (name : List Char) : ofBytes? name = some (ofName? name) := by
  unfold ofBytes?
  split
  · rename_i hname
    obtain ⟨hsize, hascii⟩ := hname
    rw [utf8ByteSize_of_ascii hascii] at hsize
    have hslice {start stop : Nat} (hle : start ≤ stop) (hstop : stop ≤ 7) :=
      slice?_of_ascii hascii hle (hsize ▸ hstop)
    match name, hsize with
    | [n, a, b, e, x, y, z], _ =>
      simp only [hslice, Nat.reduceLeDiff]
      rfl
  · rename_i hname
    cases hs : ofName? name with
    | none => rfl
    | some s =>
      have hascii := (ofName?_eq_some_iff.1 hs).ascii
      refine absurd ⟨?_, hascii⟩ hname
      rw [utf8ByteSize_of_ascii hascii, (ofName?_eq_some hs).1]

/-! ## Paths -/

/-- **The grammar of tile names.** A path stands for a square exactly if its stem is a letter, a
number of two characters, a letter and a number of three, in any case. A sign counts as one of the
characters, so the stems without signs are those of digits only. The stem can always be cut into
these parts. -/
theorem ofPath?_grammar (path : String) :
    (∀ s, ofPath? path = some s ↔
      ∃ name, upperStem? path = some name ∧ Names SignedNumber name s) ∧
    (∀ name s, Names PlainNumber name s ↔
      Names SignedNumber name s ∧ '+' ∉ name ∧ '-' ∉ name) ∧
    (∀ name, upperStem? path = some name → ofBytes? name = some (ofPath? path)) := by
  refine ⟨fun s => ?_, fun name s => names_plain_iff, fun name hname => ?_⟩
  · rw [ofPath?_eq, Option.bind_eq_some_iff]
    simp only [ofName?_eq_some_iff]
  · rw [ofPath?_eq, hname, Option.bind_some, ofBytes?_eq]

/-- A minus sign among the digits turns the direction around. -/
example : ofPath? "N-4W-72.hgt" = some ⟨72, -4⟩ := by decide +kernel

end Square

end Transect
