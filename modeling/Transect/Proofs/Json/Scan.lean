import Transect.Proofs.Json.Grammar
import Transect.Proofs.NameMap

/-!
# Words, numbers and strings are read

The reader takes all of a blank, a number or a string that is written by the grammar, and stops
behind it. All but the characters of strings are ASCII, so one character is one byte.
-/

namespace Transect.Json

variable {cs ds : List Char} {c : Char} {b w : UInt8} {bs rest done : Bytes}

/-! ## Bytes -/

/-- The bytes of a text. -/
def utf8 (cs : List Char) : Bytes := cs.flatMap String.utf8EncodeChar

@[simp]
theorem utf8_append (cs ds : List Char) : utf8 (cs ++ ds) = utf8 cs ++ utf8 ds :=
  List.flatMap_append

theorem utf8_cons (c : Char) (cs : List Char) :
    utf8 (c :: cs) = String.utf8EncodeChar c ++ utf8 cs := List.flatMap_cons

theorem length_le_utf8 (cs : List Char) : cs.length ≤ (utf8 cs).length := by
  induction cs with
  | nil => exact le_rfl
  | cons c cs ih =>
    have hpos := List.length_pos_of_ne_nil (String.utf8EncodeChar_ne_nil (c := c))
    rw [utf8_cons, List.length_append, List.length_cons]
    omega

theorem fromUTF8?_utf8 (s : String) : String.fromUTF8? ⟨(utf8 s.toList).toArray⟩ = some s := by
  have hbytes : (⟨(utf8 s.toList).toArray⟩ : ByteArray) = s.toUTF8 := by
    rw [utf8, ← utf8Bytes_eq]
    rfl
  rw [hbytes]
  simp only [String.fromUTF8?, String.toUTF8_eq_toByteArray, dif_pos s.isValidUTF8]
  rfl

/-! ## ASCII -/

def Ascii (cs : List Char) : Prop := ∀ c ∈ cs, c.toNat < 0x80

theorem utf8EncodeChar_ascii (h : c.toNat < 0x80) : String.utf8EncodeChar c = [byte c] := by
  have hle : c.val.toNat ≤ 0x7f := Nat.le_of_lt_succ h
  rw [String.utf8EncodeChar, if_pos hle]
  rfl

theorem utf8_ascii (h : Ascii cs) : utf8 cs = cs.map byte := by
  induction cs with
  | nil => rfl
  | cons c cs ih =>
    obtain ⟨hc, hcs⟩ := List.forall_mem_cons.1 h
    rw [utf8_cons, utf8EncodeChar_ascii hc, ih hcs]
    rfl

theorem utf8_between {d : Char} (hc : c.toNat < 0x80) (hd : d.toNat < 0x80) (cs : List Char)
    (rest : Bytes) :
    utf8 (c :: cs ++ [d]) ++ rest = byte c :: (utf8 cs ++ byte d :: rest) := by
  have hlast : utf8 [d] = [byte d] := by
    rw [utf8_cons, utf8EncodeChar_ascii hd]
    rfl
  rw [utf8_append, utf8_cons, utf8EncodeChar_ascii hc, hlast]
  simp

theorem toNat_byte (h : c.toNat < 0x80) : (byte c).toNat = c.toNat := by
  have : c.toNat < 256 := by omega
  simp [byte, Nat.mod_eq_of_lt this]

theorem map_byte (h : Ascii cs) : (cs.map byte).map (fun b => Char.ofNat b.toNat) = cs := by
  rw [List.map_map, List.map_congr_left (g := id), List.map_id]
  intro c hc
  rw [Function.comp_apply, toNat_byte (h c hc), Char.ofNat_toNat]
  rfl

/-- The bytes of a character beyond ASCII are beyond it as well. -/
theorem le_of_mem_utf8EncodeChar (h : 0x80 ≤ c.toNat) (hb : b ∈ String.utf8EncodeChar c) :
    0x80 ≤ b.toNat := by
  have hc : c.val.toNat = c.toNat := rfl
  unfold String.utf8EncodeChar at hb
  rw [hc, if_neg (by omega)] at hb
  split_ifs at hb <;>
    simp only [List.mem_cons, List.not_mem_nil, or_false] at hb <;>
    rcases hb with rfl | rfl | rfl | rfl <;>
    simp only [UInt8.toNat_ofNat'] <;> omega

/-! ## Blanks -/

theorem BlankText.forall {p : Char → Prop} (h : BlankText cs) (hspace : p ' ') (htab : p '\t')
    (hline : p '\n') (hreturn : p '\r') : ∀ c ∈ cs, p c := by
  intro c hc
  have hmem := h c hc
  simp only [List.mem_cons, List.not_mem_nil, or_false] at hmem
  rcases hmem with rfl | rfl | rfl | rfl <;> assumption

theorem BlankText.ascii (h : BlankText cs) : Ascii cs :=
  h.forall (by decide) (by decide) (by decide) (by decide)

theorem skipSpace_blank (h : BlankText cs) (rest : Bytes) :
    skipSpace (utf8 cs ++ rest) = skipSpace rest := by
  have hblank : ∀ c ∈ cs, isSpace (byte c) = true := h.forall rfl rfl rfl rfl
  rw [utf8_ascii h.ascii]
  refine List.dropWhile_append_of_pos ?_
  intro b hb
  obtain ⟨c, hc, rfl⟩ := List.mem_map.1 hb
  exact hblank c hc

theorem skipSpace_cons (h : isSpace b = false) (rest : Bytes) :
    skipSpace (b :: rest) = b :: rest := by
  rw [skipSpace, List.dropWhile_cons_of_neg (by simp [h])]

theorem readWord_append (v : Draft) (cs : List Char) (rest : Bytes) :
    readWord v cs (cs.map byte ++ rest) = (v, rest) := by
  induction cs with
  | nil => rfl
  | cons c cs ih => rw [List.map_cons, List.cons_append, readWord, if_pos rfl, ih]

/-! ## Digits -/

theorem isDigit_byte (h : c.isDigit = true) : isDigit (byte c) = true := by
  have hc := toNat_of_isDigit h
  have hb := toNat_byte (c := c) (by omega)
  simp only [isDigit, Bool.and_eq_true, decide_eq_true_eq, UInt8.le_iff_toNat_le, hb]
  exact hc

theorem DigitsText.ascii (h : DigitsText cs) : Ascii cs := fun c hc => by
  have := toNat_of_isDigit (h.2 c hc)
  omega

theorem DigitsText.head_isDigit (h : DigitsText cs) (rest : Bytes) :
    ∀ b ∈ (cs.map byte ++ rest).head?, isDigit b = true := by
  obtain ⟨c, cs, rfl⟩ := List.exists_cons_of_ne_nil h.1
  rintro b ⟨⟩
  exact isDigit_byte (h.2 c List.mem_cons_self)

theorem ne_of_isDigit (hb : isDigit b = true) (hw : isDigit w = false) : b ≠ w := by
  rintro rfl
  rw [hb] at hw
  cases hw

/-- What follows does not go on with a byte of some kind. -/
def Stops (p : UInt8 → Bool) (rest : Bytes) : Prop := ∀ b ∈ rest.head?, p b = false

theorem readDigits_append (h : DigitsText cs) (hrest : Stops isDigit rest) :
    readDigits (cs.map byte ++ rest) = .ok (cs.map byte, rest) := by
  have hall : ∀ b ∈ cs.map byte, isDigit b = true := by
    intro b hb
    obtain ⟨c, hc, rfl⟩ := List.mem_map.1 hb
    exact isDigit_byte (h.2 c hc)
  have hspan : (cs.map byte ++ rest).span isDigit = (cs.map byte, rest) := by
    rw [List.span_eq_takeWhile_dropWhile, List.takeWhile_append_of_pos hall,
      List.dropWhile_append_of_pos hall]
    cases rest with
    | nil => simp
    | cons b rest => simp [hrest b rfl]
  obtain ⟨c, cs, rfl⟩ := List.exists_cons_of_ne_nil h.1
  rw [readDigits, hspan]
  rfl

theorem readWhole_append (h : DigitsText cs) (hzero : cs.head? = some '0' → cs = ['0'])
    (hrest : Stops isDigit rest) : readWhole (cs.map byte ++ rest) = .ok (cs.map byte, rest) := by
  rw [readWhole, readDigits_append h hrest]
  split
  · rename_i hfound
    obtain ⟨hmap, -⟩ := Prod.mk.inj (Except.ok.inj hfound)
    obtain ⟨c, cs, rfl⟩ := List.exists_cons_of_ne_nil h.1
    obtain ⟨hc, hmore⟩ := List.cons.inj hmap
    have hnat := toNat_byte (h.ascii c List.mem_cons_self)
    rw [hc] at hnat
    have hchar : c = '0' := Char.toNat_inj.1 hnat.symm
    obtain ⟨-, rfl⟩ := List.cons.inj (hzero (by rw [hchar, List.head?_cons]))
    cases hmore
  · rfl

/-! ## Numbers -/

def goesOn (b : UInt8) : Bool :=
  isDigit b || b == Byte.point || b == byte 'e' || b == byte 'E'

/-- What cannot go on with a number. -/
def EndsNumber (rest : Bytes) : Prop := Stops goesOn rest

theorem EndsNumber.stops_isDigit (h : EndsNumber rest) : Stops isDigit rest := by
  intro b hb
  have := h b hb
  simp only [goesOn, Bool.or_eq_false_iff] at this
  exact this.1.1.1

theorem EndsNumber.stops_point (h : EndsNumber rest) : Stops (· == Byte.point) rest := by
  intro b hb
  have := h b hb
  simp only [goesOn, Bool.or_eq_false_iff] at this
  exact this.1.1.2

theorem sign_ascii : ∀ sign ∈ [[], ['+'], ['-']], Ascii sign := by
  simp [Ascii]

theorem FractionText.ascii (h : FractionText cs) : Ascii cs := by
  cases h with
  | absent => simp [Ascii]
  | present h => exact List.forall_mem_cons.2 ⟨by decide, h.ascii⟩

theorem ExponentText.ascii (h : ExponentText cs) : Ascii cs := by
  cases h with
  | absent => simp [Ascii]
  | @present e sign digits he hsign h =>
    have he : e.toNat < 0x80 := by
      rcases he with rfl | rfl <;> decide
    have hsign := sign_ascii sign hsign
    exact List.forall_mem_append.2 ⟨List.forall_mem_cons.2 ⟨he, hsign⟩, h.ascii⟩

theorem readFraction_append (h : FractionText cs) (hrest : Stops isDigit rest)
    (hpoint : Stops (· == Byte.point) rest) :
    readFraction (cs.map byte ++ rest) = .ok (cs.map byte, rest) := by
  cases h with
  | absent =>
    rw [List.map_nil, List.nil_append, readFraction.eq_def]
    split
    · cases hpoint _ rfl
    · rfl
  | @present digits h =>
    rw [List.map_cons, List.cons_append]
    change (readDigits (digits.map byte ++ rest)).map _ = _
    rw [readDigits_append h hrest]
    rfl

/-- A sign is taken off before the digits of an exponent are read. -/
theorem readExponent_cons {e : Char} {sign : List Char} (he : e = 'e' ∨ e = 'E')
    (hsign : sign ∈ [[], ['+'], ['-']]) (hbs : ∀ b ∈ bs.head?, isDigit b = true) :
    readExponent (byte e :: sign.map byte ++ bs) =
      (readDigits bs).map fun (digits, rest) => (byte e :: sign.map byte ++ digits, rest) := by
  have hletter : byte e = byte 'e' ∨ byte e = byte 'E' := he.imp (congrArg byte) (congrArg byte)
  rw [List.cons_append, readExponent.eq_def]
  simp only [if_pos hletter]
  simp only [List.mem_cons, List.not_mem_nil, or_false] at hsign
  rcases hsign with rfl | rfl | rfl
  · rw [List.map_nil, List.nil_append]
    split
    · cases hbs _ rfl
    · cases hbs _ rfl
    · rfl
  · rfl
  · rfl

theorem readExponent_append (h : ExponentText cs) (hrest : EndsNumber rest) :
    readExponent (cs.map byte ++ rest) = .ok (cs.map byte, rest) := by
  cases h with
  | absent =>
    cases rest with
    | nil => rfl
    | cons b rest =>
      have hb := hrest b rfl
      simp only [goesOn, Bool.or_eq_false_iff, beq_eq_false_iff_ne] at hb
      rw [List.map_nil, List.nil_append, readExponent.eq_def]
      exact if_neg (by tauto)
  | @present e sign digits he hsign h =>
    have hread := readExponent_cons he hsign (h.head_isDigit rest)
    rw [readDigits_append h hrest.stops_isDigit] at hread
    rwa [List.map_append, List.map_cons, List.append_assoc]

/-- Behind a whole part there is a fraction, an exponent or an end. -/
theorem stops_fraction (h : FractionText cs) {p : UInt8 → Bool} (hp : p Byte.point = false)
    (hrest : Stops p rest) : Stops p (cs.map byte ++ rest) := by
  cases h with
  | absent => exact hrest
  | present h =>
    rintro b ⟨⟩
    exact hp

theorem stops_exponent (h : ExponentText cs) {p : UInt8 → Bool} (he : p (byte 'e') = false)
    (hE : p (byte 'E') = false) (hrest : Stops p rest) : Stops p (cs.map byte ++ rest) := by
  cases h with
  | absent => exact hrest
  | present hletter _ _ =>
    rintro b ⟨⟩
    rcases hletter with rfl | rfl
    · exact he
    · exact hE

theorem NumberText.ascii (h : NumberText cs) : Ascii cs := by
  obtain ⟨hsign, hwhole, hzero, hfraction, hexponent⟩ := h
  rename_i sign whole fraction exponent
  have hsign : Ascii sign := sign_ascii sign (by
    simp only [List.mem_cons] at hsign ⊢
    tauto)
  intro c hc
  simp only [List.mem_append] at hc
  rcases hc with ((hc | hc) | hc) | hc
  · exact hsign c hc
  · exact hwhole.ascii c hc
  · exact hfraction.ascii c hc
  · exact hexponent.ascii c hc

/-- A minus is taken off before the whole part is read. -/
theorem readLiteral_eq {sign : List Char} (hsign : sign ∈ [[], ['-']])
    (hbs : ∀ b ∈ bs.head?, isDigit b = true) :
    readLiteral (sign.map byte ++ bs) = (do
      let (whole, bs) ← readWhole bs
      let (fraction, bs) ← readFraction bs
      let (exponent, bs) ← readExponent bs
      return ((sign.map byte ++ whole ++ fraction ++ exponent).map fun b => Char.ofNat b.toNat,
        bs)) := by
  simp only [List.mem_cons, List.not_mem_nil, or_false] at hsign
  rcases hsign with rfl | rfl
  · rw [List.map_nil, List.nil_append, readLiteral.eq_def]
    split
    rename_i hmatch
    split at hmatch
    · cases hbs _ rfl
    · obtain ⟨rfl, rfl⟩ := Prod.mk.inj hmatch
      rfl
  · rfl

theorem readLiteral_append (h : NumberText cs) (hrest : EndsNumber rest) :
    readLiteral (cs.map byte ++ rest) = .ok (cs, rest) := by
  have hchars := map_byte h.ascii
  obtain ⟨hsign, hwhole, hzero, hfraction, hexponent⟩ := h
  rename_i sign whole fraction exponent
  have hbehind : Stops isDigit (exponent.map byte ++ rest) :=
    stops_exponent hexponent rfl rfl hrest.stops_isDigit
  have hpoint : Stops (· == Byte.point) (exponent.map byte ++ rest) :=
    stops_exponent hexponent rfl rfl hrest.stops_point
  have hw := readWhole_append hwhole hzero (stops_fraction hfraction rfl hbehind)
  have hf := readFraction_append hfraction hbehind hpoint
  have he := readExponent_append hexponent hrest
  simp only [List.map_append, List.append_assoc] at hchars ⊢
  rw [readLiteral_eq hsign (hwhole.head_isDigit _), hw]
  simp only [bind, Except.bind, hf, he]
  simp only [List.map_append, List.append_assoc, hchars]
  rfl

/-- A number starts with a minus or a digit. -/
theorem NumberText.exists_cons (h : NumberText cs) :
    ∃ b bs, utf8 cs = b :: bs ∧ (b = byte '-' ∨ isDigit b = true) := by
  rw [utf8_ascii h.ascii]
  obtain ⟨hsign, hwhole, -, -, -⟩ := h
  simp only [List.mem_cons, List.not_mem_nil, or_false] at hsign
  rcases hsign with rfl | rfl
  · obtain ⟨c, whole, rfl⟩ := List.exists_cons_of_ne_nil hwhole.1
    exact ⟨_, _, rfl, .inr (isDigit_byte (hwhole.2 c List.mem_cons_self))⟩
  · exact ⟨_, _, rfl, .inl rfl⟩

theorem readNumber_append (h : NumberText cs) (hfinite : (value? cs).isSome = true)
    (hrest : EndsNumber rest) : readNumber (utf8 cs ++ rest) = (.number cs, rest) := by
  rw [utf8_ascii h.ascii, readNumber, readLiteral_append h hrest]
  exact if_pos hfinite

/-! ## Strings -/

/-- Bytes that stand for themselves in a string. -/
theorem readBody_plain (h : ∀ b ∈ bs, 32 ≤ b.toNat ∧ b ≠ Byte.quote ∧ b ≠ Byte.backslash)
    (done rest : Bytes) : readBody done (bs ++ rest) = readBody (bs.reverse ++ done) rest := by
  induction bs generalizing done with
  | nil => rfl
  | cons b bs ih =>
    obtain ⟨⟨hcontrol, hquote, hbackslash⟩, hbs⟩ := List.forall_mem_cons.1 h
    have hread : readBody done (b :: (bs ++ rest)) = readBody (b :: done) (bs ++ rest) := by
      rw [readBody.eq_def]
      split
      case h_7 =>
        rename_i heq
        obtain ⟨rfl, rfl⟩ := List.cons.inj heq
        refine if_neg ?_
        rw [UInt8.lt_iff_toNat_lt]
        exact Nat.not_lt.2 hcontrol
      all_goals
        rename_i heq
        first
          | exact absurd (List.cons.inj heq).1 hquote
          | exact absurd (List.cons.inj heq).1 hbackslash
          | cases heq
    rw [List.cons_append, hread, ih hbs, List.reverse_cons, List.append_assoc]
    rfl

/-- A character that stands for itself has no byte of a quote or a backslash. -/
theorem plain_of_mem_utf8EncodeChar (hcontrol : ' ' ≤ c) (hquote : c ≠ '"')
    (hbackslash : c ≠ '\\') :
    ∀ b ∈ String.utf8EncodeChar c, 32 ≤ b.toNat ∧ b ≠ Byte.quote ∧ b ≠ Byte.backslash := by
  intro b hb
  by_cases hc : c.toNat < 0x80
  · rw [utf8EncodeChar_ascii hc, List.mem_singleton] at hb
    have hnat : b.toNat = c.toNat := hb ▸ toNat_byte hc
    have hne {d : Char} (hd : c ≠ d) : b.toNat ≠ d.toNat := by
      rw [hnat]
      exact fun heq => hd (Char.toNat_inj.1 heq)
    refine ⟨hnat ▸ hcontrol, ?_, ?_⟩
    · rintro rfl
      exact hne hquote rfl
    · rintro rfl
      exact hne hbackslash rfl
  · have hle := le_of_mem_utf8EncodeChar (Nat.le_of_not_lt hc) hb
    refine ⟨by omega, ?_, ?_⟩
    · rintro rfl
      exact absurd hle (by decide)
    · rintro rfl
      exact absurd hle (by decide)

theorem hexDigit?_byte {n : ℕ} (h : hexValue? c = some n) :
    c.toNat < 0x80 ∧ hexDigit? (byte c) = some n := by
  have hsame : ∀ k < 0x80, hexDigit? (byte (Char.ofNat k)) = hexValue? (Char.ofNat k) := by
    decide +kernel
  have hc : c.toNat < 0x80 := by
    unfold hexValue? at h
    split_ifs at h with hdigit hlower hupper
    · have := toNat_of_isDigit hdigit
      omega
    · exact lt_of_le_of_lt (show c.toNat ≤ 'f'.toNat from hlower.2) (by decide)
    · exact lt_of_le_of_lt (show c.toNat ≤ 'F'.toNat from hupper.2) (by decide)
  have := hsame c.toNat hc
  rw [Char.ofNat_toNat, h] at this
  exact ⟨hc, this⟩

/-- Four bytes that are read as a number. -/
def UnitBytes (n : ℕ) (bs : Bytes) : Prop :=
  ∃ a b c d, bs = [a, b, c, d] ∧ hexUnit? a b c d = some n

theorem unitBytes_utf8 {n : ℕ} (h : unitValue? cs = some n) : UnitBytes n (utf8 cs) := by
  unfold unitValue? at h
  split at h
  · rename_i a b c d
    simp only [Option.bind_eq_bind, Option.bind_eq_some_iff] at h
    obtain ⟨i, hi, j, hj, k, hk, l, hl, heq⟩ := h
    obtain ⟨ha, hi⟩ := hexDigit?_byte hi
    obtain ⟨hb, hj⟩ := hexDigit?_byte hj
    obtain ⟨hc, hk⟩ := hexDigit?_byte hk
    obtain ⟨hd, hl⟩ := hexDigit?_byte hl
    refine ⟨byte a, byte b, byte c, byte d, utf8_ascii (by simp [Ascii, ha, hb, hc, hd]), ?_⟩
    simp only [hexUnit?, hi, hj, hk, hl]
    exact heq
  · cases h

/-- A character is no half of a pair. -/
theorem not_surrogate (c : Char) :
    isLowSurrogate c.toNat = false ∧ isHighSurrogate c.toNat = false := by
  have hvalid := c.valid
  have hc : c.val.toNat = c.toNat := rfl
  unfold UInt32.isValidChar Nat.isValidChar at hvalid
  rw [hc] at hvalid
  simp only [isLowSurrogate, isHighSurrogate, Bool.and_eq_false_iff, decide_eq_false_iff_not]
  omega

theorem readBody_unit {n : ℕ} {units : Bytes} (h : UnitBytes n units)
    (hlow : isLowSurrogate n = false) (hhigh : isHighSurrogate n = false) (done rest : Bytes) :
    readBody done (Byte.backslash :: Byte.letterU :: units ++ rest) =
      readBody (pushCodePoint n done) rest := by
  obtain ⟨a, b, c, d, rfl, h⟩ := h
  change readBody done (⟨92#8⟩ :: ⟨117#8⟩ :: a :: b :: c :: d :: rest) = _
  rw [readBody.eq_def]
  simp only [h, hlow, hhigh]
  rfl

theorem readBody_pair {m n : ℕ} {units others : Bytes} (hunits : UnitBytes m units)
    (hothers : UnitBytes n others) (hhigh : isHighSurrogate m = true)
    (hlow : isLowSurrogate n = true) (done rest : Bytes) :
    readBody done (Byte.backslash :: Byte.letterU :: units ++
        Byte.backslash :: Byte.letterU :: others ++ rest) =
      readBody (pushCodePoint (joinSurrogates m n) done) rest := by
  obtain ⟨a, b, c, d, rfl, hm⟩ := hunits
  obtain ⟨a', b', c', d', rfl, hn⟩ := hothers
  have hnot : isLowSurrogate m = false := by
    simp only [isHighSurrogate, Bool.and_eq_true, decide_eq_true_eq] at hhigh
    simp only [isLowSurrogate, Bool.and_eq_false_iff, decide_eq_false_iff_not]
    omega
  change readBody done (⟨92#8⟩ :: ⟨117#8⟩ :: a :: b :: c :: d ::
    ⟨92#8⟩ :: ⟨117#8⟩ :: a' :: b' :: c' :: d' :: rest) = _
  rw [readBody.eq_def]
  simp only [hm, hnot, hhigh, hn, hlow]
  rfl

theorem readBody_spells (h : Spells c cs) (done rest : Bytes) :
    readBody done (utf8 cs ++ rest) =
      readBody ((String.utf8EncodeChar c).reverse ++ done) rest := by
  cases h with
  | plain hcontrol hquote hbackslash =>
    have hbytes : utf8 [c] = String.utf8EncodeChar c := List.append_nil _
    rw [hbytes]
    exact readBody_plain (plain_of_mem_utf8EncodeChar hcontrol hquote hbackslash) done rest
  | letter h =>
    unfold meaning? at h
    split at h <;> cases h <;> rfl
  | @unit ds h =>
    have hcs : utf8 ('\\' :: 'u' :: ds) = Byte.backslash :: Byte.letterU :: utf8 ds := rfl
    obtain ⟨hlow, hhigh⟩ := not_surrogate c
    rw [hcs, readBody_unit (unitBytes_utf8 h) hlow hhigh, pushCodePoint, Char.ofNat_toNat]
  | @pair cs ds high low hcs hds hhigh hlow h =>
    have hbytes : utf8 ('\\' :: 'u' :: cs ++ '\\' :: 'u' :: ds) =
        Byte.backslash :: Byte.letterU :: utf8 cs ++
          Byte.backslash :: Byte.letterU :: utf8 ds := by
      rw [utf8_append]
      rfl
    have hhigh : isHighSurrogate high = true := by simpa [isHighSurrogate] using hhigh
    have hlow : isLowSurrogate low = true := by simpa [isLowSurrogate] using hlow
    have hchar : joinSurrogates high low = c.toNat := by
      rw [h, joinSurrogates]
      omega
    rw [hbytes, readBody_pair (unitBytes_utf8 hcs) (unitBytes_utf8 hds) hhigh hlow, hchar,
      pushCodePoint, Char.ofNat_toNat]

theorem readBody_pieces {chars : List Char} {pieces : List (List Char)}
    (h : List.Forall₂ Spells chars pieces) (done rest : Bytes) :
    readBody done (utf8 pieces.flatten ++ Byte.quote :: rest) =
      .ok (done.reverse ++ utf8 chars, rest) := by
  induction h generalizing done with
  | nil =>
    rw [List.flatten_nil, utf8, List.flatMap_nil, List.append_nil]
    rfl
  | cons hpiece _ ih =>
    rw [List.flatten_cons, utf8_append, List.append_assoc, readBody_spells hpiece, ih, utf8_cons]
    simp

theorem readString_append {s : String} (h : StringText s cs) (rest : Bytes) :
    ∃ bs, utf8 cs = Byte.quote :: bs ∧ readString (bs ++ rest) = .ok (s, rest) := by
  obtain ⟨hpieces⟩ := h
  rename_i pieces
  refine ⟨utf8 pieces.flatten ++ [Byte.quote], ?_, ?_⟩
  · simp [utf8_cons]
    rfl
  · rw [List.append_assoc, List.singleton_append, readString, readBody_pieces hpieces]
    simp only [bind, Except.bind, List.reverse_nil, List.nil_append, fromUTF8?_utf8]
    rfl

end Transect.Json
