import Transect.Proofs.Arguments.Words
import Transect.Proofs.Decimal.ReadBack
import Transect.Proofs.Point

/-!
# Locations on a command line

A location is written as two plain decimals. Attached to its flag any location is read. As a word of
its own it is not read if it starts with a minus sign, for then it is taken for letters.
-/

namespace Transect

variable {cs : List Char} {x y : Float}

/-! ## Plain decimals -/

/-- A text in plain decimals, and the float that it means. -/
structure PlainDecimal (cs : List Char) (x : Float) : Prop where
  form : ∃ negative whole fraction, cs = signed negative (whole ++ fraction) ∧ Digits whole ∧
    (fraction = [] ∨ ∃ digits, fraction = '.' :: digits ∧ Digits digits)
  value : readFloat cs = .ok x

theorem plainDecimal_of_finite (h : x.isFinite = true) : PlainDecimal (plainFloat x).toList x := by
  obtain ⟨a, ha⟩ := isFinite_iff.1 h
  refine ⟨?_, readFloat_plainFloat (isNaN_of_rat? ha)⟩
  rw [plainFloat, String.toList_ofList]
  rcases rat?_cases ha with ⟨s, hu, -⟩ | ⟨s, m, e, hm, hu, -⟩
  · rw [hu]
    exact ⟨s == .negative, ['0'], [], rfl, digits_digitsOf 0, .inl rfl⟩
  · rw [hu]
    refine ⟨s == .negative, digitsOf _, _, rfl, digits_digitsOf _, ?_⟩
    split_ifs with hplaces
    · exact .inl rfl
    · refine .inr ⟨_, rfl, ?_⟩
      rw [Decimal.fractionDigits, if_neg hplaces]
      refine ⟨?_, fun _ => isDigit_of_mem_padZeros⟩
      simp [padZeros, (digits_digitsOf _).1]

theorem exists_readDecimal? {whole fraction : List Char} (hwhole : Digits whole)
    (hfraction : fraction = [] ∨ ∃ digits, fraction = '.' :: digits ∧ Digits digits) :
    ∃ d, readDecimal? (whole ++ fraction) = some d := by
  rcases hfraction with rfl | ⟨digits, rfl, hdigits⟩
  · rw [List.append_nil]
    exact ⟨_, (MantissaText.whole hwhole).readDecimal?_eq⟩
  · have hall : Digits (whole ++ digits) :=
      ⟨by simp [hwhole.1], List.forall_mem_append.2 ⟨hwhole.2, hdigits.2⟩⟩
    exact ⟨_, (MantissaText.point hall).readDecimal?_eq⟩

namespace PlainDecimal

theorem numeric (h : PlainDecimal cs x) : Numeric cs := by
  obtain ⟨negative, whole, fraction, rfl, hwhole, hfraction⟩ := h.form
  apply numeric_signed
  refine numeric_append.2 ⟨numeric_of_isDigit hwhole.2, ?_⟩
  rcases hfraction with rfl | ⟨digits, rfl, hdigits⟩
  · exact numeric_nil
  · exact numeric_cons.2 ⟨rfl, numeric_of_isDigit hdigits.2⟩

/-- A minus sign makes a float negative, even if it is zero. The text starts with the sign or with a
digit. -/
theorem cases_sign (h : PlainDecimal cs x) :
    ∃ c rest, c.isDigit = true ∧
      (isNegative x = true ∧ cs = '-' :: c :: rest ∨ isNegative x = false ∧ cs = c :: rest) := by
  obtain ⟨negative, whole, fraction, rfl, hwhole, hfraction⟩ := h.form
  obtain ⟨d, hd⟩ := exists_readDecimal? hwhole hfraction
  have hvalue := h.value
  rw [readFloat_signed_decimal negative hd] at hvalue
  cases hvalue
  obtain ⟨c, rest, rfl⟩ := List.exists_cons_of_ne_nil hwhole.1
  refine ⟨c, rest ++ fraction, hwhole.2 c List.mem_cons_self, ?_⟩
  cases negative with
  | true =>
    refine .inl ⟨?_, rfl⟩
    rw [if_pos rfl, isNegative_neg (isNaN_toFloat d), isNegative_toFloat]
    rfl
  | false => exact .inr ⟨isNegative_toFloat d, rfl⟩

end PlainDecimal

/-! ## Locations -/

theorem token_of_isDigit {c : Char} (h : c.isDigit = true) (cs : List Char) :
    Token.ofChars (c :: cs) = .plain := by
  have hdash : c ≠ '-' := by
    rintro rfl
    cases h
  unfold Token.ofChars
  split <;> simp_all

theorem token_of_minus {c : Char} (h : c.isDigit = true) (cs : List Char) :
    Token.ofChars ('-' :: c :: cs) = .letters (c :: cs) := by
  have hdash : c ≠ '-' := by
    rintro rfl
    cases h
  unfold Token.ofChars
  split <;> simp_all

theorem short?_of_isDigit (scope : Scope) {c : Char} (h : c.isDigit = true) :
    scope.short? c = none := by
  rw [Scope.short?, List.find?_eq_none]
  intro flag _ hflag
  have hflag : flag.short? = some c := eq_of_beq hflag
  cases flag <;> cases hflag <;> exact absurd h (by decide)

variable {file : String} {location : String} {rest : List String}

/-- What the program reads up to the name of the command. -/
theorem scan_config (hfile : Token.ofChars file.toList = .plain) :
    Scope.program.scan .start ("--config" :: file :: "raster" :: rest) =
      .ok (⟨.nothing, some (.config, some file)⟩, some (.raster, rest)) := by
  have hflag : Flag.config ∈ Scope.program.flags := by decide
  have hcommand : Scope.program.command? "raster" = some .raster := rfl
  have hword : "--config" = Flag.config.word := rfl
  rw [hword, Scope.scan_word hflag rfl rfl, Scope.scan_value hfile rfl,
    Scope.scan_command rfl rfl hcommand]
  rfl

theorem readFlags_location {p : Point} (hlocation : Point.read location = .ok p)
    (hword : Token.ofChars location.toList = .plain) :
    Scope.raster.readFlags ["--at", location] =
      .ok { Given.nothing with location := some p } := by
  have hflag : Flag.location ∈ Scope.raster.flags := by decide
  have hat : "--at" = Flag.location.word := rfl
  unfold Scope.readFlags
  rw [hat, Scope.scan_word hflag rfl rfl, Scope.scan_value hword rfl]
  exact Given.accept_location hlocation

theorem readFlags_letters {c : Char} {cs : List Char} (hc : c.isDigit = true)
    (hword : Token.ofChars location.toList = .letters (c :: cs)) :
    Scope.raster.readFlags ["--at", location] = .error .unknownArgument := by
  have hflag : Flag.location ∈ Scope.raster.flags := by decide
  have hat : "--at" = Flag.location.word := rfl
  unfold Scope.readFlags
  rw [hat, Scope.scan_word hflag rfl rfl, Scope.scan_letters hword (short?_of_isDigit _ hc)]
  rfl

/-- **A location that is a word of its own is read unless it is west of zero.** Any two finite
floats can be written in plain decimals. However they are written, their location is read if it is
attached to its flag, and if it stands apart and the first float has no minus sign. -/
theorem Arguments.read_location (hfile : Token.ofChars file.toList = .plain) (hne : file ≠ "")
    (hx : x.isFinite = true) (hy : y.isFinite = true) :
    (∃ xs ys, PlainDecimal xs x ∧ PlainDecimal ys y) ∧
      ∀ xs ys, PlainDecimal xs x → PlainDecimal ys y →
        Arguments.read ["--config", file, "raster", "--at", .ofList (xs ++ ',' :: ys)] =
            (if isNegative x then .error .unknownArgument
              else .ok ⟨file, .raster ⟨x, y⟩ none⟩) ∧
          Arguments.read ["--config", file, "raster", "--at=" ++ .ofList (xs ++ ',' :: ys)] =
            .ok ⟨file, .raster ⟨x, y⟩ none⟩ := by
  refine ⟨⟨_, _, plainDecimal_of_finite hx, plainDecimal_of_finite hy⟩, fun xs ys hxs hys => ?_⟩
  have hlocation := Point.read_of_numeric hxs.numeric hys.numeric hxs.value hys.value
  have hsettle : Scan.settle ⟨.nothing, some (.config, some file)⟩ =
      .ok { Given.nothing with config := some file } := Given.accept_config hne
  constructor
  · obtain ⟨c, rest, hc, ⟨hnegative, rfl⟩ | ⟨hpositive, rfl⟩⟩ := hxs.cases_sign
    · have hword : Token.ofChars (String.ofList ('-' :: c :: rest ++ ',' :: ys)).toList =
          .letters (c :: (rest ++ ',' :: ys)) := by
        rw [String.toList_ofList]
        exact token_of_minus hc _
      have hcommand : Command.read ["--at", .ofList ('-' :: c :: rest ++ ',' :: ys)] .raster =
          .error .unknownArgument :=
        bind_eq_error.2 (.inl (readFlags_letters hc hword))
      rw [if_pos hnegative]
      exact bind_eq_error.2 (.inr ⟨_, scan_config hfile, bind_eq_error.2 (.inl hcommand)⟩)
    · have hword : Token.ofChars (String.ofList (c :: rest ++ ',' :: ys)).toList = .plain := by
        rw [String.toList_ofList]
        exact token_of_isDigit hc _
      rw [if_neg (by simp [hpositive])]
      exact Arguments.read_of_scan (scan_config hfile)
        (Command.read_raster (readFlags_location hlocation hword) rfl) hsettle rfl
  · have hattach : ("--at=" ++ .ofList (xs ++ ',' :: ys) : String) =
        Flag.location.attach (.ofList (xs ++ ',' :: ys)) := rfl
    have hlayers : ∀ names, none = some names → SoundLayers names := by simp
    rw [hattach]
    exact Arguments.read_of_scan (scan_config hfile)
      (Command.read_raster (readFlags_raster hlocation hlayers) rfl) hsettle rfl

theorem plainDecimal_west : PlainDecimal "-71.3032".toList (-71.3032) where
  form := ⟨true, "71".toList, ".3032".toList, rfl, by simp [Digits],
    .inr ⟨"3032".toList, rfl, by simp [Digits]⟩⟩
  value := by rfl

theorem plainDecimal_north : PlainDecimal "44.2705".toList 44.2705 where
  form := ⟨false, "44".toList, ".2705".toList, rfl, by simp [Digits],
    .inr ⟨"2705".toList, rfl, by simp [Digits]⟩⟩
  value := by rfl

theorem west_read_location :
    Token.ofChars "rasters.json".toList = .plain ∧ "rasters.json" ≠ "" ∧
      (-71.3032 : Float).isFinite = true ∧ (44.2705 : Float).isFinite = true ∧
      isNegative (-71.3032) = true ∧
      Arguments.read ["--config", "rasters.json", "raster", "--at", "-71.3032,44.2705"] =
        .error .unknownArgument ∧
      Arguments.read ["--config", "rasters.json", "raster", "--at", "44.2705,-71.3032"] =
        .ok ⟨"rasters.json", .raster ⟨44.2705, -71.3032⟩ none⟩ ∧
      Arguments.read ["--config", "rasters.json", "raster", "--at=-71.3032,44.2705"] =
        .ok ⟨"rasters.json", .raster ⟨-71.3032, 44.2705⟩ none⟩ := by
  have hfile : Token.ofChars "rasters.json".toList = .plain := rfl
  have hne : "rasters.json" ≠ "" := by decide
  have hx : (-71.3032 : Float).isFinite = true := by rfl
  have hy : (44.2705 : Float).isFinite = true := by rfl
  have hnegative : isNegative (-71.3032) = true := by rfl
  have hpositive : isNegative 44.2705 = false := by rfl
  obtain ⟨hwest, hattached⟩ :=
    (Arguments.read_location hfile hne hx hy).2 _ _ plainDecimal_west plainDecimal_north
  obtain ⟨heast, -⟩ :=
    (Arguments.read_location hfile hne hy hx).2 _ _ plainDecimal_north plainDecimal_west
  rw [if_pos hnegative] at hwest
  rw [if_neg (by simp [hpositive])] at heast
  exact ⟨hfile, hne, hx, hy, hnegative, hwest, heast, hattached⟩

end Transect
