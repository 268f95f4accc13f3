import Transect.Proofs.Arguments.Reader

/-!
# How words are taken

A value can be a word of its own, or it is attached to the name of its flag. An attached value can
be any text. A word of its own is no value if it starts with a dash.
-/

namespace Transect

/-! ## Tokens -/

/-- A flag by its long name. -/
def Flag.word (flag : Flag) : String := "--" ++ flag.long

/-- A flag with its value in the same word. -/
def Flag.attach (flag : Flag) (value : String) : String := flag.word ++ "=" ++ value

variable {flag : Flag} {scope : Scope} {s : Scan} {g g' : Given} {word value : String}
  {rest : List String}

theorem splitAtEquals_append {name : List Char} (h : '=' ∉ name) (cs : List Char) :
    splitAtEquals (name ++ '=' :: cs) = (name, some cs) := by
  have hname : ∀ c ∈ name, (c != '=') = true := fun c hc => by
    rw [bne_iff_ne]
    rintro rfl
    exact h hc
  unfold splitAtEquals
  rw [List.dropWhile_append_of_pos hname, List.takeWhile_append_of_pos hname]
  simp

theorem token_word (flag : Flag) : Token.ofChars flag.word.toList = .long flag.long none := by
  cases flag <;> rfl

theorem token_dashes {cs : List Char} (hne : cs ≠ []) :
    Token.ofChars ('-' :: '-' :: cs) =
      .long (.ofList (splitAtEquals cs).1) ((splitAtEquals cs).2.map .ofList) := by
  obtain ⟨c, cs, rfl⟩ := List.exists_cons_of_ne_nil hne
  rfl

theorem token_attach (flag : Flag) (value : String) :
    Token.ofChars (flag.attach value).toList = .long flag.long (some value) := by
  have hlong : '=' ∉ flag.long.toList := by cases flag <;> decide
  have hchars : (flag.attach value).toList =
      '-' :: '-' :: (flag.long.toList ++ '=' :: value.toList) := by
    simp [Flag.attach, Flag.word]
  rw [hchars, token_dashes (by simp), splitAtEquals_append hlong]
  simp

theorem long?_long (h : flag ∈ scope.flags) : scope.long? flag.long = some flag := by
  revert h
  cases scope <;> cases flag <;> decide

/-! ## Words -/

namespace Scope

theorem scan_attach (hflag : flag ∈ scope.flags) (htakes : flag.takesValue = true)
    (hsettle : s.settle = .ok g) (haccept : g.accept flag (some value) = .ok g') :
    scope.scan s (flag.attach value :: rest) = scope.scan ⟨g', none⟩ rest := by
  have htake : s.takeLong scope flag.long (some value) = .ok ⟨g', none⟩ := by
    unfold Scan.takeLong Scan.takeFlag
    rw [long?_long hflag]
    simp only [htakes, not_true_eq_false, and_false, if_false, if_true, hsettle]
    exact bind_eq_ok.2 ⟨g, rfl, bind_eq_ok.2 ⟨g', haccept, rfl⟩⟩
  rw [scan.eq_def]
  simp only [token_attach, htake]
  rfl

theorem scan_word (hflag : flag ∈ scope.flags) (htakes : flag.takesValue = true)
    (hsettle : s.settle = .ok g) :
    scope.scan s (flag.word :: rest) = scope.scan ⟨g, some (flag, none)⟩ rest := by
  have htake : s.takeLong scope flag.long none = .ok ⟨g, some (flag, none)⟩ := by
    unfold Scan.takeLong Scan.takeFlag
    rw [long?_long hflag]
    simp only [htakes, Option.isSome_none, Bool.false_eq_true, false_and, if_false, if_true,
      hsettle]
    rfl
  rw [scan.eq_def]
  simp only [token_word, htake]
  rfl

theorem scan_value (hword : Token.ofChars word.toList = .plain)
    (hwaiting : s.waiting? = some flag) :
    scope.scan s (word :: rest) = scope.scan ⟨s.given, some (flag, some word)⟩ rest := by
  rw [scan.eq_def]
  simp only [hword, hwaiting]

theorem scan_command {name : CommandName} (hword : Token.ofChars word.toList = .plain)
    (hwaiting : s.waiting? = none) (hname : scope.command? word = some name) :
    scope.scan s (word :: rest) = .ok (s, some (name, rest)) := by
  rw [scan.eq_def]
  simp only [hword, hwaiting, hname]

/-- A dash in front makes a word a group of letters, even where a value is expected. -/
theorem scan_letters {c : Char} {cs : List Char}
    (hword : Token.ofChars word.toList = .letters (c :: cs)) (hletter : scope.short? c = none) :
    scope.scan s (word :: rest) = .error .unknownArgument := by
  rw [scan.eq_def]
  simp only [hword, Scan.takeLetters, hletter]
  rfl

end Scope

/-! ## Commands -/

theorem Command.read_raster {p : Point} (hread : Scope.raster.readFlags rest = .ok g)
    (hlocation : g.location = some p) : Command.read rest .raster = .ok (.raster p g.layers) := by
  refine bind_eq_ok.2 ⟨g, hread, ?_⟩
  rw [hlocation]
  rfl

theorem Arguments.read_of_scan {words : List String} {name : CommandName} {command : Command}
    {config : String} (hscan : Scope.program.scan .start words = .ok (s, some (name, rest)))
    (hcommand : Command.read rest name = .ok command) (hsettle : s.settle = .ok g)
    (hconfig : g.config = some config) : Arguments.read words = .ok ⟨config, command⟩ := by
  refine bind_eq_ok.2 ⟨_, hscan, ?_⟩
  refine bind_eq_ok.2 ⟨command, hcommand, ?_⟩
  refine bind_eq_ok.2 ⟨g, hsettle, ?_⟩
  rw [hconfig]
  rfl

/-! ## A raster at one place -/

/-- The value of a flag for layers. -/
def joinNames (layers : List String) : String :=
  .ofList (joinWith ',' (layers.map String.toList))

theorem readNames_joinNames {layers : List String} (h : SoundLayers layers) :
    Given.readNames (joinNames layers) = layers := by
  have hsplit : splitAt ',' (joinWith ',' (layers.map String.toList)) =
      layers.map String.toList := by
    apply splitAt_joinWith
    · simpa using h.1
    · simpa using h.2
  rw [Given.readNames, joinNames, String.toList_ofList, hsplit, List.map_map]
  exact List.map_id'' (fun _ => String.ofList_toList) layers

/-- The words that ask for the rasters at one place. -/
def rasterWords (config location : String) (layers : Option (List String)) : List String :=
  Flag.config.attach config :: "raster" :: Flag.location.attach location ::
    (layers.map fun layers => Flag.layers.attach (joinNames layers)).toList

variable {p : Point} {location config : String} {layers : Option (List String)}

theorem Given.accept_config (h : config ≠ "") :
    Given.nothing.accept .config (some config) =
      .ok { Given.nothing with config := some config } := by
  simp [accept, has, nothing, read, h, Except.mapError]

theorem Given.accept_location (h : Point.read location = .ok p) :
    Given.nothing.accept .location (some location) =
      .ok { Given.nothing with location := some p } := by
  simp [accept, has, nothing, read, h, Except.mapError, Except.map]

theorem readFlags_raster (hlocation : Point.read location = .ok p)
    (hlayers : ∀ names, layers = some names → SoundLayers names) :
    Scope.raster.readFlags (Flag.location.attach location ::
        (layers.map fun names => Flag.layers.attach (joinNames names)).toList) =
      .ok { Given.nothing with location := some p, layers := layers } := by
  have hflag : Flag.location ∈ Scope.raster.flags := by decide
  have hflag' : Flag.layers ∈ Scope.raster.flags := by decide
  unfold Scope.readFlags
  rw [Scope.scan_attach hflag rfl rfl (Given.accept_location hlocation)]
  cases layers with
  | none => rfl
  | some names =>
    have hnames := readNames_joinNames (hlayers names rfl)
    have haccept : ({ Given.nothing with location := some p } : Given).accept .layers
        (some (joinNames names)) =
          .ok { Given.nothing with location := some p, layers := some names } := by
      simp [Given.accept, Given.has, Given.nothing, Given.read, hnames, Except.mapError]
    rw [Option.map_some, Option.toList_some, Scope.scan_attach hflag' rfl rfl haccept]
    rfl

/-- **The words for a place are read as asking for it.** -/
theorem read_rasterWords (hconfig : config ≠ "") (hlocation : Point.read location = .ok p)
    (hlayers : ∀ names, layers = some names → SoundLayers names) :
    Arguments.read (rasterWords config location layers) = .ok ⟨config, .raster p layers⟩ := by
  have hflag : Flag.config ∈ Scope.program.flags := by decide
  have hcommand : Scope.program.command? "raster" = some .raster := rfl
  apply Arguments.read_of_scan
  · unfold rasterWords
    rw [Scope.scan_attach hflag rfl rfl (Given.accept_config hconfig),
      Scope.scan_command rfl rfl hcommand]
  · exact Command.read_raster (readFlags_raster hlocation hlayers) rfl
  · rfl
  · rfl

end Transect
