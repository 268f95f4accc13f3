import Transect.Proofs.Json.Line
import Transect.Proofs.Program.Printing
import Transect.Proofs.Program.Profile

/-!
# All or nothing

A run goes through stages: it reads the configuration, opens the rasters, looks the layers up,
evaluates the rasters and writes. It fails at the first stage that something is wrong with, and then
it has written nothing. If nothing is wrong it writes all of its output.
-/

namespace Transect

variable {tree : FileTree} {words : List String} {arguments : Arguments} {selection : Selection}
  {cause : Error} {text : String} {arrange : List (Point × Nat) → List (Point × Nat)}
  {display : Chart → Printing Unit} {picture : Chart → String}

/-! ## Stages -/

def Command.layers : Command → Option (List String)
  | .profile _ a => a.layers
  | .raster _ layers => layers

/-- The rasters that a run evaluates. -/
def Arguments.select (tree : FileTree) (arguments : Arguments) : Except Error Selection := do
  let config ← Config.load tree arguments.config
  let registry ← config.openAll tree
  registry.select arguments.command.layers

/-- What goes wrong first in a run. -/
inductive Fault (tree : FileTree) (arguments : Arguments) : Error → Prop
  | config {cause : Error} (hload : Config.load tree arguments.config = .error cause) :
      Fault tree arguments cause
  /-- A raster does not open, but all those whose names are smaller do. -/
  | opening {config : Config} {entry : String × RasterConfig} {cause : Error}
      (hload : Config.load tree arguments.config = .ok config) (hentry : entry ∈ config.entries)
      (hopen : entry.2.openRaster tree = .error cause)
      (hfirst : ∀ other ∈ config.entries, utf8Bytes other.1 < utf8Bytes entry.1 →
        ∃ raster, other.2.openRaster tree = .ok raster) :
      Fault tree arguments cause
  /-- All rasters open. A layer is not one of them, but those that are requested before it are. -/
  | layer {config : Config} {front back : List String} {name : String}
      (hload : Config.load tree arguments.config = .ok config)
      (hopen : ∀ entry ∈ config.entries, ∃ raster, entry.2.openRaster tree = .ok raster)
      (hlayers : arguments.command.layers = some (front ++ name :: back))
      (hfront : ∀ other ∈ front, other ∈ config.names) (hname : name ∉ config.names) :
      Fault tree arguments (.rasterNotFound name)
  /-- A raster cannot be evaluated at one of the points. -/
  | evaluation {selection : Selection} {p : Point} {entry : String × Raster} {cause : Error}
      (hselect : arguments.select tree = .ok selection)
      (hp : p ∈ arguments.command.points) (hentry : entry ∈ selection.rasters)
      (hvalue : (entry.2.value tree p).1 = .error cause) :
      Fault tree arguments cause
  /-- All rasters are evaluated, but there is no layer to plot. -/
  | plot {selection : Selection} {a : ProfileArguments}
      (hselect : arguments.select tree = .ok selection)
      (hvalues : ∀ p ∈ arguments.command.points, ∀ entry ∈ selection.rasters,
        ∃ v, (entry.2.value tree p).1 = .ok v)
      (hcommand : arguments.command = .profile .plot a) (hlayers : selection.layers = []) :
      Fault tree arguments .nothingToPlot

/-! ## Outputs -/

/-- A text that is one line. -/
structure OneLine (text : String) (line : List Char) : Prop where
  text : text.toList = line ++ ['\n']
  visible : Visible line

/-- A text that shows all of a profile. What a plot shows is the picture of its chart. -/
def Format.Shows (picture : Chart → String) (p : Profile) (text : String) : Format → Prop
  | .json => ∃ line, OneLine text line ∧ Json.parse? line = some p.reportTree
  | .csv => text.toList =
      tableLine p.header ++ p.samples.flatMap fun s => tableLine (s.cells p.layers)
  | .plot => ∃ layer rest, p.layers = layer :: rest ∧ text = picture (p.chart layer)

/-- A text that is the whole output of a command for the given rasters. -/
inductive Complete (tree : FileTree) (picture : Chart → String) (selection : Selection) :
    Command → String → Prop
  | profile {format : Format} {a : ProfileArguments} {p : Profile} {text : String}
      (hprofile : selection.Profiled tree (Polyline.resample a.count a.line) p)
      (hshows : format.Shows picture p text) :
      Complete tree picture selection (.profile format a) text
  | raster {location : Point} {layers : Option (List String)} {values : Values} {line : List Char}
      {text : String} (hvalues : (selection.survey.values tree location).1 = .ok values)
      (hline : OneLine text line) (hparse : Json.parse? line = some values.tree) :
      Complete tree picture selection (.raster location layers) text

theorem Profile.shows_csv (picture : Chart → String) (p : Profile) :
    Format.Shows picture p p.csv .csv := by
  unfold Format.Shows Profile.csv
  rw [String.toList_ofList, List.flatMap_cons, List.flatMap_map]

theorem Profile.shows_json (picture : Chart → String) (p : Profile) :
    Format.Shows picture p (p.report ++ "\n") .json := by
  refine ⟨p.report.toList, ⟨?_, p.visible_report⟩, p.parse?_report⟩
  rw [String.toList_append]
  rfl

/-- Writing a profile fails only if there is nothing to plot. -/
theorem Format.write_cases (hdraws : Draws display picture) (format : Format) (p : Profile) :
    (∃ text, Prints (format.write display p) text ∧ format.Shows picture p text) ∨
      format = .plot ∧ p.layers = [] ∧ Refuses (format.write display p) .nothingToPlot := by
  cases format with
  | json => exact .inl ⟨_, prints_print _, p.shows_json picture⟩
  | csv => exact .inl ⟨_, p.prints_printTable, p.shows_csv picture⟩
  | plot =>
    cases hlayers : p.layers with
    | nil =>
      refine .inr ⟨rfl, rfl, ?_⟩
      rw [write, hlayers]
      exact refuses_throw .nothingToPlot
    | cons layer rest =>
      refine .inl ⟨picture (p.chart layer), ?_, layer, rest, hlayers, rfl⟩
      rw [write, hlayers]
      exact hdraws (p.chart layer)

theorem Values.oneLine_json (values : Values) :
    OneLine (.ofList (values.json ++ ['\n'])) values.json :=
  ⟨String.toList_ofList, values.visible_json⟩

/-! ## Commands -/

variable {registry : Registry} {command : Command}

namespace Command

theorem refuses_of_select_error (hsound : command.Sound)
    (hselect : registry.select command.layers = .error cause) :
    Refuses (command.run arrange display tree registry) cause := by
  cases command with
  | profile format a =>
    exact refuses_of_error (ProfileArguments.profile_of_select_error hsound.1.1 hselect)
  | raster location layers => exact refuses_of_error hselect

theorem prints_raster {location : Point} {layers : Option (List String)} {values : Values}
    (hselect : registry.select layers = .ok selection)
    (hvalues : (selection.survey.values tree location).1 = .ok values) :
    Prints ((Command.raster location layers).run arrange display tree registry)
      (.ofList (values.json ++ ['\n'])) :=
  Prints.compute hselect (Prints.compute hvalues (prints_print _))

/-- With its rasters at hand, a command prints all of its output unless one of them fails at one of
its points, or there is nothing to plot. -/
theorem run_cases (hfair : ∀ numbered, (arrange numbered).Perm numbered)
    (hdraws : Draws display picture) (hsound : command.Sound)
    (hselect : registry.select command.layers = .ok selection) :
    (∃ text, Prints (command.run arrange display tree registry) text ∧
        Complete tree picture selection command text) ∨
      (∃ p ∈ command.points, ∃ cause, (selection.survey.values tree p).1 = .error cause ∧
        Refuses (command.run arrange display tree registry) cause) ∨
      ∃ a p, command = .profile .plot a ∧
        selection.Profiled tree (Polyline.resample a.count a.line) p ∧ selection.layers = [] ∧
          Refuses (command.run arrange display tree registry) .nothingToPlot := by
  cases command with
  | profile format a =>
    rcases ProfileArguments.profile_cases hfair hsound.1.1 hselect with
      ⟨p, hp, hprofile⟩ | ⟨q, hq, cause, hcause, hp⟩
    · rcases format.write_cases hdraws p with ⟨text, hwrite, hshows⟩ | ⟨rfl, hlayers, hwrite⟩
      · exact .inl ⟨text, Prints.compute hp hwrite, .profile hprofile hshows⟩
      · refine .inr (.inr ⟨a, p, rfl, hprofile, hprofile.layers ▸ hlayers, ?_⟩)
        exact Refuses.compute hp hwrite
    · exact .inr (.inl ⟨q, hq, cause, hcause, refuses_of_error hp⟩)
  | raster location layers =>
    cases hvalues : (selection.survey.values tree location).1 with
    | ok values =>
      exact .inl ⟨_, prints_raster hselect hvalues,
        .raster hvalues values.oneLine_json values.means_json.parse?_eq⟩
    | error cause =>
      refine .inr (.inl ⟨location, List.mem_singleton_self _, cause, hvalues, ?_⟩)
      exact Refuses.compute hselect (refuses_of_error hvalues)

end Command

theorem Selection.Profiled.exists_values {path : List Point} {p : Profile}
    (h : selection.Profiled tree path p) {q : Point} (hq : q ∈ path) :
    ∃ values, (selection.survey.values tree q).1 = .ok values := by
  rw [← h.points] at hq
  obtain ⟨s, hs, rfl⟩ := List.mem_map.1 hq
  exact ⟨s.values, h.values s hs⟩

namespace Complete

theorem exists_values (h : Complete tree picture selection command text) :
    ∀ p ∈ command.points,
      ∃ values, (selection.survey.values tree p).1 = .ok values := by
  cases h with
  | profile hprofile hshows => exact fun p hp => hprofile.exists_values hp
  | raster hvalues hline hparse =>
    intro p hp
    rw [Command.points, List.mem_singleton] at hp
    exact ⟨_, hp ▸ hvalues⟩

theorem layers_ne_nil {a : ProfileArguments}
    (h : Complete tree picture selection (.profile .plot a) text) : selection.layers ≠ [] := by
  cases h with
  | profile hprofile hshows =>
    obtain ⟨layer, rest, hlayers, -⟩ := hshows
    rw [← hprofile.layers, hlayers]
    exact List.cons_ne_nil layer rest

end Complete

/-! ## Runs -/

namespace Arguments

theorem fault_of_select_error (h : arguments.select tree = .error cause) :
    Fault tree arguments cause := by
  rcases bind_eq_error.1 h with hload | ⟨config, hload, h⟩
  · exact .config hload
  · rcases bind_eq_error.1 h with hopen | ⟨registry, hopen, hselect⟩
    · obtain ⟨entry, hentry, hcause, hfirst⟩ := Config.openAll_eq_error hopen
      exact .opening hload hentry hcause hfirst
    · obtain ⟨front, name, back, hlayers, hfront, hname, rfl⟩ := Registry.select_eq_error hselect
      obtain ⟨hnames, hall⟩ := Config.openAll_eq_ok hopen
      rw [hnames] at hfront hname
      exact .layer hload hall hlayers hfront hname

theorem refuses_of_select_error (hsound : arguments.command.Sound)
    (h : arguments.select tree = .error cause) :
    Refuses (arguments.run arrange display tree) cause := by
  rcases bind_eq_error.1 h with hload | ⟨config, hload, h⟩
  · exact refuses_of_error hload
  · refine Refuses.compute hload ?_
    rcases bind_eq_error.1 h with hopen | ⟨registry, hopen, hselect⟩
    · exact refuses_of_error hopen
    · exact Refuses.compute hopen (Command.refuses_of_select_error hsound hselect)

/-- The registry of a run, on which all that follows depends. -/
theorem run_of_select (arrange : List (Point × Nat) → List (Point × Nat))
    (display : Chart → Printing Unit) (h : arguments.select tree = .ok selection) :
    ∃ registry, registry.select arguments.command.layers = .ok selection ∧
      arguments.run arrange display tree =
        arguments.command.run arrange display tree registry := by
  obtain ⟨config, hload, h⟩ := bind_eq_ok.1 h
  obtain ⟨registry, hopen, hselect⟩ := bind_eq_ok.1 h
  refine ⟨registry, hselect, ?_⟩
  rw [run, compute_eq hload, compute_eq hopen]

/-- Either a run prints all of its output and nothing is wrong with it, or it prints nothing and
its error is that of the first stage that something is wrong with. -/
theorem run_cases (hfair : ∀ numbered, (arrange numbered).Perm numbered)
    (hdraws : Draws display picture) (hsound : arguments.command.Sound) :
    (∃ selection text, arguments.select tree = .ok selection ∧
        Complete tree picture selection arguments.command text ∧
          Prints (arguments.run arrange display tree) text) ∨
      ∃ cause, Fault tree arguments cause ∧
        Refuses (arguments.run arrange display tree) cause := by
  cases hselect : arguments.select tree with
  | error cause =>
    exact .inr ⟨cause, fault_of_select_error hselect, refuses_of_select_error hsound hselect⟩
  | ok selection =>
    obtain ⟨registry, hregistry, hrun⟩ := run_of_select arrange display hselect
    rw [hrun]
    rcases Command.run_cases hfair hdraws hsound hregistry with
      ⟨text, htext, hcomplete⟩ | ⟨p, hp, cause, hcause, hrefuses⟩ |
        ⟨a, p, hcommand, hprofile, hlayers, hrefuses⟩
    · exact .inl ⟨selection, text, rfl, hcomplete, htext⟩
    · obtain ⟨entry, hentry, hvalue⟩ := Survey.values_eq_error hcause
      exact .inr ⟨cause, .evaluation hselect hp hentry hvalue, hrefuses⟩
    · refine .inr ⟨_, .plot hselect (fun q hq => ?_) hcommand hlayers, hrefuses⟩
      rw [hcommand] at hq
      obtain ⟨values, hvalues⟩ := hprofile.exists_values hq
      exact Survey.values_eq_ok hvalues

theorem not_fault (hselect : arguments.select tree = .ok selection)
    (hcomplete : Complete tree picture selection arguments.command text) (cause : Error) :
    ¬ Fault tree arguments cause := by
  obtain ⟨config, hload, h⟩ := bind_eq_ok.1 hselect
  obtain ⟨registry, hopen, hregistry⟩ := bind_eq_ok.1 h
  obtain ⟨hnames, hall⟩ := Config.openAll_eq_ok hopen
  intro hfault
  cases hfault with
  | config hload' => simp [hload] at hload'
  | opening hload' hentry hfails hfirst =>
    obtain rfl := Except.ok.inj (hload.symm.trans hload')
    obtain ⟨raster, hraster⟩ := hall _ hentry
    simp [hraster] at hfails
  | layer hload' hopen' hlayers hfront hname =>
    obtain rfl := Except.ok.inj (hload.symm.trans hload')
    rw [hlayers] at hregistry
    have := Registry.mem_names_of_select hregistry _ (List.mem_append_right _ List.mem_cons_self)
    exact hname (hnames ▸ this)
  | evaluation hselect' hp hentry hvalue =>
    obtain rfl := Except.ok.inj (hselect.symm.trans hselect')
    obtain ⟨values, hvalues⟩ := hcomplete.exists_values _ hp
    obtain ⟨v, hv⟩ := Survey.values_eq_ok hvalues _ hentry
    simp [hv] at hvalue
  | plot hselect' hvalues hcommand hlayers =>
    obtain rfl := Except.ok.inj (hselect.symm.trans hselect')
    rw [hcommand] at hcomplete
    exact hcomplete.layers_ne_nil hlayers

end Arguments

/-- **A run is all or nothing.** Arguments that are not valid end it at once, whatever the files
are. Valid arguments give all of the output if nothing is wrong, and else the error of the first
stage that something is wrong with, and no output. -/
theorem runInOrder_allOrNothing (hfair : ∀ numbered, (arrange numbered).Perm numbered)
    (hdraws : Draws display picture) (tree : FileTree) (words : List String) :
    (∀ cause, Arguments.read words = .error cause →
      cause = .helpWanted ∨ cause = .versionWanted ∨
        runInOrder arrange display tree words = cause.exit ∧ cause.exit.code = 2 ∧
          cause.exit.output = "") ∧
    ∀ arguments, Arguments.read words = .ok arguments →
      (∃ selection text, arguments.select tree = .ok selection ∧
        Complete tree picture selection arguments.command text ∧
        (∀ cause, ¬ Fault tree arguments cause) ∧
        runInOrder arrange display tree words = ⟨0, text, ""⟩) ∨
      ∃ cause, Fault tree arguments cause ∧
        runInOrder arrange display tree words =
          ⟨1, "", "Error: " ++ cause.message ++ "\n"⟩ := by
  refine ⟨fun cause hread => ?_, fun arguments hread => ?_⟩
  · unfold runInOrder
    rw [hread]
    cases cause <;> simp [ArgumentError.exit]
  · rcases Arguments.run_cases hfair hdraws (Arguments.sound_read hread).2 with
      ⟨selection, text, hselect, hcomplete, hprints⟩ | ⟨cause, hfault, hrefuses⟩
    · exact .inl ⟨selection, text, hselect, hcomplete, Arguments.not_fault hselect hcomplete,
        runInOrder_of_prints hread hprints⟩
    · exact .inr ⟨cause, hfault, runInOrder_of_refuses hread hrefuses⟩

/-- A configuration of one raster, whose only height file is of no square. -/
def strayTree : FileTree := ⟨[
  (["c.json"],
    .file "\x7b\"rasters\":\x7b\"dem\":\x7b\"type\":\"hgt\",\"dir\":\"t\"\x7d\x7d\x7d".toUTF8),
  (["t"], .directory),
  (["t", "x.hgt"], .file .empty)]⟩

/-- A table of the way north from 98 degrees. Squares from 100 degrees on have no tile name. -/
def northWords (last : String) (more : List String) : List String :=
  "--config=c.json" :: "csv" :: "--nb-points=2" ::
    ("--geom=\x7b\"type\":\"LineString\",\"coordinates\":[[0,98],[0," ++ last ++ "]]\x7d") :: more

def northArguments (last : Float) (parallel : Bool) : Arguments :=
  ⟨"c.json", .profile .csv ⟨[⟨0, 98⟩, ⟨0, last⟩], 2, none, parallel⟩⟩

/-- A picture that tells no more than where the axis of the chart ends. -/
def tinyPicture (chart : Chart) : String := plainFloat32 chart.last ++ "\n"

def tinyDisplay (chart : Chart) : Printing Unit := print (tinyPicture chart)

/-- Only the last point fails, and nothing of the table is written. -/
theorem lastPoint_allOrNothing :
    (∀ numbered : List (Point × Nat), numbered.reverse.Perm numbered) ∧
      Draws tinyDisplay tinyPicture ∧
      runInOrder .reverse tinyDisplay strayTree (northWords "99" []) =
        ⟨0, "distance,dem,x,y\n0.0,-9999,0,98\n0.5,-9999,0,98.5\n1.0,-9999,0,99\n", ""⟩ ∧
      Arguments.read (northWords "100" ["--parallel"]) = .ok (northArguments 100 true) ∧
      (northArguments 100 true).command.points = [⟨0, 98⟩, ⟨0, 99⟩, ⟨0, 100⟩] ∧
      ∃ cause, Fault strayTree (northArguments 100 true) cause ∧
        runInOrder .reverse tinyDisplay strayTree (northWords "100" ["--parallel"]) =
          ⟨1, "", "Error: " ++ cause.message ++ "\n"⟩ := by
  have hfair : ∀ numbered : List (Point × Nat), numbered.reverse.Perm numbered :=
    List.reverse_perm
  have hdraws : Draws tinyDisplay tinyPicture :=
    fun chart => prints_print (tinyPicture chart)
  have hread : Arguments.read (northWords "99" []) = .ok (northArguments 99 false) :=
    toOption_eq_some.1 (by decide +kernel)
  have hread' : Arguments.read (northWords "100" ["--parallel"]) = .ok (northArguments 100 true) :=
    toOption_eq_some.1 (by decide +kernel)
  -- Texts are compared as lists of characters, which the kernel can evaluate.
  have htable : (runInOrder .reverse tinyDisplay strayTree (northWords "99" [])).output.toList =
      "distance,dem,x,y\n0.0,-9999,0,98\n0.5,-9999,0,98.5\n1.0,-9999,0,99\n".toList := by
    decide +kernel
  have hcode : (runInOrder .reverse tinyDisplay strayTree
      (northWords "100" ["--parallel"])).code = 1 := by
    decide +kernel
  have hpoints : (northArguments 100 true).command.points =
      [⟨0, 98⟩, ⟨0, 99⟩, ⟨0, 100⟩] := by
    decide +kernel
  refine ⟨hfair, hdraws, ?_, hread', hpoints, ?_⟩
  · have h := (runInOrder_allOrNothing hfair hdraws strayTree (northWords "99" [])).2 _ hread
    rcases h with ⟨-, text, -, -, -, hrun⟩ | ⟨cause, -, hrun⟩
    · rw [hrun] at htable ⊢
      exact congrArg (Exit.mk 0 · "") (String.toList_inj.1 htable)
    · rw [hrun] at htable
      cases htable
  · have h := (runInOrder_allOrNothing hfair hdraws strayTree (northWords "100" ["--parallel"])).2
    refine (h _ hread').resolve_left ?_
    rintro ⟨-, text, -, -, -, hrun⟩
    rw [hrun] at hcode
    cases hcode

end Transect
