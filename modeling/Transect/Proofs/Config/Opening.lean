import Transect.Proofs.Path
import Transect.Proofs.Registry

/-!
# Opening a configuration

A raster opens if its directory has a height file and its quantum is a positive number. Opening a
configuration opens all of its rasters, or it ends at the first one in the order of the names that
does not open.
-/

namespace Transect

variable {tree : FileTree} {q : Float} {name : String} {cause : Error}

/-! ## Height files -/

/-- A name that ends in the extension, in any case, and has something in front of it. -/
def IsHeightName (name : String) : Prop :=
  ∃ stem extension, name.toList = stem ++ '.' :: extension ∧ stem ≠ [] ∧
    extension.map Char.toLower = ['h', 'g', 't']

theorem isHeightFile_iff : TileStore.isHeightFile name = true ↔ IsHeightName name := by
  unfold TileStore.isHeightFile
  constructor
  · intro h
    split at h
    · rename_i extension hextension
      obtain ⟨stem, hname, hstem, -⟩ := Path.splitName_eq_some hextension
      exact ⟨stem, extension.toList, hname, hstem, by simpa using h⟩
    · cases h
  · rintro ⟨stem, extension, hname, hstem, hlower⟩
    have hdot : '.' ∉ extension := by
      intro hmem
      have := List.mem_map_of_mem (f := Char.toLower) hmem
      rw [hlower] at this
      exact absurd this (by decide)
    have hsplit := Path.splitName_ofList hstem hdot
    rw [← hname, String.ofList_toList] at hsplit
    simp [hsplit, hlower]

/-! ## Quanta -/

theorem exists_shortest?_iff (tie : Tie) : (∃ d, shortest? tie q = some d) ↔ q.isFinite = true := by
  change _ ↔ (unpack q).isFinite = true
  unfold shortest?
  cases unpack q <;> simp [Float.Model.UnpackedFloat.isFinite]

theorem exists_placesOf?_iff : (∃ d, placesOf? q = some d) ↔ q.isFinite = true ∧ 0 < q := by
  unfold placesOf?
  split_ifs with hpos
  · simp only [Option.map_eq_some_iff, hpos, and_true]
    rw [← exists_shortest?_iff .up]
    constructor
    · rintro ⟨d, s, hs, -⟩
      exact ⟨s, hs⟩
    · rintro ⟨s, hs⟩
      exact ⟨_, s, hs, rfl⟩
  · simp [hpos]

namespace RasterConfig

variable {c : RasterConfig}

theorem places_eq_ok (h : ∀ q, c.round = some q → q.isFinite = true ∧ 0 < q) :
    c.places = .ok (c.round.bind placesOf?) := by
  unfold places
  cases hround : c.round with
  | none => rfl
  | some q =>
    obtain ⟨d, hd⟩ := exists_placesOf?_iff.2 (h q hround)
    simp [hd]

theorem places_eq_error (hround : c.round = some q) (hq : ¬ (q.isFinite = true ∧ 0 < q)) :
    c.places = .error (.round q) := by
  have hnone : placesOf? q = none := by
    rw [← exists_placesOf?_iff] at hq
    simpa [← Option.ne_none_iff_exists'] using hq
  unfold places
  simp [hround, hnone]

/-! ## One raster -/

/-- What a raster needs. -/
structure Opens (tree : FileTree) (c : RasterConfig) : Prop where
  directory : ∃ names, tree.list c.directory = .ok names ∧ ∃ name ∈ names, IsHeightName name
  round : ∀ q, c.round = some q → q.isFinite = true ∧ 0 < q

/-- What a raster lacks. The quantum is only looked at if the directory will do. -/
inductive Lacks (tree : FileTree) (c : RasterConfig) : Error → Prop
  | directory {fault : FileError} (hlist : tree.list c.directory = .error fault) :
    Lacks tree c (.file fault)
  | heightFile {names : List String} (hlist : tree.list c.directory = .ok names)
    (hnone : ∀ name ∈ names, ¬ IsHeightName name) : Lacks tree c (.noHeightFiles c.directory)
  | quantum {names : List String} {q : Float} (hlist : tree.list c.directory = .ok names)
    (hsome : ∃ name ∈ names, IsHeightName name) (hround : c.round = some q)
    (hq : ¬ (q.isFinite = true ∧ 0 < q)) : Lacks tree c (.round q)

/-- The raster as it is after opening. No tile is loaded yet. -/
def opened (c : RasterConfig) : Raster :=
  ⟨.tiles ⟨c.directory, c.storage, []⟩, c.nodata, c.round.bind placesOf?⟩

/-- A raster has what it needs or lacks something. -/
theorem opens_or_lacks (tree : FileTree) (c : RasterConfig) :
    Opens tree c ∨ ∃ cause, Lacks tree c cause := by
  cases hlist : tree.list c.directory with
  | error fault => exact .inr ⟨_, .directory hlist⟩
  | ok names =>
    by_cases hsome : ∃ name ∈ names, IsHeightName name
    · by_cases hround : ∀ q, c.round = some q → q.isFinite = true ∧ 0 < q
      · exact .inl ⟨⟨names, hlist, hsome⟩, hround⟩
      · push Not at hround
        obtain ⟨q, hq, hbad⟩ := hround
        exact .inr ⟨_, .quantum hlist hsome hq fun h => hbad h.1 h.2⟩
    · exact .inr ⟨_, .heightFile hlist fun name hmem hname => hsome ⟨name, hmem, hname⟩⟩

theorem openDirectory_of_list {names : List String} {directory : String} (storage : Storage)
    (hlist : tree.list directory = .ok names) :
    TileStore.openDirectory tree directory storage =
      if names.any TileStore.isHeightFile then .ok ⟨directory, storage, []⟩
      else .error (.noHeightFiles directory) := by
  unfold TileStore.openDirectory
  rw [hlist]
  rfl

theorem any_isHeightFile {names : List String} :
    names.any TileStore.isHeightFile = true ↔ ∃ name ∈ names, IsHeightName name := by
  simp [isHeightFile_iff]

theorem Opens.openRaster_eq_ok (h : Opens tree c) : c.openRaster tree = .ok c.opened := by
  obtain ⟨⟨names, hlist, hsome⟩, hround⟩ := h
  unfold openRaster
  rw [openDirectory_of_list _ hlist, if_pos (any_isHeightFile.2 hsome), places_eq_ok hround]
  rfl

theorem Lacks.openRaster_eq_error (h : Lacks tree c cause) :
    c.openRaster tree = .error cause := by
  unfold openRaster
  cases h with
  | directory hlist =>
    unfold TileStore.openDirectory
    rw [hlist]
    rfl
  | heightFile hlist hnone =>
    have hany := mt any_isHeightFile.1 fun ⟨name, hmem, hname⟩ => hnone name hmem hname
    rw [openDirectory_of_list _ hlist, if_neg hany]
    rfl
  | quantum hlist hsome hround hq =>
    rw [openDirectory_of_list _ hlist, if_pos (any_isHeightFile.2 hsome),
      places_eq_error hround hq]
    rfl

theorem opens_iff : Opens tree c ↔ ∃ raster, c.openRaster tree = .ok raster := by
  constructor
  · intro h
    exact ⟨_, h.openRaster_eq_ok⟩
  · rintro ⟨raster, hraster⟩
    refine (opens_or_lacks tree c).resolve_right ?_
    rintro ⟨cause, h⟩
    rw [h.openRaster_eq_error] at hraster
    cases hraster

theorem openRaster_eq_error_iff : c.openRaster tree = .error cause ↔ Lacks tree c cause := by
  constructor
  · intro herror
    rcases opens_or_lacks tree c with h | ⟨other, h⟩
    · rw [h.openRaster_eq_ok] at herror
      cases herror
    · rw [h.openRaster_eq_error] at herror
      cases herror
      exact h
  · exact Lacks.openRaster_eq_error

end RasterConfig

/-! ## All rasters -/

namespace Config

variable {config : Config} {registry : Registry}

open RasterConfig (Opens Lacks)

theorem openAll_of_opens (h : ∀ entry ∈ config.entries, Opens tree entry.2) :
    config.openAll tree = .ok (config.map RasterConfig.opened) := by
  refine map_eq_ok.2 ⟨(config.map RasterConfig.opened).entries, mapM_eq_ok ?_,
    NameMap.ofList_entries _⟩
  intro entry hentry
  exact map_eq_ok.2 ⟨_, (h entry hentry).openRaster_eq_ok, rfl⟩

/-- The error of a raster that does not open, if those with smaller names do. -/
theorem openAll_of_lacks {entry : String × RasterConfig} (hentry : entry ∈ config.entries)
    (hlacks : Lacks tree entry.2 cause)
    (hfirst : ∀ other ∈ config.entries, utf8Bytes other.1 < utf8Bytes entry.1 →
      Opens tree other.2) : config.openAll tree = .error cause := by
  cases hopen : config.openAll tree with
  | ok registry =>
    obtain ⟨raster, hraster⟩ := (openAll_eq_ok hopen).2 entry hentry
    rw [hlacks.openRaster_eq_error] at hraster
    cases hraster
  | error found =>
    obtain ⟨other, hother, herror, hfirst'⟩ := openAll_eq_error hopen
    have hname : other.1 = entry.1 := by
      -- Neither of the two names is smaller than the other.
      rcases lt_trichotomy other.1 entry.1 with hlt | heq | hgt
      · rw [(hfirst other hother (utf8Bytes_lt hlt)).openRaster_eq_ok] at herror
        cases herror
      · exact heq
      · obtain ⟨raster, hraster⟩ := hfirst' entry hentry (utf8Bytes_lt hgt)
        rw [hlacks.openRaster_eq_error] at hraster
        cases hraster
    have hsame : other.2 = entry.2 := by
      have hfind := NameMap.find?_of_mem hother
      rw [hname, NameMap.find?_of_mem hentry] at hfind
      exact (Option.some.inj hfind).symm
    rw [hsame, hlacks.openRaster_eq_error] at herror
    cases herror
    rfl

/-- **A configuration opens as a whole or not at all.** It opens if every raster does, and then the
registry has exactly the configured rasters. If not, the error is that of the raster with the least
name of those that do not open. -/
theorem openAll_whole (tree : FileTree) (config : Config) :
    ((∃ registry, config.openAll tree = .ok registry) ↔
      ∀ entry ∈ config.entries, Opens tree entry.2) ∧
    (∀ registry, config.openAll tree = .ok registry →
      registry.names = config.names ∧
        ∀ entry ∈ config.entries, registry.find? entry.1 = some entry.2.opened) ∧
    ∀ cause, config.openAll tree = .error cause ↔
      ∃ entry ∈ config.entries, Lacks tree entry.2 cause ∧
        ∀ other ∈ config.entries, utf8Bytes other.1 < utf8Bytes entry.1 → Opens tree other.2 := by
  have hall {registry : Registry} (h : config.openAll tree = .ok registry) :
      ∀ entry ∈ config.entries, Opens tree entry.2 :=
    fun entry hentry => RasterConfig.opens_iff.2 ((openAll_eq_ok h).2 entry hentry)
  refine ⟨⟨fun ⟨registry, h⟩ => hall h, fun h => ⟨_, openAll_of_opens h⟩⟩, ?_, ?_⟩
  · intro registry h
    refine ⟨(openAll_eq_ok h).1, fun entry hentry => ?_⟩
    rw [openAll_of_opens (hall h)] at h
    cases h
    apply NameMap.find?_of_mem
    exact List.mem_map.2 ⟨entry, hentry, rfl⟩
  · intro cause
    constructor
    · intro h
      obtain ⟨entry, hentry, herror, hfirst⟩ := openAll_eq_error h
      exact ⟨entry, hentry, RasterConfig.openRaster_eq_error_iff.1 herror,
        fun other hother hlt => RasterConfig.opens_iff.2 (hfirst other hother hlt)⟩
    · rintro ⟨entry, hentry, hlacks, hfirst⟩
      exact openAll_of_lacks hentry hlacks hfirst

end Config

end Transect
