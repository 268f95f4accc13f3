import Transect.Config.Basic
import Transect.Proofs.Rounding.Whole
import Transect.Proofs.Survey
import Transect.Proofs.Tile.Storage

/-!
# Rasters that are rounded

The elevations of a tile are whole numbers, so rounding leaves them as they are, unless the
configured quantum has so many places that an elevation no longer fits into a count.
-/

namespace Transect

/-! ## One lookup -/

namespace Raster

variable {r : Raster} {d : Nat}

def unrounded (r : Raster) : Raster := { r with places := none }

theorem value_unrounded_snd (tree : FileTree) (p : Point) (r : Raster) :
    (r.unrounded.value tree p).2 = (r.value tree p).2.unrounded := rfl

/-- Rounding is the last thing that is done to an answer. -/
theorem value_of_places (h : r.places = some d) (tree : FileTree) (p : Point) :
    (r.value tree p).1 = (r.unrounded.value tree p).1.map (Option.map fun v => roundTo v d) := by
  have hfinish (v : Option Float) :
      r.finish v = (r.unrounded.finish v).map fun v => roundTo v d := by
    have hdata : r.unrounded.isData = r.isData := rfl
    have hplaces : r.unrounded.places = none := rfl
    rw [finish, finish, hdata, hplaces, h, Option.map_map]
    rfl
  rw [value_fst, value_fst]
  have hsource : r.unrounded.source = r.source := rfl
  rw [hsource]
  cases r.source.value tree p with
  | mk answer source =>
    cases answer with
    | error cause => rfl
    | ok v => exact congrArg Except.ok (hfinish v)

theorem value_of_tiles {tree : FileTree} {p : Point} {store : TileStore} {v : Option Float}
    (h : (store.value tree p).1 = .ok v) (nodata : Option Float) (places : Option Nat) :
    ((⟨.tiles store, nodata, places⟩ : Raster).value tree p).1 =
      .ok ((⟨.tiles store, nodata, places⟩ : Raster).finish v) := by
  rw [value_fst]
  exact congrArg (Except.map _) h

/-- Whether the numbers come from a tile store. -/
def FromTiles (r : Raster) : Prop := ∃ store, r.source = .tiles store

theorem FromTiles.value (h : r.FromTiles) (tree : FileTree) (p : Point) :
    (r.value tree p).2.FromTiles := by
  obtain ⟨store, hstore⟩ := h
  exact ⟨(store.value tree p).2, by rw [value_snd, hstore]; rfl⟩

theorem finish_unrounded (r : Raster) (v : Option Float) :
    r.unrounded.finish v = v.filter r.isData := by
  cases v with
  | none => rfl
  | some v => simp [finish, unrounded, isData, Option.filter]

/-- A tile store answers with elevations only. -/
theorem FromTiles.elevation (h : r.FromTiles) {tree : FileTree} {p : Point} {v : Float}
    (hv : (r.unrounded.value tree p).1 = .ok (some v)) : ∃ e : Int16, v = floatOfInt e.toInt := by
  obtain ⟨store, hstore⟩ := h
  have hsource : (r.unrounded.source.value tree p).1 = (store.value tree p).1 := by
    have : r.unrounded.source = .tiles store := hstore
    rw [this]
    rfl
  rw [value_fst, hsource, TileStore.value_eq] at hv
  cases hload : store.tileAt tree (Square.containing p) with
  | error cause =>
    rw [hload] at hv
    cases hv
  | ok tile =>
    rw [hload] at hv
    have hfinish := Except.ok.inj hv
    rw [finish_unrounded, Option.filter_eq_some_iff] at hfinish
    obtain ⟨e, -, he⟩ := Option.map_eq_some_iff.1 hfinish.1
    exact ⟨e, he.symm⟩

/-! ## Any number of lookups -/

/-- The raster after some lookups. The files may change between them. -/
def after (r : Raster) : List (FileTree × Point) → Raster
  | [] => r
  | (tree, p) :: rest => (r.value tree p).2.after rest

theorem after_unrounded (r : Raster) (calls : List (FileTree × Point)) :
    r.unrounded.after calls = (r.after calls).unrounded := by
  induction calls generalizing r with
  | nil => rfl
  | cons call calls ih => rw [after, after, value_unrounded_snd, ih]

theorem after_places (r : Raster) (calls : List (FileTree × Point)) :
    (r.after calls).places = r.places := by
  induction calls generalizing r with
  | nil => rfl
  | cons call calls ih =>
    rw [after, ih]
    rfl

theorem FromTiles.after (h : r.FromTiles) (calls : List (FileTree × Point)) :
    (r.after calls).FromTiles := by
  induction calls generalizing r with
  | nil => exact h
  | cons call calls ih => exact ih (h.value call.1 call.2)

end Raster

/-! ## Rounded answers -/

/-- An answer without rounding, and the same answer with `d` places. -/
inductive RoundedAnswer (d : Nat) :
    Except Error (Option Float) → Except Error (Option Float) → Prop
  | failed (cause : Error) : RoundedAnswer d (.error cause) (.error cause)
  | noData : RoundedAnswer d (.ok none) (.ok none)
  /-- An elevation that fits into a count stays. -/
  | fits {e : Int16} (h : e.toInt.natAbs * 10 ^ d ≤ maxCount) :
    RoundedAnswer d (.ok (some (floatOfInt e.toInt))) (.ok (some (floatOfInt e.toInt)))
  /-- Any other becomes the largest count, as far as the places move it down. -/
  | held {e : Int16} {v : Float} (h : maxCount < e.toInt.natAbs * 10 ^ d)
    (hv : v = floatOfInt (e.toInt.sign * maxCount) / powerOfTen d)
    (hne : v ≠ floatOfInt e.toInt) :
    RoundedAnswer d (.ok (some (floatOfInt e.toInt))) (.ok (some v))

theorem natAbs_elevation_le (e : Int16) : e.toInt.natAbs ≤ 2 ^ 15 := by
  have h1 := e.toInt_lt
  have h2 := e.le_toInt
  omega

/-- An elevation that does not fit is answered wrongly. -/
theorem RoundedAnswer.ne_of_large {d : Nat} {e : Int16} {answer : Except Error (Option Float)}
    (h : RoundedAnswer d (.ok (some (floatOfInt e.toInt))) answer)
    (hlarge : maxCount < e.toInt.natAbs * 10 ^ d) :
    answer ≠ .ok (some (floatOfInt e.toInt)) := by
  have hsmall (i : Int16) : i.toInt.natAbs ≤ 2 ^ 53 := (natAbs_elevation_le i).trans (by norm_num)
  -- `fits` could speak of another elevation with the same float, but there is none.
  generalize hv : floatOfInt e.toInt = v at h
  cases h with
  | @fits i hfits =>
    rw [← floatOfInt_inj (hsmall e) (hsmall i) hv] at hfits
    omega
  | @held i w _ _ hne =>
    rintro ⟨⟩
    exact hne rfl

theorem Raster.roundedAnswer {r : Raster} {d : Nat} (h : r.FromTiles) (hd : r.places = some d)
    (tree : FileTree) (p : Point) :
    RoundedAnswer d (r.unrounded.value tree p).1 (r.value tree p).1 := by
  rw [value_of_places hd]
  cases hv : (r.unrounded.value tree p).1 with
  | error cause => exact .failed cause
  | ok answer =>
    cases answer with
    | none => exact .noData
    | some v =>
      obtain ⟨e, rfl⟩ := h.elevation hv
      have he := natAbs_elevation_le e
      simp only [Except.map, Option.map_some]
      rcases Nat.lt_or_ge maxCount (e.toInt.natAbs * 10 ^ d) with hlarge | hfits
      · obtain ⟨hround, hne⟩ := roundTo_floatOfInt_of_large he hlarge
        exact .held hlarge hround hne
      · rw [roundTo_floatOfInt he hfits]
        exact .fits hfits

namespace RasterConfig

variable {c : RasterConfig} {tree : FileTree} {q : Float} {rounded : Raster}

theorem openRaster_of_round (hq : c.round = some q) (hopen : c.openRaster tree = .ok rounded) :
    rounded.FromTiles ∧ ∃ d, placesOf? q = some d ∧ rounded.places = some d ∧
      ({ c with round := none } : RasterConfig).openRaster tree = .ok rounded.unrounded := by
  unfold openRaster at hopen ⊢
  cases hstore : TileStore.openDirectory tree c.directory c.storage with
  | error cause =>
    rw [hstore] at hopen
    cases hopen
  | ok store =>
    cases hd : placesOf? q with
    | none =>
      simp only [hstore, places, hq, hd, bind, Except.bind] at hopen
      cases hopen
    | some d =>
      simp only [hstore, places, hq, hd, bind, Except.bind] at hopen ⊢
      cases hopen
      exact ⟨⟨store, rfl⟩, d, rfl, rfl, rfl⟩

/-- **What configured rounding does.** A raster of tiles that is opened with a quantum can be opened
without it. After any lookups the two answer alike, but for an elevation that does not fit into a
count with the places of the quantum. -/
theorem openRaster_rounds (hq : c.round = some q) (hopen : c.openRaster tree = .ok rounded) :
    ∃ d plain, placesOf? q = some d ∧
      ({ c with round := none } : RasterConfig).openRaster tree = .ok plain ∧
      ∀ (calls : List (FileTree × Point)) (now : FileTree) (p : Point),
        RoundedAnswer d ((plain.after calls).value now p).1
          ((rounded.after calls).value now p).1 := by
  obtain ⟨htiles, d, hd, hplaces, hplain⟩ := openRaster_of_round hq hopen
  refine ⟨d, rounded.unrounded, hd, hplain, fun calls now p => ?_⟩
  have hplaces : (rounded.after calls).places = some d := by rw [Raster.after_places, hplaces]
  rw [Raster.after_unrounded]
  exact Raster.roundedAnswer (htiles.after calls) hplaces now p

def finelyRounded : RasterConfig := ⟨"d", .inMemory, some 1e-16, none⟩

def oneTile (bytes : ByteArray) : FileTree :=
  ⟨[(["d"], .directory), (["d", "N44W072.hgt"], .file bytes)]⟩

theorem value_oneTile :
    ((⟨"d", .inMemory, []⟩ : TileStore).value (oneTile (levelBytes 7)) ⟨-71.5, 44.5⟩).1 =
      .ok (some (floatOfInt 1799)) := by
  have hsquare : Square.containing ⟨-71.5, 44.5⟩ = ⟨-72, 44⟩ := by decide +kernel
  have hfind (bytes : ByteArray) :
      (oneTile bytes).find "d/N44W072.hgt" = .ok (.file bytes) := by rfl
  have hpath (bytes : ByteArray) : (⟨"d", .inMemory, []⟩ : TileStore).pathOf (oneTile bytes)
      ⟨-72, 44⟩ = "d/N44W072.hgt" := by
    have hjoin : Path.join "d" (⟨-72, 44⟩ : Square).fileName = "d/N44W072.hgt" := by
      decide +kernel
    simp [TileStore.pathOf, hjoin, FileTree.exists?, hfind, Except.isOk, Except.toBool]
  have hload : (⟨"d", .inMemory, []⟩ : TileStore).load (oneTile (levelBytes 7)) ⟨-72, 44⟩ =
      .ok (.level ⟨-72, 44⟩ 7) := by
    apply TileStore.load_of_tile
    rw [hpath]
    exact Tile.load_level (by decide +kernel) (hfind _)
  have hposition : (Tile.void ⟨-72, 44⟩).position? ⟨-71.5, 44.5⟩ = some (600, 600) := by
    decide +kernel
  have hsample : (some (sampleOf 7 7)).filter (· != voidSample) = some 1799 := by decide +kernel
  have hnew : (⟨"d", .inMemory, []⟩ : TileStore).loaded = [] := rfl
  rw [TileStore.value_of_new hnew, hsquare, hload, Except.map, Tile.elevation?_level hposition,
    hsample, Option.map_some]
  decide +kernel

theorem finelyRounded_openRaster_rounds :
    finelyRounded.round = some 1e-16 ∧
    finelyRounded.openRaster (oneTile (levelBytes 7)) =
      .ok ⟨.tiles ⟨"d", .inMemory, []⟩, none, some 16⟩ ∧
    ∃ plain, ({ finelyRounded with round := none } : RasterConfig).openRaster
        (oneTile (levelBytes 7)) = .ok plain ∧
      (plain.value (oneTile (levelBytes 7)) ⟨-71.5, 44.5⟩).1 = .ok (some (floatOfInt 1799)) ∧
      ((⟨.tiles ⟨"d", .inMemory, []⟩, none, some 16⟩ : Raster).value
        (oneTile (levelBytes 7)) ⟨-71.5, 44.5⟩).1 ≠ .ok (some (floatOfInt 1799)) := by
  have hplaces : placesOf? 1e-16 = some 16 := by decide +kernel
  have hstore (bytes : ByteArray) : TileStore.openDirectory (oneTile bytes) "d" .inMemory =
      .ok ⟨"d", .inMemory, []⟩ := by rfl
  have hopen : finelyRounded.openRaster (oneTile (levelBytes 7)) =
      .ok ⟨.tiles ⟨"d", .inMemory, []⟩, none, some 16⟩ := by
    simp only [openRaster, finelyRounded, places, hstore, hplaces]
    rfl
  obtain ⟨d, plain, hd, hplain, hanswer⟩ := openRaster_rounds (q := 1e-16) rfl hopen
  obtain rfl : 16 = d := Option.some.inj (hplaces.symm.trans hd)
  have hanswer := hanswer [] (oneTile (levelBytes 7)) ⟨-71.5, 44.5⟩
  have hvalue : (plain.value (oneTile (levelBytes 7)) ⟨-71.5, 44.5⟩).1 =
      .ok (some (floatOfInt 1799)) := by
    obtain rfl : plain = ⟨.tiles ⟨"d", .inMemory, []⟩, none, none⟩ := by
      simp only [openRaster, finelyRounded, places, hstore] at hplain
      exact (Except.ok.inj hplain).symm
    have hfinish : (Raster.mk (.tiles ⟨"d", .inMemory, []⟩) none none).finish
        (some (floatOfInt 1799)) = some (floatOfInt 1799) := by
      decide +kernel
    rw [Raster.value_of_tiles value_oneTile, hfinish]
  refine ⟨rfl, hopen, plain, hplain, hvalue, ?_⟩
  rw [Raster.after, hvalue] at hanswer
  exact RoundedAnswer.ne_of_large (e := 1799) hanswer (by decide)

end RasterConfig

end Transect
