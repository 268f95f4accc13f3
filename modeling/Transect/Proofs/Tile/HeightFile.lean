import Transect.Proofs.Float.Floor
import Transect.Proofs.Tile.Missing
import Transect.Proofs.Tile.Storage

/-!
# The height files that a store uses

A store looks for the tile of a square under two names only, the one in upper case first. A height
file of any other spelling lets its directory be opened and can be loaded by its path, but no lookup
ever finds it.
-/

namespace Transect

/-! ## The points of a square -/

namespace Square

variable {s : Square} {p : Point}

/-- Whether a point is in the half-open square degree. -/
def Holds (s : Square) (p : Point) : Prop :=
  ∃ x y : ℚ, rat? p.x = some x ∧ rat? p.y = some y ∧
    (s.lon.toInt ≤ x ∧ x < s.lon.toInt + 1) ∧ (s.lat.toInt ≤ y ∧ y < s.lat.toInt + 1)

theorem degree_eq {i : Int16} {x : Float} {a : ℚ} (h : rat? x = some a)
    (hi : i.toInt ≤ a ∧ a < i.toInt + 1) : degree x = i := by
  have hfloor : ⌊a⌋ = i.toInt := Int.floor_eq_iff.2 hi
  have hclamp : clamp Int16.minValue.toInt Int16.maxValue.toInt i.toInt = i.toInt := by
    have hlo : Int16.minValue.toInt ≤ i.toInt := i.le_toInt
    have hhi : i.toInt ≤ Int16.maxValue.toInt := Int.le_of_lt_add_one i.toInt_lt
    rw [clamp, min_eq_right hhi, max_eq_right hlo]
  rw [degree, floorWithin_eq h, hfloor, hclamp, Int16.ofInt_toInt]

theorem containing_of_holds (h : s.Holds p) : containing p = s := by
  obtain ⟨x, y, hx, hy, hlon, hlat⟩ := h
  rw [containing, degree_eq hx hlon, degree_eq hy hlat]

/-- The name that the square's file is found under, among the names in a directory. -/
def spelling? (s : Square) (names : List String) : Option String :=
  [s.fileName, s.lowerName].find? (· ∈ names)

theorem spelling?_eq_some {names : List String} {name : String}
    (h : s.spelling? names = some name) :
    name ∈ names ∧ (name = s.fileName ∨ name = s.lowerName) := by
  have hmem := List.mem_of_find?_eq_some h
  exact ⟨by simpa using List.find?_some h, by simpa using hmem⟩

end Square

/-! ## Loading -/

namespace Tile

variable {tree : FileTree} {storage : Storage} {path : String} {square : Square} {node : Node}

theorem find_of_load {tile : Tile} (h : Tile.load tree storage path = .ok tile) :
    ∃ node, tree.find path = .ok node := by
  rw [load_eq] at h
  split at h
  · cases h
  · split at h
    · cases h
    · rename_i node heq
      exact ⟨node, heq⟩

theorem find_of_load_error {cause : FileError}
    (h : Tile.load tree storage path = .error (.file cause)) : tree.find path = .error cause := by
  rw [load_eq] at h
  split at h
  · cases h
  · split at h
    · rename_i heq
      cases h
      exact heq
    · split at h <;> cases h

/-- A file whose name stands for a square is its tile, or has the wrong size for one. -/
theorem load_of_find (hs : Square.ofPath? path = some square) (h : tree.find path = .ok node) :
    (∃ tile, Tile.load tree storage path = .ok tile ∧ tile.square = square) ∨
      Tile.load tree storage path = .error (.size node.size path) := by
  rw [load_eq, hs]
  simp only [h]
  split
  · exact .inl ⟨_, rfl, rfl⟩
  · exact .inr rfl

/-- What loads with the samples kept in one way loads in every other, with the same elevations. -/
theorem load_inStorage {tile : Tile} (h : Tile.load tree storage path = .ok tile)
    (other : Storage) :
    ∃ t, Tile.load tree other path = .ok t ∧ ∀ p, t.elevation? p = tile.elevation? p := by
  have heq := (load_decoded tree other path).trans (load_decoded tree storage path).symm
  rw [h] at heq
  cases hload : Tile.load tree other path with
  | error cause =>
    rw [hload] at heq
    cases heq
  | ok t =>
    rw [hload] at heq
    have hdecoded : t.decoded = tile.decoded := Except.ok.inj heq
    refine ⟨t, rfl, fun p => ?_⟩
    rw [← elevation?_decoded, hdecoded, elevation?_decoded]

end Tile

/-! ## Names of height files -/

namespace TileStore

variable {tree : FileTree} {store : TileStore} {square : Square} {names : List String}
  {directory name : String}

theorem isHeightFile_fileName (square : Square) : isHeightFile square.fileName = true := by
  rw [isHeightFile, square.fileName_eq, Path.splitName_ofList square.stem_ne_nil (by decide)]
  simp

theorem isHeightFile_lowerName (square : Square) : isHeightFile square.lowerName = true := by
  have hstem : square.stem.map Char.toLower ≠ [] := by simp [square.stem_ne_nil]
  rw [isHeightFile, square.lowerName_eq, Path.splitName_ofList hstem (by decide)]
  simp

theorem isHeightFile_spelling? (h : square.spelling? names = some name) :
    isHeightFile name = true := by
  obtain ⟨-, rfl | rfl⟩ := Square.spelling?_eq_some h
  · exact isHeightFile_fileName square
  · exact isHeightFile_lowerName square

theorem toList_of_isHeightFile (h : isHeightFile name = true) :
    ∃ stem extension, name.toList = stem ++ '.' :: extension ∧ extension.length = 3 ∧
      '.' ∉ extension ∧ '/' ∉ extension := by
  unfold isHeightFile at h
  split at h
  · rename_i extension hext
    obtain ⟨stem, hname, -, hdot⟩ := Path.splitName_eq_some hext
    have hlower : extension.toList.map Char.toLower = ['h', 'g', 't'] := by simpa using h
    refine ⟨stem, extension.toList, hname, ?_, hdot, ?_⟩
    · simpa using congrArg List.length hlower
    · intro hslash
      have := List.mem_map_of_mem (f := Char.toLower) hslash
      rw [hlower] at this
      exact absurd this (by decide)
  · cases h

/-- A height file that stands for a square has no shorter a name than the square. -/
theorem utf8ByteSize_of_isHeightFile (hd : directory ≠ "") (h : isHeightFile name = true)
    (hs : Square.ofPath? (Path.join directory name) = some square) : 11 ≤ name.utf8ByteSize := by
  obtain ⟨stem, extension, hname, hthree, hdot, hslash⟩ := toList_of_isHeightFile h
  obtain ⟨front, last, rfl, hlast⟩ :=
    Path.name?_join_of_extension hd hname hslash (by omega : 1 < extension.length)
  obtain ⟨⟨seven, hseven, hlength⟩, -⟩ := Square.ofPath?_eq_some hs
  rw [Path.stem?, hlast, Option.map_some, Option.some.injEq] at hseven
  have hbytes := Square.length_le_utf8ByteSize name.toList
  rw [String.ofList_toList, hname] at hbytes
  have hsize : 7 ≤ last.length := by
    -- Without a stem the extension counts as the stem, which is too short.
    by_cases hnil : last = []
    · have := Path.splitName_length_le (.ofList (last ++ '.' :: extension))
      rw [hseven, String.toList_ofList, hlength, hnil] at this
      simp [hthree] at this
    · rw [Path.splitName_ofList hnil hdot] at hseven
      simp [← hseven] at hlength
      omega
  simp at hbytes
  omega

/-! ## The file that is looked for -/

theorem load_of_find {node : Node} (h : tree.find (store.pathOf tree square) = .ok node) :
    store.load tree square =
      (Tile.load tree store.storage (store.pathOf tree square)).mapError .tile := by
  unfold load
  cases hload : Tile.load tree store.storage (store.pathOf tree square) with
  | ok tile => rfl
  | error cause =>
    cases cause with
    | name path | size bytes path => rfl
    | file cause =>
      have hfind := Tile.find_of_load_error hload
      rw [h] at hfind
      cases hfind

theorem mem_of_spelling? (h : square.spelling? names = some name) :
    name ∈ names ∧ Path.Plain name ∧ name.utf8ByteSize ≤ FileTree.maxName := by
  obtain ⟨hnames, rfl | rfl⟩ := Square.spelling?_eq_some h
  · exact ⟨hnames, square.plain_fileName,
      Nat.le_trans square.utf8ByteSize_fileName_le (by decide)⟩
  · exact ⟨hnames, square.plain_lowerName,
      Nat.le_trans square.utf8ByteSize_lowerName_le (by decide)⟩

theorem utf8ByteSize_spelling? (hs : square.HasName) (h : square.spelling? names = some name) :
    name.utf8ByteSize = 11 := by
  obtain ⟨-, rfl | rfl⟩ := Square.spelling?_eq_some h
  · exact Square.utf8ByteSize_fileName hs
  · exact Square.utf8ByteSize_lowerName hs

theorem ofPath?_join_spelling? (directory : String) (hs : square.HasName)
    (h : square.spelling? names = some name) :
    Square.ofPath? (Path.join directory name) = some square := by
  obtain ⟨-, rfl | rfl⟩ := Square.spelling?_eq_some h
  · rw [Square.ofPath?_join_fileName, if_pos hs]
  · rw [Square.ofPath?_join_lowerName, if_pos hs]

theorem load_of_spelling? (hlist : tree.list store.directory = .ok names)
    (h : square.spelling? names = some name)
    (hshort : (Path.join store.directory name).utf8ByteSize ≤ FileTree.maxPath) :
    store.load tree square =
      (Tile.load tree store.storage (Path.join store.directory name)).mapError .tile := by
  obtain ⟨hmem, hplain, hlen⟩ := mem_of_spelling? h
  obtain ⟨node, hfind⟩ := FileTree.find_of_mem hlist hplain hlen hmem hshort
  have hpath : store.pathOf tree square = Path.join store.directory name := by
    by_cases hup : square.fileName ∈ names
    · obtain rfl : square.fileName = name := by simpa [Square.spelling?, hup] using h
      simp [pathOf, FileTree.exists?, hfind, Except.isOk, Except.toBool]
    · obtain ⟨-, rfl⟩ : square.lowerName ∈ names ∧ square.lowerName = name := by
        simpa [Square.spelling?, hup] using h
      exact pathOf_of_missing hlist hup
  rw [← hpath] at hfind ⊢
  exact load_of_find hfind

/-- A square's path is as short as that of any height file that stands for it. -/
theorem utf8ByteSize_join_le (hd : directory ≠ "") (hheight : isHeightFile name = true) {tile : Tile}
    {storage : Storage} (hload : Tile.load tree storage (Path.join directory name) = .ok tile)
    {other : String} (hother : other.utf8ByteSize = 11) :
    (Path.join directory other).utf8ByteSize ≤ FileTree.maxPath := by
  obtain ⟨node, hfind⟩ := Tile.find_of_load hload
  have hpath := FileTree.utf8ByteSize_le_of_find hfind
  have hsize := utf8ByteSize_of_isHeightFile hd hheight (Tile.load_square hload)
  rw [Path.utf8ByteSize_join] at hpath ⊢
  omega

/-- The one height file in a directory that loads as the tile of its square. -/
structure OnlyHeightFile (tree : FileTree) (directory : String) (names : List String)
    (name : String) (kept : Storage) (tile : Tile) : Prop where
  list : tree.list directory = .ok names
  mem : name ∈ names
  isHeightFile : isHeightFile name = true
  load : Tile.load tree kept (Path.join directory name) = .ok tile
  only : ∀ other ∈ names, TileStore.isHeightFile other = true → ∀ t,
    Tile.load tree kept (Path.join directory other) = .ok t → t.square = tile.square → other = name

/-- **Which height files are used.** Let a directory have one height file that loads as the tile of
a square. A new store answers at the points of the square with the elevations of that file if it
has the spelling that the square is found under. If the directory has something else under that
spelling the lookup fails, and if it has nothing under it there is no data: then the file is
treated as missing. -/
theorem value_of_onlyHeightFile {storage kept : Storage} {tile : Tile} {p : Point}
    (hopen : openDirectory tree directory storage = .ok store)
    (hfile : OnlyHeightFile tree directory names name kept tile) (hp : tile.square.Holds p) :
    (tile.square.spelling? names = some name →
        (store.value tree p).1 = .ok ((tile.elevation? p).map fun e => floatOfInt e.toInt)) ∧
      (∀ other, tile.square.spelling? names = some other → other ≠ name →
        ∃ bytes, (store.value tree p).1 =
          .error (.tile (.size bytes (Path.join directory other)))) ∧
      (tile.square.spelling? names = none → (store.value tree p).1 = .ok none) := by
  have hstore : store.directory = directory := by rw [Session.openDirectory_eq_ok hopen]
  subst hstore
  obtain ⟨hlist, -, hheight, hload, honly⟩ := hfile
  obtain ⟨here, hloc, -, -⟩ := FileTree.list_eq_ok hlist
  obtain ⟨-, hd, -⟩ := FileTree.locate_eq_ok hloc
  have hname := (Square.ofPath?_eq_some (Tile.load_square hload)).2
  rw [value_of_new (Session.loaded_of_openDirectory hopen), Square.containing_of_holds hp]
  refine ⟨fun hs => ?_, fun other hs hne => ?_, fun hs => ?_⟩
  · obtain ⟨t, ht, helevation⟩ := Tile.load_inStorage hload store.storage
    obtain ⟨node, hfind⟩ := Tile.find_of_load hload
    rw [load_of_spelling? hlist hs (FileTree.utf8ByteSize_le_of_find hfind), ht]
    simp only [Except.mapError, Except.map, helevation]
  · have hshort := utf8ByteSize_join_le hd hheight hload (utf8ByteSize_spelling? hname hs)
    obtain ⟨hother, hplain, hlen⟩ := mem_of_spelling? hs
    obtain ⟨node, hfind⟩ := FileTree.find_of_mem hlist hplain hlen hother hshort
    have hsquare := ofPath?_join_spelling? store.directory hname hs
    -- If the other file were the square's tile there would be two.
    have hfails (storage : Storage) :
        Tile.load tree storage (Path.join store.directory other) =
          .error (.size node.size (Path.join store.directory other)) := by
      refine (Tile.load_of_find hsquare hfind).resolve_left ?_
      rintro ⟨t, ht, hsame⟩
      obtain ⟨u, hu, -⟩ := Tile.load_inStorage ht kept
      have hsame : u.square = tile.square :=
        Option.some.inj ((Tile.load_square hu).symm.trans hsquare)
      exact hne (honly other hother (isHeightFile_spelling? hs) u hu hsame)
    rw [load_of_spelling? hlist hs hshort, hfails]
    exact ⟨node.size, rfl⟩
  · obtain ⟨hup, hlow⟩ : tile.square.fileName ∉ names ∧ tile.square.lowerName ∉ names := by
      simpa [Square.spelling?] using hs
    have hshort := utf8ByteSize_join_le hd hheight hload (Square.utf8ByteSize_lowerName hname)
    rw [load_of_missing hlist hup hlow, if_pos hname, if_neg (by omega)]
    simp only [Except.map, Tile.elevation?_void, Option.map_none]

/-- A directory with one file, whose name has the extension in upper case. -/
def loudFile (bytes : ByteArray) : FileTree :=
  ⟨[(["d"], .directory), (["d", "N44W072.HGT"], .file bytes)]⟩

theorem loudFile_value_of_onlyHeightFile :
    openDirectory (loudFile (levelBytes 7)) "d" .inMemory = .ok ⟨"d", .inMemory, []⟩ ∧
    OnlyHeightFile (loudFile (levelBytes 7)) "d" ["N44W072.HGT"] "N44W072.HGT" .inMemory
      (.level ⟨-72, 44⟩ 7) ∧
    (⟨-72, 44⟩ : Square).Holds ⟨-71.5, 44.5⟩ ∧
    (Tile.level ⟨-72, 44⟩ 7).elevation? ⟨-71.5, 44.5⟩ = some 1799 ∧
    ((⟨"d", .inMemory, []⟩ : TileStore).value (loudFile (levelBytes 7)) ⟨-71.5, 44.5⟩).1 =
      .ok none := by
  have hlist (bytes : ByteArray) : (loudFile bytes).list "d" = .ok ["N44W072.HGT"] := by cbv
  have hfind (bytes : ByteArray) :
      (loudFile bytes).find "d/N44W072.HGT" = .ok (.file bytes) := by rfl
  have hopen (bytes : ByteArray) :
      openDirectory (loudFile bytes) "d" .inMemory = .ok ⟨"d", .inMemory, []⟩ := by rfl
  have hfile : OnlyHeightFile (loudFile (levelBytes 7)) "d" ["N44W072.HGT"] "N44W072.HGT"
      .inMemory (.level ⟨-72, 44⟩ 7) :=
    { list := hlist _
      mem := List.mem_singleton_self _
      isHeightFile := by decide +kernel
      load := Tile.load_level (by decide +kernel) (hfind _)
      only := fun other hother _ _ _ _ => List.mem_singleton.1 hother }
  have hx : rat? (-71.5) = some (-143 / 2) := by decide +kernel
  have hy : rat? 44.5 = some (89 / 2) := by decide +kernel
  have hholds : (⟨-72, 44⟩ : Square).Holds ⟨-71.5, 44.5⟩ := by
    refine ⟨_, _, hx, hy, ?_⟩
    have hlon : (-72 : Int16).toInt = -72 := by decide
    have hlat : (44 : Int16).toInt = 44 := by decide
    rw [hlon, hlat]
    norm_num
  have hposition : (Tile.void ⟨-72, 44⟩).position? ⟨-71.5, 44.5⟩ = some (600, 600) := by
    decide +kernel
  have hspelling : (⟨-72, 44⟩ : Square).spelling? ["N44W072.HGT"] = none := by decide +kernel
  refine ⟨hopen _, hfile, hholds, ?_,
    (value_of_onlyHeightFile (hopen _) hfile hholds).2.2 hspelling⟩
  rw [Tile.elevation?_level hposition]
  decide

end TileStore

end Transect
