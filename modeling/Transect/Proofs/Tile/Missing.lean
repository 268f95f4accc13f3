import Transect.Proofs.FileTree
import Transect.Proofs.Tile.Cache

/-!
# Squares without a file

A square without a file is void, if it has a name of the usual length and the path of its file is
not too long. Otherwise the lookup fails.
-/

namespace Transect

open Square (containing)

theorem Tile.elevation?_void (square : Square) (p : Point) :
    (Tile.void square).elevation? p = none := by
  unfold elevation? sample?
  cases (Tile.void square).position? p with
  | none => rfl
  | some position => rfl

namespace TileStore

variable {tree : FileTree} {store : TileStore} {square : Square} {names : List String} {p : Point}

theorem find_of_missing {name : String} (h : tree.list store.directory = .ok names)
    (hplain : Path.Plain name) (hlen : name.utf8ByteSize ≤ FileTree.maxName)
    (hname : name ∉ names) :
    tree.find (Path.join store.directory name) =
      .error (if FileTree.maxPath < (Path.join store.directory name).utf8ByteSize
        then .nameTooLong else .notFound) := by
  obtain ⟨here, hloc, hdir, rfl⟩ := FileTree.list_eq_ok h
  have hslash : name ≠ "/" := by
    rintro rfl
    exact hplain.noSlash (by decide)
  rw [FileTree.find_join hplain hloc hdir hlen,
    FileTree.node?_eq_none_of_not_mem hname hplain.ne_dotdot hslash]
  split <;> rfl

theorem pathOf_of_missing (h : tree.list store.directory = .ok names)
    (hup : square.fileName ∉ names) :
    store.pathOf tree square = Path.join store.directory square.lowerName := by
  have hlen : square.fileName.utf8ByteSize ≤ FileTree.maxName :=
    Nat.le_trans square.utf8ByteSize_fileName_le (by decide)
  have hfind := find_of_missing h square.plain_fileName hlen hup
  simp [pathOf, FileTree.exists?, hfind, Except.isOk, Except.toBool]

theorem load_of_missing (h : tree.list store.directory = .ok names)
    (hup : square.fileName ∉ names) (hlow : square.lowerName ∉ names) :
    store.load tree square =
      if square.HasName then
        if FileTree.maxPath < (Path.join store.directory square.lowerName).utf8ByteSize then
          .error (.tile (.file .nameTooLong))
        else .ok (.void square)
      else .error (.tile (.name (Path.join store.directory square.lowerName))) := by
  have hlen : square.lowerName.utf8ByteSize ≤ FileTree.maxName :=
    Nat.le_trans square.utf8ByteSize_lowerName_le (by decide)
  have hfind := find_of_missing h square.plain_lowerName hlen hlow
  have hpath := Square.ofPath?_join_lowerName store.directory square
  unfold load
  rw [pathOf_of_missing h hup, Tile.load_eq, hpath, hfind]
  by_cases hname : square.HasName
  · rw [if_pos hname, if_pos hname]
    by_cases hlong : FileTree.maxPath < (Path.join store.directory square.lowerName).utf8ByteSize
    · rw [if_pos hlong, if_pos hlong]
    · rw [if_neg hlong, if_neg hlong]
  · rw [if_neg hname, if_neg hname]

/-- **No file, no data.** A lookup in a square without a file answers with the tile that is kept.
If there is none, it finds no data, unless the square has no name of the usual length or the path
of its file is too long. -/
theorem value_of_missing (h : tree.list store.directory = .ok names)
    (hup : (containing p).fileName ∉ names) (hlow : (containing p).lowerName ∉ names) :
    (store.value tree p).1 =
      match store.loaded.lookup (containing p) with
      | some tile => .ok ((tile.elevation? p).map fun e => floatOfInt e.toInt)
      | none =>
        if (containing p).HasName then
          if FileTree.maxPath <
              (Path.join store.directory (containing p).lowerName).utf8ByteSize then
            .error (.tile (.file .nameTooLong))
          else .ok none
        else .error (.tile (.name (Path.join store.directory (containing p).lowerName))) := by
  rw [value_eq, tileAt]
  cases hl : store.loaded.lookup (containing p) with
  | some tile => rfl
  | none =>
    simp only [load_of_missing h hup hlow]
    split
    · split
      · rfl
      · simp only [Except.map, Tile.elevation?_void, Option.map_none]
    · rfl

/-- A directory with one file that is named for no square. -/
def strayFile : FileTree := ⟨[(["d"], .directory), (["d", "x.hgt"], .file .empty)]⟩

theorem strayFile_value_of_missing :
    strayFile.list "d" = .ok ["x.hgt"] ∧ (containing ⟨1, 100⟩).fileName ∉ ["x.hgt"] ∧
    (containing ⟨1, 100⟩).lowerName ∉ ["x.hgt"] ∧
    ((⟨"d", .inMemory, []⟩ : TileStore).value strayFile ⟨1, 100⟩).1 =
      .error (.tile (.name "d/n100e001.hgt")) := by
  have hlist : strayFile.list "d" = .ok ["x.hgt"] := by cbv
  have hup : (containing ⟨1, 100⟩).fileName ∉ ["x.hgt"] := by decide +kernel
  have hlow : (containing ⟨1, 100⟩).lowerName ∉ ["x.hgt"] := by decide +kernel
  refine ⟨hlist, hup, hlow, ?_⟩
  have hvalue : ((⟨"d", .inMemory, []⟩ : TileStore).value strayFile ⟨1, 100⟩).1 = _ :=
    value_of_missing hlist hup hlow
  have hname : ¬ (containing ⟨1, 100⟩).HasName := by decide +kernel
  have hpath : Path.join "d" (containing ⟨1, 100⟩).lowerName = "d/n100e001.hgt" := by
    decide +kernel
  rw [hvalue, List.lookup_nil]
  simp only [if_neg hname, hpath]

end TileStore

end Transect
