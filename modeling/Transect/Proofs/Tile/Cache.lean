import Transect.Proofs.Tile.Loading
import Transect.Tile.Store

/-!
# The tiles that a store keeps

While the files stay as they are, the tile of a square is the same whatever was asked for before:
the one that is kept, or else the one that would be loaded now. A lookup keeps one more tile or
changes nothing, and a tile is kept under the square that its file is named for.
-/

namespace Transect

open Square (containing)

namespace TileStore

variable {tree : FileTree} {store : TileStore} {square : Square} {p : Point} {tile : Tile}

theorem ofPath?_pathOf (tree : FileTree) (store : TileStore) (square : Square) :
    Square.ofPath? (store.pathOf tree square) = if square.HasName then some square else none := by
  unfold pathOf
  simp only
  split
  · exact square.ofPath?_join_fileName store.directory
  · exact square.ofPath?_join_lowerName store.directory

theorem load_square (h : store.load tree square = .ok tile) : tile.square = square := by
  unfold load at h
  split at h
  · rename_i loaded hload
    cases h
    have hs := Tile.load_square hload
    rw [ofPath?_pathOf] at hs
    split at hs
    · exact (Option.some.inj hs).symm
    · cases hs
  · cases h
    rfl
  · cases h

theorem load_of_tile
    (h : Tile.load tree store.storage (store.pathOf tree square) = .ok tile) :
    store.load tree square = .ok tile := by
  unfold load
  rw [h]

/-! ## Lookups -/

/-- The tile of a square: the one that is kept, or else the one that would be loaded. -/
def tileAt (tree : FileTree) (store : TileStore) (square : Square) : Except Error Tile :=
  match store.loaded.lookup square with
  | some tile => .ok tile
  | none => store.load tree square

/-- The store with the tile of a square kept, if there is one and it is not kept yet. -/
def keep (tree : FileTree) (store : TileStore) (square : Square) : TileStore :=
  match store.loaded.lookup square, store.load tree square with
  | none, .ok tile => { store with loaded := (square, tile) :: store.loaded }
  | _, _ => store

theorem get_eq (tree : FileTree) (p : Point) (store : TileStore) :
    store.get tree p = (store.tileAt tree (containing p), store.keep tree (containing p)) := by
  simp only [get, tileAt, keep]
  cases hl : store.loaded.lookup (containing p) with
  | some tile => rfl
  | none =>
    cases hload : store.load tree (containing p) with
    | ok tile => simp
    | error cause => simp

theorem value_eq (tree : FileTree) (p : Point) (store : TileStore) :
    store.value tree p =
      ((store.tileAt tree (containing p)).map fun t =>
        (t.elevation? p).map fun e => floatOfInt e.toInt, store.keep tree (containing p)) := by
  rw [value, get_eq]

/-- A store that keeps nothing yet has to load the tile. -/
theorem value_of_new (h : store.loaded = []) (tree : FileTree) (p : Point) :
    (store.value tree p).1 = (store.load tree (containing p)).map fun t =>
      (t.elevation? p).map fun e => floatOfInt e.toInt := by
  rw [value_eq, tileAt, h, List.lookup_nil]

theorem keep_cases (tree : FileTree) (store : TileStore) (square : Square) :
    store.keep tree square = store ∨
      ∃ tile, store.loaded.lookup square = none ∧ store.load tree square = .ok tile ∧
        store.keep tree square = { store with loaded := (square, tile) :: store.loaded } := by
  unfold keep
  split
  · rename_i tile hnone hload
    exact .inr ⟨tile, hnone, hload, rfl⟩
  · exact .inl rfl

theorem load_congr (tree : FileTree) (store other : TileStore) (square : Square)
    (hd : other.directory = store.directory) (hs : other.storage = store.storage) :
    other.load tree square = store.load tree square := by
  unfold load pathOf
  rw [hd, hs]

theorem lookup_keep (h : store.tileAt tree square = .ok tile) :
    (store.keep tree square).loaded.lookup square = some tile := by
  unfold tileAt at h
  cases hl : store.loaded.lookup square with
  | some kept =>
    rw [hl] at h
    cases h
    simp [keep, hl]
  | none =>
    rw [hl] at h
    simp only at h
    simp [keep, hl, h]

theorem keep_of_error {cause : Error} (h : store.tileAt tree square = .error cause) :
    store.keep tree square = store := by
  unfold tileAt at h
  cases hl : store.loaded.lookup square with
  | some kept =>
    rw [hl] at h
    cases h
  | none =>
    rw [hl] at h
    simp only at h
    simp [keep, hl, h]

/-- **Transparency.** No lookup changes the tile of any square. -/
theorem tileAt_keep (tree : FileTree) (store : TileStore) (asked square : Square) :
    (store.keep tree asked).tileAt tree square = store.tileAt tree square := by
  rcases keep_cases tree store asked with h | ⟨tile, hnone, hload, h⟩
  · rw [h]
  · rw [h, tileAt, tileAt]
    by_cases heq : square = asked
    · subst heq
      simp [hnone, hload]
    · have hne : (square == asked) = false := by simpa using heq
      have hload := load_congr tree store { store with loaded := (asked, tile) :: store.loaded }
        square rfl rfl
      rw [hload, List.lookup_cons, hne]

/-! ## The entries -/

/-- Every square has one tile, which is a tile of that square. -/
structure Sound (store : TileStore) : Prop where
  once : (store.loaded.map (·.1)).Nodup
  square : ∀ entry ∈ store.loaded, entry.2.square = entry.1

theorem sound_of_loaded_nil (h : store.loaded = []) : store.Sound := by
  constructor <;> simp [h]

theorem Sound.keep (h : store.Sound) (tree : FileTree) (square : Square) :
    (store.keep tree square).Sound := by
  rcases keep_cases tree store square with heq | ⟨tile, hnone, hload, heq⟩
  · rwa [heq]
  · rw [heq]
    refine ⟨?_, ?_⟩
    · rw [List.map_cons, List.nodup_cons]
      refine ⟨fun hmem => ?_, h.once⟩
      obtain ⟨entry, hentry, rfl⟩ := List.mem_map.1 hmem
      have := List.lookup_eq_none_iff.1 hnone entry hentry
      simp at this
    · rintro entry hentry
      rcases List.mem_cons.1 hentry with rfl | hentry
      · exact load_square hload
      · exact h.square entry hentry

theorem Sound.lookup_eq_some_iff (h : store.Sound) :
    store.loaded.lookup square = some tile ↔ (square, tile) ∈ store.loaded := by
  rw [List.lookup_eq_some_iff]
  constructor
  · rintro ⟨l₁, l₂, heq, -⟩
    rw [heq]
    exact List.mem_append_right _ List.mem_cons_self
  · intro hmem
    obtain ⟨l₁, l₂, heq⟩ := List.append_of_mem hmem
    refine ⟨l₁, l₂, heq, fun entry hentry => ?_⟩
    have honce := h.once
    rw [heq, List.map_append, List.nodup_append] at honce
    simpa using Ne.symm (honce.2.2 _ (List.mem_map_of_mem hentry) _ (by simp))

end TileStore

end Transect
