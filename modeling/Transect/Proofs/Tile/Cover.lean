import Transect.Proofs.Polyline
import Transect.Proofs.Rounding.Whole
import Transect.Proofs.Tile.HeightFile

/-!
# The tile of a point covers the point

The square of a point is found by rounding down, its sample by rounding the distance from the edge
of the square. The two agree, also a hair below a whole degree, unless the degree is held at a
bound. But then the square has no name, and a store has no tile for it.
-/

namespace Transect

open Square (containing)

variable {x : Float} {a : ℚ} {p : Point}

/-! ## Steps within a degree -/

theorem Resolution.perDegree_le (r : Resolution) : r.perDegree ≤ 3600 := by
  cases r <;> decide

theorem Resolution.rat?_perDegree (r : Resolution) :
    rat? (floatOfNat r.perDegree) = some (r.perDegree : ℚ) := by
  have hdegree : r.perDegree ≤ 2 ^ 53 := r.perDegree_le.trans (by norm_num)
  apply rat?_floatOfNat_of_isFraction (isFraction_natCast hdegree)
  exact_mod_cast hdegree.trans (by norm_num)

theorem Square.rat?_edge (i : Int16) : rat? (floatOfInt i.toInt) = some (i.toInt : ℚ) := by
  apply rat?_floatOfInt_of_small
  have := Square.natAbs_toInt_lt i
  omega

/-- After rounding, the distance from the edge is at most a whole degree, so the step is in the
grid. -/
theorem Tile.step?_of_degree {i : Int16} (r : Resolution) (hx : rat? x = some a)
    (hi : i.toInt ≤ a ∧ a ≤ i.toInt + 1) : ∃ n, step? r (floatOfInt i.toInt) x = some n := by
  have hdegree : r.perDegree ≤ 2 ^ 53 := r.perDegree_le.trans (by norm_num)
  -- A whole degree is a float, so nothing below it is rounded to more than it.
  obtain ⟨d, hd, hd0, hd1⟩ := (isNearest_sub hx (Square.rat?_edge i)).exists_rat? (n := 1)
    (by norm_num) (by linarith) (by push_cast; linarith)
  rw [Nat.cast_one] at hd1
  obtain ⟨c, hc, hc0, hc1⟩ := (isNearest_mul hd r.rat?_perDegree).exists_rat? hdegree
    (mul_nonneg hd0 (Nat.cast_nonneg _)) (mul_le_of_le_one_left (Nat.cast_nonneg _) hd1)
  have hstep : halfUp c < r.side := by
    have := halfUp_mono hc1
    rw [halfUp_natCast] at this
    exact Nat.lt_succ_of_le this
  refine ⟨halfUp c, ?_⟩
  rw [step?, nearest?_of_finite (size?_of_rat? hc hc0)]
  simp [hstep]

/-! ## The square of a point -/

namespace Square

/-- A degree that is not held at a bound is the whole degree below. -/
theorem degree_spec (hx : rat? x = some a) (h : (degree x).toInt.natAbs < 1000) :
    (degree x).toInt ≤ a ∧ a < (degree x).toInt + 1 := by
  have hlo : Int16.minValue.toInt = -32768 := rfl
  have hhi : Int16.maxValue.toInt = 32767 := rfl
  have hdegree : (degree x).toInt = clamp (-32768) 32767 ⌊a⌋ := by
    rw [degree, floorWithin_eq hx, hlo, hhi]
    apply Int16.toInt_ofInt_of_le <;> unfold clamp <;> omega
  rw [hdegree] at h ⊢
  -- The bounds have more than three digits.
  have hfloor : clamp (-32768) 32767 ⌊a⌋ = ⌊a⌋ := by
    unfold clamp at h ⊢
    omega
  rw [hfloor]
  exact ⟨Int.floor_le a, Int.lt_floor_add_one a⟩

/-- A finite point is in its square, if the square has a name. -/
theorem holds_containing (hp : p.Finite) (h : (containing p).HasName) :
    (containing p).Holds p := by
  obtain ⟨x, hx⟩ := isFinite_iff.1 hp.1
  obtain ⟨y, hy⟩ := isFinite_iff.1 hp.2
  obtain ⟨hlat, hlon⟩ := h
  exact ⟨x, y, hx, hy, degree_spec hx hlon, degree_spec hy (hlat.trans (by norm_num))⟩

end Square

theorem Tile.sample?_of_holds {t : Tile} (h : t.square.Holds p) :
    ∃ sample, t.sample? p = some sample := by
  obtain ⟨x, y, hx, hy, hlon, hlat⟩ := h
  obtain ⟨column, hcolumn⟩ := step?_of_degree t.resolution hx ⟨hlon.1, hlon.2.le⟩
  obtain ⟨row, hrow⟩ := step?_of_degree t.resolution hy ⟨hlat.1, hlat.2.le⟩
  have hposition : t.position? p = some (column, row) := by
    simp [position?, Square.corner, hcolumn, hrow]
  rw [sample?, hposition]
  exact ⟨_, rfl⟩

/-! ## What a store keeps -/

namespace TileStore

variable {tree : FileTree} {store : TileStore} {square : Square} {tile : Tile}

/-- Only a square with a name has a tile. -/
theorem hasName_of_load (h : store.load tree square = .ok tile) : square.HasName := by
  by_contra hname
  have hpath := ofPath?_pathOf tree store square
  rw [if_neg hname] at hpath
  have hload : Tile.load tree store.storage (store.pathOf tree square) =
      .error (.name (store.pathOf tree square)) := by
    simp only [Tile.load_eq, hpath]
  unfold load at h
  rw [hload] at h
  cases h

/-- Only squares with names are kept. -/
def Named (store : TileStore) : Prop := ∀ entry ∈ store.loaded, entry.1.HasName

theorem hasName_of_tileAt (hn : store.Named) (h : store.tileAt tree square = .ok tile) :
    square.HasName := by
  unfold tileAt at h
  split at h
  · rename_i kept hlookup
    obtain ⟨before, after, hloaded, -⟩ := List.lookup_eq_some_iff.1 hlookup
    exact hn (square, kept) (by simp [hloaded])
  · exact hasName_of_load h

theorem square_of_tileAt (hs : store.Sound) (h : store.tileAt tree square = .ok tile) :
    tile.square = square := by
  unfold tileAt at h
  split at h
  · rename_i kept hlookup
    cases h
    exact hs.square _ (hs.lookup_eq_some_iff.1 hlookup)
  · exact load_square h

/-- The tile of a finite point has a sample there. -/
theorem sample?_of_tileAt (hs : store.Sound) (hn : store.Named) (hp : p.Finite)
    (h : store.tileAt tree (containing p) = .ok tile) :
    ∃ sample, tile.sample? p = some sample := by
  apply Tile.sample?_of_holds
  rw [square_of_tileAt hs h]
  exact Square.holds_containing hp (hasName_of_tileAt hn h)

theorem elevation?_eq_none_iff {sample : Int16} (h : tile.sample? p = some sample) :
    tile.elevation? p = none ↔ sample = voidSample := by
  simp [Tile.elevation?, h, Option.filter_eq_none_iff]

end TileStore

namespace Session

variable {s : Session} {store : TileStore} {step : Step}

theorem step_named (hs : s.store = some store) (hk : step.keepsStore = true) (h : store.Named) :
    ∃ next, (s.step step).2.store = some next ∧ next.Named := by
  rcases step_store_cases hs hk with hsame | ⟨p, answer, tile, -, -, hload, hnext⟩
  · exact ⟨store, hsame, h⟩
  · refine ⟨_, hnext, ?_⟩
    intro entry hentry
    rcases List.mem_cons.1 hentry with rfl | hentry
    · exact TileStore.hasName_of_load hload
    · exact h entry hentry

theorem after_named (hs : s.store = some store) (h : store.Named) (steps : List Step)
    (hk : ∀ step ∈ steps, step.keepsStore = true) :
    ∃ last, (s.after steps).store = some last ∧ last.Named := by
  induction steps generalizing s store with
  | nil =>
    rw [after_nil]
    exact ⟨store, hs, h⟩
  | cons step steps ih =>
    rw [after_cons]
    obtain ⟨next, hnext, hnamed⟩ := step_named hs (hk step List.mem_cons_self) h
    exact ih hnext hnamed fun step hstep => hk step (List.mem_cons_of_mem _ hstep)

/-- **The tile of a finite point covers it**, at every moment of every run of a store that has been
opened and whatever the files are. So there is no elevation only where the sample is void, as it is
everywhere in a square without a file. -/
theorem after_covers {tree : FileTree} {directory : String} {storage : Storage} {opened : TileStore}
    (h : TileStore.openDirectory tree directory storage = .ok opened) (before : List Step)
    (hk : ∀ step ∈ before, step.keepsStore = true) :
    ∃ store, ((⟨tree, some opened⟩ : Session).after before).store = some store ∧
      ∀ (files : FileTree) (p : Point), p.Finite →
        (∀ tile, (store.get files p).1 = .ok tile → ∃ sample, tile.sample? p = some sample) ∧
        ((store.value files p).1 = .ok none ↔
          ∃ tile, (store.get files p).1 = .ok tile ∧ tile.sample? p = some voidSample) := by
  have hempty := loaded_of_openDirectory h
  have hnamed : opened.Named := by simp [TileStore.Named, hempty]
  obtain ⟨store, hstore, hsound, -⟩ :=
    after_sound (s := ⟨tree, some opened⟩) rfl (TileStore.sound_of_loaded_nil hempty) before hk
  obtain ⟨store', hstore', hn⟩ := after_named (s := ⟨tree, some opened⟩) rfl hnamed before hk
  rw [hstore] at hstore'
  cases hstore'
  refine ⟨store, hstore, ?_⟩
  intro files p hp
  rw [TileStore.get_eq, TileStore.value_eq]
  cases htile : store.tileAt files (containing p) with
  | error cause => simp [Except.map]
  | ok tile =>
    obtain ⟨sample, hsample⟩ := TileStore.sample?_of_tileAt hsound hn hp htile
    constructor
    · rintro _ ⟨rfl⟩
      exact ⟨sample, hsample⟩
    · simp [Except.map, hsample, TileStore.elevation?_eq_none_iff hsample]

/-- A run in which a void tile is kept before its square gets a file. -/
def lateFileSteps : List Step := [.value ⟨7.5, 46.5⟩, .write "d/N46E007.hgt" .empty]

theorem store_lateFileSteps :
    ((⟨shortTile, some ⟨"d", .mapped, []⟩⟩ : Session).after lateFileSteps).store =
      some ⟨"d", .mapped, [(⟨7, 46⟩, .void ⟨7, 46⟩)]⟩ := by
  unfold lateFileSteps
  rfl

/-- A hair west of a whole degree, where the offset from the edge is rounded up to a degree. -/
theorem lateFile_after_covers :
    TileStore.openDirectory shortTile "d" .mapped = .ok ⟨"d", .mapped, []⟩ ∧
    (∀ step ∈ lateFileSteps, step.keepsStore = true) ∧ (⟨-1e-20, 44.5⟩ : Point).Finite ∧
    ∃ store tile, ((⟨shortTile, some ⟨"d", .mapped, []⟩⟩ : Session).after
        lateFileSteps).store = some store ∧
      (store.get shortTile ⟨-1e-20, 44.5⟩).1 = .ok tile ∧
      (∃ sample, tile.sample? ⟨-1e-20, 44.5⟩ = some sample) ∧
      ((store.value shortTile ⟨-1e-20, 44.5⟩).1 = .ok none ↔
        ∃ tile, (store.get shortTile ⟨-1e-20, 44.5⟩).1 = .ok tile ∧
          tile.sample? ⟨-1e-20, 44.5⟩ = some voidSample) := by
  have hopen : TileStore.openDirectory shortTile "d" .mapped = .ok ⟨"d", .mapped, []⟩ := by cbv
  have hk : ∀ step ∈ lateFileSteps, step.keepsStore = true := by decide
  have hfinite : (⟨-1e-20, 44.5⟩ : Point).Finite := by decide +kernel
  obtain ⟨store, hstore, hcovers⟩ := after_covers hopen lateFileSteps hk
  rw [store_lateFileSteps] at hstore
  cases hstore
  have hsquare : containing ⟨-1e-20, 44.5⟩ = ⟨-1, 44⟩ := by decide +kernel
  have hget : (TileStore.get shortTile ⟨-1e-20, 44.5⟩
      ⟨"d", .mapped, [(⟨7, 46⟩, .void ⟨7, 46⟩)]⟩).1 = .ok (.void ⟨-1, 44⟩) := by
    rw [TileStore.get_eq, hsquare]
    rfl
  obtain ⟨hsample, hvoid⟩ := hcovers shortTile ⟨-1e-20, 44.5⟩ hfinite
  exact ⟨hopen, hk, hfinite, _, _, store_lateFileSteps, hget, hsample _ hget, hvoid⟩

end Session

end Transect
