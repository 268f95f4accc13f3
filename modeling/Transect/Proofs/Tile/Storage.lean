import Transect.Proofs.NameMap
import Transect.Proofs.Tile.Session

/-!
# The two ways to keep samples

A tile answers the same whether its samples are decoded when it is loaded or when they are asked
for. So do a store and a whole session, also when files change while the tiles made of them are
kept: decoding all that a session keeps commutes with every step.
-/

namespace Transect

open Square (containing)

/-! ## Samples in range -/

namespace Tile

variable {t : Tile} {p : Point} {column row : Nat}

theorem step?_lt {r : Resolution} {edge x : Float} {n : Nat} (h : step? r edge x = some n) :
    n < r.side := by
  unfold step? at h
  split at h
  · split at h
    · rename_i hrange
      cases h
      omega
    · cases h
  · cases h

theorem position?_lt (h : t.position? p = some (column, row)) :
    column < t.resolution.side ∧ row < t.resolution.side := by
  unfold position? at h
  cases hx : step? t.resolution t.square.corner.x p.x with
  | none => simp [hx] at h
  | some c =>
    cases hy : step? t.resolution t.square.corner.y p.y with
    | none => simp [hx, hy] at h
    | some r =>
      simp only [hx, hy, Option.bind_eq_bind, Option.bind_some, Option.pure_def, Option.some.injEq,
        Prod.mk.injEq] at h
      obtain ⟨rfl, rfl⟩ := h
      exact ⟨step?_lt hx, step?_lt hy⟩

/-- **No sample beyond the grid is asked for.** -/
theorem index_lt_count (h : t.position? p = some (column, row)) :
    t.index column row < t.resolution.count := by
  obtain ⟨hcolumn, hrow⟩ := position?_lt h
  unfold index Resolution.count
  generalize t.resolution.side = side at *
  calc side * (side - row - 1) + column < side * (side - row - 1) + side := by omega
    _ = side * (side - row - 1 + 1) := by ring
    _ ≤ side * side := Nat.mul_le_mul_left _ (by omega)

end Tile

/-! ## Decoding -/

/-- The samples with the first `count` of them decoded. -/
def Samples.decode (count : Nat) : Samples → Samples
  | .raw bytes => .ofBytes .inMemory count bytes
  | samples => samples

theorem Samples.get_decode {i count : Nat} (h : i < count) (samples : Samples) :
    (samples.decode count).get i = samples.get i := by
  cases samples with
  | void | decoded values => rfl
  | raw bytes => simp [decode, ofBytes, firstSamples, get, h]

theorem Samples.get_ofBytes {i count : Nat} (h : i < count) (storage : Storage)
    (bytes : ByteArray) : (ofBytes storage count bytes).get i = sampleAt bytes i := by
  cases storage with
  | inMemory => exact get_decode h (.raw bytes)
  | mapped => rfl

theorem Samples.decode_ofBytes (storage : Storage) (count : Nat) (bytes : ByteArray) :
    (ofBytes storage count bytes).decode count = ofBytes .inMemory count bytes := by
  cases storage <;> rfl

namespace Tile

def decoded (t : Tile) : Tile := { t with samples := t.samples.decode t.resolution.count }

theorem sample?_decoded (t : Tile) (p : Point) : t.decoded.sample? p = t.sample? p := by
  have hposition : t.decoded.position? p = t.position? p := rfl
  unfold sample?
  rw [hposition]
  cases h : t.position? p with
  | none => rfl
  | some position =>
    obtain ⟨column, row⟩ := position
    exact congrArg some (Samples.get_decode (index_lt_count h) t.samples)

theorem elevation?_decoded (t : Tile) (p : Point) : t.decoded.elevation? p = t.elevation? p := by
  rw [elevation?, elevation?, sample?_decoded]

/-- Loading and then decoding is the same as decoding at once, and fails in the same way. -/
theorem load_decoded (tree : FileTree) (storage : Storage) (path : String) :
    (Tile.load tree storage path).map decoded = Tile.load tree .inMemory path := by
  rw [load_eq, load_eq]
  cases Square.ofPath? path with
  | none => rfl
  | some square =>
    cases tree.find path with
    | error cause => rfl
    | ok node =>
      cases hsize : Resolution.ofSize? node.size with
      | none => simp [hsize, Except.map]
      | some resolution =>
        cases node with
        | directory => simp [hsize, Except.map]
        | file bytes =>
          simp only [hsize, Except.map, decoded, Samples.decode_ofBytes]

/-- Two tiles that nobody can tell apart by their answers. -/
structure Alike (t u : Tile) : Prop where
  square : t.square = u.square
  resolution : t.resolution = u.resolution
  count : t.resolution.count = u.resolution.count
  sample : ∀ p, t.sample? p = u.sample? p
  elevation : ∀ p, t.elevation? p = u.elevation? p

theorem alike_decoded (t : Tile) : t.decoded.Alike t where
  square := rfl
  resolution := rfl
  count := rfl
  sample := t.sample?_decoded
  elevation := t.elevation?_decoded

end Tile

/-! ## Level tiles -/

-- Irreducible, since nothing should ever lay these bytes out.
/-- The bytes of a tile with the same sample everywhere. -/
@[irreducible]
def levelBytes (byte : UInt8) : ByteArray := ⟨.replicate 2884802 byte⟩

theorem size_levelBytes (byte : UInt8) : (levelBytes byte).size = 2884802 := by
  unfold levelBytes
  exact Array.size_replicate

theorem getElem_levelBytes {byte : UInt8} {i : Nat} (h : i < (levelBytes byte).size) :
    (levelBytes byte)[i] = byte := by
  unfold levelBytes at h ⊢
  exact Array.getElem_replicate h

namespace Tile

def level (square : Square) (byte : UInt8) : Tile :=
  ⟨square, .threeSeconds, .ofBytes .inMemory Resolution.threeSeconds.count (levelBytes byte)⟩

variable {square : Square} {byte : UInt8}

theorem load_of_size {tree : FileTree} {storage : Storage} {path : String} {bytes : ByteArray}
    (hname : Square.ofPath? path = some square) (hfind : tree.find path = .ok (.file bytes))
    (h : bytes.size = 2884802) :
    Tile.load tree storage path =
      .ok ⟨square, .threeSeconds, .ofBytes storage Resolution.threeSeconds.count bytes⟩ := by
  have hsize : Resolution.ofSize? (Node.file bytes).size = some .threeSeconds := by
    rw [Node.size, h]
    decide +kernel
  simp only [load_eq, hname, hfind, hsize]

theorem load_level {tree : FileTree} {path : String} (hname : Square.ofPath? path = some square)
    (hfind : tree.find path = .ok (.file (levelBytes byte))) :
    Tile.load tree .inMemory path = .ok (level square byte) :=
  load_of_size hname hfind (size_levelBytes byte)

theorem get_level {i : Nat} (h : i < Resolution.threeSeconds.count) :
    (level square byte).samples.get i = sampleOf byte byte := by
  have hcount : Resolution.threeSeconds.count = 1442401 := by decide +kernel
  have hsize := size_levelBytes byte
  have hget : (level square byte).samples.get i = sampleAt (levelBytes byte) i :=
    Samples.get_ofBytes h .inMemory (levelBytes byte)
  rw [hget, sampleAt, dif_pos (by omega), getElem_levelBytes, getElem_levelBytes]

theorem position?_level (square : Square) (byte : UInt8) (p : Point) :
    (level square byte).position? p = (void square).position? p := rfl

theorem elevation?_level {p : Point} {column row : Nat}
    (h : (void square).position? p = some (column, row)) :
    (level square byte).elevation? p = (some (sampleOf byte byte)).filter (· != voidSample) := by
  rw [← position?_level square byte] at h
  rw [elevation?, sample?, h, Option.map_some]
  simp only [get_level (index_lt_count h)]

end Tile

/-! ## Stores -/

namespace TileStore

/-- The store that keeps the same tiles decoded. -/
def decoded (store : TileStore) : TileStore :=
  ⟨store.directory, .inMemory, store.loaded.map fun entry => (entry.1, entry.2.decoded)⟩

variable (tree : FileTree) (store : TileStore) (square : Square)

theorem load_decoded :
    store.decoded.load tree square = (store.load tree square).map Tile.decoded := by
  have hpath : store.decoded.pathOf tree square = store.pathOf tree square := rfl
  have hstorage : store.decoded.storage = .inMemory := rfl
  unfold load
  rw [hpath, hstorage, ← Tile.load_decoded tree store.storage]
  cases Tile.load tree store.storage (store.pathOf tree square) with
  | ok tile => rfl
  | error cause =>
    cases cause with
    | file cause => cases cause <;> rfl
    | name path | size bytes path => rfl

theorem lookup_decoded :
    store.decoded.loaded.lookup square = (store.loaded.lookup square).map Tile.decoded :=
  lookup_map_snd Tile.decoded store.loaded square

theorem tileAt_decoded :
    store.decoded.tileAt tree square = (store.tileAt tree square).map Tile.decoded := by
  unfold tileAt
  rw [load_decoded, lookup_decoded]
  cases store.loaded.lookup square <;> rfl

theorem keep_decoded : store.decoded.keep tree square = (store.keep tree square).decoded := by
  unfold keep
  rw [load_decoded, lookup_decoded]
  cases store.loaded.lookup square with
  | some tile => rfl
  | none => cases store.load tree square <;> rfl

theorem openDirectory_decoded (directory : String) (storage : Storage) :
    openDirectory tree directory .inMemory =
      (openDirectory tree directory storage).map decoded := by
  unfold openDirectory
  cases tree.list directory with
  | error cause => rfl
  | ok names =>
    simp only [Except.mapError, bind, Except.bind]
    split <;> rfl

end TileStore

/-! ## Sessions -/

/-- The step with the samples kept in the given way. -/
def Step.inStorage (storage : Storage) : Step → Step
  | .openDirectory directory _ => .openDirectory directory storage
  | step => step

def Answer.decoded : Answer → Answer
  | .tile t => .tile t.decoded
  | answer => answer

/-- Two answers that tell the same. -/
def Answer.Alike : Answer → Answer → Prop
  | .done, .done => True
  | .closed, .closed => True
  | .failed c, .failed d => c = d
  | .tile t, .tile u => t.Alike u
  | .value v, .value w => v = w
  | .removed b, .removed c => b = c
  | _, _ => False

theorem Answer.alike_decoded (answer : Answer) : answer.decoded.Alike answer := by
  cases answer with
  | tile t => exact t.alike_decoded
  | done | closed => trivial
  | failed | value | removed => rfl

namespace Session

def decoded (s : Session) : Session := ⟨s.tree, s.store.map TileStore.decoded⟩

theorem step_lookup_decoded {store : TileStore} (s : Session) (hs : s.store = some store)
    {step : Step} {p : Point} {answer : Tile → Answer} (h : step.lookup? = some (p, answer)) :
    s.decoded.step step = ((s.step step).1.decoded, (s.step step).2.decoded) := by
  have hs' : s.decoded.store = some store.decoded := by simp [decoded, hs]
  -- A `get` hands out the tile itself, a `value` only its elevation.
  have hanswer (tile : Tile) : answer tile.decoded = (answer tile).decoded := by
    cases step <;> cases h
    · rfl
    · simp only [Tile.elevation?_decoded]
      rfl
  rw [step_lookup hs' h, step_lookup hs h]
  have htree : s.decoded.tree = s.tree := rfl
  rw [htree, TileStore.tileAt_decoded, TileStore.keep_decoded]
  cases store.tileAt s.tree (containing p) with
  | ok tile => simp only [Except.map, hanswer, decoded, Option.map_some]
  | error cause => rfl

/-- Decoding commutes with every step. -/
theorem step_decoded (s : Session) (step : Step) :
    s.decoded.step (step.inStorage .inMemory) =
      ((s.step step).1.decoded, (s.step step).2.decoded) := by
  cases step with
  | openDirectory directory storage =>
    have htree : s.decoded.tree = s.tree := rfl
    simp only [Step.inStorage, Session.step]
    rw [htree, TileStore.openDirectory_decoded s.tree directory storage]
    cases TileStore.openDirectory s.tree directory storage <;> rfl
  | write | makeDirectory | remove => rfl
  | get p =>
    cases hs : s.store with
    | none => simp [Step.inStorage, Session.step, withStore, decoded, hs, Answer.decoded]
    | some store => exact step_lookup_decoded s hs rfl
  | value p =>
    cases hs : s.store with
    | none => simp [Step.inStorage, Session.step, withStore, decoded, hs, Answer.decoded]
    | some store => exact step_lookup_decoded s hs rfl

theorem run_decoded (s : Session) (steps : List Step) :
    s.decoded.run (steps.map (·.inStorage .inMemory)) =
      ((s.run steps).1.map Answer.decoded, (s.run steps).2.decoded) := by
  induction steps generalizing s with
  | nil => rfl
  | cons step steps ih =>
    simp only [List.map_cons, run, step_decoded, ih]

theorem inStorage_inStorage (storage other : Storage) (step : Step) :
    (step.inStorage storage).inStorage other = step.inStorage other := by
  cases step <;> rfl

/-- **The two ways to keep samples are interchangeable.** Whatever the files are and however they
change, a run that decodes samples when a tile is loaded and one that leaves them as bytes give the
same answers, step by step. -/
theorem run_storages_alike (tree : FileTree) (steps : List Step) :
    List.Forall₂ Answer.Alike
      ((⟨tree, none⟩ : Session).run (steps.map (·.inStorage .inMemory))).1
      ((⟨tree, none⟩ : Session).run (steps.map (·.inStorage .mapped))).1 := by
  have hrun := run_decoded ⟨tree, none⟩ (steps.map (·.inStorage .mapped))
  have hsteps : (steps.map (·.inStorage .mapped)).map (·.inStorage .inMemory) =
      steps.map (·.inStorage .inMemory) := by
    rw [List.map_map]
    exact List.map_congr_left fun step _ => inStorage_inStorage .mapped .inMemory step
  rw [hsteps] at hrun
  have hstart : (⟨tree, none⟩ : Session).decoded = ⟨tree, none⟩ := rfl
  rw [hstart] at hrun
  rw [hrun, List.forall₂_map_left_iff, List.forall₂_same]
  intro answer _
  exact answer.alike_decoded

end Session

end Transect
