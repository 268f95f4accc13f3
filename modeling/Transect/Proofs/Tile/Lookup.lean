import Transect.Proofs.Distance
import Transect.Proofs.Tile.Cover

/-!
# A tile answers with the nearest sample

Rounding moves the offset of a coordinate from the edge of the square by a tiny part of a step
before the step nearest to it is taken. So the sample that is found is the nearest one, or as good
as the nearest, and it is read from the place in the file where the sample lies.
-/

namespace Transect

open Float.Model.UnpackedFloat

variable {x : Float} {a c v : ℚ} {p : Point} {n side : ℕ} {i : Int16} {r : Resolution}

/-! ## The nearest step -/

/-- How far the nearest step may be away, in steps. The smaller part is what rounding adds. -/
def reach : ℚ := 1 / 2 + 1 / 2 ^ 40

/-- The exact distance from the edge of a square, in steps of which a degree has `side - 1`. -/
def offset (side : ℕ) (edge : Int16) (a : ℚ) : ℚ := (a - edge.toInt) * (side - 1)

theorem abs_halfUp_sub_le (hv : 0 ≤ v) : |(halfUp v : ℚ) - v| ≤ 1 / 2 := by
  have hlow := Nat.floor_le (show 0 ≤ v + 1 / 2 by linarith)
  have hhigh := Nat.lt_floor_add_one (v + 1 / 2)
  rw [halfUp, abs_le]
  constructor <;> linarith

/-- Only a finite float has a nearest whole number, and it is at most a half away. -/
theorem exists_rat?_of_nearest? {k : ℤ} (h : nearest? x = some k) :
    ∃ a, rat? x = some a ∧ |(k : ℚ) - a| ≤ 1 / 2 := by
  unfold nearest? at h
  unfold rat?
  cases hu : unpack x with
  | notANumber | infinity s => simp [hu] at h
  | zero s =>
    rw [hu] at h
    cases h
    exact ⟨0, rfl, by norm_num⟩
  | finite s m e hm =>
    rw [hu] at h
    cases h
    have hhalf := abs_halfUp_sub_le (mul_two_zpow_pos hm e).le
    rw [← Binary.nearest_eq ⟨m, e⟩] at hhalf
    refine ⟨_, rfl, ?_⟩
    cases s with
    | positive => simpa [Sign.apply, withSign] using hhalf
    | negative =>
      rw [← abs_neg]
      simpa [Sign.apply, withSign, neg_add_eq_sub] using hhalf

/-- What is rounded to a float below a whole number is below it. -/
theorem abs_lt_of_abs_nearestFloat_lt (hn : n ≤ 2 ^ 53) (h : |nearestFloat v| < n) : |v| < n := by
  by_contra hle
  have hfraction := (isFraction_natCast hn).le_nearestFloat (not_lt.1 hle)
  rw [← abs_nearestFloat] at hfraction
  exact absurd h (not_lt.2 hfraction)

/-- Rounding the distance from the edge and then the product moves an offset by very little. -/
theorem abs_rounded_product_sub_le {degree : ℕ} (hmin : 1 ≤ degree) (hmax : degree ≤ 3600)
    (h : |nearestFloat (nearestFloat v * degree)| < (2 * degree : ℕ)) :
    |nearestFloat (nearestFloat v * degree) - v * degree| ≤ 1 / 2 ^ 40 := by
  have hproduct := abs_lt_of_abs_nearestFloat_lt (by omega) h
  have hpos : (0 : ℚ) < degree := by exact_mod_cast hmin
  have hsmall : (degree : ℚ) ≤ 3600 := by exact_mod_cast hmax
  have hdistance : |nearestFloat v| < (2 : ℕ) := by
    rw [abs_mul, abs_of_pos hpos, Nat.cast_mul] at hproduct
    exact lt_of_mul_lt_mul_right hproduct hpos.le
  have hexact := abs_lt_of_abs_nearestFloat_lt (by norm_num) hdistance
  have hfirst : |nearestFloat v - v| ≤ 2 ^ (1 - 54 : ℤ) :=
    abs_nearestFloat_sub_le_of_lt (by norm_num) (by simpa using hexact)
  have hsecond : |nearestFloat (nearestFloat v * degree) - nearestFloat v * degree| ≤
      2 ^ (13 - 54 : ℤ) := by
    apply abs_nearestFloat_sub_le_of_lt (by norm_num) (hproduct.trans_le _)
    push_cast
    linarith
  have hscaled : |(nearestFloat v - v) * degree| ≤ 2 ^ (1 - 54 : ℤ) * 3600 := by
    rw [abs_mul, abs_of_pos hpos]
    exact mul_le_mul hfirst hsmall hpos.le (two_zpow_pos _).le
  calc |nearestFloat (nearestFloat v * degree) - v * degree|
      = |(nearestFloat (nearestFloat v * degree) - nearestFloat v * degree) +
          (nearestFloat v - v) * degree| := by ring_nf
    _ ≤ 2 ^ (13 - 54 : ℤ) + 2 ^ (1 - 54 : ℤ) * 3600 :=
      (abs_add_le _ _).trans (add_le_add hsecond hscaled)
    _ ≤ 1 / 2 ^ 40 := by norm_num

namespace Resolution

theorem one_le_perDegree (r : Resolution) : 1 ≤ r.perDegree := by
  cases r <;> decide

theorem offset_side (r : Resolution) (edge : Int16) (a : ℚ) :
    offset r.side edge a = (a - edge.toInt) * r.perDegree := by
  rw [offset, side]
  push_cast
  ring

end Resolution

namespace Tile

/-- A step that is found is one of the grid and within reach. -/
theorem step?_near (h : step? r (floatOfInt i.toInt) x = some n) :
    ∃ a, rat? x = some a ∧ n < r.side ∧ |offset r.side i a - n| ≤ reach := by
  have hside := step?_lt h
  unfold step? at h
  cases hnearest : nearest? ((x - floatOfInt i.toInt) * floatOfNat r.perDegree) with
  | none => simp [hnearest] at h
  | some k =>
    simp only [hnearest] at h
    split_ifs at h with hk
    cases h
    obtain ⟨c, hc, hhalf⟩ := exists_rat?_of_nearest? hnearest
    obtain ⟨d, hd⟩ := exists_rat?_of_mul hc
    obtain ⟨a, ha⟩ := exists_rat?_of_sub hd
    obtain rfl := (isNearest_sub ha (Square.rat?_edge i)).eq_nearestFloat hd
    obtain rfl := (isNearest_mul hd r.rat?_perDegree).eq_nearestFloat hc
    have hcount : ((k.toNat : ℕ) : ℚ) = k := by exact_mod_cast Int.toNat_of_nonneg hk.1
    refine ⟨a, ha, hside, ?_⟩
    rw [r.offset_side, hcount]
    have hrange : |nearestFloat (nearestFloat (a - i.toInt) * r.perDegree)| <
        (2 * r.perDegree : ℕ) := by
      have hk0 : (0 : ℚ) ≤ k := by exact_mod_cast hk.1
      have hk1 : (k : ℚ) ≤ r.perDegree := by
        have : k ≤ r.perDegree := Int.lt_add_one_iff.1 hk.2
        exact_mod_cast this
      have hdegree : (1 : ℚ) ≤ r.perDegree := by exact_mod_cast r.one_le_perDegree
      rw [abs_le] at hhalf
      rw [abs_lt]
      push_cast
      constructor <;> linarith
    have herror := abs_rounded_product_sub_le r.one_le_perDegree r.perDegree_le hrange
    rw [abs_le] at hhalf herror ⊢
    unfold reach
    constructor <;> linarith

/-! ## Points of a tile -/

theorem position?_eq_some_iff {t : Tile} {column row : ℕ} :
    t.position? p = some (column, row) ↔
      step? t.resolution t.square.corner.x p.x = some column ∧
        step? t.resolution t.square.corner.y p.y = some row := by
  unfold position?
  cases step? t.resolution t.square.corner.x p.x <;>
    cases step? t.resolution t.square.corner.y p.y <;> simp

theorem sample?_eq_some_iff {t : Tile} {v : Int16} :
    t.sample? p = some v ↔
      ∃ column row, t.position? p = some (column, row) ∧
        t.samples.get (t.index column row) = v := by
  simp [sample?]

/-- More than the reach of a step away from the square. -/
def IsFar (side : ℕ) (edge : Int16) (a : ℚ) : Prop :=
  offset side edge a < -reach ∨ side - 1 + reach < offset side edge a

theorem not_isFar_of_near (hn : n < side) (h : |offset side i a - n| ≤ reach) :
    ¬ IsFar side i a := by
  have hn0 : (0 : ℚ) ≤ n := Nat.cast_nonneg n
  have hn1 : (n : ℚ) + 1 ≤ side := by exact_mod_cast hn
  rw [abs_le] at h
  rintro (hfar | hfar) <;> linarith

/-- A tile of `side` rows and columns that answers with the nearest of its samples. `IsSample` tells
what the samples are, counted from the northwest corner and row by row. -/
structure AnswersNearest (t : Tile) (side : ℕ) (IsSample : ℕ → Int16 → Prop) : Prop where
  near : ∀ p v, t.sample? p = some v → ∃ x y, rat? p.x = some x ∧ rat? p.y = some y ∧
    ∃ column row, column < side ∧ row < side ∧ |offset side t.square.lon x - column| ≤ reach ∧
      |offset side t.square.lat y - row| ≤ reach ∧ IsSample (side * (side - 1 - row) + column) v
  inside : ∀ p x y, rat? p.x = some x → rat? p.y = some y →
    t.square.lon.toInt ≤ x → x ≤ t.square.lon.toInt + 1 →
    t.square.lat.toInt ≤ y → y ≤ t.square.lat.toInt + 1 → ∃ v, t.sample? p = some v
  notFinite : ∀ p, ¬ p.Finite → t.sample? p = none
  far : ∀ p a, rat? p.x = some a ∧ IsFar side t.square.lon a ∨
    rat? p.y = some a ∧ IsFar side t.square.lat a → t.sample? p = none
  elevation : ∀ p v, t.elevation? p = some v ↔ t.sample? p = some v ∧ v.toInt ≠ -32768

theorem eq_voidSample_iff {v : Int16} : v = voidSample ↔ v.toInt = -32768 := by
  have hvoid : voidSample.toInt = -32768 := rfl
  rw [← hvoid, Int16.toInt_inj]

theorem answersNearest {t : Tile} {IsSample : ℕ → Int16 → Prop}
    (hs : ∀ k < t.resolution.count, IsSample k (t.samples.get k)) :
    t.AnswersNearest t.resolution.side IsSample := by
  have hnear {p : Point} {v : Int16} (h : t.sample? p = some v) :
      ∃ x y, rat? p.x = some x ∧ rat? p.y = some y ∧
        ∃ column row, column < t.resolution.side ∧ row < t.resolution.side ∧
          |offset t.resolution.side t.square.lon x - column| ≤ reach ∧
          |offset t.resolution.side t.square.lat y - row| ≤ reach ∧
          IsSample (t.resolution.side * (t.resolution.side - 1 - row) + column) v := by
    obtain ⟨column, row, hposition, rfl⟩ := sample?_eq_some_iff.1 h
    obtain ⟨hcolumn, hrow⟩ := position?_eq_some_iff.1 hposition
    obtain ⟨x, hx, hcolumn, hlon⟩ := step?_near hcolumn
    obtain ⟨y, hy, hrow, hlat⟩ := step?_near hrow
    refine ⟨x, y, hx, hy, column, row, hcolumn, hrow, hlon, hlat, ?_⟩
    rw [Nat.sub_right_comm]
    exact hs _ (index_lt_count hposition)
  constructor
  case near => exact fun p v h => hnear h
  case inside =>
    intro p x y hx hy hwest heast hsouth hnorth
    obtain ⟨column, hcolumn⟩ := step?_of_degree t.resolution hx ⟨hwest, heast⟩
    obtain ⟨row, hrow⟩ := step?_of_degree t.resolution hy ⟨hsouth, hnorth⟩
    exact ⟨_, sample?_eq_some_iff.2
      ⟨column, row, position?_eq_some_iff.2 ⟨hcolumn, hrow⟩, rfl⟩⟩
  case notFinite =>
    intro p hp
    rw [Option.eq_none_iff_forall_ne_some]
    intro v hv
    obtain ⟨x, y, hx, hy, -⟩ := hnear hv
    exact hp ⟨isFinite_iff.2 ⟨x, hx⟩, isFinite_iff.2 ⟨y, hy⟩⟩
  case far =>
    intro p a hfar
    rw [Option.eq_none_iff_forall_ne_some]
    intro v hv
    obtain ⟨x, y, hx, hy, column, row, hcolumn, hrow, hlon, hlat, -⟩ := hnear hv
    rcases hfar with ⟨ha, hfar⟩ | ⟨ha, hfar⟩
    · cases hx.symm.trans ha
      exact not_isFar_of_near hcolumn hlon hfar
    · cases hy.symm.trans ha
      exact not_isFar_of_near hrow hlat hfar
  case elevation =>
    intro p v
    simp [elevation?, Option.filter_eq_some_iff, eq_voidSample_iff]

/-! ## Samples of a file -/

/-- The two bytes from a place in a file on, the high one first, as a number with a sign. -/
def IsBigEndian (bytes : ByteArray) (place : ℕ) (v : Int16) : Prop :=
  ∃ h : place + 1 < bytes.size,
    v.toInt = Int.bmod (256 * bytes[place].toNat + bytes[place + 1].toNat : ℕ) (2 ^ 16)

theorem toInt_sampleOf (high low : UInt8) :
    (sampleOf high low).toInt = Int.bmod (256 * high.toNat + low.toNat : ℕ) (2 ^ 16) := by
  have hlow := low.toNat_lt
  have hhigh := high.toNat_lt
  have hword : (high.toUInt16 <<< 8 ||| low.toUInt16).toNat = 256 * high.toNat + low.toNat := by
    have hshift : (high.toUInt16 <<< 8).toNat = high.toNat <<< 8 := by
      rw [UInt16.toNat_shiftLeft, UInt8.toNat_toUInt16]
      change (high.toNat <<< 8) % 2 ^ 16 = _
      rw [Nat.shiftLeft_eq]
      omega
    rw [UInt16.toNat_or, hshift, UInt8.toNat_toUInt16, ← Nat.shiftLeft_add_eq_or_of_lt hlow,
      Nat.shiftLeft_eq, Nat.mul_comm]
  rw [← hword]
  exact BitVec.toInt_eq_toNat_bmod _

theorem isBigEndian_sampleAt {bytes : ByteArray} {k : ℕ} (h : 2 * k + 1 < bytes.size) :
    IsBigEndian bytes (2 * k) (sampleAt bytes k) := by
  refine ⟨h, ?_⟩
  rw [sampleAt, dif_pos h, toInt_sampleOf]

theorem side_cases (r : Resolution) : r.side = 1201 ∨ r.side = 3601 := by
  cases r <;> decide +kernel

/-- A tile that is loaded is made of a file of one of the two sizes. -/
theorem load_eq_ok {tree : FileTree} {storage : Storage} {path : String} {tile : Tile}
    (h : Tile.load tree storage path = .ok tile) :
    ∃ bytes, tree.find path = .ok (.file bytes) ∧
      Resolution.ofSize? bytes.size = some tile.resolution ∧
      tile.samples = .ofBytes storage tile.resolution.count bytes := by
  rw [load_eq] at h
  split at h
  · cases h
  · split at h
    · cases h
    · rename_i node hfind
      split at h
      · rename_i r bytes hsize
        cases h
        exact ⟨bytes, hfind, hsize, rfl⟩
      · cases h

/-- **A tile answers with the nearest sample of its file**, whatever the bits of the coordinates
are and however the samples are kept. It answers everywhere in its closed square, and not where a
coordinate is far or not finite. A tile without a file answers in the same way, with voids. -/
theorem load_answersNearest :
    (∀ (tree : FileTree) (storage : Storage) (path : String) (tile : Tile),
      Tile.load tree storage path = .ok tile →
      ∃ bytes side, tree.find path = .ok (.file bytes) ∧ Square.ofPath? path = some tile.square ∧
        (side = 1201 ∨ side = 3601) ∧ bytes.size = 2 * (side * side) ∧
        tile.AnswersNearest side fun k v => IsBigEndian bytes (2 * k) v) ∧
    ∀ square : Square, (Tile.void square).AnswersNearest 1201 fun _ v => v.toInt = -32768 := by
  refine ⟨fun tree storage path tile h => ?_, fun square => ?_⟩
  · obtain ⟨bytes, hfind, hsize, hsamples⟩ := load_eq_ok h
    have hbytes := size_of_ofSize? hsize
    refine ⟨bytes, tile.resolution.side, hfind, load_square h, side_cases tile.resolution,
      hbytes, answersNearest fun k hk => ?_⟩
    rw [hsamples, Samples.get_ofBytes hk]
    exact isBigEndian_sampleAt (by omega)
  · have hside : Resolution.threeSeconds.side = 1201 := by decide +kernel
    rw [← hside]
    exact answersNearest (t := .void square) fun _ _ => rfl

/-- The middle of a mapped file that has the same two bytes everywhere. -/
theorem mapped_answersNearest :
    Tile.load (TileStore.loudFile (levelBytes 7)) .mapped "d/N44W072.HGT" =
        .ok ⟨⟨-72, 44⟩, .threeSeconds, .raw (levelBytes 7)⟩ ∧
      ∃ v, (⟨⟨-72, 44⟩, .threeSeconds, .raw (levelBytes 7)⟩ : Tile).sample? ⟨-71.5, 44.5⟩ =
        some v ∧ v.toInt = 1799 := by
  have hfind (bytes : ByteArray) :
      (TileStore.loudFile bytes).find "d/N44W072.HGT" = .ok (.file bytes) := by rfl
  have hload : Tile.load (TileStore.loudFile (levelBytes 7)) .mapped "d/N44W072.HGT" =
      .ok ⟨⟨-72, 44⟩, .threeSeconds, .raw (levelBytes 7)⟩ :=
    load_of_size (by decide +kernel) (hfind _) (size_levelBytes 7)
  refine ⟨hload, ?_⟩
  obtain ⟨bytes, side, hbytes, -, -, -, hanswers⟩ := load_answersNearest.1 _ _ _ _ hload
  cases (hfind _).symm.trans hbytes
  have hlon : (-72 : Int16).toInt = -72 := by decide
  have hlat : (44 : Int16).toInt = 44 := by decide
  have hx : rat? (-71.5) = some (-143 / 2) := by decide +kernel
  have hy : rat? 44.5 = some (89 / 2) := by decide +kernel
  obtain ⟨v, hv⟩ := hanswers.inside ⟨-71.5, 44.5⟩ _ _ hx hy (by norm_num [hlon])
    (by norm_num [hlon]) (by norm_num [hlat]) (by norm_num [hlat])
  obtain ⟨-, -, -, -, column, row, -, -, -, -, hsample, hvalue⟩ := hanswers.near _ _ hv
  refine ⟨v, hv, ?_⟩
  rw [hvalue, getElem_levelBytes, getElem_levelBytes]
  decide

end Tile

end Transect
