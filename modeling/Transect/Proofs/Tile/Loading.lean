import Transect.Proofs.Except
import Transect.Proofs.Tile.Name
import Transect.Tile.Basic

/-!
# Loading a tile

The samples of a tile are decoded when it is loaded, or its file is mapped. Each read of a sample
can fail, and so can the mapping. By then the size of the file has been looked at: a file of that
size has all of its samples, and a directory never has it. So both ways fail in the same cases and
with the same errors.
-/

namespace Transect

/-! ## Reading to the end -/

/-- The first `count` samples of a file. -/
def firstSamples (count : Nat) (bytes : ByteArray) : Array Int16 :=
  .ofFn fun i : Fin count => sampleAt bytes i

theorem size_firstSamples (count : Nat) (bytes : ByteArray) :
    (firstSamples count bytes).size = count :=
  Array.size_ofFn

theorem firstSamples_succ (count : Nat) (bytes : ByteArray) :
    firstSamples (count + 1) bytes = (firstSamples count bytes).push (sampleAt bytes count) :=
  Array.ofFn_succ

variable {bytes : ByteArray} {done count : Nat}

theorem readSample_eq_ok {i : Nat} (h : 2 * i + 1 < bytes.size) :
    readSample (2 * i) (.file bytes) = .ok (sampleAt bytes i) := by
  rw [readSample, sampleAt, dif_pos h, dif_pos h]

/-- A reader that has come to some sample of a file reads on for as many as the file still has. -/
theorem readSamples_eq_ok (h : 2 * (done + count) ≤ bytes.size) :
    readSamples (.file bytes) count (firstSamples done bytes) =
      .ok (firstSamples (done + count) bytes) := by
  induction count generalizing done with
  | zero => rfl
  | succ count ih =>
    have hread : readSample (2 * (firstSamples done bytes).size) (.file bytes) =
        .ok (sampleAt bytes done) := by
      rw [size_firstSamples]
      exact readSample_eq_ok (by omega)
    have hrest : readSamples (.file bytes) count (firstSamples (done + 1) bytes) =
        .ok (firstSamples (done + 1 + count) bytes) := ih (by omega)
    rw [firstSamples_succ, Nat.add_right_comm] at hrest
    rw [readSamples, hread]
    exact hrest

theorem size_of_ofSize? {size : Nat} {r : Resolution} (h : Resolution.ofSize? size = some r) :
    size = 2 * r.count := by
  unfold Resolution.ofSize? at h
  split_ifs at h with hone hthree <;> cases h <;> assumption

/-- Once the size of a file has been looked at, no read of a sample fails. -/
theorem readSamples_of_ofSize? {r : Resolution} (h : Resolution.ofSize? bytes.size = some r) :
    readSamples (.file bytes) r.count #[] = .ok (firstSamples r.count bytes) := by
  have hsize := size_of_ofSize? h
  have hall : readSamples (.file bytes) r.count (firstSamples 0 bytes) =
      .ok (firstSamples (0 + r.count) bytes) := readSamples_eq_ok (by omega)
  rwa [Nat.zero_add] at hall

theorem ofSize?_directory : Resolution.ofSize? Node.directory.size = none := by
  decide +kernel

/-! ## Tiles -/

/-- How a loaded tile keeps the first `count` samples of its file. -/
def Samples.ofBytes (storage : Storage) (count : Nat) (bytes : ByteArray) : Samples :=
  match storage with
  | .inMemory => .decoded (firstSamples count bytes)
  | .mapped => .raw bytes

namespace Tile

variable {tree : FileTree} {storage : Storage} {path : String}

theorem resolutionOf_eq {node : Node} (h : tree.find path = .ok node) :
    resolutionOf tree path =
      match Resolution.ofSize? node.size with
      | some resolution => .ok resolution
      | none => .error (.size node.size path) := by
  unfold resolutionOf
  rw [h]
  rfl

/-- What a load comes to: the name is looked at first, then the file, then its size. -/
theorem load_eq (tree : FileTree) (storage : Storage) (path : String) :
    load tree storage path =
      match Square.ofPath? path with
      | none => .error (.name path)
      | some square =>
        match tree.find path with
        | .error cause => .error (.file cause)
        | .ok node =>
          match Resolution.ofSize? node.size, node with
          | some resolution, .file bytes =>
            .ok ⟨square, resolution, .ofBytes storage resolution.count bytes⟩
          | _, _ => .error (.size node.size path) := by
  unfold load read map squareOf
  cases Square.ofPath? path with
  | none => cases storage <;> rfl
  | some square =>
    cases hfind : tree.find path with
    | error cause =>
      unfold resolutionOf
      rw [hfind]
      cases storage <;> rfl
    | ok node =>
      rw [resolutionOf_eq hfind]
      cases hsize : Resolution.ofSize? node.size with
      | none =>
        simp only [hsize]
        cases storage <;> rfl
      | some resolution =>
        cases node with
        | directory =>
          rw [ofSize?_directory] at hsize
          cases hsize
        | file bytes =>
          simp only [hsize]
          cases storage with
          | inMemory =>
            change ((readSamples (.file bytes) resolution.count #[]).mapError TileError.file >>=
              fun values => .ok (⟨square, resolution, .decoded values⟩ : Tile)) = _
            rw [readSamples_of_ofSize? hsize]
            rfl
          | mapped => rfl

/-- The square of a loaded tile is the one that its path is named for. -/
theorem load_square {tile : Tile} (h : load tree storage path = .ok tile) :
    Square.ofPath? path = some tile.square := by
  rw [load_eq] at h
  split at h
  · cases h
  · rename_i square hs
    split at h
    · cases h
    · split at h
      · cases h
        exact hs
      · cases h

end Tile

end Transect
