import Transect.Proofs.Polyline

/-!
# The vertices of a resampled line

Resampling gives every segment a block of points that ends in the end of the segment. So every
vertex is still there, at the sum of the shares before it, whatever the lengths are: also where
they are zero, infinite or no numbers.
-/

namespace Transect.Polyline

variable {line : List Point} {a b first p : Point} {n count : Nat}

/-! ## Lists in blocks -/

section Blocks

variable {α : Type} {ends : List α} {blocks : List (List α)}

theorem sublist_flatten (h : List.Forall₂ (fun v block => v ∈ block) ends blocks) :
    ends.Sublist blocks.flatten := by
  induction h with
  | nil => exact .slnil
  | cons hmem _ ih => exact (List.singleton_sublist.2 hmem).append ih

/-- Behind a first element, the end of a block stands at the sum of the lengths up to it. -/
theorem getElem?_cons_flatten (h : List.Forall₂ (fun v block => block.getLast? = some v) ends blocks)
    {start v : α} {j : Nat} (hj : (start :: ends)[j]? = some v) :
    (start :: blocks.flatten)[((blocks.map List.length).take j).sum]? = some v := by
  induction h generalizing start j with
  | nil =>
    cases j with
    | zero => simpa using hj
    | succ j => simp at hj
  | @cons w block ends blocks hlast _ ih =>
    cases j with
    | zero => simpa using hj
    | succ j =>
      -- The end of the block is the first element of what follows.
      obtain ⟨inner, rfl⟩ := List.getLast?_eq_some_iff.1 hlast
      have hsplit : start :: ((inner ++ [w]) :: blocks).flatten =
          (start :: inner) ++ (w :: blocks.flatten) := by
        simp
      have hindex : ((((inner ++ [w]) :: blocks).map List.length).take (j + 1)).sum =
          (start :: inner).length + ((blocks.map List.length).take j).sum := by
        simp
      rw [hsplit, hindex, List.getElem?_append_right (Nat.le_add_right _ _), Nat.add_sub_cancel_left]
      exact ih (by simpa using hj)

end Blocks

/-! ## The block of a segment -/

/-- What a segment to `b` is given: `n` points, at least one, and the last of them is `b`. -/
structure Block (n : Nat) (b : Point) (points : List Point) : Prop where
  length : points.length = n
  pos : 1 ≤ n
  last : points.getLast? = some b

theorem block_fill (h : 1 ≤ n) (a b : Point) : Block n b (fill n a b) where
  length := by
    simp only [fill, List.length_append, List.length_map, List.length_range', List.length_singleton]
    omega
  pos := h
  last := by simp [fill]

/-- The shares of the segments, in their order. -/
def shares (count : Nat) (line : List Point) : List Nat :=
  (segments line).map fun (a, b) => share count (a.distance b) (length line)

/-- The points that the segments are given, in their order. -/
def blocks (count : Nat) (line : List Point) : List (List Point) :=
  (segments line).map fun (a, b) => fill (share count (a.distance b) (length line)) a b

theorem blocks_spec (count : Nat) (line : List Point) :
    List.Forall₂ (fun (s : Point × Point) points =>
      Block (share count (s.1.distance s.2) (length line)) s.2 points)
      (segments line) (blocks count line) := by
  rw [blocks, List.forall₂_map_right_iff, List.forall₂_same]
  intro s _
  exact block_fill (one_le_share _ _ _) _ _

theorem map_length_blocks (count : Nat) (line : List Point) :
    (blocks count line).map List.length = shares count line := by
  rw [blocks, shares, List.map_map]
  exact List.map_congr_left fun s _ => (block_fill (one_le_share _ _ _) s.1 s.2).length

theorem map_snd_segments (line : List Point) : (segments line).map (·.2) = line.tail := by
  rw [segments, List.map_snd_zip]
  simp

theorem blocks_ends (count : Nat) (line : List Point) :
    List.Forall₂ (fun v block => block.getLast? = some v) line.tail (blocks count line) := by
  rw [← map_snd_segments, List.forall₂_map_left_iff]
  exact (blocks_spec count line).imp fun _ _ h => h.last

/-! ## The whole line -/

theorem length_nil : length [] = 0 := rfl

theorem resample_of_length_eq_zero (h : (length line == 0) = true) (count : Nat) :
    resample count line = line := by
  simp [resample, h]

theorem resample_of_length_ne_zero (h : (length line == 0) = false) (count : Nat) :
    ∃ first rest, line = first :: rest ∧ resample count line = first :: (blocks count line).flatten := by
  cases line with
  | nil =>
    rw [length_nil] at h
    exact absurd h (by decide)
  | cons first rest =>
    refine ⟨first, rest, rfl, ?_⟩
    simp only [resample, h, Bool.false_eq_true, if_false, blocks, List.flatMap, List.take_succ_cons,
      List.take_zero, List.cons_append, List.nil_append]

theorem getElem?_resample (h : (length line == 0) = false) {j : Nat} (hj : (line)[j]? = some p) :
    (resample count line)[((shares count line).take j).sum]? = some p := by
  obtain ⟨first, rest, hline, hpoints⟩ := resample_of_length_ne_zero h count
  have hends := blocks_ends count line
  rw [hpoints, ← map_length_blocks]
  rw [hline, List.tail_cons] at hends
  apply getElem?_cons_flatten (by rwa [hline])
  rwa [← hline]

theorem length_resample (h : (length line == 0) = false) (count : Nat) :
    (resample count line).length = 1 + (shares count line).sum := by
  obtain ⟨first, rest, -, hpoints⟩ := resample_of_length_ne_zero h count
  rw [hpoints, List.length_cons, List.length_flatten, map_length_blocks, Nat.add_comm]

theorem sublist_resample (count : Nat) (line : List Point) : line.Sublist (resample count line) := by
  cases h : length line == 0 with
  | true => rw [resample_of_length_eq_zero h]
  | false =>
    obtain ⟨first, rest, hline, hpoints⟩ := resample_of_length_ne_zero h count
    have hends := (blocks_ends count line).imp fun _ _ h => List.mem_of_getLast? h
    have hsub := sublist_flatten hends
    rw [hpoints, hline]
    rw [hline, List.tail_cons] at hsub
    exact hsub.cons_cons first

/-! ## No points requested -/

/-- A share of nothing is one point, also of a segment or a line whose length is no number. -/
theorem share_zero (part total : Float) : share 0 part total = 1 := by
  have hzero : unpack (floatOfNat 0) = .zero .positive := rfl
  have h := floorWithin_add_half (Int.natCast_nonneg maxShare)
    ((isNothing_zero_mul hzero part).div total)
  rw [share, h]
  rfl

theorem fill_one (a b : Point) : fill 1 a b = [b] := by
  simp [fill]

theorem resample_zero (line : List Point) : resample 0 line = line := by
  cases h : length line == 0 with
  | true => exact resample_of_length_eq_zero h 0
  | false =>
    obtain ⟨first, rest, hline, hpoints⟩ := resample_of_length_ne_zero h 0
    have hblocks : (blocks 0 line).flatten = line.tail := by
      rw [← map_snd_segments, blocks]
      simp only [share_zero, fill_one]
      rw [← List.flatMap_def, List.map_eq_flatMap]
    rw [hpoints, hblocks, hline, List.tail_cons]

/-! ## The structure -/

/-- **Resampling keeps the vertices.** A line without length stays. Any other line becomes its first
vertex and a block for each segment, so vertex `j` is found at the sum of the first `j` shares. -/
theorem resample_structure (count : Nat) (line : List Point) :
    ((length line == 0) = true → resample count line = line) ∧
    ((length line == 0) = false →
      (∃ first rest blocks, line = first :: rest ∧
        resample count line = first :: List.flatten blocks ∧
        List.Forall₂ (fun (s : Point × Point) points =>
          Block (share count (s.1.distance s.2) (length line)) s.2 points)
          (segments line) blocks) ∧
      (∀ j p, (line)[j]? = some p → (resample count line)[((shares count line).take j).sum]? = some p) ∧
      (resample count line).length = 1 + (shares count line).sum) ∧
    line.Sublist (resample count line) ∧ resample 0 line = line := by
  refine ⟨fun h => resample_of_length_eq_zero h count, fun h => ⟨?_, ?_, length_resample h count⟩,
    sublist_resample count line, resample_zero line⟩
  · obtain ⟨first, rest, hline, hpoints⟩ := resample_of_length_ne_zero h count
    exact ⟨first, rest, blocks count line, hline, hpoints, blocks_spec count line⟩
  · intro j p hj
    exact getElem?_resample h hj

/-- A segment without length is given one point, and so is any in a line whose length is no
number. -/
example : resample 4 [⟨0, 0⟩, ⟨4, 0⟩, ⟨4, 0⟩] =
      [⟨0, 0⟩, ⟨1, 0⟩, ⟨2, 0⟩, ⟨3, 0⟩, ⟨4, 0⟩, ⟨4, 0⟩] ∧
    resample 4 [⟨0, 0⟩, ⟨1 / 0, 0⟩, ⟨0 / 0, 0⟩] = [⟨0, 0⟩, ⟨1 / 0, 0⟩, ⟨0 / 0, 0⟩] := by
  decide +kernel

end Transect.Polyline
