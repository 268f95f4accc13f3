import Transect.Proofs.Arguments.Reader
import Transect.Proofs.Float.Order
import Transect.Proofs.Polyline.Share
import Transect.Proofs.Polyline.Vertices

/-!
# How many points a resampled line has

The total length is a sum of floats that is rounded at every step, so the lengths do not add up to
it. But what a running total grows by is the length of the next segment, up to a very small part of
the total. So a share is about half a point off the part of the count that belongs to this growth,
and over the whole line the growth is the total.
-/

namespace Transect

open Float.Model
open Float.Model.UnpackedFloat

variable {x s d total : Float} {a r r' t : ℚ} {count : ℕ}

namespace Polyline

/-! ## One segment -/

/-- A running total grows by the next length, with the error of one sum. -/
theorem abs_growth_sub_le (hs : rat? s = some r) (hd : rat? d = some a)
    (hsum : rat? (s + d) = some r') (h0 : 0 ≤ r') : |r' - r - a| ≤ halfUnit * r' := by
  have hgrid : OnGrid (r + a) :=
    (isFraction_of_rat? hs).1.onGrid.add (isFraction_of_rat? hd).1.onGrid
  have hround : r' = nearestFloat (r + a) := (isNearest_add hs hd).eq_nearestFloat hsum
  have herror := hgrid.abs_sub_le.2
  rw [← hround, abs_of_nonneg h0] at herror
  rwa [sub_sub]

/-- A segment's share in the growth of the running total, between `r` and `r'`. -/
theorem share_step (hcount : count ≤ maxPoints) (hd : IsLength d) (ht : rat? total = some t)
    (hpos : 0 < t) (hs : rat? s = some r) (ha : rat? d = some a) (h0 : 0 ≤ a)
    (hsum : rat? (s + d) = some r') (hgrow : r ≤ r') (hpart : a ≤ r') (hle : r' ≤ t) :
    count * ((r' - r) / t) - (1 / 2 + 1 / 2 ^ 29) ≤ share count d total ∧
      (share count d total : ℚ) ≤ 1 + count * ((r' - r) / t) := by
  obtain ⟨hlow, hhigh⟩ :=
    share_bounds hcount ha h0 (hd.bound a ha) ht hpos (hpart.trans hle)
  have hcast := count_cast_le hcount
  have hcount0 : (0 : ℚ) ≤ count := Nat.cast_nonneg _
  have herror := abs_growth_sub_le hs ha hsum (h0.trans hpart)
  -- The growth and the length are the same part of the total, but for a very small part of it.
  have hdiff : |(r' - r) / t - a / t| ≤ halfUnit := by
    rw [← sub_div, abs_div, abs_of_pos hpos, div_le_iff₀ hpos]
    exact herror.trans (mul_le_mul_of_nonneg_left hle halfUnit_pos.le)
  have hparts : |count * ((r' - r) / t) - count * (a / t)| ≤ 1 / 2 ^ 33 := by
    rw [← mul_sub, abs_mul, abs_of_nonneg hcount0]
    calc (count : ℚ) * |(r' - r) / t - a / t| ≤ 1000000 * halfUnit :=
          mul_le_mul hcast hdiff (abs_nonneg _) (by norm_num)
      _ ≤ 1 / 2 ^ 33 := by
        rw [halfUnit_eq]
        norm_num
  have hgrowth : 0 ≤ (count : ℚ) * ((r' - r) / t) :=
    mul_nonneg hcount0 (div_nonneg (sub_nonneg.2 hgrow) hpos.le)
  obtain ⟨hleft, hright⟩ := abs_le.1 hparts
  constructor
  · linarith
  · rcases hhigh with hone | hhigh
    · rw [hone, Nat.cast_one]
      linarith
    · linarith

/-! ## All segments -/

/-- The shares of segments whose running totals lead from `r` to `r'`. -/
theorem sum_shares_bounds {ds : List Float} (hcount : count ≤ maxPoints)
    (hds : ∀ d ∈ ds, IsLength d) (ht : rat? total = some t) (hpos : 0 < t)
    (hs : rat? s = some r) (h0 : 0 ≤ r) (hend : rat? (ds.foldl (· + ·) s) = some r')
    (hle : r' ≤ t) :
    count * ((r' - r) / t) - ds.length * (1 / 2 + 1 / 2 ^ 29) ≤
        (ds.map fun d => share count d total).sum ∧
      ((ds.map fun d => share count d total).sum : ℚ) ≤ ds.length + count * ((r' - r) / t) := by
  induction ds generalizing s r with
  | nil =>
    rw [List.foldl_nil, hs] at hend
    cases hend
    simp
  | cons d ds ih =>
    obtain ⟨hd, hds⟩ := List.forall_mem_cons.1 hds
    obtain ⟨l, hl⟩ := hd.size
    obtain ⟨hleft, hright⟩ := noLonger_add (size?_of_rat? hs h0) hl
    obtain ⟨-, n, -, hn, -⟩ := id hleft
    -- The next total is finite, as the last one is.
    have hrest := (noLonger_foldl hn fun d hd => (hds d hd).size).1
    obtain ⟨m, hm, hm0, hmend⟩ := hrest.exists_rat? hend
    obtain ⟨a, ha, ha0, ham⟩ := hright.exists_rat? hm
    obtain ⟨r₀, hr₀, -, hgrow⟩ := hleft.exists_rat? hm
    rw [hs] at hr₀
    cases hr₀
    obtain ⟨hlow, hhigh⟩ :=
      share_step hcount hd ht hpos hs ha ha0 hm hgrow ham (hmend.trans hle)
    obtain ⟨hlows, hhighs⟩ := ih hds hm hm0 hend
    have hsplit : count * ((r' - r) / t) =
        count * ((m - r) / t) + count * ((r' - m) / t) := by
      ring
    rw [List.map_cons, List.sum_cons, List.length_cons, hsplit, Nat.cast_add, Nat.cast_add,
      Nat.cast_one]
    constructor <;> linarith

theorem length_le_sum_shares (count : ℕ) (line : List Point) :
    (segments line).length ≤ (shares count line).sum := by
  have hall : ∀ n ∈ shares count line, 1 ≤ n := by
    intro n hn
    obtain ⟨part, -, rfl⟩ := List.mem_map.1 hn
    exact one_le_share _ _ _
  have hsum := List.length_le_sum_of_one_le _ hall
  rwa [shares, List.length_map] at hsum

theorem shares_eq (count : ℕ) (line : List Point) :
    shares count line = (lengths line).map fun d => share count d (length line) := by
  rw [shares, lengths, List.map_map]
  rfl

theorem isLength_lengths {line : List Point} (h : ∀ p ∈ line, p.Finite) :
    ∀ d ∈ lengths line, IsLength d := by
  intro d hd
  obtain ⟨⟨p, q⟩, hpq, rfl⟩ := List.mem_map.1 hd
  obtain ⟨hp, hq⟩ := mem_of_mem_segments hpq
  exact Point.isLength_distance (h p hp) (h q hq)

/-- The small errors of fewer than a million segments are less than half a point together. -/
theorem shares_bounds {line : List Point} (h : ∀ p ∈ line, p.Finite) (hcount : count ≤ maxPoints)
    (ht : rat? (length line) = some t) (hpos : 0 < t) :
    2 * count ≤ 2 * (shares count line).sum + (segments line).length ∧
      (shares count line).sum ≤ count + (segments line).length := by
  have hend := ht
  rw [length_eq] at hend
  obtain ⟨hlow, hhigh⟩ := sum_shares_bounds hcount (isLength_lengths h) ht hpos
    (show rat? 0 = some 0 from rfl) le_rfl hend le_rfl
  have hlength : (lengths line).length = (segments line).length := List.length_map _
  have hone : (t - 0) / t = 1 := by rw [sub_zero, div_self hpos.ne']
  rw [hone, mul_one, hlength, ← shares_eq] at hlow hhigh
  constructor
  · rcases Nat.lt_or_ge (segments line).length count with hfew | hmany
    · have hk : ((segments line).length : ℚ) ≤ 1000000 := by
        exact_mod_cast hfew.le.trans hcount
      have hlt : (2 * count : ℚ) < 2 * (shares count line).sum + (segments line).length + 1 := by
        linarith
      have : 2 * count < 2 * (shares count line).sum + (segments line).length + 1 := by
        exact_mod_cast hlt
      omega
    · have := length_le_sum_shares count line
      omega
  · have : ((shares count line).sum : ℚ) ≤ ((count + (segments line).length : ℕ) : ℚ) := by
      rw [Nat.cast_add]
      linarith
    exact_mod_cast this

/-! ## The points -/

theorem exists_size?_length {line : List Point} (h : ∀ p ∈ line, p.Finite) :
    ∃ l, size? (length line) = some l := by
  rw [length_eq]
  obtain ⟨-, l, -, hl, -⟩ := (noLonger_foldl size?_zero (size?_lengths h)).1
  exact ⟨l, hl⟩

theorem length_eq_segments_add_one {line : List Point} (h : line ≠ []) :
    line.length = (segments line).length + 1 := by
  have hpos := List.length_pos_iff.2 h
  rw [segments, List.length_zip, List.length_tail]
  omega

/-- Whatever the length of the line is, there are not many more points than were asked for. -/
theorem length_resample_le {line : List Point} (hne : line ≠ []) (h : ∀ p ∈ line, p.Finite)
    (hcount : count ≤ maxPoints) :
    (resample count line).length ≤ 1 + count + (segments line).length := by
  cases hzero : length line == 0 with
  | true =>
    rw [resample_of_length_eq_zero hzero, length_eq_segments_add_one hne]
    omega
  | false =>
    rw [length_resample hzero]
    obtain ⟨l, hl⟩ := exists_size?_length h
    rcases size?_cases hl with ⟨t, rfl, ht, ht0⟩ | ⟨rfl, hinf⟩
    · rcases ht0.eq_or_lt with rfl | hpos
      · rw [beq_zero_of_zero ht] at hzero
        cases hzero
      · have := (shares_bounds h hcount ht hpos).2
        omega
    · -- On a line of infinite length each segment has one point.
      have hsum : (shares count line).sum = (segments line).length := by
        simp [shares, share_of_infinite hinf]
      omega

/-- **How many points a line is resampled to.** On a line of positive finite length the number of
points after the first is at least that of the segments, at most half a point for each segment below
the count that was asked for, and at most one point for each segment above it. The command line
takes no count that makes more than a million points besides the vertices, whatever the length. -/
theorem resample_count :
    (∀ (line : List Point) (count : ℕ), (∀ p ∈ line, p.Finite) → count ≤ maxPoints →
      0 < length line → (length line).isFinite = true →
        ∃ n, (resample count line).length = n + 1 ∧ (segments line).length ≤ n ∧
          (count : ℚ) - (segments line).length / 2 ≤ n ∧ n ≤ count + (segments line).length) ∧
    ∀ (words : List String) (arguments : Arguments) (format : Format) (a : ProfileArguments),
      Arguments.read words = .ok arguments → arguments.command = .profile format a →
        (resample a.count a.line).length ≤ 1000001 + (segments a.line).length := by
  constructor
  · intro line count h hcount hlength hfinite
    obtain ⟨t, ht⟩ := isFinite_iff.1 hfinite
    have hpos := pos_of_zero_lt hlength ht
    obtain ⟨hlow, hhigh⟩ := shares_bounds h hcount ht hpos
    refine ⟨(shares count line).sum, ?_, length_le_sum_shares count line, ?_, hhigh⟩
    · rw [length_resample (beq_zero_of_pos ht hpos), Nat.add_comm]
    · have : (2 * count : ℚ) ≤ 2 * (shares count line).sum + (segments line).length := by
        exact_mod_cast hlow
      linarith
  · intro words arguments format a hread hcommand
    obtain ⟨-, hsound⟩ := Arguments.sound_read hread
    rw [hcommand] at hsound
    obtain ⟨⟨hne, hfinite⟩, hcount, -⟩ := hsound
    have hbound := length_resample_le hne hfinite hcount
    unfold maxPoints at hcount
    omega

def bent : List Point := [⟨0, 0⟩, ⟨3, 4⟩, ⟨3, 4⟩]

def bentWords : List String :=
  ["--config", "c", "csv", "--nb-points", "10", "--geom",
    "\x7b\"type\":\"LineString\",\"coordinates\":[[0,0],[3,4],[3,4]]\x7d"]

theorem bent_resample_count :
    0 < length bent ∧
      (∃ n, (resample 10 bent).length = n + 1 ∧ 2 ≤ n ∧ (10 : ℚ) - 2 / 2 ≤ n ∧ n ≤ 10 + 2) ∧
      Arguments.read bentWords = .ok ⟨"c", .profile .csv ⟨bent, 10, none, false⟩⟩ ∧
      (resample 10 bent).length ≤ 1000001 + 2 := by
  have hpos : 0 < length bent := by decide +kernel
  have hfinite : ∀ p ∈ bent, p.Finite := by decide +kernel
  have hread : Arguments.read bentWords = .ok ⟨"c", .profile .csv ⟨bent, 10, none, false⟩⟩ := by
    decide +kernel
  have hcount := resample_count.1 bent 10 hfinite (by decide) hpos (by decide +kernel)
  have hwords := resample_count.2 bentWords _ _ _ hread rfl
  exact ⟨hpos, hcount, hread, hwords⟩

end Polyline

end Transect
