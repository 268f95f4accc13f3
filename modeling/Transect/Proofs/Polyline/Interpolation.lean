import Transect.Proofs.Polyline.Count
import Transect.Proofs.Profile.Basic

/-!
# Interpolated points stay on their segment

Four operations lead to an interpolated coordinate, and each is rounded. Rounding is monotone, so
the coordinates never step back. After the last interpolated point at least a millionth of the
segment is left, and this is far more than the relative errors. Only where a step is a few of the
smallest units the end can be overshot, by less than `10 ^ (-300)`.
-/

namespace Transect

open Polyline

variable {a b c : ℚ} {x y : Float} {n i j : ℕ}

/-! ## Rounded numbers between two others -/

/-- What floats make of `a + (b - a) / n * i`. -/
def interpolate (n : ℕ) (a b : ℚ) (i : ℕ) : ℚ :=
  nearestFloat (a + nearestFloat (nearestFloat (nearestFloat (b - a) / n) * i))

@[simp]
theorem interpolate_neg (n : ℕ) (a b : ℚ) (i : ℕ) :
    interpolate n (-a) (-b) i = -interpolate n a b i := by
  have hdiff : -b - -a = -(b - a) := by ring
  simp only [interpolate, hdiff, nearestFloat_neg, neg_div, neg_mul, ← neg_add]

theorem interpolate_zero (ha : IsFraction a) (n : ℕ) (b : ℚ) : interpolate n a b 0 = a := by
  simp [interpolate, ha.nearestFloat_eq]

theorem interpolate_mono (n : ℕ) (h : a ≤ b) (hij : i ≤ j) :
    interpolate n a b i ≤ interpolate n a b j := by
  have hdiff : 0 ≤ nearestFloat (b - a) := nearestFloat_nonneg (sub_nonneg.2 h)
  have hstep := nearestFloat_nonneg (div_nonneg hdiff (Nat.cast_nonneg n))
  have hscaled := mul_le_mul_of_nonneg_left (Nat.cast_le (α := ℚ).2 hij) hstep
  exact nearestFloat_mono (add_le_add_right (nearestFloat_mono hscaled) a)

theorem le_interpolate (ha : IsFraction a) (h : a ≤ b) (n i : ℕ) : a ≤ interpolate n a b i := by
  have hmono := interpolate_mono n h (Nat.zero_le i)
  rwa [interpolate_zero ha] at hmono

/-- How far a coordinate may be outside its segment. -/
def slack : ℚ := 10 ^ (-300 : ℤ)

theorem slack_nonneg : 0 ≤ slack := zpow_nonneg (by norm_num) _

theorem errors_le_slack : 2 * (1000000 * smallestUnit) ≤ slack := by
  have hten : (10 : ℚ) ^ 300 ≤ 2 ^ 1000 := by
    calc (10 : ℚ) ^ 300 = (10 ^ 3) ^ 100 := by rw [← pow_mul]
      _ ≤ (2 ^ 10) ^ 100 := pow_le_pow_left₀ (by norm_num) (by norm_num) 100
      _ = 2 ^ 1000 := by rw [← pow_mul]
  calc 2 * (1000000 * smallestUnit) ≤ 2 ^ (21 : ℤ) * 2 ^ (-1074 : ℤ) := by
        rw [← mul_assoc, smallestUnit]
        exact mul_le_mul_of_nonneg_right (by norm_num) (two_zpow_pos _).le
    _ = 2 ^ (21 + -1074 : ℤ) := (two_zpow_add 21 (-1074)).symm
    _ ≤ 2 ^ (-(1000 : ℕ) : ℤ) := two_zpow_le (by norm_num)
    _ = (2 ^ 1000)⁻¹ := by rw [zpow_neg, zpow_natCast]
    _ ≤ (10 ^ 300)⁻¹ := inv_anti₀ (by positivity) hten
    _ = slack := by rw [slack, zpow_neg, show (300 : ℤ) = (300 : ℕ) from rfl, zpow_natCast]

theorem part_le (hi : i < n) (hn : n ≤ maxPoints) : (i : ℚ) / n ≤ 1 - 1 / 1000000 := by
  have hn0 : (0 : ℚ) < n := by exact_mod_cast (Nat.zero_le i).trans_lt hi
  have hi' : (i : ℚ) + 1 ≤ n := by exact_mod_cast hi
  have hn' := count_cast_le hn
  rw [div_le_iff₀ hn0]
  linarith

/-- What is added to the start is at most the difference and the errors of the smallest unit. The
relative errors are less than what is left to the end. -/
theorem offset_le (hc : OnGrid c) (h0 : 0 ≤ c) (hi : i < n) (hn : n ≤ maxPoints) :
    nearestFloat (nearestFloat (nearestFloat c / n) * i) ≤ c + 1000000 * smallestUnit := by
  have hi0 : (0 : ℚ) ≤ i := Nat.cast_nonneg i
  have hu := halfUnit_pos
  have hunit := smallestUnit_pos
  have hd0 := nearestFloat_nonneg h0
  have hquotient := div_nonneg hd0 (Nat.cast_nonneg (α := ℚ) n)
  have hproduct := mul_nonneg (nearestFloat_nonneg hquotient) hi0
  have hgrid := (onGrid_nearestFloat (nearestFloat c / n)).natCast_mul i
  rw [mul_comm] at hgrid
  have hd := hc.nearestFloat_le h0
  have hs := nearestFloat_le_add hquotient
  have ht := hgrid.nearestFloat_le hproduct
  have hpart := part_le hi hn
  have hcast : (i : ℚ) ≤ 1000000 := count_cast_le (hi.le.trans hn)
  have hcube : (1 + halfUnit) ^ 3 * (1 - 1 / 1000000) ≤ 1 := by
    rw [halfUnit_eq]
    norm_num
  have hhalf : (1 + halfUnit) / 2 ≤ 1 := by
    rw [halfUnit_eq]
    norm_num
  generalize smallestUnit = unit at hunit hs ⊢
  generalize halfUnit = u at *
  calc nearestFloat (nearestFloat (nearestFloat c / n) * i)
      ≤ (1 + u) * (nearestFloat (nearestFloat c / n) * i) := ht
    _ ≤ (1 + u) * (((1 + u) * (nearestFloat c / n) + unit / 2) * i) := by gcongr
    _ = (1 + u) ^ 2 * (i / n) * nearestFloat c + (1 + u) / 2 * unit * i := by ring
    _ ≤ (1 + u) ^ 2 * (1 - 1 / 1000000) * ((1 + u) * c) + (1 + u) / 2 * unit * 1000000 := by gcongr
    _ = (1 + u) ^ 3 * (1 - 1 / 1000000) * c + (1 + u) / 2 * (1000000 * unit) := by ring
    _ ≤ 1 * c + 1 * (1000000 * unit) := by gcongr
    _ = c + 1000000 * unit := by rw [one_mul, one_mul]

theorem interpolate_le (ha : IsFraction a) (hb : IsFraction b) (h : a ≤ b) (hi : i < n)
    (hn : n ≤ maxPoints) : interpolate n a b i ≤ b + slack := by
  have hgrid : OnGrid (b - a) := by
    rw [sub_eq_add_neg]
    exact hb.onGrid.add ha.neg.onGrid
  have hoffset := offset_le hgrid (sub_nonneg.2 h) hi hn
  have hslack := errors_le_slack
  unfold interpolate
  generalize nearestFloat (nearestFloat (nearestFloat (b - a) / n) * i) = t at hoffset ⊢
  rcases le_or_gt (a + t) b with hle | hlt
  · have := hb.nearestFloat_le hle
    linarith [slack_nonneg]
  · -- The end is a float, so rounding does not move the sum away from it by more than the overshoot.
    have hround := hb.abs_nearestFloat_sub_le_abs (a + t)
    rw [abs_of_neg (sub_neg.2 hlt)] at hround
    have := (abs_le.1 hround).2
    linarith

theorem pairwise_interpolate (ha : IsFraction a) (h : a ≤ b) (n : ℕ) :
    (a :: (List.range' 1 (n - 1)).map (interpolate n a b)).Pairwise (· ≤ ·) := by
  apply List.Pairwise.cons
  · intro c hc
    obtain ⟨i, -, rfl⟩ := List.mem_map.1 hc
    exact le_interpolate ha h n i
  · exact List.pairwise_map.2 ((List.pairwise_le_range' 1).imp (interpolate_mono n h))

/-- Numbers that lead from `a` towards `b`. None steps back, and none is outside by more than the
slack. -/
structure LeadTowards (a b : ℚ) (cs : List ℚ) : Prop where
  up : a ≤ b → (a :: cs).Pairwise (· ≤ ·)
  down : b ≤ a → (a :: cs).Pairwise (· ≥ ·)
  within : ∀ c ∈ cs, min a b - slack ≤ c ∧ c ≤ max a b + slack

theorem leadTowards_nil (a b : ℚ) : LeadTowards a b [] where
  up _ := List.pairwise_singleton _ _
  down _ := List.pairwise_singleton _ _
  within := by simp

theorem leadTowards_interpolate (ha : IsFraction a) (hb : IsFraction b) (hn : n ≤ maxPoints) :
    LeadTowards a b ((List.range' 1 (n - 1)).map (interpolate n a b)) where
  up h := pairwise_interpolate ha h n
  down h := by
    have hneg := pairwise_interpolate ha.neg (neg_le_neg h) n
    have hmap : -a :: (List.range' 1 (n - 1)).map (interpolate n (-a) (-b)) =
        (a :: (List.range' 1 (n - 1)).map (interpolate n a b)).map (-·) := by
      simp
    rw [hmap, List.pairwise_map] at hneg
    exact hneg.imp neg_le_neg_iff.1
  within := by
    intro c hc
    obtain ⟨i, hi, rfl⟩ := List.mem_map.1 hc
    rw [List.mem_range'_1] at hi
    have hin : i < n := by omega
    have hslack := slack_nonneg
    rcases le_total a b with h | h
    · have hlow := le_interpolate ha h n i
      have hhigh := interpolate_le ha hb h hin hn
      rw [min_eq_left h, max_eq_right h]
      constructor <;> linarith
    · have hhigh := le_interpolate ha.neg (neg_le_neg h) n i
      have hlow := interpolate_le ha.neg hb.neg (neg_le_neg h) hin hn
      rw [interpolate_neg] at hlow hhigh
      rw [min_eq_right h, max_eq_left h]
      constructor <;> linarith

theorem map_rat?_interpolated (hx : rat? x = some a) (hy : rat? y = some b)
    (hd : rat? (y - x) = some c) (hc : |c| < 2 ^ 512) (hn : n ≤ maxPoints) :
    (List.range' 1 (n - 1)).map (fun i => rat? (x + (y - x) / floatOfNat n * floatOfNat i)) =
      ((List.range' 1 (n - 1)).map (interpolate n a b)).map some := by
  have hword : maxPoints ≤ wordBound := by decide
  have hexact : maxPoints ≤ 2 ^ 53 := by decide
  rw [List.map_map]
  apply List.map_congr_left
  intro i hi
  rw [List.mem_range'_1] at hi
  rw [rat?_interpolated hx hd hc (by omega) (by omega) (by omega),
    (isFraction_natCast (by omega : n ≤ 2 ^ 53)).nearestFloat_eq,
    (isFraction_natCast (by omega : i ≤ 2 ^ 53)).nearestFloat_eq,
    (isNearest_sub hy hx).eq_nearestFloat hd]
  rfl

theorem exists_leadTowards (hx : x.isFinite = true) (hy : y.isFinite = true)
    (hd : ∃ c, rat? (y - x) = some c ∧ |c| < 2 ^ 512) (hn : n ≤ maxPoints) :
    ∃ a b cs, rat? x = some a ∧ rat? y = some b ∧
      (List.range' 1 (n - 1)).map (fun i => rat? (x + (y - x) / floatOfNat n * floatOfNat i)) =
        cs.map some ∧ LeadTowards a b cs := by
  obtain ⟨a, ha⟩ := isFinite_iff.1 hx
  obtain ⟨b, hb⟩ := isFinite_iff.1 hy
  obtain ⟨c, hc, hsmall⟩ := hd
  exact ⟨a, b, _, ha, hb, map_rat?_interpolated ha hb hc hsmall hn,
    leadTowards_interpolate (isFraction_of_rat? ha).1 (isFraction_of_rat? hb).1 hn⟩

namespace Polyline

variable {line : List Point} {p q : Point} {ps : List Point} {count : ℕ}

/-! ## The points of a segment -/

/-- The points that `fill` puts before the end of the segment. -/
def between (n : ℕ) (p q : Point) : List Point :=
  (List.range' 1 (n - 1)).map fun i => p + ((q - p).divide (floatOfNat n)).scale (floatOfNat i)

theorem fill_eq (n : ℕ) (p q : Point) : fill n p q = between n p q ++ [q] := rfl

theorem between_one (p q : Point) : between 1 p q = [] := rfl

/-- The points that resampling puts between the ends of a segment. -/
def interpolated (count : ℕ) (line : List Point) (s : Point × Point) : List Point :=
  if length line == 0 then []
  else between (share count (s.1.distance s.2) (length line)) s.1 s.2

theorem resample_eq (count : ℕ) (line : List Point) :
    resample count line =
      line.take 1 ++ (segments line).flatMap fun s => interpolated count line s ++ [s.2] := by
  unfold interpolated
  cases h : length line == 0 with
  | true =>
    rw [resample_of_length_eq_zero h]
    simp only [if_true, List.nil_append]
    rw [← List.map_eq_flatMap, map_snd_segments, ← List.drop_one, List.take_append_drop]
  | false =>
    simp only [resample, h, fill_eq]
    rfl

/-- A coordinate of points that lead from `p` towards `q`. -/
def Lead (f : Point → Float) (p q : Point) (ps : List Point) : Prop :=
  ∃ a b cs, rat? (f p) = some a ∧ rat? (f q) = some b ∧ ps.map (fun r => rat? (f r)) = cs.map some ∧
    LeadTowards a b cs

theorem lead_nil {f : Point → Float} (hp : (f p).isFinite = true) (hq : (f q).isFinite = true) :
    Lead f p q [] := by
  obtain ⟨a, ha⟩ := isFinite_iff.1 hp
  obtain ⟨b, hb⟩ := isFinite_iff.1 hq
  exact ⟨a, b, [], ha, hb, rfl, leadTowards_nil a b⟩

theorem lead_between (hp : p.Finite) (hq : q.Finite) (hn : n ≤ maxPoints)
    (hx : ∃ c, rat? (q - p).x = some c ∧ |c| < 2 ^ 512)
    (hy : ∃ c, rat? (q - p).y = some c ∧ |c| < 2 ^ 512) :
    Lead Point.x p q (between n p q) ∧ Lead Point.y p q (between n p q) := by
  unfold Lead between
  simp only [List.map_map]
  exact ⟨exists_leadTowards hp.1 hq.1 hx hn, exists_leadTowards hp.2 hq.2 hy hn⟩

theorem share_le_maxPoints (h : ∀ p ∈ line, p.Finite) (hcount : count ≤ maxPoints)
    (hzero : (length line == 0) = false) (hpq : (p, q) ∈ segments line) :
    share count (p.distance q) (length line) ≤ maxPoints := by
  rcases segment_cases h hpq with hone | ⟨⟨t, ht⟩, -⟩
  · rw [hone]
    decide
  · have hparts := (noLonger_foldl size?_zero (size?_lengths h)).2 _ (mem_lengths hpq)
    rw [← length_eq] at hparts
    obtain ⟨d, hd, hd0, hdt⟩ := hparts.exists_rat? ht
    have hpos : 0 < t := by
      rcases (hd0.trans hdt).eq_or_lt with rfl | hpos
      · rw [beq_zero_of_zero ht] at hzero
        cases hzero
      · exact hpos
    have hlength := isLength_lengths h _ (mem_lengths hpq)
    obtain ⟨-, hone | hshare⟩ := share_bounds hcount hd hd0 (hlength.bound d hd) ht hpos hdt
    · rw [hone]
      decide
    · have hpart := (part_of_count_bounds hcount hd0 hpos hdt).2
      have hlt : (share count (p.distance q) (length line) : ℚ) < 1000001 := by linarith
      have hlt : share count (p.distance q) (length line) < 1000001 := by exact_mod_cast hlt
      exact Nat.lt_succ_iff.1 hlt

theorem lead_interpolated (h : ∀ p ∈ line, p.Finite) (hcount : count ≤ maxPoints)
    (hpq : (p, q) ∈ segments line) :
    Lead Point.x p q (interpolated count line (p, q)) ∧
      Lead Point.y p q (interpolated count line (p, q)) := by
  obtain ⟨hp, hq⟩ := mem_of_mem_segments hpq
  have hnil : Lead Point.x p q [] ∧ Lead Point.y p q [] :=
    ⟨lead_nil (h p hp).1 (h q hq).1, lead_nil (h p hp).2 (h q hq).2⟩
  unfold interpolated
  cases hzero : length line == 0 with
  | true => exact hnil
  | false =>
    rcases segment_cases h hpq with hone | ⟨-, hx, hy⟩
    · simp only [hone, between_one]
      exact hnil
    · exact lead_between (h p hp) (h q hq) (share_le_maxPoints h hcount hzero hpq) hx hy

/-! ## The box around a line -/

/-- A coordinate of the point is finite, and outside those of the line by at most the slack. -/
def Covers (f : Point → Float) (line : List Point) (p : Point) : Prop :=
  ∃ q ∈ line, ∃ r ∈ line, ∃ low v high, rat? (f q) = some low ∧ rat? (f p) = some v ∧
    rat? (f r) = some high ∧ low - slack ≤ v ∧ v ≤ high + slack

/-- The point is in the box around the line, or outside it by at most the slack. -/
def InBox (line : List Point) (p : Point) : Prop :=
  Covers Point.x line p ∧ Covers Point.y line p

variable {f : Point → Float}

theorem covers_vertex (hp : p ∈ line) (hfinite : (f p).isFinite = true) : Covers f line p := by
  obtain ⟨v, hv⟩ := isFinite_iff.1 hfinite
  have hslack := slack_nonneg
  exact ⟨p, hp, p, hp, v, v, v, hv, hv, hv, by linarith, by linarith⟩

theorem Lead.covers {r : Point} (h : Lead f p q ps) (hp : p ∈ line) (hq : q ∈ line) (hr : r ∈ ps) :
    Covers f line r := by
  obtain ⟨a, b, cs, ha, hb, hcs, hlead⟩ := h
  have hmem : rat? (f r) ∈ cs.map some := hcs ▸ List.mem_map.2 ⟨r, hr, rfl⟩
  obtain ⟨v, hv, hrv⟩ := List.mem_map.1 hmem
  have hwithin := hlead.within v hv
  rcases le_total a b with hab | hab
  · rw [min_eq_left hab, max_eq_right hab] at hwithin
    exact ⟨p, hp, q, hq, a, v, b, ha, hrv.symm, hb, hwithin⟩
  · rw [min_eq_right hab, max_eq_left hab] at hwithin
    exact ⟨q, hq, p, hp, b, v, a, hb, hrv.symm, ha, hwithin⟩

theorem inBox_resample (h : ∀ p ∈ line, p.Finite) (hcount : count ≤ maxPoints) :
    ∀ p ∈ resample count line, InBox line p := by
  have hvertex {p : Point} (hp : p ∈ line) : InBox line p :=
    ⟨covers_vertex hp (h p hp).1, covers_vertex hp (h p hp).2⟩
  intro r hr
  rw [resample_eq] at hr
  rcases List.mem_append.1 hr with hr | hr
  · exact hvertex (List.mem_of_mem_take hr)
  · obtain ⟨⟨p, q⟩, hpq, hr⟩ := List.mem_flatMap.1 hr
    obtain ⟨hp, hq⟩ := mem_of_mem_segments hpq
    rcases List.mem_append.1 hr with hr | hr
    · obtain ⟨hx, hy⟩ := lead_interpolated h hcount hpq
      exact ⟨hx.covers hp hq hr, hy.covers hp hq hr⟩
    · rw [List.mem_singleton.1 hr]
      exact hvertex hq

/-- **Interpolated points stay on their segment.** A resampled line is its first point and, for each
segment, the interpolated points and the end. Both coordinates of the interpolated points lead from
the start of the segment towards the end. So all points are finite and in the box around the line,
and values outside it have no bearing on what a survey finds. -/
theorem resample_staysOnSegments (h : ∀ p ∈ line, p.Finite) (hcount : count ≤ maxPoints) :
    (resample count line =
      line.take 1 ++ (segments line).flatMap fun s => interpolated count line s ++ [s.2]) ∧
    (∀ s ∈ segments line, Lead Point.x s.1 s.2 (interpolated count line s) ∧
      Lead Point.y s.1 s.2 (interpolated count line s)) ∧
    (∀ p ∈ resample count line, p.Finite ∧ InBox line p) ∧
    ∀ (tree : FileTree) (schedule : Schedule) (s t : Survey), schedule.Fair →
      (∀ p, InBox line p → (s.values tree p).1 = (t.values tree p).1) →
        (schedule.run tree (resample count line) s).1 =
          (schedule.run tree (resample count line) t).1 := by
  have hbox := inBox_resample h hcount
  refine ⟨resample_eq count line, fun s hs => lead_interpolated h hcount hs,
    fun p hp => ⟨resample_finite h count p hp, hbox p hp⟩, fun tree schedule s t hfair hvalues => ?_⟩
  exact Schedule.run_congr hfair fun p hp => hvalues p (hbox p hp)

/-- A line that rises by eleven of the smallest units. A seventh of this is rounded to two. -/
def flat : List Point := [⟨0, 0⟩, ⟨7, 5.4e-323⟩]

theorem flat_staysOnSegments :
    (∀ p ∈ flat, p.Finite) ∧ 7 ≤ maxPoints ∧
      (interpolated 7 flat (⟨0, 0⟩, ⟨7, 5.4e-323⟩)).map Point.y =
        [1e-323, 2e-323, 3e-323, 4e-323, 5e-323, 6e-323] ∧
      Lead Point.y ⟨0, 0⟩ ⟨7, 5.4e-323⟩ (interpolated 7 flat (⟨0, 0⟩, ⟨7, 5.4e-323⟩)) ∧
      ∀ p ∈ resample 7 flat, p.Finite ∧ InBox flat p := by
  have hfinite : ∀ p ∈ flat, p.Finite := by decide +kernel
  have hcount : 7 ≤ maxPoints := by decide
  obtain ⟨-, hlead, hbox, -⟩ := resample_staysOnSegments hfinite hcount
  exact ⟨hfinite, hcount, by decide +kernel, (hlead _ List.mem_cons_self).2, hbox⟩

end Polyline

end Transect
