import Transect.Polyline
import Transect.Proofs.Float.Floor
import Transect.Proofs.Float.Size

/-!
# Lengths along a polyline

The distances along a line of finite points never go down, and the points that resampling puts on
the line are finite.
-/

namespace Transect

open Float.Model
open Float.Model.UnpackedFloat

variable {x y z : Float} {k l : WithTop ℚ} {a v : ℚ}

/-! ## Finite points -/

namespace Point

/-- Both coordinates are finite. -/
def Finite (p : Point) : Prop := p.x.isFinite = true ∧ p.y.isFinite = true

instance (p : Point) : Decidable p.Finite := inferInstanceAs (Decidable (_ ∧ _))

variable {p q : Point}

/-- The distance of two finite points has a size. If it is finite, their differences are finite and
not too large. -/
theorem size?_distance (hp : p.Finite) (hq : q.Finite) :
    ∃ l, size? (p.distance q) = some l ∧
      (l ≠ ⊤ → (∃ a, rat? (q - p).x = some a ∧ |a| < 2 ^ 512) ∧
        ∃ b, rat? (q - p).y = some b ∧ |b| < 2 ^ 512) := by
  obtain ⟨px, hpx⟩ := isFinite_iff.1 hp.1
  obtain ⟨py, hpy⟩ := isFinite_iff.1 hp.2
  obtain ⟨qx, hqx⟩ := isFinite_iff.1 hq.1
  obtain ⟨qy, hqy⟩ := isFinite_iff.1 hq.2
  have hx : IsNearest (q - p).x (qx - px) := isNearest_sub hqx hpx
  have hy : IsNearest (q - p).y (qy - py) := isNearest_sub hqy hpy
  obtain ⟨k, hk, hkfin⟩ := size?_mul_self hx.cases
  obtain ⟨l, hl, hlfin⟩ := size?_mul_self hy.cases
  obtain ⟨n, hn, hkn, hln⟩ := size?_add hk hl
  obtain ⟨r, hr, htop⟩ := size?_sqrt hn
  refine ⟨r, hr, fun hne => ?_⟩
  have hn : n ≠ ⊤ := fun h => hne (htop h)
  exact ⟨hkfin fun h => hn (top_le_iff.1 (h ▸ hkn)), hlfin fun h => hn (top_le_iff.1 (h ▸ hln))⟩

end Point

/-! ## Running totals -/

/-- A float that has a size, and one of no smaller size. -/
def NoLonger (x y : Float) : Prop := ∃ k l, size? x = some k ∧ size? y = some l ∧ k ≤ l

theorem NoLonger.trans (h : NoLonger x y) (h' : NoLonger y z) : NoLonger x z := by
  obtain ⟨k, l, hx, hy, hkl⟩ := h
  obtain ⟨l', n, hy', hz, hln⟩ := h'
  rw [hy] at hy'
  cases hy'
  exact ⟨k, n, hx, hz, hkl.trans hln⟩

theorem NoLonger.refl (h : size? x = some k) : NoLonger x x := ⟨k, k, h, h, le_rfl⟩

theorem noLonger_add (hx : size? x = some k) (hy : size? y = some l) :
    NoLonger x (x + y) ∧ NoLonger y (x + y) := by
  obtain ⟨n, hn, hkn, hln⟩ := size?_add hx hy
  exact ⟨⟨k, n, hx, hn, hkn⟩, ⟨l, n, hy, hn, hln⟩⟩

namespace Polyline

/-- The totals of the lengths so far, from a total on. -/
def running (s : Float) : List Float → List Float
  | [] => []
  | d :: ds => (s + d) :: running (s + d) ds

theorem foldl_totals (lengths : List Float) (s : Float) (sums : List Float) :
    lengths.foldl (fun (sum, sums) d => (sum + d, (sum + d) :: sums)) (s, sums) =
      (lengths.foldl (· + ·) s, (running s lengths).reverse ++ sums) := by
  induction lengths generalizing s sums with
  | nil => rfl
  | cons d ds ih => simp [running, ih]

theorem totals_eq (lengths : List Float) : totals lengths = running 0 lengths := by
  simp only [totals, foldl_totals]
  simp

def lengths (line : List Point) : List Float := (segments line).map fun (a, b) => a.distance b

theorem distances_eq {line : List Point} (h : line ≠ []) :
    distances line = 0 :: running 0 (lengths line) := by
  unfold distances
  rw [if_neg (by simpa using h), totals_eq]
  rfl

theorem length_eq (line : List Point) : length line = (lengths line).foldl (· + ·) 0 := by
  unfold length lengths
  rw [List.foldl_map]

theorem running_pairwise {ds : List Float} {s : Float} (hs : size? s = some k)
    (h : ∀ d ∈ ds, ∃ l, size? d = some l) : (s :: running s ds).Pairwise NoLonger := by
  induction ds generalizing s k with
  | nil => simp [running]
  | cons d ds ih =>
    obtain ⟨l, hl⟩ := h d List.mem_cons_self
    obtain ⟨hstep, -⟩ := noLonger_add hs hl
    obtain ⟨-, n, -, hn, -⟩ := hstep
    have hrest := ih hn fun d hd => h d (List.mem_cons_of_mem _ hd)
    refine List.Pairwise.cons ?_ hrest
    intro t ht
    rcases List.mem_cons.1 ht with rfl | ht
    · exact (noLonger_add hs hl).1
    · exact (noLonger_add hs hl).1.trans ((List.pairwise_cons.1 hrest).1 t ht)

/-- No part is longer than the whole. -/
theorem noLonger_foldl {ds : List Float} {s : Float} (hs : size? s = some k)
    (h : ∀ d ∈ ds, ∃ l, size? d = some l) :
    NoLonger s (ds.foldl (· + ·) s) ∧ ∀ d ∈ ds, NoLonger d (ds.foldl (· + ·) s) := by
  induction ds generalizing s k with
  | nil => exact ⟨.refl hs, by simp⟩
  | cons d ds ih =>
    obtain ⟨l, hl⟩ := h d List.mem_cons_self
    obtain ⟨hleft, hright⟩ := noLonger_add hs hl
    obtain ⟨-, n, -, hn, -⟩ := id hleft
    obtain ⟨hall, hparts⟩ := ih hn fun d hd => h d (List.mem_cons_of_mem _ hd)
    refine ⟨hleft.trans hall, fun e he => ?_⟩
    rcases List.mem_cons.1 he with rfl | he
    · exact hright.trans hall
    · exact hparts e he

/-! ## Resampled points -/

theorem rat?_floatOfNat {n : ℕ} (h : n ≤ wordBound) :
    rat? (floatOfNat n) = some (nearestFloat n) ∧ |nearestFloat n| ≤ 2 ^ (64 : ℤ) ∧
      (1 ≤ n → 1 ≤ nearestFloat n) := by
  have hn : |(n : ℚ)| ≤ 2 ^ (64 : ℤ) := by
    rw [Nat.abs_cast]
    have : (n : ℚ) ≤ (wordBound : ℕ) := by exact_mod_cast h
    refine this.trans (le_of_eq ?_)
    norm_num [wordBound]
  refine ⟨?_, ?_, fun h1 => ?_⟩
  · exact (isNearest_floatOfNat n).rat?_of_abs_le (hn.trans (two_zpow_le (by norm_num)))
  · exact (isFraction_two_zpow (by norm_num)).abs_nearestFloat_le hn
  · have hone : IsFraction 1 := isFraction_two_zpow (e := 0) (by norm_num)
    exact hone.le_nearestFloat (by exact_mod_cast h1)

/-- No step of an interpolation is too large for a float. -/
theorem rat?_interpolated {start d : Float} {a c : ℚ} {n i : ℕ} (ha : rat? start = some a)
    (hd : rat? d = some c) (hc : |c| < 2 ^ 512) (hn : 1 ≤ n) (hn' : n ≤ wordBound)
    (hi : i ≤ wordBound) :
    rat? (start + d / floatOfNat n * floatOfNat i) =
      some (nearestFloat (a + nearestFloat (nearestFloat (c / nearestFloat n) * nearestFloat i))) := by
  obtain ⟨hr, -, hr1⟩ := rat?_floatOfNat hn'
  obtain ⟨hq, hq64, -⟩ := rat?_floatOfNat hi
  generalize nearestFloat n = r at hr hr1 ⊢
  generalize nearestFloat i = q at hq hq64 ⊢
  have hrpos : 1 ≤ r := hr1 hn
  have hstep : |c / r| ≤ 2 ^ (512 : ℤ) := by
    rw [abs_div, abs_of_pos (by linarith : 0 < r)]
    have hc' : |c| ≤ 2 ^ (512 : ℤ) := hc.le.trans (le_of_eq (zpow_natCast 2 512).symm)
    exact (div_le_self (abs_nonneg c) hrpos).trans hc'
  have hquot := (isNearest_div hd hr (by linarith)).rat?_of_abs_le
    (hstep.trans (two_zpow_le (by norm_num)))
  have hquot' := (isFraction_two_zpow (by norm_num)).abs_nearestFloat_le hstep
  have hscaled : |nearestFloat (c / r) * q| ≤ 2 ^ (512 + 64 : ℤ) := by
    rw [abs_mul, two_zpow_add]
    exact mul_le_mul hquot' hq64 (abs_nonneg q) (two_zpow_pos 512).le
  have hprod := (isNearest_mul hquot hq).rat?_of_abs_le
    (hscaled.trans (two_zpow_le (by norm_num)))
  have hprod' := (isFraction_two_zpow (by norm_num)).abs_nearestFloat_le hscaled
  have hsum : |a + nearestFloat (nearestFloat (c / r) * q)| + 2 ^ (970 : ℤ) < floatBound := by
    have hmax := abs_add_le_floatBound ha
    have hsmall := hprod'.trans_lt (two_zpow_lt (by norm_num : (512 + 64 : ℤ) < 970))
    have htwo : (2 : ℚ) ^ (971 : ℤ) = 2 ^ (970 : ℤ) + 2 ^ (970 : ℤ) := by
      rw [show (971 : ℤ) = 1 + 970 by norm_num, two_zpow_add, zpow_one, two_mul]
    have htri := abs_add_le a (nearestFloat (nearestFloat (c / r) * q))
    rw [htwo] at hmax
    linarith only [hmax, hsmall, htri]
  exact (isNearest_add ha hprod).rat?_eq hsum

theorem one_le_share (count : ℕ) (part total : Float) : 1 ≤ share count part total :=
  Nat.le_max_left _ _

theorem share_le (count : ℕ) (part total : Float) : share count part total ≤ maxShare := by
  have h := floorWithin_bounds le_rfl (Int.natCast_nonneg maxShare)
    (floatOfNat count * part / total + 0.5)
  have hone : 1 ≤ maxShare := by decide
  unfold share
  omega

theorem unpack_half : unpack 0.5 = .finite .positive 4503599627370496 (-53) (by decide) := rfl

theorem floorWithin_add_half {hi : ℤ} (hhi : 0 ≤ hi) (hx : IsNothing (unpack x)) :
    floorWithin 0 hi (x + 0.5) = 0 := by
  rcases hx with hx | ⟨t, hx⟩
  · have hsum : unpack (x + 0.5) = .notANumber := by
      change unpack (.ofModel (.pack (UnpackedFloat.add Format.binary64 (unpack x) _))) = _
      rw [hx]
      exact unpack_pack_notANumber
    simp [floorWithin, floor?, limit, hsum]
  · have hsum : unpack (x + 0.5) = unpack 0.5 := by
      change unpack (.ofModel (.pack
        (UnpackedFloat.add Format.binary64 (unpack x) (unpack 0.5)))) = _
      rw [hx]
      exact unpack_ofModel_pack (stored_unpack 0.5)
    have hfloor : Binary.floor ⟨4503599627370496, -53⟩ = 0 := by decide
    rw [unpack_half] at hsum
    simp [floorWithin, floor?, hsum, hfloor, clamp, hhi]

/-- On a line of infinite length, no segment gets more than one point. -/
theorem share_of_infinite {s : Sign} (ht : unpack z = .infinity s) (count : ℕ) (part : Float) :
    share count part z = 1 := by
  have h := floorWithin_add_half (Int.natCast_nonneg maxShare)
    (isNothing_div_infinity ht (floatOfNat count * part))
  rw [share, h]
  rfl

theorem mem_of_mem_segments {line : List Point} {a b : Point} (h : (a, b) ∈ segments line) :
    a ∈ line ∧ b ∈ line := by
  obtain ⟨ha, hb⟩ := List.of_mem_zip h
  exact ⟨ha, List.mem_of_mem_tail hb⟩

theorem mem_lengths {line : List Point} {a b : Point} (h : (a, b) ∈ segments line) :
    a.distance b ∈ lengths line :=
  List.mem_map.2 ⟨(a, b), h, rfl⟩

theorem mem_fill {n : ℕ} {a b p : Point} (h : p ∈ fill n a b) :
    p = b ∨ ∃ i, 1 ≤ i ∧ i < n ∧
      p = a + ((b - a).divide (floatOfNat n)).scale (floatOfNat i) := by
  unfold fill at h
  rcases List.mem_append.1 h with h | h
  · obtain ⟨i, hi, rfl⟩ := List.mem_map.1 h
    rw [List.mem_range'_1] at hi
    exact .inr ⟨i, hi.1, by omega, rfl⟩
  · exact .inl (List.mem_singleton.1 h)

theorem fill_finite {n : ℕ} {a b : Point} (ha : a.Finite) (hb : b.Finite) (hn : n ≤ maxShare)
    (hx : ∃ c, rat? (b - a).x = some c ∧ |c| < 2 ^ 512)
    (hy : ∃ c, rat? (b - a).y = some c ∧ |c| < 2 ^ 512) : ∀ p ∈ fill n a b, p.Finite := by
  intro p hp
  have hword : maxShare ≤ wordBound := by decide
  rcases mem_fill hp with rfl | ⟨i, hi, hin, rfl⟩
  · exact hb
  · obtain ⟨x, hx0⟩ := isFinite_iff.1 ha.1
    obtain ⟨y, hy0⟩ := isFinite_iff.1 ha.2
    obtain ⟨c, hc, hbound⟩ := hx
    obtain ⟨c', hc', hbound'⟩ := hy
    exact ⟨isFinite_iff.2 ⟨_, rat?_interpolated hx0 hc hbound (by omega) (by omega) (by omega)⟩,
      isFinite_iff.2 ⟨_, rat?_interpolated hy0 hc' hbound' (by omega) (by omega) (by omega)⟩⟩

theorem size?_zero : size? 0 = some 0 := rfl

variable {line : List Point}

theorem size?_lengths (h : ∀ p ∈ line, p.Finite) : ∀ d ∈ lengths line, ∃ l, size? d = some l := by
  intro d hd
  obtain ⟨⟨a, b⟩, hab, rfl⟩ := List.mem_map.1 hd
  obtain ⟨ha, hb⟩ := mem_of_mem_segments hab
  obtain ⟨l, hl, -⟩ := Point.size?_distance (h a ha) (h b hb)
  exact ⟨l, hl⟩

/-- On a line of infinite length no segment gets more than one point. If the length is finite, so
are the differences of neighbours, and they are not too large. -/
theorem segment_cases {a b : Point} (h : ∀ p ∈ line, p.Finite) (hab : (a, b) ∈ segments line) :
    (∀ count part, share count part (length line) = 1) ∨
      (∃ t, rat? (length line) = some t) ∧ (∃ c, rat? (b - a).x = some c ∧ |c| < 2 ^ 512) ∧
        ∃ c, rat? (b - a).y = some c ∧ |c| < 2 ^ 512 := by
  obtain ⟨ha, hb⟩ := mem_of_mem_segments hab
  obtain ⟨⟨-, total, -, htotal, -⟩, hparts⟩ := noLonger_foldl size?_zero (size?_lengths h)
  rw [← length_eq] at htotal hparts
  rcases size?_cases htotal with ⟨t, rfl, ht, -⟩ | ⟨-, hinf⟩
  · obtain ⟨l, hl, hfin⟩ := Point.size?_distance (h a ha) (h b hb)
    obtain ⟨l', t', hl', ht', hle⟩ := hparts _ (mem_lengths hab)
    rw [hl] at hl'
    rw [htotal] at ht'
    cases hl'
    cases ht'
    refine .inr ⟨⟨t, ht⟩, hfin fun htop => ?_⟩
    rw [htop, top_le_iff] at hle
    exact WithTop.coe_ne_top hle
  · exact .inl (share_of_infinite hinf)

/-- **Resampled points are finite**, also where the length of the line is not. -/
theorem resample_finite (h : ∀ p ∈ line, p.Finite) (count : ℕ) :
    ∀ p ∈ resample count line, p.Finite := by
  unfold resample
  intro p hp
  simp only at hp
  split at hp
  · exact h p hp
  · rcases List.mem_append.1 hp with hp | hp
    · exact h p (List.mem_of_mem_take hp)
    · obtain ⟨⟨a, b⟩, hab, hp⟩ := List.mem_flatMap.1 hp
      obtain ⟨ha, hb⟩ := mem_of_mem_segments hab
      rcases segment_cases h hab with hone | ⟨-, hx, hy⟩
      · rw [hone] at hp
        rcases mem_fill hp with rfl | ⟨i, hi, hin, -⟩
        · exact h p hb
        · omega
      · exact fill_finite (h a ha) (h b hb) (share_le _ _ _) hx hy p hp

/-- **Distances never go down** along a line of finite points, and the first one is zero. -/
theorem distances_pairwise (h : ∀ p ∈ line, p.Finite) : (distances line).Pairwise NoLonger := by
  rcases eq_or_ne line [] with rfl | hne
  · exact .nil
  · rw [distances_eq hne]
    exact running_pairwise size?_zero (size?_lengths h)

end Polyline

end Transect
