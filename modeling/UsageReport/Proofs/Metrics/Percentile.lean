/-
Percentiles over exact numbers.  A percentage marks a rank, a number between the place of the first
sample and that of the last, and the percentile is what stands at that rank on the line through all
samples.  So percentiles grow with the percentage and with the samples, and never leave their range;
a summary lists its numbers in order.
-/
import Mathlib.Algebra.Order.BigOperators.Group.List
import Mathlib.Data.List.Forall2
import Mathlib.Data.List.GetD
import Mathlib.Data.List.Pairwise
import Mathlib.Data.List.Sort
import Mathlib.Data.Rat.Floor
import Mathlib.Tactic.Linarith
import UsageReport.Proofs.Metrics.Histogram

namespace UsageReport

/-- Rational numbers as a scale: nothing is rounded, and all numbers compare. -/
instance exactScale : Scale ℚ where
  ofInt n := n
  add := (· + ·)
  sub := (· - ·)
  mul := (· * ·)
  div := (· / ·)
  less x y := decide (x < y)
  ordered _ := true
  floor? x := some ⌊x⌋
  ceil? x := some ⌈x⌉

/-! ### Ranks -/

theorem clampPercent_eq (p : ℚ) : clampPercent p = min (max p 0) 100 := by
  have hzero : (if p < 0 then 0 else p) = max p 0 := by
    rcases lt_or_ge p 0 with hp | hp
    · rw [if_pos hp, max_eq_right hp.le]
    · rw [if_neg hp.not_gt, max_eq_left hp]
  have hclamp : clampPercent p =
      if 100 < (if p < 0 then 0 else p) then (100 : ℚ) else if p < 0 then 0 else p := by
    simp [clampPercent, Scale.less, Scale.ofInt]
  rw [hclamp, hzero]
  rcases lt_or_ge 100 (max p 0) with hp | hp
  · rw [if_pos hp, min_eq_right hp.le]
  · rw [if_neg hp.not_gt, min_eq_left hp]

/-- The rank that a percentage marks among samples: zero is the place of the first one. -/
def percentRank (count : Nat) (p : ℚ) : ℚ := (count - 1 : Nat) * (clampPercent p / 100)

section Rank

variable (count : Nat) {p q : ℚ}

theorem percentRank_nonneg (p : ℚ) : 0 ≤ percentRank count p := by
  rw [percentRank, clampPercent_eq]
  have hp : 0 ≤ min (max p 0) 100 := le_min (le_max_right p 0) (by norm_num)
  positivity

theorem percentRank_le (p : ℚ) : percentRank count p ≤ (count - 1 : Nat) := by
  rw [percentRank, clampPercent_eq]
  have hp : min (max p 0) 100 / 100 ≤ 1 := (div_le_one (by norm_num)).mpr (min_le_right _ _)
  exact mul_le_of_le_one_right (Nat.cast_nonneg _) hp

theorem percentRank_mono (h : p ≤ q) : percentRank count p ≤ percentRank count q := by
  rw [percentRank, percentRank, clampPercent_eq, clampPercent_eq]
  gcongr

theorem percentRank_of_nonpos (h : p ≤ 0) : percentRank count p = 0 := by
  rw [percentRank, clampPercent_eq, max_eq_right h]
  simp

theorem percentRank_of_hundred_le (h : 100 ≤ p) : percentRank count p = (count - 1 : Nat) := by
  rw [percentRank, clampPercent_eq, max_eq_left (by linarith), min_eq_right h]
  norm_num

end Rank

/-! ### The line through all samples -/

/-- What stands at a rank: the sample there, or the weighted sum of the two around it. -/
def interpolated (xs : List ℚ) (k : ℚ) : ℚ :=
  xs.getD ⌊k⌋₊ 0 * (1 - Int.fract k) + xs.getD ⌈k⌉₊ 0 * Int.fract k

theorem interpolated_natCast (xs : List ℚ) (i : Nat) : interpolated xs i = xs.getD i 0 := by
  simp [interpolated]

/-- A weighted sum lies between what it is made of. -/
theorem weighted_between {a b t : ℚ} (hab : a ≤ b) (hzero : 0 ≤ t) (hone : t ≤ 1) :
    a ≤ a * (1 - t) + b * t ∧ a * (1 - t) + b * t ≤ b := by
  have hlower : 0 ≤ (b - a) * t := mul_nonneg (sub_nonneg.mpr hab) hzero
  have hupper : 0 ≤ (b - a) * (1 - t) := mul_nonneg (sub_nonneg.mpr hab) (sub_nonneg.mpr hone)
  constructor <;> linarith

section Interpolated

variable {xs : List ℚ} {k l : ℚ}

theorem getElem?_eq_some_getD {i : Nat} (h : i < xs.length) : xs[i]? = some (xs.getD i 0) := by
  rw [List.getElem?_eq_getElem h, List.getD_eq_getElem _ _ h]

theorem getD_le_getD (hasc : xs.Pairwise (· ≤ ·)) {i j : Nat} (hij : i ≤ j) (hj : j < xs.length) :
    xs.getD i 0 ≤ xs.getD j 0 := by
  rw [List.getD_eq_getElem _ _ (hij.trans_lt hj), List.getD_eq_getElem _ _ hj]
  exact hasc.rel_get_of_le (a := ⟨i, hij.trans_lt hj⟩) (b := ⟨j, hj⟩) hij

theorem interpolated_between (hasc : xs.Pairwise (· ≤ ·)) (hlast : ⌈k⌉₊ < xs.length) :
    xs.getD ⌊k⌋₊ 0 ≤ interpolated xs k ∧ interpolated xs k ≤ xs.getD ⌈k⌉₊ 0 :=
  weighted_between (getD_le_getD hasc (Nat.floor_le_ceil k) hlast) (Int.fract_nonneg k)
    (Int.fract_lt_one k).le

/-- The line never falls.  Two ranks have a sample between them, or lie between the same two. -/
theorem interpolated_mono (hasc : xs.Pairwise (· ≤ ·)) (hk : 0 ≤ k) (hkl : k ≤ l)
    (hlast : ⌈l⌉₊ < xs.length) : interpolated xs k ≤ interpolated xs l := by
  have hceil : ⌈k⌉₊ ≤ ⌈l⌉₊ := Nat.ceil_mono hkl
  rcases le_or_gt ⌈k⌉₊ ⌊l⌋₊ with hapart | hsame
  · -- a sample stands between the two ranks
    calc interpolated xs k ≤ xs.getD ⌈k⌉₊ 0 :=
          (interpolated_between hasc (hceil.trans_lt hlast)).2
      _ ≤ xs.getD ⌊l⌋₊ 0 := getD_le_getD hasc hapart ((Nat.floor_le_ceil l).trans_lt hlast)
      _ ≤ interpolated xs l := (interpolated_between hasc hlast).1
  · -- the same two samples stand around both, and the upper one weighs more at the higher rank
    have hfloor : ⌊k⌋₊ ≤ ⌊l⌋₊ := Nat.floor_mono hkl
    have hkfloor := Nat.ceil_le_floor_add_one k
    have hlfloor := Nat.ceil_le_floor_add_one l
    have hfloors : ⌊l⌋₊ = ⌊k⌋₊ := by omega
    have hceils : ⌈l⌉₊ = ⌈k⌉₊ := by omega
    have hfract : Int.fract k ≤ Int.fract l := by
      rw [Int.fract, Int.fract, ← natCast_floor_eq_intCast_floor hk,
        ← natCast_floor_eq_intCast_floor (hk.trans hkl), hfloors]
      linarith
    have hsamples := getD_le_getD hasc (Nat.floor_le_ceil k) (hceil.trans_lt hlast)
    have hmore := mul_nonneg (sub_nonneg.mpr hsamples) (sub_nonneg.mpr hfract)
    rw [interpolated, interpolated, hfloors, hceils]
    linarith

/-- Samples that are not smaller lift the line. -/
theorem interpolated_le_interpolated {ys : List ℚ} (h : List.Forall₂ (· ≤ ·) xs ys) (k : ℚ) :
    interpolated xs k ≤ interpolated ys k := by
  have hsample : ∀ i, xs.getD i 0 ≤ ys.getD i 0 := by
    intro i
    rcases lt_or_ge i xs.length with hi | hi
    · have hys : i < ys.length := h.length_eq ▸ hi
      rw [List.getD_eq_getElem _ _ hi, List.getD_eq_getElem _ _ hys]
      exact h.get hi hys
    · rw [List.getD_eq_default _ _ hi, List.getD_eq_default _ _ (h.length_eq ▸ hi)]
  have hfract := Int.fract_nonneg k
  have hrest : 0 ≤ 1 - Int.fract k := sub_nonneg.mpr (Int.fract_lt_one k).le
  exact add_le_add (mul_le_mul_of_nonneg_right (hsample _) hrest)
    (mul_le_mul_of_nonneg_right (hsample _) hfract)

end Interpolated

/-! ### Percentiles -/

theorem place?_eq (count : Nat) (p : ℚ) :
    let k := percentRank count p
    place? count p = some ⟨⌊k⌋.toNat, ⌈k⌉.toNat, ⌈k⌉ - k, k - ⌊k⌋⟩ := rfl

/-- A rank without room between the whole numbers around it is a whole number. -/
theorem eq_floor_of_floor_eq_ceil {k : ℚ} (hk : 0 ≤ k) (h : ⌊k⌋₊ = ⌈k⌉₊) : k = ⌊k⌋₊ :=
  le_antisymm (h ▸ Nat.le_ceil k) (Nat.floor_le hk)

theorem ceil_sub_of_floor_ne_ceil {k : ℚ} (h : ⌊k⌋₊ ≠ ⌈k⌉₊) : ⌈k⌉ - k = 1 - Int.fract k := by
  apply Int.ceil_sub_self_eq
  intro hwhole
  apply h
  rw [Int.fract, sub_eq_zero] at hwhole
  rw [← Int.floor_toNat, ← Int.ceil_toNat]
  conv_rhs => rw [hwhole, Int.ceil_intCast]

section Percentile

variable {xs : List ℚ} (hne : xs ≠ []) (p : ℚ)

include hne

theorem ceil_percentRank_lt : ⌈percentRank xs.length p⌉₊ < xs.length := by
  have hle : ⌈percentRank xs.length p⌉₊ ≤ xs.length - 1 :=
    Nat.ceil_le.mpr (percentRank_le xs.length p)
  have hpos : 0 < xs.length := List.length_pos_iff.mpr hne
  omega

/-- A percentile is what stands at the rank of its percentage. -/
theorem percentile?_eq : percentile? xs p = some (interpolated xs (percentRank xs.length p)) := by
  have hk := percentRank_nonneg xs.length p
  have hlast := ceil_percentRank_lt hne p
  rw [percentile?, place?_eq, Option.bind_some]
  generalize percentRank xs.length p = k at hk hlast ⊢
  have hfirst : ⌊k⌋₊ < xs.length := (Nat.floor_le_ceil k).trans_lt hlast
  simp only [Place.sample?, Int.floor_toNat, Int.ceil_toNat, getElem?_eq_some_getD hfirst,
    getElem?_eq_some_getD hlast, Option.bind_eq_bind, Option.bind_some]
  by_cases hwhole : ⌊k⌋₊ = ⌈k⌉₊
  · have hvalue : interpolated xs k = xs.getD ⌊k⌋₊ 0 := by
      conv_lhs => rw [eq_floor_of_floor_eq_ceil hk hwhole]
      exact interpolated_natCast xs ⌊k⌋₊
    rw [if_pos hwhole, hvalue]
    rfl
  · rw [if_neg hwhole, ceil_sub_of_floor_ne_ceil hwhole, Int.self_sub_floor]
    rfl

theorem head_le_interpolated (hasc : xs.Pairwise (· ≤ ·)) :
    xs.head hne ≤ interpolated xs (percentRank xs.length p) := by
  have hlast := ceil_percentRank_lt hne p
  have hmono := interpolated_mono hasc le_rfl (percentRank_nonneg xs.length p) hlast
  rwa [← Nat.cast_zero, interpolated_natCast, List.getD_eq_getElem _ _ (by omega),
    ← List.head_eq_getElem hne] at hmono

theorem interpolated_le_getLast (hasc : xs.Pairwise (· ≤ ·)) :
    interpolated xs (percentRank xs.length p) ≤ xs.getLast hne := by
  have hpos : 0 < xs.length := List.length_pos_iff.mpr hne
  have hmono := interpolated_mono hasc (percentRank_nonneg xs.length p)
    (percentRank_le xs.length p) (by rw [Nat.ceil_natCast]; omega)
  rwa [interpolated_natCast, List.getD_eq_getElem _ _ (by omega),
    ← List.getLast_eq_getElem hne] at hmono

variable {p}

theorem interpolated_of_nonpos (h : p ≤ 0) :
    interpolated xs (percentRank xs.length p) = xs.head hne := by
  have hpos : 0 < xs.length := List.length_pos_iff.mpr hne
  rw [percentRank_of_nonpos _ h, ← Nat.cast_zero, interpolated_natCast,
    List.getD_eq_getElem _ _ hpos, List.head_eq_getElem hne]

theorem interpolated_of_hundred_le (h : 100 ≤ p) :
    interpolated xs (percentRank xs.length p) = xs.getLast hne := by
  have hpos : 0 < xs.length := List.length_pos_iff.mpr hne
  rw [percentRank_of_hundred_le _ h, interpolated_natCast,
    List.getD_eq_getElem _ _ (by omega), List.getLast_eq_getElem hne]

theorem interpolated_percentRank_mono (hasc : xs.Pairwise (· ≤ ·)) {q : ℚ} (h : p ≤ q) :
    interpolated xs (percentRank xs.length p) ≤ interpolated xs (percentRank xs.length q) :=
  interpolated_mono hasc (percentRank_nonneg xs.length p) (percentRank_mono xs.length h)
    (ceil_percentRank_lt hne q)

end Percentile

/-! ### Summaries -/

/-- The numbers of a summary of samples stand in order. -/
structure Summary.Orderly (samples : List ℚ) (s : Summary ℚ) : Prop where
  least : IsLeast {x | x ∈ samples} s.least
  greatest : IsGreatest {x | x ∈ samples} s.greatest
  least_le_median : s.least ≤ s.median
  median_le_high : s.median ≤ s.high
  high_le_greatest : s.high ≤ s.greatest
  least_le_average : s.least ≤ s.average
  average_le_greatest : s.average ≤ s.greatest

section Summary

variable (samples : List ℚ)

theorem ascending_eq : ascending samples = samples.mergeSort fun x y => decide (x ≤ y) := by
  have hle : (fun x y : ℚ => !Scale.less y x) = fun x y => decide (x ≤ y) := by
    funext x y
    simp [Scale.less, ← not_lt]
  rw [ascending, if_pos (by simp [Scale.ordered]), hle]

theorem ascending_perm : (ascending samples).Perm samples := by
  rw [ascending_eq]
  exact List.mergeSort_perm _ _

theorem ascending_pairwise : (ascending samples).Pairwise (· ≤ ·) := by
  rw [ascending_eq]
  exact List.pairwise_mergeSort' (· ≤ ·) samples

variable {samples}

theorem ascending_ne_nil (hne : samples ≠ []) : ascending samples ≠ [] := by
  intro hnil
  exact hne (List.nil_perm.mp (hnil ▸ ascending_perm samples))

/-- Samples have a summary, made of their ascending list. -/
theorem summarize?_eq (hne : samples ≠ []) :
    let xs := ascending samples
    summarize? samples = some
      { count := xs.length
        least := xs.head (ascending_ne_nil hne)
        greatest := xs.getLast (ascending_ne_nil hne)
        average := xs.sum / xs.length
        median := interpolated xs (percentRank xs.length 50)
        high := interpolated xs (percentRank xs.length 95) } := by
  intro xs
  have hxs : xs ≠ [] := ascending_ne_nil hne
  have hhead : (ascending samples).head? = some (xs.head hxs) := List.head?_eq_some_head hxs
  have hlast : (ascending samples).getLast? = some (xs.getLast hxs) :=
    List.getLast?_eq_some_getLast hxs
  have hsum : xs.foldl Scale.add (Scale.ofInt 0) = xs.sum := List.sum_eq_foldl.symm
  rw [summarize?, hhead, hlast]
  simp only [Option.bind_eq_bind, Option.bind_some]
  rw [percentile?_eq hxs, percentile?_eq hxs, hsum]
  rfl

theorem average_between {xs : List ℚ} (hne : xs ≠ []) {low high : ℚ} (hlow : ∀ x ∈ xs, low ≤ x)
    (hhigh : ∀ x ∈ xs, x ≤ high) : low ≤ xs.sum / xs.length ∧ xs.sum / xs.length ≤ high := by
  have hpos : (0 : ℚ) < xs.length := Nat.cast_pos.mpr (List.length_pos_iff.mpr hne)
  have hleast := List.card_nsmul_le_sum xs low hlow
  have hgreatest := List.sum_le_card_nsmul xs high hhigh
  rw [nsmul_eq_mul, mul_comm] at hleast hgreatest
  exact ⟨(le_div_iff₀ hpos).mpr hleast, (div_le_iff₀ hpos).mpr hgreatest⟩

theorem summarize?_orderly (hne : samples ≠ []) :
    ∃ s, summarize? samples = some s ∧ s.Orderly samples := by
  have hasc := ascending_pairwise samples
  have hxs := ascending_ne_nil hne
  have hmem : ∀ x, x ∈ ascending samples ↔ x ∈ samples := fun x => (ascending_perm samples).mem_iff
  have hlow : ∀ x ∈ ascending samples, (ascending samples).head hxs ≤ x :=
    fun x hx => hasc.rel_head hx
  have hhigh : ∀ x ∈ ascending samples, x ≤ (ascending samples).getLast hxs :=
    fun x hx => hasc.rel_getLast hx
  have haverage := average_between hxs hlow hhigh
  refine ⟨_, summarize?_eq hne, ?_⟩
  constructor
  case least =>
    exact ⟨(hmem _).mp (List.head_mem hxs), fun x hx => hlow x ((hmem x).mpr hx)⟩
  case greatest =>
    exact ⟨(hmem _).mp (List.getLast_mem hxs), fun x hx => hhigh x ((hmem x).mpr hx)⟩
  case least_le_median => exact head_le_interpolated hxs 50 hasc
  case median_le_high => exact interpolated_percentRank_mono hxs hasc (by norm_num)
  case high_le_greatest => exact interpolated_le_getLast hxs 95 hasc
  case least_le_average => exact haverage.1
  case average_le_greatest => exact haverage.2

end Summary

/-- Percentiles of exact samples in ascending order.  Both places of a percentage lie among the
samples, whatever the percentage is.  There is a percentile, and it lies between the first sample
and the last, which it is from zero down and from a hundred up; it does not fall when the
percentage rises, nor when samples do.  So the summary of a window, which holds the last samples
of all that were taken, has its median and its high mark in order between the least and the
greatest, and the average there too. -/
theorem percentiles_keep_order :
    (∀ (xs : List ℚ) (hne : xs ≠ []), xs.Pairwise (· ≤ ·) → ∀ p : ℚ,
      (let k := percentRank xs.length p
       place? xs.length p = some ⟨⌊k⌋.toNat, ⌈k⌉.toNat, ⌈k⌉ - k, k - ⌊k⌋⟩ ∧
        0 ≤ ⌊k⌋ ∧ ⌊k⌋ < xs.length ∧ 0 ≤ ⌈k⌉ ∧ ⌈k⌉ < xs.length) ∧
      ∃ r, percentile? xs p = some r ∧ xs.head hne ≤ r ∧ r ≤ xs.getLast hne ∧
        (p ≤ 0 → r = xs.head hne) ∧ (100 ≤ p → r = xs.getLast hne) ∧
        (∀ q, p ≤ q → ∃ s, percentile? xs q = some s ∧ r ≤ s) ∧
        ∀ ys, List.Forall₂ (· ≤ ·) xs ys → ∃ s, percentile? ys p = some s ∧ r ≤ s) ∧
    ∀ (limit : Nat) (samples : List ℚ),
      let window := samples.foldl (fun kept x => Metrics.lastOf limit (kept ++ [x])) []
      window = Metrics.lastOf limit samples ∧
        (window ≠ [] → ∃ s, summarize? window = some s ∧ s.Orderly window) := by
  refine ⟨fun xs hne hasc p => ⟨?places, _, percentile?_eq hne p, ?_⟩, fun limit samples =>
    ⟨Metrics.foldl_lastOf limit samples, summarize?_orderly⟩⟩
  case places =>
    intro k
    have hfloor : 0 ≤ ⌊k⌋ := Int.floor_nonneg.mpr (percentRank_nonneg _ p)
    have hle : ⌊k⌋ ≤ ⌈k⌉ := Int.floor_le_ceil k
    have hlast : ⌈k⌉.toNat < xs.length := by
      rw [Int.ceil_toNat]
      exact ceil_percentRank_lt hne p
    exact ⟨place?_eq xs.length p, hfloor, by omega, by omega, by omega⟩
  refine ⟨head_le_interpolated hne p hasc, interpolated_le_getLast hne p hasc,
    interpolated_of_nonpos hne, interpolated_of_hundred_le hne, ?rising, ?lifted⟩
  case rising =>
    intro q hq
    exact ⟨_, percentile?_eq hne q, interpolated_percentRank_mono hne hasc hq⟩
  case lifted =>
    intro ys hys
    have hlength : xs.length = ys.length := hys.length_eq
    have hnil : ys ≠ [] := by
      rintro rfl
      exact hne (List.length_eq_zero_iff.mp hlength)
    refine ⟨_, percentile?_eq hnil p, ?_⟩
    rw [← hlength]
    exact interpolated_le_interpolated hys _

theorem percentiles_keep_order_sample :
    (∃ r, percentile? [1, 2, 4] (25 : ℚ) = some r ∧ 1 ≤ r ∧ r ≤ 4 ∧
      (∃ s, percentile? [1, 2, 4] 95 = some s ∧ r ≤ s) ∧
      ∃ s, percentile? [1, 3, 4] 25 = some s ∧ r ≤ s) ∧
    percentile? [1, 2, 4] (-5 : ℚ) = some 1 ∧ percentile? [1, 2, 4] (200 : ℚ) = some 4 ∧
    ∃ s, summarize? [3, (1 : ℚ)] = some s ∧ s.Orderly [3, 1] := by
  obtain ⟨hpercentile, hsummary⟩ := percentiles_keep_order
  have hasc : List.Pairwise (· ≤ ·) [1, 2, (4 : ℚ)] := by decide
  have hat := hpercentile [1, 2, 4] (by simp) hasc
  refine ⟨?_, ?_, ?_, (hsummary 2 [7, 3, 1]).2 (by simp [Metrics.lastOf])⟩
  · obtain ⟨-, r, hr, hfirst, hlast, -, -, hrising, hlifted⟩ := hat 25
    exact ⟨r, hr, hfirst, hlast, hrising 95 (by norm_num), hlifted [1, 3, 4] (by norm_num)⟩
  · obtain ⟨-, r, hr, -, -, hfirst, -⟩ := hat (-5)
    rw [hr, hfirst (by norm_num)]
    rfl
  · obtain ⟨-, r, hr, -, -, -, hlast, -⟩ := hat 200
    rw [hr, hlast (by norm_num)]
    rfl

/-- The median of ten samples lies halfway between the two in the middle. -/
example : percentile? [10, 11, 12, 13, 14, 15, 16, 17, 18, 19] (50 : ℚ) = some (29 / 2) := by
  decide +kernel

end UsageReport
