import Mathlib.Algebra.BigOperators.Ring.List
import Mathlib.Algebra.Order.BigOperators.Group.List
import Mathlib.Data.Rat.Floor
import Mathlib.Tactic.Linarith
import Mathlib.Tactic.Positivity
import Mathlib.Tactic.Ring
import Mathlib.Tactic.FieldSimp

/-! Resampling of a grid: where the cells of one row lie in another, and weighted sums of neighbouring samples. -/

namespace Bilinear

/-- The conversion of a number to an integer, toward zero. -/
def truncate (value : ℚ) : ℤ := if 0 ≤ value then ⌊value⌋ else ⌈value⌉

/-- The start of cell `i` of `target` cells in a row of `source` cells. -/
def start (source target i : ℕ) : ℚ := i * (source / target)

def centre (source target i : ℕ) : ℚ := (i + 1 / 2) * (source / target) - 1 / 2

def cell (source target i : ℕ) : ℕ := ((2 * i + 1) * source - target) / (2 * target)

/-- How far behind that cell's own centre it is. -/
def fraction (source target i : ℕ) : ℚ := centre source target i - cell source target i

theorem truncate_div (numerator denominator : ℕ) : truncate (numerator / denominator : ℚ) = (numerator / denominator : ℕ) := by
  have nonneg : (0 : ℚ) ≤ numerator / denominator := by positivity
  rw [truncate, if_pos nonneg, Rat.floor_natCast_div_natCast]
  rfl

/-- What is between minus one and zero is dropped. -/
theorem truncate_small {value : ℚ} (low : -1 < value) (high : value < 1) : truncate value = 0 := by
  unfold truncate
  split
  next nonneg => exact Int.floor_eq_zero_iff.mpr ⟨nonneg, high⟩
  next negative =>
    rw [Int.ceil_eq_zero_iff]
    exact ⟨low, (not_le.mp negative).le⟩

theorem truncate_natCast (value : ℕ) : truncate (value : ℚ) = value := by
  have whole := truncate_div value 1
  rwa [Nat.cast_one, div_one, Nat.div_one] at whole

theorem truncate_start (source target i : ℕ) : truncate (start source target i) = (i * source / target : ℕ) := by
  rw [start, ← truncate_div, Nat.cast_mul, mul_div_assoc]

variable {source target i : ℕ}

theorem centre_eq (positive : 0 < target) :
    centre source target i = ((2 * i + 1) * source - target : ℚ) / (2 * target) := by
  have nonzero : (target : ℚ) ≠ 0 := by positivity
  unfold centre
  field_simp

theorem centre_nonneg_iff (positive : 0 < target) : 0 ≤ centre source target i ↔ target ≤ (2 * i + 1) * source := by
  have twice : (0 : ℚ) < 2 * target := by positivity
  rw [centre_eq positive, le_div_iff₀ twice, zero_mul, sub_nonneg]
  norm_cast

theorem centre_low (positive : 0 < target) : -(1 / 2) ≤ centre source target i := by
  have moved : (0 : ℚ) ≤ (i + 1 / 2) * (source / target) := by positivity
  unfold centre
  linarith

/-- Truncation leads to the cell, since no centre lies more than half a cell before the first one. -/
theorem truncate_centre (positive : 0 < target) :
    truncate (centre source target i) = cell source target i := by
  by_cases past : target ≤ (2 * i + 1) * source
  · have ratio : centre source target i = (((2 * i + 1) * source - target : ℕ) : ℚ) / ((2 * target : ℕ) : ℚ) := by
      rw [centre_eq positive, Nat.cast_sub past]
      push_cast
      rfl
    rw [ratio, truncate_div, cell]
  · have negative := mt (centre_nonneg_iff positive).mp past
    have none : cell source target i = 0 := by
      rw [cell, Nat.sub_eq_zero_of_le (by omega), Nat.zero_div]
    rw [none, truncate_small]
    · rfl
    · have low : -(1 / 2) ≤ centre source target i := centre_low positive
      linarith
    · linarith

theorem fraction_nonneg_iff (positive : 0 < target) :
    0 ≤ fraction source target i ↔ target ≤ (2 * i + 1) * source := by
  rw [← centre_nonneg_iff positive, fraction, sub_nonneg]
  have truncated : truncate (centre source target i) = cell source target i := truncate_centre positive
  constructor
  · intro behind
    exact (Nat.cast_nonneg _).trans behind
  · intro nonneg
    rw [truncate, if_pos nonneg] at truncated
    have below := Int.floor_le (centre source target i)
    rwa [truncated, Int.cast_natCast] at below

theorem fraction_lt_one (positive : 0 < target) : fraction source target i < 1 := by
  have truncated : truncate (centre source target i) = cell source target i := truncate_centre positive
  unfold truncate at truncated
  rw [fraction]
  split at truncated
  next =>
    have above := Int.lt_floor_add_one (centre source target i)
    rw [truncated, Int.cast_natCast] at above
    linarith
  next negative =>
    have nonneg : (0 : ℚ) ≤ cell source target i := Nat.cast_nonneg _
    linarith

/-- The centre of a cell of the one row is in a cell of the other. -/
theorem cell_lt (some : 0 < source) (inside : i < target) : cell source target i < source := by
  rw [cell, Nat.div_lt_iff_lt_mul (by omega)]
  have columns : (2 * i + 1) * source ≤ (2 * target - 1) * source := Nat.mul_le_mul_right _ (by omega)
  have total : (2 * target - 1) * source + source = source * (2 * target) := by
    rw [← Nat.succ_mul, Nat.succ_eq_add_one, Nat.sub_add_cancel (by omega), Nat.mul_comm]
  omega

/-- The last cell of the row is reached exactly by rows that are not longer than the other. -/
theorem cell_last_iff (some : 0 < source) (positive : 0 < target) :
    source ≤ cell source target (target - 1) + 1 ↔ source ≤ target := by
  have total : (2 * (target - 1) + 1) * source + source = (source - 1) * (2 * target) + 2 * target := by
    have twice : 2 * (target - 1) + 1 + 1 = 2 * target := by omega
    rw [← Nat.succ_mul, ← Nat.succ_mul, Nat.succ_eq_add_one, Nat.succ_eq_add_one, Nat.sub_add_cancel some, twice, Nat.mul_comm]
  have reach : source - 1 ≤ cell source target (target - 1) ↔
      (source - 1) * (2 * target) ≤ (2 * (target - 1) + 1) * source - target := Nat.le_div_iff_mul_le (by omega)
  have grows : source - 1 ≤ (source - 1) * (2 * target) := Nat.le_mul_of_pos_right _ (by omega)
  omega

/-- In a longer row no cell of the shorter one reaches the last. -/
theorem cell_lt_last (shorter : target < source) (inside : i < target) : cell source target i + 1 < source := by
  have columns : (2 * i + 1) * source ≤ (2 * target - 1) * source := Nat.mul_le_mul_right _ (by omega)
  have total : (2 * target - 1) * source + source = (source - 1) * (2 * target) + 2 * target := by
    rw [← Nat.succ_mul, ← Nat.succ_mul, Nat.succ_eq_add_one, Nat.succ_eq_add_one, Nat.sub_add_cancel (by omega),
      Nat.sub_add_cancel (by omega), Nat.mul_comm]
  have grows : source - 1 ≤ (source - 1) * (2 * target) := Nat.le_mul_of_pos_right _ (by omega)
  have below : cell source target i < source - 1 := (Nat.div_lt_iff_lt_mul (by omega)).mpr (by omega)
  omega

/-- The first cell is not in the last of the other row. -/
theorem cell_zero_lt (two : 2 ≤ source) (positive : 0 < target) : cell source target 0 + 1 < source := by
  have below : cell source target 0 < source - 1 := by
    refine (Nat.div_lt_iff_lt_mul (by omega)).mpr ?_
    have grows : (source - 1) * 2 ≤ (source - 1) * (2 * target) := Nat.mul_le_mul_left _ (by omega)
    omega
  omega

theorem cell_mono {j : ℕ} (ordered : i ≤ j) : cell source target i ≤ cell source target j :=
  Nat.div_le_div_right (Nat.sub_le_sub_right (Nat.mul_le_mul_right _ (by omega)) _)

/-- The values from which a natural number is truncated. -/
theorem truncate_eq_natCast {value : ℚ} {n : ℕ} (truncated : truncate value = n) :
    -1 < value ∧ value < n + 1 ∧ (n ≤ value ∨ n = 0) := by
  unfold truncate at truncated
  split at truncated
  next nonneg =>
    have bounds := Int.floor_eq_iff.mp truncated
    rw [Int.cast_natCast] at bounds
    exact ⟨by linarith, bounds.2, Or.inl bounds.1⟩
  next negative =>
    have below : value < 0 := not_le.mp negative
    have bounds := Int.ceil_eq_iff.mp truncated
    rw [Int.cast_natCast] at bounds
    have nonneg : (0 : ℚ) ≤ n := Nat.cast_nonneg n
    have small : (n : ℚ) < 1 := by linarith
    have zero : n < 1 := by exact_mod_cast small
    exact ⟨by linarith, by linarith, Or.inr (Nat.lt_one_iff.mp zero)⟩

theorem cell_zero (longer : source ≤ target) : cell source target 0 = 0 := by
  rw [cell, Nat.sub_eq_zero_of_le (by omega), Nat.zero_div]

/-- The centre of the first cell of a longer row is at most half a cell before that of the other row's first. -/
theorem fraction_zero (longer : source ≤ target) :
    fraction source target 0 = (source / target - 1) / 2 := by
  rw [fraction, cell_zero longer, centre]
  push_cast
  ring

theorem fraction_zero_range (positive : 0 < target) (longer : source ≤ target) :
    -(1 / 2) ≤ fraction source target 0 ∧ fraction source target 0 ≤ 0 := by
  have low : -(1 / 2) ≤ centre source target 0 := centre_low positive
  have ratio : (source / target : ℚ) ≤ 1 := by
    rw [div_le_one (by positivity)]
    exact_mod_cast longer
  rw [fraction_zero longer]
  have nonneg : (0 : ℚ) ≤ source / target := by positivity
  constructor <;> linarith

/-- The middle of a row is in the middle of a cell or between two of them. -/
theorem fraction_one (some : 0 < source) : fraction source 1 0 = ((source - 1) % 2 : ℕ) / 2 := by
  have middle : cell source 1 0 = (source - 1) / 2 := by simp [cell]
  have halves : (2 * ((source - 1) / 2 : ℕ) + ((source - 1) % 2 : ℕ) : ℚ) = source - 1 := by
    rw [← Nat.cast_pred some]
    exact_mod_cast Nat.div_add_mod (source - 1) 2
  rw [fraction, centre, middle]
  push_cast at halves ⊢
  linarith

theorem exists_near_first (some : 0 < source) (longer : 4 * source ≤ target) :
    ∃ i < target, cell source target i = 0 ∧ 0 ≤ fraction source target i ∧ fraction source target i ≤ 1 / 4 := by
  have positive : 0 < target := by omega
  obtain ⟨i, inside, least, most⟩ : ∃ i, i < target ∧ target ≤ (2 * i + 1) * source ∧ (2 * i + 1) * source < target + 2 * source := by
    have quotient := Nat.div_add_mod (target + source - 1) (2 * source)
    have rest := Nat.mod_lt (target + source - 1) (Nat.mul_pos Nat.two_pos some)
    have split : (2 * ((target + source - 1) / (2 * source)) + 1) * source =
        2 * source * ((target + source - 1) / (2 * source)) + source := by ring
    refine ⟨(target + source - 1) / (2 * source), ?_, by omega, by omega⟩
    rw [Nat.div_lt_iff_lt_mul (by omega)]
    have grows : target * 2 ≤ target * (2 * source) := Nat.mul_le_mul_left _ (by omega)
    omega
  have here : cell source target i = 0 := Nat.div_eq_of_lt (by omega)
  refine ⟨i, inside, here, (fraction_nonneg_iff positive).mpr least, ?_⟩
  have above : ((2 * i + 1) * source : ℚ) < target + 2 * source := by exact_mod_cast most
  have four : (4 * source : ℚ) ≤ target := by exact_mod_cast longer
  have twice : (0 : ℚ) < 2 * target := by positivity
  rw [fraction, here, centre_eq positive, Nat.cast_zero, sub_zero, div_le_iff₀ twice]
  linarith

section Blend
variable {K : Type*} [Field K] [LinearOrder K] [IsStrictOrderedRing K] {taps : List (K × K)}

def blend (taps : List (K × K)) : K := (taps.map fun tap => tap.1 * tap.2).sum

structure Mean (taps : List (K × K)) : Prop where
  nonneg : ∀ tap ∈ taps, 0 ≤ tap.1
  total : (taps.map Prod.fst).sum = 1

theorem blend_ge {low : K} (nonneg : ∀ tap ∈ taps, 0 ≤ tap.1) (above : ∀ tap ∈ taps, low ≤ tap.2) :
    (taps.map Prod.fst).sum * low ≤ blend taps := by
  unfold blend
  rw [← List.sum_map_mul_right]
  exact List.sum_le_sum fun tap inside => mul_le_mul_of_nonneg_left (above tap inside) (nonneg tap inside)

theorem blend_le {high : K} (nonneg : ∀ tap ∈ taps, 0 ≤ tap.1) (below : ∀ tap ∈ taps, tap.2 ≤ high) :
    blend taps ≤ (taps.map Prod.fst).sum * high := by
  unfold blend
  rw [← List.sum_map_mul_right]
  exact List.sum_le_sum fun tap inside => mul_le_mul_of_nonneg_left (below tap inside) (nonneg tap inside)

theorem Mean.within (mean : Mean taps) {low high : K} (samples : ∀ tap ∈ taps, low ≤ tap.2 ∧ tap.2 ≤ high) :
    low ≤ blend taps ∧ blend taps ≤ high := by
  have least := blend_ge mean.nonneg fun tap inside => (samples tap inside).1
  have most := blend_le mean.nonneg fun tap inside => (samples tap inside).2
  rw [mean.total, one_mul] at least most
  exact ⟨least, most⟩

/-- The four samples around a point, which is `across` and `down` from the first of them. -/
def corners (across down first second third fourth : K) : List (K × K) :=
  [((1 - across) * (1 - down), first), (across * (1 - down), second), ((1 - across) * down, third), (across * down, fourth)]

omit [LinearOrder K] [IsStrictOrderedRing K] in
theorem corners_total (across down first second third fourth : K) :
    ((corners across down first second third fourth).map Prod.fst).sum = 1 := by
  simp only [corners, List.map_cons, List.map_nil, List.sum_cons, List.sum_nil]
  ring

/-- Their weights are those of a mean exactly when the point is not before the first sample. -/
theorem corners_mean_iff {across down : K} (left : across < 1) (above : down < 1) (first second third fourth : K) :
    Mean (corners across down first second third fourth) ↔ 0 ≤ across ∧ 0 ≤ down := by
  have right : 0 < 1 - across := sub_pos.mpr left
  have below : 0 < 1 - down := sub_pos.mpr above
  constructor
  · intro mean
    have second := mean.nonneg (across * (1 - down), second) (by simp [corners])
    have third := mean.nonneg ((1 - across) * down, third) (by simp [corners])
    exact ⟨nonneg_of_mul_nonneg_left second below, nonneg_of_mul_nonneg_right third right⟩
  · rintro ⟨forward, downward⟩
    refine ⟨?_, corners_total _ _ _ _ _ _⟩
    simp only [corners, List.forall_mem_cons, List.not_mem_nil, false_implies, implies_true, and_true]
    exact ⟨(mul_pos right below).le, mul_nonneg forward below.le, mul_nonneg right.le downward, mul_nonneg forward downward⟩

omit [LinearOrder K] [IsStrictOrderedRing K] in
theorem corners_same (across down sample : K) : blend (corners across down sample sample sample sample) = sample := by
  simp only [blend, corners, List.map_cons, List.map_nil, List.sum_cons, List.sum_nil]
  ring

end Blend

end Bilinear
