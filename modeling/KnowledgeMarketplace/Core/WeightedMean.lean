import Mathlib.Algebra.BigOperators.Ring.List
import Mathlib.Algebra.BigOperators.Group.List.Basic
import Mathlib.Algebra.Order.BigOperators.Group.List
import Mathlib.Algebra.Order.Field.Basic
import Mathlib.Tactic.Ring
import Mathlib.Tactic.FieldSimp
import Mathlib.Tactic.Positivity

/-!
# Weighted means

The mean of a list of values with weights.  It lies between its values, does
not change when all weights are scaled alike, and moves towards a value that is
added.
-/

namespace WeightedMean

variable {α K : Type} [Field K]

/-- The sum of the weights. -/
def weightSum (weight : α → K) (items : List α) : K :=
  (items.map weight).sum

/-- The sum of the values, each times its weight. -/
def weightedTotal (weight value : α → K) (items : List α) : K :=
  (items.map fun item => value item * weight item).sum

/-- The mean by weight. -/
def mean (weight value : α → K) (items : List α) : K :=
  weightedTotal weight value items / weightSum weight items

variable {weight scaled value : α → K} {items : List α}

/-- The order of the list does not matter. -/
theorem mean_perm {other : List α} (same : items.Perm other) :
    mean weight value items = mean weight value other := by
  have totals := (same.map fun item => value item * weight item).sum_eq
  have sums := (same.map weight).sum_eq
  simp only [mean, weightedTotal, weightSum, totals, sums]

theorem weightSum_scale {factor : K}
    (scales : ∀ item ∈ items, scaled item = factor * weight item) :
    weightSum scaled items = factor * weightSum weight items := by
  rw [weightSum, weightSum, ← List.sum_map_mul_left,
    List.map_congr_left scales]

theorem weightedTotal_scale {factor : K}
    (scales : ∀ item ∈ items, scaled item = factor * weight item) :
    weightedTotal scaled value items =
      factor * weightedTotal weight value items := by
  rw [weightedTotal, weightedTotal, ← List.sum_map_mul_left]
  refine congrArg List.sum (List.map_congr_left fun item member => ?_)
  rw [scales item member, mul_left_comm]

/-- Weights that are scaled alike have the same mean. -/
theorem mean_scale {factor : K} (nonzero : factor ≠ 0)
    (scales : ∀ item ∈ items, scaled item = factor * weight item) :
    mean scaled value items = mean weight value items := by
  rw [mean, mean, weightedTotal_scale scales, weightSum_scale scales,
    mul_div_mul_left _ _ nonzero]

section Order

variable [LinearOrder K] [IsStrictOrderedRing K]

theorem weightSum_pos
    (positive : ∀ item ∈ items, 0 < weight item) (some : items ≠ []) :
    0 < weightSum weight items := by
  refine List.sum_pos _ (fun share member => ?_) (by simpa using some)
  obtain ⟨item, inside, rfl⟩ := List.mem_map.mp member
  exact positive item inside

/-- The mean is at least every lower bound of the values. -/
theorem le_mean {low : K}
    (positive : ∀ item ∈ items, 0 < weight item) (some : items ≠ [])
    (bound : ∀ item ∈ items, low ≤ value item) :
    low ≤ mean weight value items := by
  rw [mean, le_div_iff₀ (weightSum_pos positive some), weightSum,
    ← List.sum_map_mul_left]
  exact List.sum_le_sum fun item member =>
    mul_le_mul_of_nonneg_right (bound item member) (positive item member).le

/-- The mean is at most every upper bound of the values. -/
theorem mean_le {high : K}
    (positive : ∀ item ∈ items, 0 < weight item) (some : items ≠ [])
    (bound : ∀ item ∈ items, value item ≤ high) :
    mean weight value items ≤ high := by
  rw [mean, div_le_iff₀ (weightSum_pos positive some), weightSum,
    ← List.sum_map_mul_left]
  exact List.sum_le_sum fun item member =>
    mul_le_mul_of_nonneg_right (bound item member) (positive item member).le

/-- An added value pulls the mean towards itself. -/
theorem abs_mean_cons_sub_le {added : α}
    (positive : ∀ item ∈ added :: items, 0 < weight item)
    (some : items ≠ []) :
    |mean weight value (added :: items) - value added| ≤
      |mean weight value items - value added| := by
  have rest : 0 < weightSum weight items := weightSum_pos
    (fun item member => positive item (List.mem_cons_of_mem _ member)) some
  have own : 0 < weight added := positive added List.mem_cons_self
  have whole : 0 < weight added + weightSum weight items := add_pos own rest
  have share : mean weight value (added :: items) - value added =
      weightSum weight items / (weight added + weightSum weight items) *
        (mean weight value items - value added) := by
    simp only [mean, weightedTotal, weightSum, List.map_cons,
      List.sum_cons] at rest whole ⊢
    field_simp
    ring
  have less : weightSum weight items /
      (weight added + weightSum weight items) ≤ 1 := by
    rw [div_le_one whole]
    exact le_add_of_nonneg_left own.le
  rw [share, abs_mul, abs_of_pos (div_pos rest whole)]
  exact mul_le_of_le_one_left (abs_nonneg _) less

end Order

end WeightedMean
