import Mathlib.Algebra.BigOperators.Group.List.Basic
import Mathlib.Algebra.Order.BigOperators.Group.List
import Mathlib.Data.List.Sort
import Mathlib.Tactic.Linarith
import Mathlib.Tactic.Ring

/-!
# Money

Amounts are integer minor units.  `allocate` splits an amount by weights with
largest-remainder rounding and `commissionSplit` splits an order amount by a
commission rate.  The quotients of `allocate` are exact.
-/

namespace KnowledgeMarketplace

/-- A commission rate with four decimals, at most one half. -/
structure CommissionRate where
  tenThousandths : Nat
  bounded : tenThousandths ≤ 5000
  deriving DecidableEq

namespace CommissionRate

/-- The default rate of the open marketplace. -/
def openDefault : CommissionRate := ⟨1500, by decide⟩

/-- The default rate of the managed service. -/
def managedDefault : CommissionRate := ⟨2000, by decide⟩

end CommissionRate

/-- Round a fraction of ten thousandths to an integer, halves away from zero. -/
def quantizeHalfUp (tenThousandths : Int) : Int :=
  if 0 ≤ tenThousandths then
    (tenThousandths + 5000) / 10000
  else
    -((-tenThousandths + 5000) / 10000)

/-- The commission on an amount and the expert's remainder. -/
def commissionSplit (amountMinor : Int) (rate : CommissionRate) :
    Int × Int :=
  let commission := quantizeHalfUp (amountMinor * rate.tenThousandths)
  (commission, amountMinor - commission)

/-- Commission and remainder add up to the amount. -/
theorem commissionSplit_sum (amountMinor : Int) (rate : CommissionRate) :
    (commissionSplit amountMinor rate).1 +
      (commissionSplit amountMinor rate).2 = amountMinor := by
  simp [commissionSplit]

/-- Rounding a nonnegative fraction moves it by at most one half. -/
theorem quantizeHalfUp_bounds {tenThousandths : Int}
    (nonneg : 0 ≤ tenThousandths) :
    tenThousandths - 5000 < 10000 * quantizeHalfUp tenThousandths ∧
      10000 * quantizeHalfUp tenThousandths ≤ tenThousandths + 5000 := by
  simp only [quantizeHalfUp, nonneg, if_true]
  omega

/-- A positive amount is split into two nonnegative parts. -/
theorem commissionSplit_nonneg
    {amountMinor : Int} (positive : 0 < amountMinor)
    (rate : CommissionRate) :
    0 ≤ (commissionSplit amountMinor rate).1 ∧
      0 ≤ (commissionSplit amountMinor rate).2 := by
  have low : 0 ≤ amountMinor * (rate.tenThousandths : Int) :=
    Int.mul_nonneg positive.le (Int.natCast_nonneg _)
  have high : amountMinor * (rate.tenThousandths : Int) ≤
      amountMinor * 5000 :=
    Int.mul_le_mul_of_nonneg_left
      (by exact_mod_cast rate.bounded) positive.le
  obtain ⟨above, below⟩ := quantizeHalfUp_bounds low
  simp only [commissionSplit]
  constructor <;> omega

/-! ## Largest-remainder allocation -/

namespace Allocation

/-- The exact shares rounded down. -/
def floors (total : Int) (weights : List Int) : List Int :=
  weights.map fun weight => total * weight / weights.sum

/-- The numerator of the part of a share that rounding down cuts off. -/
def fraction (total : Int) (weights : List Int) (index : Nat) : Int :=
  total * weights.getD index 0 % weights.sum

/-- Positions by fractional part, the largest first and ties in order. -/
def order (total : Int) (weights : List Int) : List Nat :=
  (List.range weights.length).insertionSort fun first second =>
    fraction total weights second ≤ fraction total weights first

/-- The units that rounding down leaves over. -/
def remainder (total : Int) (weights : List Int) : Int :=
  total - (floors total weights).sum

/-- Add one unit at each of some positions. -/
def bump (shares : List Int) (positions : List Nat) : List Int :=
  positions.foldl (fun current position => current.modify position (· + 1))
    shares

/-- Rounded-down shares with the left-over units handed out. -/
def shares (total : Int) (weights : List Int) : List Int :=
  bump (floors total weights)
    ((order total weights).take (remainder total weights).toNat)

private theorem sum_modify_succ
    (shares : List Int) {position : Nat} (inside : position < shares.length) :
    (shares.modify position (· + 1)).sum = shares.sum + 1 := by
  induction shares generalizing position with
  | nil => simp at inside
  | cons share rest inductionHypothesis =>
      cases position with
      | zero =>
          simp
          omega
      | succ position =>
          have later := inductionHypothesis (by simpa using inside)
          simp only [List.modify_succ_cons, List.sum_cons, later]
          omega

@[simp] theorem length_bump (shares : List Int) (positions : List Nat) :
    (bump shares positions).length = shares.length := by
  induction positions generalizing shares with
  | nil => rfl
  | cons position rest inductionHypothesis =>
      simpa [bump] using inductionHypothesis (shares.modify position (· + 1))

/-- Every position inside the list adds one unit to the sum. -/
theorem sum_bump
    (shares : List Int) (positions : List Nat)
    (inside : ∀ position ∈ positions, position < shares.length) :
    (bump shares positions).sum = shares.sum + positions.length := by
  induction positions generalizing shares with
  | nil => simp [bump]
  | cons position rest inductionHypothesis =>
      have first := sum_modify_succ shares (inside position (by simp))
      have later := inductionHypothesis (shares.modify position (· + 1))
        (fun other member => by
          simpa using inside other (List.mem_cons_of_mem _ member))
      simp only [bump, List.foldl_cons] at later ⊢
      rw [later, first, List.length_cons]
      push_cast
      omega

/-- Units are only added. -/
theorem nonneg_bump
    {shares : List Int} (positions : List Nat)
    (nonneg : ∀ share ∈ shares, 0 ≤ share) :
    ∀ share ∈ bump shares positions, 0 ≤ share := by
  induction positions generalizing shares with
  | nil => exact nonneg
  | cons position rest inductionHypothesis =>
      apply inductionHypothesis
      intro share member
      obtain ⟨index, inside, rfl⟩ := List.mem_iff_getElem.mp member
      rw [List.getElem_modify]
      have below : index < shares.length := by simpa using inside
      have kept := nonneg _ (List.getElem_mem below)
      split <;> omega

private theorem sum_div_mod (total whole : Int) (weights : List Int) :
    whole * (weights.map fun weight => total * weight / whole).sum +
      (weights.map fun weight => total * weight % whole).sum =
        total * weights.sum := by
  induction weights with
  | nil => simp
  | cons weight rest inductionHypothesis =>
      have split := Int.mul_ediv_add_emod (total * weight) whole
      simp only [List.map_cons, List.sum_cons, mul_add]
      omega

private theorem sum_mod_bounds
    {whole : Int} (positive : 0 < whole) (total : Int) (weights : List Int) :
    0 ≤ (weights.map fun weight => total * weight % whole).sum ∧
      (weights.map fun weight => total * weight % whole).sum ≤
        whole * weights.length := by
  induction weights with
  | nil => simp
  | cons weight rest inductionHypothesis =>
      have low := Int.emod_nonneg (total * weight) positive.ne'
      have high := Int.emod_lt_of_pos (total * weight) positive
      simp only [List.map_cons, List.sum_cons, List.length_cons,
        Nat.cast_add, Nat.cast_one, mul_add, mul_one]
      omega

/-- The parts that rounding down cuts off make up the units left over. -/
theorem whole_mul_remainder (total : Int) (weights : List Int) :
    weights.sum * remainder total weights =
      (weights.map fun weight => total * weight % weights.sum).sum := by
  have split := sum_div_mod total weights.sum weights
  simp only [remainder, floors, mul_sub]
  have commute : weights.sum * total = total * weights.sum := mul_comm _ _
  omega

/-- The units left over are at most as many as the weights. -/
theorem remainder_bounds
    (total : Int) {weights : List Int} (positive : 0 < weights.sum) :
    0 ≤ remainder total weights ∧
      remainder total weights ≤ weights.length := by
  obtain ⟨low, high⟩ := sum_mod_bounds positive total weights
  have exact := whole_mul_remainder total weights
  constructor
  · by_contra negative
    have := mul_neg_of_pos_of_neg positive (not_le.mp negative)
    omega
  · exact le_of_mul_le_mul_left (exact ▸ high) positive

@[simp] theorem length_shares (total : Int) (weights : List Int) :
    (shares total weights).length = weights.length := by
  simp [shares, floors]

/-- The shares add up to the total exactly. -/
theorem sum_shares
    {total : Int} {weights : List Int} (positive : 0 < weights.sum) :
    (shares total weights).sum = total := by
  obtain ⟨low, high⟩ := remainder_bounds total positive
  have inside : ∀ position ∈
      (order total weights).take (remainder total weights).toNat,
      position < (floors total weights).length := by
    intro position member
    have listed := List.mem_of_mem_take member
    simpa [order, floors] using listed
  have length : (order total weights).length = weights.length := by
    simp [order]
  rw [shares, sum_bump _ _ inside, List.length_take, length]
  simp only [remainder] at low high ⊢
  omega

/-- No share is negative when the total and the weights are not. -/
theorem shares_nonneg
    {total : Int} {weights : List Int} (positive : 0 < weights.sum)
    (amount : 0 ≤ total) (nonneg : ∀ weight ∈ weights, 0 ≤ weight) :
    ∀ share ∈ shares total weights, 0 ≤ share := by
  refine nonneg_bump _ ?_
  intro share member
  obtain ⟨weight, listed, rfl⟩ := List.mem_map.mp member
  exact Int.ediv_nonneg (mul_nonneg amount (nonneg weight listed)) positive.le

/--
How far rounding to the nearest unit moves the share of one weight, in parts
of the whole; halves round up.
-/
def drift (total weight whole : Int) : Int :=
  let cut := total * weight % whole
  if whole ≤ 2 * cut then whole - cut else -cut

/-- The quotients of two weights lose nothing or one unit. -/
theorem cut_pair
    (total : Int) {first second whole : Int} (positive : 0 < whole)
    (both : first + second = whole) :
    (total * first % whole = 0 ∧ total * second % whole = 0 ∧
        total = total * first / whole + total * second / whole) ∨
      (0 < total * first % whole ∧
        total * second % whole = whole - total * first % whole ∧
        total = total * first / whole + total * second / whole + 1) := by
  have one := Int.mul_ediv_add_emod (total * first) whole
  have two := Int.mul_ediv_add_emod (total * second) whole
  have sum : total * first + total * second = whole * total := by
    rw [← both]
    ring
  have oneLow := Int.emod_nonneg (total * first) positive.ne'
  have oneHigh := Int.emod_lt_of_pos (total * first) positive
  have twoLow := Int.emod_nonneg (total * second) positive.ne'
  have twoHigh := Int.emod_lt_of_pos (total * second) positive
  have parts : whole * (total - total * first / whole - total * second / whole)
      = total * first % whole + total * second % whole := by
    simp only [mul_sub]
    omega
  generalize rest : total - total * first / whole - total * second / whole =
    units at parts
  have low : 0 ≤ units := by
    by_contra negative
    have := mul_neg_of_pos_of_neg positive (not_le.mp negative)
    omega
  have high : units ≤ 1 := by
    by_contra large
    have : whole * 2 ≤ whole * units :=
      Int.mul_le_mul_of_nonneg_left (by omega) positive.le
    omega
  obtain rfl | rfl : units = 0 ∨ units = 1 := by omega
  · left
    omega
  · right
    omega

/-- Two weights: the first share is rounded to the nearest unit. -/
theorem shares_pair
    (total : Int) {first second whole : Int} (positive : 0 < whole)
    (both : first + second = whole) :
    ∃ share, shares total [first, second] = [share, total - share] ∧
      whole * share = total * first + drift total first whole := by
  have one := Int.mul_ediv_add_emod (total * first) whole
  rcases cut_pair total positive both with
    ⟨cut, other, exact⟩ | ⟨cut, other, exact⟩
  · have kept : remainder total [first, second] = 0 := by
      simp only [remainder, floors, List.map_cons, List.map_nil,
        List.sum_cons, List.sum_nil, add_zero, both]
      omega
    refine ⟨total * first / whole, ?_, ?_⟩
    · simp [shares, kept, floors, bump, both]
      omega
    · simp only [drift, cut]
      omega
  · have kept : remainder total [first, second] = 1 := by
      simp only [remainder, floors, List.map_cons, List.map_nil,
        List.sum_cons, List.sum_nil, add_zero, both]
      omega
    by_cases half : whole ≤ 2 * (total * first % whole)
    · refine ⟨total * first / whole + 1, ?_, ?_⟩
      · have up : total * second % whole ≤ total * first % whole := by omega
        simp [shares, kept, floors, bump, both, order, List.range_succ,
          fraction, up]
        omega
      · simp only [drift, half, if_true, mul_add]
        omega
    · refine ⟨total * first / whole, ?_, ?_⟩
      · have down : ¬total * second % whole ≤ total * first % whole := by omega
        simp [shares, kept, floors, bump, both, order, List.range_succ,
          fraction, down]
        omega
      · simp only [drift, half, if_false]
        omega

end Allocation

/--
Split a total in proportion to weights so that the parts sum exactly to it;
`error` carries the text of the `ValueError`.
-/
def allocate (totalMinor : Int) (weights : List Int) :
    Except String (List Int) :=
  if weights = [] then
    .error "weights must be non-empty"
  else if totalMinor < 0 then
    .error "total must be >= 0"
  else if weights.any (· < 0) ∨ weights.sum ≤ 0 then
    .error "weights must be >= 0 and sum > 0"
  else
    .ok (Allocation.shares totalMinor weights)

/-- What a successful allocation guarantees. -/
theorem allocate_ok
    {totalMinor : Int} {weights parts : List Int}
    (allocated : allocate totalMinor weights = .ok parts) :
    parts.sum = totalMinor ∧ parts.length = weights.length ∧
      ∀ part ∈ parts, 0 ≤ part := by
  unfold allocate at allocated
  split at allocated
  · simp at allocated
  split at allocated
  · simp at allocated
  split at allocated
  · simp at allocated
  · rename_i amount guard
    simp only [List.any_eq_true, decide_eq_true_eq, not_or, not_exists,
      not_and, not_lt, not_le] at guard
    obtain ⟨nonneg, positive⟩ := guard
    simp only [Except.ok.injEq] at allocated
    subst allocated
    exact ⟨Allocation.sum_shares positive, Allocation.length_shares _ _,
      Allocation.shares_nonneg positive (not_lt.mp amount) nonneg⟩

example : allocate 10 [1, 1, 1] = .ok [4, 3, 3] := by decide

end KnowledgeMarketplace
