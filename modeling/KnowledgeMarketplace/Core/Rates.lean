import KnowledgeMarketplace.Core.Money
import Mathlib.Data.Rat.Cast.Order

/-!
# Commission at any rate

`commission_split` takes any rate between zero and one.  Halves are rounded
up, and neither the commission nor the remainder falls when the amount grows.
-/

namespace KnowledgeMarketplace

/-- The commission at a rate of so many ten thousandths and the remainder. -/
def commissionSplitAt (amountMinor : Int) (rate : Nat) : Int × Int :=
  let commission := quantizeHalfUp (amountMinor * rate)
  (commission, amountMinor - commission)

/-- The rates of the platform's configuration are among them. -/
theorem commissionSplit_eq (amountMinor : Int) (rate : CommissionRate) :
    commissionSplit amountMinor rate =
      commissionSplitAt amountMinor rate.tenThousandths :=
  rfl

/-- The largest amount a column of amounts holds. -/
def maxAmount : Int := 9223372036854775807

section Products

variable {amountMinor : Int} {rate : Nat}

/-- A product with a rate up to one lies between zero and the amount. -/
theorem product_bounds (low : 0 ≤ amountMinor) (unit : rate ≤ 10000) :
    0 ≤ amountMinor * (rate : Int) ∧
      amountMinor * (rate : Int) ≤ 10000 * amountMinor := by
  constructor
  · exact Int.mul_nonneg low (Int.natCast_nonneg _)
  · rw [mul_comm 10000 amountMinor]
    exact Int.mul_le_mul_of_nonneg_left (by exact_mod_cast unit) low

/-- The decimal context keeps 28 digits, so no product is rounded. -/
theorem product_digits
    (low : 0 ≤ amountMinor) (high : amountMinor ≤ maxAmount)
    (unit : rate ≤ 10000) : amountMinor * (rate : Int) < 10 ^ 28 := by
  have below := (product_bounds low unit).2
  simp only [maxAmount] at high
  omega

/-- Products grow with the amount, by the difference at most. -/
theorem product_mono
    {larger : Int} (grown : amountMinor ≤ larger) (unit : rate ≤ 10000) :
    amountMinor * (rate : Int) ≤ larger * (rate : Int) ∧
      larger * (rate : Int) ≤
        amountMinor * (rate : Int) + 10000 * (larger - amountMinor) := by
  have gap := product_bounds (sub_nonneg.mpr grown) unit
  rw [sub_mul] at gap
  omega

end Products

/-- Rounding keeps the order and never widens a gap of whole units. -/
theorem quantizeHalfUp_mono
    {first second : Int} (units : Int) (low : 0 ≤ first)
    (order : first ≤ second) (gap : second ≤ first + 10000 * units) :
    quantizeHalfUp first ≤ quantizeHalfUp second ∧
      quantizeHalfUp second ≤ quantizeHalfUp first + units := by
  have later : 0 ≤ second := low.trans order
  simp only [quantizeHalfUp, low, later, if_true]
  omega

/-- The commission is at most half a unit away from its exact value. -/
theorem commissionSplitAt_near
    {amountMinor : Int} {rate : Nat}
    (low : 0 ≤ amountMinor) (unit : rate ≤ 10000) :
    |((commissionSplitAt amountMinor rate).1 : ℚ) -
      amountMinor * (rate / 10000)| ≤ 1 / 2 := by
  obtain ⟨above, below⟩ :=
    quantizeHalfUp_bounds (product_bounds low unit).1
  have up : (amountMinor : ℚ) * rate - 5000 ≤
      10000 * quantizeHalfUp (amountMinor * rate) := by
    exact_mod_cast above.le
  have down : 10000 * (quantizeHalfUp (amountMinor * rate) : ℚ) ≤
      amountMinor * rate + 5000 := by
    exact_mod_cast below
  have scaled : (amountMinor : ℚ) * (rate / 10000) =
      amountMinor * rate / 10000 := by ring
  simp only [commissionSplitAt]
  rw [scaled, abs_le]
  constructor <;> linarith

/-- A commission at a rate up to one is a part of the amount. -/
theorem commissionSplitAt_bounds
    {amountMinor : Int} {rate : Nat}
    (low : 0 ≤ amountMinor) (unit : rate ≤ 10000) :
    0 ≤ (commissionSplitAt amountMinor rate).1 ∧
      (commissionSplitAt amountMinor rate).1 ≤ amountMinor := by
  obtain ⟨nonneg, most⟩ := product_bounds low unit
  obtain ⟨above, below⟩ := quantizeHalfUp_bounds nonneg
  simp only [commissionSplitAt]
  omega

/-- Neither share falls when the amount grows. -/
theorem commissionSplitAt_mono
    {amountMinor larger : Int} {rate : Nat}
    (low : 0 ≤ amountMinor) (unit : rate ≤ 10000)
    (grown : amountMinor ≤ larger) :
    (commissionSplitAt amountMinor rate).1 ≤
        (commissionSplitAt larger rate).1 ∧
      (commissionSplitAt amountMinor rate).2 ≤
        (commissionSplitAt larger rate).2 := by
  obtain ⟨order, gap⟩ := product_mono grown unit
  obtain ⟨more, less⟩ := quantizeHalfUp_mono (larger - amountMinor)
    (product_bounds low unit).1 order gap
  simp only [commissionSplitAt]
  omega

/--
The two shares add up to the amount, the commission lies within the amount
and within half a unit of its exact value, and a larger amount lowers neither
share.
-/
theorem commissionSplitAt_fair
    {amountMinor : Int} {rate : Nat}
    (low : 0 ≤ amountMinor) (high : amountMinor ≤ maxAmount)
    (unit : rate ≤ 10000) :
    (commissionSplitAt amountMinor rate).1 +
        (commissionSplitAt amountMinor rate).2 = amountMinor ∧
      (0 ≤ (commissionSplitAt amountMinor rate).1 ∧
        (commissionSplitAt amountMinor rate).1 ≤ amountMinor) ∧
      |((commissionSplitAt amountMinor rate).1 : ℚ) -
        amountMinor * (rate / 10000)| ≤ 1 / 2 ∧
      amountMinor * (rate : Int) < 10 ^ 28 ∧
      ∀ larger, amountMinor ≤ larger → larger ≤ maxAmount →
        (commissionSplitAt amountMinor rate).1 ≤
            (commissionSplitAt larger rate).1 ∧
          (commissionSplitAt amountMinor rate).2 ≤
            (commissionSplitAt larger rate).2 := by
  refine ⟨?_, commissionSplitAt_bounds low unit,
    commissionSplitAt_near low unit, product_digits low high unit, ?_⟩
  · simp [commissionSplitAt]
  · intro larger grown _
    exact commissionSplitAt_mono low unit grown

/-- An exact half: three units at a rate of one half. -/
theorem commissionSplitAt_fair_half :
    (commissionSplitAt 3 5000).1 + (commissionSplitAt 3 5000).2 = 3 ∧
      (commissionSplitAt 3 5000).1 = 2 ∧
      (commissionSplitAt 3 5000).1 ≤ (commissionSplitAt 4 5000).1 := by
  obtain ⟨sum, _, _, _, mono⟩ := commissionSplitAt_fair
    (by decide : (0 : Int) ≤ 3) (by decide : (3 : Int) ≤ maxAmount)
    (by decide : 5000 ≤ 10000)
  exact ⟨sum, by decide, (mono 4 (by decide) (by decide)).1⟩

end KnowledgeMarketplace
