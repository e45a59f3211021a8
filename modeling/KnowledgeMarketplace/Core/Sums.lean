import Mathlib.Algebra.BigOperators.Group.Finset.Basic
import Mathlib.Algebra.BigOperators.Group.Finset.Piecewise

/-!
# Sums by groups

The amounts of a list can be summed group by group, if the groups cover it.
-/

namespace Sums

variable {α ι M : Type} [DecidableEq ι] [AddCommMonoid M]

/-- The sums of all groups add up to the sum of the whole list. -/
theorem sum_groups
    (key : α → ι) (amount : α → M) {groups : Finset ι} {items : List α}
    (covered : ∀ item ∈ items, key item ∈ groups) :
    ∑ group ∈ groups, ((items.filter (key · = group)).map amount).sum =
      (items.map amount).sum := by
  induction items with
  | nil => simp
  | cons item rest inductionHypothesis =>
      have here : key item ∈ groups := covered item List.mem_cons_self
      have split : ∀ group,
          (((item :: rest).filter (key · = group)).map amount).sum =
            (if key item = group then amount item else 0) +
              ((rest.filter (key · = group)).map amount).sum := by
        intro group
        by_cases same : key item = group <;> simp [same]
      calc ∑ group ∈ groups,
            (((item :: rest).filter (key · = group)).map amount).sum
          = ∑ group ∈ groups, ((if key item = group then amount item else 0) +
              ((rest.filter (key · = group)).map amount).sum) :=
            Finset.sum_congr rfl fun group _ => split group
        _ = amount item + (rest.map amount).sum := by
            rw [Finset.sum_add_distrib, Finset.sum_ite_eq, if_pos here,
              inductionHypothesis fun other member =>
                covered other (List.mem_cons_of_mem _ member)]
        _ = ((item :: rest).map amount).sum := by simp

end Sums
