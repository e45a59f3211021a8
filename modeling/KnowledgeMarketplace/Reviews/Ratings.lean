import KnowledgeMarketplace.Core.WeightedMean
import KnowledgeMarketplace.Reviews.Database
import Mathlib.Analysis.SpecialFunctions.Pow.Real

/-!
# The weighted public rating

Every published review counts by its age, with a half-life of one year.  A later
clock scales all weights alike, so the average changes on writes only.
-/

namespace KnowledgeMarketplace

namespace Reviews

/-- The half-life of a review. -/
def halfLifeDays : Nat := 365

/-- What the loop over the reviews accumulates. -/
structure Accumulated where
  weightSum : ℝ := 0
  weightedTotal : ℝ := 0
  count : Nat := 0

/-- The age of a review in days, never negative. -/
noncomputable def ageDays (now createdAt : Time) : ℝ :=
  max (((now : ℝ) - createdAt) / 86400) 0

/-- The weight of a review by its age. -/
noncomputable def weight (now : Time) (review : Review) : ℝ :=
  (0.5 : ℝ) ^ (ageDays now review.createdAt / halfLifeDays)

/-- One round of the loop. -/
noncomputable def Accumulated.add
    (now : Time) (sums : Accumulated) (review : Review) : Accumulated where
  weightSum := sums.weightSum + weight now review
  weightedTotal := sums.weightedTotal + review.rating * weight now review
  count := sums.count + 1

/-- The average before it is rounded, and the count. -/
noncomputable def average (now : Time) (reviews : List Review) :
    Option ℝ × Nat :=
  let sums := reviews.foldl (Accumulated.add now) {}
  if sums.count = 0 ∨ sums.weightSum = 0 then (none, 0)
  else (some (sums.weightedTotal / sums.weightSum), sums.count)

/-- `round(value, 2)`, in hundredths: a tie goes to the even neighbour. -/
noncomputable def hundredths (value : ℝ) : Int :=
  let low := ⌊value * 100⌋
  let rest := value * 100 - low
  if rest < 1 / 2 ∨ rest = 1 / 2 ∧ Even low then low else low + 1

/-- The aggregate of published reviews. -/
noncomputable def weightedAggregate (now : Time) (reviews : List Review) :
    Rating where
  ratingAvg := (average now reviews).1.map hundredths
  ratingCount := (average now reviews).2

/-! ## The loop as a mean -/

variable {now later : Time} {reviews : List Review}

theorem weight_pos (now : Time) (review : Review) : 0 < weight now review :=
  Real.rpow_pos_of_pos (by norm_num) _

/-- The loop sums up weights and weighted ratings. -/
theorem foldl_add (now : Time) (reviews : List Review) (sums : Accumulated) :
    reviews.foldl (Accumulated.add now) sums =
      { weightSum :=
          sums.weightSum + WeightedMean.weightSum (weight now) reviews
        weightedTotal :=
          sums.weightedTotal + WeightedMean.weightedTotal (weight now)
            (fun review => (review.rating : ℝ)) reviews
        count := sums.count + reviews.length } := by
  induction reviews generalizing sums with
  | nil => simp [WeightedMean.weightSum, WeightedMean.weightedTotal]
  | cons review rest inductionHypothesis =>
      rw [List.foldl_cons, inductionHypothesis]
      simp only [Accumulated.add, WeightedMean.weightSum,
        WeightedMean.weightedTotal, List.map_cons, List.sum_cons,
        List.length_cons, Accumulated.mk.injEq]
      exact ⟨by ring, by ring, by ring⟩

/-- The mean rating by weight. -/
noncomputable def meanRating (now : Time) (reviews : List Review) : ℝ :=
  WeightedMean.mean (weight now) (fun review => (review.rating : ℝ)) reviews

theorem average_nil (now : Time) : average now [] = (none, 0) := by
  simp [average]

/-- The average of some reviews is their mean. -/
theorem average_of_ne_nil (now : Time) (some : reviews ≠ []) :
    average now reviews =
      (Option.some (meanRating now reviews), reviews.length) := by
  have total : 0 < WeightedMean.weightSum (weight now) reviews :=
    WeightedMean.weightSum_pos (fun review _ => weight_pos now review) some
  simp [average, foldl_add, meanRating, WeightedMean.mean, total.ne', some]

/-- The count is that of all reviews. -/
theorem average_count (now : Time) (reviews : List Review) :
    (average now reviews).2 = reviews.length := by
  by_cases none : reviews = []
  · rw [none, average_nil]
    rfl
  · rw [average_of_ne_nil now none]

/-! ## Time -/

/-- What a later clock takes off every weight. -/
noncomputable def decay (now later : Time) : ℝ :=
  (0.5 : ℝ) ^ (((later : ℝ) - now) / 86400 / halfLifeDays)

/-- A later clock scales the weight of a review that was there before. -/
theorem weight_later
    (order : now ≤ later) {review : Review} (past : review.createdAt ≤ now) :
    weight later review = decay now later * weight now review := by
  have pastReal : (review.createdAt : ℝ) ≤ now := by exact_mod_cast past
  have orderReal : (now : ℝ) ≤ later := by exact_mod_cast order
  have earlyAge : ageDays now review.createdAt =
      ((now : ℝ) - review.createdAt) / 86400 :=
    max_eq_left (div_nonneg (sub_nonneg.mpr pastReal) (by norm_num))
  have lateAge : ageDays later review.createdAt =
      ((later : ℝ) - review.createdAt) / 86400 :=
    max_eq_left (div_nonneg (sub_nonneg.mpr (pastReal.trans orderReal))
      (by norm_num))
  rw [weight, weight, decay, ← Real.rpow_add (by norm_num), earlyAge, lateAge]
  congr 1
  ring

/-- The mean rating does not change as time goes by. -/
theorem meanRating_later
    (order : now ≤ later) (past : ∀ review ∈ reviews, review.createdAt ≤ now) :
    meanRating later reviews = meanRating now reviews :=
  WeightedMean.mean_scale (Real.rpow_pos_of_pos (by norm_num) _).ne'
    fun review member => weight_later order (past review member)

/-- Nor does the average. -/
theorem average_later
    (order : now ≤ later) (past : ∀ review ∈ reviews, review.createdAt ≤ now) :
    average later reviews = average now reviews := by
  by_cases none : reviews = []
  · rw [none, average_nil, average_nil]
  · rw [average_of_ne_nil later none, average_of_ne_nil now none,
      meanRating_later order past]

/--
The average of published reviews is the same at all times after them, lies
between their ratings, and moves towards the rating of a review that is added.
-/
theorem average_timeless
    (reviews : List Review) (some : reviews ≠ []) (now later : Time)
    (order : now ≤ later) (past : ∀ review ∈ reviews, review.createdAt ≤ now) :
    ∃ mean : ℝ,
      average now reviews = (Option.some mean, reviews.length) ∧
      average later reviews = (Option.some mean, reviews.length) ∧
      (∀ low : ℝ, (∀ review ∈ reviews, low ≤ review.rating) → low ≤ mean) ∧
      (∀ high : ℝ, (∀ review ∈ reviews, review.rating ≤ high) →
        mean ≤ high) ∧
      ∀ (added : Review) (more : List Review),
        more.Perm (added :: reviews) → ∃ moved : ℝ,
          average later more = (Option.some moved, reviews.length + 1) ∧
            |moved - added.rating| ≤ |mean - added.rating| := by
  have positive : ∀ review ∈ reviews, 0 < weight now review :=
    fun review _ => weight_pos now review
  refine ⟨meanRating now reviews, average_of_ne_nil now some, ?_, ?_, ?_, ?_⟩
  · rw [average_of_ne_nil later some, meanRating_later order past]
  · exact fun low bound => WeightedMean.le_mean positive some bound
  · exact fun high bound => WeightedMean.mean_le positive some bound
  · intro added more same
    have present : more ≠ [] := by
      rintro rfl
      exact List.cons_ne_nil _ _ (List.nil_perm.mp same)
    refine ⟨meanRating later more, ?_, ?_⟩
    · rw [average_of_ne_nil later present, same.length_eq, List.length_cons]
    · rw [meanRating, WeightedMean.mean_perm same,
        ← meanRating_later order past]
      exact WeightedMean.abs_mean_cons_sub_le
        (fun review _ => weight_pos later review) some

/-- Two reviews, one year apart. -/
def yearApart : List Review :=
  [{ author := 1, expert := 2, rating := 5, body := "", createdAt := days 365 },
    { author := 3, expert := 2, rating := 2, body := "", createdAt := 0 }]

/-- They average the same at the end of the second and of the third year. -/
theorem yearApart_timeless :
    ∃ mean : ℝ, average (days 730) yearApart = (some mean, 2) ∧
      average (days 1095) yearApart = (some mean, 2) ∧ 2 ≤ mean ∧ mean ≤ 5 := by
  obtain ⟨mean, early, late, low, high, _⟩ := average_timeless yearApart
    (by simp [yearApart]) (days 730) (days 1095) (by decide)
    (by simp [yearApart]; decide)
  refine ⟨mean, early, late, low 2 ?_, high 5 ?_⟩ <;> norm_num [yearApart]

end Reviews

end KnowledgeMarketplace
