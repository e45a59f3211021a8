import KnowledgeMarketplace.Core.Money
import Mathlib.Data.Rat.Floor

/-!
# The largest remainder

The units that rounding down leaves over go to the largest fractions.  They
are fewer than the fractions that are not zero, so no part exceeds its exact
share rounded up.
-/

namespace KnowledgeMarketplace

namespace Allocation

variable {total : Int} {weights : List Int}

/-- Distinct positions get one unit each and the others none. -/
theorem getElem?_bump
    (shares : List Int) {positions : List Nat} (distinct : positions.Nodup)
    (index : Nat) :
    (bump shares positions)[index]? =
      shares[index]?.map fun share =>
        if index ∈ positions then share + 1 else share := by
  induction positions generalizing shares with
  | nil => simp [bump]
  | cons position rest inductionHypothesis =>
      obtain ⟨absent, later⟩ := List.nodup_cons.mp distinct
      have tail := inductionHypothesis (shares.modify position (· + 1)) later
      simp only [bump, List.foldl_cons] at tail ⊢
      rw [tail, List.getElem?_modify]
      by_cases here : position = index
      · subst here
        cases shares[position]? <;> simp [absent]
      · have other : ¬index = position := fun same => here same.symm
        cases shares[index]? <;> simp [here, other]

/-! ## The order of the fractions -/

theorem order_perm (total : Int) (weights : List Int) :
    (order total weights).Perm (List.range weights.length) :=
  List.perm_insertionSort _ _

theorem order_nodup (total : Int) (weights : List Int) :
    (order total weights).Nodup :=
  (order_perm total weights).nodup_iff.mpr List.nodup_range

/-- No fraction is followed by a larger one. -/
theorem order_sorted (total : Int) (weights : List Int) :
    (order total weights).Pairwise fun first second =>
      fraction total weights second ≤ fraction total weights first := by
  have total' : Std.Total fun first second =>
      fraction total weights second ≤ fraction total weights first :=
    ⟨fun first second => le_total _ _⟩
  have transitive : IsTrans Nat fun first second =>
      fraction total weights second ≤ fraction total weights first :=
    ⟨fun _ _ _ one two => two.trans one⟩
  exact List.pairwise_insertionSort _ _

theorem fraction_nonneg
    (total : Int) (positive : 0 < weights.sum) (index : Nat) :
    0 ≤ fraction total weights index :=
  Int.emod_nonneg _ positive.ne'

theorem fraction_lt
    (total : Int) (positive : 0 < weights.sum) (index : Nat) :
    fraction total weights index < weights.sum :=
  Int.emod_lt_of_pos _ positive

/-- Reading a list by its positions gives the list. -/
private theorem map_getD_range (weights : List Int) :
    (List.range weights.length).map (weights.getD · 0) = weights := by
  apply List.ext_getElem
  · simp
  · intro index _ inside
    simp [List.getD_eq_getElem?_getD, inside]

/-- The fractions in order make up the units left over. -/
theorem whole_mul_remainder_eq_order (total : Int) (weights : List Int) :
    weights.sum * remainder total weights =
      ((order total weights).map (fraction total weights)).sum := by
  have listed : (List.range weights.length).map (fraction total weights) =
      weights.map fun weight => total * weight % weights.sum := by
    have read := congrArg
      (List.map fun weight => total * weight % weights.sum)
      (map_getD_range weights)
    rw [List.map_map] at read
    exact read
  rw [whole_mul_remainder, ← listed]
  exact (((order_perm total weights).map _).sum_eq).symm

/-- The positions that get one of the units left over. -/
def handed (total : Int) (weights : List Int) : List Nat :=
  (order total weights).take (remainder total weights).toNat

private theorem sum_le_of_forall_le
    (values : List Int) (bound : Int)
    (below : ∀ value ∈ values, value ≤ bound) :
    values.sum ≤ values.length * bound := by
  induction values with
  | nil => simp
  | cons value rest inductionHypothesis =>
      have first := below value (by simp)
      have later := inductionHypothesis fun other member =>
        below other (List.mem_cons_of_mem _ member)
      simp only [List.sum_cons, List.length_cons, Nat.cast_add, Nat.cast_one,
        add_mul, one_mul]
      omega

/--
A unit only goes where rounding down cut something off: were one of the
handed fractions zero, so would be all that follow, and what is left could
not make up as many units.
-/
theorem fraction_pos_of_handed
    (positive : 0 < weights.sum) {index : Nat}
    (member : index ∈ handed total weights) :
    0 < fraction total weights index := by
  by_contra exhausted
  have zero : fraction total weights index = 0 :=
    le_antisymm (not_lt.mp exhausted) (fraction_nonneg total positive index)
  have parts : order total weights = handed total weights ++
      (order total weights).drop (remainder total weights).toNat :=
    (List.take_append_drop _ _).symm
  have sorted := order_sorted total weights
  rw [parts, List.pairwise_append] at sorted
  have rest : (((order total weights).drop
      (remainder total weights).toNat).map (fraction total weights)).sum ≤
        0 := by
    have below := sum_le_of_forall_le (((order total weights).drop
        (remainder total weights).toNat).map (fraction total weights)) 0
      (fun value listed => by
        obtain ⟨later, after, rfl⟩ := List.mem_map.mp listed
        exact (sorted.2.2 index member later after).trans zero.le)
    simpa using below
  have first : ((handed total weights).map (fraction total weights)).sum ≤
      (handed total weights).length * (weights.sum - 1) := by
    have below := sum_le_of_forall_le
      ((handed total weights).map (fraction total weights)) (weights.sum - 1)
      (fun value listed => by
        obtain ⟨place, _, rfl⟩ := List.mem_map.mp listed
        have := fraction_lt total positive place
        omega)
    simpa using below
  have exact := whole_mul_remainder_eq_order total weights
  rw [parts, List.map_append, List.sum_append] at exact
  obtain ⟨low, _⟩ := remainder_bounds total positive
  have count : ((handed total weights).length : Int) ≤
      remainder total weights := by
    have := List.length_take_le (remainder total weights).toNat
      (order total weights)
    simp only [handed]
    omega
  have some : 0 < (handed total weights).length :=
    List.length_pos_of_mem member
  have enough : ((handed total weights).length : Int) * weights.sum ≤
      weights.sum * remainder total weights := by
    rw [mul_comm]
    exact Int.mul_le_mul_of_nonneg_left count positive.le
  rw [mul_sub, mul_one] at first
  omega

/-- A part is its share rounded down, with one unit more where it is handed. -/
theorem getElem?_shares (total : Int) (weights : List Int) (index : Nat) :
    (shares total weights)[index]? = weights[index]?.map fun weight =>
      if index ∈ handed total weights then
        total * weight / weights.sum + 1
      else total * weight / weights.sum := by
  have distinct : (handed total weights).Nodup :=
    (order_nodup total weights).sublist (List.take_sublist _ _)
  have bumped := getElem?_bump (floors total weights) distinct index
  simp only [shares]
  rw [handed] at bumped
  rw [bumped, floors, List.getElem?_map, Option.map_map]
  rfl

/-! ## The guarantees of the split -/

/-- The exact share of one weight. -/
def exactShare (total : Int) (weights : List Int) (weight : Int) : ℚ :=
  (total : ℚ) * weight / weights.sum

theorem floor_exactShare
    (total : Int) (positive : 0 < weights.sum) (weight : Int) :
    ⌊exactShare total weights weight⌋ = total * weight / weights.sum := by
  obtain ⟨whole, same⟩ := Int.eq_ofNat_of_zero_le positive.le
  have divided :=
    Rat.floor_intCast_div_natCast (total * weight) whole
  rw [exactShare, same]
  push_cast at divided ⊢
  exact divided

/-- Where something is cut off, rounding up is one more than down. -/
theorem ceil_exactShare
    (total : Int) (positive : 0 < weights.sum) {weight : Int}
    (cut : 0 < total * weight % weights.sum) :
    ⌈exactShare total weights weight⌉ =
      total * weight / weights.sum + 1 := by
  unfold exactShare
  generalize weights.sum = sum at positive cut ⊢
  have whole : (0 : ℚ) < sum := by exact_mod_cast positive
  have split : (sum : ℚ) * (total * weight / sum : Int) +
      (total * weight % sum : Int) = total * weight := by
    exact_mod_cast Int.mul_ediv_add_emod (total * weight) sum
  have above : (0 : ℚ) < (total * weight % sum : Int) := by
    exact_mod_cast cut
  have below : ((total * weight % sum : Int) : ℚ) < sum := by
    exact_mod_cast Int.emod_lt_of_pos (total * weight) positive
  rw [Int.ceil_eq_iff, lt_div_iff₀ whole, div_le_iff₀ whole]
  push_cast
  constructor <;> linarith

/-- The fraction at a position is what is cut off there. -/
theorem fraction_eq_of_getElem?
    (total : Int) {index : Nat} {weight : Int}
    (here : weights[index]? = some weight) :
    fraction total weights index = total * weight % weights.sum := by
  simp [fraction, List.getD_eq_getElem?_getD, here]

/-- Every part is its exact share rounded down or up. -/
theorem part_floor_or_ceil
    (positive : 0 < weights.sum) {index : Nat} {weight part : Int}
    (here : weights[index]? = some weight)
    (there : (shares total weights)[index]? = some part) :
    part = ⌊exactShare total weights weight⌋ ∨
      part = ⌈exactShare total weights weight⌉ := by
  rw [getElem?_shares, here, Option.map_some, Option.some.injEq] at there
  subst there
  by_cases one : index ∈ handed total weights
  · right
    have cut := fraction_pos_of_handed positive one
    rw [fraction_eq_of_getElem? total here] at cut
    rw [if_pos one, ceil_exactShare total positive cut]
  · left
    rw [if_neg one, floor_exactShare total positive]

/-- A weight of zero gets nothing. -/
theorem part_zero
    (positive : 0 < weights.sum) {index : Nat} {part : Int}
    (here : weights[index]? = some 0)
    (there : (shares total weights)[index]? = some part) : part = 0 := by
  have either := part_floor_or_ceil positive here there
  simpa [exactShare] using either

/-- Equal weights get parts that differ by one at most. -/
theorem part_diff_le
    {first second : Nat} {weight one other : Int}
    (here : weights[first]? = some weight)
    (there : weights[second]? = some weight)
    (oneAt : (shares total weights)[first]? = some one)
    (otherAt : (shares total weights)[second]? = some other) :
    |one - other| ≤ 1 := by
  rw [getElem?_shares, here, Option.map_some, Option.some.injEq] at oneAt
  rw [getElem?_shares, there, Option.map_some, Option.some.injEq] at otherAt
  subst oneAt otherAt
  rw [abs_le]
  split <;> split <;> omega

end Allocation

open Allocation in
/--
Splitting an amount by weights uses up the amount, rounds every exact share
down or up, gives nothing for a weight of zero and treats equal weights alike
up to one unit.
-/
theorem allocate_rounds_shares
    {totalMinor : Int} {weights : List Int} (amount : 0 ≤ totalMinor)
    (filled : weights ≠ []) (nonneg : ∀ weight ∈ weights, 0 ≤ weight)
    (positive : 0 < weights.sum) :
    ∃ parts, allocate totalMinor weights = .ok parts ∧
      parts.length = weights.length ∧ parts.sum = totalMinor ∧
      (∀ (index : Nat) (weight part : Int), weights[index]? = some weight →
        parts[index]? = some part →
          (part = ⌊(totalMinor : ℚ) * weight / weights.sum⌋ ∨
            part = ⌈(totalMinor : ℚ) * weight / weights.sum⌉) ∧
          (weight = 0 → part = 0)) ∧
      ∀ (first second : Nat) (weight one other : Int),
        weights[first]? = some weight → weights[second]? = some weight →
        parts[first]? = some one → parts[second]? = some other →
          |one - other| ≤ 1 := by
  have accepted : allocate totalMinor weights =
      .ok (shares totalMinor weights) := by
    have guard : ¬(weights.any (· < 0) ∨ weights.sum ≤ 0) := by
      simp only [List.any_eq_true, decide_eq_true_eq, not_or, not_exists,
        not_and, not_lt, not_le]
      exact ⟨nonneg, positive⟩
    rw [allocate, if_neg filled, if_neg (not_lt.mpr amount), if_neg guard]
  refine ⟨_, accepted, length_shares _ _, sum_shares positive, ?_, ?_⟩
  · intro index weight part here there
    have rounded := part_floor_or_ceil positive here there
    rw [exactShare] at rounded
    refine ⟨rounded, fun zero => ?_⟩
    subst zero
    exact part_zero positive here there
  · intro first second weight one other here there oneAt otherAt
    exact part_diff_le here there oneAt otherAt

/-- Ten units over three equal weights and one of zero. -/
theorem allocate_rounds_shares_ten :
    ∃ parts, allocate 10 [1, 0, 1, 1] = .ok parts ∧
      parts.length = 4 ∧ parts.sum = 10 := by
  obtain ⟨parts, accepted, length, sum, _⟩ :=
    allocate_rounds_shares (by decide : (0 : Int) ≤ 10)
      (by decide : ([1, 0, 1, 1] : List Int) ≠ []) (by decide) (by decide)
  exact ⟨parts, accepted, length, sum⟩

end KnowledgeMarketplace
