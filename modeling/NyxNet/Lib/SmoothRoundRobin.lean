import Mathlib.Algebra.BigOperators.Ring.Finset
import Mathlib.Algebra.Order.BigOperators.Group.Finset
import Mathlib.Algebra.Order.Ring.Int
import Mathlib.Tactic.Linarith
import Mathlib.Tactic.Ring

/-!
# Smooth weighted round robin

Every active index holds a credit.  A selection adds each index's weight to
its credit, picks an index of the largest credit and takes the total weight
from it.  Two groups of facts are kept apart.  While the active indices stay
the same, the credits record how far each index is from its exact share.  When
indices come and go between selections, the credits no longer sum to zero, and
`Bounded` limits how far they can drift.
-/

namespace SmoothRoundRobin

variable {ι : Type*} [DecidableEq ι]

/-- The weight of all active indices together. -/
def total (active : Finset ι) (weight : ι → ℤ) : ℤ := ∑ i ∈ active, weight i

theorem total_update {active : Finset ι} {weight : ι → ℤ} {i : ι} {share : ℤ}
    (member : i ∈ active) :
    total active (Function.update weight i share) =
      total active weight + (share - weight i) := by
  rw [total, total, Finset.sum_update_of_mem member,
    Finset.sdiff_singleton_eq_erase, ← Finset.add_sum_erase active weight member]
  ring

theorem total_insert {active : Finset ι} {weight : ι → ℤ} {i : ι} {share : ℤ}
    (fresh : i ∉ active) :
    total (insert i active) (Function.update weight i share) =
      total active weight + share := by
  rw [total, total, Finset.sum_insert fresh, Function.update_self,
    Finset.sum_update_of_notMem fresh, add_comm]

theorem total_erase {active : Finset ι} {weight : ι → ℤ} {i : ι}
    (member : i ∈ active) :
    total (active.erase i) weight = total active weight - weight i := by
  rw [total, total, ← Finset.add_sum_erase active weight member]
  ring

/-- An index of the largest credit after the weights were added. -/
structure Selects (active : Finset ι) (weight credit : ι → ℤ) (best : ι) :
    Prop where
  member : best ∈ active
  maximal : ∀ i ∈ active, credit i + weight i ≤ credit best + weight best

/-- The credits after `best` was selected. -/
def settle (active : Finset ι) (weight credit : ι → ℤ) (best i : ι) : ℤ :=
  credit i + weight i - if i = best then total active weight else 0

section Selection

variable {active : Finset ι} {weight credit : ι → ℤ} {best : ι}

theorem settle_of_ne {i : ι} (different : i ≠ best) :
    settle active weight credit best i = credit i + weight i := by
  rw [settle, if_neg different, sub_zero]

theorem settle_self :
    settle active weight credit best best =
      credit best + weight best - total active weight := by
  rw [settle, if_pos rfl]

theorem sum_settle (part : Finset ι) :
    ∑ i ∈ part, settle active weight credit best i =
      ∑ i ∈ part, credit i + ∑ i ∈ part, weight i -
        if best ∈ part then total active weight else 0 := by
  simp only [settle]
  rw [Finset.sum_sub_distrib, Finset.sum_add_distrib, Finset.sum_ite_eq']

/-- A selection moves credit around and creates none. -/
theorem sum_settle_active (selects : Selects active weight credit best) :
    ∑ i ∈ active, settle active weight credit best i =
      ∑ i ∈ active, credit i := by
  rw [sum_settle, if_pos selects.member, total]
  ring

/-- Credits that sum to zero and are all above the negated total. -/
structure Fair (active : Finset ι) (weight credit : ι → ℤ) : Prop where
  sum : ∑ i ∈ active, credit i = 0
  above : ∀ i ∈ active, -total active weight < credit i

/-- The credits are what the picks so far leave of the weights. -/
def Ledger (active : Finset ι) (weight : ι → ℤ) (picks : List ι)
    (credit : ι → ℤ) : Prop :=
  ∀ i ∈ active,
    credit i = picks.length * weight i - total active weight * picks.count i

omit [DecidableEq ι] in
theorem total_pos (positive : ∀ i ∈ active, 0 < weight i)
    (member : best ∈ active) : 0 < total active weight :=
  Finset.sum_pos positive ⟨best, member⟩

omit [DecidableEq ι] in
theorem selected_pos (selects : Selects active weight credit best)
    (positive : ∀ i ∈ active, 0 < weight i)
    (zeroSum : ∑ i ∈ active, credit i = 0) :
    0 < credit best + weight best := by
  have sum : ∑ i ∈ active, (credit i + weight i) = total active weight := by
    rw [Finset.sum_add_distrib, zeroSum, zero_add, total]
  by_contra nonpositive
  have below : ∑ i ∈ active, (credit i + weight i) ≤ 0 := by
    apply Finset.sum_nonpos
    intro i member
    have maximal := selects.maximal i member
    linarith
  have totalPositive := total_pos positive selects.member
  linarith

theorem Fair.settle (fair : Fair active weight credit)
    (selects : Selects active weight credit best)
    (positive : ∀ i ∈ active, 0 < weight i) :
    Fair active weight (settle active weight credit best) := by
  constructor
  · rw [sum_settle_active selects, fair.sum]
  · intro i member
    by_cases same : i = best
    · subst i
      have selectedPositive := selected_pos selects positive fair.sum
      rw [settle_self]
      linarith
    · have above := fair.above i member
      have weightPositive := positive i member
      rw [settle_of_ne same]
      linarith

theorem Ledger.settle {picks : List ι}
    (ledger : Ledger active weight picks credit) (best : ι) :
    Ledger active weight (picks ++ [best])
      (settle active weight credit best) := by
  intro i member
  have entry := ledger i member
  by_cases same : i = best
  · subst i
    rw [settle_self, entry, List.length_append, List.count_append,
      List.length_singleton, List.count_singleton_self]
    push_cast
    ring
  · have absent : [best].count i = 0 :=
      List.count_eq_zero.mpr (by simpa using same)
    rw [settle_of_ne same, entry, List.length_append, List.count_append,
      List.length_singleton, absent]
    push_cast
    ring

variable {picks : List ι}

/-- No index is picked a full pick more often than its share. -/
theorem count_lt (fair : Fair active weight credit)
    (ledger : Ledger active weight picks credit) {i : ι} (member : i ∈ active) :
    total active weight * picks.count i <
      picks.length * weight i + total active weight := by
  have above := fair.above i member
  have entry := ledger i member
  linarith

/-- After as many picks as the total weight every index has had its share. -/
theorem count_eq_of_round (fair : Fair active weight credit)
    (ledger : Ledger active weight picks credit)
    (positive : ∀ i ∈ active, 0 < weight i)
    (round : (picks.length : ℤ) = total active weight) :
    ∀ i ∈ active, (picks.count i : ℤ) = weight i := by
  intro i member
  have totalPositive := total_pos positive member
  have atMost : ∀ j ∈ active, (picks.count j : ℤ) ≤ weight j := by
    intro j active'
    have share := count_lt fair ledger active'
    rw [round] at share
    have scaled : total active weight * picks.count j <
        total active weight * (weight j + 1) := by linarith
    have below := lt_of_mul_lt_mul_left scaled totalPositive.le
    linarith
  have counted : total active weight * ∑ j ∈ active, (picks.count j : ℤ) =
      total active weight * total active weight := by
    have zeroSum := fair.sum
    rw [Finset.sum_congr rfl ledger, Finset.sum_sub_distrib,
      ← Finset.mul_sum, ← Finset.mul_sum, round] at zeroSum
    rw [total] at zeroSum ⊢
    linarith
  have sums : ∑ j ∈ active, (picks.count j : ℤ) = ∑ j ∈ active, weight j :=
    mul_left_cancel₀ totalPositive.ne' counted
  exact (Finset.sum_eq_sum_iff_of_le atMost).mp sums i member

theorem credit_eq_zero_of_round (fair : Fair active weight credit)
    (ledger : Ledger active weight picks credit)
    (positive : ∀ i ∈ active, 0 < weight i)
    (round : (picks.length : ℤ) = total active weight) :
    ∀ i ∈ active, credit i = 0 := by
  intro i member
  rw [ledger i member, count_eq_of_round fair ledger positive round i member,
    round]
  ring

end Selection

/-- A concave function of a number of indices: `limit + (limit - 1) + …` with
as many summands as there are indices. -/
def depth (limit : ℤ) : ℕ → ℤ
  | 0 => 0
  | count + 1 => depth limit count + (limit - count)

theorem depth_one (limit : ℤ) : depth limit 1 = limit := by
  simp [depth]

/-- The value at `count + 1` lies above the chord from `count` to a later
point, by one unit for each step in between. -/
theorem depth_chord (limit : ℤ) (count steps : ℕ) :
    depth limit (count + steps + 1) + steps * (depth limit count + 1) ≤
      (steps + 1) * depth limit (count + 1) := by
  induction steps with
  | zero => simp
  | succ steps ih =>
      have next : depth limit (count + (steps + 1) + 1) =
          depth limit (count + steps + 1) + (limit - (count + steps + 1)) := by
        rw [← Nat.add_assoc, depth]
        push_cast
        ring
      have first : depth limit (count + 1) =
          depth limit count + (limit - count) := rfl
      have nonnegative : (0 : ℤ) ≤ steps := Int.natCast_nonneg steps
      rw [next]
      push_cast at ih ⊢
      linarith

/-- How far credits may be from zero.  The bound from below is on the sum over
every group of indices, since a single credit can only be pushed down far when
no other is much higher. -/
structure Bounded (limit : ℕ) (load : ℤ) (active : Finset ι)
    (credit : ι → ℤ) : Prop where
  above : ∑ i ∈ active, max (credit i) 0 ≤ limit * load
  below : ∀ part ⊆ active,
    -(load * depth limit part.card) ≤ ∑ i ∈ part, credit i

namespace Bounded

omit [DecidableEq ι] in
theorem congr {limit : ℕ} {load : ℤ} {active : Finset ι}
    {credit credit' : ι → ℤ} (bounded : Bounded limit load active credit)
    (same : ∀ i ∈ active, credit' i = credit i) :
    Bounded limit load active credit' := by
  constructor
  · rw [Finset.sum_congr rfl (fun i member => by rw [same i member])]
    exact bounded.above
  · intro part subset
    rw [Finset.sum_congr rfl (fun i member => same i (subset member))]
    exact bounded.below part subset

variable {limit : ℕ} {load : ℤ} {active : Finset ι} {weight credit : ι → ℤ}
  {best : ι}

omit [DecidableEq ι] in
theorem le (bounded : Bounded limit load active credit) {i : ι}
    (member : i ∈ active) : credit i ≤ limit * load := by
  have single : max (credit i) 0 ≤ ∑ j ∈ active, max (credit j) 0 := by
    apply Finset.single_le_sum (f := fun j => max (credit j) 0) _ member
    intro j _
    exact le_max_right _ _
  exact (le_max_left _ _).trans (single.trans bounded.above)

omit [DecidableEq ι] in
theorem ge (bounded : Bounded limit load active credit) {i : ι}
    (member : i ∈ active) : -(limit * load) ≤ credit i := by
  have single := bounded.below {i} (Finset.singleton_subset_iff.mpr member)
  rw [Finset.card_singleton, depth_one, Finset.sum_singleton] at single
  linarith

/-- An index that leaves takes its credit with it. -/
theorem erase (bounded : Bounded limit load active credit) (i : ι) :
    Bounded limit load (active.erase i) credit := by
  constructor
  · apply (Finset.sum_le_sum_of_subset_of_nonneg
      (Finset.erase_subset i active) _).trans bounded.above
    intro j _ _
    exact le_max_right _ _
  · intro part subset
    exact bounded.below part (subset.trans (Finset.erase_subset i active))

/-- A new index starts without credit. -/
theorem insert (bounded : Bounded limit load active credit) {i : ι}
    (fresh : i ∉ active) (zero : credit i = 0) (nonnegative : 0 ≤ load)
    (room : (insert i active).card ≤ limit) :
    Bounded limit load (insert i active) credit := by
  constructor
  · rw [Finset.sum_insert fresh, zero, max_self, zero_add]
    exact bounded.above
  · intro part subset
    by_cases member : i ∈ part
    · have others := bounded.below (part.erase i)
        (Finset.subset_insert_iff.mp subset)
      have card := Finset.card_erase_add_one member
      have small : (part.erase i).card < limit := by
        have bound := Finset.card_le_card subset
        omega
      have deeper : depth limit (part.erase i).card ≤ depth limit part.card := by
        rw [← card, depth]
        have room' : ((part.erase i).card : ℤ) < limit := by exact_mod_cast small
        linarith
      have scaled := mul_le_mul_of_nonneg_left deeper nonnegative
      rw [← Finset.add_sum_erase part credit member, zero, zero_add]
      linarith
    · exact bounded.below part
        ((Finset.subset_insert_iff_of_notMem member).mp subset)

/-- While the selected index covers the total, the positive credits together
do not grow. -/
theorem sum_max_settle_le (selects : Selects active weight credit best)
    (weights : ∀ i ∈ active, 0 ≤ weight i)
    (covered : total active weight ≤ credit best + weight best) :
    ∑ i ∈ active, max (settle active weight credit best i) 0 ≤
      ∑ i ∈ active, max (credit i) 0 := by
  have each : ∀ i ∈ active, max (SmoothRoundRobin.settle active weight
      credit best i) 0 ≤ max (credit i) 0 + weight i -
        if i = best then total active weight else 0 := by
    intro i member
    have weightNonnegative := weights i member
    have creditLe := le_max_left (credit i) 0
    have zeroLe := le_max_right (credit i) 0
    by_cases same : i = best
    · subst i
      rw [settle_self, if_pos rfl]
      apply max_le
      · linarith
      · linarith
    · rw [settle_of_ne same, if_neg same]
      apply max_le
      · linarith
      · linarith
  apply (Finset.sum_le_sum each).trans
  rw [Finset.sum_sub_distrib, Finset.sum_add_distrib, Finset.sum_ite_eq',
    if_pos selects.member, total]
  linarith

theorem above_settle (bounded : Bounded limit load active credit)
    (selects : Selects active weight credit best)
    (weights : ∀ i ∈ active, 0 ≤ weight i)
    (size : active.card ≤ limit) (small : total active weight ≤ load) :
    ∑ i ∈ active, max (settle active weight credit best i) 0 ≤
      limit * load := by
  have totalNonnegative : 0 ≤ total active weight := Finset.sum_nonneg weights
  by_cases covered : total active weight ≤ credit best + weight best
  · exact (sum_max_settle_le selects weights covered).trans bounded.above
  · -- Otherwise every credit is below the total, before and after.
    have each : ∀ i ∈ active, max (SmoothRoundRobin.settle active weight
        credit best i) 0 ≤ total active weight := by
      intro i member
      have maximal := selects.maximal i member
      apply max_le _ totalNonnegative
      by_cases same : i = best
      · subst i
        rw [settle_self]
        linarith
      · rw [settle_of_ne same]
        linarith
    have sum := Finset.sum_le_card_nsmul active _ _ each
    rw [nsmul_eq_mul] at sum
    have size' : (active.card : ℤ) ≤ limit := by exact_mod_cast size
    have scaled := mul_le_mul size' small totalNonnegative
      (Int.natCast_nonneg limit)
    exact sum.trans scaled

/-- The highest index is at least as high as everything outside a group. -/
theorem sum_active_le (selects : Selects active weight credit best)
    {part : Finset ι} (subset : part ⊆ active) (member : best ∈ part) :
    ∑ i ∈ active, (credit i + weight i) ≤
      ∑ i ∈ part.erase best, (credit i + weight i) +
        ((active \ part).card + 1) * (credit best + weight best) := by
  have outside : ∑ i ∈ active \ part, (credit i + weight i) ≤
      (active \ part).card • (credit best + weight best) := by
    apply Finset.sum_le_card_nsmul
    intro i outsider
    exact selects.maximal i (Finset.mem_sdiff.mp outsider).1
  rw [nsmul_eq_mul] at outside
  rw [← Finset.sum_sdiff subset, ← Finset.add_sum_erase part _ member]
  linarith

/-- A group is pushed down by a selection only as far as the sum over all
indices allows. -/
theorem below_settle (bounded : Bounded limit load active credit)
    (selects : Selects active weight credit best)
    (weights : ∀ i ∈ active, 0 ≤ weight i)
    (small : total active weight ≤ load) (part : Finset ι)
    (subset : part ⊆ active) :
    -(load * depth limit part.card) ≤
      ∑ i ∈ part, settle active weight credit best i := by
  have partWeights : 0 ≤ ∑ i ∈ part, weight i :=
    Finset.sum_nonneg (fun i member => weights i (subset member))
  rw [sum_settle]
  by_cases member : best ∈ part
  · have whole := bounded.below active (Finset.Subset.refl active)
    have others := bounded.below (part.erase best)
      ((Finset.erase_subset best part).trans subset)
    have otherWeights : 0 ≤ ∑ i ∈ part.erase best, weight i :=
      Finset.sum_nonneg (fun i inner => weights i
        (subset (Finset.mem_of_mem_erase inner)))
    have highest := sum_active_le selects subset member
    have loadNonnegative : 0 ≤ load :=
      (Finset.sum_nonneg weights).trans small
    have partCard := Finset.card_erase_add_one member
    have activeCard := Finset.card_sdiff_add_card_eq_card subset
    have chord := mul_le_mul_of_nonneg_left
      (depth_chord limit (part.erase best).card (active \ part).card)
      loadNonnegative
    have sizes : (part.erase best).card + (active \ part).card + 1 =
        active.card := by omega
    rw [sizes, partCard] at chord
    have steps : (0 : ℤ) ≤ (active \ part).card := Int.natCast_nonneg _
    have scaledOthers := mul_le_mul_of_nonneg_left others steps
    have scaledWeights := mul_nonneg steps otherWeights
    have scaledTotal := mul_le_mul_of_nonneg_left small steps
    rw [Finset.sum_add_distrib, Finset.sum_add_distrib] at highest
    have totalEq : ∑ i ∈ active, weight i = total active weight := rfl
    rw [totalEq] at highest
    rw [if_pos member, ← Finset.add_sum_erase part credit member,
      ← Finset.add_sum_erase part weight member]
    -- Both sides scaled by the number of indices outside the group plus one.
    have positive : (0 : ℤ) < (active \ part).card + 1 := by linarith
    apply le_of_mul_le_mul_left _ positive
    linarith
  · have before := bounded.below part subset
    rw [if_neg member]
    linarith

theorem settle (bounded : Bounded limit load active credit)
    (selects : Selects active weight credit best)
    (weights : ∀ i ∈ active, 0 ≤ weight i)
    (size : active.card ≤ limit) (small : total active weight ≤ load) :
    Bounded limit load active (settle active weight credit best) :=
  ⟨bounded.above_settle selects weights size small,
    bounded.below_settle selects weights small⟩

end Bounded

end SmoothRoundRobin
