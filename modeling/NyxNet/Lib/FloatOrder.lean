import Mathlib.Data.Int.Order.Basic
import Mathlib.Data.Prod.Lex
import NyxNet.Lib.StableSort

/-!
# The order of floats

The floats that are numbers are ordered by their sign and their size.  A stable
sort by `<` therefore puts them in order, although `<` is no order where what is
no number takes part.
-/

namespace FloatOrder

open Float.Model

/-- The place of a number among the others: its sign and, where the sign leaves
it open, its exponent and mantissa. -/
def rank : UnpackedFloat → ℤ ×ₗ ℤ ×ₗ ℤ
  | .infinity .negative => toLex (-2, toLex (0, 0))
  | .finite .negative mantissa exponent _ =>
      toLex (-1, toLex (-exponent, -mantissa))
  | .zero _ => toLex (0, toLex (0, 0))
  | .finite .positive mantissa exponent _ =>
      toLex (1, toLex (exponent, mantissa))
  | .infinity .positive => toLex (2, toLex (0, 0))
  | .notANumber => toLex (0, toLex (0, 0))

theorem compare_mantissas (left right : ℕ) :
    compare left right = compare (left : ℤ) (right : ℤ) := by
  rw [Nat.compare_eq_ite_lt, Int.compare_eq_ite_lt]
  simp only [Int.ofNat_lt]

theorem compare_neg (left right : ℤ) :
    (compare left right).swap = compare (-left) (-right) := by
  rw [Int.compare_swap, Int.compare_eq_ite_lt, Int.compare_eq_ite_lt]
  simp only [Int.neg_lt_neg_iff]

theorem compare_eq_rank {left right : UnpackedFloat}
    (leftNumber : left.isNaN = false) (rightNumber : right.isNaN = false) :
    left.compare right = some (compare (rank left) (rank right)) := by
  rcases left with (_ | _) | _ | (_ | _) | ⟨_ | _, leftSize, leftExponent, _⟩ <;>
  rcases right with (_ | _) | _ | (_ | _) |
    ⟨_ | _, rightSize, rightExponent, _⟩ <;>
  first
    | rfl
    | contradiction
    | skip
  · change some ((compare leftExponent rightExponent).then
        (compare leftSize rightSize)).swap =
      some ((compare (-leftExponent) (-rightExponent)).then
        (compare (-(leftSize : ℤ)) (-(rightSize : ℤ))))
    rw [Ordering.swap_then, compare_mantissas, compare_neg, compare_neg]
  · change some ((compare leftExponent rightExponent).then
        (compare leftSize rightSize)) =
      some ((compare leftExponent rightExponent).then
        (compare (leftSize : ℤ) (rightSize : ℤ)))
    rw [compare_mantissas]

/-- The place of a float among the numbers. -/
def place (value : Float) : ℤ ×ₗ ℤ ×ₗ ℤ := rank value.toModel.unpack

variable {left right : Float}

theorem lt_iff_compare :
    left < right ↔
      left.toModel.unpack.compare right.toModel.unpack = some .lt := by
  change decide (left.toModel < right.toModel) = true ↔ _
  rw [decide_eq_true_iff]
  exact beq_iff_eq

theorem le_iff_compare :
    left ≤ right ↔
      (left.toModel.unpack.compare right.toModel.unpack).any (·.isLE) =
        true := by
  change decide (left.toModel ≤ right.toModel) = true ↔ _
  rw [decide_eq_true_iff]
  rfl

theorem lt_iff_place (leftNumber : left.isNaN = false)
    (rightNumber : right.isNaN = false) :
    left < right ↔ place left < place right := by
  rw [lt_iff_compare, compare_eq_rank leftNumber rightNumber, Option.some_inj,
    compare_lt_iff_lt]
  rfl

theorem le_iff_place (leftNumber : left.isNaN = false)
    (rightNumber : right.isNaN = false) :
    left ≤ right ↔ place left ≤ place right := by
  rw [le_iff_compare, compare_eq_rank leftNumber rightNumber, Option.any_some,
    Ordering.isLE_iff_ne_gt]
  exact compare_le_iff_le

/-- What is compared with something are numbers, both. -/
theorem numbers_of_compare {smaller larger : UnpackedFloat} {order : Ordering}
    (compared : smaller.compare larger = some order) :
    smaller.isNaN = false ∧ larger.isNaN = false := by
  cases smaller with
  | notANumber => cases larger <;> contradiction
  | infinity sign => cases larger <;> first | contradiction | exact ⟨rfl, rfl⟩
  | zero sign => cases larger <;> first | contradiction | exact ⟨rfl, rfl⟩
  | finite sign mantissa exponent valid =>
      cases larger <;> first | contradiction | exact ⟨rfl, rfl⟩

theorem numbers_of_lt (below : left < right) :
    left.isNaN = false ∧ right.isNaN = false :=
  numbers_of_compare (lt_iff_compare.mp below)

theorem numbers_of_le (below : left ≤ right) :
    left.isNaN = false ∧ right.isNaN = false := by
  rw [le_iff_compare] at below
  cases compared : left.toModel.unpack.compare right.toModel.unpack with
  | none =>
      rw [compared] at below
      cases below
  | some order => exact numbers_of_compare compared

theorem le_trans {middle : Float} (first : left ≤ middle)
    (second : middle ≤ right) : left ≤ right := by
  have numbers := numbers_of_le first
  have others := numbers_of_le second
  rw [le_iff_place numbers.1 numbers.2] at first
  rw [le_iff_place others.1 others.2] at second
  exact (le_iff_place numbers.1 others.2).mpr (first.trans second)

theorem lt_of_lt_of_le {middle : Float} (first : left < middle)
    (second : middle ≤ right) : left < right := by
  have numbers := numbers_of_lt first
  have others := numbers_of_le second
  rw [lt_iff_place numbers.1 numbers.2] at first
  rw [le_iff_place others.1 others.2] at second
  exact (lt_iff_place numbers.1 others.2).mpr (first.trans_le second)

variable {α : Type*} {key : α → Float} {items : List α}

/-- On numbers the sort by `<` is the sort by the place. -/
theorem mergeSort_eq_sortBy
    (numbers : ∀ item ∈ items, (key item).isNaN = false) :
    items.mergeSort (fun left right => !decide (key right < key left)) =
      StableSort.sortBy (fun item => place (key item)) items := by
  have agree : ∀ left ∈ items, ∀ right ∈ items,
      (!decide (key right < key left)) =
        decide (place (key left) ≤ place (key right)) := by
    intro left leftMember right rightMember
    rw [← decide_not, decide_eq_decide,
      lt_iff_place (numbers right rightMember) (numbers left leftMember),
      not_lt]
  have same := List.map_mergeSort
    (r := fun left right => !decide (key right < key left))
    (s := fun left right => place (key left) ≤ place (key right))
    (f := id) agree
  rwa [List.map_id, List.map_id] at same

theorem pairwise_mergeSort
    (numbers : ∀ item ∈ items, (key item).isNaN = false) :
    (items.mergeSort fun left right =>
      !decide (key right < key left)).Pairwise fun left right =>
        key left ≤ key right := by
  have places := StableSort.pairwise_sortBy (fun item => place (key item)) items
  rw [← mergeSort_eq_sortBy numbers] at places
  refine places.imp_of_mem ?_
  intro left right leftMember rightMember below
  rw [List.mem_mergeSort] at leftMember rightMember
  exact (le_iff_place (numbers left leftMember)
    (numbers right rightMember)).mpr below

end FloatOrder
