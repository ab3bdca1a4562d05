import Mathlib.Algebra.Group.Nat.Defs
import Mathlib.Tactic.Common

/-!
# Smearing the highest bit

A word or-ed with its own shifts has its highest bit copied downwards.  Each
doubling of the shift doubles the number of bits that are set, until all bits
below the highest one are.
-/

/-- The highest `width` bits from position `top` on are set, and none above. -/
structure Smeared (top width word : Nat) : Prop where
  bounded : word < 2 ^ (top + 1)
  filled : ∀ index, index ≤ top → top < index + width →
    word.testBit index = true

namespace Smeared

theorem start {word : Nat} (nonzero : word ≠ 0) :
    Smeared word.log2 1 word := by
  refine ⟨Nat.lt_log2_self, ?_⟩
  intro index within reached
  have same : index = word.log2 := by omega
  rw [same]
  exact Nat.testBit_log2 nonzero

/-- A shift by the number of the set bits doubles it. -/
theorem double {top width word : Nat} (smeared : Smeared top width word) :
    Smeared top (2 * width) (word ||| word >>> width) := by
  obtain ⟨bounded, filled⟩ := smeared
  constructor
  · apply Nat.or_lt_two_pow bounded
    exact Nat.lt_of_le_of_lt (Nat.shiftRight_le word width) bounded
  · intro index within reached
    rw [Nat.testBit_or, Nat.testBit_shiftRight, Bool.or_eq_true]
    by_cases direct : top < index + width
    · exact Or.inl (filled index within direct)
    · exact Or.inr (filled (width + index) (by omega) (by omega))

/-- Once all bits are set the word is one less than a power of two. -/
theorem eq_of_lt {top width word : Nat} (smeared : Smeared top width word)
    (wide : top < width) : word = 2 ^ (top + 1) - 1 := by
  apply Nat.eq_of_testBit_eq
  intro index
  rw [Nat.testBit_two_pow_sub_one]
  by_cases within : index < top + 1
  · rw [decide_eq_true within]
    exact smeared.filled index (by omega) (by omega)
  · rw [decide_eq_false within]
    apply Nat.testBit_lt_two_pow
    exact Nat.lt_of_lt_of_le smeared.bounded
      (Nat.pow_le_pow_right Nat.two_pos (by omega))

end Smeared
