import Mathlib.Algebra.Group.Nat.Defs
import Mathlib.Tactic.Common

/-!
# Machine words and run-time outcomes

Unsigned 64-bit arithmetic wraps in release builds and aborts the call in
builds with overflow checks.  `OverflowMode` keeps both readings, and
`Outcome` has room for a call that aborts instead of returning.
-/

/-- How a build treats an arithmetic result that does not fit its type. -/
inductive OverflowMode where
  | wrapping
  | checked
  deriving DecidableEq, Repr

namespace OverflowMode

/-- Addition of 64-bit words; `none` is an abort. -/
def add : OverflowMode → UInt64 → UInt64 → Option UInt64
  | .wrapping, left, right => some (left + right)
  | .checked, left, right =>
      if left.toNat + right.toNat < 2 ^ 64 then some (left + right) else none

/-- Subtraction of 64-bit words. -/
def sub : OverflowMode → UInt64 → UInt64 → Option UInt64
  | .wrapping, left, right => some (left - right)
  | .checked, left, right =>
      if right.toNat ≤ left.toNat then some (left - right) else none

/-- Multiplication of 64-bit words. -/
def mul : OverflowMode → UInt64 → UInt64 → Option UInt64
  | .wrapping, left, right => some (left * right)
  | .checked, left, right =>
      if left.toNat * right.toNat < 2 ^ 64 then some (left * right) else none

/-- A result is the same in both modes. -/
theorem eq_of_add {mode : OverflowMode} {left right sum : UInt64}
    (added : mode.add left right = some sum) : sum = left + right := by
  cases mode with
  | wrapping => exact (Option.some.inj added).symm
  | checked =>
      rw [add] at added
      split at added
      · exact (Option.some.inj added).symm
      · cases added

theorem eq_of_sub {mode : OverflowMode} {left right difference : UInt64}
    (subtracted : mode.sub left right = some difference) :
    difference = left - right := by
  cases mode with
  | wrapping => exact (Option.some.inj subtracted).symm
  | checked =>
      rw [sub] at subtracted
      split at subtracted
      · exact (Option.some.inj subtracted).symm
      · cases subtracted

theorem eq_of_mul {mode : OverflowMode} {left right product : UInt64}
    (multiplied : mode.mul left right = some product) :
    product = left * right := by
  cases mode with
  | wrapping => exact (Option.some.inj multiplied).symm
  | checked =>
      rw [mul] at multiplied
      split at multiplied
      · exact (Option.some.inj multiplied).symm
      · cases multiplied

/-- Without overflow both modes give the exact sum. -/
theorem add_eq_some (mode : OverflowMode) {left right : UInt64}
    (fits : left.toNat + right.toNat < 2 ^ 64) :
    mode.add left right = some (left + right) := by
  cases mode with
  | wrapping => rfl
  | checked => exact if_pos fits

/-- Without overflow both modes give the exact product. -/
theorem mul_eq_some (mode : OverflowMode) {left right : UInt64}
    (fits : left.toNat * right.toNat < 2 ^ 64) :
    mode.mul left right = some (left * right) := by
  cases mode with
  | wrapping => rfl
  | checked => exact if_pos fits

theorem checked_mul_eq_none {left right : UInt64}
    (exceeds : ¬ left.toNat * right.toNat < 2 ^ 64) :
    checked.mul left right = none := if_neg exceeds

/-- In both modes a sum is exact up to its type. -/
theorem toNat_of_add {mode : OverflowMode} {left right sum : UInt64}
    (added : mode.add left right = some sum) :
    sum.toNat = (left.toNat + right.toNat) % 2 ^ 64 := by
  cases mode with
  | wrapping =>
      rw [← Option.some.inj added]
      exact UInt64.toNat_add left right
  | checked =>
      rw [add] at added
      split at added
      · rw [← Option.some.inj added]
        exact UInt64.toNat_add left right
      · cases added

/-- A checked sum is exact. -/
theorem toNat_of_checked_add {left right sum : UInt64}
    (added : checked.add left right = some sum) :
    sum.toNat = left.toNat + right.toNat := by
  rw [add] at added
  by_cases fits : left.toNat + right.toNat < 2 ^ 64
  · rw [if_pos fits] at added
    rw [← Option.some.inj added, UInt64.toNat_add, Nat.mod_eq_of_lt fits]
  · rw [if_neg fits] at added
    cases added

/-- What a 32-bit operation leaves of its exact result; `none` is an abort. -/
def fit32 : OverflowMode → Nat → Option UInt32
  | .wrapping, exact => some (UInt32.ofNat exact)
  | .checked, exact =>
      if exact < 2 ^ 32 then some (UInt32.ofNat exact) else none

/-- In both modes a result is exact up to its type. -/
theorem toNat_of_fit32 {mode : OverflowMode} {exact : Nat} {word : UInt32}
    (fitted : mode.fit32 exact = some word) :
    word.toNat = exact % 2 ^ 32 := by
  cases mode with
  | wrapping =>
      rw [← Option.some.inj fitted]
      exact UInt32.toNat_ofNat'
  | checked =>
      rw [fit32] at fitted
      split at fitted
      · rw [← Option.some.inj fitted]
        exact UInt32.toNat_ofNat'
      · cases fitted

theorem toNat_le_of_fit32 {mode : OverflowMode} {exact : Nat} {word : UInt32}
    (fitted : mode.fit32 exact = some word) : word.toNat ≤ exact := by
  rw [toNat_of_fit32 fitted]
  exact Nat.mod_le _ _

theorem exists_fit32 (mode : OverflowMode) {exact : Nat}
    (fits : exact < 2 ^ 32) :
    ∃ word, mode.fit32 exact = some word ∧ word.toNat = exact := by
  refine ⟨UInt32.ofNat exact, ?_, UInt32.toNat_ofNat_of_lt' fits⟩
  cases mode with
  | wrapping => rfl
  | checked => exact if_pos fits

/-- With overflow checks a result is there exactly when it fits. -/
theorem checked_fit32_eq_some_iff {exact : Nat} {word : UInt32} :
    checked.fit32 exact = some word ↔ exact < 2 ^ 32 ∧ word.toNat = exact := by
  rw [fit32]
  by_cases fits : exact < 2 ^ 32
  · rw [if_pos fits, Option.some.injEq, ← UInt32.toNat_inj,
      UInt32.toNat_ofNat_of_lt' fits]
    constructor
    · intro same
      exact ⟨fits, same.symm⟩
    · intro facts
      exact facts.2.symm
  · rw [if_neg fits]
    refine iff_of_false (Option.some_ne_none word).symm ?_
    intro facts
    exact fits facts.1

theorem checked_fit32_eq_none {exact : Nat} (exceeds : ¬ exact < 2 ^ 32) :
    checked.fit32 exact = none := if_neg exceeds

end OverflowMode

/-- How a fallible call ends: with a value, with an error, or by aborting. -/
inductive Outcome (ε α : Type) where
  | returned (value : α)
  | failed (error : ε)
  | panicked
  deriving DecidableEq, Repr

namespace UInt64

/-- `saturating_mul`. -/
def saturatingMul (left right : UInt64) : UInt64 :=
  UInt64.ofNat (min (left.toNat * right.toNat) (2 ^ 64 - 1))

theorem toNat_add_of_fits {left right : UInt64}
    (fits : left.toNat + right.toNat < 2 ^ 64) :
    (left + right).toNat = left.toNat + right.toNat := by
  rw [UInt64.toNat_add, Nat.mod_eq_of_lt fits]

theorem toNat_mul_of_fits {left right : UInt64}
    (fits : left.toNat * right.toNat < 2 ^ 64) :
    (left * right).toNat = left.toNat * right.toNat := by
  rw [UInt64.toNat_mul, Nat.mod_eq_of_lt fits]

theorem toNat_ofNat_of_fits {number : Nat} (fits : number < 2 ^ 64) :
    (UInt64.ofNat number).toNat = number :=
  UInt64.toNat_ofNat_of_lt' fits

/-- Counting on from the next word. -/
theorem add_one_add_ofNat (word : UInt64) (count : Nat) :
    word + 1 + UInt64.ofNat count = word + UInt64.ofNat (count + 1) := by
  rw [UInt64.ofNat_add, UInt64.add_assoc, UInt64.add_comm (UInt64.ofNat count)]
  rfl

end UInt64
