import Mathlib.Algebra.Group.Nat.Defs
import Mathlib.Tactic.Common

/-!
# Modular exponentiation

Square and multiply, recursing on the number of bits of the exponent so that
powers with large exponents can be evaluated.  `powMod_eq` is the only fact
other modules need.
-/

namespace ModularPower

/-- The power for exponents of at most `bits` bits. -/
def powBits : Nat → Nat → Nat → Nat → Nat
  | 0, _, _, modulus => 1 % modulus
  | bits + 1, base, exponent, modulus =>
      let root := powBits bits base (exponent / 2) modulus
      let square := root * root % modulus
      if exponent % 2 = 1 then square * base % modulus else square

def powMod (base exponent modulus : Nat) : Nat :=
  powBits (exponent.log2 + 1) base exponent modulus

theorem powBits_eq (bits base exponent modulus : Nat)
    (enough : exponent < 2 ^ bits) :
    powBits bits base exponent modulus = base ^ exponent % modulus := by
  induction bits generalizing exponent with
  | zero =>
      have zero : exponent = 0 := by omega
      subst exponent
      rfl
  | succ bits ih =>
      have halved := ih (exponent / 2) (by rw [Nat.pow_succ] at enough; omega)
      have square : powBits bits base (exponent / 2) modulus *
          powBits bits base (exponent / 2) modulus % modulus =
            base ^ (exponent / 2 * 2) % modulus := by
        rw [halved, ← Nat.mul_mod, ← Nat.pow_add, Nat.mul_two]
      unfold powBits
      simp only [square]
      by_cases odd : exponent % 2 = 1
      · have split : base ^ exponent = base ^ (exponent / 2 * 2) * base := by
          rw [← Nat.pow_succ]
          congr 1
          omega
        rw [if_pos odd, split, Nat.mod_mul_mod]
      · have split : exponent / 2 * 2 = exponent := by omega
        rw [if_neg odd, split]

theorem powMod_eq (base exponent modulus : Nat) :
    powMod base exponent modulus = base ^ exponent % modulus :=
  powBits_eq _ _ _ _ Nat.lt_log2_self

end ModularPower
