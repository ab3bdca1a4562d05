import Mathlib.Data.Nat.Factorization.Basic
import Mathlib.FieldTheory.Finite.Basic

/-!
# Strong probable primes

What the Miller-Rabin test checks of a number `n = d * 2 ^ s + 1` with `d` odd.
A prime is a strong probable prime to every base it does not divide, since the
only square roots of one modulo a prime are one and minus one.
-/

/-- The odd part of a number and the twos taken out of it. -/
structure OddPart (number d s : Nat) : Prop where
  odd : d % 2 = 1
  split : number = d * 2 ^ s

namespace OddPart

theorem unique {number d s e t : Nat} (left : OddPart number d s)
    (right : OddPart number e t) : d = e ∧ s = t := by
  obtain ⟨dOdd, leftSplit⟩ := left
  obtain ⟨eOdd, rightSplit⟩ := right
  have same : d * 2 ^ s = e * 2 ^ t := leftSplit.symm.trans rightSplit
  clear leftSplit rightSplit
  induction s generalizing t with
  | zero =>
      cases t with
      | zero => exact ⟨by simpa using same, rfl⟩
      | succ t =>
          rw [Nat.pow_zero, Nat.mul_one, Nat.pow_succ, ← Nat.mul_assoc] at same
          omega
  | succ s ih =>
      rw [Nat.pow_succ, ← Nat.mul_assoc] at same
      cases t with
      | zero =>
          rw [Nat.pow_zero, Nat.mul_one] at same
          omega
      | succ t =>
          rw [Nat.pow_succ, ← Nat.mul_assoc] at same
          obtain ⟨sameOdd, sameTwos⟩ :=
            ih (Nat.eq_of_mul_eq_mul_right Nat.two_pos same)
          exact ⟨sameOdd, congrArg Nat.succ sameTwos⟩

theorem exists_of_ne_zero {number : Nat} (nonzero : number ≠ 0) :
    ∃ d s, OddPart number d s := by
  obtain ⟨s, d, odd, split⟩ := Nat.exists_eq_two_pow_mul_odd nonzero
  refine ⟨d, s, Nat.odd_iff.mp odd, ?_⟩
  rw [split, Nat.mul_comm]

end OddPart

/-- The power of `a` by the odd part of `n - 1` is one, or one of the squares
that follow it is minus one. -/
def StrongProbablePrime (n a : Nat) : Prop :=
  ∃ d s, OddPart (n - 1) d s ∧
    (a ^ d % n = 1 ∨ ∃ r < s, a ^ (d * 2 ^ r) % n = n - 1)

/-- A composite number that passes for a prime with each of the bases. -/
structure StrongPseudoprime (n : Nat) (bases : List Nat) : Prop where
  composite : ¬ n.Prime
  passes : ∀ a ∈ bases, StrongProbablePrime n a

namespace StrongProbablePrime

theorem iff_of_oddPart {n a d s : Nat} (oddPart : OddPart (n - 1) d s) :
    StrongProbablePrime n a ↔
      a ^ d % n = 1 ∨ ∃ r < s, a ^ (d * 2 ^ r) % n = n - 1 := by
  constructor
  · intro probable
    obtain ⟨e, t, other, passes⟩ := probable
    obtain ⟨rfl, rfl⟩ := oddPart.unique other
    exact passes
  · intro passes
    exact ⟨d, s, oddPart, passes⟩

/-- A base shares no factor with a number that it passes. -/
theorem coprime {n a : Nat} (large : 2 < n)
    (probable : StrongProbablePrime n a) : a.Coprime n := by
  obtain ⟨d, s, oddPart, passes⟩ := probable
  have dPositive : d ≠ 0 := by
    have odd := oddPart.odd
    omega
  -- A common factor divides the residue of every power.
  have residue : ∀ k, k ≠ 0 → a.gcd n ∣ a ^ k % n := by
    intro k nonzero
    rw [Nat.dvd_mod_iff (Nat.gcd_dvd_right a n)]
    exact (Nat.gcd_dvd_left a n).trans (dvd_pow_self a nonzero)
  rcases passes with one | minusOne
  · have divides := residue d dPositive
    rw [one] at divides
    exact Nat.dvd_one.mp divides
  · obtain ⟨r, -, square⟩ := minusOne
    have divides := residue (d * 2 ^ r)
      (Nat.mul_ne_zero dPositive (Nat.two_pow_pos r).ne')
    rw [square] at divides
    have difference := Nat.dvd_sub (Nat.gcd_dvd_right a n) divides
    have one : n - (n - 1) = 1 := by omega
    rw [one] at difference
    exact Nat.dvd_one.mp difference

end StrongProbablePrime

/-- Square roots of one, taken repeatedly, are one until one is minus one. -/
theorem eq_one_or_exists_eq_neg_one {R : Type*} [CommRing R]
    [NoZeroDivisors R] {s : Nat} {x : R} (power : x ^ 2 ^ s = 1) :
    x = 1 ∨ ∃ r < s, x ^ 2 ^ r = -1 := by
  induction s with
  | zero =>
      rw [Nat.pow_zero, pow_one] at power
      exact Or.inl power
  | succ s ih =>
      rw [Nat.pow_succ, pow_mul, pow_two] at power
      rcases mul_self_eq_one_iff.mp power with one | minusOne
      · rcases ih one with trivially | later
        · exact Or.inl trivially
        · obtain ⟨r, below, root⟩ := later
          exact Or.inr ⟨r, Nat.lt_succ_of_lt below, root⟩
      · exact Or.inr ⟨s, Nat.lt_succ_self s, minusOne⟩

/-- A prime is a strong probable prime to every base it does not divide. -/
theorem StrongProbablePrime.of_prime {p a : Nat} (prime : p.Prime)
    (coprime : ¬ p ∣ a) : StrongProbablePrime p a := by
  have field : Fact p.Prime := ⟨prime⟩
  have large := prime.two_le
  obtain ⟨d, s, oddPart⟩ := OddPart.exists_of_ne_zero
    (show p - 1 ≠ 0 by omega)
  have nonzero : (a : ZMod p) ≠ 0 := by
    rw [Ne, ZMod.natCast_eq_zero_iff]
    exact coprime
  have power : ((a : ZMod p) ^ d) ^ 2 ^ s = 1 := by
    rw [← pow_mul, ← oddPart.split]
    exact ZMod.pow_card_sub_one_eq_one nonzero
  refine ⟨d, s, oddPart, ?_⟩
  rcases eq_one_or_exists_eq_neg_one power with one | minusOne
  · left
    have residue : ((a ^ d : Nat) : ZMod p) = ((1 : Nat) : ZMod p) := by
      push_cast
      exact one
    rw [ZMod.natCast_eq_natCast_iff', Nat.mod_eq_of_lt prime.one_lt]
      at residue
    exact residue
  · right
    obtain ⟨r, below, root⟩ := minusOne
    refine ⟨r, below, ?_⟩
    have residue : ((a ^ (d * 2 ^ r) : Nat) : ZMod p) =
        ((p - 1 : Nat) : ZMod p) := by
      rw [Nat.cast_sub prime.one_le]
      push_cast
      rw [pow_mul, root, ZMod.natCast_self, zero_sub]
    rw [ZMod.natCast_eq_natCast_iff', Nat.mod_eq_of_lt (Nat.sub_one_lt_of_lt
      prime.pos)] at residue
    exact residue
