import NyxNet.Lib.ModularPower

/-!
# Wesolowski VDF

`nyx-mix/src/vdf.rs`: the delay function with its proof, and the verifier.
Big integers are natural numbers; `none` stands for the panic of the
big-integer crate on a zero modulus.
-/

namespace NyxNet.Mix

/-- `BigUint::modpow`, which panics on a zero modulus. -/
def modpow (base exponent modulus : Nat) : Option Nat :=
  if modulus = 0 then none
  else some (ModularPower.powMod base exponent modulus)

theorem modpow_eq_some {modulus : Nat} (base exponent : Nat)
    (positive : modulus ≠ 0) :
    modpow base exponent modulus = some (base ^ exponent % modulus) := by
  rw [modpow, if_neg positive, ModularPower.powMod_eq]

namespace Vdf

/-- Public prime ℓ for Wesolowski (2^128 + 51). -/
def lPrime : Nat := 340282366920938463463374607431768211507

/-- The squarings of `eval`. -/
def evalLoop (n : Nat) : Nat → Nat → Option Nat
  | 0, y => some y
  | rounds + 1, y => do
      let y ← modpow y 2 n
      evalLoop n rounds y

def eval (x n : Nat) (t : UInt64) : Option Nat := evalLoop n t.toNat x

/-- `q = (2^t - r) / ℓ` with `r = 2^t mod ℓ`. -/
def quotient (t : UInt64) : Nat :=
  (2 ^ t.toNat - 2 ^ t.toNat % lPrime) / lPrime

def prove (x n : Nat) (t : UInt64) : Option (Nat × Nat) := do
  let y ← eval x n t
  let pi ← modpow x (quotient t) n
  return (y, pi)

/-- `fast_pow2`: multiplication and remainder in place of `modpow`. -/
def fastPow2 (n : Nat) : Nat → Nat → Option Nat
  | 0, y => some y
  | rounds + 1, y =>
      if n = 0 then none else fastPow2 n rounds (y * y % n)

def proveMont (x n : Nat) (t : UInt64) : Option (Nat × Nat) := do
  let y ← fastPow2 n t.toNat x
  let pi ← modpow x (quotient t) n
  return (y, pi)

def verify (x y pi n : Nat) (t : UInt64) : Option Bool := do
  let r := 2 ^ t.toNat % lPrime
  let a ← modpow pi lPrime n
  let b ← if r = 0 then some 1 else modpow x r n
  return a * b % n == y

/-- The equation a proof has to satisfy: `y = π^ℓ · x^r` modulo `n` with
`r = 2^t mod ℓ`. -/
def Equation (x y pi n : Nat) (t : UInt64) : Prop :=
  pi ^ lPrime * x ^ (2 ^ t.toNat % lPrime) % n = y

theorem verify_eq_some {n : Nat} (positive : n ≠ 0) (x y pi : Nat)
    (t : UInt64) :
    verify x y pi n t =
      some (pi ^ lPrime * x ^ (2 ^ t.toNat % lPrime) % n == y) := by
  simp only [verify, modpow_eq_some _ _ positive]
  by_cases zero : 2 ^ t.toNat % lPrime = 0
  · simp [zero]
  · simp [zero]

theorem verify_of_equation {x y pi n : Nat} {t : UInt64} (positive : n ≠ 0)
    (equation : Equation x y pi n t) : verify x y pi n t = some true := by
  rw [verify_eq_some positive]
  exact congrArg some (beq_iff_eq.mpr equation)

theorem verify_of_not_equation {x y pi n : Nat} {t : UInt64}
    (positive : n ≠ 0) (violated : ¬ Equation x y pi n t) :
    verify x y pi n t = some false := by
  rw [verify_eq_some positive]
  exact congrArg some (beq_eq_false_iff_ne.mpr violated)

theorem fastPow2_eq_evalLoop (n rounds y : Nat) :
    fastPow2 n rounds y = evalLoop n rounds y := by
  induction rounds generalizing y with
  | zero => rfl
  | succ rounds ih =>
      rw [fastPow2, evalLoop]
      by_cases zero : n = 0
      · simp [modpow, zero]
      · rw [if_neg zero, modpow_eq_some _ _ zero, Nat.pow_two, ih]
        rfl

/-- The two provers differ only in how they square. -/
theorem proveMont_eq_prove (x n : Nat) (t : UInt64) :
    proveMont x n t = prove x n t := by
  rw [proveMont, fastPow2_eq_evalLoop]
  rfl

/-- The loop returns its input unreduced when it does not run at all. -/
theorem evalLoop_eq_some {n : Nat} (positive : n ≠ 0) (rounds y : Nat)
    (reduced : 1 ≤ rounds ∨ y < n) :
    evalLoop n rounds y = some (y ^ 2 ^ rounds % n) := by
  induction rounds generalizing y with
  | zero =>
      have small : y < n := by
        rcases reduced with impossible | small
        · exact absurd impossible (Nat.not_succ_le_zero 0)
        · exact small
      rw [evalLoop, Nat.pow_zero, Nat.pow_one, Nat.mod_eq_of_lt small]
  | succ rounds ih =>
      have squared : y ^ 2 % n < n := Nat.mod_lt _ (Nat.pos_of_ne_zero positive)
      have next := ih (y ^ 2 % n) (Or.inr squared)
      have power : (y ^ 2) ^ 2 ^ rounds = y ^ 2 ^ (rounds + 1) := by
        rw [← Nat.pow_mul, Nat.pow_succ']
      rw [evalLoop, modpow_eq_some _ _ positive]
      simp only [Option.bind_eq_bind, Option.bind_some]
      rw [next, ← Nat.pow_mod, power]

theorem quotient_mul_add (t : UInt64) :
    quotient t * lPrime + 2 ^ t.toNat % lPrime = 2 ^ t.toNat := by
  rw [quotient, ← Nat.div_eq_sub_mod_div]
  exact Nat.div_add_mod' (2 ^ t.toNat) lPrime

/-- The exponent `2^t` splits into quotient and remainder whatever the common
factors of `x` and `n` are. -/
theorem equation_of_quotient (x n : Nat) (t : UInt64) :
    Equation x (x ^ 2 ^ t.toNat % n) (x ^ quotient t % n) n t := by
  have split : (x ^ quotient t) ^ lPrime * x ^ (2 ^ t.toNat % lPrime) =
      x ^ 2 ^ t.toNat := by
    rw [← Nat.pow_mul, ← Nat.pow_add, quotient_mul_add]
  rw [Equation, ← split, Nat.mul_mod, ← Nat.pow_mod, ← Nat.mul_mod]

theorem prove_eq_some {n : Nat} (positive : n ≠ 0) (x : Nat) (t : UInt64)
    (reduced : 1 ≤ t.toNat ∨ x < n) :
    prove x n t = some (x ^ 2 ^ t.toNat % n, x ^ quotient t % n) := by
  rw [prove, eval, evalLoop_eq_some positive _ _ reduced,
    modpow_eq_some _ _ positive]
  rfl

/-- `eval` reduces its input only if it squares at all. -/
theorem eval_eq_some {n : Nat} (positive : n ≠ 0) (x : Nat) (t : UInt64) :
    eval x n t = some (if t = 0 then x else x ^ 2 ^ t.toNat % n) := by
  by_cases idle : t = 0
  · subst idle
    rfl
  · have squares : 1 ≤ t.toNat := by
      rw [Nat.one_le_iff_ne_zero]
      exact fun zero => idle (UInt64.toNat_inj.mp zero)
    rw [eval, evalLoop_eq_some positive _ _ (Or.inl squares), if_neg idle]

/-- For every modulus the two provers return the same pair, also for an
unreduced input that is not squared. -/
theorem prove_mont_agrees {n : Nat} (modulus : 1 ≤ n) (x : Nat) (t : UInt64) :
    proveMont x n t = prove x n t ∧
      prove x n t = some (if t = 0 then x else x ^ 2 ^ t.toNat % n,
        x ^ quotient t % n) := by
  have positive : n ≠ 0 := Nat.one_le_iff_ne_zero.mp modulus
  refine ⟨proveMont_eq_prove x n t, ?_⟩
  rw [prove, eval_eq_some positive, modpow_eq_some _ _ positive]
  rfl

theorem prove_mont_agrees_unreduced :
    proveMont 20 7 0 = prove 20 7 0 ∧ prove 20 7 0 = some (20, 1) :=
  prove_mont_agrees (by decide) 20 0

theorem proveMont_equation {n : Nat} (positive : n ≠ 0) (x : Nat)
    (t : UInt64) (reduced : 1 ≤ t.toNat ∨ x < n) :
    ∃ y pi, proveMont x n t = some (y, pi) ∧ Equation x y pi n t := by
  refine ⟨x ^ 2 ^ t.toNat % n, x ^ quotient t % n, ?_, ?_⟩
  · rw [proveMont_eq_prove]
    exact prove_eq_some positive x t reduced
  · exact equation_of_quotient x n t

/-- What the prover returns is the delay output, and the verifier accepts
it. -/
theorem vdf_prove_verifies {n : Nat} (modulus : 2 ≤ n) (x : Nat) (t : UInt64)
    (reduced : 1 ≤ t.toNat ∨ x < n) :
    ∃ y pi, prove x n t = some (y, pi) ∧
      y = x ^ 2 ^ t.toNat % n ∧
      pi = x ^ ((2 ^ t.toNat - 2 ^ t.toNat % lPrime) / lPrime) % n ∧
      pi ^ lPrime * x ^ (2 ^ t.toNat % lPrime) % n = y ∧
      verify x y pi n t = some true := by
  have positive : n ≠ 0 := by omega
  have equation := equation_of_quotient x n t
  refine ⟨x ^ 2 ^ t.toNat % n, x ^ quotient t % n,
    prove_eq_some positive x t reduced, rfl, rfl, equation, ?_⟩
  exact verify_of_equation positive equation

/-- An input with a common factor, and an exponent below `ℓ`. -/
theorem vdf_prove_verifies_at_five :
    ∃ y pi, prove 202 11413 5 = some (y, pi) ∧
      y = 202 ^ 2 ^ (5 : UInt64).toNat % 11413 ∧
      pi = 202 ^ ((2 ^ (5 : UInt64).toNat -
        2 ^ (5 : UInt64).toNat % lPrime) / lPrime) % 11413 ∧
      pi ^ lPrime * 202 ^ (2 ^ (5 : UInt64).toNat % lPrime) % 11413 = y ∧
      verify 202 y pi 11413 5 = some true :=
  vdf_prove_verifies (by decide) 202 5 (Or.inl (by decide))

end Vdf

end NyxNet.Mix
