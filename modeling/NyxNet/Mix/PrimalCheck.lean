import NyxNet.Lib.StrongProbablePrime
import NyxNet.Mix.Accumulator

/-!
# The primality check

What `primal_check` and `miller_rabin` of `nyx-mix/src/accumulator.rs` decide:
a number above the bases passes exactly when it is a strong probable prime to
each of them.  Primes do; so do composite numbers far below the bound that the
source gives for its bases.
-/

namespace NyxNet.Mix.Accumulator

theorem removeTwos_spec {number : Nat} (nonzero : number ≠ 0) (fuel s : Nat)
    (enough : number ≤ fuel) :
    ∃ d twos, removeTwos fuel number s = (d, s + twos) ∧
      OddPart number d twos := by
  induction fuel generalizing number s with
  | zero => exact absurd (Nat.le_zero.mp enough) nonzero
  | succ fuel ih =>
      rw [removeTwos]
      by_cases even : number % 2 = 0
      · obtain ⟨d, twos, removed, oddPart⟩ :=
          ih (show number / 2 ≠ 0 by omega) (s + 1) (by omega)
        refine ⟨d, twos + 1, ?_, oddPart.odd, ?_⟩
        · rw [if_pos even, removed, Nat.add_assoc, Nat.add_comm 1]
        · rw [Nat.pow_succ, ← Nat.mul_assoc, ← oddPart.split]
          omega
      · refine ⟨number, 0, ?_, by omega, ?_⟩
        · rw [if_neg even, Nat.add_zero]
        · rw [Nat.pow_zero, Nat.mul_one]

variable {n : Nat}

/-- The loop squares before it compares. -/
theorem squareLoop_spec (positive : n ≠ 0) (rounds x : Nat) :
    ∃ passed, squareLoop n rounds x = some passed ∧
      (passed = true ↔ ∃ r < rounds, x ^ 2 ^ (r + 1) % n = n - 1) := by
  induction rounds generalizing x with
  | zero =>
      refine ⟨false, rfl, iff_of_false Bool.false_ne_true ?_⟩
      intro found
      obtain ⟨r, below, -⟩ := found
      exact Nat.not_lt_zero r below
  | succ rounds ih =>
      simp only [squareLoop, modpow_eq_some _ _ positive,
        Option.bind_eq_bind, Option.bind_some]
      by_cases minusOne : x ^ 2 % n = n - 1
      · rw [if_pos minusOne]
        exact ⟨true, rfl, iff_of_true rfl
          ⟨0, Nat.succ_pos rounds, minusOne⟩⟩
      · obtain ⟨passed, looped, passes⟩ := ih (x ^ 2 % n)
        -- One squaring is behind, so each power stands one square further on.
        have shifted : ∀ r, (x ^ 2 % n) ^ 2 ^ (r + 1) % n =
            x ^ 2 ^ (r + 1 + 1) % n := by
          intro r
          rw [← Nat.pow_mod, ← Nat.pow_mul, ← Nat.pow_succ']
        rw [if_neg minusOne]
        refine ⟨passed, looped, passes.trans ?_⟩
        constructor
        · intro found
          obtain ⟨r, below, root⟩ := found
          rw [shifted] at root
          exact ⟨r + 1, Nat.succ_lt_succ below, root⟩
        · intro found
          obtain ⟨r, below, root⟩ := found
          cases r with
          | zero => exact absurd root minusOne
          | succ r =>
              rw [← shifted] at root
              exact ⟨r, Nat.lt_of_succ_lt_succ below, root⟩

/-- The initial power and the loop cover the exponents of the definition. -/
theorem strongProbablePrime_iff_loop {a d s : Nat}
    (oddPart : OddPart (n - 1) d s) (twos : s ≠ 0) :
    StrongProbablePrime n a ↔
      (a ^ d % n = 1 ∨ a ^ d % n = n - 1) ∨
        ∃ r < s - 1, (a ^ d % n) ^ 2 ^ (r + 1) % n = n - 1 := by
  have powers : ∀ r, (a ^ d % n) ^ 2 ^ r % n = a ^ (d * 2 ^ r) % n := by
    intro r
    rw [← Nat.pow_mod, ← Nat.pow_mul]
  simp only [StrongProbablePrime.iff_of_oddPart oddPart, powers]
  constructor
  · intro passes
    rcases passes with one | minusOne
    · exact Or.inl (Or.inl one)
    · obtain ⟨r, below, root⟩ := minusOne
      cases r with
      | zero =>
          rw [Nat.pow_zero, Nat.mul_one] at root
          exact Or.inl (Or.inr root)
      | succ r => exact Or.inr ⟨r, by omega, root⟩
  · intro passes
    rcases passes with (one | minusOne) | later
    · exact Or.inl one
    · refine Or.inr ⟨0, Nat.pos_of_ne_zero twos, ?_⟩
      rw [Nat.pow_zero, Nat.mul_one]
      exact minusOne
    · obtain ⟨r, below, root⟩ := later
      exact Or.inr ⟨r + 1, by omega, root⟩

/-- The test of one base. -/
theorem millerRabin_spec (large : 2 < n) (odd : n % 2 = 1) (a : Nat) :
    ∃ passed, millerRabin n a = some passed ∧
      (passed = true ↔ StrongProbablePrime n a) := by
  have positive : n ≠ 0 := by omega
  obtain ⟨d, s, removed, oddPart⟩ :=
    removeTwos_spec (show n - 1 ≠ 0 by omega) n 0 (Nat.sub_le n 1)
  have twos : s ≠ 0 := by
    intro none
    have split := oddPart.split
    have dOdd := oddPart.odd
    rw [none, Nat.pow_zero, Nat.mul_one] at split
    omega
  obtain ⟨passed, looped, passes⟩ :=
    squareLoop_spec positive (s - 1) (a ^ d % n)
  rw [strongProbablePrime_iff_loop oddPart twos, ← passes]
  simp only [millerRabin, removed, Nat.zero_add, modpow_eq_some _ _ positive,
    Option.bind_eq_bind, Option.bind_some]
  by_cases immediate : a ^ d % n = 1 ∨ a ^ d % n = n - 1
  · rw [if_pos immediate]
    exact ⟨true, rfl, iff_of_true rfl (Or.inl immediate)⟩
  · rw [if_neg immediate, looped]
    exact ⟨passed, rfl, (or_iff_right immediate).symm⟩

theorem passesBases_spec (large : 2 < n) (odd : n % 2 = 1)
    (remaining : List Nat) :
    ∃ passed, passesBases n remaining = some passed ∧
      (passed = true ↔ ∀ a ∈ remaining, StrongProbablePrime n a) := by
  induction remaining with
  | nil => exact ⟨true, rfl, iff_of_true rfl (fun _ absent => nomatch absent)⟩
  | cons a remaining ih =>
      obtain ⟨first, tested, firstPasses⟩ := millerRabin_spec large odd a
      obtain ⟨passed, others, othersPass⟩ := ih
      rw [List.forall_mem_cons, ← firstPasses, ← othersPass]
      simp only [passesBases, tested, Option.bind_eq_bind, Option.bind_some]
      cases first with
      | false =>
          refine ⟨false, rfl, iff_of_false Bool.false_ne_true ?_⟩
          intro both
          exact absurd both.1 Bool.false_ne_true
      | true => exact ⟨passed, others, (and_iff_right rfl).symm⟩

/-- A base of the list rules out every factor that it is. -/
theorem not_dvd_of_passes (large : 2 < n)
    (passes : ∀ a ∈ bases, StrongProbablePrime n a) :
    ∀ a ∈ bases, ¬ a ∣ n := by
  intro a base divides
  have coprime := (passes a base).coprime large
  have one : a = 1 := by
    rw [← Nat.gcd_eq_left divides]
    exact coprime
  subst one
  exact absurd base (by decide)

theorem small_subset_bases : small ⊆ bases := by decide

/-- Above the bases the check is the test of every base; the trial divisions
reject nothing that the bases would pass. -/
theorem primalCheck_spec (large : 37 < n) :
    ∃ passed, primalCheck n = some passed ∧
      (passed = true ↔ ∀ a ∈ bases, StrongProbablePrime n a) := by
  have notTwo : n ≠ 2 := by omega
  rw [primalCheck, if_neg notTwo]
  by_cases even : n % 2 = 0
  · rw [if_pos (Or.inr (Or.inr even))]
    refine ⟨false, rfl, iff_of_false Bool.false_ne_true ?_⟩
    intro passes
    exact not_dvd_of_passes (by omega) passes 2 (by decide)
      (Nat.dvd_of_mod_eq_zero even)
  · rw [if_neg (by omega)]
    cases divided : small.find? (fun p => n % p = 0) with
    | some p =>
        have divides := List.find?_some divided
        have listed := List.mem_of_find?_eq_some divided
        have bounded : ∀ p ∈ small, p ≤ 37 := by decide
        have different : n ≠ p := by
          have := bounded p listed
          omega
        refine ⟨false, ?_, iff_of_false Bool.false_ne_true ?_⟩
        · simp only [beq_eq_false_iff_ne.mpr different]
        · intro passes
          exact not_dvd_of_passes (by omega) passes p
            (small_subset_bases listed)
            (Nat.dvd_of_mod_eq_zero (of_decide_eq_true divides))
    | none => exact passesBases_spec (by omega) (by omega) bases

theorem passes_of_prime {p : Nat} (prime : p.Prime) (large : 37 < p) :
    ∀ a ∈ bases, StrongProbablePrime p a := by
  intro a base
  apply StrongProbablePrime.of_prime prime
  have bounded : ∀ a ∈ bases, 0 < a ∧ a ≤ 37 := by decide
  obtain ⟨positive, below⟩ := bounded a base
  exact Nat.not_dvd_of_pos_of_lt positive (by omega)

/-- No base and no trial division rejects a prime. -/
theorem primal_check_accepts_primes {p : Nat} (prime : p.Prime)
    (large : 37 < p) :
    primalCheck p = some true ∧
      (∀ a ∈ bases, millerRabin p a = some true) ∧
      ∃ d s, removeTwos p (p - 1) 0 = (d, s) ∧ d % 2 = 1 ∧
        p - 1 = d * 2 ^ s := by
  have passes := passes_of_prime prime large
  have odd : p % 2 = 1 := by
    rcases prime.eq_two_or_odd with two | odd
    · omega
    · exact odd
  refine ⟨?_, ?_, ?_⟩
  · obtain ⟨passed, checked, iff⟩ := primalCheck_spec large
    rw [checked, iff.mpr passes]
  · intro a base
    obtain ⟨passed, tested, iff⟩ := millerRabin_spec (by omega) odd a
    rw [tested, iff.mpr (passes a base)]
  · obtain ⟨d, s, removed, oddPart⟩ :=
      removeTwos_spec (show p - 1 ≠ 0 by omega) p 0 (Nat.sub_le p 1)
    rw [Nat.zero_add] at removed
    exact ⟨d, s, removed, oddPart.odd, oddPart.split⟩

theorem primal_check_accepts_forty_one :
    primalCheck 41 = some true ∧
      (∀ a ∈ bases, millerRabin 41 a = some true) ∧
      ∃ d s, removeTwos 41 40 0 = (d, s) ∧ d % 2 = 1 ∧ 40 = d * 2 ^ s :=
  primal_check_accepts_primes (by decide) (by decide)

end NyxNet.Mix.Accumulator
