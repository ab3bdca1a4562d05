import Mathlib.Algebra.BigOperators.Group.List.Basic
import NyxNet.Lib.Bytes
import NyxNet.Mix.Vdf

/-!
# RSA accumulator

`nyx-mix/src/accumulator.rs` without the key ceremony: hashing to a prime,
checking a membership witness, and the accumulator itself.  SHA-256 is a
parameter.  The counter of the search wraps after 2^32 candidates and then
repeats, so a search that exhausts them never returns; `none` stands for that.
-/

namespace NyxNet.Mix

structure AccumulatorParams where
  n : Nat
  g : Nat
  deriving DecidableEq, Repr

namespace Accumulator

/-- Halves `d` while it is even and counts the halvings. -/
def removeTwos : Nat → Nat → Nat → Nat × Nat
  | 0, d, s => (d, s)
  | fuel + 1, d, s =>
      if d % 2 = 0 then removeTwos fuel (d / 2) (s + 1) else (d, s)

/-- The squarings of `miller_rabin`. -/
def squareLoop (n : Nat) : Nat → Nat → Option Bool
  | 0, _ => some false
  | rounds + 1, x => do
      let x ← modpow x 2 n
      if x = n - 1 then return true
      squareLoop n rounds x

def millerRabin (n a : Nat) : Option Bool := do
  let (d, s) := removeTwos n (n - 1) 0
  let x ← modpow a d n
  if x = 1 ∨ x = n - 1 then return true
  squareLoop n (s - 1) x

def small : List Nat := [3, 5, 7, 11, 13, 17, 19, 23]

def bases : List Nat := [2, 3, 5, 7, 11, 13, 17, 19, 23, 29, 31, 37]

/-- The loop over the bases: the first failure decides. -/
def passesBases (n : Nat) : List Nat → Option Bool
  | [] => some true
  | a :: rest => do
      if ← millerRabin n a then passesBases n rest else return false

def primalCheck (n : Nat) : Option Bool :=
  if n = 2 then some true
  else if n = 0 ∨ n = 1 ∨ n % 2 = 0 then some false
  else
    match small.find? (fun p => n % p = 0) with
    | some p => some (n == p)
    | none => passesBases n bases

variable (sha256 : Bytes → Vector UInt8 32)

/-- The digest as a little-endian number with its top and bottom bit set. -/
def candidate (data : Bytes) (counter : Nat) : Nat :=
  let digest := sha256 (data ++ (Bytes.leBytes 4 counter).toList)
  Bytes.ofLeBytes digest.toList ||| 2 ^ 255 ||| 1

def hashToPrimeFrom (data : Bytes) : Nat → Nat → Option Nat
  | 0, _ => none
  | fuel + 1, counter => do
      if ← primalCheck (candidate sha256 data counter) then
        return candidate sha256 data counter
      hashToPrimeFrom data fuel (counter + 1)

def hashToPrime (data : Bytes) : Option Nat :=
  hashToPrimeFrom sha256 data (2 ^ 32) 0

def verifyMembership (n element witness accValue : Nat) : Option Bool := do
  return (← modpow witness element n) == accValue

theorem verifyMembership_of_positive {n : Nat} (positive : n ≠ 0)
    (element witness accValue : Nat) :
    verifyMembership n element witness accValue =
      some (witness ^ element % n == accValue) := by
  simp [verifyMembership, modpow_eq_some _ _ positive]

end Accumulator

structure RsaAccumulator where
  params : AccumulatorParams
  value : Nat
  deriving DecidableEq, Repr

namespace RsaAccumulator

/-- A new empty accumulator with `A = g`, which is not reduced. -/
def new (params : AccumulatorParams) : RsaAccumulator :=
  { params, value := params.g }

/-- Returns the value before the addition as the witness. -/
def add (acc : RsaAccumulator) (x : Nat) : Option (Nat × RsaAccumulator) := do
  let value ← modpow acc.value x acc.params.n
  return (acc.value, { acc with value })

def verify (acc : RsaAccumulator) (x witness : Nat) : Option Bool := do
  return (← modpow witness x acc.params.n) == acc.value

/-- Successive additions with the witness each of them returned. -/
def addAll : RsaAccumulator → List Nat → Option (List Nat × RsaAccumulator)
  | acc, [] => some ([], acc)
  | acc, x :: xs => do
      let (witness, acc) ← acc.add x
      let (witnesses, acc) ← acc.addAll xs
      return (witness :: witnesses, acc)

/-- What a list of additions leaves behind: one power of the starting value,
and for every element a witness that the later elements bring up to date. -/
structure Accumulates (start : RsaAccumulator) (xs witnesses : List Nat)
    (acc : RsaAccumulator) : Prop where
  params : acc.params = start.params
  length : witnesses.length = xs.length
  value : acc.value % start.params.n = start.value ^ xs.prod % start.params.n
  reduced : xs ≠ [] ∨ start.value < start.params.n →
    acc.value < start.params.n
  member : ∀ (k x witness : Nat), xs[k]? = some x →
    witnesses[k]? = some witness →
      (witness ^ (xs.drop (k + 1)).prod) ^ x % start.params.n =
        acc.value % start.params.n

theorem Accumulates.nil (start : RsaAccumulator) :
    Accumulates start [] [] start := by
  refine ⟨rfl, rfl, ?_, ?_, ?_⟩
  · rw [List.prod_nil, Nat.pow_one]
  · intro alternatives
    rcases alternatives with nonempty | small
    · exact (nonempty rfl).elim
    · exact small
  · intro k x witness absent
    simp at absent

theorem Accumulates.cons {start middle acc : RsaAccumulator} {x : Nat}
    {xs witnesses : List Nat} (positive : start.params.n ≠ 0)
    (sameParams : middle.params = start.params)
    (power : middle.value = start.value ^ x % start.params.n)
    (rest : Accumulates middle xs witnesses acc) :
    Accumulates start (x :: xs) (start.value :: witnesses) acc := by
  obtain ⟨params, length, value, reduced, member⟩ := rest
  rw [sameParams] at params value reduced member
  have folded : acc.value % start.params.n =
      start.value ^ (x * xs.prod) % start.params.n := by
    rw [value, power, ← Nat.pow_mod, ← Nat.pow_mul]
  have small : middle.value < start.params.n := by
    rw [power]
    exact Nat.mod_lt _ (Nat.pos_of_ne_zero positive)
  refine ⟨params, ?_, ?_, fun _ => reduced (Or.inr small), ?_⟩
  · rw [List.length_cons, List.length_cons, length]
  · rw [folded, List.prod_cons]
  · intro k y witness
    cases k with
    | zero =>
        intro element returned
        cases element
        cases returned
        rw [folded, List.drop_one, List.tail_cons, ← Nat.pow_mul, Nat.mul_comm]
    | succ k =>
        intro element returned
        exact member k y witness element returned

theorem add_eq_some {acc : RsaAccumulator} (positive : acc.params.n ≠ 0)
    (x : Nat) :
    acc.add x = some (acc.value,
      { acc with value := acc.value ^ x % acc.params.n }) := by
  rw [add, modpow_eq_some _ _ positive]
  rfl

theorem addAll_accumulates (acc : RsaAccumulator)
    (positive : acc.params.n ≠ 0) (xs : List Nat) :
    ∃ witnesses final, acc.addAll xs = some (witnesses, final) ∧
      Accumulates acc xs witnesses final := by
  induction xs generalizing acc with
  | nil => exact ⟨[], acc, rfl, Accumulates.nil acc⟩
  | cons x xs ih =>
      obtain ⟨witnesses, final, additions, rest⟩ :=
        ih { acc with value := acc.value ^ x % acc.params.n } positive
      refine ⟨acc.value :: witnesses, final, ?_, ?_⟩
      · rw [addAll, add_eq_some positive]
        simp only [Option.bind_eq_bind, Option.bind_some]
        rw [additions]
        rfl
      · exact Accumulates.cons positive (by rfl) (by rfl) rest

/-- From a new accumulator the value is one power of the generator. -/
theorem addAll_new {params : AccumulatorParams} (positive : params.n ≠ 0)
    {xs : List Nat} (nonempty : xs ≠ []) :
    ∃ witnesses acc, (new params).addAll xs = some (witnesses, acc) ∧
      Accumulates (new params) xs witnesses acc ∧
      acc.value = params.g ^ xs.prod % params.n := by
  obtain ⟨witnesses, acc, additions, accumulates⟩ :=
    addAll_accumulates (new params) positive xs
  refine ⟨witnesses, acc, additions, accumulates, ?_⟩
  have small : acc.value < params.n := accumulates.reduced (Or.inl nonempty)
  rw [← Nat.mod_eq_of_lt small]
  exact accumulates.value

theorem verify_eq_some {acc : RsaAccumulator} (positive : acc.params.n ≠ 0)
    (x witness : Nat) :
    acc.verify x witness =
      some (witness ^ x % acc.params.n == acc.value) := by
  simp [verify, modpow_eq_some _ _ positive]

/-- Both checks accept `witness` for `x`. -/
def Accepted (acc : RsaAccumulator) (x witness : Nat) : Prop :=
  acc.verify x witness = some true ∧
    Accumulator.verifyMembership acc.params.n x witness acc.value = some true

theorem accepted_of_power {acc : RsaAccumulator}
    (positive : acc.params.n ≠ 0) {x witness : Nat}
    (power : witness ^ x % acc.params.n = acc.value) :
    acc.Accepted x witness := by
  constructor
  · rw [verify_eq_some positive, power, beq_self_eq_true]
  · rw [Accumulator.verifyMembership_of_positive positive, power,
      beq_self_eq_true]

/-- The witness of an element, brought up to date with the elements added
after it, is accepted, whether or not it is reduced modulo `n`. -/
theorem Accumulates.accepted {start acc : RsaAccumulator}
    {xs witnesses : List Nat} (accumulates : Accumulates start xs witnesses acc)
    (positive : start.params.n ≠ 0) {k x witness updated : Nat}
    (element : xs[k]? = some x) (returned : witnesses[k]? = some witness)
    (congruent : updated % start.params.n =
      witness ^ (xs.drop (k + 1)).prod % start.params.n) :
    acc.Accepted x updated := by
  have nonempty : xs ≠ [] := by
    intro equality
    subst equality
    simp at element
  have small := accumulates.reduced (Or.inl nonempty)
  apply accepted_of_power
  · rw [accumulates.params]
    exact positive
  · rw [accumulates.params, Nat.pow_mod, congruent, ← Nat.pow_mod,
      accumulates.member k x witness element returned,
      Nat.mod_eq_of_lt small]

/-- The accumulator value depends on the elements and not on their order, and
every witness stays usable. -/
theorem rsa_accumulator_correct (params : AccumulatorParams) (xs : List Nat)
    (modulus : 2 ≤ params.n) (nonempty : xs ≠ []) :
    ∃ witnesses acc, (new params).addAll xs = some (witnesses, acc) ∧
      witnesses.length = xs.length ∧
      acc.value = params.g ^ xs.prod % params.n ∧
      (∀ ys, ys.Perm xs → ∃ others acc',
        (new params).addAll ys = some (others, acc') ∧
          acc'.value = acc.value) ∧
      (∀ k x witness updated, xs[k]? = some x →
        witnesses[k]? = some witness →
        updated % params.n =
          witness ^ (xs.drop (k + 1)).prod % params.n →
        acc.verify x updated = some true ∧
          Accumulator.verifyMembership params.n x updated acc.value =
            some true) ∧
      ∀ x witness, xs.getLast? = some x → witnesses.getLast? = some witness →
        acc.verify x witness = some true ∧
          Accumulator.verifyMembership params.n x witness acc.value =
            some true := by
  have positive : params.n ≠ 0 := by omega
  obtain ⟨witnesses, acc, additions, accumulates, value⟩ :=
    addAll_new positive nonempty
  have member : ∀ k x witness updated, xs[k]? = some x →
      witnesses[k]? = some witness →
      updated % params.n = witness ^ (xs.drop (k + 1)).prod % params.n →
      acc.verify x updated = some true ∧
        Accumulator.verifyMembership params.n x updated acc.value =
          some true := by
    intro k x witness updated element returned congruent
    have accepted :=
      accumulates.accepted positive element returned congruent
    rw [Accepted, accumulates.params] at accepted
    exact accepted
  refine ⟨witnesses, acc, additions, accumulates.length, value, ?_,
    member, ?_⟩
  · intro ys permutation
    have otherNonempty : ys ≠ [] := by
      intro equality
      subst equality
      exact nonempty permutation.nil_eq.symm
    obtain ⟨others, acc', otherAdditions, -, otherValue⟩ :=
      addAll_new positive otherNonempty
    refine ⟨others, acc', otherAdditions, ?_⟩
    rw [otherValue, value, permutation.prod_eq]
  · intro x witness element returned
    rw [List.getLast?_eq_getElem?] at element returned
    rw [accumulates.length] at returned
    have none_after : xs.drop (xs.length - 1 + 1) = [] := by
      apply List.drop_eq_nil_of_le
      omega
    apply member (xs.length - 1) x witness witness element returned
    rw [none_after, List.prod_nil, Nat.pow_one]

/-- Two additions of which the first witness is brought up to date. -/
theorem rsa_accumulator_correct_at_two :
    ∃ witnesses acc,
      (new { n := 1022117, g := 2 }).addAll [3, 5] = some (witnesses, acc) ∧
        acc.value = 2 ^ [3, 5].prod % 1022117 ∧
        ∀ first, witnesses[0]? = some first →
          acc.verify 3 (first ^ [5].prod) = some true := by
  obtain ⟨witnesses, acc, additions, -, value, -, member, -⟩ :=
    rsa_accumulator_correct { n := 1022117, g := 2 } [3, 5] (by decide)
      (by decide)
  refine ⟨witnesses, acc, additions, value, ?_⟩
  intro first returned
  exact (member 0 3 first (first ^ [5].prod) rfl returned rfl).1

end RsaAccumulator

end NyxNet.Mix
