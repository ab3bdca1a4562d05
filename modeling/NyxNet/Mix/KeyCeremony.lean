import Mathlib.Data.Nat.Size
import NyxNet.Mix.PrimalCheck

/-!
# Key ceremony

`generate_prime` and the key ceremonies of `nyx-mix/src/accumulator.rs`.  The
random generator is a stream of bytes.  Rejection sampling need not end, so
the number of attempts is given and `none` stands for running out of them, as
well as for the panics of the source.
-/

namespace NyxNet.Mix

/-- What a random generator is going to return. -/
abbrev ByteStream : Type := Nat → UInt8

/-- `fill_bytes` -/
def fillBytes (rng : ByteStream) (length : Nat) : Bytes × ByteStream :=
  ((List.range length).map rng, fun index => rng (length + index))

/-- The candidate that `generate_prime` makes of random bytes. -/
def primeCandidate (bits : Nat) (bytes : Bytes) : Nat :=
  let bytes := bytes.modifyHead (· ||| 0x80) -- set MSB
  let bytes := bytes.modify (bytes.length - 1) (· ||| 1) -- set LSB (odd)
  Bytes.ofBeBytes bytes ||| 2 ^ (bits - 1) ||| 1

/-- Generate a random prime of `bits` length using rejection sampling. -/
def generatePrime (bits : Nat) :
    Nat → ByteStream → Option (Nat × ByteStream)
  | 0, _ => none
  | attempts + 1, rng =>
      -- There is no first byte to set in an empty buffer.
      if bits = 0 then none
      else do
        let (bytes, rng) := fillBytes rng ((bits + 7) / 8)
        let candidate := primeCandidate bits bytes
        if ← Accumulator.primalCheck candidate then return (candidate, rng)
        generatePrime bits attempts rng

theorem generatePrime_spec {bits attempts : Nat} {rng rest : ByteStream}
    {prime : Nat}
    (returned : generatePrime bits attempts rng = some (prime, rest)) :
    bits ≠ 0 ∧ Accumulator.primalCheck prime = some true ∧
      ∃ bytes : Bytes, bytes.length = (bits + 7) / 8 ∧
        prime = primeCandidate bits bytes := by
  induction attempts generalizing rng with
  | zero => cases returned
  | succ attempts ih =>
      rw [generatePrime] at returned
      by_cases empty : bits = 0
      · rw [if_pos empty] at returned
        cases returned
      · rw [if_neg empty] at returned
        simp only [fillBytes, Option.bind_eq_bind] at returned
        cases checked : Accumulator.primalCheck (primeCandidate bits
            ((List.range ((bits + 7) / 8)).map rng)) with
        | none =>
            rw [checked] at returned
            cases returned
        | some accepted =>
            rw [checked, Option.bind_some] at returned
            cases accepted with
            | false => exact ih returned
            | true =>
                cases returned
                refine ⟨empty, checked, _, ?_, rfl⟩
                rw [List.length_map, List.length_range]

/-- Setting bits below the highest one leaves the length of a number. -/
theorem size_or_of_lt {number bits : Nat} (below : bits < 2 ^ number.size) :
    (number ||| bits).size = number.size := by
  apply Nat.le_antisymm
  · exact Nat.size_le.mpr (Nat.or_lt_two_pow number.lt_size_self below)
  · exact Nat.size_le_size Nat.left_le_or

/-- With the highest bit of its first byte set, a number has all the bits of
its bytes. -/
theorem size_ofBeBytes {byte : UInt8} {rest : Bytes}
    (high : 128 ≤ byte.toNat) :
    (Bytes.ofBeBytes (byte :: rest)).size = 8 * (rest.length + 1) := by
  have width : 2 ^ (8 * rest.length) = 256 ^ rest.length := Nat.pow_mul 2 8 _
  apply Nat.le_antisymm
  · rw [Nat.size_le, Nat.pow_mul]
    exact Bytes.ofBeBytes_lt (byte :: rest)
  · have reaches : 2 ^ (8 * rest.length + 7) ≤
        Bytes.ofBeBytes (byte :: rest) := by
      rw [Bytes.ofBeBytes_cons, Nat.pow_add, width, Nat.mul_comm]
      exact Nat.le_add_right_of_le (Nat.mul_le_mul_right _ high)
    have longer := Nat.lt_size.mpr reaches
    omega

/-- What setting the two bits makes of a buffer of random bytes. -/
theorem exists_marked (byte : UInt8) (rest : Bytes) :
    ∃ (first : UInt8) (others : Bytes),
      ((byte :: rest).modifyHead (· ||| 0x80)).modify rest.length (· ||| 1) =
        first :: others ∧
      others.length = rest.length ∧ 128 ≤ first.toNat := by
  have high : 128 ≤ (byte ||| 0x80).toNat := by
    rw [UInt8.toNat_or]
    exact Nat.right_le_or
  cases rest with
  | nil =>
      refine ⟨byte ||| 0x80 ||| 1, [], rfl, rfl, ?_⟩
      rw [UInt8.toNat_or]
      exact Nat.le_trans high Nat.left_le_or
  | cons next rest =>
      exact ⟨byte ||| 0x80, (next :: rest).modify rest.length (· ||| 1), rfl,
        List.length_modify _ _ _, high⟩

/-- A candidate fills its last byte, whatever length was asked for. -/
theorem size_primeCandidate {bits : Nat} {bytes : Bytes} (nonzero : bits ≠ 0)
    (length : bytes.length = (bits + 7) / 8) :
    (primeCandidate bits bytes).size = 8 * ((bits + 7) / 8) ∧
      primeCandidate bits bytes % 2 = 1 := by
  cases bytes with
  | nil =>
      rw [List.length_nil] at length
      omega
  | cons byte rest =>
      obtain ⟨first, others, marked, sameLength, high⟩ :=
        exists_marked byte rest
      have size : (Bytes.ofBeBytes (first :: others)).size =
          8 * (others.length + 1) := size_ofBeBytes high
      rw [List.length_cons] at length
      rw [sameLength, length] at size
      simp only [primeCandidate, List.length_modifyHead, List.length_cons,
        Nat.add_sub_cancel, marked]
      have topBit : 2 ^ (bits - 1) <
          2 ^ (Bytes.ofBeBytes (first :: others)).size := by
        rw [size]
        exact Nat.pow_lt_pow_right Nat.one_lt_two (by omega)
      have withTop := size_or_of_lt topBit
      rw [size] at withTop
      have lowBit : 1 < 2 ^ (Bytes.ofBeBytes (first :: others) |||
          2 ^ (bits - 1)).size := by
        rw [withTop]
        exact Nat.one_lt_two_pow (by omega)
      refine ⟨(size_or_of_lt lowBit).trans withTop, ?_⟩
      rw [Nat.or_mod_two_eq_one]
      exact Or.inr rfl

/-- A returned number is odd and fills whole bytes. -/
theorem size_generatePrime {bits attempts : Nat} {rng rest : ByteStream}
    {prime : Nat}
    (returned : generatePrime bits attempts rng = some (prime, rest)) :
    prime.size = 8 * ((bits + 7) / 8) ∧ prime % 2 = 1 := by
  obtain ⟨nonzero, -, bytes, length, rfl⟩ := generatePrime_spec returned
  exact size_primeCandidate nonzero length

theorem large_of_generatePrime {bits attempts : Nat} {rng rest : ByteStream}
    {prime : Nat}
    (returned : generatePrime bits attempts rng = some (prime, rest)) :
    37 < prime := by
  have nonzero := (generatePrime_spec returned).1
  have size := (size_generatePrime returned).1
  have reaches : 2 ^ 7 ≤ prime := Nat.lt_size.mp (by omega)
  omega

namespace Accumulator

variable {sha256 : Bytes → Vector UInt8 32} {data : Bytes}

theorem hashToPrimeFrom_spec {fuel counter p : Nat}
    (returned : hashToPrimeFrom sha256 data fuel counter = some p) :
    primalCheck p = some true ∧ ∃ index, p = candidate sha256 data index := by
  induction fuel generalizing counter with
  | zero => cases returned
  | succ fuel ih =>
      rw [hashToPrimeFrom, Option.bind_eq_bind] at returned
      cases checked : primalCheck (candidate sha256 data counter) with
      | none =>
          rw [checked] at returned
          cases returned
      | some accepted =>
          rw [checked, Option.bind_some] at returned
          cases accepted with
          | false => exact ih returned
          | true =>
              cases returned
              exact ⟨checked, counter, rfl⟩

theorem large_of_hashToPrime {p : Nat}
    (returned : hashToPrime sha256 data = some p) : 37 < p := by
  obtain ⟨-, index, rfl⟩ := hashToPrimeFrom_spec returned
  have topBit : 2 ^ 255 ≤ candidate sha256 data index := by
    rw [candidate]
    exact Nat.le_trans Nat.right_le_or Nat.left_le_or
  exact Nat.lt_of_lt_of_le (by decide) topBit

/-- An accepted number is prime unless it deceives every base. -/
theorem prime_iff_of_accepted {n : Nat} (large : 37 < n)
    (accepted : primalCheck n = some true) :
    n.Prime ↔ ¬ StrongPseudoprime n bases := by
  constructor
  · intro prime deceptive
    exact deceptive.composite prime
  · intro honest
    by_contra composite
    obtain ⟨passed, checked, passes⟩ := primalCheck_spec large
    rw [checked, Option.some.injEq] at accepted
    exact honest ⟨composite, passes.mp accepted⟩

/-- An accepted number, hashed or generated or not, is a prime exactly if it
is not a strong pseudoprime to all of the bases. -/
theorem primality_check_sound_iff (n : Nat)
    (sha256 : Bytes → Vector UInt8 32) (data : Bytes) (bits attempts : Nat)
    (rng : ByteStream) :
    (37 < n →
      ((primalCheck n = some true → n.Prime) ↔
        ¬ StrongPseudoprime n bases)) ∧
      (∀ p : Nat, hashToPrime sha256 data = some p →
        (p.Prime ↔ ¬ StrongPseudoprime p bases)) ∧
      ∀ (p : Nat) (rest : ByteStream),
        generatePrime bits attempts rng = some (p, rest) →
          (p.Prime ↔ ¬ StrongPseudoprime p bases) := by
  refine ⟨?_, ?_, ?_⟩
  · intro large
    constructor
    · intro sound deceptive
      obtain ⟨passed, checked, passes⟩ := primalCheck_spec large
      rw [checked, passes.mpr deceptive.passes] at sound
      exact deceptive.composite (sound rfl)
    · intro honest accepted
      exact (prime_iff_of_accepted large accepted).mpr honest
  · intro p returned
    exact prime_iff_of_accepted (large_of_hashToPrime returned)
      (hashToPrimeFrom_spec returned).1
  · intro p rest returned
    exact prime_iff_of_accepted (large_of_generatePrime returned)
      (generatePrime_spec returned).2.1

/-- Three factors congruent to one modulo every odd base, and to three modulo
eight. -/
def deceptiveNumber : Nat :=
  2986775677424412778034131 * 122457802774400923899399331 *
    158299110903493877235808891

/-- A composite number of 256 bits passes, and a stream of random bytes makes
`generate_prime` return it. -/
theorem composite_accepted :
    37 < deceptiveNumber ∧ deceptiveNumber < 2 ^ 512 ∧
      primalCheck deceptiveNumber = some true ∧ ¬ deceptiveNumber.Prime ∧
      (generatePrime 256 1 fun index =>
        (Bytes.toBytesBe deceptiveNumber).getD index 0).map Prod.fst =
          some deceptiveNumber := by
  refine ⟨by decide +kernel, by decide +kernel, by decide +kernel, ?_,
    by decide +kernel⟩
  exact Nat.not_prime_mul (by decide) (by decide)

end Accumulator

namespace KeyCeremony

def gDefault : Nat := 2

section MultiParty

variable (sha256 : Bytes → Vector UInt8 32) (attempts : Nat)

/-- The loop over the participants. -/
def multiPartyLoop (partBits : Nat) :
    Nat → ByteStream → Nat → List (Vector UInt8 32) →
      Option (Nat × List (Vector UInt8 32))
  | 0, _, n, commits => some (n, commits)
  | parts + 1, rng, n, commits => do
      let (prime, rng) ← generatePrime partBits attempts rng
      multiPartyLoop partBits parts rng (n * prime)
        (commits ++ [sha256 (Bytes.toBytesBe prime)])

/-- Multi-party ceremony: the modulus is the product of the primes of all
participants, and each of them commits to its prime. -/
def multiParty (parts bits : Nat) (rng : ByteStream) :
    Option (AccumulatorParams × List (Vector UInt8 32)) :=
  if 2 ≤ parts ∧ 128 ≤ bits / parts then do
    let (n, commits) ← multiPartyLoop sha256 attempts (bits / parts) parts rng
      1 []
    return ({ n, g := gDefault }, commits)
  else none

/-- The primes that the participants draw one after the other. -/
def drawPrimes (partBits : Nat) : Nat → ByteStream → Option (List Nat)
  | 0, _ => some []
  | parts + 1, rng => do
      let (prime, rng) ← generatePrime partBits attempts rng
      let primes ← drawPrimes partBits parts rng
      return prime :: primes

variable {sha256 attempts}

theorem multiPartyLoop_eq (partBits parts : Nat) (rng : ByteStream) (n : Nat)
    (commits : List (Vector UInt8 32)) :
    multiPartyLoop sha256 attempts partBits parts rng n commits =
      (drawPrimes attempts partBits parts rng).map fun primes =>
        (n * primes.prod,
          commits ++ primes.map fun prime =>
            sha256 (Bytes.toBytesBe prime)) := by
  induction parts generalizing rng n commits with
  | zero =>
      rw [multiPartyLoop, drawPrimes, Option.map_some, List.prod_nil,
        Nat.mul_one, List.map_nil, List.append_nil]
  | succ parts ih =>
      rw [multiPartyLoop, drawPrimes]
      cases generatePrime partBits attempts rng with
      | none => rfl
      | some drawn =>
          simp only [Option.bind_eq_bind, Option.bind_some, ih]
          cases drawPrimes attempts partBits parts drawn.2 with
          | none => rfl
          | some primes => simp [Nat.mul_assoc]

/-- The modulus of a ceremony is the product of the primes drawn. -/
theorem multiParty_eq_some_iff {parts bits : Nat} {rng : ByteStream}
    {params : AccumulatorParams} {commits : List (Vector UInt8 32)} :
    multiParty sha256 attempts parts bits rng = some (params, commits) ↔
      (2 ≤ parts ∧ 128 ≤ bits / parts) ∧
        ∃ primes, drawPrimes attempts (bits / parts) parts rng = some primes ∧
          params = { n := primes.prod, g := gDefault } ∧
          commits = primes.map fun prime =>
            sha256 (Bytes.toBytesBe prime) := by
  rw [multiParty]
  by_cases admitted : 2 ≤ parts ∧ 128 ≤ bits / parts
  · rw [if_pos admitted, multiPartyLoop_eq, and_iff_right admitted]
    cases drawPrimes attempts (bits / parts) parts rng with
    | none => simp
    | some primes => simp [eq_comm]
  · rw [if_neg admitted]
    refine iff_of_false (Option.some_ne_none _).symm ?_
    intro facts
    exact admitted facts.1

theorem drawPrimes_spec {partBits parts : Nat} {rng : ByteStream}
    {primes : List Nat}
    (drawn : drawPrimes attempts partBits parts rng = some primes) :
    primes.length = parts ∧ ∀ prime ∈ primes,
      prime.size = 8 * ((partBits + 7) / 8) ∧ prime % 2 = 1 := by
  induction parts generalizing rng primes with
  | zero =>
      cases drawn
      exact ⟨rfl, fun _ absent => nomatch absent⟩
  | succ parts ih =>
      rw [drawPrimes, Option.bind_eq_bind, Option.bind_eq_some_iff] at drawn
      obtain ⟨first, returned, others⟩ := drawn
      simp only [Option.bind_eq_bind] at others
      rw [Option.bind_eq_some_iff] at others
      obtain ⟨remaining, drawnLater, built⟩ := others
      cases built
      obtain ⟨length, sizes⟩ := ih drawnLater
      refine ⟨congrArg Nat.succ length, ?_⟩
      exact List.forall_mem_cons.mpr ⟨size_generatePrime returned, sizes⟩

/-- The product of numbers of one length. -/
theorem size_prod {primes : List Nat} {length : Nat} (positive : length ≠ 0)
    (nonempty : primes ≠ [])
    (sizes : ∀ prime ∈ primes, prime.size = length) :
    (length - 1) * primes.length < primes.prod.size ∧
      primes.prod.size ≤ length * primes.length := by
  constructor
  · rw [Nat.lt_size, Nat.pow_mul]
    apply List.pow_card_le_prod
    intro prime member
    apply Nat.lt_size.mp
    rw [sizes prime member]
    exact Nat.sub_one_lt positive
  · rw [Nat.size_le, Nat.pow_mul]
    have below : primes.prod ≤ (2 ^ length - 1) ^ primes.length := by
      apply List.prod_le_pow_card
      intro prime member
      apply Nat.le_sub_one_of_lt
      exact Nat.size_le.mp (Nat.le_of_eq (sizes prime member))
    refine Nat.lt_of_le_of_lt below (Nat.pow_lt_pow_left ?_ ?_)
    · exact Nat.sub_one_lt (Nat.two_pow_pos _).ne'
    · exact mt List.length_eq_zero_iff.mp nonempty

/-- The modulus of the participants' primes, whose length is the one asked for
rounded up to whole bytes. -/
theorem size_modulus {parts bits : Nat} {rng : ByteStream} {primes : List Nat}
    (admitted : 2 ≤ parts ∧ 128 ≤ bits / parts)
    (drawn : drawPrimes attempts (bits / parts) parts rng = some primes) :
    (bits / parts % 8 = 0 → primes.prod.size ≤ bits) ∧
      (bits / parts % 8 ≠ 0 → bits / parts % 8 ≠ 7 ∨ bits % parts = 0 →
        bits < primes.prod.size) := by
  obtain ⟨length, sizes⟩ := drawPrimes_spec drawn
  have nonempty : primes ≠ [] := by
    rintro rfl
    rw [List.length_nil] at length
    omega
  obtain ⟨above, below⟩ := size_prod (by omega) nonempty
    (fun prime member => (sizes prime member).1)
  rw [length] at above below
  have split : bits / parts * parts + bits % parts = bits :=
    Nat.div_add_mod' bits parts
  have rest : bits % parts < parts := Nat.mod_lt _ (by omega)
  constructor
  · intro whole
    have same : 8 * ((bits / parts + 7) / 8) = bits / parts := by omega
    rw [same] at below
    omega
  · intro broken margin
    by_cases seven : bits / parts % 8 = 7
    · have same : 8 * ((bits / parts + 7) / 8) - 1 = bits / parts := by omega
      have exact := margin.resolve_left (not_not_intro seven)
      rw [same] at above
      omega
    · have longer : bits / parts + 1 ≤ 8 * ((bits / parts + 7) / 8) - 1 := by
        omega
      have more := Nat.mul_le_mul_right parts longer
      rw [Nat.add_mul, Nat.one_mul] at more
      omega

/-- A prime has the length asked for exactly when that is a whole number of
bytes, and so have the primes of a ceremony.  Otherwise the modulus is longer
than asked for, unless the primes are longer by one bit only and the bits that
the division dropped make room for them. -/
theorem generated_sizes_iff (sha256 : Bytes → Vector UInt8 32)
    (bits parts attempts : Nat) (rng : ByteStream) :
    (2 ≤ bits → ∀ (prime : Nat) (rest : ByteStream),
      generatePrime bits attempts rng = some (prime, rest) →
        (prime % 2 = 1 ∧ prime.size = bits ↔ bits % 8 = 0)) ∧
      ∀ (params : AccumulatorParams) (commits : List (Vector UInt8 32)),
        multiParty sha256 attempts parts bits rng = some (params, commits) →
          ∃ primes, drawPrimes attempts (bits / parts) parts rng =
              some primes ∧ params.n = primes.prod ∧
            ((∀ prime ∈ primes, prime % 2 = 1 ∧ prime.size = bits / parts) ∧
                params.n.size ≤ bits ↔ bits / parts % 8 = 0) ∧
            (bits / parts % 8 ≠ 0 →
              bits / parts % 8 ≠ 7 ∨ bits % parts = 0 →
                bits < params.n.size) := by
  constructor
  · intro _ prime rest returned
    obtain ⟨size, odd⟩ := size_generatePrime returned
    rw [and_iff_right odd, size]
    omega
  · intro params commits returned
    obtain ⟨admitted, primes, drawn, rfl, -⟩ :=
      multiParty_eq_some_iff.mp returned
    obtain ⟨length, sizes⟩ := drawPrimes_spec drawn
    obtain ⟨fits, exceeds⟩ := size_modulus admitted drawn
    refine ⟨primes, drawn, rfl, ?_, exceeds⟩
    constructor
    · intro asked
      obtain ⟨first, member⟩ : ∃ first, first ∈ primes := by
        apply List.exists_mem_of_length_pos
        omega
      have size := (asked.1 first member).2
      rw [(sizes first member).1] at size
      omega
    · intro whole
      refine ⟨?_, fits whole⟩
      intro prime member
      obtain ⟨size, odd⟩ := sizes prime member
      refine ⟨odd, ?_⟩
      rw [size]
      omega

/-- Twelve bits asked for and sixteen returned; a ceremony for 258 bits with a
modulus of 272. -/
theorem sizes_rounded_up :
    (∃ prime rest, generatePrime 12 1 (fun _ => 9) = some (prime, rest) ∧
        prime.size = 16) ∧
      ∃ params commits, multiParty (fun _ => Vector.replicate 32 0) 1 2 258
          (fun _ => 75) = some (params, commits) ∧
        params.n.size = 272 := by
  have drawn : (generatePrime 12 1 fun _ => 9).map
      (fun result => result.1.size) = some 16 := by
    decide +kernel
  have held : (multiParty (fun _ => Vector.replicate 32 0) 1 2 258
      fun _ => 75).map (fun result => result.1.n.size) = some 272 := by
    decide +kernel
  obtain ⟨⟨prime, rest⟩, returned, size⟩ := Option.map_eq_some_iff.mp drawn
  obtain ⟨⟨params, commits⟩, ceremony, sizeN⟩ :=
    Option.map_eq_some_iff.mp held
  exact ⟨⟨prime, rest, returned, size⟩, params, commits, ceremony, sizeN⟩

end MultiParty

end KeyCeremony

end NyxNet.Mix
