import Mathlib.Data.Set.Function
import NyxNet.Mix.Accumulator

/-!
# cMix batch verification

`verify_batch` of `nyx-mix/src/cmix.rs`.  It checks the digest, the VDF proof
for the iteration count the batch itself declares, and the accumulator
membership; the iteration count the caller requires is not looked at.
-/

namespace NyxNet.Mix

structure CmixBatch where
  packets : List Bytes
  digest : Vector UInt8 32
  vdfY : Bytes
  vdfPi : Bytes
  vdfIters : UInt64
  accValue : Bytes
  witness : Bytes
  deriving DecidableEq, Repr

namespace CmixBatch

def verifyBatch (sha256 : Bytes → Vector UInt8 32) (batch : CmixBatch)
    (params : AccumulatorParams) (_expectedIters : Option UInt64) :
    Option Bool := do
  if sha256 batch.packets.flatten ≠ batch.digest then return false
  let x := Bytes.ofBeBytes batch.digest.toList
  let y := Bytes.ofBeBytes batch.vdfY
  let pi := Bytes.ofBeBytes batch.vdfPi
  if !(← Vdf.verify x y pi params.n batch.vdfIters) then return false
  let elem ← Accumulator.hashToPrime sha256 batch.digest.toList
  let witness := Bytes.ofBeBytes batch.witness
  let accVal := Bytes.ofBeBytes batch.accValue
  Accumulator.verifyMembership params.n elem witness accVal

section Verification

variable (sha256 : Bytes → Vector UInt8 32) (batch : CmixBatch)
  (params : AccumulatorParams)

/-- The VDF equation for the iteration count the batch declares. -/
def Delayed : Prop :=
  Vdf.Equation (Bytes.ofBeBytes batch.digest.toList)
    (Bytes.ofBeBytes batch.vdfY) (Bytes.ofBeBytes batch.vdfPi) params.n
    batch.vdfIters

/-- The accumulator equation for the element of the digest. -/
def Accumulated : Prop :=
  ∃ elem, Accumulator.hashToPrime sha256 batch.digest.toList = some elem ∧
    Bytes.ofBeBytes batch.witness ^ elem % params.n =
      Bytes.ofBeBytes batch.accValue

/-- The digest, VDF and accumulator equations. -/
structure Equations : Prop where
  modulus : params.n ≠ 0
  digest : sha256 batch.packets.flatten = batch.digest
  delayed : batch.Delayed params
  accumulated : batch.Accumulated sha256 params

variable {sha256 batch params} (expectedIters : Option UInt64)

theorem verifyBatch_of_digest_ne
    (different : sha256 batch.packets.flatten ≠ batch.digest) :
    batch.verifyBatch sha256 params expectedIters = some false := by
  simp [verifyBatch, different]

theorem verifyBatch_of_modulus_zero
    (digest : sha256 batch.packets.flatten = batch.digest)
    (zero : params.n = 0) :
    batch.verifyBatch sha256 params expectedIters = none := by
  simp [verifyBatch, digest, Vdf.verify, modpow, zero]

theorem verifyBatch_of_not_delayed
    (digest : sha256 batch.packets.flatten = batch.digest)
    (modulus : params.n ≠ 0) (early : ¬ batch.Delayed params) :
    batch.verifyBatch sha256 params expectedIters = some false := by
  simp [verifyBatch, digest, Vdf.verify_of_not_equation modulus early]

theorem verifyBatch_of_delayed
    (digest : sha256 batch.packets.flatten = batch.digest)
    (modulus : params.n ≠ 0) (delayed : batch.Delayed params) :
    batch.verifyBatch sha256 params expectedIters =
      (Accumulator.hashToPrime sha256 batch.digest.toList).bind
        (fun elem => some
          (Bytes.ofBeBytes batch.witness ^ elem % params.n ==
            Bytes.ofBeBytes batch.accValue)) := by
  simp [verifyBatch, digest, Vdf.verify_of_equation modulus delayed,
    Accumulator.verifyMembership_of_positive modulus]

/-- Acceptance is exactly the three equations, whatever the caller requires. -/
theorem verifyBatch_eq_true_iff :
    batch.verifyBatch sha256 params expectedIters = some true ↔
      batch.Equations sha256 params := by
  by_cases digest : sha256 batch.packets.flatten = batch.digest
  · by_cases modulus : params.n = 0
    · rw [verifyBatch_of_modulus_zero expectedIters digest modulus]
      constructor
      · intro accepted
        cases accepted
      · intro equations
        exact (equations.modulus modulus).elim
    · by_cases delayed : batch.Delayed params
      · rw [verifyBatch_of_delayed expectedIters digest modulus delayed]
        constructor
        · intro accepted
          obtain ⟨elem, found, member⟩ := Option.bind_eq_some_iff.mp accepted
          refine ⟨modulus, digest, delayed, elem, found, ?_⟩
          simpa using member
        · intro facts
          obtain ⟨-, -, -, elem, found, member⟩ := facts
          simp [found, member]
      · rw [verifyBatch_of_not_delayed expectedIters digest modulus delayed]
        constructor
        · intro accepted
          cases accepted
        · intro equations
          exact (delayed equations.delayed).elim
  · rw [verifyBatch_of_digest_ne expectedIters digest]
    constructor
    · intro accepted
      cases accepted
    · intro equations
      exact (digest equations.digest).elim

end Verification

/-- Every accepted batch was delayed for the required number of squarings. -/
def DelayEnforced (sha256 : Bytes → Vector UInt8 32)
    (params : AccumulatorParams) (required : UInt64) : Prop :=
  ∀ batch : CmixBatch,
    batch.verifyBatch sha256 params (some required) = some true →
      batch.vdfIters = required ∧ batch.Equations sha256 params

/-- A batch of one packet that declares `iters` squarings and carries proofs
computed without any of them: `π = 1` and `y = x^r`. -/
def undelayed (sha256 : Bytes → Vector UInt8 32) (params : AccumulatorParams)
    (packet : Bytes) (elem : Nat) (iters : UInt64) : CmixBatch :=
  let digest := sha256 packet
  let x := Bytes.ofBeBytes digest.toList
  { packets := [packet]
    digest
    vdfY := Bytes.toBytesBe
      (x ^ (2 ^ iters.toNat % Vdf.lPrime) % params.n)
    vdfPi := Bytes.toBytesBe 1
    vdfIters := iters
    accValue := Bytes.toBytesBe (2 ^ elem % params.n)
    witness := Bytes.toBytesBe 2 }

theorem undelayed_equations {sha256 : Bytes → Vector UInt8 32}
    {params : AccumulatorParams} (modulus : params.n ≠ 0) {packet : Bytes}
    {elem : Nat}
    (found : Accumulator.hashToPrime sha256 (sha256 packet).toList = some elem)
    (iters : UInt64) :
    (undelayed sha256 params packet elem iters).Equations sha256 params := by
  refine ⟨modulus, ?_, ?_, elem, found, ?_⟩
  · exact congrArg sha256 (List.append_nil packet)
  · simp only [Delayed, undelayed, Vdf.Equation, Bytes.ofBeBytes_toBytesBe,
      Nat.one_pow, Nat.one_mul]
  · simp only [undelayed, Bytes.ofBeBytes_toBytesBe]

/-- Where any packet can be accepted at all, one is accepted with another
count than the required one. -/
theorem cmix_delay_enforced_iff (sha256 : Bytes → Vector UInt8 32)
    (params : AccumulatorParams) (required : UInt64) :
    DelayEnforced sha256 params required ↔
      params.n = 0 ∨
        ∀ packet, Accumulator.hashToPrime sha256 (sha256 packet).toList =
          none := by
  constructor
  · intro enforced
    by_cases modulus : params.n = 0
    · exact Or.inl modulus
    · refine Or.inr fun packet => Option.eq_none_iff_forall_ne_some.mpr ?_
      intro elem found
      have equations := undelayed_equations modulus found (required + 1)
      have declared : required + 1 = required :=
        (enforced _ ((verifyBatch_eq_true_iff _).mpr equations)).1
      have shifted := congrArg UInt64.toNat declared
      rw [UInt64.toNat_add] at shifted
      have bound := required.toNat_lt
      simp only [UInt64.toNat_one] at shifted
      omega
  · intro unaccepted batch accepted
    have equations := (verifyBatch_eq_true_iff _).mp accepted
    rcases unaccepted with zero | unhashed
    · exact (equations.modulus zero).elim
    · obtain ⟨elem, found, -⟩ := equations.accumulated
      rw [← equations.digest, unhashed] at found
      cases found

/-- SHA-256 at the two inputs of the sample: its packet, and the packet's
digest with counter 0. -/
def sampleSha256 (data : Bytes) : Vector UInt8 32 :=
  let digest : Vector UInt8 32 := Bytes.beBytes 32
    0x75f8e0fe5d8f56d466a452cf43a316f11b85eccca065342d65543eef6f8e49cd
  if data = [0, 59] then digest
  else if data = digest.toList ++ [0, 0, 0, 0] then
    Bytes.beBytes 32
      0xc700bb67865c3d8cc4806c52abd80f32307672a6c91428c9af2dda8c942d4f67
  else Bytes.beBytes 32 0

/-- The modulus 1009 · 1013 and generator 2. -/
def sampleParams : AccumulatorParams := { n := 1022117, g := 2 }

/-- A batch without any delay: zero squarings of the digest. -/
def sampleBatch : CmixBatch :=
  { packets := [[0, 59]]
    digest := sampleSha256 [0, 59]
    vdfY := [0x02, 0x52, 0xdf]
    vdfPi := [1]
    vdfIters := 0
    accValue := [0x07, 0x3c, 0x64]
    witness := [2] }

theorem cmix_accepts_undelayed_batch :
    sampleBatch.verifyBatch sampleSha256 sampleParams (some 1000000) =
        some true ∧
      ¬ DelayEnforced sampleSha256 sampleParams 1000000 := by
  have accepted : sampleBatch.verifyBatch sampleSha256 sampleParams
      (some 1000000) = some true := by
    decide +kernel
  refine ⟨accepted, ?_⟩
  intro enforced
  have declared := (enforced sampleBatch accepted).1
  revert declared
  decide

/-- The packets are looked at only through their concatenation. -/
theorem verifyBatch_of_flatten_eq (sha256 : Bytes → Vector UInt8 32)
    {batch : CmixBatch} {packets : List Bytes} (params : AccumulatorParams)
    (expectedIters : Option UInt64)
    (same : packets.flatten = batch.packets.flatten) :
    { batch with packets }.verifyBatch sha256 params expectedIters =
      batch.verifyBatch sha256 params expectedIters := by
  simp only [verifyBatch, same]

/-- Two accepted batches of one digest carry the same bytes, as long as
SHA-256 does not collide on what was hashed.  The packet boundaries are bound
exactly when the packet lengths agree. -/
theorem cmix_digest_binds_concatenation (sha256 : Bytes → Vector UInt8 32)
    (hashed : Set Bytes) (injective : Set.InjOn sha256 hashed)
    (first second : CmixBatch) (params params' : AccumulatorParams)
    (expectedIters expectedIters' : Option UInt64)
    (firstHashed : first.packets.flatten ∈ hashed)
    (secondHashed : second.packets.flatten ∈ hashed)
    (firstAccepted :
      first.verifyBatch sha256 params expectedIters = some true)
    (secondAccepted :
      second.verifyBatch sha256 params' expectedIters' = some true)
    (sameDigest : first.digest = second.digest) :
    first.packets.flatten = second.packets.flatten ∧
      (first.packets = second.packets ↔
        first.packets.map List.length = second.packets.map List.length) := by
  have firstDigest :=
    ((verifyBatch_eq_true_iff expectedIters).mp firstAccepted).digest
  have secondDigest :=
    ((verifyBatch_eq_true_iff expectedIters').mp secondAccepted).digest
  have sameBytes : first.packets.flatten = second.packets.flatten := by
    apply injective firstHashed secondHashed
    rw [firstDigest, secondDigest, sameDigest]
  refine ⟨sameBytes, ?_⟩
  rw [List.eq_iff_flatten_eq]
  constructor
  · exact And.right
  · exact And.intro sameBytes

/-- The sample with its packet cut in two. -/
def resplitBatch : CmixBatch := { sampleBatch with packets := [[0], [59]] }

theorem sampleSha256_injOn :
    Set.InjOn sampleSha256
      {[0, 59], (sampleSha256 [0, 59]).toList ++ [0, 0, 0, 0]} := by
  have different : sampleSha256 [0, 59] ≠
      sampleSha256 ((sampleSha256 [0, 59]).toList ++ [0, 0, 0, 0]) := by
    decide +kernel
  intro left leftMember right rightMember same
  rcases leftMember with rfl | rfl
  · rcases rightMember with rfl | rfl
    · rfl
    · exact (different same).elim
  · rcases rightMember with rfl | rfl
    · exact (different same.symm).elim
    · rfl

theorem sampleBatch_accepted :
    sampleBatch.verifyBatch sampleSha256 sampleParams none = some true := by
  decide +kernel

theorem resplitBatch_accepted :
    resplitBatch.verifyBatch sampleSha256 sampleParams none = some true := by
  rw [resplitBatch, verifyBatch_of_flatten_eq]
  · exact sampleBatch_accepted
  · rfl

theorem cmix_digest_binds_sample_concatenation :
    sampleBatch.packets.flatten = resplitBatch.packets.flatten ∧
      (sampleBatch.packets = resplitBatch.packets ↔
        sampleBatch.packets.map List.length =
          resplitBatch.packets.map List.length) :=
  cmix_digest_binds_concatenation sampleSha256 _ sampleSha256_injOn
    sampleBatch resplitBatch sampleParams sampleParams none none
    (Or.inl rfl) (Or.inl rfl) sampleBatch_accepted resplitBatch_accepted rfl

/-- The two batches hash the same two inputs, on which SHA-256 is injective;
they share every proof and differ in their packets. -/
theorem cmix_accepts_resplit_batch :
    ¬ ∀ first second : CmixBatch,
      Set.InjOn sampleSha256
        {[0, 59], (sampleSha256 [0, 59]).toList ++ [0, 0, 0, 0]} →
      first.verifyBatch sampleSha256 sampleParams none = some true →
      second.verifyBatch sampleSha256 sampleParams none = some true →
      first.digest = second.digest → first.packets = second.packets := by
  intro binding
  have equal := binding sampleBatch resplitBatch sampleSha256_injOn
    sampleBatch_accepted resplitBatch_accepted rfl
  revert equal
  decide

end CmixBatch

end NyxNet.Mix
