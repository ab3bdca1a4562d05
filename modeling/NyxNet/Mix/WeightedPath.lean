import Mathlib.Algebra.Order.Field.Rat
import NyxNet.Lib.WeightedDraw

/-!
# Weighted mix paths

`WeightedPathBuilder` of `nyx-mix/src/lib.rs`: hops are drawn without
replacement, preferring lower latency and higher bandwidth.  Metrics and
weights are exact rationals, and the random numbers are given, and so is what
the allocator grants.
-/

namespace NyxNet.Mix

abbrev NodeId : Type := Vector UInt8 32

/-- Candidate node with runtime metrics for weighted selection. -/
structure Candidate where
  id : NodeId
  /-- Smoothed RTT latency (milliseconds). -/
  latencyMs : Rat
  /-- Available upstream bandwidth (Mbps). -/
  bandwidthMbps : Rat
  deriving DecidableEq

/-- A random number of `gen`. -/
abbrev Draw : Type := { draw : Rat // 0 ≤ draw ∧ draw < 1 }

/-- WeightedPathBuilder selects nodes preferring lower latency & higher
bandwidth. -/
structure WeightedPathBuilder where
  candidates : List Candidate
  alpha : Rat

namespace WeightedPathBuilder

/-- 1 Gbps reference -/
def maxBw : Rat := 1000

def new (candidates : List Candidate) (alpha : Rat) : WeightedPathBuilder :=
  { candidates, alpha := max 0 (min alpha 1) }

def weight (builder : WeightedPathBuilder) (cand : Candidate) : Rat :=
  let latScore := 1 / max cand.latencyMs 1 * builder.alpha
  let bwScore := min (cand.bandwidthMbps / maxBw) 1 * (1 - builder.alpha)
  latScore + bwScore

/-- The indices of the candidates with their weights. -/
def pool (builder : WeightedPathBuilder) : List (Nat × Rat) :=
  builder.candidates.zipIdx.map fun entry =>
    (entry.2, builder.weight entry.1)

/-- The loop of `build_path`; `none` stands for the panics of `unwrap` and of
an index out of bounds. -/
def drawHops (builder : WeightedPathBuilder) :
    Nat → (Nat → Draw) → List (Nat × Rat) → List NodeId →
      Option (List NodeId)
  | 0, _, _, path => some path
  | hops + 1, rng, pool, path =>
      if pool.isEmpty then some path
      else do
        let pick := (rng 0).val * WeightedDraw.total pool
        let pos ← WeightedDraw.position pick pool
        let (idx, _) ← pool[pos]?
        let cand ← builder.candidates[idx]?
        drawHops builder hops (fun round => rng (round + 1))
          (WeightedDraw.swapRemove pool pos) (path ++ [cand.id])

/-- The most bytes that a `Vec` may take. -/
def isizeMax : Nat := 2 ^ 63 - 1

/-- `Vec::with_capacity` returns for elements of `bytes` bytes in all.  It
panics when they are too many for one `Vec` and the process is aborted when the
allocator does not grant them; without elements nothing is allocated. -/
def Reserves (allocates : Nat → Bool) (bytes : Nat) : Prop :=
  bytes ≤ isizeMax ∧ (bytes = 0 ∨ allocates bytes = true)

instance (allocates : Nat → Bool) (bytes : Nat) :
    Decidable (Reserves allocates bytes) :=
  inferInstanceAs (Decidable (_ ∧ _))

/-- Build a path with weighted random sampling **without replacement**.  Room
for the ids of all hops, of 32 bytes each, is reserved before the first
draw. -/
def buildPath (builder : WeightedPathBuilder) (allocates : Nat → Bool)
    (rng : Nat → Draw) (hops : UInt64) : Option (List NodeId) :=
  if Reserves allocates (hops.toNat * 32) then
    builder.drawHops hops.toNat rng builder.pool []
  else none

/-- A pool to draw from: different candidates whose weights are not
negative. -/
structure Drawable (builder : WeightedPathBuilder) (pool : List (Nat × Rat)) :
    Prop where
  distinct : (pool.map Prod.fst).Nodup
  listed : ∀ entry ∈ pool, entry.1 < builder.candidates.length
  nonneg : ∀ entry ∈ pool, 0 ≤ entry.2

variable {builder : WeightedPathBuilder}

/-- One draw takes an entry out of a pool and leaves a pool. -/
theorem Drawable.draw {pool : List (Nat × Rat)}
    (drawable : builder.Drawable pool) (nonempty : pool ≠ [])
    (draw : Draw) :
    ∃ pos idx weight rest cand,
      WeightedDraw.position (draw.val * WeightedDraw.total pool) pool =
          some pos ∧
        pool[pos]? = some (idx, weight) ∧
        builder.candidates[idx]? = some cand ∧
        WeightedDraw.swapRemove pool pos = rest ∧
        ((idx, weight) :: rest).Perm pool ∧ builder.Drawable rest := by
  obtain ⟨distinct, listed, nonneg⟩ := drawable
  obtain ⟨pos, found⟩ := WeightedDraw.exists_position nonempty
    (WeightedDraw.fraction_le_total draw.property.2.le nonneg)
  have within := WeightedDraw.position_lt found
  have present := List.getElem?_eq_getElem within
  have order := WeightedDraw.cons_swapRemove_perm present
  have drawn : pool[pos] ∈ pool := List.getElem_mem within
  have kept : ∀ entry ∈ WeightedDraw.swapRemove pool pos, entry ∈ pool :=
    fun entry member => order.subset (List.mem_cons_of_mem _ member)
  have others := (order.map Prod.fst).nodup_iff.mpr distinct
  rw [List.map_cons] at others
  exact ⟨pos, pool[pos].1, pool[pos].2, _, _, found, present,
    List.getElem?_eq_getElem (listed _ drawn), rfl, order,
    (List.nodup_cons.mp others).2,
    fun entry member => listed entry (kept entry member),
    fun entry member => nonneg entry (kept entry member)⟩

/-- What the loop appends to the path: the ids of different entries of the
pool, one for each hop as long as there are any. -/
theorem Drawable.drawHops {pool : List (Nat × Rat)}
    (drawable : builder.Drawable pool) (hops : Nat) (rng : Nat → Draw)
    (path : List NodeId) :
    ∃ (picked : List Nat) (ids : List NodeId),
      builder.drawHops hops rng pool path = some (path ++ ids) ∧
      ids.length = min hops pool.length ∧ picked.Nodup ∧
      (∀ idx ∈ picked, idx ∈ pool.map Prod.fst) ∧
      ids.map some = picked.map fun idx =>
        builder.candidates[idx]?.map Candidate.id := by
  induction hops generalizing pool rng path with
  | zero =>
      refine ⟨[], [], ?_, ?_, List.nodup_nil, ?_, rfl⟩
      · rw [WeightedPathBuilder.drawHops, List.append_nil]
      · rw [List.length_nil, Nat.zero_min]
      · intro idx absent
        cases absent
  | succ hops ih =>
      rw [WeightedPathBuilder.drawHops]
      by_cases nonempty : pool = []
      · subst nonempty
        refine ⟨[], [], ?_, ?_, List.nodup_nil, ?_, rfl⟩
        · rw [List.isEmpty_nil, if_pos rfl, List.append_nil]
        · rw [List.length_nil, List.length_nil, Nat.min_zero]
        · intro idx absent
          cases absent
      · obtain ⟨pos, idx, weight, rest, cand, found, present, known, removed,
          order, drawableRest⟩ := drawable.draw nonempty (rng 0)
        obtain ⟨picked, ids, later, length, distinct, fromRest, sameIds⟩ :=
          ih drawableRest (fun round => rng (round + 1)) (path ++ [cand.id])
        have indices := order.map Prod.fst
        rw [List.map_cons] at indices
        have fresh := (List.nodup_cons.mp
          (indices.nodup_iff.mpr drawable.distinct)).1
        refine ⟨idx :: picked, cand.id :: ids, ?_, ?_, ?_, ?_, ?_⟩
        · rw [if_neg (by simpa using nonempty)]
          simp only [found, present, known, removed, Option.bind_eq_bind,
            Option.bind_some]
          rw [later, List.append_assoc]
          rfl
        · rw [List.length_cons, length, ← order.length_eq, List.length_cons,
            Nat.succ_min_succ]
        · exact List.nodup_cons.mpr
            ⟨fun again => fresh (fromRest idx again), distinct⟩
        · intro chosen member
          apply indices.subset
          rcases List.mem_cons.mp member with rfl | others
          · exact List.mem_cons_self
          · exact List.mem_cons_of_mem _ (fromRest chosen others)
        · rw [List.map_cons, List.map_cons, known, sameIds]
          rfl

theorem map_fst_pool (builder : WeightedPathBuilder) :
    builder.pool.map Prod.fst = List.range builder.candidates.length := by
  rw [pool, List.map_map, List.range_eq_range']
  exact List.zipIdx_map_snd 0 builder.candidates

theorem drawable_pool
    (nonneg : ∀ cand ∈ builder.candidates, 0 ≤ builder.weight cand) :
    builder.Drawable builder.pool := by
  have indices := map_fst_pool builder
  refine ⟨?_, ?_, ?_⟩
  · rw [indices]
    exact List.nodup_range
  · intro entry member
    have listed : entry.1 ∈ builder.pool.map Prod.fst :=
      List.mem_map_of_mem member
    rw [indices, List.mem_range] at listed
    exact listed
  · intro entry member
    rw [pool, List.mem_map] at member
    obtain ⟨⟨cand, idx⟩, indexed, rfl⟩ := member
    exact nonneg cand (List.fst_mem_of_mem_zipIdx indexed)

/-- The loop never panics, and it appends as many different candidates as
there are hops or candidates. -/
theorem drawHops_pool (builder : WeightedPathBuilder)
    (nonneg : ∀ cand ∈ builder.candidates, 0 ≤ builder.weight cand)
    (hops : Nat) (rng : Nat → Draw) :
    ∃ (picked : List Nat) (path : List NodeId),
      builder.drawHops hops rng builder.pool [] = some path ∧
      path.length = min hops builder.candidates.length ∧ picked.Nodup ∧
      path.map some = picked.map fun idx =>
        builder.candidates[idx]?.map Candidate.id := by
  obtain ⟨picked, path, drawn, length, distinct, -, sameIds⟩ :=
    (drawable_pool nonneg).drawHops hops rng []
  rw [pool, List.length_map, List.length_zipIdx] at length
  exact ⟨picked, path, drawn, length, distinct, sameIds⟩

theorem buildPath_of_reserves (builder : WeightedPathBuilder)
    (nonneg : ∀ cand ∈ builder.candidates, 0 ≤ builder.weight cand)
    {allocates : Nat → Bool} {hops : UInt64}
    (reserves : Reserves allocates (hops.toNat * 32)) (rng : Nat → Draw) :
    ∃ (picked : List Nat) (path : List NodeId),
      builder.buildPath allocates rng hops = some path ∧
      path.length = min hops.toNat builder.candidates.length ∧
      picked.Nodup ∧
      path.map some = picked.map fun idx =>
        builder.candidates[idx]?.map Candidate.id := by
  obtain ⟨picked, path, drawn, listed⟩ :=
    builder.drawHops_pool nonneg hops.toNat rng
  refine ⟨picked, path, ?_, listed⟩
  rw [buildPath, if_pos reserves]
  exact drawn

/-- For every stream of random numbers a path of different candidates is
built, as long as there is room for the ids of all hops that are asked for. -/
theorem build_path_distinct_iff (candidates : List Candidate) (alpha : Rat)
    (allocates : Nat → Bool) (hops : UInt64) (rng : Nat → Draw)
    (nonneg : ∀ cand ∈ candidates, 0 ≤ (new candidates alpha).weight cand) :
    (∃ (picked : List Nat) (path : List NodeId),
      (new candidates alpha).buildPath allocates rng hops = some path ∧
      path.length = min hops.toNat candidates.length ∧ picked.Nodup ∧
      path.map some = picked.map fun idx =>
        candidates[idx]?.map Candidate.id) ↔
      hops.toNat * 32 ≤ isizeMax ∧
        (hops.toNat * 32 = 0 ∨ allocates (hops.toNat * 32) = true) := by
  constructor
  · rintro ⟨picked, path, built, -⟩
    rw [buildPath] at built
    split at built
    · assumption
    · cases built
  · intro reserves
    exact (new candidates alpha).buildPath_of_reserves nonneg reserves rng

def lowLatency : Candidate :=
  { id := Vector.replicate 32 1, latencyMs := 20, bandwidthMbps := 100 }

def highLatency : Candidate :=
  { id := Vector.replicate 32 2, latencyMs := 200, bandwidthMbps := 100 }

def lateDraw : Draw := ⟨9 / 10, by decide +kernel⟩

/-- An allocator with a gibibyte. -/
def sampleAllocates (bytes : Nat) : Bool := bytes ≤ 2 ^ 30

theorem build_path_distinct_two :
    ∃ (picked : List Nat) (path : List NodeId),
      (new [lowLatency, highLatency] (7 / 10)).buildPath sampleAllocates
        (fun _ => lateDraw) 3 = some path ∧
      path.length = 2 ∧ picked.Nodup ∧
      path.map some = picked.map fun idx =>
        [lowLatency, highLatency][idx]?.map Candidate.id :=
  (build_path_distinct_iff [lowLatency, highLatency] (7 / 10) sampleAllocates
    3 (fun _ => lateDraw) (by decide +kernel)).mpr (by decide)

/-- One candidate and 2^58 hops: the ids would take 2^63 bytes, which no
allocator is even asked for. -/
theorem capacity_overflow :
    (∀ cand ∈ [lowLatency], 0 ≤ (new [lowLatency] (7 / 10)).weight cand) ∧
      ∀ allocates rng, (new [lowLatency] (7 / 10)).buildPath allocates rng
        288230376151711744 = none := by
  refine ⟨by decide +kernel, fun allocates rng => ?_⟩
  have tooMany : ¬ Reserves allocates
      ((288230376151711744 : UInt64).toNat * 32) :=
    fun reserves => absurd reserves.1 (by decide)
  rw [buildPath, if_neg tooMany]

end WeightedPathBuilder

end NyxNet.Mix
