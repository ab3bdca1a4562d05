import Mathlib.Data.List.AList
import Mathlib.Tactic.Linarith
import NyxNet.Mix.WeightedPath

/-!
# LARMix++ path planner

`nyx-mix/src/larmix.rs`: smoothed measurements for each node, and paths built
from them by `WeightedPathBuilder`.
-/

namespace NyxNet.Mix

/-- Exponential moving-average smoothing factor for RTT and bandwidth. -/
def rttAlpha : Rat := 2 / 10

def bwAlpha : Rat := 2 / 10

structure NodeStats where
  rttMs : Rat
  bwMbps : Rat

namespace NodeStats

/-- The first sample is taken as it is. -/
def smooth (factor old sample : Rat) : Rat :=
  if old = 0 then sample else (1 - factor) * old + factor * sample

def updateRtt (stats : NodeStats) (sampleMs : Rat) : NodeStats :=
  { stats with rttMs := smooth rttAlpha stats.rttMs sampleMs }

def updateBw (stats : NodeStats) (sampleMbps : Rat) : NodeStats :=
  { stats with bwMbps := smooth bwAlpha stats.bwMbps sampleMbps }

/-- Values above the maximum bandwidth reference are clamped. -/
def candidate (stats : NodeStats) (id : NodeId) : Candidate :=
  { id
    latencyMs := max stats.rttMs 1
    bandwidthMbps := min stats.bwMbps WeightedPathBuilder.maxBw }

end NodeStats

/-- Runtime prober storing smoothed RTT & bandwidth per node. -/
structure Prober where
  stats : AList fun _ : NodeId => NodeStats

namespace Prober

def new : Prober := ⟨∅⟩

/-- `entry(node).or_insert(..)`, then an update. -/
def update (prober : Prober) (node : NodeId) (change : NodeStats → NodeStats) :
    Prober :=
  let stats := (prober.stats.lookup node).getD { rttMs := 0, bwMbps := 0 }
  ⟨prober.stats.insert node (change stats)⟩

/-- Record a new RTT sample (milliseconds) for `node`. -/
def recordRtt (prober : Prober) (node : NodeId) (rttMs : Rat) : Prober :=
  prober.update node (NodeStats.updateRtt · rttMs)

/-- Record a throughput sample (megabits per second) for `node`. -/
def recordThroughput (prober : Prober) (node : NodeId) (mbps : Rat) : Prober :=
  prober.update node (NodeStats.updateBw · mbps)

/-- A measurement of one node. -/
inductive Probe where
  | rtt (node : NodeId) (rttMs : Rat)
  | throughput (node : NodeId) (mbps : Rat)

def Probe.Sound : Probe → Prop
  | .rtt _ _ => True
  | .throughput _ mbps => 0 ≤ mbps

def record (prober : Prober) : Probe → Prober
  | .rtt node rttMs => prober.recordRtt node rttMs
  | .throughput node mbps => prober.recordThroughput node mbps

def run (probes : List Probe) : Prober := probes.foldl record new

/-- An order in which the hash map gives its entries. -/
structure Listing (prober : Prober) where
  entries : List (Sigma fun _ : NodeId => NodeStats)
  complete : entries.Perm prober.stats.entries

/-- Export stats as `Candidate` list for path building. -/
def candidates {prober : Prober} (listing : prober.Listing) : List Candidate :=
  listing.entries.map fun entry => entry.2.candidate entry.1

end Prober

/-- LARMix++ path planner utilizing `Prober` metrics and
`WeightedPathBuilder`. -/
structure LARMixPlanner where
  prober : Prober
  alpha : Rat

namespace LARMixPlanner

def new (prober : Prober) (alpha : Rat) : LARMixPlanner :=
  { prober, alpha := max 0 (min alpha 1) }

variable (planner : LARMixPlanner) (listing : planner.prober.Listing)
  (allocates : Nat → Bool) (rng : Nat → Draw)

/-- Build a mix path of length `hops` using weighted sampling. -/
def buildPath (hops : UInt64) : Option (List NodeId) :=
  let cands := Prober.candidates listing
  if cands.isEmpty then some []
  else
    (WeightedPathBuilder.new cands planner.alpha).buildPath allocates rng hops

/-- Mapping (median RTT → hops). -/
def hopsFor (median : Rat) : UInt64 :=
  if median ≤ 20 then 7
  else if median ≤ 50 then 6
  else if median ≤ 100 then 5
  else if median ≤ 150 then 4
  else 3

/-- Build a mix path with **adaptive hop count** (3–7) based on latency
statistics; `none` stands for an index out of bounds. -/
def buildPathDynamic : Option (List NodeId) :=
  let cands := Prober.candidates listing
  if cands.isEmpty then some []
  else do
    let rtts := (cands.map Candidate.latencyMs).mergeSort (· ≤ ·)
    let median ← rtts[rtts.length / 2]?
    (WeightedPathBuilder.new cands planner.alpha).buildPath allocates rng
      (hopsFor median)

end LARMixPlanner

theorem NodeStats.smooth_nonneg {factor old sample : Rat}
    (atLeast : 0 ≤ factor) (atMost : factor ≤ 1) (oldNonneg : 0 ≤ old)
    (sampleNonneg : 0 ≤ sample) : 0 ≤ smooth factor old sample := by
  rw [smooth]
  by_cases first : old = 0
  · rw [if_pos first]
    exact sampleNonneg
  · rw [if_neg first]
    exact add_nonneg (mul_nonneg (sub_nonneg.mpr atMost) oldNonneg)
      (mul_nonneg atLeast sampleNonneg)

namespace Prober

/-- No node has a negative bandwidth. -/
def Measured (prober : Prober) : Prop :=
  ∀ entry ∈ prober.stats.entries, 0 ≤ entry.2.bwMbps

variable {prober : Prober}

theorem Measured.update (measured : prober.Measured) (node : NodeId)
    {change : NodeStats → NodeStats}
    (keeps : ∀ stats, 0 ≤ stats.bwMbps → 0 ≤ (change stats).bwMbps) :
    (prober.update node change).Measured := by
  intro entry member
  rw [Prober.update, AList.entries_insert] at member
  rcases List.mem_cons.mp member with rfl | other
  · apply keeps
    cases found : prober.stats.lookup node with
    | none => exact le_refl 0
    | some stats => exact measured _ (AList.mem_lookup_iff.mp found)
  · exact measured entry ((List.kerase_sublist _ _).subset other)

theorem Measured.record (measured : prober.Measured) {probe : Probe}
    (sound : probe.Sound) : (prober.record probe).Measured := by
  cases probe with
  | rtt node rttMs => exact measured.update node fun stats nonneg => nonneg
  | throughput node mbps =>
      refine measured.update node fun stats nonneg => ?_
      exact NodeStats.smooth_nonneg (by norm_num [bwAlpha])
        (by norm_num [bwAlpha]) nonneg sound

theorem measured_run {probes : List Probe}
    (sound : ∀ probe ∈ probes, probe.Sound) : (run probes).Measured := by
  have start : new.Measured := fun entry absent =>
    absurd absent List.not_mem_nil
  rw [run]
  generalize new = prober at start
  induction probes generalizing prober with
  | nil => exact start
  | cons probe rest ih =>
      exact ih (fun later member => sound later (List.mem_cons_of_mem _ member))
        _ (start.record (sound probe List.mem_cons_self))

/-- The candidates are the nodes of the map, each once. -/
theorem map_id_candidates (listing : prober.Listing) :
    (candidates listing).map Candidate.id =
      listing.entries.map Sigma.fst := by
  rw [candidates, List.map_map]
  rfl

theorem nodup_ids (listing : prober.Listing) :
    ((candidates listing).map Candidate.id).Nodup := by
  rw [map_id_candidates]
  exact (listing.complete.map Sigma.fst).nodup_iff.mpr
    prober.stats.nodupKeys

theorem weight_nonneg (measured : prober.Measured) (listing : prober.Listing)
    (alpha : Rat) :
    ∀ cand ∈ candidates listing,
      0 ≤ (WeightedPathBuilder.new (candidates listing) alpha).weight cand := by
  intro cand member
  obtain ⟨entry, listed, rfl⟩ := List.mem_map.mp member
  have bandwidth := measured entry (listing.complete.subset listed)
  have alphaNonneg : 0 ≤ max 0 (min alpha 1) := le_max_left _ _
  have alphaLeOne : max 0 (min alpha 1) ≤ 1 :=
    max_le zero_le_one (min_le_right _ _)
  have latency : 0 ≤ 1 / max (max entry.2.rttMs 1) 1 :=
    one_div_nonneg.mpr (zero_le_one.trans (le_max_right _ _))
  have share : 0 ≤ min (min entry.2.bwMbps WeightedPathBuilder.maxBw /
      WeightedPathBuilder.maxBw) 1 := by
    refine le_min (div_nonneg (le_min bandwidth ?_) ?_) zero_le_one <;>
      norm_num [WeightedPathBuilder.maxBw]
  exact add_nonneg (mul_nonneg latency alphaNonneg)
    (mul_nonneg share (sub_nonneg.mpr alphaLeOne))

/-- A path over the candidates visits different nodes of the map. -/
theorem path_of_listing (measured : prober.Measured)
    (listing : prober.Listing) (alpha : Rat) {allocates : Nat → Bool}
    {hops : UInt64}
    (reserves : WeightedPathBuilder.Reserves allocates (hops.toNat * 32))
    (rng : Nat → Draw) :
    ∃ path, (WeightedPathBuilder.new (candidates listing) alpha).buildPath
        allocates rng hops = some path ∧
      path.length = min hops.toNat prober.stats.entries.length ∧
      path.Nodup ∧ ∀ node ∈ path, node ∈ prober.stats := by
  obtain ⟨picked, path, built, length, distinct, sameIds⟩ :=
    (WeightedPathBuilder.new (candidates listing) alpha).buildPath_of_reserves
      (weight_nonneg measured listing alpha) reserves rng
  have size : (candidates listing).length = prober.stats.entries.length := by
    rw [candidates, List.length_map, listing.complete.length_eq]
  have sameIds : path.map some = picked.map fun idx =>
      ((candidates listing).map Candidate.id)[idx]? := by
    rw [sameIds]
    exact List.map_congr_left fun idx _ => List.getElem?_map.symm
  obtain ⟨different, listed⟩ :=
    WeightedDraw.nodup_of_positions (nodup_ids listing) distinct sameIds
  refine ⟨path, built, length.trans (by rw [← size]; rfl), different, ?_⟩
  intro node member
  have known := listed node member
  rw [map_id_candidates] at known
  exact (listing.complete.map Sigma.fst).subset known

theorem isEmpty_candidates_iff (listing : prober.Listing) :
    (candidates listing).isEmpty ↔ prober.stats.entries.length = 0 := by
  rw [List.isEmpty_iff_length_eq_zero, candidates, List.length_map,
    listing.complete.length_eq]

end Prober

namespace LARMixPlanner

variable {planner : LARMixPlanner}

/-- A planned path visits different nodes, as many as there are hops or
nodes. -/
theorem buildPath_spec (measured : planner.prober.Measured)
    (listing : planner.prober.Listing) {allocates : Nat → Bool}
    (rng : Nat → Draw) {hops : UInt64}
    (reserves : WeightedPathBuilder.Reserves allocates (hops.toNat * 32)) :
    ∃ path, planner.buildPath listing allocates rng hops = some path ∧
      path.length = min hops.toNat planner.prober.stats.entries.length ∧
      path.Nodup ∧ ∀ node ∈ path, node ∈ planner.prober.stats := by
  rw [buildPath]
  by_cases empty : (Prober.candidates listing).isEmpty
  · have none := (Prober.isEmpty_candidates_iff listing).mp empty
    rw [if_pos empty, none, Nat.min_zero]
    exact ⟨[], rfl, rfl, List.nodup_nil,
      fun node absent => absurd absent List.not_mem_nil⟩
  · rw [if_neg empty]
    exact Prober.path_of_listing measured listing planner.alpha reserves rng

theorem hopsFor_bounds (median : Rat) :
    3 ≤ (hopsFor median).toNat ∧ (hopsFor median).toNat ≤ 7 := by
  rw [hopsFor]
  split_ifs <;> decide

/-- Where the allocator grants the 224 bytes of seven ids, an adaptive path
always exists, of three to seven hops when there are as many nodes. -/
theorem buildPathDynamic_spec (measured : planner.prober.Measured)
    (listing : planner.prober.Listing) {allocates : Nat → Bool}
    (granted : ∀ bytes ≤ 224, allocates bytes = true) (rng : Nat → Draw) :
    ∃ hops path, 3 ≤ hops ∧ hops ≤ 7 ∧
      planner.buildPathDynamic listing allocates rng = some path ∧
      path.length = min hops planner.prober.stats.entries.length ∧
      path.Nodup ∧ ∀ node ∈ path, node ∈ planner.prober.stats := by
  rw [buildPathDynamic]
  by_cases empty : (Prober.candidates listing).isEmpty
  · have none := (Prober.isEmpty_candidates_iff listing).mp empty
    rw [if_pos empty, none]
    exact ⟨3, [], Nat.le_refl 3, by decide, rfl, rfl, List.nodup_nil,
      fun node absent => absurd absent List.not_mem_nil⟩
  · rw [if_neg empty]
    let rtts := ((Prober.candidates listing).map
      Candidate.latencyMs).mergeSort (· ≤ ·)
    have some : 0 < rtts.length := by
      rw [List.length_mergeSort, List.length_map]
      exact List.length_pos_of_ne_nil fun absent => empty (by rw [absent]; rfl)
    have half := Nat.div_lt_self some (Nat.lt_succ_self 1)
    obtain ⟨least, most⟩ := hopsFor_bounds rtts[rtts.length / 2]
    have few := Nat.mul_le_mul_right 32 most
    have reserves : WeightedPathBuilder.Reserves allocates
        ((hopsFor rtts[rtts.length / 2]).toNat * 32) :=
      ⟨few.trans (by decide), Or.inr (granted _ few)⟩
    obtain ⟨path, built, visited⟩ :=
      Prober.path_of_listing measured listing planner.alpha reserves rng
    refine ⟨_, path, least, most, ?_, visited⟩
    change (rtts[rtts.length / 2]?).bind _ = _
    rw [List.getElem?_eq_getElem half]
    exact built

/-- After any measurements with throughputs that are not negative, adaptive
paths exist for every order of the map and every stream of random numbers. -/
theorem adaptive_path_of_run {probes : List Prober.Probe}
    (sound : ∀ probe ∈ probes, probe.Sound) (alpha : Rat)
    (listing : (Prober.run probes).Listing) {allocates : Nat → Bool}
    (granted : ∀ bytes ≤ 224, allocates bytes = true) (rng : Nat → Draw) :
    ∃ hops path, 3 ≤ hops ∧ hops ≤ 7 ∧
      (new (Prober.run probes) alpha).buildPathDynamic listing allocates rng =
        some path ∧
      path.length = min hops (Prober.run probes).stats.entries.length ∧
      path.Nodup ∧ ∀ node ∈ path, node ∈ (Prober.run probes).stats :=
  @buildPathDynamic_spec (new (Prober.run probes) alpha)
    (Prober.measured_run sound) listing allocates granted rng

end LARMixPlanner

end NyxNet.Mix
