import Mathlib.Algebra.Order.Field.Rat
import Mathlib.Tactic.Linarith
import Mathlib.Tactic.NormNum
import NyxNet.Daemon.PeerDiscovery
import NyxNet.Lib.FarthestFirst

/-!
# Diverse peers for a fallback path

`select_diverse_peers` of `nyx-daemon/src/path_builder.rs`.  A peer is scored by
its distance to the nearest peer selected so far; a different region counts 0.7
and a different host 0.3, both taken as exact.
-/

namespace NyxNet.Paths

/-- The largest double. -/
def f64Max : ℚ := (2 ^ 53 - 1) * 2 ^ 971

/-- `split(':').next()`. -/
def firstPart (address : String) : DebugFormat.Text :=
  address.toList.takeWhile (· ≠ ':')

/-- The weighted distance of two peers. -/
def combinedDistance (peer selectedPeer : ProtoPeerInfo) : ℚ :=
  let regionDistance : ℚ := if peer.region ≠ selectedPeer.region then 1 else 0
  let networkDistance : ℚ :=
    if firstPart peer.address ≠ firstPart selectedPeer.address then 1 else 0
  regionDistance * (7 / 10) + networkDistance * (3 / 10)

/-- `calculate_peer_diversity_score`. -/
def calculatePeerDiversityScore (selected : List ProtoPeerInfo)
    (peer : ProtoPeerInfo) : ℚ :=
  if selected.isEmpty then
    1
  else
    selected.foldl (fun minDistance selectedPeer =>
      min minDistance (combinedDistance peer selectedPeer)) f64Max

/-- `select_diverse_peers`.  No result stands for the panic of `remove` past the
end. -/
def selectDiversePeers (peers : List ProtoPeerInfo) (count : Nat) :
    Option (List ProtoPeerInfo) :=
  FarthestFirst.select calculatePeerDiversityScore 0 count peers []

theorem foldl_min_le {distance : ProtoPeerInfo → ℚ} {start bound : ℚ}
    {selected : List ProtoPeerInfo}
    (low : start ≤ bound ∨ ∃ peer ∈ selected, distance peer ≤ bound) :
    selected.foldl (fun nearest peer => min nearest (distance peer)) start ≤
      bound := by
  induction selected generalizing start with
  | nil => simpa using low
  | cons peer selected ih =>
      rw [List.foldl_cons]
      apply ih
      rcases low with isStart | ⟨near, member, isNear⟩
      · exact Or.inl (le_trans (min_le_left _ _) isStart)
      · rcases List.mem_cons.mp member with rfl | later
        · exact Or.inl (le_trans (min_le_right _ _) isNear)
        · exact Or.inr ⟨near, later, isNear⟩

theorem le_foldl_min {distance : ProtoPeerInfo → ℚ} {start bound : ℚ}
    {selected : List ProtoPeerInfo} (above : bound ≤ start)
    (far : ∀ peer ∈ selected, bound ≤ distance peer) :
    bound ≤
      selected.foldl (fun nearest peer => min nearest (distance peer))
        start := by
  induction selected generalizing start with
  | nil => exact above
  | cons peer selected ih =>
      rw [List.foldl_cons]
      apply ih
      · exact le_min above (far peer List.mem_cons_self)
      · intro other later
        exact far other (List.mem_cons_of_mem _ later)

/-- Peers of one region are close, whatever their hosts are. -/
theorem combinedDistance_le {peer other : ProtoPeerInfo}
    (same : peer.region = other.region) :
    combinedDistance peer other ≤ 3 / 10 := by
  unfold combinedDistance
  simp only [same, ne_eq, not_true_eq_false, if_false]
  split <;> norm_num

/-- Peers of two regions are far apart, whatever their hosts are. -/
theorem le_combinedDistance {peer other : ProtoPeerInfo}
    (different : peer.region ≠ other.region) :
    7 / 10 ≤ combinedDistance peer other := by
  unfold combinedDistance
  simp only [ne_eq, different, not_false_eq_true, if_true]
  split <;> norm_num

theorem one_le_f64Max : 1 ≤ f64Max :=
  one_le_mul_of_one_le_of_one_le (by norm_num) (one_le_pow₀ (by norm_num))

theorem score_of_fresh {selected : List ProtoPeerInfo} {peer : ProtoPeerInfo}
    (fresh : peer.region ∉ selected.map ProtoPeerInfo.region) :
    7 / 10 ≤ calculatePeerDiversityScore selected peer := by
  unfold calculatePeerDiversityScore
  split
  · norm_num
  · apply le_foldl_min
    · exact le_trans (by norm_num) one_le_f64Max
    · intro other member
      apply le_combinedDistance
      intro same
      exact fresh (same ▸ List.mem_map_of_mem member)

theorem score_of_seen {selected : List ProtoPeerInfo} {peer : ProtoPeerInfo}
    (seen : peer.region ∈ selected.map ProtoPeerInfo.region) :
    calculatePeerDiversityScore selected peer ≤ 3 / 10 := by
  obtain ⟨other, member, same⟩ := List.mem_map.mp seen
  have filled : selected.isEmpty = false :=
    List.isEmpty_eq_false_iff.mpr (List.ne_nil_of_mem member)
  unfold calculatePeerDiversityScore
  rw [if_neg (by simp [filled])]
  exact foldl_min_le (Or.inr ⟨other, member, combinedDistance_le same.symm⟩)

theorem score_prefersNewKinds :
    FarthestFirst.PrefersNewKinds calculatePeerDiversityScore 0
      ProtoPeerInfo.region where
  above := by
    intro selected _ fresh isFresh
    have far := score_of_fresh isFresh
    linarith
  preferred := by
    intro selected fresh seen isFresh isSeen
    have far := score_of_fresh isFresh
    have near := score_of_seen isSeen
    linarith

/-- The selection takes as many peers as it is asked for, or all, none of them
twice, and they are of as many regions as there can be. -/
theorem selectDiversePeers_covers (peers : List ProtoPeerInfo) (count : Nat) :
    ∃ selected rest, selectDiversePeers peers count = some selected ∧
      selected.length = min count peers.length ∧
      (selected ++ rest).Perm peers ∧
      (selected.map ProtoPeerInfo.region).toFinset.card =
        min count (peers.map ProtoPeerInfo.region).toFinset.card := by
  obtain ⟨selected, rest, found, split, length⟩ :=
    FarthestFirst.exists_select calculatePeerDiversityScore 0 count peers []
  rw [List.nil_append] at found
  refine ⟨selected, rest, found, length, split, ?_⟩
  have covered := FarthestFirst.kinds_select score_prefersNewKinds count found
  simpa [FarthestFirst.kinds] using covered

end NyxNet.Paths
