import NyxNet.Daemon.RoutingTable
import NyxNet.Lib.StableSort
import Mathlib.Data.Nat.Bitwise

/-!
# The peers nearest to a key

Two searches of `nyx-daemon/src/pure_rust_dht_tcp.rs`.  The routing table sorts
by the first eight bytes of the distance and `find_closest_peers_for_key` by all
32 of them, so they differ on ids whose hashes begin alike.
-/

namespace NyxNet.Dht

namespace PureRustDht

variable (sha256 : Bytes → Vector UInt8 32)

def hashKey (key : String) : NodeId := sha256 (asBytes key)

/-- All 32 bytes of the exclusive or. -/
def xorDistance (a b : NodeId) : NodeId :=
  ⟨(List.zipWith (· ^^^ ·) a.toList b.toList).toArray, by simp⟩

/-- The peers of the table, nearest first; arrays are compared byte by byte. -/
def findClosestPeersForKey (table : RoutingTable) (key : String) :
    List PeerInfo :=
  let keyHash := hashKey sha256 key
  let sorted := table.getAllPeers.mergeSort fun a b =>
    (xorDistance (hashKey sha256 a.peerId) keyHash).toList ≤
      (xorDistance (hashKey sha256 b.peerId) keyHash).toList
  sorted.take 20

/-- The distance of a peer as the number that its bytes write. -/
def distance (target : NodeId) (peer : PeerInfo) : Nat :=
  Bytes.ofBeBytes (xorDistance (hashKey sha256 peer.peerId) target).toList

/-- The distance that the routing table knows. -/
def prefixDistance (target : NodeId) (peer : PeerInfo) : Nat :=
  (RoutingTable.xorDistance target (hashKey sha256 peer.peerId)).toNat

end PureRustDht

/-- Byte strings of one length are ordered like the numbers that they write. -/
theorem lt_iff_ofBeBytes_lt {left right : Bytes}
    (sameLength : left.length = right.length) :
    left < right ↔ Bytes.ofBeBytes left < Bytes.ofBeBytes right := by
  induction left generalizing right with
  | nil =>
      rw [List.length_nil, eq_comm, List.length_eq_zero_iff] at sameLength
      rw [sameLength]
      exact iff_of_false (List.lt_irrefl []) (Nat.lt_irrefl _)
  | cons byte left ih =>
      cases right with
      | nil => cases sameLength
      | cons other right =>
          have tails : left.length = right.length := Nat.succ.inj sameLength
          have leftBound := Bytes.ofBeBytes_lt left
          have rightBound := Bytes.ofBeBytes_lt right
          rw [List.cons_lt_cons_iff, ih tails, Bytes.ofBeBytes_cons,
            Bytes.ofBeBytes_cons, UInt8.lt_iff_toNat_lt, ← UInt8.toNat_inj]
          rw [tails] at leftBound ⊢
          generalize 256 ^ right.length = place at *
          rcases Nat.lt_trichotomy byte.toNat other.toNat with
            below | same | above
          · have carry : (byte.toNat + 1) * place ≤ other.toNat * place :=
              Nat.mul_le_mul_right place below
            rw [Nat.add_mul, Nat.one_mul] at carry
            exact iff_of_true (Or.inl below) (by omega)
          · rw [same]
            omega
          · have carry : (other.toNat + 1) * place ≤ byte.toNat * place :=
              Nat.mul_le_mul_right place above
            rw [Nat.add_mul, Nat.one_mul] at carry
            exact iff_of_false (by omega) (by omega)

theorem le_iff_ofBeBytes_le {left right : Bytes}
    (sameLength : left.length = right.length) :
    left ≤ right ↔ Bytes.ofBeBytes left ≤ Bytes.ofBeBytes right := by
  rw [← List.not_lt, lt_iff_ofBeBytes_lt sameLength.symm, Nat.not_lt]

/-- The number of more bytes in front is higher by their place. -/
theorem ofBeBytes_append (front back : Bytes) :
    Bytes.ofBeBytes (front ++ back) =
      Bytes.ofBeBytes front * 256 ^ back.length + Bytes.ofBeBytes back := by
  rw [Bytes.ofBeBytes, List.reverse_append, Bytes.ofLeBytes_append,
    List.length_reverse, Nat.mul_comm, Nat.add_comm]
  rfl

/-- A byte is shifted in. -/
theorem toNat_shiftLeft_or (distance : UInt64) (byte : UInt8)
    (room : distance.toNat < 256 ^ 7) :
    ((distance <<< 8) ||| byte.toUInt64).toNat =
      distance.toNat * 256 + byte.toNat := by
  have small : byte.toNat < 2 ^ 8 := byte.toNat_lt
  have shifted : distance.toNat <<< 8 % 2 ^ 64 = 2 ^ 8 * distance.toNat := by
    rw [Nat.shiftLeft_eq, Nat.mul_comm]
    exact Nat.mod_eq_of_lt (by omega)
  rw [UInt64.toNat_or, UInt64.toNat_shiftLeft]
  change distance.toNat <<< 8 % 2 ^ 64 ||| byte.toNat = _
  rw [shifted, ← Nat.two_pow_add_eq_or_of_lt small, Nat.mul_comm]

theorem toNat_foldl_xor (pairs : List (UInt8 × UInt8)) (distance : UInt64)
    {used : Nat} (bound : distance.toNat < 256 ^ used)
    (fits : used + pairs.length ≤ 8) :
    (pairs.foldl (fun distance (byte1, byte2) =>
      (distance <<< 8) ||| (byte1 ^^^ byte2).toUInt64) distance).toNat =
      distance.toNat * 256 ^ pairs.length +
        Bytes.ofBeBytes (pairs.map fun (byte1, byte2) => byte1 ^^^ byte2) := by
  induction pairs generalizing distance used with
  | nil => simp [Bytes.ofBeBytes, Bytes.ofLeBytes]
  | cons pair pairs ih =>
      obtain ⟨byte1, byte2⟩ := pair
      rw [List.length_cons] at fits ⊢
      have room : distance.toNat < 256 ^ 7 :=
        bound.trans_le (Nat.pow_le_pow_right (by decide) (by omega))
      have shifted := toNat_shiftLeft_or distance (byte1 ^^^ byte2) room
      have byteBound := (byte1 ^^^ byte2).toNat_lt
      have nextBound : ((distance <<< 8) |||
          (byte1 ^^^ byte2).toUInt64).toNat < 256 ^ (used + 1) := by
        rw [shifted, Nat.pow_succ]
        omega
      rw [List.foldl_cons, ih _ nextBound (by omega), shifted, List.map_cons,
        Bytes.ofBeBytes_cons, List.length_map, Nat.pow_succ, Nat.add_mul,
        Nat.mul_assoc, Nat.mul_comm 256, Nat.add_assoc]

/-- The first eight bytes of the distance are its highest. -/
theorem toNat_xorDistance (id1 id2 : NodeId) :
    (RoutingTable.xorDistance id1 id2).toNat =
      Bytes.ofBeBytes (PureRustDht.xorDistance id1 id2).toList / 256 ^ 24 := by
  have bytes : (PureRustDht.xorDistance id1 id2).toList =
      List.zipWith (· ^^^ ·) id1.toList id2.toList := rfl
  have halves := List.take_append_drop 8
    (List.zipWith (· ^^^ ·) id1.toList id2.toList)
  have length : ((List.zipWith (· ^^^ ·) id1.toList id2.toList).drop 8).length =
      24 := by
    simp
  have low := Bytes.ofBeBytes_lt
    ((List.zipWith (· ^^^ ·) id1.toList id2.toList).drop 8)
  rw [bytes, ← halves, ofBeBytes_append]
  rw [length] at low ⊢
  rw [Nat.mul_comm, Nat.mul_add_div (by decide), Nat.div_eq_of_lt low,
    Nat.add_zero, List.take_zipWith]
  unfold RoutingTable.xorDistance
  rw [toNat_foldl_xor _ 0 (by decide : (0 : UInt64).toNat < 256 ^ 0) (by simp)]
  simp only [List.map_zip_eq_zipWith, UInt64.toNat_zero, Nat.zero_mul,
    Nat.zero_add]
  rfl

namespace PureRustDht

section Searches

variable {sha256 : Bytes → Vector UInt8 32} {table : RoutingTable}

theorem xorDistance_comm (a b : NodeId) : xorDistance a b = xorDistance b a := by
  unfold xorDistance
  congr 2
  rw [List.zipWith_comm]
  congr 1
  funext x y
  exact UInt8.xor_comm y x

theorem prefixDistance_eq (target : NodeId) (peer : PeerInfo) :
    prefixDistance sha256 target peer =
      distance sha256 target peer / 256 ^ 24 := by
  rw [prefixDistance, toNat_xorDistance, xorDistance_comm, distance]

/-- A peer that is nearer in the first eight bytes is nearer. -/
theorem distance_lt_of_prefixDistance_lt
    (sha256 : Bytes → Vector UInt8 32) (target : NodeId)
    (left right : PeerInfo)
    (nearer : prefixDistance sha256 target left <
      prefixDistance sha256 target right) :
    distance sha256 target left < distance sha256 target right := by
  rw [prefixDistance_eq, prefixDistance_eq] at nearer
  exact Nat.lt_of_div_lt_div nearer

theorem findClosestNodes_eq (targetId : NodeId) (count : Nat) :
    table.findClosestNodes sha256 targetId count =
      (StableSort.sortBy (prefixDistance sha256 targetId)
        table.getAllPeers).take count := by
  unfold RoutingTable.findClosestNodes StableSort.sortBy
  simp only
  rw [← List.map_mergeSort (r := fun left right =>
      decide (prefixDistance sha256 targetId left ≤
        prefixDistance sha256 targetId right)) (fun _ _ _ _ => rfl),
    ← List.map_take, List.map_map]
  exact List.map_id _

theorem findClosestPeersForKey_eq (key : String) :
    findClosestPeersForKey sha256 table key =
      (StableSort.sortBy (distance sha256 (hashKey sha256 key))
        table.getAllPeers).take 20 := by
  have sameOrder : ∀ left right : PeerInfo,
      ((xorDistance (hashKey sha256 left.peerId)
          (hashKey sha256 key)).toList ≤
        (xorDistance (hashKey sha256 right.peerId)
          (hashKey sha256 key)).toList) ↔
        distance sha256 (hashKey sha256 key) left ≤
          distance sha256 (hashKey sha256 key) right :=
    fun left right => le_iff_ofBeBytes_le (by simp)
  unfold findClosestPeersForKey StableSort.sortBy
  simp only [sameOrder]

end Searches

variable (sha256 : Bytes → Vector UInt8 32) (table : RoutingTable)

/-- The two searches agree on the nearest peers. -/
structure SearchesAgree (key : String) (count : Nat) : Prop where
  sorted : (table.findClosestNodes sha256 (hashKey sha256 key) count).Pairwise
    fun left right => distance sha256 (hashKey sha256 key) left ≤
      distance sha256 (hashKey sha256 key) right
  nearest : ∀ returned ∈
      table.findClosestNodes sha256 (hashKey sha256 key) count,
    ∀ left ∈ table.getAllPeers,
      left ∉ table.findClosestNodes sha256 (hashKey sha256 key) count →
        distance sha256 (hashKey sha256 key) returned ≤
          distance sha256 (hashKey sha256 key) left
  same : table.findClosestNodes sha256 (hashKey sha256 key) count =
    (findClosestPeersForKey sha256 table key).take count

/-- Of two peers with the same first eight bytes of the distance the nearer one
comes first in the table, unless `count` others come in front of both. -/
def PrefixesSuffice (key : String) (count : Nat) : Prop :=
  ∀ front peer rest, table.getAllPeers = front ++ peer :: rest →
    StableSort.ahead (prefixDistance sha256 (hashKey sha256 key))
      table.getAllPeers front peer < count →
      ∀ other ∈ rest,
        prefixDistance sha256 (hashKey sha256 key) other =
          prefixDistance sha256 (hashKey sha256 key) peer →
        distance sha256 (hashKey sha256 key) peer ≤
          distance sha256 (hashKey sha256 key) other

theorem same_iff (key : String) (count : Nat) (few : count ≤ 20) :
    table.findClosestNodes sha256 (hashKey sha256 key) count =
        (findClosestPeersForKey sha256 table key).take count ↔
      PrefixesSuffice sha256 table key count := by
  rw [findClosestPeersForKey_eq, List.take_take, Nat.min_eq_left few,
    findClosestNodes_eq]
  exact StableSort.take_sortBy_eq_take_iff
    (distance_lt_of_prefixDistance_lt sha256 (hashKey sha256 key))
    table.getAllPeers count

theorem searches_agree_iff (key : String) (count : Nat) (few : count ≤ 20) :
    SearchesAgree sha256 table key count ↔
      PrefixesSuffice sha256 table key count := by
  have cut : (findClosestPeersForKey sha256 table key).take count =
      (StableSort.sortBy (distance sha256 (hashKey sha256 key))
        table.getAllPeers).take count := by
    rw [findClosestPeersForKey_eq, List.take_take, Nat.min_eq_left few]
  rw [← same_iff sha256 table key count few]
  constructor
  · intro agree
    exact agree.same
  · intro same
    have sorted := StableSort.pairwise_sortBy
      (distance sha256 (hashKey sha256 key)) table.getAllPeers
    rw [← List.take_append_drop count (StableSort.sortBy _ _),
      List.pairwise_append] at sorted
    refine ⟨?_, ?_, same⟩
    · rw [same, cut]
      exact sorted.1
    · intro returned isReturned left member isLeft
      rw [same, cut] at isReturned isLeft
      refine sorted.2.2 returned isReturned left ?_
      have either : left ∈ StableSort.sortBy
          (distance sha256 (hashKey sha256 key)) table.getAllPeers :=
        StableSort.mem_sortBy.mpr member
      rw [← List.take_append_drop count (StableSort.sortBy _ _)] at either
      exact (List.mem_append.mp either).resolve_left isLeft

/-- SHA-256 at a key and at two ids whose hashes share their first eight
bytes. -/
def twinDigest (data : Bytes) : Vector UInt8 32 :=
  if data = asBytes "report" then
    Bytes.leBytes 32
      0x1789ac36b4fbb1e1d2dfe5610d23a709ac78c280db6b654d9ce8191383915e84
  else if data = asBytes "8fa57db2e2e1a583" then
    Bytes.leBytes 32
      0x475c9150e3a27bd2a5ebb591f9516e2edcc14a3cd18fffff2569d1be18f716d0
  else
    Bytes.leBytes 32
      0x3cf6ea7a63153787cd54004214cb390e535301409ebe5e882569d1be18f716d0

/-- A table with these peers in its last used bucket. -/
def tableOf (peerIds : List String) : RoutingTable :=
  (RoutingTable.new (Vector.replicate 32 0) 20).withPeers 64
    ⟨[], 20, (64, 64)⟩ (peerIds.map RoutingTable.samplePeer)

/-- With the nearer of the two peers in front. -/
theorem searches_agree_twins :
    SearchesAgree twinDigest
      (tableOf ["8fa57db2e2e1a583", "818738c135893ecd"]) "report" 2 :=
  (searches_agree_iff twinDigest
    (tableOf ["8fa57db2e2e1a583", "818738c135893ecd"]) "report" 2
    (by decide)).mpr (by
      have peers : (tableOf ["8fa57db2e2e1a583",
          "818738c135893ecd"]).getAllPeers =
            [RoutingTable.samplePeer "8fa57db2e2e1a583",
              RoutingTable.samplePeer "818738c135893ecd"] := by
        decide +kernel
      have nearer : distance twinDigest (hashKey twinDigest "report")
            (RoutingTable.samplePeer "8fa57db2e2e1a583") ≤
          distance twinDigest (hashKey twinDigest "report")
            (RoutingTable.samplePeer "818738c135893ecd") := by
        decide +kernel
      intro front peer rest split _ other member _
      rw [peers] at split
      rcases List.cons_eq_append_iff.mp split with
        ⟨rfl, whole⟩ | ⟨tail, rfl, whole⟩
      · cases whole
        rw [List.mem_singleton.mp member]
        exact nearer
      · rcases List.cons_eq_append_iff.mp whole with
          ⟨rfl, last⟩ | ⟨more, rfl, none⟩
        · cases last
          cases member
        · cases more <;> cases none)

/-- The peer that comes first in the table is returned first, and the other one
is nearer. -/
theorem searches_disagree :
    ¬ ∀ (table : RoutingTable) (key : String) (count : Nat), count ≤ 20 →
      SearchesAgree twinDigest table key count := by
  intro agree
  have suffice := (same_iff twinDigest
    (tableOf ["818738c135893ecd", "8fa57db2e2e1a583"]) "report" 2
    (by decide)).mp (agree _ "report" 2 (by decide)).same
  have farther := suffice [] (RoutingTable.samplePeer "818738c135893ecd")
    [RoutingTable.samplePeer "8fa57db2e2e1a583"] (by decide +kernel)
    (by decide +kernel) (RoutingTable.samplePeer "8fa57db2e2e1a583")
    List.mem_cons_self (by decide +kernel)
  revert farther
  decide +kernel

end PureRustDht

end NyxNet.Dht
