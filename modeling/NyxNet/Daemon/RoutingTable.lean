import NyxNet.Lib.Buckets
import NyxNet.Lib.Bytes
import NyxNet.Lib.Time

/-!
# The routing table of the distributed hash table

The peers of a node sit in 256 buckets by the distance of their hashed ids from
the node's own id (`RoutingTable` in `nyx-daemon/src/pure_rust_dht_tcp.rs`).
The distance is the exclusive or of the first eight bytes only, so no more than
65 of the buckets are ever used.
-/

namespace NyxNet.Dht

/-- Node identifier (256-bit hash). -/
abbrev NodeId : Type := Vector UInt8 32

/-- An address as the `multiaddr` crate keeps it; only its text is used. -/
structure Multiaddr where
  text : String
  deriving DecidableEq, Repr

structure PeerInfo where
  peerId : String
  address : Multiaddr
  publicKey : Bytes
  lastSeen : SystemTime
  avgResponseTime : Duration
  deriving DecidableEq, Repr

structure KBucket where
  peers : List PeerInfo
  maxSize : Nat
  distanceRange : UInt8 × UInt8
  deriving DecidableEq, Repr

structure RoutingTable where
  buckets : List KBucket
  localNodeId : NodeId
  kValue : Nat
  deriving DecidableEq

/-- `str::as_bytes`. -/
def asBytes (text : String) : Bytes := text.toUTF8.data.toList

namespace RoutingTable

def new (localNodeId : NodeId) (kValue : Nat) : RoutingTable where
  buckets := (List.range 256).map (fun index =>
    { peers := [], maxSize := kValue,
      distanceRange := (UInt8.ofNat index, UInt8.ofNat index) })
  localNodeId := localNodeId
  kValue := kValue

/-- The first eight bytes of the exclusive or, most significant first. -/
def xorDistance (id1 id2 : NodeId) : UInt64 :=
  (List.zip (id1.toList.take 8) (id2.toList.take 8)).foldl
    (fun distance (byte1, byte2) =>
      (distance <<< 8) ||| (byte1 ^^^ byte2).toUInt64) 0

def calculateDistance (table : RoutingTable) (peerId : NodeId) : UInt64 :=
  xorDistance table.localNodeId peerId

def leadingZeros (number : UInt64) : Nat := number.toBitVec.clz.toNat

/-- Position of the most significant bit, counted from one. -/
def distanceToBucketIndex (distance : UInt64) : Nat :=
  if distance = 0 then
    0
  else
    min (64 - leadingZeros distance) 255

variable (sha256 : Bytes → Vector UInt8 32) (table : RoutingTable)

def hashPeerId (peerId : String) : NodeId := sha256 (asBytes peerId)

/-- The bucket of a peer id in this table. -/
def bucketIndex (peerId : String) : Nat :=
  distanceToBucketIndex (table.calculateDistance (hashPeerId sha256 peerId))

def withPeers (index : Nat) (bucket : KBucket) (peers : List PeerInfo) :
    RoutingTable :=
  { table with buckets := table.buckets.set index { bucket with peers } }

/-- Adds a peer as the most recently seen one of its bucket.  No result stands
for the panic of `remove(0)` on an empty vector. -/
def addPeer (peer : PeerInfo) : Option RoutingTable :=
  let index := table.bucketIndex sha256 peer.peerId
  match table.buckets[index]? with
  | none => some table
  | some bucket =>
      let others := bucket.peers.filter (fun p => p.peerId ≠ peer.peerId)
      if others.length < bucket.maxSize then
        some (table.withPeers index bucket (others ++ [peer]))
      else
        match others with
        | [] => none
        | _ :: rest => some (table.withPeers index bucket (rest ++ [peer]))

def getAllPeers : List PeerInfo := table.buckets.flatMap KBucket.peers

/-- The `count` peers nearest to a target; peers at one distance stay in the
order of the table. -/
def findClosestNodes (targetId : NodeId) (count : Nat) : List PeerInfo :=
  let candidates := table.getAllPeers.map (fun peer =>
    (xorDistance targetId (hashPeerId sha256 peer.peerId), peer))
  ((candidates.mergeSort (fun left right => left.1 ≤ right.1)).take count).map
    Prod.snd

/-- A peer seen after `now` is kept: the clock may have been set back. -/
def fresh (now : SystemTime) (staleThreshold : Duration) (peer : PeerInfo) :
    Bool :=
  match now.durationSince peer.lastSeen with
  | some duration => duration.asNanos < staleThreshold.asNanos
  | none => true

def removeStalePeers (now : SystemTime) (staleThreshold : Duration) :
    RoutingTable :=
  { table with
    buckets := table.buckets.map (fun bucket =>
      { bucket with peers := bucket.peers.filter (fresh now staleThreshold) }) }

/-- The exponential moving average, in milliseconds, in double precision. -/
def updatedAvg (current new : Duration) : Duration :=
  let currentAvg := Float.ofNat current.asMillis
  let newTime := Float.ofNat new.asMillis
  Duration.fromMillis (currentAvg * 0.8 + newTime * 0.2).toUInt64

def updateStats (now : SystemTime) (responseTime : Duration)
    (peer : PeerInfo) : PeerInfo :=
  { peer with
    lastSeen := now
    avgResponseTime := updatedAvg peer.avgResponseTime responseTime }

/-- Updates the first peer with that id, if there is one. -/
def updateFirst (update : PeerInfo → PeerInfo) (peerId : String) :
    List PeerInfo → Option (List PeerInfo)
  | [] => none
  | peer :: rest =>
      if peer.peerId = peerId then
        some (update peer :: rest)
      else
        (updateFirst update peerId rest).map (peer :: ·)

/-- The loop over the buckets stops at the first one that has the peer. -/
def updateBuckets (update : PeerInfo → PeerInfo) (peerId : String) :
    List KBucket → List KBucket
  | [] => []
  | bucket :: rest =>
      match updateFirst update peerId bucket.peers with
      | some peers => { bucket with peers } :: rest
      | none => bucket :: updateBuckets update peerId rest

def updatePeerStats (peerId : String) (now : SystemTime)
    (responseTime : Duration) : RoutingTable :=
  { table with
    buckets := updateBuckets (updateStats now responseTime) peerId
      table.buckets }

end RoutingTable

/-- A call that changes the table, with the clock it reads. -/
inductive TableCall where
  | addPeer (peer : PeerInfo)
  | removeStalePeers (now : SystemTime) (staleThreshold : Duration)
  | updatePeerStats (peerId : String) (now : SystemTime)
      (responseTime : Duration)

namespace RoutingTable

variable (sha256 : Bytes → Vector UInt8 32)

def apply (table : RoutingTable) : TableCall → Option RoutingTable
  | .addPeer peer => table.addPeer sha256 peer
  | .removeStalePeers now staleThreshold =>
      some (table.removeStalePeers now staleThreshold)
  | .updatePeerStats peerId now responseTime =>
      some (table.updatePeerStats peerId now responseTime)

def run (table : RoutingTable) (calls : List TableCall) : Option RoutingTable :=
  calls.foldlM (apply sha256) table

/-- The lists of peers, bucket by bucket. -/
def peerLists (table : RoutingTable) : List (List PeerInfo) :=
  table.buckets.map KBucket.peers

theorem flatten_peerLists (table : RoutingTable) :
    table.peerLists.flatten = table.getAllPeers :=
  (List.flatMap_def ..).symm

theorem peerLists_of_bucket {table : RoutingTable} {index : Nat}
    {bucket : KBucket} (found : table.buckets[index]? = some bucket) :
    table.peerLists[index]? = some bucket.peers := by
  rw [peerLists, List.getElem?_map, found, Option.map_some]

/-- What every table made by `new` keeps. -/
structure Sound (table : RoutingTable) : Prop where
  count : table.buckets.length = 256
  sizes : ∀ bucket ∈ table.buckets, bucket.maxSize = table.kValue
  tidy : Buckets.Tidy PeerInfo.peerId (table.bucketIndex sha256) table.kValue
    table.peerLists

variable {sha256} {table : RoutingTable}

theorem bucketIndex_lt (table : RoutingTable) (peerId : String) :
    table.bucketIndex sha256 peerId < 256 := by
  unfold bucketIndex distanceToBucketIndex
  split
  · decide
  · omega

theorem sound_new (localNodeId : NodeId) (kValue : Nat) :
    Sound sha256 (new localNodeId kValue) := by
  constructor
  · simp [new]
  · intro bucket member
    obtain ⟨index, -, rfl⟩ := List.mem_map.mp member
    rfl
  · have empty : (new localNodeId kValue).peerLists =
        List.replicate 256 [] := by
      rw [peerLists, new, List.map_map]
      exact (List.map_const' ..).trans (by rw [List.length_range])
    rw [empty]
    exact Buckets.tidy_replicate_nil _ _ _ _

/-- A bucket that holds at least one peer never panics. -/
theorem addPeer_eq {bucket : KBucket} {peer : PeerInfo}
    (found : table.buckets[table.bucketIndex sha256 peer.peerId]? = some bucket)
    (size : bucket.maxSize = table.kValue) (positive : 1 ≤ table.kValue) :
    table.addPeer sha256 peer =
      some (table.withPeers (table.bucketIndex sha256 peer.peerId) bucket
        (Buckets.pushRecent PeerInfo.peerId table.kValue bucket.peers peer)) := by
  have retained : bucket.peers.filter (fun p => p.peerId ≠ peer.peerId) =
      Buckets.withoutKey PeerInfo.peerId bucket.peers peer := rfl
  simp only [addPeer, found, size, retained, Buckets.pushRecent]
  generalize Buckets.withoutKey PeerInfo.peerId bucket.peers peer = others
  by_cases room : others.length < table.kValue
  · rw [if_pos room, if_pos room]
  · rw [if_neg room, if_neg room]
    cases others with
    | nil => exact absurd positive room
    | cons first rest => rfl

/-- The bucket of a peer and what `addPeer` makes of it, in a sound table that
has room for a peer. -/
theorem addPeer_spec (sound : Sound sha256 table) (positive : 1 ≤ table.kValue)
    (peer : PeerInfo) :
    ∃ bucket dropped kept,
      table.buckets[table.bucketIndex sha256 peer.peerId]? = some bucket ∧
      bucket.peers.filter (fun p => p.peerId ≠ peer.peerId) =
        dropped ++ kept ∧
      table.addPeer sha256 peer =
        some (table.withPeers (table.bucketIndex sha256 peer.peerId) bucket
          (kept ++ [peer])) ∧
      kept ++ [peer] = Buckets.pushRecent PeerInfo.peerId table.kValue
        bucket.peers peer ∧
      dropped.length ≤ 1 ∧
      (dropped ≠ [] →
        (∀ other ∈ bucket.peers, other.peerId ≠ peer.peerId) ∧
          bucket.peers.length = table.kValue) := by
  have inRange : table.bucketIndex sha256 peer.peerId < table.buckets.length := by
    rw [sound.count]
    exact bucketIndex_lt table peer.peerId
  obtain ⟨bucket, found⟩ : ∃ bucket,
      table.buckets[table.bucketIndex sha256 peer.peerId]? = some bucket :=
    ⟨_, List.getElem?_eq_getElem inRange⟩
  have member := List.mem_of_getElem? found
  have bounded := sound.tidy.bounded bucket.peers (List.mem_map_of_mem member)
  obtain ⟨dropped, kept, others, pushed, room, few, cause⟩ :=
    Buckets.pushRecent_spec PeerInfo.peerId peer positive bounded
  refine ⟨bucket, dropped, kept, found, others, ?_, pushed.symm, few, cause⟩
  rw [addPeer_eq found (sound.sizes bucket member) positive, pushed]

theorem sound_withPeers (sound : Sound sha256 table) {index : Nat}
    {bucket : KBucket} {peers : List PeerInfo}
    (found : table.buckets[index]? = some bucket)
    (tidy : Buckets.Tidy PeerInfo.peerId (table.bucketIndex sha256)
      table.kValue (table.peerLists.set index peers)) :
    Sound sha256 (table.withPeers index bucket peers) := by
  constructor
  · rw [withPeers, List.length_set, sound.count]
  · intro other member
    rcases List.mem_or_eq_of_mem_set member with old | new
    · exact sound.sizes other old
    · rw [new]
      exact sound.sizes bucket (List.mem_of_getElem? found)
  · have lists : (table.withPeers index bucket peers).peerLists =
        table.peerLists.set index peers := List.map_set
    rw [lists]
    exact tidy

theorem addPeer_sound (sound : Sound sha256 table)
    (positive : 1 ≤ table.kValue) (peer : PeerInfo) :
    ∃ after, table.addPeer sha256 peer = some after ∧ Sound sha256 after ∧
      after.kValue = table.kValue ∧
      after.localNodeId = table.localNodeId := by
  obtain ⟨bucket, dropped, kept, found, -, added, pushed, -⟩ :=
    addPeer_spec sound positive peer
  refine ⟨_, added, ?_, rfl, rfl⟩
  apply sound_withPeers sound found
  rw [pushed]
  exact sound.tidy.pushRecent positive peer (peerLists_of_bucket found)

theorem removeStalePeers_sound (sound : Sound sha256 table) (now : SystemTime)
    (staleThreshold : Duration) :
    Sound sha256 (table.removeStalePeers now staleThreshold) := by
  constructor
  · rw [removeStalePeers, List.length_map, sound.count]
  · intro bucket member
    obtain ⟨old, oldMember, rfl⟩ := List.mem_map.mp member
    exact sound.sizes old oldMember
  · have lists : (table.removeStalePeers now staleThreshold).peerLists =
        table.peerLists.map (List.filter (fresh now staleThreshold)) := by
      rw [peerLists, removeStalePeers, List.map_map, peerLists, List.map_map]
      rfl
    rw [lists]
    exact sound.tidy.filter _

theorem map_peerId_updateFirst {update : PeerInfo → PeerInfo}
    (sameId : ∀ peer, (update peer).peerId = peer.peerId) (peerId : String)
    {peers updated : List PeerInfo}
    (found : updateFirst update peerId peers = some updated) :
    updated.map PeerInfo.peerId = peers.map PeerInfo.peerId := by
  induction peers generalizing updated with
  | nil => cases found
  | cons peer rest ih =>
      rw [updateFirst] at found
      split at found
      · cases found
        simp [sameId]
      · obtain ⟨others, inRest, rfl⟩ := Option.map_eq_some_iff.mp found
        simp [ih inRest]

/-- The statistics of one peer change, and neither an id nor a capacity. -/
theorem updateBuckets_spec {update : PeerInfo → PeerInfo}
    (sameId : ∀ peer, (update peer).peerId = peer.peerId) (peerId : String)
    (buckets : List KBucket) :
    (updateBuckets update peerId buckets).map KBucket.maxSize =
        buckets.map KBucket.maxSize ∧
      ((updateBuckets update peerId buckets).map KBucket.peers).map
          (List.map PeerInfo.peerId) =
        (buckets.map KBucket.peers).map (List.map PeerInfo.peerId) := by
  induction buckets with
  | nil => exact ⟨rfl, rfl⟩
  | cons bucket rest ih =>
      rw [updateBuckets]
      split
      · next peers found =>
          simp [map_peerId_updateFirst sameId peerId found]
      · simpa using ih

theorem updatePeerStats_sound (sound : Sound sha256 table) (peerId : String)
    (now : SystemTime) (responseTime : Duration) :
    Sound sha256 (table.updatePeerStats peerId now responseTime) := by
  have sameId : ∀ peer, (updateStats now responseTime peer).peerId =
      peer.peerId := fun _ => rfl
  obtain ⟨sizes, ids⟩ := updateBuckets_spec sameId peerId table.buckets
  constructor
  · have lengths := congrArg List.length sizes
    rw [List.length_map, List.length_map, sound.count] at lengths
    exact lengths
  · intro bucket member
    have size : bucket.maxSize ∈ table.buckets.map KBucket.maxSize := by
      rw [← sizes]
      exact List.mem_map_of_mem member
    obtain ⟨old, oldMember, equal⟩ := List.mem_map.mp size
    rw [← equal]
    exact sound.sizes old oldMember
  · exact sound.tidy.congr ids

/-- One call keeps the table sound, and its id and capacity as they are. -/
theorem apply_sound (sound : Sound sha256 table) (positive : 1 ≤ table.kValue)
    (call : TableCall) :
    ∃ after, table.apply sha256 call = some after ∧ Sound sha256 after ∧
      after.kValue = table.kValue ∧
      after.localNodeId = table.localNodeId := by
  cases call with
  | addPeer peer => exact addPeer_sound sound positive peer
  | removeStalePeers now staleThreshold =>
      exact ⟨_, rfl, removeStalePeers_sound sound now staleThreshold, rfl, rfl⟩
  | updatePeerStats peerId now responseTime =>
      exact ⟨_, rfl, updatePeerStats_sound sound peerId now responseTime, rfl,
        rfl⟩

theorem run_sound (sound : Sound sha256 table) (positive : 1 ≤ table.kValue)
    (calls : List TableCall) :
    ∃ after, table.run sha256 calls = some after ∧ Sound sha256 after ∧
      after.kValue = table.kValue ∧
      after.localNodeId = table.localNodeId := by
  induction calls generalizing table with
  | nil => exact ⟨table, rfl, sound, rfl, rfl⟩
  | cons call calls ih =>
      obtain ⟨next, applied, nextSound, nextK, nextId⟩ :=
        apply_sound sound positive call
      obtain ⟨after, ran, afterSound, afterK, afterId⟩ :=
        ih nextSound (by omega)
      refine ⟨after, ?_, afterSound, afterK.trans nextK, afterId.trans nextId⟩
      rw [run, List.foldlM_cons, applied]
      exact ran

/-- A peer that is absent from its bucket is absent from the table. -/
theorem absent_of_absent_bucket (sound : Sound sha256 table) {peerId : String}
    {bucket : KBucket}
    (found : table.buckets[table.bucketIndex sha256 peerId]? = some bucket)
    (absent : ∀ other ∈ bucket.peers, other.peerId ≠ peerId) :
    ∀ other ∈ table.getAllPeers, other.peerId ≠ peerId := by
  intro other member sameId
  obtain ⟨holder, holderMember, inHolder⟩ := List.mem_flatMap.mp member
  obtain ⟨index, holderFound⟩ := List.mem_iff_getElem?.mp holderMember
  have place := sound.tidy.placed index holder.peers
    (peerLists_of_bucket holderFound) other inHolder
  rw [sameId] at place
  rw [← place, found] at holderFound
  cases holderFound
  exact absent other inHolder sameId

variable (sha256)

/-- Every id is in one place of the table, which its hash prescribes, and no
bucket holds more than `kValue` peers. -/
structure WellFormed (localNodeId : NodeId) (kValue : Nat)
    (table : RoutingTable) : Prop where
  unique : (table.getAllPeers.map PeerInfo.peerId).Nodup
  placed : ∀ (index : Nat) (bucket : KBucket),
    table.buckets[index]? = some bucket → ∀ peer ∈ bucket.peers,
      distanceToBucketIndex
        (xorDistance localNodeId (hashPeerId sha256 peer.peerId)) = index
  bounded : ∀ bucket ∈ table.buckets, bucket.peers.length ≤ kValue

/-- `after` is `table` with the peer at the end of its bucket.  Of the other
peers of that bucket `dropped` is gone: at most one, and only from a full
bucket of a table that did not have the peer. -/
def Added (kValue : Nat) (peer : PeerInfo) (table after : RoutingTable) :
    Prop :=
  ∃ bucket dropped kept,
    table.buckets[table.bucketIndex sha256 peer.peerId]? = some bucket ∧
    after = table.withPeers (table.bucketIndex sha256 peer.peerId) bucket
      (kept ++ [peer]) ∧
    bucket.peers.filter (fun p => p.peerId ≠ peer.peerId) = dropped ++ kept ∧
    dropped.length ≤ 1 ∧
    (dropped ≠ [] →
      (∀ other ∈ table.getAllPeers, other.peerId ≠ peer.peerId) ∧
        bucket.peers.length = kValue)

variable {sha256}

theorem Sound.wellFormed (sound : Sound sha256 table) :
    WellFormed sha256 table.localNodeId table.kValue table := by
  constructor
  · rw [← flatten_peerLists]
    exact sound.tidy.nodup_flatten
  · intro index bucket found peer member
    exact sound.tidy.placed index bucket.peers (peerLists_of_bucket found) peer
      member
  · intro bucket member
    exact sound.tidy.bounded bucket.peers (List.mem_map_of_mem member)

theorem Sound.added (sound : Sound sha256 table) (positive : 1 ≤ table.kValue)
    (peer : PeerInfo) :
    ∃ after, table.addPeer sha256 peer = some after ∧
      Added sha256 table.kValue peer table after := by
  obtain ⟨bucket, dropped, kept, found, others, added, -, few, cause⟩ :=
    addPeer_spec sound positive peer
  refine ⟨_, added, bucket, dropped, kept, found, rfl, others, few, ?_⟩
  intro lost
  obtain ⟨absent, full⟩ := cause lost
  exact ⟨absent_of_absent_bucket sound found absent, full⟩

theorem run_wellFormed_added (sha256 : Bytes → Vector UInt8 32)
    (localNodeId : NodeId) (kValue : Nat) (positive : 1 ≤ kValue)
    (calls : List TableCall) :
    ∃ table, (new localNodeId kValue).run sha256 calls = some table ∧
      WellFormed sha256 localNodeId kValue table ∧
      ∀ peer, ∃ after, table.addPeer sha256 peer = some after ∧
        Added sha256 kValue peer table after := by
  obtain ⟨table, ran, sound, sameK, sameId⟩ :=
    run_sound (sound_new localNodeId kValue) positive calls
  refine ⟨table, ran, ?_, ?_⟩
  · have wellFormed := sound.wellFormed
    rw [sameId, sameK] at wellFormed
    exact wellFormed
  · intro peer
    have added := sound.added (sameK ▸ positive) peer
    rw [sameK] at added
    exact added

end RoutingTable

def sampleTime : SystemTime := SystemTime.ofUnixSecs 1700000000 (by decide)

namespace RoutingTable

/-- SHA-256 at the two peer ids of the sample. -/
def sampleDigest (data : Bytes) : Vector UInt8 32 :=
  if data = asBytes "alpha" then
    Bytes.leBytes 32
      0xf823228f8e01d41edacd7cece8f816d86cf71a8e512270ad9e955b68adf6d38e
  else
    Bytes.leBytes 32
      0x5327bfcf412d2b700c79c465f2b4cbe84c1c7294fa8d3ff7e948395fe7644ef4

def samplePeer (peerId : String) : PeerInfo where
  peerId := peerId
  address := ⟨"/ip4/127.0.0.1/tcp/4001"⟩
  publicKey := []
  lastSeen := sampleTime
  avgResponseTime := Duration.fromMillis 100

/-- Two peers of one bucket with room for one. -/
theorem run_wellFormed_added_sample :
    ∃ table, (new (Vector.replicate 32 0) 1).run sampleDigest
        [.addPeer (samplePeer "alpha"), .addPeer (samplePeer "beta")] =
          some table ∧
      WellFormed sampleDigest (Vector.replicate 32 0) 1 table ∧
      ∀ peer, ∃ after, table.addPeer sampleDigest peer = some after ∧
        Added sampleDigest 1 peer table after :=
  run_wellFormed_added sampleDigest (Vector.replicate 32 0) 1 (by decide) _

end RoutingTable

end NyxNet.Dht
