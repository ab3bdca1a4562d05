import NyxNet.Daemon.DhtPersistence
import NyxNet.Lib.SocketAddr
import NyxNet.Lib.Trace

/-!
# The routing table on disk

`save_routing_table` and `restore_routing_table` of
`nyx-daemon/src/pure_rust_dht_tcp.rs`.  An address is written as the text of a
multiaddress, `/ip4/…/tcp/…`, and read back as a socket address, which no such
text is.  The loop skips what it cannot read, so a restored table is empty.
-/

namespace NyxNet.Dht

structure SerializablePeerInfo where
  peerId : String
  address : String
  publicKey : Bytes
  lastSeen : UInt64
  responseTimeMs : UInt64
  deriving DecidableEq

def SerializablePeerInfo.ofPeer (peer : PeerInfo) : SerializablePeerInfo where
  peerId := peer.peerId
  address := peer.address.text
  publicKey := peer.publicKey
  lastSeen := savedTimestamp peer.lastSeen
  responseTimeMs := UInt64.ofNat peer.avgResponseTime.asMillis

namespace RoutingTable

def saveRoutingTable (table : RoutingTable) : List SerializablePeerInfo :=
  table.getAllPeers.map SerializablePeerInfo.ofPeer

variable (sha256 : Bytes → Vector UInt8 32) (multiaddr : SocketAddr → Multiaddr)

/-- `multiaddr` is `Multiaddr::from(ip).with(Tcp(port))` of the `multiaddr`
crate.  No result stands for a panic. -/
def restorePeer (table : RoutingTable) (saved : SerializablePeerInfo) :
    Option RoutingTable :=
  match SocketAddr.fromStr saved.address with
  | none => some table
  | some socketAddr =>
      match SystemTime.unixEpoch.checkedAdd
          (Duration.fromSecs saved.lastSeen) with
      | none => none
      | some lastSeen =>
          table.addPeer sha256 {
            peerId := saved.peerId
            address := multiaddr socketAddr
            publicKey := saved.publicKey
            lastSeen := lastSeen
            avgResponseTime := Duration.fromMillis saved.responseTimeMs }

def restoreRoutingTable (table : RoutingTable)
    (saved : List SerializablePeerInfo) : Option RoutingTable :=
  saved.foldlM (restorePeer sha256 multiaddr) table

/-- The address of a peer that is reached over IPv4 and TCP. -/
def ip4Tcp (ip : Vector UInt8 4) (port : UInt16) : Multiaddr :=
  ⟨"/ip4/" ++ String.intercalate "." (ip.toList.map toString) ++
    "/tcp/" ++ toString port⟩

theorem fromStr_ip4Tcp (ip : Vector UInt8 4) (port : UInt16) :
    SocketAddr.fromStr (ip4Tcp ip port).text = none := by
  have starts : ∃ rest, (ip4Tcp ip port).text.toList = '/' :: rest := by
    simp only [ip4Tcp, String.toList_append]
    exact ⟨_, rfl⟩
  obtain ⟨rest, text⟩ := starts
  exact SocketAddr.fromStr_eq_none text (by decide) (by decide)

variable {sha256 multiaddr}

theorem restorePeer_ip4Tcp {peer : PeerInfo} {ip : Vector UInt8 4}
    {port : UInt16} (address : peer.address = ip4Tcp ip port)
    (table : RoutingTable) :
    restorePeer sha256 multiaddr table (.ofPeer peer) = some table := by
  have unread : SocketAddr.fromStr
      (SerializablePeerInfo.ofPeer peer).address = none := by
    rw [SerializablePeerInfo.ofPeer, address]
    exact fromStr_ip4Tcp ip port
  simp only [restorePeer, unread]

theorem restore_ip4Tcp {peers : List PeerInfo}
    (addresses : ∀ peer ∈ peers, ∃ ip port, peer.address = ip4Tcp ip port)
    (table : RoutingTable) :
    restoreRoutingTable sha256 multiaddr table
      (peers.map SerializablePeerInfo.ofPeer) = some table := by
  induction peers with
  | nil => rfl
  | cons peer peers ih =>
      obtain ⟨ip, port, address⟩ := addresses peer List.mem_cons_self
      have rest := ih (fun later member =>
        addresses later (List.mem_cons_of_mem peer member))
      rw [restoreRoutingTable, List.map_cons, List.foldlM_cons,
        restorePeer_ip4Tcp address]
      exact rest

def addPeers (sha256 : Bytes → Vector UInt8 32) (table : RoutingTable)
    (peers : List PeerInfo) : Option RoutingTable :=
  peers.foldlM (fun table peer => table.addPeer sha256 peer) table

/-- A peer changes at most one bucket, which afterwards holds some of its
peers and the new one. -/
theorem addPeer_bucket {table after : RoutingTable} {peer : PeerInfo}
    (added : table.addPeer sha256 peer = some after) :
    after = table ∨ ∃ index bucket peers,
      table.buckets[index]? = some bucket ∧
      after = table.withPeers index bucket peers ∧
      ∀ other ∈ peers, other ∈ bucket.peers ∨ other = peer := by
  unfold addPeer at added
  simp only at added
  split at added
  · exact Or.inl (Option.some.inj added).symm
  · next bucket found =>
      right
      have retained : ∀ other ∈ bucket.peers.filter
          (fun p => p.peerId ≠ peer.peerId), other ∈ bucket.peers :=
        fun other member => List.mem_of_mem_filter member
      split at added
      · refine ⟨_, bucket, _, found, (Option.some.inj added).symm, ?_⟩
        intro other member
        rcases List.mem_append.mp member with old | new
        · exact Or.inl (retained other old)
        · exact Or.inr (List.mem_singleton.mp new)
      · split at added
        · cases added
        · next first rest others =>
            refine ⟨_, bucket, _, found, (Option.some.inj added).symm, ?_⟩
            intro other member
            rcases List.mem_append.mp member with old | new
            · exact Or.inl (retained other
                (others ▸ List.mem_cons_of_mem first old))
            · exact Or.inr (List.mem_singleton.mp new)

theorem mem_getAllPeers {table : RoutingTable} {peer : PeerInfo} :
    peer ∈ table.getAllPeers ↔
      ∃ bucket ∈ table.buckets, peer ∈ bucket.peers :=
  List.mem_flatMap

/-- The number of buckets stays, and every peer was there or is the new one. -/
theorem addPeer_kept {table after : RoutingTable} {peer : PeerInfo}
    (added : table.addPeer sha256 peer = some after) :
    after.buckets.length = table.buckets.length ∧
      ∀ other ∈ after.getAllPeers,
        other ∈ table.getAllPeers ∨ other = peer := by
  rcases addPeer_bucket added with same | changed
  · subst same
    exact ⟨rfl, fun other member => Or.inl member⟩
  · obtain ⟨index, bucket, peers, found, rfl, source⟩ := changed
    refine ⟨List.length_set, ?_⟩
    intro other member
    obtain ⟨holder, holds, inside⟩ := mem_getAllPeers.mp member
    rcases List.mem_or_eq_of_mem_set holds with old | new
    · exact Or.inl (mem_getAllPeers.mpr ⟨holder, old, inside⟩)
    · rw [new] at inside
      rcases source other inside with kept | isNew
      · exact Or.inl (mem_getAllPeers.mpr
          ⟨bucket, List.mem_of_getElem? found, kept⟩)
      · exact Or.inr isNew

theorem addPeers_kept {peers : List PeerInfo} {table after : RoutingTable}
    (added : addPeers sha256 table peers = some after) :
    after.buckets.length = table.buckets.length ∧
      ∀ other ∈ after.getAllPeers,
        other ∈ table.getAllPeers ∨ other ∈ peers := by
  apply Trace.foldlM_invariant
    (fun other : RoutingTable =>
      other.buckets.length = table.buckets.length ∧
        ∀ peer ∈ other.getAllPeers, peer ∈ table.getAllPeers ∨ peer ∈ peers)
    ?_ ⟨rfl, fun other member => Or.inl member⟩ added
  intro peer listed before next held first
  obtain ⟨sameLength, source⟩ := addPeer_kept first
  refine ⟨sameLength.trans held.1, ?_⟩
  intro other member
  rcases source other member with old | isNew
  · exact held.2 other old
  · exact Or.inr (isNew ▸ listed)

/-- What has to be the same about a peer. -/
def identity (peer : PeerInfo) : String × Multiaddr × Bytes :=
  (peer.peerId, peer.address, peer.publicKey)

/-- The peers of every bucket, in order. -/
def layout (table : RoutingTable) : List (List (String × Multiaddr × Bytes)) :=
  table.buckets.map (fun bucket => bucket.peers.map identity)

theorem layout_new (localNodeId : NodeId) (kValue : Nat) :
    (new localNodeId kValue).layout = List.replicate 256 [] := by
  rw [layout, new, List.map_map]
  exact (List.map_const' ..).trans (by rw [List.length_range])

theorem getAllPeers_new (localNodeId : NodeId) (kValue : Nat) :
    (new localNodeId kValue).getAllPeers = [] := by
  simp [getAllPeers, new]

theorem layout_eq_replicate_iff {table : RoutingTable}
    (count : table.buckets.length = 256) :
    table.layout = List.replicate 256 [] ↔ table.getAllPeers = [] := by
  rw [List.eq_replicate_iff, layout, List.length_map, getAllPeers,
    List.flatMap_eq_nil_iff]
  simp only [count, List.mem_map, forall_exists_index, and_imp,
    forall_apply_eq_imp_iff₂, List.map_eq_nil_iff, true_and]

/-- Nothing of what was saved can be read. -/
theorem restore_built {localNodeId : NodeId} {kValue : Nat}
    {peers : List PeerInfo} {table : RoutingTable}
    (addresses : ∀ peer ∈ peers, ∃ ip port, peer.address = ip4Tcp ip port)
    (built : addPeers sha256 (new localNodeId kValue) peers = some table) :
    restoreRoutingTable sha256 multiaddr (new localNodeId kValue)
      table.saveRoutingTable = some (new localNodeId kValue) := by
  apply restore_ip4Tcp
  intro peer member
  rcases (addPeers_kept built).2 peer member with initial | added
  · rw [getAllPeers_new] at initial
    cases initial
  · exact addresses peer added

theorem layout_built_iff {localNodeId : NodeId} {kValue : Nat}
    {peers : List PeerInfo} {table : RoutingTable}
    (built : addPeers sha256 (new localNodeId kValue) peers = some table) :
    (new localNodeId kValue).layout = table.layout ↔
      table.getAllPeers = [] := by
  have count : table.buckets.length = 256 := by
    rw [(addPeers_kept built).1, new, List.length_map, List.length_range]
  rw [← layout_eq_replicate_iff count, layout_new, eq_comm]

theorem restored_layout_iff (sha256 : Bytes → Vector UInt8 32)
    (multiaddr : SocketAddr → Multiaddr) (localNodeId : NodeId) (kValue : Nat)
    (peers : List PeerInfo)
    (addresses : ∀ peer ∈ peers, ∃ ip port, peer.address = ip4Tcp ip port)
    (table : RoutingTable)
    (built : addPeers sha256 (new localNodeId kValue) peers = some table) :
    (∃ restored, restoreRoutingTable sha256 multiaddr (new localNodeId kValue)
        table.saveRoutingTable = some restored ∧
      restored.layout = table.layout) ↔
      table.getAllPeers = [] := by
  rw [restore_built addresses built, ← layout_built_iff built]
  constructor
  · intro reproduced
    obtain ⟨restored, isNew, same⟩ := reproduced
    rw [Option.some.inj isNew]
    exact same
  · intro same
    exact ⟨_, rfl, same⟩

theorem addPeer_present {table : RoutingTable} (sound : Sound sha256 table)
    (positive : 1 ≤ table.kValue) (peer : PeerInfo) :
    ∃ after, table.addPeer sha256 peer = some after ∧
      peer ∈ after.getAllPeers := by
  obtain ⟨bucket, dropped, kept, found, -, added, -⟩ :=
    addPeer_spec sound positive peer
  have inRange := (List.getElem?_eq_some_iff.mp found).1
  refine ⟨_, added, mem_getAllPeers.mpr ⟨_, List.mem_set inRange _, ?_⟩⟩
  exact List.mem_append_right kept List.mem_cons_self

def emptyTable : RoutingTable := new (Vector.replicate 32 0) 20

/-- Addresses of the `multiaddr` crate, over IPv4. -/
def sampleMultiaddr : SocketAddr → Multiaddr
  | .v4 ip port => ip4Tcp ip port
  | .v6 _ _ _ => ⟨"/ip6/::/tcp/0"⟩

theorem samplePeer_address :
    (samplePeer "alpha").address = ip4Tcp #v[127, 0, 0, 1] 4001 := by
  decide +kernel

theorem samplePeer_addresses : ∀ peer ∈ [samplePeer "alpha"],
    ∃ ip port, peer.address = ip4Tcp ip port := by
  intro peer member
  rw [List.mem_singleton.mp member]
  exact ⟨#v[127, 0, 0, 1], 4001, samplePeer_address⟩

theorem exists_built_sample :
    ∃ table, addPeers sampleDigest emptyTable [samplePeer "alpha"] =
      some table ∧ samplePeer "alpha" ∈ table.getAllPeers := by
  obtain ⟨table, added, present⟩ := addPeer_present
    (show Sound sampleDigest emptyTable from sound_new _ _) (by decide)
    (samplePeer "alpha")
  refine ⟨table, ?_, present⟩
  rw [addPeers, List.foldlM_cons, added]
  rfl

theorem restored_layout_iff_sample :
    ∃ table, addPeers sampleDigest emptyTable [samplePeer "alpha"] =
        some table ∧
      ((∃ restored, restoreRoutingTable sampleDigest sampleMultiaddr emptyTable
          table.saveRoutingTable = some restored ∧
            restored.layout = table.layout) ↔ table.getAllPeers = []) := by
  obtain ⟨table, built, -⟩ := exists_built_sample
  exact ⟨table, built, restored_layout_iff sampleDigest sampleMultiaddr _ 20
    [samplePeer "alpha"] samplePeer_addresses table built⟩

/-- The one peer of a table is lost. -/
theorem restored_table_differs :
    ∃ table, addPeers sampleDigest emptyTable [samplePeer "alpha"] =
        some table ∧
      (∀ peer ∈ [samplePeer "alpha"],
        ∃ ip port, peer.address = ip4Tcp ip port) ∧
      ¬ ∃ restored, restoreRoutingTable sampleDigest sampleMultiaddr emptyTable
          table.saveRoutingTable = some restored ∧
            restored.layout = table.layout := by
  obtain ⟨table, built, present⟩ := exists_built_sample
  refine ⟨table, built, samplePeer_addresses, ?_⟩
  intro reproduced
  obtain ⟨restored, isEmpty, same⟩ := reproduced
  rw [emptyTable, restore_built samplePeer_addresses built] at isEmpty
  obtain rfl := Option.some.inj isEmpty
  rw [(layout_built_iff built).mp same] at present
  exact List.not_mem_nil present

end RoutingTable

end NyxNet.Dht
