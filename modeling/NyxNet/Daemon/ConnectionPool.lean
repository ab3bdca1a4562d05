import NyxNet.Lib.Bytes
import NyxNet.Lib.KeyedTable
import NyxNet.Lib.SocketAddr
import NyxNet.Lib.Time
import NyxNet.Lib.Trace

/-!
# The connection pool of the peer-to-peer network

`ConnectionPool` of `nyx-daemon/src/pure_rust_p2p.rs` keeps the connections of
every peer and counts them by hand.  Removal goes by peer while the counter
goes down by one, and the maintenance pass counts a peer once for every stale
connection and once more when none is left, so the counter stays right only
along particular runs.
-/

namespace NyxNet.P2p

open KeyedTable

abbrev PeerId : Type := Vector UInt8 32

inductive ConnectionState where
  | connecting
  | connected
  | authenticating
  | authenticated
  | disconnected
  | reconnecting
  | failed
  deriving DecidableEq

structure PeerConnection where
  connectionId : UInt64
  peerId : PeerId
  address : SocketAddr
  state : ConnectionState
  createdAt : SystemTime
  lastActivity : SystemTime
  retryCount : UInt32
  sessionKey : Option Bytes
  deriving DecidableEq

structure RetryConnection where
  peerId : PeerId
  address : SocketAddr
  attempt : UInt32
  nextRetry : SystemTime
  lastError : String
  deriving DecidableEq

structure ConnectionPoolConfig where
  connectionTimeout : Duration
  reconnectAttempts : UInt32
  reconnectDelay : Duration

def ConnectionPoolConfig.default : ConnectionPoolConfig where
  connectionTimeout := Duration.fromSecs 30
  reconnectAttempts := 5
  reconnectDelay := Duration.fromSecs 2

structure PoolStatistics where
  totalConnections : UInt64
  activeConnections : UInt32
  peakConnections : UInt32

structure ConnectionPool where
  peerConnections : Table PeerId (List PeerConnection)
  retryQueue : List RetryConnection
  poolStats : PoolStatistics

def ConnectionPool.default : ConnectionPool where
  peerConnections := ∅
  retryQueue := []
  poolStats := ⟨0, 0, 0⟩

def saturatingPred (count : UInt32) : UInt32 :=
  if count = 0 then 0 else count - 1

namespace ConnectionPool

variable (config : ConnectionPoolConfig) (pool : ConnectionPool)

def connectionsOf (peerId : PeerId) : List PeerConnection :=
  (pool.peerConnections.lookup peerId).getD []

/-- The two readings of the clock become the times of the connection. -/
def addToConnectionPool (peerId : PeerId) (address : SocketAddr)
    (createdAt lastActivity : SystemTime) : ConnectionPool :=
  let connection : PeerConnection := {
    connectionId := pool.poolStats.totalConnections + 1
    peerId := peerId
    address := address
    state := .connected
    createdAt := createdAt
    lastActivity := lastActivity
    retryCount := 0
    sessionKey := none }
  let active := pool.poolStats.activeConnections + 1
  { pool with
    peerConnections := pool.peerConnections.insert peerId
      (pool.connectionsOf peerId ++ [connection])
    poolStats := {
      totalConnections := pool.poolStats.totalConnections + 1
      activeConnections := active
      peakConnections := if pool.poolStats.peakConnections < active then active
        else pool.poolStats.peakConnections } }

def countOneLess : PoolStatistics :=
  { pool.poolStats with
    activeConnections := saturatingPred pool.poolStats.activeConnections }

def removeFromConnectionPool (peerId : PeerId) : ConnectionPool :=
  match pool.peerConnections.lookup peerId with
  | none => pool
  | some _ =>
      { pool with
        peerConnections := pool.peerConnections.erase peerId
        poolStats := pool.countOneLess }

/-- A time of the next attempt that does not fit panics; the pool stays. -/
def addToRetryQueue (peerId : PeerId) (address : SocketAddr) (error : String)
    (now : SystemTime) : ConnectionPool :=
  match now.checkedAdd config.reconnectDelay with
  | none => pool
  | some nextRetry =>
      { pool with
        retryQueue := pool.retryQueue ++
          [⟨peerId, address, 1, nextRetry, error⟩] }

/-- A connection that was active after `now` has age zero. -/
def isStale (now : SystemTime) (connection : PeerConnection) : Bool :=
  let age := (now.durationSince connection.lastActivity).getD
    (Duration.fromSecs 0)
  config.connectionTimeout.asNanos < age.asNanos

/-- Every connection of a peer with the verdict on it.  The clock is read anew
for each. -/
def judge (clock : Nat → SystemTime) (connections : List PeerConnection) :
    List (PeerConnection × Bool) :=
  connections.zipIdx.map (fun (connection, index) =>
    (connection, isStale config (clock index) connection))

def retained (clock : Nat → SystemTime) (connections : List PeerConnection) :
    List PeerConnection :=
  ((judge config clock connections).filter (fun judged => !judged.2)).map
    Prod.fst

def staleCount (clock : Nat → SystemTime) (connections : List PeerConnection) :
    Nat :=
  (judge config clock connections).countP Prod.snd

/-- A peer is listed for each of its stale connections, and once more when no
connection is left. -/
def stalePeersOf (clock : PeerId → Nat → SystemTime) (peerId : PeerId)
    (connections : List PeerConnection) : List PeerId :=
  List.replicate (staleCount config (clock peerId) connections) peerId ++
    if retained config (clock peerId) connections = [] then [peerId] else []

def stalePeers (clock : PeerId → Nat → SystemTime) : List PeerId :=
  pool.peerConnections.entries.flatMap (fun entry =>
    stalePeersOf config clock entry.1 entry.2)

def dropPeer (peerId : PeerId) : ConnectionPool :=
  { pool with
    peerConnections := pool.peerConnections.erase peerId
    poolStats := pool.countOneLess }

def keepsRetry (now : SystemTime) (retry : RetryConnection) : Bool :=
  !(retry.nextRetry.asNanos ≤ now.asNanos &&
      retry.attempt ≤ config.reconnectAttempts) &&
    !(config.reconnectAttempts < retry.attempt)

def maintain (clock : PeerId → Nat → SystemTime) (now : SystemTime) :
    ConnectionPool :=
  let retainedPool := { pool with
    peerConnections := mapValues (fun peerId connections =>
      retained config (clock peerId) connections) pool.peerConnections }
  let swept := (stalePeers config pool clock).foldl dropPeer retainedPool
  { swept with retryQueue := swept.retryQueue.filter (keepsRetry config now) }

end ConnectionPool

/-- A call on the pool, with the clock that it reads. -/
inductive PoolStep where
  | add (peerId : PeerId) (address : SocketAddr)
      (createdAt lastActivity : SystemTime)
  | remove (peerId : PeerId)
  | addToRetryQueue (peerId : PeerId) (address : SocketAddr) (error : String)
      (now : SystemTime)
  | maintain (clock : PeerId → Nat → SystemTime) (now : SystemTime)

def ConnectionPool.step (config : ConnectionPoolConfig) (pool : ConnectionPool) :
    PoolStep → ConnectionPool
  | .add peerId address createdAt lastActivity =>
      pool.addToConnectionPool peerId address createdAt lastActivity
  | .remove peerId => pool.removeFromConnectionPool peerId
  | .addToRetryQueue peerId address error now =>
      pool.addToRetryQueue config peerId address error now
  | .maintain clock now => pool.maintain config clock now

namespace ConnectionPool

variable {config : ConnectionPoolConfig} {pool : ConnectionPool}

/-- The number of connections in the pool. -/
def total (pool : ConnectionPool) : Nat :=
  load (fun _ connections => connections.length) pool.peerConnections

/-- The counter equals the number of connections. -/
def Accurate (pool : ConnectionPool) : Prop :=
  pool.poolStats.activeConnections.toNat = pool.total

/-- No peer is listed without a connection. -/
def NoEmptyPeer (pool : ConnectionPool) : Prop :=
  ∀ entry ∈ pool.peerConnections.entries, entry.2 ≠ []

theorem toNat_saturatingPred (count : UInt32) :
    (saturatingPred count).toNat = count.toNat - 1 := by
  unfold saturatingPred
  split
  · next zero => simp [zero]
  · next positive =>
      have nonzero : count.toNat ≠ 0 := by
        intro zero
        exact positive (UInt32.toNat_inj.mp zero)
      have atLeastOne : (1 : UInt32) ≤ count := by
        rw [UInt32.le_iff_toNat_le]
        exact Nat.pos_of_ne_zero nonzero
      rw [UInt32.toNat_sub_of_le _ _ atLeastOne]
      rfl

theorem loadAt_eq_length (peerId : PeerId) :
    loadAt (fun _ connections => connections.length) pool.peerConnections
      peerId = (pool.connectionsOf peerId).length := by
  unfold loadAt connectionsOf
  cases pool.peerConnections.lookup peerId <;> rfl

theorem connectionsOf_of_mem {entry : Sigma fun _ : PeerId => List PeerConnection}
    (member : entry ∈ pool.peerConnections.entries) :
    pool.connectionsOf entry.1 = entry.2 := by
  have found := AList.mem_lookup_iff.mpr member
  rw [Option.mem_def] at found
  rw [connectionsOf, found, Option.getD_some]

theorem total_add (peerId : PeerId) (address : SocketAddr)
    (createdAt lastActivity : SystemTime) :
    (pool.addToConnectionPool peerId address createdAt lastActivity).total =
      pool.total + 1 := by
  have inserted := load_insert (fun _ connections => connections.length)
    pool.peerConnections peerId (pool.connectionsOf peerId ++
      [⟨pool.poolStats.totalConnections + 1, peerId, address, .connected,
        createdAt, lastActivity, 0, none⟩])
  rw [loadAt_eq_length, List.length_append, List.length_singleton] at inserted
  simp only [total, addToConnectionPool]
  omega

theorem total_erase (peerId : PeerId) :
    load (fun _ connections => connections.length)
        (pool.peerConnections.erase peerId) +
      (pool.connectionsOf peerId).length = pool.total := by
  have erased := load_erase (fun _ connections => connections.length)
    pool.peerConnections peerId
  rw [loadAt_eq_length] at erased
  exact erased

theorem accurate_add_iff (accurate : pool.Accurate) (peerId : PeerId)
    (address : SocketAddr) (createdAt lastActivity : SystemTime) :
    (pool.addToConnectionPool peerId address createdAt lastActivity).Accurate ↔
      pool.total + 1 < 4294967296 := by
  have active : (pool.addToConnectionPool peerId address createdAt
      lastActivity).poolStats.activeConnections.toNat =
        (pool.poolStats.activeConnections.toNat + 1) % 4294967296 :=
    UInt32.toNat_add _ _
  have bound := pool.poolStats.activeConnections.toNat_lt
  rw [Accurate] at accurate ⊢
  rw [total_add, active]
  omega

theorem accurate_remove_iff (accurate : pool.Accurate)
    (nonempty : pool.NoEmptyPeer) (peerId : PeerId) :
    (pool.removeFromConnectionPool peerId).Accurate ↔
      (pool.connectionsOf peerId).length ≤ 1 := by
  unfold removeFromConnectionPool
  cases found : pool.peerConnections.lookup peerId with
  | none =>
      refine iff_of_true accurate ?_
      rw [connectionsOf, found]
      exact Nat.zero_le 1
  | some connections =>
      have filled : connections ≠ [] :=
        nonempty ⟨peerId, connections⟩ (AList.mem_lookup_iff.mp found)
      have positive := List.length_pos_iff.mpr filled
      have own : pool.connectionsOf peerId = connections := by
        rw [connectionsOf, found, Option.getD_some]
      have erased := pool.total_erase peerId
      simp only [Accurate, total, countOneLess,
        toNat_saturatingPred] at accurate erased ⊢
      rw [own] at erased ⊢
      omega

theorem retained_length (config : ConnectionPoolConfig)
    (clock : Nat → SystemTime) (connections : List PeerConnection) :
    (retained config clock connections).length +
      staleCount config clock connections = connections.length := by
  have judged : (judge config clock connections).length =
      connections.length := by
    rw [judge, List.length_map, List.length_zipIdx]
  have split : (judge config clock connections).length = _ :=
    List.length_eq_countP_add_countP Prod.snd
  have live : (retained config clock connections).length =
      (judge config clock connections).countP
        (fun judged => ¬ judged.2 = true) := by
    rw [retained, List.length_map, List.countP_eq_length_filter]
    simp
  unfold staleCount
  omega

theorem retained_eq_self {clock : Nat → SystemTime}
    {connections : List PeerConnection}
    (fresh : staleCount config clock connections = 0) :
    retained config clock connections = connections := by
  rw [staleCount, List.countP_eq_zero] at fresh
  rw [retained, List.filter_eq_self.mpr (by simpa using fresh), judge,
    List.map_map]
  exact List.zipIdx_map_fst 0 connections

theorem retained_eq_nil_iff (config : ConnectionPoolConfig)
    (clock : Nat → SystemTime) (connections : List PeerConnection) :
    retained config clock connections = [] ↔
      staleCount config clock connections = connections.length := by
  have split := retained_length config clock connections
  rw [← List.length_eq_zero_iff]
  omega

theorem foldl_dropPeer (peers : List PeerId) (pool : ConnectionPool) :
    (peers.foldl dropPeer pool).peerConnections =
        eraseAll pool.peerConnections peers ∧
      (peers.foldl dropPeer pool).poolStats.activeConnections.toNat =
        pool.poolStats.activeConnections.toNat - peers.length := by
  induction peers generalizing pool with
  | nil => exact ⟨rfl, rfl⟩
  | cons peerId peers ih =>
      obtain ⟨table, active⟩ := ih (pool.dropPeer peerId)
      refine ⟨table, ?_⟩
      rw [List.foldl_cons, active, List.length_cons]
      simp only [dropPeer, countOneLess, toNat_saturatingPred]
      omega

/-- A peer is dropped when one of its connections is stale. -/
theorem mem_stalePeers_iff (config : ConnectionPoolConfig)
    (nonempty : pool.NoEmptyPeer) (clock : PeerId → Nat → SystemTime)
    {entry : Sigma fun _ : PeerId => List PeerConnection}
    (member : entry ∈ pool.peerConnections.entries) :
    entry.1 ∈ stalePeers config pool clock ↔
      staleCount config (clock entry.1) entry.2 ≠ 0 := by
  have filled := List.length_pos_iff.mpr (nonempty entry member)
  have own : entry.1 ∈ stalePeersOf config clock entry.1 entry.2 ↔
      staleCount config (clock entry.1) entry.2 ≠ 0 := by
    rw [stalePeersOf, List.mem_append, List.mem_replicate]
    have empty := retained_eq_nil_iff config (clock entry.1) entry.2
    split
    · next nothing =>
        rw [empty] at nothing
        simp only [List.mem_singleton, and_true, or_true, true_iff]
        omega
    · simp
  rw [← own, stalePeers, List.mem_flatMap]
  constructor
  · intro listed
    obtain ⟨other, otherMember, inside⟩ := listed
    have samePeer : entry.1 = other.1 := by
      rw [stalePeersOf, List.mem_append, List.mem_replicate] at inside
      rcases inside with repeated | last
      · exact repeated.2
      · split at last
        · exact List.mem_singleton.mp last
        · cases last
    obtain ⟨peerId, connections⟩ := entry
    obtain ⟨otherId, otherConnections⟩ := other
    obtain rfl : peerId = otherId := samePeer
    rw [mem_entries_unique member otherMember]
    exact inside
  · intro inside
    exact ⟨entry, member, inside⟩

theorem entries_maintain (config : ConnectionPoolConfig)
    (nonempty : pool.NoEmptyPeer) (clock : PeerId → Nat → SystemTime)
    (now : SystemTime) :
    (pool.maintain config clock now).peerConnections.entries =
      pool.peerConnections.entries.filter (fun entry =>
        staleCount config (clock entry.1) entry.2 = 0) := by
  have swept := (foldl_dropPeer (stalePeers config pool clock)
    { pool with
      peerConnections := mapValues (fun peerId connections =>
        retained config (clock peerId) connections) pool.peerConnections }).1
  have entries : (pool.maintain config clock now).peerConnections.entries =
      (pool.peerConnections.entries.filter (fun entry =>
        entry.1 ∉ stalePeers config pool clock)).map (fun entry =>
          ⟨entry.1, retained config (clock entry.1) entry.2⟩) := by
    simp only [maintain]
    rw [swept, entries_eraseAll]
    simp only [mapValues]
    rw [List.filter_map]
    congr 1
    apply List.filter_congr
    intro entry _
    exact decide_eq_decide.mpr Iff.rfl
  have fresh : pool.peerConnections.entries.filter (fun entry =>
      entry.1 ∉ stalePeers config pool clock) =
        pool.peerConnections.entries.filter (fun entry =>
          staleCount config (clock entry.1) entry.2 = 0) := by
    apply List.filter_congr
    intro entry member
    have dropped := mem_stalePeers_iff config nonempty clock member
    simp only [dropped, ne_eq, Decidable.not_not]
  rw [entries, fresh]
  apply (List.map_congr_left ?_).trans (List.map_id _)
  intro entry member
  have isFresh := of_decide_eq_true (List.mem_filter.mp member).2
  rw [retained_eq_self isFresh]
  rfl

/-- The counter goes down once for every stale connection and once more for
every peer that is left without one. -/
theorem active_maintain (clock : PeerId → Nat → SystemTime)
    (now : SystemTime) :
    (pool.maintain config clock now).poolStats.activeConnections.toNat =
      pool.poolStats.activeConnections.toNat -
        (pool.peerConnections.entries.map (fun entry =>
          staleCount config (clock entry.1) entry.2 +
            if staleCount config (clock entry.1) entry.2 = entry.2.length then 1
            else 0)).sum := by
  have swept := (foldl_dropPeer (stalePeers config pool clock)
    { pool with
      peerConnections := mapValues (fun peerId connections =>
        retained config (clock peerId) connections) pool.peerConnections }).2
  simp only [maintain]
  rw [swept, stalePeers, List.length_flatMap]
  congr 3
  funext entry
  have empty := retained_eq_nil_iff config (clock entry.1) entry.2
  simp only [stalePeersOf, List.length_append, List.length_replicate, empty]
  split <;> rfl

/-- No connection is stale. -/
def NoneStale (config : ConnectionPoolConfig) (pool : ConnectionPool)
    (clock : PeerId → Nat → SystemTime) : Prop :=
  ∀ peerId, staleCount config (clock peerId) (pool.connectionsOf peerId) = 0

/-- Every connection is stale. -/
def AllStale (config : ConnectionPoolConfig) (pool : ConnectionPool)
    (clock : PeerId → Nat → SystemTime) : Prop :=
  ∀ peerId, retained config (clock peerId) (pool.connectionsOf peerId) = []

/-- The pass takes away the stale connections of every peer and no others. -/
def RemovesStale (config : ConnectionPoolConfig) (before : ConnectionPool)
    (clock : PeerId → Nat → SystemTime) (after : ConnectionPool) : Prop :=
  ∀ peerId, after.connectionsOf peerId =
    retained config (clock peerId) (before.connectionsOf peerId)

theorem connectionsOf_of_absent {peerId : PeerId}
    (absent : ∀ connections, ⟨peerId, connections⟩ ∉
      pool.peerConnections.entries) :
    pool.connectionsOf peerId = [] := by
  unfold connectionsOf
  cases found : pool.peerConnections.lookup peerId with
  | none => rfl
  | some connections =>
      exact absurd (AList.mem_lookup_iff.mp found) (absent connections)

theorem connectionsOf_cases (pool : ConnectionPool) (peerId : PeerId) :
    pool.connectionsOf peerId = [] ∨
      ⟨peerId, pool.connectionsOf peerId⟩ ∈ pool.peerConnections.entries := by
  unfold connectionsOf
  cases found : pool.peerConnections.lookup peerId with
  | none => exact Or.inl rfl
  | some connections => exact Or.inr (AList.mem_lookup_iff.mp found)

/-- Conditions on the connections of every peer are conditions on the
entries. -/
theorem forall_connectionsOf_iff (pool : ConnectionPool)
    (condition : PeerId → List PeerConnection → Prop)
    (ofNone : ∀ peerId, condition peerId []) :
    (∀ peerId, condition peerId (pool.connectionsOf peerId)) ↔
      ∀ entry ∈ pool.peerConnections.entries, condition entry.1 entry.2 := by
  constructor
  · intro ofPeers entry member
    have own := ofPeers entry.1
    rw [connectionsOf_of_mem member] at own
    exact own
  · intro ofEntries peerId
    rcases connectionsOf_cases pool peerId with nothing | member
    · rw [nothing]
      exact ofNone peerId
    · exact ofEntries _ member

theorem connectionsOf_maintain (nonempty : pool.NoEmptyPeer)
    (clock : PeerId → Nat → SystemTime) (now : SystemTime) (peerId : PeerId) :
    (pool.maintain config clock now).connectionsOf peerId =
      if staleCount config (clock peerId) (pool.connectionsOf peerId) = 0 then
        pool.connectionsOf peerId
      else [] := by
  have entries := entries_maintain config nonempty clock now
  split
  · next fresh =>
      rcases connectionsOf_cases pool peerId with nothing | member
      · rw [nothing]
        apply connectionsOf_of_absent
        intro connections member
        rw [entries] at member
        have own := connectionsOf_of_mem (List.mem_filter.mp member).1
        rw [nothing] at own
        exact nonempty _ (List.mem_filter.mp member).1 own.symm
      · have kept : (⟨peerId, pool.connectionsOf peerId⟩ : Sigma fun _ =>
            List PeerConnection) ∈
              (pool.maintain config clock now).peerConnections.entries := by
          rw [entries]
          exact List.mem_filter.mpr ⟨member, decide_eq_true fresh⟩
        exact connectionsOf_of_mem kept
  · next stale =>
      apply connectionsOf_of_absent
      intro connections member
      rw [entries] at member
      obtain ⟨inPool, isFresh⟩ := List.mem_filter.mp member
      have own := connectionsOf_of_mem inPool
      have fresh := of_decide_eq_true isFresh
      rw [← own] at fresh
      exact stale fresh

theorem removesStale_maintain_iff (nonempty : pool.NoEmptyPeer)
    (clock : PeerId → Nat → SystemTime) (now : SystemTime) :
    RemovesStale config pool clock (pool.maintain config clock now) ↔
      ∀ entry ∈ pool.peerConnections.entries,
        staleCount config (clock entry.1) entry.2 = 0 ∨
          staleCount config (clock entry.1) entry.2 = entry.2.length := by
  rw [← forall_connectionsOf_iff pool (fun peerId connections =>
    staleCount config (clock peerId) connections = 0 ∨
      staleCount config (clock peerId) connections = connections.length)
    (fun _ => Or.inl rfl)]
  refine forall_congr' fun peerId => ?_
  rw [connectionsOf_maintain nonempty]
  split
  · next fresh => exact iff_of_true (retained_eq_self fresh).symm (Or.inl fresh)
  · next stale =>
      rw [eq_comm, retained_eq_nil_iff]
      exact (or_iff_right stale).symm

/-- Where each entry is fresh or stale as a whole, the counter loses as much as
the fresh entries leave over and one for each other entry. -/
private theorem sums_of_uniform {ε : Type} (size stale : ε → Nat)
    (entries : List ε) (filled : ∀ entry ∈ entries, 0 < size entry)
    (uniform : ∀ entry ∈ entries,
      stale entry = 0 ∨ stale entry = size entry) :
    ∃ live gone full,
      ((entries.filter (fun entry => stale entry = 0)).map size).sum = live ∧
      (entries.map size).sum = live + gone ∧
      (entries.map (fun entry =>
        stale entry + if stale entry = size entry then 1 else 0)).sum =
          gone + full ∧
      (live = 0 ↔ ∀ entry ∈ entries, stale entry = size entry) ∧
      (full = 0 ↔ ∀ entry ∈ entries, stale entry = 0) := by
  induction entries with
  | nil => exact ⟨0, 0, 0, rfl, rfl, rfl, by simp, by simp⟩
  | cons entry entries ih =>
      obtain ⟨live, gone, full, lives, sizes, stales, allGone, noneGone⟩ :=
        ih (fun later member => filled later (List.mem_cons_of_mem _ member))
          (fun later member => uniform later (List.mem_cons_of_mem _ member))
      have positive := filled entry List.mem_cons_self
      rcases uniform entry List.mem_cons_self with fresh | whole
      · refine ⟨size entry + live, gone, full, ?_, ?_, ?_, ?_, ?_⟩
        · rw [List.filter_cons_of_pos (by simpa using fresh), List.map_cons,
            List.sum_cons, lives]
        · rw [List.map_cons, List.sum_cons, sizes]
          omega
        · rw [List.map_cons, List.sum_cons, stales, if_neg (by omega)]
          omega
        · rw [List.forall_mem_cons]
          omega
        · rw [List.forall_mem_cons, noneGone]
          exact (and_iff_right fresh).symm
      · refine ⟨live, size entry + gone, full + 1, ?_, ?_, ?_, ?_, ?_⟩
        · rw [List.filter_cons_of_neg (by simp; omega), lives]
        · rw [List.map_cons, List.sum_cons, sizes]
          omega
        · rw [List.map_cons, List.sum_cons, stales, if_pos whole]
          omega
        · rw [List.forall_mem_cons, allGone]
          exact (and_iff_right whole).symm
        · rw [List.forall_mem_cons]
          omega

/-- When every peer has only live connections or only stale ones, the counter
is right afterwards if the whole pool is of one kind. -/
theorem accurate_maintain_iff (accurate : pool.Accurate)
    (nonempty : pool.NoEmptyPeer) (clock : PeerId → Nat → SystemTime)
    (now : SystemTime)
    (uniform : ∀ entry ∈ pool.peerConnections.entries,
      staleCount config (clock entry.1) entry.2 = 0 ∨
        staleCount config (clock entry.1) entry.2 = entry.2.length) :
    (pool.maintain config clock now).Accurate ↔
      (∀ entry ∈ pool.peerConnections.entries,
        staleCount config (clock entry.1) entry.2 = 0) ∨
      ∀ entry ∈ pool.peerConnections.entries,
        staleCount config (clock entry.1) entry.2 = entry.2.length := by
  obtain ⟨live, gone, full, lives, sizes, stales, allGone, noneGone⟩ :=
    sums_of_uniform
      (fun entry : (Sigma fun _ : PeerId => List PeerConnection) =>
        entry.2.length)
      (fun entry => staleCount config (clock entry.1) entry.2)
      pool.peerConnections.entries
      (fun entry member => List.length_pos_iff.mpr (nonempty entry member))
      uniform
  have active : (pool.maintain config clock
      now).poolStats.activeConnections.toNat =
        (live + gone) - (gone + full) := by
    rw [active_maintain clock now, accurate, ← stales, ← sizes]
    rfl
  have left : (pool.maintain config clock now).total = live := by
    rw [total, load, entries_maintain config nonempty clock now]
    exact lives
  rw [Accurate, active, left, ← allGone, ← noneGone]
  omega

theorem maintain_exact_iff (accurate : pool.Accurate)
    (nonempty : pool.NoEmptyPeer) (clock : PeerId → Nat → SystemTime)
    (now : SystemTime) :
    (pool.maintain config clock now).Accurate ∧
        RemovesStale config pool clock (pool.maintain config clock now) ↔
      NoneStale config pool clock ∨ AllStale config pool clock := by
  have none := forall_connectionsOf_iff pool (fun peerId connections =>
    staleCount config (clock peerId) connections = 0) (fun _ => rfl)
  have all := forall_connectionsOf_iff pool (fun peerId connections =>
    retained config (clock peerId) connections = []) (fun _ => rfl)
  simp only [retained_eq_nil_iff] at all
  simp only [NoneStale, AllStale, retained_eq_nil_iff]
  rw [none, all, removesStale_maintain_iff nonempty]
  constructor
  · intro both
    obtain ⟨accurateAfter, uniform⟩ := both
    exact (accurate_maintain_iff accurate nonempty clock now uniform).mp
      accurateAfter
  · intro condition
    have uniform : ∀ entry ∈ pool.peerConnections.entries,
        staleCount config (clock entry.1) entry.2 = 0 ∨
          staleCount config (clock entry.1) entry.2 = entry.2.length := by
      intro entry member
      rcases condition with fresh | stale
      · exact Or.inl (fresh entry member)
      · exact Or.inr (stale entry member)
    exact ⟨(accurate_maintain_iff accurate nonempty clock now uniform).mpr
      condition, uniform⟩

theorem noEmptyPeer_erase (nonempty : pool.NoEmptyPeer) (peerId : PeerId) :
    ∀ entry ∈ (pool.peerConnections.erase peerId).entries, entry.2 ≠ [] := by
  intro entry member
  rw [entries_erase] at member
  exact nonempty entry (List.mem_filter.mp member).1

theorem noEmptyPeer_step (nonempty : pool.NoEmptyPeer) (call : PoolStep) :
    (pool.step config call).NoEmptyPeer := by
  cases call with
  | add peerId address createdAt lastActivity =>
      intro entry member
      simp only [step, addToConnectionPool, AList.entries_insert] at member
      rcases List.mem_cons.mp member with new | old
      · rw [new]
        exact List.append_ne_nil_of_right_ne_nil _ (List.cons_ne_nil _ _)
      · exact noEmptyPeer_erase nonempty peerId entry old
  | remove peerId =>
      simp only [step, removeFromConnectionPool]
      split
      · exact nonempty
      · exact noEmptyPeer_erase nonempty peerId
  | addToRetryQueue peerId address error now =>
      simp only [step, addToRetryQueue]
      split
      · exact nonempty
      · exact nonempty
  | maintain clock now =>
      intro entry member
      rw [step, entries_maintain config nonempty] at member
      exact nonempty entry (List.mem_filter.mp member).1

theorem accurate_addToRetryQueue_iff (peerId : PeerId) (address : SocketAddr)
    (error : String) (now : SystemTime) :
    (pool.addToRetryQueue config peerId address error now).Accurate ↔
      pool.Accurate := by
  unfold addToRetryQueue
  split
  · exact Iff.rfl
  · exact Iff.rfl

/-- What the pass has to do to the pool; the other calls may do anything. -/
def Transition (config : ConnectionPoolConfig) (before : ConnectionPool)
    (call : PoolStep) (after : ConnectionPool) : Prop :=
  match call with
  | .maintain clock _ => RemovesStale config before clock after
  | _ => True

/-- The counter has room for one more, a peer that is removed has at most one
connection, and a pass finds no connection stale or finds all of them stale. -/
def StepKept (config : ConnectionPoolConfig) (pool : ConnectionPool) :
    PoolStep → Prop
  | .add _ _ _ _ => pool.total + 1 < 4294967296
  | .remove peerId => (pool.connectionsOf peerId).length ≤ 1
  | .addToRetryQueue _ _ _ _ => True
  | .maintain clock _ =>
      NoneStale config pool clock ∨ AllStale config pool clock

theorem step_exact_iff (nonempty : pool.NoEmptyPeer) (accurate : pool.Accurate)
    (call : PoolStep) :
    (pool.step config call).Accurate ∧
        Transition config pool call (pool.step config call) ↔
      StepKept config pool call := by
  cases call with
  | add peerId address createdAt lastActivity =>
      simp only [step, Transition, and_true]
      exact accurate_add_iff accurate peerId address createdAt lastActivity
  | remove peerId =>
      simp only [step, Transition, and_true]
      exact accurate_remove_iff accurate nonempty peerId
  | addToRetryQueue peerId address error now =>
      simp only [step, Transition, and_true]
      refine iff_of_true ?_ trivial
      exact (accurate_addToRetryQueue_iff peerId address error now).mpr accurate
  | maintain clock now => exact maintain_exact_iff accurate nonempty clock now

/-- No call returns anything. -/
def act (config : ConnectionPoolConfig) (pool : ConnectionPool)
    (call : PoolStep) : Unit × ConnectionPool :=
  ((), pool.step config call)

theorem pool_exact_iff (config : ConnectionPoolConfig) (calls : List PoolStep) :
    ((∀ before, before <+: calls →
        (Trace.final (act config) ConnectionPool.default before).Accurate) ∧
      ∀ before clock now, before ++ [.maintain clock now] <+: calls →
        RemovesStale config
          (Trace.final (act config) ConnectionPool.default before) clock
          (Trace.final (act config) ConnectionPool.default
            (before ++ [.maintain clock now]))) ↔
      Trace.Along (act config) (StepKept config) ConnectionPool.default
        calls := by
  have nonempty : ConnectionPool.default.NoEmptyPeer := by
    intro entry member
    cases member
  rw [← Trace.throughout_steps_iff NoEmptyPeer Accurate (Transition config)
    (fun pool call holds => noEmptyPeer_step holds call)
    (fun pool call holds accurate => step_exact_iff holds accurate call) calls
    nonempty rfl]
  refine and_congr Iff.rfl ?_
  constructor
  · intro passes before call isPrefix
    cases call with
    | maintain clock now => exact passes before clock now isPrefix
    | add | remove | addToRetryQueue => trivial
  · intro steps before clock now isPrefix
    exact steps before (.maintain clock now) isPrefix

def samplePeerId : PeerId := Vector.replicate 32 7

def sampleAddress : SocketAddr := .v4 #v[10, 0, 0, 1] 443

def firstTime : SystemTime := SystemTime.ofUnixSecs 1700000200 (by decide)

/-- Half a minute and a second later. -/
def secondTime : SystemTime := SystemTime.ofUnixSecs 1700000231 (by decide)

/-- A peer with a stale connection and a live one, and then a pass. -/
def mixedCalls : List PoolStep :=
  [.add samplePeerId sampleAddress firstTime firstTime,
    .add samplePeerId sampleAddress secondTime secondTime,
    .maintain (fun _ _ => secondTime) secondTime]

/-- The live connection goes as well, and is still counted. -/
theorem live_connection_removed :
    ¬ (Trace.final (act .default) ConnectionPool.default mixedCalls).Accurate ∧
      ¬ RemovesStale .default
        (Trace.final (act .default) ConnectionPool.default (mixedCalls.take 2))
        (fun _ _ => secondTime)
        (Trace.final (act .default) ConnectionPool.default mixedCalls) := by
  constructor
  · unfold Accurate
    decide +kernel
  · intro removes
    have samplePeer := removes samplePeerId
    revert samplePeer
    decide +kernel

end ConnectionPool

end NyxNet.P2p
