import Mathlib.Data.String.Basic
import NyxNet.Daemon.PeerDiscovery
import NyxNet.Lib.FloatOrder
import NyxNet.Lib.LimitedPush

/-!
# Discovering peers

`discover_peers` of `nyx-daemon/src/path_builder.rs`: peers that match the
criteria come out of the cache, and where these are too few or too old the
bootstrap peers are asked, then some of the peers that they named.  What the
network answers and how long that takes is given.
-/

namespace NyxNet.Paths

open Dht LimitedPush

/-- `matches_criteria`. -/
def matchesCriteria (cachedPeer : CachedPeerInfo) : DiscoveryCriteria → Bool
  | .byLatency maxLatency =>
      cachedPeer.latencyMs.all fun latency => latency ≤ maxLatency
  | .byBandwidth minBandwidth =>
      cachedPeer.bandwidthMbps.all fun bandwidth => bandwidth ≥ minBandwidth
  | .byRegion region =>
      cachedPeer.region.all fun peerRegion => peerRegion = region
  | .byCapability capability => cachedPeer.capabilities.contains capability
  | .random _ => true
  | .highPerformance =>
      cachedPeer.latencyMs.any (fun latency => latency < 100) &&
        cachedPeer.bandwidthMbps.any (fun bandwidth => bandwidth > 100)
  | .geographicDiversity => true
  | .reliability => true
  | .all => true

/-- `matches_criteria_proto`. -/
def matchesCriteriaProto (peer : ProtoPeerInfo) : DiscoveryCriteria → Bool
  | .byLatency maxLatency => peer.latencyMs ≤ maxLatency
  | .byBandwidth minBandwidth => peer.bandwidthMbps ≥ minBandwidth
  | .byRegion region => peer.region = region
  | .byCapability _ => true
  | .random _ => true
  | .highPerformance => peer.latencyMs < 100 && peer.bandwidthMbps > 100
  | .geographicDiversity => true
  | .reliability => true
  | .all => true

/-- The errors of discovery. -/
inductive DiscoveryError where
  | dht (error : DhtError)
  | network
  | connection (message : String)
  | protocol (message : String)
  | notInitialized (message : String)
  deriving DecidableEq, Repr

/-- A node of an answer, how long it took to connect to it and when. -/
structure AnsweredNode where
  node : Dht.PeerInfo
  connection : Option Float
  now : Int64

/-- How the exchange with a peer ends that is sent a `FindNode` message. -/
inductive QueryAnswer where
  | failed (error : DiscoveryError)
  | findNodeResponse (nodes : List AnsweredNode)
  | pong
  | unexpected

/-- The answers to the bootstrap queries and to those for neighbors, by the
place of the peer that is asked. -/
structure Network where
  bootstrap : Nat → QueryAnswer
  neighbors : Nat → QueryAnswer

/-- The peer of a node, unless the conversion refuses it. -/
def AnsweredNode.peer (criteria : DiscoveryCriteria) (answered : AnsweredNode) :
    Option ProtoPeerInfo :=
  (convertDhtNodeToPeerInfo answered.node criteria
    (estimatePeerLatency answered.node.address answered.connection)
    answered.now).toOption

/-- `connect_and_query_bootstrap_peer`. -/
def connectAndQueryBootstrapPeer (criteria : DiscoveryCriteria)
    (bootstrapAddr : Multiaddr) (answer : QueryAnswer) :
    Except DiscoveryError (List ProtoPeerInfo) :=
  match multiaddrToSocketAddr bootstrapAddr with
  | .error error => .error (.dht error)
  | .ok _ =>
      match answer with
      | .failed error => .error error
      | .findNodeResponse nodes =>
          .ok (nodes.filterMap (AnsweredNode.peer criteria))
      | .pong => .error (.protocol "Unexpected response type")
      | .unexpected => .error (.protocol "Unexpected response type")

/-- `query_peer_for_neighbors`. -/
def queryPeerForNeighbors (criteria : DiscoveryCriteria) (peerAddr : Multiaddr)
    (answer : QueryAnswer) : Except DiscoveryError (List ProtoPeerInfo) :=
  match multiaddrToSocketAddr peerAddr with
  | .error error => .error (.dht error)
  | .ok _ =>
      match answer with
      | .failed error => .error error
      | .findNodeResponse nodes =>
          .ok (((nodes.take 20).filterMap (AnsweredNode.peer criteria)).filter
            fun peer => peer.latencyMs < 2000 && peer.status ≠ "failed")
      | .pong => .ok []
      | .unexpected => .error (.protocol "Unexpected response type")

/-- What `DhtPeerDiscovery` reads of itself besides its cache. -/
structure DhtPeerDiscovery where
  dhtInitialized : Bool
  maxPeersPerQuery : Nat
  refreshIntervalSecs : UInt64
  bootstrapPeers : List Multiaddr

namespace DhtPeerDiscovery

variable (discovery : DhtPeerDiscovery) (parse : String → Option Multiaddr)
  (network : Network) (criteria : DiscoveryCriteria)

/-- Phase 1: the bootstrap peers are asked until there are enough peers.  The
number counts those that answered. -/
def bootstrapPhase : Nat → List Multiaddr → List ProtoPeerInfo × Nat →
    List ProtoPeerInfo × Nat
  | _, [], state => state
  | index, bootstrapAddr :: rest, (discoveredPeers, successCount) =>
      let state :=
        match connectAndQueryBootstrapPeer criteria bootstrapAddr
            (network.bootstrap index) with
        | .ok peers =>
            (pushAll (unknown ProtoPeerInfo.nodeId) discoveredPeers
              (peers.map fun peer => { peer with connectionCount := 1 }),
              successCount + 1)
        | .error _ => (discoveredPeers, successCount)
      if discovery.maxPeersPerQuery ≤ state.1.length then
        state
      else
        bootstrapPhase (index + 1) rest state

/-- The loop of `perform_iterative_discovery`. -/
def neighborLoop (seedPeers : List ProtoPeerInfo) :
    Nat → List String → List ProtoPeerInfo → List ProtoPeerInfo →
      List ProtoPeerInfo
  | _, _, [], allDiscovered => allDiscovered
  | index, queriedPeers, seedPeer :: rest, allDiscovered =>
      if seedPeer.nodeId ∈ queriedPeers then
        neighborLoop seedPeers (index + 1) queriedPeers rest allDiscovered
      else
        let allDiscovered :=
          match parse seedPeer.address with
          | none => allDiscovered
          | some peerAddr =>
              match queryPeerForNeighbors criteria peerAddr
                  (network.neighbors index) with
              | .ok neighbors =>
                  pushAll (fun known => unknown ProtoPeerInfo.nodeId
                    (known ++ seedPeers)) allDiscovered neighbors
              | .error _ => allDiscovered
        if discovery.maxPeersPerQuery / 2 ≤ allDiscovered.length then
          allDiscovered
        else
          neighborLoop seedPeers (index + 1) (seedPeer.nodeId :: queriedPeers)
            rest allDiscovered

/-- `perform_iterative_discovery`. -/
def performIterativeDiscovery (seedPeers : List ProtoPeerInfo) :
    List ProtoPeerInfo :=
  let queryPeers := (seedPeers.filter fun peer =>
    peer.status = "discovered" && peer.latencyMs < 500).take 5
  discovery.neighborLoop parse network criteria seedPeers 0 [] queryPeers []

end DhtPeerDiscovery

/-- `calculate_peer_quality_score` of the discovery. -/
def calculatePeerQualityScore (peer : ProtoPeerInfo) : Float :=
  let latencyScore : Float :=
    if peer.latencyMs < 50 then 1.0
    else if peer.latencyMs < 200 then 0.8
    else 0.5
  let bandwidthScore : Float :=
    if peer.bandwidthMbps > 100 then 1.0
    else if peer.bandwidthMbps > 50 then 0.8
    else 0.6
  let connectionScore : Float :=
    if peer.connectionCount > 5 then 1.0
    else if peer.connectionCount > 0 then 0.8
    else 0.5
  latencyScore * 0.4 + bandwidthScore * 0.3 + connectionScore * 0.3

/-- The peers that the filter of every criteria keeps. -/
def isUsable (peer : ProtoPeerInfo) : Bool :=
  peer.latencyMs < 5000 && peer.bandwidthMbps > 0 && peer.nodeId ≠ "" &&
    peer.address ≠ ""

/-- `assess_and_filter_discovered_peers`, the best scores first. -/
def assessAndFilterDiscoveredPeers (criteria : DiscoveryCriteria)
    (peers : List ProtoPeerInfo) : List ProtoPeerInfo :=
  let peers := peers.filter isUsable
  let peers : List ProtoPeerInfo := match criteria with
    | .highPerformance => peers.filter fun peer =>
        peer.latencyMs < 100 && peer.bandwidthMbps > 100
    | .reliability => peers.filter fun peer => peer.connectionCount > 0
    | .geographicDiversity => peers.mergeSort fun left right =>
        !decide (right.region < left.region)
    | _ => peers
  peers.mergeSort fun left right =>
    !decide (calculatePeerQualityScore left < calculatePeerQualityScore right)

namespace DhtPeerDiscovery

variable (discovery : DhtPeerDiscovery) (parse : String → Option Multiaddr)
  (network : Network) (criteria : DiscoveryCriteria)

/-- `perform_active_discovery`.  Its peers are also what `update_peer_cache`
puts into the cache. -/
def performActiveDiscovery : Except DiscoveryError (List ProtoPeerInfo) :=
  if discovery.dhtInitialized then
    let (bootstrapped, successCount) :=
      discovery.bootstrapPhase network criteria 0 discovery.bootstrapPeers
        ([], 0)
    let discoveredPeers :=
      if bootstrapped.length < discovery.maxPeersPerQuery ∧
          0 < successCount then
        pushUpTo (unknown ProtoPeerInfo.nodeId) discovery.maxPeersPerQuery
          bootstrapped (discovery.performIterativeDiscovery parse network
            criteria bootstrapped)
      else
        bootstrapped
    .ok (assessAndFilterDiscoveredPeers criteria discoveredPeers)
  else
    .error (.notInitialized "DHT not initialized")

/-- The peers that are taken out of the cache, given how long ago each of them
was seen. -/
def cachedHits (cache : PeerCache) (ages : String → UInt64) :
    List ProtoPeerInfo :=
  pushUpTo (fun _ entry =>
    if matchesCriteria entry.2 criteria then
      some (convertToPeerInfo entry.2 (ages entry.1))
    else
      none) discovery.maxPeersPerQuery [] cache

/-- What the last filter of `discover_peers` keeps. -/
def stays (peer : ProtoPeerInfo) : Bool :=
  peer.status ≠ "failed" && peer.latencyMs < 1000

/-- The peers of the cache, merged with fresh ones where the last discovery lies
that far back or there are too few. -/
def mergedPeers (cache : PeerCache) (ages : String → UInt64)
    (elapsedSecs : UInt64) : Except DiscoveryError (List ProtoPeerInfo) :=
  let shouldRefresh := elapsedSecs > discovery.refreshIntervalSecs
  let hits := discovery.cachedHits criteria cache ages
  if hits.length < discovery.maxPeersPerQuery ∨ shouldRefresh then
    match discovery.performActiveDiscovery parse network criteria with
    | .error error => .error error
    | .ok freshPeers =>
        .ok (pushUpTo (unknown ProtoPeerInfo.nodeId)
          discovery.maxPeersPerQuery hits freshPeers)
  else
    .ok hits

/-- `discover_peers`. -/
def discoverPeers (cache : PeerCache) (ages : String → UInt64)
    (elapsedSecs : UInt64) : Except DiscoveryError (List ProtoPeerInfo) :=
  match discovery.mergedPeers parse network criteria cache ages elapsedSecs with
  | .error error => .error error
  | .ok discoveredPeers =>
      .ok ((discoveredPeers.filter stays).mergeSort fun left right =>
        !decide (right.latencyMs < left.latencyMs))

end DhtPeerDiscovery

/-- An answer holds a node that the peer is made of. -/
def Network.Names (network : Network) (criteria : DiscoveryCriteria)
    (peer : ProtoPeerInfo) : Prop :=
  ∃ index nodes,
    (network.bootstrap index = .findNodeResponse nodes ∨
      network.neighbors index = .findNodeResponse nodes) ∧
    ∃ answered ∈ nodes, answered.peer criteria = some peer

variable {criteria : DiscoveryCriteria} {network : Network}
  {parse : String → Option Multiaddr} {discovery : DhtPeerDiscovery}

/-- What a peer is made of. -/
theorem eq_of_peer {answered : AnsweredNode} {peer : ProtoPeerInfo}
    (made : answered.peer criteria = some peer) :
    ∃ normalizedAddr,
      validateAndNormalizeAddress answered.node.address.text =
        .ok normalizedAddr ∧
      peer =
        { nodeId := answered.node.peerId
          address := normalizedAddr
          latencyMs := (estimatePeerLatency answered.node.address
            answered.connection).getD 999
          bandwidthMbps := estimatePeerBandwidth normalizedAddr
          status := "discovered"
          lastSeen := some ⟨answered.now, 0⟩
          connectionCount := 1
          region := determinePeerRegion answered.node.address.text } := by
  unfold AnsweredNode.peer convertDhtNodeToPeerInfo at made
  cases normalized : validateAndNormalizeAddress answered.node.address.text with
  | error error =>
      rw [normalized] at made
      cases made
  | ok normalizedAddr =>
      simp only [normalized] at made
      refine ⟨normalizedAddr, rfl, ?_⟩
      split at made
      all_goals
        first
          | cases made; rfl
          | split at made
            · cases made
            · cases made; rfl

theorem marks_of_peer {answered : AnsweredNode} {peer : ProtoPeerInfo}
    (made : answered.peer criteria = some peer) :
    peer.connectionCount = 1 ∧ peer.status = "discovered" := by
  obtain ⟨_, -, rfl⟩ := eq_of_peer made
  exact ⟨rfl, rfl⟩

theorem names_of_connectAndQueryBootstrapPeer {index : Nat}
    {bootstrapAddr : Multiaddr} {peers : List ProtoPeerInfo}
    (queried : connectAndQueryBootstrapPeer criteria bootstrapAddr
      (network.bootstrap index) = .ok peers) :
    ∀ peer ∈ peers, peer.connectionCount = 1 ∧ network.Names criteria peer := by
  intro peer member
  unfold connectAndQueryBootstrapPeer at queried
  split at queried
  · cases queried
  · cases answer : network.bootstrap index with
    | failed error =>
        rw [answer] at queried
        cases queried
    | pong =>
        rw [answer] at queried
        cases queried
    | unexpected =>
        rw [answer] at queried
        cases queried
    | findNodeResponse nodes =>
        rw [answer] at queried
        cases queried
        obtain ⟨answered, answeredMember, made⟩ := List.mem_filterMap.mp member
        exact ⟨(marks_of_peer made).1, index, nodes, .inl answer, answered,
          answeredMember, made⟩

theorem names_of_queryPeerForNeighbors {index : Nat} {peerAddr : Multiaddr}
    {peers : List ProtoPeerInfo}
    (queried : queryPeerForNeighbors criteria peerAddr
      (network.neighbors index) = .ok peers) :
    ∀ peer ∈ peers, network.Names criteria peer := by
  intro peer member
  unfold queryPeerForNeighbors at queried
  split at queried
  · cases queried
  · cases answer : network.neighbors index with
    | failed error =>
        rw [answer] at queried
        cases queried
    | pong =>
        rw [answer] at queried
        cases queried
        cases member
    | unexpected =>
        rw [answer] at queried
        cases queried
    | findNodeResponse nodes =>
        rw [answer] at queried
        cases queried
        obtain ⟨answered, answeredMember, made⟩ :=
          List.mem_filterMap.mp (List.mem_filter.mp member).1
        exact ⟨index, nodes, .inr answer, answered,
          List.mem_of_mem_take answeredMember, made⟩

/-- Distinct peers, all of them named by an answer. -/
structure Network.Gathered (network : Network) (criteria : DiscoveryCriteria)
    (peers : List ProtoPeerInfo) : Prop where
  distinct : (peers.map ProtoPeerInfo.nodeId).Nodup
  named : ∀ peer ∈ peers, network.Names criteria peer

theorem Network.Gathered.nil : network.Gathered criteria [] :=
  ⟨List.nodup_nil, fun _ member => nomatch member⟩

theorem Network.Gathered.pushAll {known peers : List ProtoPeerInfo}
    (gathered : network.Gathered criteria known)
    (named : ∀ peer ∈ peers, network.Names criteria peer) :
    network.Gathered criteria
      (pushAll (unknown ProtoPeerInfo.nodeId) known peers) where
  distinct := nodup_pushAll_unknown gathered.distinct
  named := by
    intro peer member
    obtain old | new := mem_of_mem_pushAll_unknown member
    · exact gathered.named peer old
    · exact named peer new

theorem Network.Gathered.pushUpTo {known peers : List ProtoPeerInfo}
    {limit : Nat} (gathered : network.Gathered criteria known)
    (named : ∀ peer ∈ peers, network.Names criteria peer) :
    network.Gathered criteria
      (pushUpTo (unknown ProtoPeerInfo.nodeId) limit known peers) where
  distinct := nodup_pushUpTo_unknown gathered.distinct
  named := by
    intro peer member
    exact (gathered.pushAll named).named peer
      (mem_pushAll_of_mem_pushUpTo member)

theorem gathered_bootstrapPhase {index : Nat} {bootstrapPeers : List Multiaddr}
    {state : List ProtoPeerInfo × Nat}
    (gathered : network.Gathered criteria state.1) :
    network.Gathered criteria
      (discovery.bootstrapPhase network criteria index bootstrapPeers
        state).1 := by
  induction bootstrapPeers generalizing index state with
  | nil => exact gathered
  | cons bootstrapAddr rest ih =>
      obtain ⟨discoveredPeers, successCount⟩ := state
      rw [DhtPeerDiscovery.bootstrapPhase]
      cases queried : connectAndQueryBootstrapPeer criteria bootstrapAddr
          (network.bootstrap index) with
      | error error =>
          simp only
          split
          · exact gathered
          · exact ih gathered
      | ok peers =>
          have names := names_of_connectAndQueryBootstrapPeer queried
          have marked : (peers.map fun peer =>
              { peer with connectionCount := 1 }) = peers := by
            refine (List.map_congr_left ?_).trans (List.map_id peers)
            intro peer member
            rw [← (names peer member).1]
            rfl
          have next := gathered.pushAll fun peer member =>
            (names peer member).2
          simp only [marked]
          split
          · exact next
          · exact ih next

theorem names_of_neighborLoop {seedPeers queryPeers : List ProtoPeerInfo}
    {index : Nat} {queriedPeers : List String}
    {allDiscovered : List ProtoPeerInfo}
    (named : ∀ peer ∈ allDiscovered, network.Names criteria peer) :
    ∀ peer ∈ discovery.neighborLoop parse network criteria seedPeers index
      queriedPeers queryPeers allDiscovered,
      network.Names criteria peer := by
  induction queryPeers generalizing index queriedPeers allDiscovered with
  | nil => exact named
  | cons seedPeer rest ih =>
      rw [DhtPeerDiscovery.neighborLoop]
      split
      · exact ih named
      · cases parse seedPeer.address with
        | none =>
            simp only
            split
            · exact named
            · exact ih named
        | some peerAddr =>
            simp only
            cases queried : queryPeerForNeighbors criteria peerAddr
                (network.neighbors index) with
            | error error =>
                simp only
                split
                · exact named
                · exact ih named
            | ok neighbors =>
                have next : ∀ peer ∈ pushAll (fun known =>
                    unknown ProtoPeerInfo.nodeId (known ++ seedPeers))
                      allDiscovered neighbors,
                    network.Names criteria peer := by
                  intro peer member
                  obtain old | ⟨item, itemMember, before, made⟩ :=
                    mem_pushAll member
                  · exact named peer old
                  · cases (unknown_eq_some_iff.mp made).1
                    exact names_of_queryPeerForNeighbors queried peer itemMember
                simp only
                split
                · exact next
                · exact ih next

/-- The assessment drops peers and puts the others in order. -/
theorem assessAndFilterDiscoveredPeers_perm (criteria : DiscoveryCriteria)
    (peers : List ProtoPeerInfo) :
    ∃ keep : ProtoPeerInfo → Bool,
      (assessAndFilterDiscoveredPeers criteria peers).Perm
        ((peers.filter isUsable).filter keep) ∧
      (criteria = .highPerformance → keep = fun peer =>
        peer.latencyMs < 100 && peer.bandwidthMbps > 100) := by
  have everything : ∀ others : List ProtoPeerInfo,
      others.filter (fun _ => true) = others :=
    fun others => List.filter_true others
  unfold assessAndFilterDiscoveredPeers
  cases criteria with
  | highPerformance =>
      exact ⟨_, List.mergeSort_perm _ _, fun _ => rfl⟩
  | reliability =>
      exact ⟨_, List.mergeSort_perm _ _, fun same => nomatch same⟩
  | geographicDiversity =>
      refine ⟨fun _ => true, ?_, fun same => nomatch same⟩
      rw [everything]
      exact (List.mergeSort_perm _ _).trans (List.mergeSort_perm _ _)
  | byRegion | byCapability | byLatency | byBandwidth | random | all =>
      refine ⟨fun _ => true, ?_, fun same => nomatch same⟩
      rw [everything]
      exact List.mergeSort_perm _ _

theorem mem_assessAndFilterDiscoveredPeers {peers : List ProtoPeerInfo}
    {peer : ProtoPeerInfo}
    (member : peer ∈ assessAndFilterDiscoveredPeers criteria peers) :
    peer ∈ peers ∧ isUsable peer = true ∧
      (criteria = .highPerformance →
        (peer.latencyMs < 100 && peer.bandwidthMbps > 100) = true) := by
  obtain ⟨keep, permuted, kept⟩ :=
    assessAndFilterDiscoveredPeers_perm criteria peers
  obtain ⟨usable, keeps⟩ := List.mem_filter.mp (permuted.mem_iff.mp member)
  obtain ⟨original, isUsable⟩ := List.mem_filter.mp usable
  refine ⟨original, isUsable, ?_⟩
  intro same
  rw [kept same] at keeps
  exact keeps

theorem Network.Gathered.assessed {peers : List ProtoPeerInfo}
    (gathered : network.Gathered criteria peers) :
    network.Gathered criteria
      (assessAndFilterDiscoveredPeers criteria peers) where
  distinct := by
    obtain ⟨keep, permuted, -⟩ :=
      assessAndFilterDiscoveredPeers_perm criteria peers
    apply (permuted.map ProtoPeerInfo.nodeId).nodup_iff.mpr
    exact gathered.distinct.sublist
      ((List.filter_sublist.trans List.filter_sublist).map _)
  named := fun peer member =>
    gathered.named peer (mem_assessAndFilterDiscoveredPeers member).1

namespace DhtPeerDiscovery

/-- What is discovered actively is distinct and named by an answer, and it has
passed the assessment. -/
theorem gathered_performActiveDiscovery {freshPeers : List ProtoPeerInfo}
    (performed : discovery.performActiveDiscovery parse network criteria =
      .ok freshPeers) :
    network.Gathered criteria freshPeers ∧
      ∀ peer ∈ freshPeers, isUsable peer = true ∧
        (criteria = .highPerformance →
          (peer.latencyMs < 100 && peer.bandwidthMbps > 100) = true) := by
  unfold performActiveDiscovery at performed
  split at performed
  · have bootstrapped : network.Gathered criteria
        (discovery.bootstrapPhase network criteria 0 discovery.bootstrapPeers
          ([], 0)).1 :=
      gathered_bootstrapPhase .nil
    cases performed
    refine ⟨Network.Gathered.assessed ?_, ?_⟩
    · split
      · exact bootstrapped.pushUpTo
          (names_of_neighborLoop fun _ member => nomatch member)
      · exact bootstrapped
    · intro peer member
      exact (mem_assessAndFilterDiscoveredPeers member).2
  · cases performed

end DhtPeerDiscovery

namespace PeerCache

/-- Every peer is stored once and under its own id. -/
structure Keyed (cache : PeerCache) : Prop where
  distinct : (List.map Prod.fst cache).Nodup
  own : ∀ entry ∈ cache, entry.2.peerId = entry.1

theorem Keyed.sublist {cache other : PeerCache} (keyed : cache.Keyed)
    (kept : List.Sublist other cache) : other.Keyed where
  distinct := keyed.distinct.sublist (kept.map _)
  own := fun entry member => keyed.own entry (kept.subset member)

theorem Keyed.put {cache : PeerCache} (keyed : cache.Keyed)
    (peer : CachedPeerInfo) : (cache.put peer.peerId peer).Keyed := by
  have others := keyed.sublist
    (List.filter_sublist (p := fun entry => entry.1 ≠ peer.peerId))
  refine Keyed.sublist ?_ (List.take_sublist 1000 _)
  constructor
  · rw [List.map_cons]
    refine List.nodup_cons.mpr ⟨?_, others.distinct⟩
    intro present
    obtain ⟨entry, member, same⟩ := List.mem_map.mp present
    exact of_decide_eq_true (List.mem_filter.mp member).2 same
  · intro entry member
    obtain rfl | old := List.mem_cons.mp member
    · rfl
    · exact others.own entry old

/-- What writes to the cache while discoveries run: `update_peer_cache` with the
peers of a discovery, and the maintenance, which drops what was not seen for an
hour. -/
inductive Step where
  | update (peers : List ProtoPeerInfo)
  | maintain (isStale : String → Bool)

variable (parse)

def apply (cache : PeerCache) : Step → PeerCache
  | .update peers => updatePeerCache parse cache peers
  | .maintain isStale => List.filter (fun entry => !isStale entry.1) cache

theorem Keyed.apply {cache : PeerCache} (keyed : cache.Keyed) (step : Step) :
    (cache.apply parse step).Keyed := by
  cases step with
  | maintain isStale => exact keyed.sublist List.filter_sublist
  | update peers =>
      rw [PeerCache.apply, updatePeerCache]
      induction peers generalizing cache with
      | nil => exact keyed
      | cons peer peers ih => exact ih (keyed.put (cachedPeer parse peer))

/-- The cache after some steps. -/
def after (cache : PeerCache) (steps : List Step) : PeerCache :=
  steps.foldl (PeerCache.apply parse) cache

theorem Keyed.after {cache : PeerCache} (keyed : cache.Keyed)
    (steps : List Step) : (cache.after parse steps).Keyed := by
  induction steps generalizing cache with
  | nil => exact keyed
  | cons step steps ih => exact ih (keyed.apply parse step)

end PeerCache

deriving instance DecidableEq for Timestamp, ProtoPeerInfo

/-- A peer of the cache. -/
def storedPeer : CachedPeerInfo where
  peerId := "peer_1"
  addresses := [⟨"/ip4/10.0.0.1/tcp/443"⟩]
  capabilities := []
  region := some "local"
  location := none
  latencyMs := some 20
  reliabilityScore := 0.8
  bandwidthMbps := some 500
  responseTimeMs := some 20

def smallDiscovery : DhtPeerDiscovery where
  dhtInitialized := true
  maxPeersPerQuery := 1
  refreshIntervalSecs := 300
  bootstrapPeers := [⟨"/ip4/10.0.0.9/tcp/33445"⟩]

/-- The bootstrap peer names a node. -/
def answeringNetwork : Network where
  bootstrap := fun _ => .findNodeResponse
    [{ node :=
        { peerId := "peer_2"
          address := ⟨"/dns4/node.example.com:443"⟩
          publicKey := []
          lastSeen := SystemTime.unixEpoch
          avgResponseTime := Duration.fromMillis 20 }
       connection := none
       now := 1700000000 }]
  neighbors := fun _ => .unexpected

def answeredPeer : ProtoPeerInfo where
  nodeId := "peer_2"
  address := "/dns4/node.example.com:443"
  latencyMs := 999
  bandwidthMbps := 100
  status := "discovered"
  lastSeen := some ⟨1700000000, 0⟩
  connectionCount := 1
  region := "americas"

theorem smallDiscovery_performed :
    smallDiscovery.performActiveDiscovery sampleParse answeringNetwork .all =
      .ok [answeredPeer] := by
  have bootstrapped : smallDiscovery.bootstrapPhase answeringNetwork .all 0
      smallDiscovery.bootstrapPeers ([], 0) = ([answeredPeer], 1) := by
    decide +kernel
  have usable : [answeredPeer].filter isUsable = [answeredPeer] := by
    decide +kernel
  unfold DhtPeerDiscovery.performActiveDiscovery
  rw [bootstrapped]
  unfold assessAndFilterDiscoveredPeers
  change Except.ok (List.mergeSort ([answeredPeer].filter isUsable) _) = _
  rw [usable, List.mergeSort_singleton]

/-- A discovery with a refresh. -/
theorem discoverPeers_of_performed {cache : PeerCache} {ages : String → UInt64}
    {elapsedSecs : UInt64} {freshPeers peers : List ProtoPeerInfo}
    (performed : discovery.performActiveDiscovery parse network criteria =
      .ok freshPeers)
    (due : (discovery.cachedHits criteria cache ages).length <
        discovery.maxPeersPerQuery ∨
      elapsedSecs > discovery.refreshIntervalSecs)
    (stayed : (pushUpTo (unknown ProtoPeerInfo.nodeId)
      discovery.maxPeersPerQuery (discovery.cachedHits criteria cache ages)
      freshPeers).filter DhtPeerDiscovery.stays = peers)
    (sorted : peers.Pairwise fun left right =>
      (!decide (right.latencyMs < left.latencyMs)) = true) :
    discovery.discoverPeers parse network criteria cache ages elapsedSecs =
      .ok peers := by
  unfold DhtPeerDiscovery.discoverPeers DhtPeerDiscovery.mergedPeers
  simp only [performed, if_pos due, stayed]
  exact congrArg Except.ok (List.mergeSort_of_pairwise sorted)

theorem smallDiscovery_found :
    smallDiscovery.discoverPeers sampleParse answeringNetwork .all
      [("peer_1", storedPeer)] (fun _ => 0) 400 =
      .ok [convertToPeerInfo storedPeer 0, answeredPeer] :=
  discoverPeers_of_performed smallDiscovery_performed (.inr (by decide))
    (by decide +kernel) (by decide +kernel)

namespace DhtPeerDiscovery

/-- A peer of the cache that matches the criteria. -/
def IsCached (criteria : DiscoveryCriteria) (cache : PeerCache)
    (ages : String → UInt64) (peer : ProtoPeerInfo) : Prop :=
  ∃ entry ∈ cache, matchesCriteria entry.2 criteria = true ∧
    convertToPeerInfo entry.2 (ages entry.1) = peer

variable {cache : PeerCache} {ages : String → UInt64} {elapsedSecs : UInt64}

/-- The hits are the first of the peers that match. -/
theorem cachedHits_eq :
    discovery.cachedHits criteria cache ages =
      ((List.filter (fun entry => matchesCriteria entry.2 criteria) cache).map
        fun entry => convertToPeerInfo entry.2 (ages entry.1)).take
        (max 1 discovery.maxPeersPerQuery) := by
  rw [cachedHits, pushUpTo_eq_take, pushAll_filterMap, List.nil_append,
    List.length_nil, ← List.filterMap_eq_map, List.filterMap_filter]
  rfl

theorem isCached_of_hit {peer : ProtoPeerInfo}
    (member : peer ∈ discovery.cachedHits criteria cache ages) :
    IsCached criteria cache ages peer := by
  rw [cachedHits_eq] at member
  obtain ⟨entry, matching, converted⟩ :=
    List.mem_map.mp (List.mem_of_mem_take member)
  obtain ⟨entryMember, isMatch⟩ := List.mem_filter.mp matching
  exact ⟨entry, entryMember, isMatch, converted⟩

theorem nodup_cachedHits (keyed : cache.Keyed) :
    ((discovery.cachedHits criteria cache ages).map
      ProtoPeerInfo.nodeId).Nodup := by
  rw [cachedHits_eq, List.map_take, List.map_map]
  refine List.Nodup.sublist (List.take_sublist _ _) ?_
  have keys : (List.filter (fun entry : String × CachedPeerInfo =>
        matchesCriteria entry.2 criteria) cache).map
        (ProtoPeerInfo.nodeId ∘ fun entry =>
          convertToPeerInfo entry.2 (ages entry.1)) =
      (List.filter (fun entry : String × CachedPeerInfo =>
        matchesCriteria entry.2 criteria) cache).map Prod.fst := by
    apply List.map_congr_left
    intro entry member
    exact keyed.own entry (List.mem_filter.mp member).1
  rw [keys]
  exact keyed.distinct.sublist (List.filter_sublist.map _)

theorem length_cachedHits_le :
    (discovery.cachedHits criteria cache ages).length ≤
      max 1 discovery.maxPeersPerQuery := by
  rw [cachedHits_eq]
  exact List.length_take_le _ _

/-- The fresh peers that a merge takes behind the hits. -/
def newcomers (limit : Nat) (hits freshPeers : List ProtoPeerInfo) :
    List ProtoPeerInfo :=
  (freshPeers.filter fun fresh =>
    fresh.nodeId ∉ hits.map ProtoPeerInfo.nodeId).take
      (max 1 (limit - hits.length))

theorem merge_eq_append {hits freshPeers : List ProtoPeerInfo}
    (performed : discovery.performActiveDiscovery parse network criteria =
      .ok freshPeers) :
    pushUpTo (unknown ProtoPeerInfo.nodeId) discovery.maxPeersPerQuery hits
        freshPeers =
      hits ++ newcomers discovery.maxPeersPerQuery hits freshPeers :=
  pushUpTo_unknown_of_nodup
    (gathered_performActiveDiscovery performed).1.distinct

/-- Where the hits fill the limit, it is the first fresh peer that is not one of
them. -/
theorem newcomers_of_full {limit : Nat} {hits : List ProtoPeerInfo}
    (full : limit ≤ hits.length) (freshPeers : List ProtoPeerInfo) :
    newcomers limit hits freshPeers =
      (freshPeers.find? fun fresh =>
        fresh.nodeId ∉ hits.map ProtoPeerInfo.nodeId).toList := by
  rw [newcomers, Nat.sub_eq_zero_of_le full, Nat.max_eq_left Nat.one_pos.le,
    List.take_one, List.head?_filter]

/-- A refresh of hits that fill the limit: none of them is dropped, and a fresh
peer that is taken stays too. -/
def Overfull (discovery : DhtPeerDiscovery) (parse : String → Option Multiaddr)
    (network : Network) (criteria : DiscoveryCriteria) (cache : PeerCache)
    (ages : String → UInt64) (elapsedSecs : UInt64) : Prop :=
  ∃ freshPeers,
    discovery.refreshIntervalSecs < elapsedSecs ∧
    discovery.performActiveDiscovery parse network criteria =
      .ok freshPeers ∧
    (discovery.cachedHits criteria cache ages).length =
      discovery.maxPeersPerQuery ∧
    (∀ hit ∈ discovery.cachedHits criteria cache ages, stays hit = true) ∧
    ∃ peer ∈ newcomers discovery.maxPeersPerQuery
      (discovery.cachedHits criteria cache ages) freshPeers,
      stays peer = true

variable {merged peers : List ProtoPeerInfo}

/-- The merge takes the hits alone, or as many fresh peers behind them as the
limit leaves room for. -/
theorem mergedPeers_cases
    (made : discovery.mergedPeers parse network criteria cache ages
      elapsedSecs = .ok merged) :
    (discovery.maxPeersPerQuery ≤
        (discovery.cachedHits criteria cache ages).length ∧
      elapsedSecs ≤ discovery.refreshIntervalSecs ∧
      merged = discovery.cachedHits criteria cache ages) ∨
    ((discovery.cachedHits criteria cache ages).length <
        discovery.maxPeersPerQuery ∨
        discovery.refreshIntervalSecs < elapsedSecs) ∧
      ∃ freshPeers,
        discovery.performActiveDiscovery parse network criteria =
          .ok freshPeers ∧
        merged = pushUpTo (unknown ProtoPeerInfo.nodeId)
          discovery.maxPeersPerQuery
          (discovery.cachedHits criteria cache ages) freshPeers := by
  unfold mergedPeers at made
  simp only at made
  split at made
  · next due =>
      split at made
      · cases made
      · next freshPeers performed =>
          cases made
          exact .inr ⟨due, freshPeers, performed, rfl⟩
  · next done =>
      cases made
      rw [not_or, Nat.not_lt, UInt64.not_lt] at done
      exact .inl ⟨done.1, done.2, rfl⟩

theorem discoverPeers_cases
    (found : discovery.discoverPeers parse network criteria cache ages
      elapsedSecs = .ok peers) :
    ∃ merged, discovery.mergedPeers parse network criteria cache ages
        elapsedSecs = .ok merged ∧
      peers = (merged.filter stays).mergeSort fun left right =>
        !decide (right.latencyMs < left.latencyMs) := by
  unfold discoverPeers at found
  split at found
  · cases found
  · next merged made =>
      cases found
      exact ⟨merged, made, rfl⟩

theorem nodup_mergedPeers (keyed : cache.Keyed)
    (made : discovery.mergedPeers parse network criteria cache ages
      elapsedSecs = .ok merged) :
    (merged.map ProtoPeerInfo.nodeId).Nodup := by
  obtain ⟨-, -, rfl⟩ | ⟨-, freshPeers, -, rfl⟩ := mergedPeers_cases made
  · exact nodup_cachedHits keyed
  · exact nodup_pushUpTo_unknown (nodup_cachedHits keyed)

/-- Every peer comes out of the cache or out of an answer. -/
theorem origin_mergedPeers
    (made : discovery.mergedPeers parse network criteria cache ages
      elapsedSecs = .ok merged) :
    ∀ peer ∈ merged, IsCached criteria cache ages peer ∨
      network.Names criteria peer ∧ isUsable peer = true ∧
        (criteria = .highPerformance →
          (peer.latencyMs < 100 && peer.bandwidthMbps > 100) = true) := by
  intro peer member
  obtain ⟨-, -, rfl⟩ | ⟨-, freshPeers, performed, rfl⟩ :=
    mergedPeers_cases made
  · exact .inl (isCached_of_hit member)
  · obtain ⟨gathered, assessed⟩ := gathered_performActiveDiscovery performed
    obtain hit | fresh :=
      mem_of_mem_pushAll_unknown (mem_pushAll_of_mem_pushUpTo member)
    · exact .inl (isCached_of_hit hit)
    · exact .inr ⟨gathered.named peer fresh, assessed peer fresh⟩

theorem number_of_stays {peer : ProtoPeerInfo} (kept : stays peer = true) :
    peer.latencyMs.isNaN = false := by
  rw [stays, Bool.and_eq_true, decide_eq_true_eq, decide_eq_true_eq] at kept
  exact (FloatOrder.numbers_of_lt kept.2).1

theorem nodup_discoverPeers (keyed : cache.Keyed)
    (found : discovery.discoverPeers parse network criteria cache ages
      elapsedSecs = .ok peers) :
    (peers.map ProtoPeerInfo.nodeId).Nodup := by
  obtain ⟨merged, made, rfl⟩ := discoverPeers_cases found
  apply ((List.mergeSort_perm (merged.filter stays) _).map
    ProtoPeerInfo.nodeId).nodup_iff.mpr
  exact (nodup_mergedPeers keyed made).sublist (List.filter_sublist.map _)

theorem origin_discoverPeers
    (found : discovery.discoverPeers parse network criteria cache ages
      elapsedSecs = .ok peers) :
    ∀ peer ∈ peers, stays peer = true ∧
      (IsCached criteria cache ages peer ∨
        network.Names criteria peer ∧ isUsable peer = true ∧
          (criteria = .highPerformance →
            (peer.latencyMs < 100 && peer.bandwidthMbps > 100) = true)) := by
  obtain ⟨merged, made, rfl⟩ := discoverPeers_cases found
  intro peer member
  obtain ⟨mergedMember, stayed⟩ :=
    List.mem_filter.mp (List.mem_mergeSort.mp member)
  exact ⟨stayed, origin_mergedPeers made peer mergedMember⟩

theorem sorted_discoverPeers
    (found : discovery.discoverPeers parse network criteria cache ages
      elapsedSecs = .ok peers) :
    peers.Pairwise fun left right => left.latencyMs ≤ right.latencyMs := by
  obtain ⟨merged, -, rfl⟩ := discoverPeers_cases found
  apply FloatOrder.pairwise_mergeSort
  intro peer member
  exact number_of_stays (List.mem_filter.mp member).2

/-- Whatever was put into the cache before, a discovery returns distinct peers,
sorted by their latency, at most one more than the limit, and makes none of them
up. -/
theorem discoverPeers_sound (discovery : DhtPeerDiscovery)
    (parse : String → Option Multiaddr) (network : Network)
    (criteria : DiscoveryCriteria) (loaded : PeerCache) (keyed : loaded.Keyed)
    (steps : List PeerCache.Step) (ages : String → UInt64)
    (elapsedSecs : UInt64) (peers : List ProtoPeerInfo)
    (found : discovery.discoverPeers parse network criteria
      (loaded.after parse steps) ages elapsedSecs = .ok peers) :
    (peers.map ProtoPeerInfo.nodeId).Nodup ∧
      peers.Pairwise (fun left right => left.latencyMs ≤ right.latencyMs) ∧
      peers.length ≤ max 1 discovery.maxPeersPerQuery + 1 ∧
      ∀ peer ∈ peers, peer.status ≠ "failed" ∧ peer.latencyMs < 1000 ∧
        (IsCached criteria (loaded.after parse steps) ages peer ∨
          network.Names criteria peer ∧ isUsable peer = true) := by
  refine ⟨nodup_discoverPeers (keyed.after parse steps) found,
    sorted_discoverPeers found, ?_, ?_⟩
  · obtain ⟨merged, made, rfl⟩ := discoverPeers_cases found
    rw [List.length_mergeSort]
    have kept : (merged.filter stays).length ≤ merged.length :=
      List.length_filter_le stays merged
    have hits : (discovery.cachedHits criteria (loaded.after parse steps)
        ages).length ≤ max 1 discovery.maxPeersPerQuery := length_cachedHits_le
    obtain ⟨-, -, rfl⟩ | ⟨-, freshPeers, -, rfl⟩ := mergedPeers_cases made
    · omega
    · have room : (pushUpTo (unknown ProtoPeerInfo.nodeId)
          discovery.maxPeersPerQuery (discovery.cachedHits criteria
            (loaded.after parse steps) ages) freshPeers).length ≤ _ :=
        length_pushUpTo_le
      omega
  · intro peer member
    obtain ⟨stayed, origin⟩ := origin_discoverPeers found peer member
    rw [stays, Bool.and_eq_true, decide_eq_true_eq, decide_eq_true_eq] at stayed
    refine ⟨stayed.1, stayed.2, ?_⟩
    exact origin.imp id fun fresh => ⟨fresh.1, fresh.2.1⟩

theorem discoverPeers_sound_sample :
    ([convertToPeerInfo storedPeer 0, answeredPeer].map
        ProtoPeerInfo.nodeId).Nodup ∧
      [convertToPeerInfo storedPeer 0, answeredPeer].Pairwise
        (fun left right => left.latencyMs ≤ right.latencyMs) ∧
      [convertToPeerInfo storedPeer 0, answeredPeer].length ≤
        max 1 smallDiscovery.maxPeersPerQuery + 1 ∧
      ∀ peer ∈ [convertToPeerInfo storedPeer 0, answeredPeer],
        peer.status ≠ "failed" ∧ peer.latencyMs < 1000 ∧
        (IsCached .all (PeerCache.after sampleParse [("peer_1", storedPeer)] [])
            (fun _ => 0) peer ∨
          answeringNetwork.Names .all peer ∧ isUsable peer = true) :=
  discoverPeers_sound smallDiscovery sampleParse answeringNetwork .all
    [("peer_1", storedPeer)] ⟨by decide, by decide⟩ [] (fun _ => 0) 400 _
    smallDiscovery_found

/-- There is room for the fresh peers unless a refresh is due although the hits
fill the limit. -/
theorem length_discoverPeers_le_iff (positive : 0 < discovery.maxPeersPerQuery)
    (found : discovery.discoverPeers parse network criteria cache ages
      elapsedSecs = .ok peers) :
    peers.length ≤ discovery.maxPeersPerQuery ↔
      ¬ discovery.Overfull parse network criteria cache ages elapsedSecs := by
  obtain ⟨merged, made, rfl⟩ := discoverPeers_cases found
  rw [List.length_mergeSort]
  have hitsLe : (discovery.cachedHits criteria cache ages).length ≤
      max 1 discovery.maxPeersPerQuery := length_cachedHits_le
  have hitsStay := List.length_filter_le stays
    (discovery.cachedHits criteria cache ages)
  obtain ⟨full, recent, rfl⟩ | ⟨due, freshPeers, performed, rfl⟩ :=
    mergedPeers_cases made
  · constructor
    · rintro - ⟨freshPeers, late, -⟩
      exact absurd late (UInt64.not_lt.mpr recent)
    · intro _
      omega
  · rw [merge_eq_append performed, List.filter_append, List.length_append]
    have taken : (newcomers discovery.maxPeersPerQuery
        (discovery.cachedHits criteria cache ages) freshPeers).length ≤
        max 1 (discovery.maxPeersPerQuery -
          (discovery.cachedHits criteria cache ages).length) :=
      List.length_take_le _ _
    have newcomersStay := List.length_filter_le stays
      (newcomers discovery.maxPeersPerQuery
        (discovery.cachedHits criteria cache ages) freshPeers)
    constructor
    · rintro within ⟨_, -, again, fills, allStay, peer, member, stayed⟩
      rw [performed] at again
      cases again
      have one : 0 < (List.filter stays (newcomers discovery.maxPeersPerQuery
          (discovery.cachedHits criteria cache ages) freshPeers)).length :=
        List.length_pos_of_mem (List.mem_filter.mpr ⟨member, stayed⟩)
      rw [List.filter_eq_self.mpr allStay, fills] at within
      omega
    · intro never
      by_contra tooMany
      have fills : (discovery.cachedHits criteria cache ages).length =
          discovery.maxPeersPerQuery := by omega
      have late := due.resolve_left (by omega)
      refine never ⟨freshPeers, late, performed, fills, ?_, ?_⟩
      · exact List.length_filter_eq_length_iff.mp (by omega)
      · have some : 0 < (List.filter stays (newcomers
            discovery.maxPeersPerQuery
            (discovery.cachedHits criteria cache ages) freshPeers)).length := by
          omega
        obtain ⟨peer, member⟩ := List.exists_mem_of_length_pos some
        exact ⟨peer, List.mem_filter.mp member⟩

/-- A discovery returns more peers than the limit exactly where a refresh is due
although the cache fills the limit: nothing of the cache is dropped and the
first fresh peer that is not in it stays too. -/
theorem discoverPeers_within_limit_iff (discovery : DhtPeerDiscovery)
    (parse : String → Option Multiaddr) (network : Network)
    (criteria : DiscoveryCriteria) (cache : PeerCache) (ages : String → UInt64)
    (elapsedSecs : UInt64) (peers : List ProtoPeerInfo)
    (positive : 0 < discovery.maxPeersPerQuery)
    (found : discovery.discoverPeers parse network criteria cache ages
      elapsedSecs = .ok peers) :
    peers.length ≤ discovery.maxPeersPerQuery ↔
      ¬ ∃ freshPeers peer,
        discovery.refreshIntervalSecs < elapsedSecs ∧
        discovery.performActiveDiscovery parse network criteria =
          .ok freshPeers ∧
        (discovery.cachedHits criteria cache ages).length =
          discovery.maxPeersPerQuery ∧
        (∀ hit ∈ discovery.cachedHits criteria cache ages,
          stays hit = true) ∧
        freshPeers.find? (fun fresh => fresh.nodeId ∉
          (discovery.cachedHits criteria cache ages).map
            ProtoPeerInfo.nodeId) = some peer ∧
        stays peer = true := by
  rw [length_discoverPeers_le_iff positive found]
  have first : ∀ freshPeers, (discovery.cachedHits criteria cache ages).length =
      discovery.maxPeersPerQuery →
      ∀ peer, peer ∈ newcomers discovery.maxPeersPerQuery
          (discovery.cachedHits criteria cache ages) freshPeers ↔
        freshPeers.find? (fun fresh => fresh.nodeId ∉
          (discovery.cachedHits criteria cache ages).map
            ProtoPeerInfo.nodeId) = some peer := by
    intro freshPeers fills peer
    rw [newcomers_of_full fills.ge, Option.mem_toList]
  refine not_congr (exists_congr fun freshPeers => ?_)
  constructor
  · rintro ⟨late, performed, fills, allStay, peer, member, stayed⟩
    exact ⟨peer, late, performed, fills, allStay,
      (first freshPeers fills peer).mp member, stayed⟩
  · rintro ⟨peer, late, performed, fills, allStay, isFirst, stayed⟩
    exact ⟨late, performed, fills, allStay, peer,
      (first freshPeers fills peer).mpr isFirst, stayed⟩

/-- Two peers are returned where one is the limit. -/
theorem discoverPeers_within_limit_sample :
    [convertToPeerInfo storedPeer 0, answeredPeer].length ≤ 1 ↔
      ¬ ∃ freshPeers peer,
        (300 : UInt64) < 400 ∧
        smallDiscovery.performActiveDiscovery sampleParse answeringNetwork
          .all = .ok freshPeers ∧
        (smallDiscovery.cachedHits .all [("peer_1", storedPeer)]
          (fun _ => 0)).length = 1 ∧
        (∀ hit ∈ smallDiscovery.cachedHits .all [("peer_1", storedPeer)]
          (fun _ => 0), stays hit = true) ∧
        freshPeers.find? (fun fresh => fresh.nodeId ∉
          (smallDiscovery.cachedHits .all [("peer_1", storedPeer)]
            (fun _ => 0)).map ProtoPeerInfo.nodeId) = some peer ∧
        stays peer = true :=
  discoverPeers_within_limit_iff smallDiscovery sampleParse answeringNetwork
    .all [("peer_1", storedPeer)] (fun _ => 0) 400 _ Nat.one_pos
    smallDiscovery_found

end DhtPeerDiscovery

/-- The criteria that no filter of fresh peers looks at. -/
inductive Untested : DiscoveryCriteria → Prop
  | byRegion (region : String) : Untested (.byRegion region)
  | byLatency (maxLatency : Float) : Untested (.byLatency maxLatency)
  | byBandwidth (minBandwidth : Float) : Untested (.byBandwidth minBandwidth)

variable (untested : Untested criteria)
include untested

theorem peer_of_untested :
    AnsweredNode.peer criteria = AnsweredNode.peer .all := by
  funext answered
  cases untested <;> rfl

theorem assess_of_untested :
    assessAndFilterDiscoveredPeers criteria =
      assessAndFilterDiscoveredPeers .all := by
  funext peers
  cases untested <;> rfl

theorem bootstrapPhase_of_untested (index : Nat)
    (bootstrapPeers : List Multiaddr) (state : List ProtoPeerInfo × Nat) :
    discovery.bootstrapPhase network criteria index bootstrapPeers state =
      discovery.bootstrapPhase network .all index bootstrapPeers state := by
  induction bootstrapPeers generalizing index state with
  | nil => rfl
  | cons bootstrapAddr rest ih =>
      obtain ⟨discoveredPeers, successCount⟩ := state
      have queried : connectAndQueryBootstrapPeer criteria =
          connectAndQueryBootstrapPeer .all := by
        funext bootstrapAddr answer
        unfold connectAndQueryBootstrapPeer
        rw [peer_of_untested untested]
      simp only [DhtPeerDiscovery.bootstrapPhase, queried, ih]

theorem neighborLoop_of_untested (seedPeers queryPeers : List ProtoPeerInfo)
    (index : Nat) (queriedPeers : List String)
    (allDiscovered : List ProtoPeerInfo) :
    discovery.neighborLoop parse network criteria seedPeers index queriedPeers
        queryPeers allDiscovered =
      discovery.neighborLoop parse network .all seedPeers index queriedPeers
        queryPeers allDiscovered := by
  induction queryPeers generalizing index queriedPeers allDiscovered with
  | nil => rfl
  | cons seedPeer rest ih =>
      have queried : queryPeerForNeighbors criteria =
          queryPeerForNeighbors .all := by
        funext peerAddr answer
        unfold queryPeerForNeighbors
        rw [peer_of_untested untested]
      simp only [DhtPeerDiscovery.neighborLoop, queried, ih]

theorem performActiveDiscovery_of_untested :
    discovery.performActiveDiscovery parse network criteria =
      discovery.performActiveDiscovery parse network .all := by
  simp only [DhtPeerDiscovery.performActiveDiscovery,
    DhtPeerDiscovery.performIterativeDiscovery,
    bootstrapPhase_of_untested untested, neighborLoop_of_untested untested,
    assess_of_untested untested]

omit untested

theorem matchesProto_of_cached {cachedPeer : CachedPeerInfo}
    {elapsedSecs : UInt64}
    (matched : matchesCriteria cachedPeer .highPerformance = true) :
    matchesCriteriaProto (convertToPeerInfo cachedPeer elapsedSecs)
      .highPerformance = true := by
  unfold matchesCriteria at matched
  obtain ⟨fast, wide⟩ := Bool.and_eq_true_iff.mp matched
  cases latency : cachedPeer.latencyMs with
  | none =>
      rw [latency, Option.any_none] at fast
      cases fast
  | some latencyMs =>
      cases bandwidth : cachedPeer.bandwidthMbps with
      | none =>
          rw [bandwidth, Option.any_none] at wide
          cases wide
      | some bandwidthMbps =>
          rw [latency, Option.any_some] at fast
          rw [bandwidth, Option.any_some] at wide
          rw [matchesCriteriaProto, convertToPeerInfo, latency, bandwidth,
            Option.getD_some, Option.getD_some, fast, wide, Bool.and_self]

theorem highPerformance_discoverPeers {cache : PeerCache}
    {ages : String → UInt64} {elapsedSecs : UInt64} {peers : List ProtoPeerInfo}
    (found : discovery.discoverPeers parse network .highPerformance cache ages
      elapsedSecs = .ok peers) :
    ∀ peer ∈ peers, matchesCriteriaProto peer .highPerformance = true := by
  intro peer member
  obtain ⟨entry, -, matched, rfl⟩ | ⟨-, -, assessed⟩ :=
    (DhtPeerDiscovery.origin_discoverPeers found peer member).2
  · exact matchesProto_of_cached matched
  · exact assessed rfl

theorem matches_of_tested {cache : PeerCache} {ages : String → UInt64}
    {elapsedSecs : UInt64} {peers : List ProtoPeerInfo}
    (tested : ¬ Untested criteria)
    (found : discovery.discoverPeers parse network criteria cache ages
      elapsedSecs = .ok peers) :
    ∀ peer ∈ peers, matchesCriteriaProto peer criteria = true := by
  intro peer member
  cases criteria with
  | byRegion region => exact absurd (.byRegion region) tested
  | byLatency maxLatency => exact absurd (.byLatency maxLatency) tested
  | byBandwidth minBandwidth => exact absurd (.byBandwidth minBandwidth) tested
  | byCapability | random | geographicDiversity | reliability | all => rfl
  | highPerformance => exact highPerformance_discoverPeers found peer member

/-- A discovery by region, latency or bandwidth asks the network what a
discovery of all peers asks, and takes everything that it names.  By all other
criteria, the peers that are returned match. -/
theorem discoverPeers_criteria (discovery : DhtPeerDiscovery)
    (parse : String → Option Multiaddr) (network : Network)
    (criteria : DiscoveryCriteria) (cache : PeerCache) (ages : String → UInt64)
    (elapsedSecs : UInt64) (peers : List ProtoPeerInfo)
    (found : discovery.discoverPeers parse network criteria cache ages
      elapsedSecs = .ok peers) :
    (Untested criteria →
      discovery.performActiveDiscovery parse network criteria =
        discovery.performActiveDiscovery parse network .all) ∧
    (¬ Untested criteria →
      ∀ peer ∈ peers, matchesCriteriaProto peer criteria = true) := by
  exact ⟨performActiveDiscovery_of_untested,
    fun tested => matches_of_tested tested found⟩

/-- Another peer of the cache. -/
def neighborPeer : CachedPeerInfo :=
  { storedPeer with
    peerId := "peer_3"
    addresses := [⟨"/ip4/10.0.0.2/tcp/443"⟩]
    latencyMs := some 30 }

def pairCache : PeerCache :=
  [("peer_1", storedPeer), ("peer_3", neighborPeer)]

def pairParse (text : String) : Option Multiaddr :=
  if text = "/ip4/10.0.0.1/tcp/443" ∨ text = "/ip4/10.0.0.2/tcp/443" ∨
      text = "/ip4/127.0.0.1/tcp/0" then
    some ⟨text⟩
  else
    none

/-- The discovery with its own settings. -/
def standardDiscovery : DhtPeerDiscovery :=
  { smallDiscovery with maxPeersPerQuery := 50 }

/-- The bootstrap peer names a node of a wide link. -/
def fastNetwork : Network where
  bootstrap := fun _ => .findNodeResponse
    [{ node :=
        { peerId := "peer_2"
          address := ⟨"/ip4/10.0.0.4/dns4/node.example.com:443"⟩
          publicKey := []
          lastSeen := SystemTime.unixEpoch
          avgResponseTime := Duration.fromMillis 50 }
       connection := some 50
       now := 1700000000 }]
  neighbors := fun _ => .unexpected

def fastPeer : ProtoPeerInfo :=
  { answeredPeer with
    address := "/ip4/10.0.0.4/dns4/node.example.com:443"
    latencyMs := 50
    bandwidthMbps := 500 }

/-- Two peers of the cache and the one that an answer names. -/
def fastPeers : List ProtoPeerInfo :=
  [convertToPeerInfo storedPeer 0, convertToPeerInfo neighborPeer 0, fastPeer]

theorem standardDiscovery_performed :
    standardDiscovery.performActiveDiscovery pairParse fastNetwork
      .highPerformance = .ok [fastPeer] := by
  have bootstrapped : standardDiscovery.bootstrapPhase fastNetwork
      .highPerformance 0 standardDiscovery.bootstrapPeers ([], 0) =
      ([fastPeer], 1) := by
    decide +kernel
  have discovered : standardDiscovery.performIterativeDiscovery pairParse
      fastNetwork .highPerformance [fastPeer] = [] := by
    decide +kernel
  have usable : ([fastPeer].filter isUsable).filter (fun peer =>
      peer.latencyMs < 100 && peer.bandwidthMbps > 100) = [fastPeer] := by
    decide +kernel
  unfold DhtPeerDiscovery.performActiveDiscovery
  rw [bootstrapped]
  simp only [discovered]
  unfold assessAndFilterDiscoveredPeers
  change Except.ok (List.mergeSort (([fastPeer].filter isUsable).filter _) _) = _
  rw [usable, List.mergeSort_singleton]

theorem standardDiscovery_found :
    standardDiscovery.discoverPeers pairParse fastNetwork .highPerformance
      pairCache (fun _ => 0) 400 = .ok fastPeers :=
  discoverPeers_of_performed standardDiscovery_performed (.inr (by decide))
    (by decide +kernel) (by decide +kernel)

theorem discoverPeers_criteria_sample :
    (Untested .highPerformance →
      standardDiscovery.performActiveDiscovery pairParse fastNetwork
          .highPerformance =
        standardDiscovery.performActiveDiscovery pairParse fastNetwork .all) ∧
    (¬ Untested .highPerformance →
      ∀ peer ∈ fastPeers,
        matchesCriteriaProto peer .highPerformance = true) :=
  discoverPeers_criteria standardDiscovery pairParse fastNetwork
    .highPerformance pairCache (fun _ => 0) 400 _ standardDiscovery_found

end NyxNet.Paths
